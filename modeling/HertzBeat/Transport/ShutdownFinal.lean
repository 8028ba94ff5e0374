import HertzBeat.Transport.GrpcLoops
import HertzBeat.Transport.NettyLoops

/-!
# Whether a client stays shut down

`Shutdown` of either client clears the `started` flag and leaves the loops to notice it. What a loop
does that has already looked at the flag is what matters.

The monitor of the gRPC client looks at the flag, sleeps, and then looks at the connection. One that
is shut down is not ready, which is how a lost one looks too: the monitor starts the client again.
So a `Shutdown` is final exactly if every monitor that is alive is about to look at the flag,
`HertzBeat.shutdown_final_iff`, and as a monitor is asleep for five seconds of each
turn this is hardly ever so.

The monitor of the Netty client would only act on a connection that is nil, and there is none such:
its `Shutdown` is always final.
-/

namespace HertzBeat

open Runs

/-! ### The gRPC client -/

namespace GrpcLoops

/-- The action is a `Start` from outside. -/
def Action.isStart : Action → Bool
  | .start _ => true
  | _ => false

/-- **After a `Shutdown` in this state the client stays shut down**, as long as it is not started
from outside. -/
def ShutdownFinal (c : GrpcLoops) : Prop :=
  ∀ bs c' tr, (∀ b ∈ bs, b.isStart = false) → exec step c.shutdown bs = some (c', tr) →
    c'.started = false

variable {c c' : GrpcLoops} {a : Action} {ev : List Unit}

theorem conn_start (h : c.conn = true) (dials : Bool) : (c.start dials).conn = true := by
  unfold start
  split_ifs
  · exact h
  · rfl
  · exact h

/-- A client with monitors has a connection. -/
theorem conn_step (h : c.monitors ≠ [] → c.conn = true) (hs : step c a = some (c', ev)) :
    c'.monitors ≠ [] → c'.conn = true := by
  intro hne
  cases a with
  | start dials =>
    obtain ⟨rfl, -⟩ := Prod.mk.inj (Option.some.inj hs)
    by_cases heffect : c.started = false ∧ dials = true
    · simp [start, heffect.1, heffect.2]
    · rw [start_eq_self heffect] at hne ⊢
      exact h hne
  | shutdown =>
    obtain ⟨rfl, -⟩ := Prod.mk.inj (Option.some.inj hs)
    exact h hne
  | monitor i ready dials =>
    obtain ⟨m, hm, hpair⟩ := Option.map_eq_some_iff.mp hs
    obtain ⟨rfl, -⟩ := Prod.mk.inj hpair
    have hconn : c.conn = true := h (List.ne_nil_of_mem (List.mem_of_getElem? hm))
    cases m with
    | start =>
      rw [stepMonitor]
      exact @conn_start { c with monitors := c.monitors.set i .loop } hconn dials
    | shutdown => exact hconn
    | _ =>
      rw [stepMonitor]
      split_ifs <;> exact hconn
  | heartbeat i =>
    obtain ⟨b, -, hpair⟩ := Option.map_eq_some_iff.mp hs
    obtain ⟨rfl, -⟩ := Prod.mk.inj hpair
    cases b with
    | loop =>
      unfold stepHeartbeat at hne ⊢
      split_ifs at hne ⊢ <;> exact h hne
    | _ => exact h hne

/-- The client is down, and no monitor will do anything but end. -/
def Down (c : GrpcLoops) : Prop := c.started = false ∧ ∀ m ∈ c.monitors, m = .loop

theorem Down.step (h : c.Down) (ha : a.isStart = false) (hs : step c a = some (c', ev)) :
    c'.Down := by
  obtain ⟨hstarted, hloop⟩ := h
  cases a with
  | start dials => exact absurd ha (by simp [Action.isStart])
  | shutdown =>
    obtain ⟨rfl, -⟩ := Prod.mk.inj (Option.some.inj hs)
    exact ⟨rfl, hloop⟩
  | monitor i ready dials =>
    obtain ⟨m, hm, hpair⟩ := Option.map_eq_some_iff.mp hs
    obtain ⟨rfl, -⟩ := Prod.mk.inj hpair
    obtain rfl := hloop m (List.mem_of_getElem? hm)
    rw [stepMonitor, if_neg (Bool.eq_false_iff.mp hstarted)]
    exact ⟨hstarted, fun m' hm' => hloop m' (List.mem_of_mem_eraseIdx hm')⟩
  | heartbeat i =>
    obtain ⟨b, -, hpair⟩ := Option.map_eq_some_iff.mp hs
    obtain ⟨rfl, -⟩ := Prod.mk.inj hpair
    cases b with
    | loop =>
      rw [stepHeartbeat, if_neg (Bool.eq_false_iff.mp hstarted)]
      exact ⟨hstarted, hloop⟩
    | _ => exact ⟨hstarted, hloop⟩

/-- What a monitor has still to do before it has started the client. The connection is closed, so
it does not find it ready. -/
def GrpcMonitor.restart (i : ℕ) : GrpcMonitor → List Action
  | .loop => []
  | .sleep => [.monitor i false true, .monitor i false true, .monitor i false true]
  | .shutdown => [.monitor i false true, .monitor i false true]
  | .start => [.monitor i false true]

/-- **A monitor that is past its look at the flag starts the client.** -/
theorem exec_restart {i : ℕ} {m : GrpcMonitor} (hm : c.monitors[i]? = some m) (hne : m ≠ .loop)
    (hstarted : c.started = false) (hconn : c.conn = true) :
    ∃ c', exec step c (GrpcMonitor.restart i m) = some (c', []) ∧ c'.started = true := by
  have hi : i < c.monitors.length := (List.getElem?_eq_some_iff.mp hm).1
  -- from the last stage to the first
  have hlast : ∀ {c : GrpcLoops}, c.monitors[i]? = some .start → c.started = false →
      ∃ c', exec step c [.monitor i false true] = some (c', []) ∧ c'.started = true := by
    intro c hm hstarted
    refine ⟨_, exec_singleton.mpr (by rw [step, hm]; rfl), ?_⟩
    simp [stepMonitor, start, hstarted]
  have hshutdown : ∀ {c : GrpcLoops}, i < c.monitors.length → c.monitors[i]? = some .shutdown →
      ∃ c', exec step c [.monitor i false true, .monitor i false true] = some (c', []) ∧
        c'.started = true := by
    intro c hi hm
    obtain ⟨c', hrun, hup⟩ := @hlast (c.stepMonitor i false true .shutdown)
      (by simp [stepMonitor, shutdown, hi]) rfl
    exact ⟨c', (exec_of_step (by rw [step, hm]; rfl)).trans hrun, hup⟩
  cases m with
  | loop => exact absurd rfl hne
  | start => exact hlast hm hstarted
  | shutdown => exact hshutdown hi hm
  | sleep =>
    have hsleep : c.stepMonitor i false true .sleep =
        { c with monitors := c.monitors.set i .shutdown } := by
      simp [stepMonitor, hconn]
    obtain ⟨c', hrun, hup⟩ := @hshutdown { c with monitors := c.monitors.set i .shutdown }
      (by simpa using hi) (by simp [hi])
    exact ⟨c', (exec_of_step (by rw [step, hm, Option.map_some, hsleep])).trans hrun, hup⟩

/-- **A `Shutdown` of a gRPC client is final exactly if every monitor is about to look whether the
client is started.** -/
theorem shutdownFinal_iff_loop {as : List Action} {tr : List Unit}
    (h : exec step new as = some (c, tr)) : c.ShutdownFinal ↔ ∀ m ∈ c.monitors, m = .loop := by
  have hconn : c.monitors ≠ [] → c.conn = true :=
    @exec_invariant _ _ _ _ (fun c => c.monitors ≠ [] → c.conn = true) _ (by simp [new])
      (fun _ _ _ _ hc hs => conn_step hc hs) _ _ _ h
  constructor
  · intro hfinal m hm
    by_contra hne
    obtain ⟨i, hi⟩ := List.mem_iff_getElem?.mp hm
    obtain ⟨c', hrun, hup⟩ := @exec_restart c.shutdown i m hi hne rfl
      (hconn (List.ne_nil_of_mem hm))
    refine absurd (hfinal _ c' [] ?_ hrun) (by simp [hup])
    intro b hb
    cases m <;> simp [GrpcMonitor.restart] at hb <;> simp [hb, Action.isStart]
  · intro hloop bs c' tr hbs hrun
    have hdown : c'.Down := @exec_invariant_meets _ _ _ step (fun _ b => b.isStart = false) Down
      c.shutdown ⟨rfl, hloop⟩ (fun _ _ _ _ hc hb hs => hc.step hb hs) bs c' tr
      (meets_of_forall hbs) hrun
    exact hdown.1

end GrpcLoops

/-! ### The Netty client -/

namespace NettyLoops

/-- The action is a `Start` from outside. -/
def Action.isStart : Action → Bool
  | .start _ => true
  | _ => false

/-- **After a `Shutdown` in this state the client stays shut down**, as long as it is not started
from outside. -/
def ShutdownFinal (c : NettyLoops) : Prop :=
  ∀ bs c' tr, (∀ b ∈ bs, b.isStart = false) → exec step c.shutdown bs = some (c', tr) →
    c'.started = false

variable {c c' : NettyLoops} {a : Action} {ev : List NettyEvent}

/-- Of the loops none sets the flag. -/
theorem started_step (h : c.Connected) (ha : a.isStart = false)
    (hs : step c a = some (c', ev)) (hstarted : c.started = false) : c'.started = false := by
  cases a with
  | start dials => exact absurd ha (by simp [Action.isStart])
  | shutdown =>
    obtain ⟨rfl, -⟩ := Prod.mk.inj (Option.some.inj hs)
    rfl
  | reader i succeeds =>
    obtain ⟨r, -, hpair⟩ := Option.map_eq_some_iff.mp hs
    obtain ⟨rfl, -⟩ := Prod.mk.inj hpair
    cases r with
    | loop =>
      rw [stepReader]
      split <;> exact hstarted
    | reading k =>
      rw [stepReader]
      split <;> exact hstarted
  | monitor i dials =>
    obtain ⟨m, hm, hpair⟩ := Option.map_eq_some_iff.mp hs
    obtain ⟨monitors, heq, -⟩ := h.stepMonitor hm dials
    rw [heq] at hpair
    obtain ⟨rfl, -⟩ := Prod.mk.inj hpair
    exact hstarted
  | writeFails =>
    obtain ⟨rfl, -⟩ := Prod.mk.inj (Option.some.inj hs)
    exact hstarted

theorem Connected.shutdownFinal (h : c.Connected) : c.ShutdownFinal := by
  intro bs c' tr hbs hrun
  have hdown : c'.Connected ∧ c'.started = false :=
    @exec_invariant_meets _ _ _ NettyLoops.step (fun _ b => b.isStart = false)
      (fun c => c.Connected ∧ c.started = false) c.shutdown
      ⟨⟨by simp [NettyLoops.shutdown], h.of_monitor, h.idle⟩, rfl⟩
      (fun _ _ _ _ hc hb hs => ⟨hc.1.step hs, started_step hc.1 hb hs hc.2⟩) bs c' tr
      (meets_of_forall hbs) hrun
  exact hdown.2

end NettyLoops

/-! ### Both clients -/

/-- **When a `Shutdown` is final.** In every state that a Netty client gets into it is. A gRPC
client stays shut down exactly if every monitor that is alive is about to look whether the client is
started; one that is past that look starts it again. -/
theorem shutdown_final_iff {as : List NettyLoops.Action} {n : NettyLoops} {tr : List NettyEvent}
    (hnetty : exec NettyLoops.step .new as = some (n, tr)) {bs : List GrpcLoops.Action}
    {g : GrpcLoops} {tr' : List Unit} (hgrpc : exec GrpcLoops.step .new bs = some (g, tr')) :
    n.ShutdownFinal ∧ (g.ShutdownFinal ↔ ∀ m ∈ g.monitors, m = .loop) := by
  have hconnected : n.Connected :=
    exec_invariant NettyLoops.connected_new (fun _ _ _ _ hc hs => hc.step hs) hnetty
  exact ⟨hconnected.shutdownFinal, GrpcLoops.shutdownFinal_iff_loop hgrpc⟩

/-- Two clients are connected, and the monitor of the second one has gone to sleep: a `Shutdown` of
the first is final, and one of the second is not. -/
theorem shutdown_final_connected : ∃ n g,
    exec NettyLoops.step .new [.start true, .monitor 0 true] = some (n, []) ∧
      exec GrpcLoops.step .new [.start true, .monitor 0 true true] = some (g, []) ∧
      n.ShutdownFinal ∧ ¬g.ShutdownFinal := by
  refine ⟨⟨true, some 0, 1, [.loop], [.sleep], false⟩, ⟨true, true, [.sleep], [.loop]⟩, by decide,
    by decide, ?_⟩
  obtain ⟨hnetty, hgrpc⟩ := @shutdown_final_iff [.start true, .monitor 0 true]
    ⟨true, some 0, 1, [.loop], [.sleep], false⟩ [] (by decide)
    [.start true, .monitor 0 true true] ⟨true, true, [.sleep], [.loop]⟩ [] (by decide)
  exact ⟨hnetty, fun hfinal => absurd (hgrpc.mp hfinal .sleep List.mem_cons_self) (by decide)⟩

end HertzBeat
