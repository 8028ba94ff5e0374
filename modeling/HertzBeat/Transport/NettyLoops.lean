import HertzBeat.Lib.Run
import Mathlib.Order.Nat

/-!
# The background loops of the Netty client

`Start`, `Shutdown`, `readLoop` and `connectionMonitor` of
`internal/transport/netty_client.go`. A read that fails ends the `readLoop`, and nothing else
happens: the client stays started. It is for the monitor to notice that the connection is
lost, and the monitor looks only whether there is a connection at all. `Shutdown` closes the
connection but keeps it, so after the first `Start` there always is one.

What the monitor would do without a connection is modelled as well. It shuts the client down,
and its loop of attempts to start it again runs only while the client is started.

So a lost connection is never noticed: `HertzBeat.NettyLoops.always_attended_iff`.
-/

namespace HertzBeat

/-- Where a `readLoop` is. Connections are numbered in the order in which they are made. -/
inductive NettyReader where
  /-- About to look whether the client is started. -/
  | loop
  /-- Reading from a connection. -/
  | reading (conn : ℕ)
  deriving DecidableEq

/-- Where a `connectionMonitor` is. -/
inductive NettyMonitor where
  /-- About to look whether the client is started. -/
  | loop
  /-- Asleep, and about to look whether there is a connection. -/
  | sleep
  /-- About to shut the client down. -/
  | shutdown
  /-- In the loop of attempts, about to look whether the client is started. -/
  | retry
  /-- Asleep before an attempt, and about to look whether the client is started. -/
  | retrySleep
  /-- About to start the client. -/
  | retryStart
  deriving DecidableEq

/-- What a monitor does to the client. -/
inductive NettyEvent where
  | tornDown
  | startCalled
  deriving DecidableEq

/-- A client with its loops that are alive. -/
structure NettyLoops where
  started : Bool
  /-- The connection, open or not. -/
  conn : Option ℕ
  /-- The number of connections that were made. -/
  made : ℕ
  readers : List NettyReader
  monitors : List NettyMonitor
  /-- A `Shutdown` was requested from outside. -/
  shutdownRequested : Bool
  deriving DecidableEq

namespace NettyLoops

/-- `NewNettyClient`. -/
def new : NettyLoops where
  started := false
  conn := none
  made := 0
  readers := []
  monitors := []
  shutdownRequested := false

/-- `Start`, with what comes of dialing: whether it returns without an error is the second
component. -/
def start (c : NettyLoops) (dials : Bool) : NettyLoops × Bool :=
  if c.started then (c, true)
  else if dials then
    ({ c with
      started := true
      conn := some c.made
      made := c.made + 1
      readers := c.readers ++ [.loop]
      monitors := c.monitors ++ [.loop] }, true)
  else (c, false)

/-- `Shutdown`: the connection is closed, and stays. -/
def shutdown (c : NettyLoops) : NettyLoops := { c with started := false }

/-- The steps of a client. -/
inductive Action where
  /-- `Start` from outside. -/
  | start (dials : Bool)
  /-- `Shutdown` from outside. -/
  | shutdown
  /-- The `i`-th `readLoop` takes a step. If it reads, the read succeeds or fails. -/
  | reader (i : ℕ) (succeeds : Bool)
  /-- The `i`-th monitor takes a step. If it starts the client, dialing succeeds or fails. -/
  | monitor (i : ℕ) (dials : Bool)
  /-- A write fails. Its caller is told, and nobody else. -/
  | writeFails
  deriving DecidableEq

/-- The `i`-th `readLoop` takes a step. -/
def stepReader (c : NettyLoops) (i : ℕ) (succeeds : Bool) : NettyReader → NettyLoops
  | .loop =>
    match c.started, c.conn with
    | true, some k => { c with readers := c.readers.set i (.reading k) }
    | _, _ => { c with readers := c.readers.eraseIdx i }
  | .reading _ =>
    if succeeds then { c with readers := c.readers.set i .loop }
    else { c with readers := c.readers.eraseIdx i }

/-- The `i`-th monitor takes a step. -/
def stepMonitor (c : NettyLoops) (i : ℕ) (dials : Bool) :
    NettyMonitor → NettyLoops × List NettyEvent
  | .loop =>
    if c.started then ({ c with monitors := c.monitors.set i .sleep }, [])
    else ({ c with monitors := c.monitors.eraseIdx i }, [])
  | .sleep =>
    match c.conn with
    | some _ => ({ c with monitors := c.monitors.set i .loop }, [])
    | none => ({ c with monitors := c.monitors.set i .shutdown }, [])
  | .shutdown => ({ c with monitors := c.monitors.set i .retry }.shutdown, [.tornDown])
  | .retry =>
    if c.started then ({ c with monitors := c.monitors.set i .retrySleep }, [])
    else ({ c with monitors := c.monitors.set i .loop }, [])
  | .retrySleep =>
    if c.started then ({ c with monitors := c.monitors.set i .retryStart }, [])
    else ({ c with monitors := c.monitors.set i .loop }, [])
  | .retryStart =>
    match c.start dials with
    | (c', true) => ({ c' with monitors := c'.monitors.set i .loop }, [.startCalled])
    | (c', false) => ({ c' with monitors := c'.monitors.set i .retry }, [.startCalled])

/-- The client takes a step. -/
def step : Runs.StepFn NettyLoops Action NettyEvent
  | c, .start dials => some ((c.start dials).1, [])
  | c, .shutdown => some ({ c.shutdown with shutdownRequested := true }, [])
  | c, .reader i succeeds => (c.readers[i]?).map fun r => (c.stepReader i succeeds r, [])
  | c, .monitor i dials => (c.monitors[i]?).map fun m => c.stepMonitor i dials m
  | c, .writeFails => some (c, [])

/-! ### Whether the connection is attended to -/

/-- A `readLoop` runs on the current connection: it reads from it, or is about to. -/
def Attends (conn : Option ℕ) : NettyReader → Prop
  | .loop => True
  | .reading k => conn = some k

instance (conn : Option ℕ) (r : NettyReader) : Decidable (Attends conn r) := by
  unfold Attends
  split <;> infer_instance

/-- One of these `readLoop`s runs on the current connection, as far as it should: the client
is started, and no `Shutdown` was requested. -/
def ReadBy (c : NettyLoops) (readers : List NettyReader) : Prop :=
  c.started = true → c.shutdownRequested = false → ∃ r ∈ readers, Attends c.conn r

instance (c : NettyLoops) (readers : List NettyReader) : Decidable (c.ReadBy readers) := by
  unfold ReadBy
  infer_instance

/-- A monitor that goes on alone tears the connection down and calls `Start`. -/
def NextCheckRestarts (c : NettyLoops) : Prop :=
  ∃ i, ∃ dials : List Bool, ∃ c' tr, Runs.exec step c (dials.map (.monitor i)) = some (c', tr) ∧
    .tornDown ∈ tr ∧ .startCalled ∈ tr

/-- **The connection is attended to**: if the client is started, and no `Shutdown` was
requested, then a `readLoop` runs on the current connection, or the next check of a monitor
starts the client anew. -/
def Attended (c : NettyLoops) : Prop :=
  c.started = true → c.shutdownRequested = false →
    (∃ r ∈ c.readers, Attends c.conn r) ∨ c.NextCheckRestarts

/-- **The last reader is not lost**: where a read fails, and with it a `readLoop` ends, one of
the others runs on the current connection. -/
def ReaderRemains (c : NettyLoops) : Action → Prop
  | .reader i succeeds =>
    match c.readers[i]?, succeeds with
    | some (.reading _), false => c.ReadBy (c.readers.eraseIdx i)
    | _, _ => True
  | _ => True

instance (c : NettyLoops) (a : Action) : Decidable (ReaderRemains c a) := by
  unfold ReaderRemains
  repeat' split
  all_goals infer_instance

/-! ### What the monitors never do -/

/-- There is a connection from the first `Start` on, and so no monitor has ever found none. -/
structure Connected (c : NettyLoops) : Prop where
  of_started : c.started = true → c.conn ≠ none
  of_monitor : c.monitors ≠ [] → c.conn ≠ none
  idle : ∀ m ∈ c.monitors, m = .loop ∨ m = .sleep

variable {c c' : NettyLoops} {a : Action} {ev : List NettyEvent}

theorem connected_new : Connected new where
  of_started := by simp [new]
  of_monitor := by simp [new]
  idle := by simp [new]

theorem Connected.start (h : c.Connected) (dials : Bool) : (c.start dials).1.Connected := by
  unfold NettyLoops.start
  split_ifs
  · exact h
  · refine ⟨by simp, by simp, fun m hm => ?_⟩
    rcases List.mem_append.mp hm with hold | hnew
    · exact h.idle m hold
    · exact .inl (List.mem_singleton.mp hnew)
  · exact h

/-- The `readLoop`s matter to none of it. -/
theorem Connected.stepReader (h : c.Connected) (i : ℕ) (succeeds : Bool) (r : NettyReader) :
    (c.stepReader i succeeds r).Connected := by
  cases r with
  | loop =>
    rw [NettyLoops.stepReader]
    split <;> exact ⟨h.of_started, h.of_monitor, h.idle⟩
  | reading k =>
    rw [NettyLoops.stepReader]
    split <;> exact ⟨h.of_started, h.of_monitor, h.idle⟩

/-- What a monitor does, as there is a connection: nothing but to go on or to end. -/
theorem Connected.stepMonitor (h : c.Connected) {i : ℕ} {m : NettyMonitor}
    (hm : c.monitors[i]? = some m) (dials : Bool) :
    ∃ monitors, c.stepMonitor i dials m = ({ c with monitors := monitors }, []) ∧
      Connected { c with monitors := monitors } := by
  have hmem := List.mem_of_getElem? hm
  have hconn := h.of_monitor (List.ne_nil_of_mem hmem)
  have hset : ∀ m', m' = .loop ∨ m' = .sleep →
      Connected { c with monitors := c.monitors.set i m' } := by
    refine fun m' hm' => ⟨h.of_started, fun _ => hconn, fun x hx => ?_⟩
    rcases List.mem_or_eq_of_mem_set hx with hold | rfl
    · exact h.idle x hold
    · exact hm'
  obtain ⟨k, hk⟩ := Option.ne_none_iff_exists'.mp hconn
  rcases h.idle m hmem with rfl | rfl
  · by_cases hstarted : c.started = true
    · exact ⟨_, by rw [NettyLoops.stepMonitor, if_pos hstarted], hset _ (.inr rfl)⟩
    · refine ⟨c.monitors.eraseIdx i, by rw [NettyLoops.stepMonitor, if_neg hstarted],
        h.of_started, fun _ => hconn, fun x hx => ?_⟩
      exact h.idle x (List.mem_of_mem_eraseIdx hx)
  · exact ⟨_, by simp only [NettyLoops.stepMonitor, hk], hset _ (.inl rfl)⟩

theorem Connected.step (h : c.Connected) (hs : NettyLoops.step c a = some (c', ev)) :
    c'.Connected := by
  cases a with
  | start dials =>
    obtain ⟨rfl, -⟩ := Prod.mk.inj (Option.some.inj hs)
    exact h.start dials
  | shutdown =>
    obtain ⟨rfl, -⟩ := Prod.mk.inj (Option.some.inj hs)
    exact ⟨by simp [NettyLoops.shutdown], h.of_monitor, h.idle⟩
  | reader i succeeds =>
    obtain ⟨r, -, hpair⟩ := Option.map_eq_some_iff.mp hs
    obtain ⟨rfl, -⟩ := Prod.mk.inj hpair
    exact h.stepReader i succeeds r
  | monitor i dials =>
    obtain ⟨m, hm, hpair⟩ := Option.map_eq_some_iff.mp hs
    obtain ⟨monitors, heq, hconnected⟩ := h.stepMonitor hm dials
    rw [heq] at hpair
    obtain ⟨rfl, -⟩ := Prod.mk.inj hpair
    exact hconnected
  | writeFails =>
    obtain ⟨rfl, -⟩ := Prod.mk.inj (Option.some.inj hs)
    exact h

/-- **A monitor never restarts the client.** -/
theorem Connected.not_nextCheckRestarts (h : c.Connected) : ¬c.NextCheckRestarts := by
  rintro ⟨i, dials, c', tr, hrun, htorn, -⟩
  -- by induction on the steps of the monitor, none of which does anything to the client
  have hquiet : ∀ (dials : List Bool) (c : NettyLoops) (tr : List NettyEvent), c.Connected →
      Runs.exec NettyLoops.step c (dials.map (.monitor i)) = some (c', tr) → tr = [] := by
    intro dials
    induction dials with
    | nil =>
      intro c tr _ hrun
      exact (Prod.mk.inj (Option.some.inj hrun)).2.symm
    | cons d dials ih =>
      intro c tr hc hrun
      obtain ⟨c₁, ev, tr', hs, hrest, rfl⟩ := Runs.exec_cons.mp hrun
      have hc₁ := hc.step hs
      obtain ⟨m, hm, hpair⟩ := Option.map_eq_some_iff.mp hs
      obtain ⟨monitors, heq, -⟩ := hc.stepMonitor hm d
      rw [heq] at hpair
      obtain ⟨-, rfl⟩ := Prod.mk.inj hpair
      rw [ih c₁ tr' hc₁ hrest]
      rfl
  rw [hquiet dials c tr h hrun] at htorn
  exact absurd htorn (by simp)

theorem Connected.attended_iff (h : c.Connected) : c.Attended ↔ c.ReadBy c.readers := by
  constructor
  · intro hatt hstarted hrequested
    exact (hatt hstarted hrequested).resolve_right h.not_nextCheckRestarts
  · intro hread hstarted hrequested
    exact .inl (hread hstarted hrequested)

/-! ### The readers -/

/-- A step leaves a reader exactly if it meets the condition. -/
theorem readBy_step_iff (h : c.Connected) (hread : c.ReadBy c.readers)
    (hs : step c a = some (c', ev)) : c'.ReadBy c'.readers ↔ ReaderRemains c a := by
  cases a with
  | start dials =>
    obtain ⟨rfl, -⟩ := Prod.mk.inj (Option.some.inj hs)
    refine iff_of_true ?_ trivial
    unfold start
    split_ifs
    · exact hread
    · exact fun _ _ => ⟨.loop, by simp, trivial⟩
    · exact hread
  | shutdown =>
    obtain ⟨rfl, -⟩ := Prod.mk.inj (Option.some.inj hs)
    exact iff_of_true (fun hstarted => absurd hstarted (by simp [shutdown])) trivial
  | reader i succeeds =>
    obtain ⟨r, hr, hpair⟩ := Option.map_eq_some_iff.mp hs
    obtain ⟨rfl, -⟩ := Prod.mk.inj hpair
    have hlt := (List.getElem?_eq_some_iff.mp hr).1
    cases r with
    | loop =>
      refine iff_of_true ?_ (by simp [ReaderRemains, hr])
      rw [stepReader]
      split
      case h_1 k _ hk => exact fun _ _ => ⟨.reading k, List.mem_set hlt _, hk⟩
      case h_2 hnone =>
        intro hstarted
        obtain ⟨k, hk⟩ := Option.ne_none_iff_exists'.mp (h.of_started hstarted)
        exact absurd hk (hnone k hstarted)
    | reading k =>
      cases succeeds with
      | true =>
        refine iff_of_true (fun _ _ => ⟨.loop, ?_, trivial⟩) (by simp [ReaderRemains])
        simpa [stepReader] using List.mem_set hlt _
      | false => simp [stepReader, ReaderRemains, hr, ReadBy]
  | monitor i dials =>
    obtain ⟨m, hm, hpair⟩ := Option.map_eq_some_iff.mp hs
    obtain ⟨monitors, heq, -⟩ := h.stepMonitor hm dials
    rw [heq] at hpair
    obtain ⟨rfl, -⟩ := Prod.mk.inj hpair
    exact iff_of_true hread trivial
  | writeFails =>
    obtain ⟨rfl, -⟩ := Prod.mk.inj (Option.some.inj hs)
    exact iff_of_true hread trivial

/-- **The connection is attended to in every state of a run exactly if the last reader is
never lost in it.** -/
theorem always_attended_iff {as : List Action} {s : NettyLoops} {tr : List NettyEvent}
    (h : Runs.exec step new as = some (s, tr)) :
    Runs.Always step (fun _ _ c => c.Attended) new as ↔ Runs.Meets step ReaderRemains new as := by
  refine @Runs.always_iff_meets _ _ _ _ _ (fun c => c.Connected ∧ c.ReadBy c.readers) _ _
    ⟨connected_new, by simp [ReadBy, new]⟩ ?_ ?_ _ _ _ h
  · rintro c a c' ev ⟨hc, hread⟩ hok hs
    exact ⟨hc.step hs, (readBy_step_iff hc hread hs).mpr hok⟩
  · rintro c a c' ev ⟨hc, hread⟩ hs
    rw [(hc.step hs).attended_iff]
    exact readBy_step_iff hc hread hs

/-- A client that reads a message, is shut down and started again. Its first reader then
fails on the connection that was closed. -/
def readAndRestarted : List Action :=
  [.start true, .reader 0 true, .reader 0 true, .reader 0 true, .monitor 0 true,
    .monitor 0 true, .writeFails, .shutdown, .start true, .reader 0 false]

theorem attended_read_and_restarted :
    ∃ s tr, Runs.exec step new readAndRestarted = some (s, tr) ∧
      Runs.Always step (fun _ _ c => c.Attended) new readAndRestarted := by
  have hrun : (Runs.exec step new readAndRestarted).isSome = true := by decide
  obtain ⟨⟨s, tr⟩, hs⟩ := Option.isSome_iff_exists.mp hrun
  exact ⟨s, tr, hs, (always_attended_iff hs).mpr (Runs.meets_of_checks (by decide))⟩

/-- The connection is lost: the read fails, and the monitor has a look. -/
def connectionLost : List Action :=
  [.start true, .reader 0 true, .reader 0 false, .monitor 0 true, .monitor 0 true]

/-- **A lost connection is ignored**: the client is still started, no `readLoop` is alive, and
the check of the monitor has done nothing. -/
theorem not_attended_connection_lost :
    ∃ s, Runs.exec step new connectionLost = some (s, []) ∧ s.started = true ∧
      s.shutdownRequested = false ∧ s.readers = [] ∧ s.monitors = [.loop] ∧ ¬s.Attended := by
  refine ⟨⟨true, some 0, 1, [], [.loop], false⟩, by decide, rfl, rfl, rfl, rfl, ?_⟩
  have hconnected : Connected ⟨true, some 0, 1, [], [.loop], false⟩ := by
    constructor <;> simp
  rw [hconnected.attended_iff]
  simp [ReadBy]

end NettyLoops

end HertzBeat
