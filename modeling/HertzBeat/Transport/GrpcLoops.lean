import HertzBeat.Lib.Run
import Mathlib.Order.Nat

/-!
# The background loops of the gRPC client

`Start`, `Shutdown`, `connectionMonitor` and `heartbeatLoop` of
`internal/transport/grpc_client.go`. A `Start` that connects sets the `started` flag and
spawns one loop of each kind. A loop looks at the flag between two rounds, and at nothing
else; so a loop that sleeps while the client is shut down and started again does not notice,
and goes on next to the one that was spawned for it.

The monitor itself shuts the client down and starts it again when the connection is lost. It
is alive while it does, so this `Start` always spawns a second monitor. The loops of a client
are single exactly as long as no `Start` takes effect while one is alive:
`HertzBeat.GrpcLoops.always_single_iff`.
-/

namespace HertzBeat

/-- Where a `connectionMonitor` loop is. -/
inductive GrpcMonitor where
  /-- About to look whether the client is started. -/
  | loop
  /-- Asleep, and about to look at the connection. -/
  | sleep
  /-- About to shut the client down, as the connection is lost. -/
  | shutdown
  /-- About to start the client again. -/
  | start
  deriving DecidableEq

/-- Where a `heartbeatLoop` is. -/
inductive GrpcHeartbeat where
  /-- About to look whether the client is started. -/
  | loop
  /-- In the synchronous call. -/
  | send
  | sleep
  deriving DecidableEq

/-- A client with its loops that are alive. -/
structure GrpcLoops where
  started : Bool
  /-- The client has a connection, open or not. -/
  conn : Bool
  monitors : List GrpcMonitor
  heartbeats : List GrpcHeartbeat
  deriving DecidableEq

namespace GrpcLoops

/-- `NewGrpcClient`. -/
def new : GrpcLoops where
  started := false
  conn := false
  monitors := []
  heartbeats := []

/-- `Start`, with what comes of dialing. -/
def start (c : GrpcLoops) (dials : Bool) : GrpcLoops :=
  if c.started then c
  else if dials then
    { started := true
      conn := true
      monitors := c.monitors ++ [.loop]
      heartbeats := c.heartbeats ++ [.loop] }
  else c

/-- `Shutdown`. -/
def shutdown (c : GrpcLoops) : GrpcLoops := { c with started := false }

/-- The steps of a client. -/
inductive Action where
  /-- `Start` from outside. -/
  | start (dials : Bool)
  /-- `Shutdown` from outside. -/
  | shutdown
  /-- The `i`-th monitor takes a step. It finds the connection ready or not, where it looks,
  and its dialing succeeds or not, where it dials. -/
  | monitor (i : ℕ) (ready dials : Bool)
  /-- The `i`-th heartbeat loop takes a step. -/
  | heartbeat (i : ℕ)
  deriving DecidableEq

/-- The `i`-th monitor takes a step. -/
def stepMonitor (c : GrpcLoops) (i : ℕ) (ready dials : Bool) : GrpcMonitor → GrpcLoops
  | .loop =>
    if c.started then { c with monitors := c.monitors.set i .sleep }
    else { c with monitors := c.monitors.eraseIdx i }
  | .sleep =>
    if c.conn && !ready then { c with monitors := c.monitors.set i .shutdown }
    else { c with monitors := c.monitors.set i .loop }
  | .shutdown => { c with monitors := c.monitors.set i .start }.shutdown
  | .start => { c with monitors := c.monitors.set i .loop }.start dials

/-- The `i`-th heartbeat loop takes a step. -/
def stepHeartbeat (c : GrpcLoops) (i : ℕ) : GrpcHeartbeat → GrpcLoops
  | .loop =>
    if c.started then { c with heartbeats := c.heartbeats.set i .send }
    else { c with heartbeats := c.heartbeats.eraseIdx i }
  | .send => { c with heartbeats := c.heartbeats.set i .sleep }
  | .sleep => { c with heartbeats := c.heartbeats.set i .loop }

/-- The client takes a step. -/
def step : Runs.StepFn GrpcLoops Action Unit
  | c, .start dials => some (c.start dials, [])
  | c, .shutdown => some (c.shutdown, [])
  | c, .monitor i ready dials => (c.monitors[i]?).map fun m => (c.stepMonitor i ready dials m, [])
  | c, .heartbeat i => (c.heartbeats[i]?).map fun h => (c.stepHeartbeat i h, [])

/-! ### The number of loops -/

/-- **At most one loop of each kind is alive.** -/
def Single (c : GrpcLoops) : Prop := c.monitors.length ≤ 1 ∧ c.heartbeats.length ≤ 1

/-- The step is a `Start` that takes effect. -/
def Starts (c : GrpcLoops) : Action → Prop
  | .start dials => c.started = false ∧ dials = true
  | .monitor i _ dials => c.monitors[i]? = some .start ∧ c.started = false ∧ dials = true
  | _ => False

instance (c : GrpcLoops) (a : Action) : Decidable (c.Starts a) := by
  cases a <;> unfold Starts <;> infer_instance

/-- **A `Start` takes effect only when the loops are over**: no monitor and no heartbeat loop
of the client is alive. -/
def LoopsAreOver (c : GrpcLoops) (a : Action) : Prop :=
  c.Starts a → c.monitors = [] ∧ c.heartbeats = []

instance (c : GrpcLoops) (a : Action) : Decidable (LoopsAreOver c a) := by
  unfold LoopsAreOver
  infer_instance

variable {c c' : GrpcLoops} {a : Action} {ev : List Unit}

/-- A `Start` that takes effect adds a loop of each kind. -/
theorem length_start {dials : Bool} (hstarted : c.started = false) (hdials : dials = true) :
    (c.start dials).monitors.length = c.monitors.length + 1 ∧
      (c.start dials).heartbeats.length = c.heartbeats.length + 1 := by
  simp [start, hstarted, hdials]

/-- A `Start` that takes no effect adds none. -/
theorem start_eq_self {dials : Bool} (h : ¬(c.started = false ∧ dials = true)) :
    c.start dials = c := by
  unfold start
  split_ifs with hstarted hdials
  · rfl
  · exact absurd ⟨Bool.eq_false_iff.mpr hstarted, hdials⟩ h
  · rfl

/-- **What a step does to the number of loops**: a `Start` that takes effect adds one of each
kind, and no other step adds any. -/
theorem length_step (hs : step c a = some (c', ev)) :
    (c.Starts a ∧ c'.monitors.length = c.monitors.length + 1 ∧
      c'.heartbeats.length = c.heartbeats.length + 1) ∨
    (¬c.Starts a ∧ c'.monitors.length ≤ c.monitors.length ∧
      c'.heartbeats.length ≤ c.heartbeats.length) := by
  cases a with
  | start dials =>
    obtain ⟨rfl, -⟩ := Prod.mk.inj (Option.some.inj hs)
    by_cases heffect : c.started = false ∧ dials = true
    · exact .inl ⟨heffect, length_start heffect.1 heffect.2⟩
    · rw [start_eq_self heffect]
      exact .inr ⟨heffect, le_rfl, le_rfl⟩
  | shutdown =>
    obtain ⟨rfl, -⟩ := Prod.mk.inj (Option.some.inj hs)
    exact .inr ⟨fun h => h, le_rfl, le_rfl⟩
  | monitor i ready dials =>
    obtain ⟨m, hm, hpair⟩ := Option.map_eq_some_iff.mp hs
    obtain ⟨rfl, -⟩ := Prod.mk.inj hpair
    cases m with
    | loop =>
      refine .inr ⟨by simp [Starts, hm], ?_⟩
      rw [stepMonitor]
      split_ifs
      · simp
      · exact ⟨List.length_eraseIdx_le _ _, le_rfl⟩
    | sleep =>
      refine .inr ⟨by simp [Starts, hm], ?_⟩
      rw [stepMonitor]
      split_ifs <;> simp
    | shutdown =>
      refine .inr ⟨by simp [Starts, hm], ?_⟩
      simp [stepMonitor, shutdown]
    | start =>
      rw [stepMonitor]
      by_cases heffect : c.started = false ∧ dials = true
      · refine .inl ⟨⟨hm, heffect⟩, ?_⟩
        simpa using @length_start { c with monitors := c.monitors.set i .loop } dials
          heffect.1 heffect.2
      · refine .inr ⟨fun h => heffect h.2, ?_⟩
        rw [@start_eq_self { c with monitors := c.monitors.set i .loop } dials heffect]
        simp
  | heartbeat i =>
    obtain ⟨h, hh, hpair⟩ := Option.map_eq_some_iff.mp hs
    obtain ⟨rfl, -⟩ := Prod.mk.inj hpair
    refine .inr ⟨fun h => h, ?_⟩
    cases h with
    | loop =>
      rw [stepHeartbeat]
      split_ifs
      · simp
      · exact ⟨le_rfl, List.length_eraseIdx_le _ _⟩
    | send => simp [stepHeartbeat]
    | sleep => simp [stepHeartbeat]

/-- From a state with single loops, they stay single exactly if the step meets the
condition. -/
theorem single_step_iff (hsingle : c.Single) (hs : step c a = some (c', ev)) :
    c'.Single ↔ LoopsAreOver c a := by
  rcases length_step hs with ⟨hstarts, hm, hh⟩ | ⟨hstarts, hm, hh⟩
  · constructor
    · rintro ⟨hm', hh'⟩ -
      exact ⟨List.length_eq_zero_iff.mp (by omega), List.length_eq_zero_iff.mp (by omega)⟩
    · intro hover
      obtain ⟨hnil, hnil'⟩ := hover hstarts
      rw [hnil] at hm
      rw [hnil'] at hh
      exact ⟨hm.le, hh.le⟩
  · constructor
    · exact fun _ h => absurd h hstarts
    · exact fun _ => ⟨hm.trans hsingle.1, hh.trans hsingle.2⟩

theorem single_new : Single new := ⟨Nat.zero_le 1, Nat.zero_le 1⟩

/-- **The loops of a client are single in every state of a run exactly if every `Start` that
takes effect in it finds the loops over.** -/
theorem always_single_iff {as : List Action} {s : GrpcLoops} {tr : List Unit}
    (h : Runs.exec step new as = some (s, tr)) :
    Runs.Always step (fun _ _ c => c.Single) new as ↔ Runs.Meets step LoopsAreOver new as :=
  @Runs.always_iff_meets _ _ _ _ _ Single _ _ single_new
    (fun _ _ _ _ hsingle hok hs => (single_step_iff hsingle hs).mpr hok)
    (fun _ _ _ _ hsingle hs => single_step_iff hsingle hs) _ _ _ h

/-- A client that is shut down, and started again when its loops have noticed. -/
def startedTwice : List Action :=
  [.start true, .monitor 0 true true, .monitor 0 true true, .shutdown, .heartbeat 0,
    .monitor 0 true true, .start true]

theorem single_started_twice :
    ∃ s tr, Runs.exec step new startedTwice = some (s, tr) ∧
      Runs.Always step (fun _ _ c => c.Single) new startedTwice := by
  have hrun : (Runs.exec step new startedTwice).isSome = true := by decide
  obtain ⟨⟨s, tr⟩, hs⟩ := Option.isSome_iff_exists.mp hrun
  exact ⟨s, tr, hs, (always_single_iff hs).mpr (Runs.meets_of_checks (by decide))⟩

/-- The connection is lost once, and the monitor starts the client again. -/
def reconnected : List Action :=
  [.start true, .monitor 0 true true, .monitor 0 false true, .monitor 0 true true,
    .monitor 0 true true]

/-- **The loops multiply**: after one lost connection two monitors and two heartbeat loops
are alive. -/
theorem not_single_reconnected :
    ∃ s tr, Runs.exec step new reconnected = some (s, tr) ∧
      s.monitors.length = 2 ∧ s.heartbeats.length = 2 ∧ ¬s.Single := by
  refine ⟨⟨true, true, [.loop, .loop], [.loop, .loop]⟩, [], by decide, rfl, rfl, ?_⟩
  rintro ⟨hmonitors, -⟩
  exact absurd hmonitors (by decide)

end GrpcLoops

end HertzBeat
