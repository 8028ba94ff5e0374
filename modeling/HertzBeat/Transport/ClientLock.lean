import HertzBeat.Lib.RWMutex
import HertzBeat.Transport.Writers

/-!
# The lock of the Netty client

`SendMsg`, `Start` and `Shutdown` of `internal/transport/netty_client.go` with the lock that
they take. A call of `SendMsg` holds it for reading from before it looks whether the client is
started until it has returned; `Start` and `Shutdown` hold it for writing. The lock does nothing
between two calls, so frames may be mixed as in `HertzBeat.Transport.Writers`. What it does is
to keep the connection in place under a call: `Shutdown` closes it, and the next `Start` replaces
it together with its `bufio.Writer`, and both have to wait until the calls have left.

Each of these is several steps of a run here, and a call that is under way while the writer is
replaced would go on with the new one. `HertzBeat.NettyClient.closed_connections_whole` says that
there is none: a connection that is closed has had all of the frames of the calls that wrote to
it, as long as they were not mixed by one another.
-/

namespace HertzBeat

namespace NettyClient

open Go (Bufio RWMutex WriteState)

/-! ### The system -/

/-- The methods that take the lock for writing. -/
inductive Control where
  | start
  | shutdown
  deriving DecidableEq

/-- Where the goroutine is that is first in line to write. -/
inductive ControlState where
  | idle
  /-- It waits for the calls to leave. -/
  | waiting (method : Control)
  /-- It holds the lock and has its work before it. -/
  | holding (method : Control)
  /-- It holds the lock and has its work behind it. -/
  | done
  deriving DecidableEq

/-- The field `conn`. -/
inductive ConnState where
  | absent
  | up
  /-- `Shutdown` closes the connection, and keeps it. -/
  | down
  deriving DecidableEq

/-- A client with its lock. -/
structure LockedClient where
  mu : RWMutex
  control : ControlState
  started : Bool
  conn : ConnState
  /-- The frames of the calls that hold the lock and have not looked at the client yet. -/
  entered : List (List UInt8)
  /-- The field `writer`, and the calls that write to it. -/
  writers : Writers
  /-- The number of calls that are about to return, and still hold the lock. -/
  leaving : ℕ
  /-- The connections that were replaced, with the calls that wrote to them. -/
  past : List Writers

/-- The steps of the client. -/
inductive LockedAction where
  /-- `SendMsg` takes the lock. -/
  | enter (frame : List UInt8)
  /-- `SendMsg` looks whether the client is started. -/
  | check (i : ℕ)
  /-- The `i`-th call takes its next step, and a write to the connection may fail. -/
  | advance (i : ℕ) (fails : Option ℕ)
  /-- A call gives the lock back. -/
  | leave
  | announce (method : Control)
  | acquire
  /-- `Start` or `Shutdown` does its work. If it dials, it does so with this success. -/
  | work (dials : Bool)
  | unlock

/-- `NewNettyClient`. -/
def LockedClient.new : LockedClient where
  mu := .new
  control := .idle
  started := false
  conn := .absent
  entered := []
  writers := .new
  leaving := 0
  past := []

/-- The calls of a connection that are still under way, and those that are not. -/
def Writers.underWay (w : Writers) : List Call := w.calls.filter fun c => c.phase.isUnderWay

def Writers.finished (w : Writers) : List Call := w.calls.filter fun c => !c.phase.isUnderWay

/-- The connections that are replaced once there is a new one. -/
def LockedClient.replaced (s : LockedClient) : List Writers :=
  if s.conn = .absent then s.past else s.past ++ [⟨s.writers.writer, s.writers.finished⟩]

/-- The client with a new connection. A call that is under way would go on with the new
writer. -/
def LockedClient.connected (s : LockedClient) : LockedClient :=
  { s with
    started := true
    conn := .up
    writers := ⟨.new, s.writers.underWay⟩
    past := s.replaced }

/-- What `Start` does under the lock. -/
def LockedClient.start (s : LockedClient) (dials : Bool) : LockedClient :=
  if s.started then s
  else if dials then s.connected
  else s

/-- What `Shutdown` does under the lock. -/
def LockedClient.shutdown (s : LockedClient) : LockedClient :=
  { s with
    started := false
    conn := if s.conn = .absent then .absent else .down }

/-- A call looks whether the client is started. It begins to write, or returns an error. -/
def LockedClient.check (s : LockedClient) (i : ℕ) (frame : List UInt8) : LockedClient :=
  if s.started ∧ s.conn ≠ .absent then
    { s with
      entered := s.entered.eraseIdx i
      writers := ⟨s.writers.writer, s.writers.calls ++ [⟨frame, .writing frame⟩]⟩ }
  else { s with entered := s.entered.eraseIdx i, leaving := s.leaving + 1 }

/-- The client takes a step. -/
def lockedStep : Runs.StepFn LockedClient LockedAction Unit
  | s, .enter frame =>
    s.mu.rLock.map fun mu => ({ s with mu := mu, entered := s.entered ++ [frame] }, [])
  | s, .check i => (s.entered[i]?).map fun frame => (s.check i frame, [])
  | s, .advance i fails =>
    -- on a connection that is closed, a write fails before its first byte
    (writerStep s.writers (.advance i (if s.conn = .down then some 0 else fails))).map fun q =>
      ({ s with
        writers := q.1
        leaving := s.leaving + (s.writers.underWay.length - q.1.underWay.length) }, [])
  | s, .leave =>
    if 0 < s.leaving then
      s.mu.rUnlock.map fun mu => ({ s with mu := mu, leaving := s.leaving - 1 }, [])
    else none
  | s, .announce method =>
    if s.control = .idle then
      s.mu.announce.map fun mu => ({ s with mu := mu, control := .waiting method }, [])
    else none
  | s, .acquire =>
    match s.control with
    | .waiting method =>
      s.mu.acquire.map fun mu => ({ s with mu := mu, control := .holding method }, [])
    | _ => none
  | s, .work dials =>
    match s.control with
    | .holding .start => some ({ s.start dials with control := .done }, [])
    | .holding .shutdown => some ({ s.shutdown with control := .done }, [])
    | _ => none
  | s, .unlock =>
    if s.control = .done then
      s.mu.unlock.map fun mu => ({ s with mu := mu, control := .idle }, [])
    else none

/-! ### What is asked of the connections -/

/-- The connections that are closed. -/
def LockedClient.closedConns (s : LockedClient) : List Writers :=
  s.past ++ if s.conn = .down then [s.writers] else []

/-- **A connection has whole frames**: all of the frames of the calls that returned without an
error, in some order, and nothing else. -/
def Writers.Whole (w : Writers) : Prop :=
  ∃ frames : List (List UInt8), frames.Perm w.sent ∧ w.writer.stream = frames.flatten

/-- The calls do not disturb one another: none breaks into the frame of another one, and no
write to the connection fails. -/
def LockedClient.Undisturbed (s : LockedClient) : LockedAction → Prop
  | .advance i fails => Uninterrupted s.writers (.advance i fails)
  | _ => True

instance (s : LockedClient) (a : LockedAction) : Decidable (s.Undisturbed a) := by
  cases a <;> unfold LockedClient.Undisturbed <;> infer_instance

/-! ### Who holds the lock -/

/-- The phase of the lock that goes with a place in the code. -/
def ControlState.phase : ControlState → Go.WriterPhase
  | .idle => .idle
  | .waiting _ => .announced
  | .holding _ | .done => .holding

/-- **The lock is held by the calls that should hold it**, and they write to a connection that
is open. -/
structure LockedClient.Guarded (s : LockedClient) : Prop where
  readers : s.mu.readers = s.entered.length + s.writers.underWay.length + s.leaving
  writer : s.mu.writer = s.control.phase
  up_of_started : s.started = true → s.conn = .up
  started_of_call : s.writers.underWay ≠ [] → s.started = true
  past_idle : ∀ w ∈ s.past, w.Idle

variable {s s' : LockedClient} {w : Writers} {a : LockedAction} {ev : List Unit}

theorem Writers.idle_iff : w.Idle ↔ w.underWay = [] := by
  rw [underWay, List.filter_eq_nil_iff]
  simp [Idle]

theorem Writers.finished_eq (h : w.Idle) : w.finished = w.calls := by
  rw [finished, List.filter_eq_self]
  intro c hc
  simp [h c hc]

theorem LockedClient.guarded_new : LockedClient.new.Guarded where
  readers := rfl
  writer := rfl
  up_of_started := fun h => nomatch h
  started_of_call := fun h => absurd rfl h
  past_idle := by simp [LockedClient.new]

/-- A call that takes a step stays under way or ends. -/
theorem length_underWay_le {w' : Writers} {i : ℕ} {fails : Option ℕ} {ev : List Unit}
    (h : writerStep w (.advance i fails) = some (w', ev)) :
    w'.underWay.length ≤ w.underWay.length ∧ w.underWay ≠ [] := by
  obtain ⟨before, c, after, wr, phase, hcalls, -, hadvance, rfl⟩ := writerStep_advance h
  -- a step is taken by a call that is under way
  have hc : c.phase.isUnderWay = true := by
    cases hphase : c.phase <;> rw [hphase] at hadvance <;> first | rfl | cases hadvance
  constructor
  · simp only [Writers.underWay, hcalls, List.filter_append, List.filter_cons, hc, if_true,
      List.length_append, List.length_cons]
    split_ifs <;> simp
  · simp [Writers.underWay, hcalls, hc]

theorem LockedClient.start_eq_or (s : LockedClient) (dials : Bool) :
    s.start dials = s ∨ s.start dials = s.connected := by
  rw [LockedClient.start]
  split_ifs
  · exact .inl rfl
  · exact .inr rfl
  · exact .inl rfl

section Steps

variable (h : s.Guarded)

include h

/-- While a writer holds the lock, no call does. -/
theorem LockedClient.Guarded.alone (hw : s.mu.writer = .holding) :
    s.entered = [] ∧ s.writers.Idle ∧ s.leaving = 0 := by
  have hreaders := h.readers
  rw [s.mu.alone hw] at hreaders
  refine ⟨List.length_eq_zero_iff.mp (by omega), ?_, by omega⟩
  exact Writers.idle_iff.mpr (List.length_eq_zero_iff.mp (by omega))

/-- A connection that is closed has no call under way. -/
theorem LockedClient.Guarded.idle_of_down (hdown : s.conn = .down) : s.writers.Idle := by
  rw [Writers.idle_iff]
  by_contra hne
  have hup := h.up_of_started (h.started_of_call hne)
  rw [hdown] at hup
  cases hup

theorem LockedClient.Guarded.check {i : ℕ} {frame : List UInt8}
    (hframe : s.entered[i]? = some frame) : (s.check i frame).Guarded := by
  obtain ⟨hlt, -⟩ := List.getElem?_eq_some_iff.mp hframe
  have hlen : (s.entered.eraseIdx i).length + 1 = s.entered.length := by
    rw [List.length_eraseIdx_of_lt hlt]
    omega
  have hreaders := h.readers
  unfold LockedClient.check
  split_ifs with hstarted
  · refine ⟨?_, h.writer, h.up_of_started, fun _ => hstarted.1, h.past_idle⟩
    have hnew : Writers.underWay ⟨s.writers.writer, s.writers.calls ++ [⟨frame, .writing frame⟩]⟩ =
        s.writers.underWay ++ [⟨frame, .writing frame⟩] := by
      rw [Writers.underWay, List.filter_append]
      rfl
    dsimp only
    rw [hnew, List.length_append, List.length_singleton]
    omega
  · refine ⟨?_, h.writer, h.up_of_started, h.started_of_call, h.past_idle⟩
    dsimp only
    omega

theorem LockedClient.Guarded.done (hw : s.mu.writer = .holding) :
    { s with control := .done }.Guarded :=
  ⟨h.readers, hw, h.up_of_started, h.started_of_call, h.past_idle⟩

theorem LockedClient.Guarded.connected (hw : s.mu.writer = .holding) :
    { s.connected with control := .done }.Guarded := by
  obtain ⟨hentered, hidle, hleaving⟩ := h.alone hw
  refine ⟨?_, hw, fun _ => rfl, fun _ => rfl, ?_⟩
  · rw [LockedClient.connected, Writers.idle_iff.mp hidle, hentered, hleaving]
    exact s.mu.alone hw
  · change ∀ w ∈ s.replaced, w.Idle
    rw [replaced, Writers.finished_eq hidle]
    split_ifs
    · exact h.past_idle
    · exact List.forall_mem_append.mpr ⟨h.past_idle, List.forall_mem_singleton.mpr hidle⟩

theorem LockedClient.Guarded.start (hw : s.mu.writer = .holding) (dials : Bool) :
    { s.start dials with control := .done }.Guarded := by
  rcases s.start_eq_or dials with heq | heq
  · rw [heq]
    exact h.done hw
  · rw [heq]
    exact h.connected hw

theorem LockedClient.Guarded.shutdown (hw : s.mu.writer = .holding) :
    { s.shutdown with control := .done }.Guarded := by
  obtain ⟨-, hidle, -⟩ := h.alone hw
  refine ⟨h.readers, hw, (fun hstarted => nomatch hstarted), fun hne => ?_, h.past_idle⟩
  exact absurd (Writers.idle_iff.mp hidle) hne

/-- **A step leaves the lock with those who should hold it.** -/
theorem LockedClient.Guarded.step (hs : lockedStep s a = some (s', ev)) : s'.Guarded := by
  have hreaders := h.readers
  have hwriter := h.writer
  cases a with
  | enter frame =>
    obtain ⟨mu, hmu, hpair⟩ := Option.map_eq_some_iff.mp hs
    obtain ⟨rfl, -⟩ := Prod.mk.inj hpair
    obtain ⟨hidle, hidle', hcount⟩ := RWMutex.rLock_eq_some_iff.mp hmu
    refine ⟨?_, ?_, h.up_of_started, h.started_of_call, h.past_idle⟩
    · dsimp only
      rw [List.length_append, List.length_singleton]
      omega
    · exact hidle'.trans (hidle.symm.trans hwriter)
  | check i =>
    obtain ⟨frame, hframe, hpair⟩ := Option.map_eq_some_iff.mp hs
    obtain ⟨rfl, -⟩ := Prod.mk.inj hpair
    exact h.check hframe
  | advance i fails =>
    obtain ⟨⟨w', ev'⟩, hadvance, hpair⟩ := Option.map_eq_some_iff.mp hs
    obtain ⟨rfl, -⟩ := Prod.mk.inj hpair
    obtain ⟨hle, hne⟩ := length_underWay_le hadvance
    refine ⟨?_, hwriter, h.up_of_started, fun _ => h.started_of_call hne, h.past_idle⟩
    dsimp only
    omega
  | leave =>
    rw [lockedStep] at hs
    split_ifs at hs with hleaving
    obtain ⟨mu, hmu, hpair⟩ := Option.map_eq_some_iff.mp hs
    obtain ⟨rfl, -⟩ := Prod.mk.inj hpair
    obtain ⟨hsame, hcount⟩ := RWMutex.rUnlock_eq_some_iff.mp hmu
    refine ⟨?_, hsame.trans hwriter, h.up_of_started, h.started_of_call, h.past_idle⟩
    dsimp only
    omega
  | announce method =>
    rw [lockedStep] at hs
    split_ifs at hs with hcontrol
    obtain ⟨mu, hmu, hpair⟩ := Option.map_eq_some_iff.mp hs
    obtain ⟨rfl, -⟩ := Prod.mk.inj hpair
    obtain ⟨-, hannounced, hcount⟩ := RWMutex.announce_eq_some_iff.mp hmu
    exact ⟨hcount.trans hreaders, hannounced, h.up_of_started, h.started_of_call, h.past_idle⟩
  | acquire =>
    rw [lockedStep] at hs
    split at hs
    · obtain ⟨mu, hmu, hpair⟩ := Option.map_eq_some_iff.mp hs
      obtain ⟨rfl, -⟩ := Prod.mk.inj hpair
      obtain ⟨-, hzero, hholding, hcount⟩ := RWMutex.acquire_eq_some_iff.mp hmu
      refine ⟨?_, hholding, h.up_of_started, h.started_of_call, h.past_idle⟩
      exact hcount.trans (hzero.symm.trans hreaders)
    · cases hs
  | work dials =>
    rw [lockedStep] at hs
    split at hs
    case h_1 hcontrol =>
      obtain ⟨rfl, -⟩ := Prod.mk.inj (Option.some.inj hs)
      exact h.start (by rw [hwriter, hcontrol]; rfl) dials
    case h_2 hcontrol =>
      obtain ⟨rfl, -⟩ := Prod.mk.inj (Option.some.inj hs)
      exact h.shutdown (by rw [hwriter, hcontrol]; rfl)
    case h_3 => cases hs
  | unlock =>
    rw [lockedStep] at hs
    split_ifs at hs with hcontrol
    obtain ⟨mu, hmu, hpair⟩ := Option.map_eq_some_iff.mp hs
    obtain ⟨rfl, -⟩ := Prod.mk.inj hpair
    obtain ⟨hholding, hidle, hcount⟩ := RWMutex.unlock_eq_some_iff.mp hmu
    refine ⟨?_, hidle, h.up_of_started, h.started_of_call, h.past_idle⟩
    exact hcount.trans ((s.mu.alone hholding).symm.trans hreaders)

/-- The closed connections have no call under way. -/
theorem LockedClient.Guarded.closed_idle : ∀ w ∈ s.closedConns, w.Idle := by
  intro w hw
  rcases List.mem_append.mp hw with hpast | hcurrent
  · exact h.past_idle w hpast
  · split_ifs at hcurrent with hdown
    · rw [List.mem_singleton.mp hcurrent]
      exact h.idle_of_down hdown
    · cases hcurrent

end Steps

/-! ### What has reached the connections -/

/-- The bytes of every connection are in order. -/
structure LockedClient.InOrder (s : LockedClient) : Prop where
  guarded : s.Guarded
  current : s.writers.InOrder
  past : ∀ w ∈ s.past, w.InOrder

theorem LockedClient.inOrder_new : LockedClient.new.InOrder where
  guarded := guarded_new
  current := NettyClient.inOrder_new
  past := by simp [LockedClient.new]

theorem LockedClient.InOrder.connected (h : s.InOrder) (hw : s.mu.writer = .holding) :
    { s.connected with control := .done }.InOrder := by
  obtain ⟨-, hidle, -⟩ := h.guarded.alone hw
  refine ⟨h.guarded.connected hw, ?_, ?_⟩
  · rw [LockedClient.connected, Writers.idle_iff.mp hidle]
    exact NettyClient.inOrder_new
  · change ∀ w ∈ s.replaced, w.InOrder
    rw [replaced, Writers.finished_eq hidle]
    split_ifs
    · exact h.past
    · exact List.forall_mem_append.mpr ⟨h.past, List.forall_mem_singleton.mpr h.current⟩

theorem LockedClient.InOrder.start (h : s.InOrder) (hw : s.mu.writer = .holding) (dials : Bool) :
    { s.start dials with control := .done }.InOrder := by
  rcases s.start_eq_or dials with heq | heq
  · rw [heq]
    exact ⟨h.guarded.done hw, h.current, h.past⟩
  · rw [heq]
    exact h.connected hw

/-- **A step keeps the bytes of every connection in order**, if the calls do not disturb one
another. -/
theorem LockedClient.InOrder.step (h : s.InOrder) (hok : s.Undisturbed a)
    (hs : lockedStep s a = some (s', ev)) : s'.InOrder := by
  have hguarded := h.guarded.step hs
  cases a with
  | check i =>
    obtain ⟨frame, hframe, hpair⟩ := Option.map_eq_some_iff.mp hs
    obtain ⟨rfl, -⟩ := Prod.mk.inj hpair
    refine ⟨hguarded, ?_, ?_⟩
    · unfold LockedClient.check
      split_ifs
      · exact h.current.rLock frame
      · exact h.current
    · unfold LockedClient.check
      split_ifs <;> exact h.past
  | advance i fails =>
    obtain ⟨⟨w', ev'⟩, hadvance, hpair⟩ := Option.map_eq_some_iff.mp hs
    obtain ⟨rfl, -⟩ := Prod.mk.inj hpair
    -- a call that takes a step does so on a connection that is open
    have hup : s.conn ≠ .down := by
      intro hdown
      have hidle := h.guarded.idle_of_down hdown
      exact (length_underWay_le hadvance).2 (Writers.idle_iff.mp hidle)
    rw [if_neg hup] at hadvance
    have huninterrupted : Uninterrupted s.writers (.advance i fails) := hok
    exact ⟨hguarded, h.current.step huninterrupted hadvance, h.past⟩
  | work dials =>
    have hwriter := h.guarded.writer
    rw [lockedStep] at hs
    split at hs
    case h_1 hcontrol =>
      obtain ⟨rfl, -⟩ := Prod.mk.inj (Option.some.inj hs)
      exact h.start (by rw [hwriter, hcontrol]; rfl) dials
    case h_2 =>
      obtain ⟨rfl, -⟩ := Prod.mk.inj (Option.some.inj hs)
      exact ⟨hguarded, h.current, h.past⟩
    case h_3 => cases hs
  | enter frame =>
    obtain ⟨mu, -, hpair⟩ := Option.map_eq_some_iff.mp hs
    obtain ⟨rfl, -⟩ := Prod.mk.inj hpair
    exact ⟨hguarded, h.current, h.past⟩
  | leave =>
    rw [lockedStep] at hs
    split_ifs at hs
    obtain ⟨mu, -, hpair⟩ := Option.map_eq_some_iff.mp hs
    obtain ⟨rfl, -⟩ := Prod.mk.inj hpair
    exact ⟨hguarded, h.current, h.past⟩
  | announce method =>
    rw [lockedStep] at hs
    split_ifs at hs
    obtain ⟨mu, -, hpair⟩ := Option.map_eq_some_iff.mp hs
    obtain ⟨rfl, -⟩ := Prod.mk.inj hpair
    exact ⟨hguarded, h.current, h.past⟩
  | acquire =>
    rw [lockedStep] at hs
    split at hs
    · obtain ⟨mu, -, hpair⟩ := Option.map_eq_some_iff.mp hs
      obtain ⟨rfl, -⟩ := Prod.mk.inj hpair
      exact ⟨hguarded, h.current, h.past⟩
    · cases hs
  | unlock =>
    rw [lockedStep] at hs
    split_ifs at hs
    obtain ⟨mu, -, hpair⟩ := Option.map_eq_some_iff.mp hs
    obtain ⟨rfl, -⟩ := Prod.mk.inj hpair
    exact ⟨hguarded, h.current, h.past⟩

theorem Writers.InOrder.whole (h : w.InOrder) (hidle : w.Idle) : w.Whole := by
  obtain ⟨frames, -, -, hwhole⟩ := h.unmixed
  exact ⟨frames, hwhole hidle⟩

/-- **No frame is cut off by `Shutdown` or `Start`.** In every run of calls of `SendMsg`, `Start`
and `Shutdown`, a connection that is closed has no call under way; and it has had the whole
frames of its calls if these have not disturbed one another. -/
theorem closed_connections_whole {as : List LockedAction} {tr : List Unit}
    (h : Runs.exec lockedStep .new as = some (s, tr)) :
    (∀ w ∈ s.closedConns, w.Idle) ∧
      (Runs.Meets lockedStep LockedClient.Undisturbed .new as →
        ∀ w ∈ s.closedConns, w.Whole) := by
  have hguarded : s.Guarded := Runs.exec_invariant LockedClient.guarded_new
    (fun s a s' ev hinv hs => hinv.step hs) h
  refine ⟨hguarded.closed_idle, fun hmeets w hw => ?_⟩
  have horder : s.InOrder := Runs.exec_invariant_meets LockedClient.inOrder_new
    (fun s a s' ev hinv hok hs => hinv.step hok hs) hmeets h
  refine Writers.InOrder.whole ?_ (hguarded.closed_idle w hw)
  rcases List.mem_append.mp hw with hpast | hcurrent
  · exact horder.past w hpast
  · split_ifs at hcurrent
    · rw [List.mem_singleton.mp hcurrent]
      exact horder.current
    · cases hcurrent

/-- A client that is shut down while it sends, and started again. -/
def shutdownWhileSending : List LockedAction :=
  [.announce .start, .acquire, .work true, .unlock, .enter [1, 1], .check 0, .advance 0 none,
    .announce .shutdown, .advance 0 none, .leave, .acquire, .work true, .unlock,
    .announce .start, .acquire, .work true, .unlock]

/-- The frame that is sent while `Shutdown` waits is on the connection that is closed then. -/
theorem closed_connections_whole_shutdown :
    ∃ s, Runs.exec lockedStep .new shutdownWhileSending = some (s, []) ∧
      s.closedConns.map (fun w => w.writer.stream) = [[1, 1]] ∧ ∀ w ∈ s.closedConns, w.Whole := by
  refine ⟨_, rfl, rfl, ?_⟩
  exact (@closed_connections_whole _ shutdownWhileSending [] rfl).2 (Runs.meets_of_checks rfl)

end NettyClient

end HertzBeat
