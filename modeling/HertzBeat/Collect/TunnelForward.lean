import HertzBeat.Lib.Run
import Mathlib.Logic.Function.Basic

/-!
# The connections of an SSH tunnel

`forwardConnection` of `internal/protocol/basic/database/jdbc_collector.go`. A connection to the
local port of a tunnel is forwarded to the database: two goroutines copy, one in each direction,
and the one that ends first closes both connections. But the connections are closed in a third place
as well. `forwardConnection` defers it, does not wait for the goroutines and returns.

The system is the function, the two goroutines and the two peers. A peer has a stream to send, and
may hang up behind it; reads and writes fail only on a connection that was closed on this side.

`HertzBeat.Forwarding.closesLate_iff_waits` says that in every run the connections stay open until
one copy has come to the end of its source if and only if the deferred closes wait for that; and
then no byte is lost as long as no peer hangs up. They do not wait, and
`HertzBeat.Forwarding.closed_of_returned` says what comes of it: when the function has returned,
both connections are closed.
-/

namespace HertzBeat

/-- The two connections. -/
inductive Side where
  | localConn
  | remoteConn
  deriving DecidableEq

/-- Where a copy writes that reads from this side. -/
def Side.other : Side → Side
  | .localConn => .remoteConn
  | .remoteConn => .localConn

/-- A connection. -/
structure Conn where
  /-- What the peer sends and nobody has read. -/
  unread : List UInt8
  /-- The peer sends nothing behind that. -/
  hungUp : Bool
  /-- What was written to the peer. -/
  received : List UInt8
  /-- The connection was closed on this side. -/
  closed : Bool
  deriving DecidableEq

/-- Where a goroutine is that copies. -/
inductive CopyPhase where
  | idle
  | reading
  | writing (chunk : List UInt8)
  /-- `io.Copy` has returned. -/
  | closingRemote
  | closingLocal
  | done
  deriving DecidableEq

/-- What was read and not written. -/
def CopyPhase.chunk : CopyPhase → List UInt8
  | .writing chunk => chunk
  | _ => []

/-- `io.Copy` has returned. -/
def CopyPhase.isOver : CopyPhase → Bool
  | .idle | .reading | .writing _ => false
  | .closingRemote | .closingLocal | .done => true

/-- A goroutine that copies. -/
structure Copy where
  phase : CopyPhase
  /-- It has come to the end of its source. -/
  sawEnd : Bool
  deriving DecidableEq

/-- Where `forwardConnection` is. -/
inductive ForwardPhase where
  | dialing
  | dialed
  | oneStarted
  /-- About to return: the closes that were deferred. -/
  | closingRemote
  | closingLocal
  | returned
  deriving DecidableEq

/-- A connection that is forwarded. A copy goes by the side that it reads from. -/
structure Forwarding where
  main : ForwardPhase
  /-- The database was reached. -/
  connected : Bool
  conn : Side → Conn
  copy : Side → Copy

namespace Forwarding

/-- A connection was accepted, with the streams that the peers will send. -/
def start (streams : Side → List UInt8) : Forwarding where
  main := .dialing
  connected := false
  conn := fun side => ⟨streams side, false, [], false⟩
  copy := fun _ => ⟨.idle, false⟩

def setConn (s : Forwarding) (side : Side) (c : Conn) : Forwarding :=
  { s with conn := Function.update s.conn side c }

def setCopy (s : Forwarding) (side : Side) (c : Copy) : Forwarding :=
  { s with copy := Function.update s.copy side c }

def setPhase (s : Forwarding) (side : Side) (phase : CopyPhase) : Forwarding :=
  s.setCopy side { s.copy side with phase := phase }

/-- `Close`. -/
def close (s : Forwarding) (side : Side) : Forwarding :=
  s.setConn side { s.conn side with closed := true }

/-- The steps of the system. -/
inductive Action where
  /-- `forwardConnection` goes on. If it dials, it succeeds or fails. -/
  | forward (dials : Bool)
  /-- A copy goes on. If it reads, it gets so many bytes and one, or what there is. -/
  | copy (side : Side) (n : ℕ)
  /-- A peer hangs up. -/
  | hangUp (side : Side)
  deriving DecidableEq

/-- `forwardConnection` takes a step. -/
def stepForward (s : Forwarding) (dials : Bool) : Option Forwarding :=
  match s.main with
  | .dialing =>
    if dials then some { s with main := .dialed, connected := true }
    -- without a connection to the database only the local one is closed
    else some { s with main := .closingLocal }
  | .dialed => some { s.setPhase .localConn .reading with main := .oneStarted }
  | .oneStarted => some { s.setPhase .remoteConn .reading with main := .closingRemote }
  | .closingRemote => some { s.close .remoteConn with main := .closingLocal }
  | .closingLocal => some { s.close .localConn with main := .returned }
  | .returned => none

/-- A copy takes a step. -/
def stepCopy (s : Forwarding) (side : Side) (n : ℕ) : Option Forwarding :=
  match (s.copy side).phase with
  | .idle => none
  | .reading =>
    if (s.conn side).closed then some (s.setPhase side .closingRemote)
    else if (s.conn side).unread = [] then
      -- the end of the source, or nothing to be read yet
      if (s.conn side).hungUp then some (s.setCopy side ⟨.closingRemote, true⟩) else none
    else some ((s.setConn side
        { s.conn side with unread := (s.conn side).unread.drop (n + 1) }).setPhase side
      (.writing ((s.conn side).unread.take (n + 1))))
  | .writing chunk =>
    if (s.conn side.other).closed then some (s.setPhase side .closingRemote)
    else some ((s.setConn side.other
        { s.conn side.other with received := (s.conn side.other).received ++ chunk }).setPhase side
      .reading)
  | .closingRemote => some ((s.close .remoteConn).setPhase side .closingLocal)
  | .closingLocal => some ((s.close .localConn).setPhase side .done)
  | .done => none

/-- The system takes a step. -/
def step : Runs.StepFn Forwarding Action Unit
  | s, .forward dials => (s.stepForward dials).map (·, [])
  | s, .copy side n => (s.stepCopy side n).map (·, [])
  | s, .hangUp side => some (s.setConn side { s.conn side with hungUp := true }, [])

theorem stepForward_of_step {s s' : Forwarding} {dials : Bool} {ev : List Unit}
    (h : step s (.forward dials) = some (s', ev)) : s.stepForward dials = some s' := by
  obtain ⟨s₁, hs₁, heq⟩ := Option.map_eq_some_iff.mp h
  obtain ⟨rfl, -⟩ := Prod.mk.inj heq
  exact hs₁

theorem stepCopy_of_step {s s' : Forwarding} {side : Side} {n : ℕ} {ev : List Unit}
    (h : step s (.copy side n) = some (s', ev)) : s.stepCopy side n = some s' := by
  obtain ⟨s₁, hs₁, heq⟩ := Option.map_eq_some_iff.mp h
  obtain ⟨rfl, -⟩ := Prod.mk.inj heq
  exact hs₁

/-! ### What is asked of the forwarder -/

/-- A copy has come to the end of its source. -/
def EndSeen (s : Forwarding) : Prop := ∃ side, (s.copy side).sawEnd

instance (s : Forwarding) : Decidable s.EndSeen :=
  decidable_of_iff ((s.copy .localConn).sawEnd ∨ (s.copy .remoteConn).sawEnd)
    ⟨fun h => h.elim (fun h => ⟨_, h⟩) (fun h => ⟨_, h⟩),
      fun ⟨side, h⟩ => by
        cases side
        · exact .inl h
        · exact .inr h⟩

/-- A connection was closed on this side. -/
def Closed (s : Forwarding) : Prop := ∃ side, (s.conn side).closed

/-- The bytes of the stream from a side that were read or are to be read, in order. -/
def inTransit (s : Forwarding) (side : Side) : List UInt8 :=
  (s.conn side.other).received ++ (s.copy side).phase.chunk ++ (s.conn side).unread

/-- **No connection is closed before a copy has come to the end of its source**, if the database
was reached at all. -/
def ClosesLate (s : Forwarding) : Prop := s.connected → s.Closed → s.EndSeen

/-- **The deferred closes wait** until a copy has come to the end of its source. -/
def Waits (s : Forwarding) : Action → Prop
  | .forward _ => s.connected → s.main = .closingRemote ∨ s.main = .closingLocal → s.EndSeen
  | _ => True

instance (s : Forwarding) (a : Action) : Decidable (s.Waits a) := by
  cases a <;> unfold Waits <;> infer_instance

/-! ### Frames -/

section Frame

variable {s : Forwarding} {side : Side} {phase : CopyPhase}

/-- One of the copies is over. -/
def Over (s : Forwarding) : Prop := ∃ side, (s.copy side).phase.isOver

theorem copy_setCopy_of_ne {c : Copy} {side' : Side} (h : side' ≠ side) :
    (s.setCopy side c).copy side' = s.copy side' := by
  simp [setCopy, h]

theorem sawEnd_setPhase (side' : Side) :
    ((s.setPhase side phase).copy side').sawEnd = (s.copy side').sawEnd := by
  rcases eq_or_ne side' side with rfl | hne
  · simp [setPhase, setCopy]
  · simp [setPhase, setCopy, hne]

theorem inTransit_setPhase (h : phase.chunk = (s.copy side).phase.chunk) (side' : Side) :
    (s.setPhase side phase).inTransit side' = s.inTransit side' := by
  rcases eq_or_ne side' side with rfl | hne
  · simp [inTransit, setPhase, setCopy, h]
  · simp [inTransit, setPhase, setCopy, hne]

theorem endSeen_setPhase_iff : (s.setPhase side phase).EndSeen ↔ s.EndSeen := by
  simp only [EndSeen, sawEnd_setPhase]

theorem endSeen_setCopy : (s.setCopy side ⟨phase, true⟩).EndSeen :=
  ⟨side, by simp [setCopy]⟩

/-- A connection that stays as open as it was does not matter. -/
theorem closed_setConn {c : Conn} (hc : c.closed = (s.conn side).closed) (side' : Side) :
    ((s.setConn side c).conn side').closed ↔ (s.conn side').closed := by
  rcases eq_or_ne side' side with rfl | hne
  · simp [setConn, hc]
  · simp [setConn, hne]

theorem closed_setConn_iff {c : Conn} (hc : c.closed = (s.conn side).closed) :
    (s.setConn side c).Closed ↔ s.Closed :=
  exists_congr (closed_setConn hc)

theorem hungUp_setConn {c : Conn} (hc : c.hungUp = (s.conn side).hungUp) (side' : Side) :
    ((s.setConn side c).conn side').hungUp = (s.conn side').hungUp := by
  rcases eq_or_ne side' side with rfl | hne
  · simp [setConn, hc]
  · simp [setConn, hne]

theorem hungUp_close (side side' : Side) :
    ((s.close side).conn side').hungUp = (s.conn side').hungUp :=
  hungUp_setConn (by rfl) side'

theorem closed_mono_close (side side' : Side) (h : (s.conn side').closed) :
    ((s.close side).conn side').closed := by
  rcases eq_or_ne side' side with rfl | hne
  · simp [close, setConn]
  · simpa [close, setConn, hne] using h

theorem closed_close : (s.close side).Closed := ⟨side, by simp [close, setConn]⟩

/-- A copy that is not over does not matter. -/
theorem over_of_setPhase (hphase : phase.isOver = false) (h : (s.setPhase side phase).Over) :
    s.Over := by
  obtain ⟨side', hover⟩ := h
  rcases eq_or_ne side' side with rfl | hne
  · simp [setPhase, setCopy, hphase] at hover
  · exact ⟨side', by simpa [setPhase, setCopy, hne] using hover⟩

end Frame

/-! ### One step -/

section Step

variable {s s' : Forwarding}

/-- What a step of a copy does. It closes a connection only when it is over, and it is over only
when it has come to the end or a connection is closed. It leaves the other copy alone, and it loses
no byte unless a connection is closed. -/
structure CopyStep (s : Forwarding) (side : Side) (s' : Forwarding) : Prop where
  main_eq : s'.main = s.main
  connected_eq : s'.connected = s.connected
  started : (s.copy side).phase ≠ .idle
  copy_eq : ∀ side' ≠ side, s'.copy side' = s.copy side'
  hungUp_eq : ∀ side', (s'.conn side').hungUp = (s.conn side').hungUp
  sawEnd : (s'.copy side).sawEnd → (s.copy side).sawEnd ∨ (s.conn side).hungUp
  endSeen : s.EndSeen → s'.EndSeen
  closed : s'.Closed → s.Closed ∨ s.Over
  closed_mono : ∀ side', (s.conn side').closed → (s'.conn side').closed
  of_over : s'.Over → s.Over ∨ s.Closed ∨ s'.EndSeen
  bytes : ¬s'.Closed → ∀ side', s'.inTransit side' = s.inTransit side'

section Copy

variable {side : Side} {phase : CopyPhase} (hstarted : (s.copy side).phase ≠ .idle)

include hstarted

/-- A read or a write that fails, on a connection that is closed. -/
theorem copyStep_fail (hclosed : s.Closed) : CopyStep s side (s.setPhase side phase) where
  main_eq := rfl
  connected_eq := rfl
  started := hstarted
  copy_eq := fun _ => copy_setCopy_of_ne
  hungUp_eq := fun _ => rfl
  sawEnd := fun h => .inl ((sawEnd_setPhase side).symm.trans h)
  endSeen := endSeen_setPhase_iff.mpr
  closed := fun _ => .inl hclosed
  closed_mono := fun _ h => h
  of_over := fun _ => .inr (.inl hclosed)
  bytes := fun hopen => absurd hclosed hopen

/-- The end of the source. -/
theorem copyStep_end (hend : (s.conn side).hungUp)
    (hchunk : (s.copy side).phase.chunk = phase.chunk) :
    CopyStep s side (s.setCopy side ⟨phase, true⟩) where
  main_eq := rfl
  connected_eq := rfl
  started := hstarted
  copy_eq := fun _ => copy_setCopy_of_ne
  hungUp_eq := fun _ => rfl
  sawEnd := fun _ => .inr hend
  endSeen := fun _ => endSeen_setCopy
  closed := .inl
  closed_mono := fun _ h => h
  of_over := fun _ => .inr (.inr endSeen_setCopy)
  bytes := fun _ side' => by
    rcases eq_or_ne side' side with rfl | hne
    · simp [inTransit, setCopy, hchunk]
    · simp [inTransit, setCopy, hne]

/-- A read or a write that succeeds. -/
theorem copyStep_go {side' : Side} {c : Conn} (hclosed : c.closed = (s.conn side').closed)
    (hhungUp : c.hungUp = (s.conn side').hungUp) (hphase : phase.isOver = false)
    (hbytes : ∀ side'', ((s.setConn side' c).setPhase side phase).inTransit side'' =
      s.inTransit side'') :
    CopyStep s side ((s.setConn side' c).setPhase side phase) where
  main_eq := rfl
  connected_eq := rfl
  started := hstarted
  copy_eq := fun _ => copy_setCopy_of_ne
  hungUp_eq := hungUp_setConn hhungUp
  sawEnd := fun h => .inl ((sawEnd_setPhase side).symm.trans h)
  endSeen := endSeen_setPhase_iff.mpr
  closed := fun h => .inl ((closed_setConn_iff hclosed).mp h)
  closed_mono := fun side'' => (closed_setConn hclosed side'').mpr
  of_over := fun h => .inl (over_of_setPhase hphase h)
  bytes := fun _ => hbytes

omit hstarted in
/-- A close, behind the copying. -/
theorem copyStep_close (hover : (s.copy side).phase.isOver) (side' : Side) :
    CopyStep s side ((s.close side').setPhase side phase) where
  main_eq := rfl
  connected_eq := rfl
  started := fun h => by rw [h] at hover; cases hover
  copy_eq := fun _ => copy_setCopy_of_ne
  hungUp_eq := hungUp_close side'
  sawEnd := fun h => .inl ((sawEnd_setPhase side).symm.trans h)
  endSeen := endSeen_setPhase_iff.mpr
  closed := fun _ => .inr ⟨side, hover⟩
  closed_mono := closed_mono_close side'
  of_over := fun _ => .inl ⟨side, hover⟩
  bytes := fun hopen => absurd closed_close hopen

end Copy

theorem copyStep_of_stepCopy {side : Side} {n : ℕ} (h : s.stepCopy side n = some s') :
    CopyStep s side s' := by
  have hstarted : (s.copy side).phase ≠ .idle := by
    intro hidle
    rw [stepCopy, hidle] at h
    cases h
  unfold stepCopy at h
  split at h
  · contradiction
  · next hphase =>
    split_ifs at h with hclosed hnil hend
    · obtain rfl := Option.some.inj h
      exact copyStep_fail hstarted ⟨side, hclosed⟩
    · obtain rfl := Option.some.inj h
      exact copyStep_end hstarted hend (by rw [hphase]; rfl)
    · obtain rfl := Option.some.inj h
      refine copyStep_go hstarted (by rfl) (by rfl) (by rfl) fun side' => ?_
      cases side <;> cases side' <;>
        simp [inTransit, setConn, setPhase, setCopy, Side.other, CopyPhase.chunk, hphase]
  · next chunk hphase =>
    split_ifs at h with hclosed
    · obtain rfl := Option.some.inj h
      exact copyStep_fail hstarted ⟨side.other, hclosed⟩
    · obtain rfl := Option.some.inj h
      refine copyStep_go hstarted (by rfl) (by rfl) (by rfl) fun side' => ?_
      cases side <;> cases side' <;>
        simp [inTransit, setConn, setPhase, setCopy, Side.other, CopyPhase.chunk, hphase]
  · next hphase =>
    obtain rfl := Option.some.inj h
    exact copyStep_close (by rw [hphase]; rfl) _
  · next hphase =>
    obtain rfl := Option.some.inj h
    exact copyStep_close (by rw [hphase]; rfl) _
  · contradiction

/-- The states of runs in which the deferred closes wait. -/
structure Sound (s : Forwarding) : Prop where
  closesLate : s.ClosesLate
  endSeen_of_over : s.Over → s.EndSeen
  started : ∀ side, (s.copy side).phase ≠ .idle → s.connected
  dialing : s.main = .dialing → ¬s.connected ∧ ¬s.Closed
  dialed : s.main = .dialed ∨ s.main = .oneStarted → s.connected

theorem sound_start (streams : Side → List UInt8) : (start streams).Sound where
  closesLate := by simp [ClosesLate, start]
  endSeen_of_over := by simp [Over, start, CopyPhase.isOver]
  started := by simp [start]
  dialing := by simp [start, Closed]
  dialed := by simp [start]

/-- **A step of a copy is harmless**: it closes nothing before the end of a source. -/
theorem Sound.copy (hs : s.Sound) {side : Side} {n : ℕ} (h : s.stepCopy side n = some s') :
    s'.Sound := by
  have hcopy := copyStep_of_stepCopy h
  have hconnected := hs.started side hcopy.started
  have hlate := hs.closesLate hconnected
  refine ⟨fun _ hclosed => ?_, fun hover => ?_, fun _ _ => ?_, fun hmain => ?_, fun _ => ?_⟩
  · rcases hcopy.closed hclosed with hclosed | hover
    · exact hcopy.endSeen (hlate hclosed)
    · exact hcopy.endSeen (hs.endSeen_of_over hover)
  · rcases hcopy.of_over hover with hover | hclosed | hend
    · exact hcopy.endSeen (hs.endSeen_of_over hover)
    · exact hcopy.endSeen (hlate hclosed)
    · exact hend
  · rw [hcopy.connected_eq]
    exact hconnected
  · exact absurd hconnected (hs.dialing (hcopy.main_eq.symm.trans hmain)).1
  · rw [hcopy.connected_eq]
    exact hconnected

/-- A step of `forwardConnection` is so if it waits. -/
theorem Sound.forward (hs : s.Sound) {dials : Bool} (hwaits : s.Waits (.forward dials))
    (h : s.stepForward dials = some s') : s'.Sound := by
  unfold stepForward at h
  split at h
  · next hmain =>
    have hopen := (hs.dialing hmain).2
    split_ifs at h
    · obtain rfl := Option.some.inj h
      exact ⟨fun _ hclosed => absurd hclosed hopen, hs.endSeen_of_over, fun _ _ => rfl, by simp,
        fun _ => rfl⟩
    · obtain rfl := Option.some.inj h
      exact ⟨hs.closesLate, hs.endSeen_of_over, hs.started, by simp, by simp⟩
  · next hmain =>
    obtain rfl := Option.some.inj h
    have hconnected := hs.dialed (.inl hmain)
    exact ⟨fun _ hclosed => endSeen_setPhase_iff.mpr (hs.closesLate hconnected hclosed),
      fun hover => endSeen_setPhase_iff.mpr (hs.endSeen_of_over (over_of_setPhase rfl hover)),
      fun _ _ => hconnected, by simp, fun _ => hconnected⟩
  · next hmain =>
    obtain rfl := Option.some.inj h
    have hconnected := hs.dialed (.inr hmain)
    exact ⟨fun _ hclosed => endSeen_setPhase_iff.mpr (hs.closesLate hconnected hclosed),
      fun hover => endSeen_setPhase_iff.mpr (hs.endSeen_of_over (over_of_setPhase rfl hover)),
      fun _ _ => hconnected, by simp, by simp⟩
  · next hmain =>
    obtain rfl := Option.some.inj h
    exact ⟨fun hconnected _ => hwaits hconnected (.inl hmain), hs.endSeen_of_over, hs.started,
      by simp, by simp⟩
  · next hmain =>
    obtain rfl := Option.some.inj h
    exact ⟨fun hconnected _ => hwaits hconnected (.inr hmain), hs.endSeen_of_over, hs.started,
      by simp, by simp⟩
  · contradiction

/-- And so is a peer that hangs up. -/
theorem Sound.hangUp (hs : s.Sound) (side : Side) :
    (s.setConn side { s.conn side with hungUp := true }).Sound where
  closesLate := fun hconnected hclosed =>
    hs.closesLate hconnected ((closed_setConn_iff (by rfl)).mp hclosed)
  endSeen_of_over := hs.endSeen_of_over
  started := hs.started
  dialing := fun hmain => ⟨(hs.dialing hmain).1,
    fun hclosed => (hs.dialing hmain).2 ((closed_setConn_iff (by rfl)).mp hclosed)⟩
  dialed := hs.dialed

/-- **The step lemma.** -/
theorem Sound.step (hs : s.Sound) {a : Action} {ev : List Unit} (hwaits : s.Waits a)
    (h : Forwarding.step s a = some (s', ev)) : s'.Sound := by
  cases a with
  | forward dials => exact hs.forward hwaits (stepForward_of_step h)
  | copy side n => exact hs.copy (stepCopy_of_step h)
  | hangUp side =>
    obtain ⟨rfl, -⟩ := Prod.mk.inj (Option.some.inj h)
    exact hs.hangUp side

/-- **A step closes nothing too early if and only if it waits.** -/
theorem Sound.closesLate_iff (hs : s.Sound) {a : Action} {ev : List Unit}
    (h : Forwarding.step s a = some (s', ev)) : s'.ClosesLate ↔ s.Waits a := by
  refine ⟨fun hlate => ?_, fun hwaits => (hs.step hwaits h).closesLate⟩
  cases a with
  | copy side n => trivial
  | hangUp side => trivial
  | forward dials =>
    intro hconnected hmain
    have hforward := stepForward_of_step h
    rcases hmain with hmain | hmain
    · rw [stepForward, hmain] at hforward
      obtain rfl := Option.some.inj hforward
      exact hlate hconnected closed_close
    · rw [stepForward, hmain] at hforward
      obtain rfl := Option.some.inj hforward
      exact hlate hconnected closed_close

/-! ### The bytes -/

/-- The copy from a side is not started yet. -/
def StartsLater : ForwardPhase → Side → Prop
  | .dialing, _ | .dialed, _ | .oneStarted, .remoteConn => True
  | _, _ => False

/-- What holds in every run: a copy that has come to the end of its source has a peer that hung up;
the deferred closes are made in their order; and no byte is lost as long as nothing is closed. -/
structure Kept (streams : Side → List UInt8) (s : Forwarding) : Prop where
  hungUp : ∀ side, (s.copy side).sawEnd → (s.conn side).hungUp
  idle : ∀ side, StartsLater s.main side → (s.copy side).phase = .idle
  dialing : s.main = .dialing → ¬s.connected
  closingLocal : s.main = .closingLocal → s.connected → (s.conn .remoteConn).closed
  returned : s.main = .returned →
    (s.conn .localConn).closed ∧ (s.connected → (s.conn .remoteConn).closed)
  bytes : ¬s.Closed → ∀ side, s.inTransit side = streams side

variable {streams : Side → List UInt8}

theorem kept_start (streams : Side → List UInt8) : Kept streams (start streams) where
  hungUp := by simp [start]
  idle := by simp [start]
  dialing := by simp [start]
  closingLocal := by simp [start]
  returned := by simp [start]
  bytes := by simp [start, inTransit, CopyPhase.chunk]

theorem Kept.copy (hs : Kept streams s) {side : Side} {n : ℕ} (h : s.stepCopy side n = some s') :
    Kept streams s' := by
  have hcopy := copyStep_of_stepCopy h
  refine ⟨fun side' hend => ?_, fun side' hlater => ?_, fun hmain => ?_,
    fun hmain hconnected => ?_, fun hmain => ?_, fun hopen side' => ?_⟩
  · rw [hcopy.hungUp_eq]
    rcases eq_or_ne side' side with rfl | hne
    · exact (hcopy.sawEnd hend).elim (hs.hungUp side') id
    · rw [hcopy.copy_eq side' hne] at hend
      exact hs.hungUp side' hend
  · rw [hcopy.main_eq] at hlater
    rcases eq_or_ne side' side with rfl | hne
    · exact absurd (hs.idle side' hlater) hcopy.started
    · rw [hcopy.copy_eq side' hne, hs.idle side' hlater]
  · rw [hcopy.main_eq] at hmain
    rw [hcopy.connected_eq]
    exact hs.dialing hmain
  · rw [hcopy.main_eq] at hmain
    rw [hcopy.connected_eq] at hconnected
    exact hcopy.closed_mono _ (hs.closingLocal hmain hconnected)
  · rw [hcopy.main_eq] at hmain
    rw [hcopy.connected_eq]
    obtain ⟨hlocal, hremote⟩ := hs.returned hmain
    exact ⟨hcopy.closed_mono _ hlocal, fun hconnected => hcopy.closed_mono _ (hremote hconnected)⟩
  · have hopen' : ¬s.Closed := fun ⟨side', hclosed⟩ => hopen ⟨side', hcopy.closed_mono _ hclosed⟩
    rw [hcopy.bytes hopen, hs.bytes hopen']

/-- A goroutine is started. -/
theorem Kept.startCopy (hs : Kept streams s) {side : Side} (hlater : StartsLater s.main side)
    {main : ForwardPhase} (hmain : main = .oneStarted ∨ main = .closingRemote)
    (hidle : ∀ side', StartsLater main side' → side' ≠ side ∧ StartsLater s.main side') :
    Kept streams { s.setPhase side .reading with main := main } where
  hungUp := fun side' hend => hs.hungUp side' ((sawEnd_setPhase side').symm.trans hend)
  idle := fun side' hlater' => by
    obtain ⟨hne, hbefore⟩ := hidle side' hlater'
    exact (congrArg Copy.phase (copy_setCopy_of_ne hne)).trans (hs.idle side' hbefore)
  dialing := by rcases hmain with rfl | rfl <;> simp
  closingLocal := by rcases hmain with rfl | rfl <;> simp
  returned := by rcases hmain with rfl | rfl <;> simp
  bytes := fun hopen side' => by
    have hchunk : CopyPhase.reading.chunk = (s.copy side).phase.chunk := by
      rw [hs.idle side hlater]
      rfl
    exact (inTransit_setPhase hchunk side').trans (hs.bytes hopen side')

theorem Kept.forward (hs : Kept streams s) {dials : Bool} (h : s.stepForward dials = some s') :
    Kept streams s' := by
  unfold stepForward at h
  split at h
  · next hmain =>
    have hidle : ∀ side, (s.copy side).phase = .idle := fun side =>
      hs.idle side (by rw [hmain]; trivial)
    split_ifs at h
    · obtain rfl := Option.some.inj h
      exact ⟨hs.hungUp, fun side _ => hidle side, by simp, by simp, by simp, hs.bytes⟩
    · obtain rfl := Option.some.inj h
      exact ⟨hs.hungUp, fun side _ => hidle side, by simp,
        fun _ hconnected => absurd hconnected (hs.dialing hmain), by simp, hs.bytes⟩
  · next hmain =>
    obtain rfl := Option.some.inj h
    refine hs.startCopy (by rw [hmain]; trivial) (.inl rfl) fun side' hlater => ?_
    cases side' with
    | localConn => cases hlater
    | remoteConn => exact ⟨by decide, by rw [hmain]; trivial⟩
  · next hmain =>
    obtain rfl := Option.some.inj h
    refine hs.startCopy (by rw [hmain]; trivial) (.inr rfl) fun side' hlater => ?_
    cases hlater
  · obtain rfl := Option.some.inj h
    exact ⟨fun side hend => (hungUp_close _ side).trans (hs.hungUp side hend),
      fun _ hlater => False.elim hlater, by simp, fun _ _ => by simp [close, setConn], by simp,
      fun hopen => absurd closed_close hopen⟩
  · next hmain =>
    obtain rfl := Option.some.inj h
    exact ⟨fun side hend => (hungUp_close _ side).trans (hs.hungUp side hend),
      fun _ hlater => False.elim hlater, by simp, by simp,
      fun _ => ⟨by simp [close, setConn],
        fun hconnected => closed_mono_close _ _ (hs.closingLocal hmain hconnected)⟩,
      fun hopen => absurd closed_close hopen⟩
  · contradiction

theorem Kept.hangUp (hs : Kept streams s) (side : Side) :
    Kept streams (s.setConn side { s.conn side with hungUp := true }) where
  hungUp := fun side' hend => by
    rcases eq_or_ne side' side with rfl | hne
    · simp [setConn]
    · simpa [setConn, hne] using hs.hungUp side' hend
  idle := hs.idle
  dialing := hs.dialing
  closingLocal := fun hmain hconnected =>
    (closed_setConn (by rfl) _).mpr (hs.closingLocal hmain hconnected)
  returned := fun hmain => ⟨(closed_setConn (by rfl) _).mpr (hs.returned hmain).1,
    fun hconnected => (closed_setConn (by rfl) _).mpr ((hs.returned hmain).2 hconnected)⟩
  bytes := fun hopen side' => by
    have hopen' : ¬s.Closed := fun hclosed => hopen ((closed_setConn_iff (by rfl)).mpr hclosed)
    rw [← hs.bytes hopen' side']
    cases side <;> cases side' <;> simp [inTransit, setConn, Side.other]

theorem Kept.step (hs : Kept streams s) {a : Action} {ev : List Unit}
    (h : Forwarding.step s a = some (s', ev)) : Kept streams s' := by
  cases a with
  | forward dials => exact hs.forward (stepForward_of_step h)
  | copy side n => exact hs.copy (stepCopy_of_step h)
  | hangUp side =>
    obtain ⟨rfl, -⟩ := Prod.mk.inj (Option.some.inj h)
    exact hs.hangUp side

end Step

/-! ### Whole runs -/

section Runs

variable {streams : Side → List UInt8} {as : List Action} {s : Forwarding} {tr : List Unit}

theorem kept_of_exec (h : Runs.exec step (start streams) as = some (s, tr)) : Kept streams s :=
  Runs.exec_invariant (kept_start streams) (fun _ _ _ _ hs => hs.step) h

/-- **When `forwardConnection` has returned, both connections are closed.** So a copy that is to
come to the end of its source must have done so before. -/
theorem closed_of_returned (h : Runs.exec step (start streams) as = some (s, tr))
    (hreturned : s.main = .returned) (hconnected : s.connected) :
    ∀ side, (s.conn side).closed := by
  obtain ⟨hlocal, hremote⟩ := (kept_of_exec h).returned hreturned
  intro side
  cases side with
  | localConn => exact hlocal
  | remoteConn => exact hremote hconnected

/-- **The connections stay open until a copy has come to the end of its source**, in every state of
a run, if and only if every deferred close waits for that. And if they do, and no peer has hung up,
both connections are open and no byte is lost: those that were received, the ones being copied and
the ones to be read make up the stream, in either direction. -/
theorem closesLate_iff_waits (h : Runs.exec step (start streams) as = some (s, tr)) :
    (Runs.Always step (fun _ _ s' => s'.ClosesLate) (start streams) as ↔
        Runs.Meets step Waits (start streams) as) ∧
      (Runs.Meets step Waits (start streams) as → s.connected →
        (∀ side, ¬(s.conn side).hungUp) →
        (∀ side, ¬(s.conn side).closed) ∧
          ∀ side, (s.conn side.other).received ++ (s.copy side).phase.chunk ++
            (s.conn side).unread = streams side) := by
  constructor
  · exact Runs.always_iff_meets (sound_start streams) (fun _ _ _ _ hs hwaits => hs.step hwaits)
      (fun _ _ _ _ hs => hs.closesLate_iff) h
  · intro hmeets hconnected hopen
    have hsound : s.Sound := Runs.exec_invariant_meets (sound_start streams)
      (fun _ _ _ _ hs hwaits => hs.step hwaits) hmeets h
    have hkept := kept_of_exec h
    have hnever : ¬s.EndSeen := fun ⟨side, hend⟩ => hopen side (hkept.hungUp side hend)
    have hclosed : ¬s.Closed := fun hclosed => hnever (hsound.closesLate hconnected hclosed)
    exact ⟨fun side hside => hclosed ⟨side, hside⟩, hkept.bytes hclosed⟩

end Runs

/-- A query and its answer. -/
def queryStreams : Side → List UInt8
  | .localConn => [81, 63]
  | .remoteConn => [65]

/-- The query is forwarded in two pieces and then the answer, before `forwardConnection` goes on. -/
def patientRun : List Action :=
  [.forward true, .forward true, .forward true, .copy .localConn 0, .copy .localConn 0,
    .copy .localConn 5, .copy .localConn 0, .copy .remoteConn 0, .copy .remoteConn 0]

/-- Both arrive, and the connections are open. -/
theorem closesLate_iff_waits_patient :
    ∃ s tr, Runs.exec step (start queryStreams) patientRun = some (s, tr) ∧
      Runs.Always step (fun _ _ s' => s'.ClosesLate) (start queryStreams) patientRun ∧
      (∀ side, ¬(s.conn side).closed) ∧
      ∀ side, (s.conn side.other).received = queryStreams side := by
  have hmeets : Runs.Meets step Waits (start queryStreams) patientRun :=
    Runs.meets_of_checks (by decide)
  refine ⟨_, _, rfl, ?_, ?_, ?_⟩
  · exact (closesLate_iff_waits rfl).1.mpr hmeets
  · refine ((closesLate_iff_waits rfl).2 hmeets rfl fun side => ?_).1
    cases side <;> decide
  · intro side
    cases side <;> rfl

/-- `forwardConnection` goes on to its end, and then the copies start to read. -/
def hastyRun : List Action :=
  [.forward true, .forward true, .forward true, .forward true, .forward true,
    .copy .localConn 0, .copy .remoteConn 0]

/-- Nothing arrives, though no peer has hung up, and the copies are over. -/
theorem not_closesLate_hasty :
    ∃ s tr, Runs.exec step (start queryStreams) hastyRun = some (s, tr) ∧ ¬s.ClosesLate ∧
      ∀ side, ¬(s.conn side).hungUp ∧ (s.copy side).phase.isOver ∧
        (s.conn side).received = [] := by
  refine ⟨_, _, rfl, ?_, ?_⟩
  · intro hlate
    have hend := hlate rfl ⟨.localConn, rfl⟩
    exact absurd hend (by decide)
  · intro side
    cases side <;> decide

end Forwarding

end HertzBeat
