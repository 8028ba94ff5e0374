import Mathlib.Order.Nat

/-!
# Locks for many readers or one writer

`sync.RWMutex`. Any number of readers hold the lock at a time, or one writer. A writer first
announces itself, and from then on no reader is admitted; it holds the lock once the readers
that were there before have left. Other writers announce themselves one at a time.

Who waits is not recorded: a goroutine that waits is one whose next operation is not enabled
(`none`). That a writer holds the lock alone is a field of the lock, so there is no state in
which it does not. The operations are taken apart by their `_eq_some_iff`.
-/

namespace Go

/-- How far the writer has come that is first in line. -/
inductive WriterPhase where
  /-- No writer has announced itself. -/
  | idle
  /-- A writer waits for the readers to leave. -/
  | announced
  /-- A writer holds the lock. -/
  | holding
  deriving DecidableEq

/-- A lock, by the number of its readers and its writer. -/
@[ext] structure RWMutex where
  readers : ℕ
  writer : WriterPhase
  alone : writer = .holding → readers = 0
  deriving DecidableEq

namespace RWMutex

/-- A lock that nobody holds. -/
def new : RWMutex where
  readers := 0
  writer := .idle
  alone := fun _ => rfl

/-- `RLock`: a reader is admitted unless a writer is in line. -/
def rLock (m : RWMutex) : Option RWMutex :=
  if m.writer = .idle then
    some { readers := m.readers + 1, writer := .idle, alone := fun hw => nomatch hw }
  else none

/-- `RUnlock`. -/
def rUnlock (m : RWMutex) : Option RWMutex :=
  if 0 < m.readers then
    some { m with readers := m.readers - 1, alone := fun hw => by rw [m.alone hw] }
  else none

/-- The first half of `Lock`: a writer announces itself. -/
def announce (m : RWMutex) : Option RWMutex :=
  if m.writer = .idle then
    some { m with writer := .announced, alone := fun hw => nomatch hw }
  else none

/-- The second half of `Lock`: the readers have left. -/
def acquire (m : RWMutex) : Option RWMutex :=
  if m.writer = .announced ∧ m.readers = 0 then
    some { readers := 0, writer := .holding, alone := fun _ => rfl }
  else none

/-- `Unlock`. -/
def unlock (m : RWMutex) : Option RWMutex :=
  if m.writer = .holding then
    some { m with writer := .idle, alone := fun hw => nomatch hw }
  else none

variable {m m' : RWMutex}

theorem rLock_eq_some_iff :
    m.rLock = some m' ↔ m.writer = .idle ∧ m'.writer = .idle ∧ m'.readers = m.readers + 1 := by
  rw [rLock]
  split_ifs with h
  · rw [Option.some_inj, eq_comm, RWMutex.ext_iff, and_iff_right h, and_comm]
  · simp [h]

theorem rUnlock_eq_some_iff :
    m.rUnlock = some m' ↔ m'.writer = m.writer ∧ m.readers = m'.readers + 1 := by
  rw [rUnlock]
  split_ifs with h
  · rw [Option.some_inj, RWMutex.ext_iff]
    constructor
    · rintro ⟨hreaders, hwriter⟩
      dsimp only at hreaders
      exact ⟨hwriter.symm, by omega⟩
    · rintro ⟨hwriter, hreaders⟩
      exact ⟨by dsimp only; omega, hwriter.symm⟩
  · refine iff_of_false (by simp) ?_
    rintro ⟨-, hreaders⟩
    omega

theorem announce_eq_some_iff :
    m.announce = some m' ↔
      m.writer = .idle ∧ m'.writer = .announced ∧ m'.readers = m.readers := by
  rw [announce]
  split_ifs with h
  · rw [Option.some_inj, eq_comm, RWMutex.ext_iff, and_iff_right h, and_comm]
  · simp [h]

theorem acquire_eq_some_iff :
    m.acquire = some m' ↔
      m.writer = .announced ∧ m.readers = 0 ∧ m'.writer = .holding ∧ m'.readers = 0 := by
  rw [acquire]
  split_ifs with h
  · rw [Option.some_inj, eq_comm, RWMutex.ext_iff, and_iff_right h.1, and_iff_right h.2, and_comm]
  · refine iff_of_false (by simp) ?_
    rintro ⟨hwriter, hreaders, -⟩
    exact h ⟨hwriter, hreaders⟩

theorem unlock_eq_some_iff :
    m.unlock = some m' ↔ m.writer = .holding ∧ m'.writer = .idle ∧ m'.readers = 0 := by
  rw [unlock]
  split_ifs with h
  · rw [Option.some_inj, eq_comm, RWMutex.ext_iff, and_iff_right h, and_comm, ← m.alone h]
  · simp [h]

end RWMutex

end Go
