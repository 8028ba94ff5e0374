import Mathlib.Data.List.Basic
import Mathlib.Algebra.Order.Group.Nat

/-!
# A memory of records of one type

Records that a program shares through pointers live in a memory, `Mem α`: an
address is the position at which a record was allocated, so addresses are never
reused and an allocation never moves an older record. The two facts every frame
argument rests on are that an allocation leaves every address below the size
alone (`Mem.read_alloc_of_lt`) and that an update changes the one address it is
given (`Mem.read_modify_of_ne`).
-/

/-- A memory holding records of type `α`; the address of a record is its
position. -/
structure Mem (α : Type*) where
  /-- The records, in allocation order. -/
  cells : List α
  deriving DecidableEq, Repr

namespace Mem

variable {α : Type*}

/-- The memory nothing has been allocated in. -/
def empty : Mem α := ⟨[]⟩

/-- The number of records allocated so far, which is the next free address. -/
def size (m : Mem α) : ℕ := m.cells.length

/-- The record at an address, `none` where nothing was allocated. -/
def read (m : Mem α) (r : ℕ) : Option α := m.cells[r]?

/-- Allocate a record; its address is the size of the memory before. -/
def alloc (m : Mem α) (a : α) : Mem α := ⟨m.cells ++ [a]⟩

/-- Update the record at an address in place. -/
def modify (m : Mem α) (r : ℕ) (f : α → α) : Mem α := ⟨m.cells.modify r f⟩

@[simp] theorem size_empty : (empty : Mem α).size = 0 := rfl

@[simp] theorem read_empty (r : ℕ) : (empty : Mem α).read r = none := by
  simp [read, empty]

@[simp] theorem size_alloc (m : Mem α) (a : α) : (m.alloc a).size = m.size + 1 := by
  simp [size, alloc]

@[simp] theorem size_modify (m : Mem α) (r : ℕ) (f : α → α) : (m.modify r f).size = m.size := by
  simp [size, modify]

theorem read_eq_none_iff {m : Mem α} {r : ℕ} : m.read r = none ↔ m.size ≤ r := by
  simp [read, size]

theorem lt_size_of_read {m : Mem α} {r : ℕ} {a : α} (h : m.read r = some a) : r < m.size := by
  by_contra hge
  rw [read_eq_none_iff.mpr (by omega)] at h
  exact absurd h (by simp)

theorem exists_read {m : Mem α} {r : ℕ} (h : r < m.size) : ∃ a, m.read r = some a := by
  rcases ha : m.read r with _ | a
  · exact absurd (read_eq_none_iff.mp ha) (by omega)
  · exact ⟨a, rfl⟩

/-- The new record is at the address the allocation returned. -/
@[simp] theorem read_alloc_self (m : Mem α) (a : α) : (m.alloc a).read m.size = some a := by
  simp [read, alloc, size]

/-- **An allocation moves nothing.** -/
theorem read_alloc_of_lt {m : Mem α} {r : ℕ} (h : r < m.size) (a : α) :
    (m.alloc a).read r = m.read r :=
  List.getElem?_append_left h

theorem read_alloc_of_ne {m : Mem α} {r : ℕ} (h : r ≠ m.size) (a : α) :
    (m.alloc a).read r = m.read r := by
  rcases lt_or_ge r m.size with hlt | hge
  · exact read_alloc_of_lt hlt a
  · rw [read_eq_none_iff.mpr hge, read_eq_none_iff, size_alloc]
    omega

theorem read_alloc_of_read {m : Mem α} {r : ℕ} {b : α} (h : m.read r = some b) (a : α) :
    (m.alloc a).read r = some b := by
  rw [read_alloc_of_lt (lt_size_of_read h), h]

/-- What can be read after an allocation was there before or is the new record. -/
theorem read_alloc_eq_some {m : Mem α} {r : ℕ} {a b : α} :
    (m.alloc a).read r = some b ↔ m.read r = some b ∨ (r = m.size ∧ a = b) := by
  rcases eq_or_ne r m.size with rfl | hne
  · have hnone : m.read m.size = none := read_eq_none_iff.mpr le_rfl
    simp [hnone]
  · rw [read_alloc_of_ne hne]
    simp [hne]

@[simp] theorem read_modify_self (m : Mem α) (r : ℕ) (f : α → α) :
    (m.modify r f).read r = (m.read r).map f := by
  simp [read, modify]

/-- **An update changes the one address it is given.** -/
theorem read_modify_of_ne {r r' : ℕ} (h : r' ≠ r) (m : Mem α) (f : α → α) :
    (m.modify r f).read r' = m.read r' := by
  simp [read, modify, Ne.symm h]

theorem read_modify (m : Mem α) (r r' : ℕ) (f : α → α) :
    (m.modify r f).read r' = if r' = r then (m.read r').map f else m.read r' := by
  split_ifs with h
  · rw [h, read_modify_self]
  · exact read_modify_of_ne h m f

end Mem
