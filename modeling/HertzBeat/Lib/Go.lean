import Mathlib.Data.List.AList
import Mathlib.Data.Int.ModEq

/-!
# What the source language fixes

The few things of the source language the models need in more than one place:
strings as byte strings, run-time panics, the wrap-around of `int64`, durations
in nanoseconds, and maps with the arbitrary order in which a `range` loop visits
them.

Map iteration order is the one source of nondeterminism among these. A
`Go.RangeOrder` fixes it for a whole execution: every `range` statement that is
executed is reached by a *path* of call positions, and the order is a function of
that path and of the map, so two executions of one loop are free to differ.
-/

namespace Go

/-- A string: any sequence of bytes. -/
abbrev Str := List UInt8

/-- The bytes of a string literal. -/
def str (s : String) : Str := s.toUTF8.data.toList

/-- The run-time panics the modelled code can raise. -/
inductive Panic where
  /-- A slice is indexed outside its bounds. -/
  | indexOutOfRange
  /-- A method reads a field through a nil pointer. -/
  | nilDereference
  deriving DecidableEq, Repr

/-- Where a sequence of calls does not fail, none of them does. -/
theorem bind_eq_ok {ε α β : Type} {x : Except ε α} {f : α → Except ε β} {b : β} :
    x >>= f = .ok b ↔ ∃ a, x = .ok a ∧ f a = .ok b := by
  cases x with
  | error p => simp [bind, Except.bind]
  | ok a => simp [bind, Except.bind]

theorem map_eq_ok {ε α β : Type} {x : Except ε α} {f : α → β} {b : β} :
    f <$> x = .ok b ↔ ∃ a, x = .ok a ∧ f a = b := by
  cases x with
  | error p => simp [Functor.map, Except.map]
  | ok a => simp [Functor.map, Except.map]

theorem mapError_eq_ok {ε ε' α : Type} {x : Except ε α} {f : ε → ε'} {a : α} :
    x.mapError f = .ok a ↔ x = .ok a := by
  cases x <;> simp [Except.mapError]

theorem mapError_eq_error {ε ε' α : Type} {x : Except ε α} {f : ε → ε'} {e : ε'} :
    x.mapError f = .error e ↔ ∃ e₀, x = .error e₀ ∧ f e₀ = e := by
  cases x <;> simp [Except.mapError]

/-- A loop none of whose turns panics goes through, and what every turn gives holds of all
that it gives. -/
theorem exists_mapM_eq_ok {α β : Type} {f : α → Except Panic β} {P : β → Prop} {l : List α}
    (h : ∀ a ∈ l, ∃ b, f a = .ok b ∧ P b) : ∃ bs, l.mapM f = .ok bs ∧ ∀ b ∈ bs, P b := by
  induction l with
  | nil => exact ⟨[], rfl, by simp⟩
  | cons a l ih =>
    obtain ⟨b, hb, hPb⟩ := h a List.mem_cons_self
    obtain ⟨bs, hbs, hPbs⟩ := ih fun a' ha' => h a' (List.mem_cons_of_mem _ ha')
    refine ⟨b :: bs, ?_, by simpa using ⟨hPb, hPbs⟩⟩
    rw [List.mapM_cons, hb, hbs]
    rfl

/-- A loop whose turns are known gives what they give. -/
theorem mapM_eq_ok_map {α β : Type} {f : α → Except Panic β} {g : α → β} {l : List α}
    (h : ∀ a ∈ l, f a = .ok (g a)) : l.mapM f = .ok (l.map g) := by
  induction l with
  | nil => rfl
  | cons a l ih =>
    rw [List.forall_mem_cons] at h
    rw [List.mapM_cons, h.1, ih h.2]
    rfl

/-- A loop that carries a value through turns that do not panic. -/
theorem exists_foldlM_eq_ok {α β : Type} {f : β → α → Except Panic β} {P : β → Prop}
    {l : List α} (h : ∀ b, P b → ∀ a ∈ l, ∃ b', f b a = .ok b' ∧ P b') {b : β} (hb : P b) :
    ∃ b', l.foldlM f b = .ok b' ∧ P b' := by
  induction l generalizing b with
  | nil => exact ⟨b, rfl, hb⟩
  | cons a l ih =>
    obtain ⟨b₁, hb₁, hP₁⟩ := h b hb a List.mem_cons_self
    obtain ⟨b', hb', hP'⟩ := ih (fun b hb a' ha' => h b hb a' (List.mem_cons_of_mem _ ha')) hP₁
    refine ⟨b', ?_, hP'⟩
    rw [List.foldlM_cons, hb₁]
    exact hb'

/-! ### Fixed-width arithmetic -/

/-- The value of an `int64` expression whose exact value is `x`. -/
def wrap64 (x : ℤ) : ℤ := x.bmod (2 ^ 64)

theorem wrap64_of_range {x : ℤ} (hlo : -2 ^ 63 ≤ x) (hhi : x < 2 ^ 63) : wrap64 x = x := by
  unfold wrap64 Int.bmod
  simp only [Nat.cast_pow, Nat.cast_ofNat]
  split_ifs <;> omega

/-- The range of an `int64`. -/
def IsInt64 (x : ℤ) : Prop := -2 ^ 63 ≤ x ∧ x < 2 ^ 63

instance (x : ℤ) : Decidable (IsInt64 x) := inferInstanceAs (Decidable (_ ∧ _))

/-- The largest `int`. -/
def maxInt : ℤ := 2 ^ 63 - 1

/-- One millisecond, in nanoseconds. -/
def millisecond : ℤ := 1000000

/-- One second, in nanoseconds. -/
def second : ℤ := 1000000000

/-! ### Maps and the order in which they are visited -/

/-- A map with keys `κ` and values `ν`. -/
abbrev Map (κ ν : Type) := AList fun _ : κ => ν

/-- A `map[string]string`. -/
abbrev StrMap := Map Str Str

section Entries

variable {κ ν : Type} [DecidableEq κ] {m : Map κ ν} {k k' : κ} {v v' : ν}

theorem lookup_insert_eq_update (m : Map κ ν) (k : κ) (v : ν) :
    (m.insert k v).lookup = Function.update m.lookup k (some v) := by
  funext k'
  rcases eq_or_ne k' k with rfl | hne
  · rw [AList.lookup_insert, Function.update_self]
  · rw [AList.lookup_insert_ne hne, Function.update_of_ne hne]

theorem lookup_erase_eq_update (m : Map κ ν) (k : κ) :
    (m.erase k).lookup = Function.update m.lookup k none := by
  funext k'
  rcases eq_or_ne k' k with rfl | hne
  · rw [AList.lookup_erase, Function.update_self]
  · rw [AList.lookup_erase_ne hne, Function.update_of_ne hne]

/-- An entry after an insertion is the inserted one, or was there before. -/
theorem lookup_of_lookup_insert (h : (m.insert k v).lookup k' = some v') :
    k' = k ∧ v = v' ∨ m.lookup k' = some v' := by
  rcases eq_or_ne k' k with rfl | hne
  · rw [AList.lookup_insert] at h
    exact .inl ⟨rfl, Option.some.inj h⟩
  · rw [AList.lookup_insert_ne hne] at h
    exact .inr h

/-- An entry after an erasure was there before. -/
theorem lookup_of_lookup_erase (h : (m.erase k).lookup k' = some v') : m.lookup k' = some v' := by
  rcases eq_or_ne k' k with rfl | hne
  · rw [AList.lookup_erase] at h
    exact absurd h (by simp)
  · rwa [AList.lookup_erase_ne hne] at h

section Insertions

variable {α : Type} {key : α → κ} {val : α → ν} {l : List α}

/-- A run of insertions leaves the other keys alone. -/
theorem lookup_foldl_insert_of_notMem (hk : k ∉ l.map key) (m : Map κ ν) :
    (l.foldl (fun m a => m.insert (key a) (val a)) m).lookup k = m.lookup k := by
  induction l generalizing m with
  | nil => rfl
  | cons a l ih =>
    rw [List.map_cons, List.mem_cons, not_or] at hk
    rw [List.foldl_cons, ih hk.2, AList.lookup_insert_ne hk.1]

/-- A run of insertions under different keys keeps what it has inserted. -/
theorem lookup_foldl_insert_of_mem (hnodup : (l.map key).Nodup) {a : α} (ha : a ∈ l)
    (m : Map κ ν) :
    (l.foldl (fun m a => m.insert (key a) (val a)) m).lookup (key a) = some (val a) := by
  induction l generalizing m with
  | nil => exact absurd ha (by simp)
  | cons b l ih =>
    obtain ⟨hb, hl⟩ := List.nodup_cons.mp hnodup
    rw [List.foldl_cons]
    rcases List.mem_cons.mp ha with rfl | ha
    · rw [lookup_foldl_insert_of_notMem hb, AList.lookup_insert]
    · exact ih hl ha _

theorem mem_foldl_insert (m : Map κ ν) :
    k ∈ l.foldl (fun m a => m.insert (key a) (val a)) m ↔ k ∈ m ∨ ∃ a ∈ l, key a = k := by
  induction l generalizing m with
  | nil => simp
  | cons a l ih =>
    rw [List.foldl_cons, ih, AList.mem_insert, List.exists_mem_cons_iff]
    tauto

end Insertions

end Entries

/-- **The iteration order of an execution**: for every path at which a `range`
statement is executed, the order in which it visits the map it is given – any
permutation of its entries. -/
structure RangeOrder where
  /-- The entries in the order visited. -/
  order : List ℕ → StrMap → List (Σ _ : Str, Str)
  /-- Every entry is visited exactly once. -/
  perm : ∀ p m, (order p m).Perm m.entries

/-- The iteration orders seen from the `k`-th call made at this point. -/
def RangeOrder.at (o : RangeOrder) (k : ℕ) : RangeOrder where
  order := fun p m => o.order (k :: p) m
  perm := fun p m => o.perm (k :: p) m

/-- The order in which the loop at this point visits a map. -/
def RangeOrder.visit (o : RangeOrder) (m : StrMap) : List (Σ _ : Str, Str) := o.order [] m

/-- The orders of an execution all of whose loops visit a map as it is listed. -/
def RangeOrder.listed : RangeOrder where
  order := fun _ m => m.entries
  perm := fun _ _ => .rfl

/-- The orders of an execution all of whose loops visit a map from the back. -/
def RangeOrder.reversed : RangeOrder where
  order := fun _ m => m.entries.reverse
  perm := fun _ m => m.entries.reverse_perm

theorem RangeOrder.visit_perm (o : RangeOrder) (m : StrMap) : (o.visit m).Perm m.entries :=
  o.perm [] m

end Go
