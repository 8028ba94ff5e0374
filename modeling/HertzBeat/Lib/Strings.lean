import Mathlib.Data.List.Infix
import Mathlib.Data.List.TakeDrop

/-!
# Searching and replacing

Two functions of the source language's string library, over any alphabet: the
test whether one string occurs in another, and the replacement of every occurrence
of a pattern.

The replacement reads the string once from the left: at an occurrence it puts in
the replacement and goes on *behind* the occurrence, so occurrences that overlap
are not both found and a replacement is never searched again. What it does on a
given string is therefore known once its first occurrence is: either there is none
and the string stays (`Go.replaceAll_eq_self`), or the pattern follows a text
before which it does not start, and that text is kept
(`Go.replaceAll_append_of_first`).
-/

namespace Go

variable {α : Type*} [DecidableEq α]

/-- `strings.Contains`. -/
def contains (s sub : List α) : Bool := decide (sub <:+: s)

/-- The rest of a replacement, when the next `k` letters belong to an occurrence
that was already replaced. -/
def replaceFrom (old new : List α) : ℕ → List α → List α
  | _, [] => []
  | k + 1, _ :: s => replaceFrom old new k s
  | 0, c :: s =>
    if old <+: c :: s then new ++ replaceFrom old new (old.length - 1) s
    else c :: replaceFrom old new 0 s

/-- `strings.ReplaceAll`, for a pattern that is not empty. -/
def replaceAll (s old new : List α) : List α := replaceFrom old new 0 s

/-! ### How one reading goes -/

theorem replaceFrom_eq_drop (old new : List α) (k : ℕ) (s : List α) :
    replaceFrom old new k s = replaceAll (s.drop k) old new := by
  induction s generalizing k with
  | nil => cases k <;> rfl
  | cons c s ih =>
    cases k with
    | zero => rfl
    | succ k => exact ih k

@[simp] theorem replaceAll_nil (old new : List α) : replaceAll [] old new = [] := rfl

theorem replaceAll_append_self {old : List α} (hold : old ≠ []) (new s : List α) :
    replaceAll (old ++ s) old new = new ++ replaceAll s old new := by
  obtain ⟨c, cs, rfl⟩ := List.exists_cons_of_ne_nil hold
  have hhere : c :: cs <+: c :: (cs ++ s) := ⟨s, rfl⟩
  rw [replaceAll, List.cons_append, replaceFrom, if_pos hhere, replaceFrom_eq_drop]
  simp

theorem replaceAll_cons_of_absent {old s : List α} {c : α} (h : ¬old <+: c :: s)
    (new : List α) : replaceAll (c :: s) old new = c :: replaceAll s old new := by
  rw [replaceAll, replaceFrom, if_neg h, replaceAll]

/-! ### What is replaced -/

/-- A string the pattern does not occur in stays. -/
theorem replaceAll_eq_self {old s : List α} (h : ¬old <:+: s) (new : List α) :
    replaceAll s old new = s := by
  induction s with
  | nil => rfl
  | cons c s ih =>
    rw [replaceAll_cons_of_absent fun hpre => h hpre.isInfix,
      ih fun hinf => h (hinf.trans (List.suffix_cons c s).isInfix)]

/-- **The first occurrence**: when the pattern does not start before the end of
`u`, the text `u` is kept and what follows it is replaced. That it does not start
in `u` is read off `u` and the pattern alone: such an occurrence would end before
the pattern behind `u` does. -/
theorem replaceAll_append_of_first {old u : List α} (hold : old ≠ [])
    (h : ¬old <:+: (u ++ old).dropLast) (new s : List α) :
    replaceAll (u ++ old ++ s) old new = u ++ new ++ replaceAll s old new := by
  induction u with
  | nil => simpa using replaceAll_append_self hold new s
  | cons c u ih =>
    have hne : u ++ old ≠ [] := by simp [hold]
    have hlast : (c :: u ++ old).dropLast = c :: (u ++ old).dropLast :=
      List.dropLast_cons_of_ne_nil hne
    rw [hlast] at h
    -- an occurrence at `c` would lie inside `c :: u ++ old` without its last letter
    have hnot : ¬old <+: c :: (u ++ old ++ s) := by
      intro hpre
      have hinto : c :: (u ++ old).dropLast <+: c :: (u ++ old ++ s) :=
        List.cons_prefix_cons.mpr
          ⟨rfl, (List.dropLast_prefix _).trans (List.prefix_append _ s)⟩
      refine h (List.prefix_of_prefix_length_le hpre hinto ?_).isInfix
      have hpos : 0 < old.length := List.length_pos_iff.mpr hold
      simp only [List.length_cons, List.length_dropLast, List.length_append]
      omega
    have hrest : ¬old <:+: (u ++ old).dropLast := fun hinf =>
      h (hinf.trans (List.suffix_cons c _).isInfix)
    rw [List.cons_append, List.cons_append, replaceAll_cons_of_absent hnot, ih hrest]
    rfl

end Go
