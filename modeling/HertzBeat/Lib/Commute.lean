import Mathlib.Data.List.Perm.Basic

/-!
# Steps that commute

A machine whose steps may fail takes a list of steps one after the other:
`List.foldlM` in `Option`. When any two steps of the list can be exchanged, from
every state, the order of the list does not matter (`Runs.foldlM_perm`); failing is an
outcome like any other, so two orders also fail together.
-/

namespace Runs

variable {σ ι : Type*}

/-- Two steps can be exchanged, from every state. -/
def Commute (f : σ → ι → Option σ) (x y : ι) : Prop :=
  ∀ s, (f s x).bind (f · y) = (f s y).bind (f · x)

theorem Commute.refl (f : σ → ι → Option σ) (x : ι) : Commute f x x := fun _ => rfl

theorem Commute.symm {f : σ → ι → Option σ} {x y : ι} (h : Commute f x y) : Commute f y x :=
  fun s => (h s).symm

/-- **The order of steps that commute does not matter.** -/
theorem foldlM_perm {f : σ → ι → Option σ} {xs ys : List ι} (hperm : xs.Perm ys)
    (hcomm : ∀ x ∈ xs, ∀ y ∈ xs, Commute f x y) (s : σ) : xs.foldlM f s = ys.foldlM f s := by
  induction hperm generalizing s with
  | nil => rfl
  | cons x _ ih =>
    rw [List.foldlM_cons, List.foldlM_cons]
    refine bind_congr fun s' => ih (fun y hy z hz => ?_) s'
    exact hcomm y (List.mem_cons_of_mem x hy) z (List.mem_cons_of_mem x hz)
  | swap x y xs =>
    have hxy := hcomm y (by simp) x (by simp) s
    simp only [List.foldlM_cons, ← bind_assoc]
    exact congrArg (· >>= fun s' => xs.foldlM f s') hxy
  | trans hxy _ ih₁ ih₂ =>
    rw [ih₁ hcomm, ih₂ fun y hy z hz => hcomm y (hxy.mem_iff.mpr hy) z (hxy.mem_iff.mpr hz)]

/-- A reordering of the images comes from a reordering. -/
theorem exists_perm_map_eq {κ : Type*} (g : ι → κ) {xs : List ι} {ys : List κ}
    (h : ys.Perm (xs.map g)) : ∃ xs' : List ι, xs'.Perm xs ∧ xs'.map g = ys := by
  induction ys generalizing xs with
  | nil =>
    obtain rfl : xs = [] := List.map_eq_nil_iff.mp h.symm.eq_nil
    exact ⟨[], .nil, rfl⟩
  | cons y ys ih =>
    obtain ⟨x, hx, rfl⟩ := List.mem_map.mp (h.mem_iff.mp List.mem_cons_self)
    obtain ⟨as, bs, rfl⟩ := List.append_of_mem hx
    have hmiddle : (as ++ x :: bs).Perm (x :: (as ++ bs)) := List.perm_middle
    obtain ⟨xs', hperm, hmap⟩ := ih ((h.trans (hmiddle.map g)).cons_inv)
    exact ⟨x :: xs', (hperm.cons x).trans hmiddle.symm, by rw [List.map_cons, hmap]⟩

end Runs
