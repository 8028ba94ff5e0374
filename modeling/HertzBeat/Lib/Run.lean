import Mathlib.Data.List.Basic
import Mathlib.Data.List.Induction

/-!
# Runs of a system that takes labelled steps

A system is a step function: in a state, an action either is not enabled
(`none`) or leads to one next state and emits a list of events. A *run* is the
execution of a list of actions, `Runs.exec`; its *trace* is the list of events
it emitted, in order. Nothing here knows what the states, the actions or the
events are.

These rules carry every proof about whole runs.

* `Runs.exec_induction`: a predicate of the state **and of the trace so far**
  that holds at the start and survives one step holds at the end of every run.
  Having the trace in the predicate is what lets a property speak of the past
  (“it was appended and never cancelled since”) without putting ghost fields in
  the state.
* `Runs.exec_induction_meets`: the same for the runs all of whose steps meet a
  condition on the state before the step, `Runs.Meets`.
* `Runs.caused_of_exec`: what an invariant says of the events of one step and of the
  trace before them, it says of every event of a run.
-/

namespace Runs

variable {σ α ε : Type*}

/-- A step function: the next state and the events emitted, or `none` where the
action is not enabled. -/
abbrev StepFn (σ α ε : Type*) := σ → α → Option (σ × List ε)

/-- **A run**: the actions are taken one after the other, and the run exists only
if every one of them is enabled when its turn comes. -/
def exec (step : StepFn σ α ε) : σ → List α → Option (σ × List ε)
  | s, [] => some (s, [])
  | s, a :: as => (step s a).bind fun p => (exec step p.1 as).map fun q => (q.1, p.2 ++ q.2)

variable {step : StepFn σ α ε}

@[simp] theorem exec_nil (s : σ) : exec step s [] = some (s, []) := rfl

theorem exec_cons {s s' : σ} {a : α} {as : List α} {tr : List ε} :
    exec step s (a :: as) = some (s', tr) ↔
      ∃ s₁ ev tr', step s a = some (s₁, ev) ∧ exec step s₁ as = some (s', tr') ∧
        tr = ev ++ tr' := by
  simp only [exec, Option.bind_eq_some_iff, Option.map_eq_some_iff, Prod.mk.injEq, Prod.exists]
  constructor
  · rintro ⟨s₁, ev, hstep, s₂, tr', hrest, rfl, rfl⟩
    exact ⟨s₁, ev, tr', hstep, hrest, rfl⟩
  · rintro ⟨s₁, ev, tr', hstep, hrest, rfl⟩
    exact ⟨s₁, ev, hstep, s', tr', hrest, rfl, rfl⟩

/-- A first step without events leaves the rest of the run. -/
theorem exec_of_step {s s₁ : σ} {a : α} {as : List α} (h : step s a = some (s₁, [])) :
    exec step s (a :: as) = exec step s₁ as := by
  rw [exec, h, Option.bind_some]
  simp

/-- A run of a concatenation is a run of the first part and, from where it ends,
a run of the second. -/
theorem exec_append {s s' : σ} {as bs : List α} {tr : List ε} :
    exec step s (as ++ bs) = some (s', tr) ↔
      ∃ s₁ tr₁ tr₂, exec step s as = some (s₁, tr₁) ∧ exec step s₁ bs = some (s', tr₂) ∧
        tr = tr₁ ++ tr₂ := by
  induction as generalizing s tr with
  | nil =>
    constructor
    · intro h
      exact ⟨s, [], tr, rfl, h, rfl⟩
    · rintro ⟨s₁, tr₁, tr₂, h, hb, rfl⟩
      obtain ⟨rfl, rfl⟩ : s = s₁ ∧ [] = tr₁ := by simpa using h
      exact hb
  | cons a as ih =>
    rw [List.cons_append, exec_cons]
    constructor
    · rintro ⟨s₁, ev, tr', hstep, hrest, rfl⟩
      obtain ⟨s₂, tr₁, tr₂, ha, hb, rfl⟩ := ih.mp hrest
      exact ⟨s₂, ev ++ tr₁, tr₂, exec_cons.mpr ⟨s₁, ev, tr₁, hstep, ha, rfl⟩, hb, by simp⟩
    · rintro ⟨s₂, tr₁, tr₂, ha, hb, rfl⟩
      obtain ⟨s₁, ev, tr', hstep, hrest, rfl⟩ := exec_cons.mp ha
      exact ⟨s₁, ev, tr' ++ tr₂, hstep, ih.mpr ⟨s₂, tr', tr₂, hrest, hb, rfl⟩, by simp⟩

theorem exec_singleton {s s' : σ} {a : α} {tr : List ε} :
    exec step s [a] = some (s', tr) ↔ step s a = some (s', tr) := by
  rw [exec_cons]
  constructor
  · rintro ⟨s₁, ev, tr', hstep, hnil, rfl⟩
    obtain ⟨rfl, rfl⟩ : s₁ = s' ∧ [] = tr' := by simpa using hnil
    simpa using hstep
  · intro hstep
    exact ⟨s', tr, [], hstep, rfl, by simp⟩

/-- The shape in which a run is taken apart at its last step. -/
theorem exec_snoc {s s' : σ} {as : List α} {a : α} {tr : List ε} :
    exec step s (as ++ [a]) = some (s', tr) ↔
      ∃ s₁ tr₁ ev, exec step s as = some (s₁, tr₁) ∧ step s₁ a = some (s', ev) ∧
        tr = tr₁ ++ ev := by
  rw [exec_append]
  simp only [exec_singleton]

/-! ### Invariants of runs -/

/-- **The invariant rule**: what holds at the start, of the empty trace, and is
kept by every step holds at the end of every run, of its trace. -/
theorem exec_induction {Inv : σ → List ε → Prop} {s₀ : σ} (hinit : Inv s₀ [])
    (hstep : ∀ s tr a s' ev, Inv s tr → step s a = some (s', ev) → Inv s' (tr ++ ev))
    {as : List α} {s : σ} {tr : List ε} (h : exec step s₀ as = some (s, tr)) : Inv s tr := by
  induction as using List.reverseRecOn generalizing s tr with
  | nil =>
    obtain ⟨rfl, rfl⟩ : s₀ = s ∧ [] = tr := by simpa using h
    exact hinit
  | append_singleton as a ih =>
    obtain ⟨s₁, tr₁, ev, hpre, hlast, rfl⟩ := exec_snoc.mp h
    exact hstep _ _ _ _ _ (ih hpre) hlast

/-- The rule for an invariant of the states alone. -/
theorem exec_invariant {Inv : σ → Prop} {s₀ : σ} (hinit : Inv s₀)
    (hstep : ∀ s a s' ev, Inv s → step s a = some (s', ev) → Inv s')
    {as : List α} {s : σ} {tr : List ε} (h : exec step s₀ as = some (s, tr)) : Inv s :=
  @exec_induction _ _ _ _ (fun s _ => Inv s) _ hinit
    (fun s _ a s' ev hinv hs => hstep s a s' ev hinv hs) _ _ _ h

/-- **Every step of the run meets the condition**: each action is taken in a
state in which `ok` allows it. The condition is on the state before the step. -/
def Meets (step : StepFn σ α ε) (ok : σ → α → Prop) : σ → List α → Prop
  | _, [] => True
  | s, a :: as => ok s a ∧ ∀ s₁ ev, step s a = some (s₁, ev) → Meets step ok s₁ as

variable {ok : σ → α → Prop}

@[simp] theorem meets_nil (s : σ) : Meets step ok s [] := trivial

theorem meets_append {s : σ} {as bs : List α} (h : Meets step ok s (as ++ bs)) :
    Meets step ok s as ∧
      ∀ s₁ tr, exec step s as = some (s₁, tr) → Meets step ok s₁ bs := by
  induction as generalizing s with
  | nil =>
    refine ⟨trivial, fun s₁ tr hnil => ?_⟩
    obtain ⟨rfl, -⟩ : s = s₁ ∧ [] = tr := by simpa using hnil
    exact h
  | cons a as ih =>
    obtain ⟨hok, hrest⟩ := h
    refine ⟨⟨hok, fun s₁ ev hs => (ih (hrest s₁ ev hs)).1⟩, fun s₂ tr hrun => ?_⟩
    obtain ⟨s₁, ev, tr', hs, hrun', -⟩ := exec_cons.mp hrun
    exact (ih (hrest s₁ ev hs)).2 s₂ tr' hrun'

/-- A run that does not meet a condition has a first step that does not. -/
theorem exists_of_not_meets {s : σ} {as : List α} (h : ¬Meets step ok s as) :
    ∃ pre a post s₁ tr₁, as = pre ++ a :: post ∧ exec step s pre = some (s₁, tr₁) ∧ ¬ok s₁ a := by
  induction as generalizing s with
  | nil => exact absurd trivial h
  | cons a as ih =>
    by_cases hok : ok s a
    · have hrest : ∃ s₁ ev, step s a = some (s₁, ev) ∧ ¬Meets step ok s₁ as := by
        by_contra hc
        refine h ⟨hok, fun s₁ ev hs => ?_⟩
        by_contra hm
        exact hc ⟨s₁, ev, hs, hm⟩
      obtain ⟨s₁, ev, hs, hm⟩ := hrest
      obtain ⟨pre, b, post, s₂, tr₂, rfl, hpre, hb⟩ := ih hm
      exact ⟨a :: pre, b, post, s₂, _, rfl, exec_cons.mpr ⟨s₁, ev, tr₂, hs, hpre, rfl⟩, hb⟩
    · exact ⟨[], a, as, s, [], rfl, rfl, hok⟩

theorem Meets.mono {ok' : σ → α → Prop} (hok : ∀ s a, ok s a → ok' s a) {s : σ} {as : List α}
    (h : Meets step ok s as) : Meets step ok' s as := by
  induction as generalizing s with
  | nil => trivial
  | cons a as ih => exact ⟨hok s a h.1, fun s₁ ev hs => ih (h.2 s₁ ev hs)⟩

/-- A condition on the steps, and one on the actions alone. -/
theorem Meets.and_forall {P : α → Prop} {s : σ} {as : List α} (h : Meets step ok s as)
    (hP : ∀ a ∈ as, P a) : Meets step (fun s a => ok s a ∧ P a) s as := by
  induction as generalizing s with
  | nil => trivial
  | cons a as ih =>
    refine ⟨⟨h.1, hP a List.mem_cons_self⟩, fun s₁ ev hs => ih (h.2 s₁ ev hs) fun b hb => ?_⟩
    exact hP b (List.mem_cons_of_mem _ hb)

/-- A condition on the actions alone. -/
theorem meets_of_forall {P : α → Prop} {s : σ} {as : List α} (hP : ∀ a ∈ as, P a) :
    Meets step (fun _ a => P a) s as := by
  induction as generalizing s with
  | nil => trivial
  | cons a as ih =>
    exact ⟨hP a List.mem_cons_self, fun _ _ _ => ih fun b hb => hP b (List.mem_cons_of_mem _ hb)⟩

/-- A test that every step of a run meets a condition, for runs that are given. -/
def checks (step : StepFn σ α ε) (test : σ → α → Bool) : σ → List α → Bool
  | _, [] => true
  | s, a :: as => test s a && match step s a with
    | none => true
    | some p => checks step test p.1 as

theorem meets_of_checks [∀ s a, Decidable (ok s a)] {s : σ} {as : List α}
    (h : checks step (fun s a => decide (ok s a)) s as = true) : Meets step ok s as := by
  induction as generalizing s with
  | nil => trivial
  | cons a as ih =>
    rw [checks, Bool.and_eq_true, decide_eq_true_eq] at h
    refine ⟨h.1, fun s₁ ev hs => ih ?_⟩
    have hrest := h.2
    rw [hs] at hrest
    exact hrest

/-- **The invariant rule under a condition on the steps.** -/
theorem exec_induction_meets {Inv : σ → List ε → Prop} {s₀ : σ} (hinit : Inv s₀ [])
    (hstep : ∀ s tr a s' ev, Inv s tr → ok s a → step s a = some (s', ev) →
      Inv s' (tr ++ ev))
    {as : List α} {s : σ} {tr : List ε} (hmeets : Meets step ok s₀ as)
    (h : exec step s₀ as = some (s, tr)) : Inv s tr := by
  induction as using List.reverseRecOn generalizing s tr with
  | nil =>
    obtain ⟨rfl, rfl⟩ : s₀ = s ∧ [] = tr := by simpa using h
    exact hinit
  | append_singleton as a ih =>
    obtain ⟨s₁, tr₁, ev, hpre, hlast, rfl⟩ := exec_snoc.mp h
    obtain ⟨hm, hm'⟩ := meets_append hmeets
    exact hstep _ _ _ _ _ (ih hm hpre) (hm' _ _ hpre).1 hlast

/-- What an invariant of the states says of the events of every step, it says of the
events of a run. -/
theorem forall_mem_of_exec {Inv : σ → Prop} {Q : ε → Prop} {s₀ : σ} (hinit : Inv s₀)
    (hstep : ∀ s a s' ev, Inv s → step s a = some (s', ev) → Inv s' ∧ ∀ e ∈ ev, Q e)
    {as : List α} {s : σ} {tr : List ε} (h : exec step s₀ as = some (s, tr)) : ∀ e ∈ tr, Q e := by
  have hall : Inv s ∧ ∀ e ∈ tr, Q e := by
    refine @exec_induction _ _ _ _ (fun s tr => Inv s ∧ ∀ e ∈ tr, Q e) _ ⟨hinit, by simp⟩ ?_ _ _ _ h
    rintro s tr a s' ev ⟨hinv, hQ⟩ hs
    obtain ⟨hinv', hev⟩ := hstep s a s' ev hinv hs
    refine ⟨hinv', fun e he => ?_⟩
    exact (List.mem_append.mp he).elim (hQ e) (hev e)
  exact hall.2

/-- The same under a condition on the steps. -/
theorem forall_mem_of_exec_meets {Inv : σ → Prop} {Q : ε → Prop} {s₀ : σ} (hinit : Inv s₀)
    (hstep : ∀ s a s' ev, Inv s → ok s a → step s a = some (s', ev) → Inv s' ∧ ∀ e ∈ ev, Q e)
    {as : List α} {s : σ} {tr : List ε} (hmeets : Meets step ok s₀ as)
    (h : exec step s₀ as = some (s, tr)) : ∀ e ∈ tr, Q e := by
  have hall : Inv s ∧ ∀ e ∈ tr, Q e := by
    refine @exec_induction_meets _ _ _ _ _ (fun s tr => Inv s ∧ ∀ e ∈ tr, Q e) _ ⟨hinit, by simp⟩
      ?_ _ _ _ hmeets h
    rintro s tr a s' ev ⟨hinv, hQ⟩ hok hs
    obtain ⟨hinv', hev⟩ := hstep s a s' ev hinv hok hs
    refine ⟨hinv', fun e he => ?_⟩
    exact (List.mem_append.mp he).elim (hQ e) (hev e)
  exact hall.2

/-- The invariant rule under a condition, for an invariant of the states alone. -/
theorem exec_invariant_meets {Inv : σ → Prop} {s₀ : σ} (hinit : Inv s₀)
    (hstep : ∀ s a s' ev, Inv s → ok s a → step s a = some (s', ev) → Inv s')
    {as : List α} {s : σ} {tr : List ε} (hmeets : Meets step ok s₀ as)
    (h : exec step s₀ as = some (s, tr)) : Inv s :=
  @exec_induction_meets _ _ _ _ _ (fun s _ => Inv s) _ hinit
    (fun s _ a s' ev hinv hok hs => hstep s a s' ev hinv hok hs) _ _ _ hmeets h

/-! ### Runs that get somewhere -/

/-- **The progress rule**: where one action always leads to a smaller rank as long as the goal
is not reached, enough of it leads to the goal. -/
theorem exists_exec_of_rank {Inv goal : σ → Prop} {a : α} (rank : σ → ℕ)
    (hstep : ∀ s, Inv s → ¬goal s → ∃ s' ev, step s a = some (s', ev) ∧ Inv s' ∧ rank s' < rank s)
    {s : σ} (hinv : Inv s) :
    ∃ k s' tr, exec step s (List.replicate k a) = some (s', tr) ∧ goal s' := by
  induction hn : rank s using Nat.strongRecOn generalizing s with
  | ind n ih =>
    by_cases hgoal : goal s
    · exact ⟨0, s, [], rfl, hgoal⟩
    · obtain ⟨s₁, ev, hs, hinv₁, hlt⟩ := hstep s hinv hgoal
      obtain ⟨k, s', tr, hrun, hgoal'⟩ := ih (rank s₁) (hn ▸ hlt) hinv₁ rfl
      exact ⟨k + 1, s', ev ++ tr, exec_cons.mpr ⟨s₁, ev, tr, hs, hrun, rfl⟩, hgoal'⟩

/-- **The rule for bounded work**: where the actions of one party take away from a rank that no
action adds to, there are no more of them in a run than the rank was. -/
theorem countP_add_rank_le {Inv : σ → Prop} {own : α → Bool} (rank : σ → ℕ)
    (hstep : ∀ s a s' ev, Inv s → step s a = some (s', ev) →
      Inv s' ∧ (if own a then 1 else 0) + rank s' ≤ rank s)
    {as : List α} {s s' : σ} {tr : List ε} (hinv : Inv s) (h : exec step s as = some (s', tr)) :
    Inv s' ∧ as.countP own + rank s' ≤ rank s := by
  induction as generalizing s tr with
  | nil =>
    obtain ⟨rfl, -⟩ : s = s' ∧ [] = tr := by simpa using h
    exact ⟨hinv, by simp⟩
  | cons a as ih =>
    obtain ⟨s₁, ev, tr', hs, hrest, -⟩ := exec_cons.mp h
    obtain ⟨hinv₁, hle⟩ := hstep s a s₁ ev hinv hs
    obtain ⟨hinv', hle'⟩ := ih hinv₁ hrest
    refine ⟨hinv', ?_⟩
    rw [List.countP_cons]
    omega

/-! ### What every step of a run does -/

/-- **Every step of the run has the property**, which may speak of the state after it. -/
def Always (step : StepFn σ α ε) (P : σ → α → σ → Prop) : σ → List α → Prop
  | _, [] => True
  | s, a :: as => ∀ s₁ ev, step s a = some (s₁, ev) → P s a s₁ ∧ Always step P s₁ as

/-- Where a step has the property exactly if it meets the condition, so it is with
runs. Only the states that are reached by steps that meet the condition matter. -/
theorem always_iff_meets {Inv : σ → Prop} {P : σ → α → σ → Prop} {s₀ : σ} (hinit : Inv s₀)
    (hstep : ∀ s a s' ev, Inv s → ok s a → step s a = some (s', ev) → Inv s')
    (hiff : ∀ s a s' ev, Inv s → step s a = some (s', ev) → (P s a s' ↔ ok s a))
    {as : List α} {s : σ} {tr : List ε} (h : exec step s₀ as = some (s, tr)) :
    Always step P s₀ as ↔ Meets step ok s₀ as := by
  induction as generalizing s₀ tr with
  | nil => exact Iff.rfl
  | cons a as ih =>
    obtain ⟨s₁, ev, tr', hs, hrest, -⟩ := exec_cons.mp h
    -- a step function gives one successor, so both sides speak of the same tail
    have hnext : ∀ s₂ ev₂, step s₀ a = some (s₂, ev₂) → s₂ = s₁ := fun s₂ ev₂ hs₂ =>
      congrArg Prod.fst (Option.some.inj (hs₂.symm.trans hs))
    constructor
    · intro hall
      obtain ⟨hP, htail⟩ := hall s₁ ev hs
      have hok := (hiff _ _ _ _ hinit hs).mp hP
      refine ⟨hok, fun s₂ ev₂ hs₂ => ?_⟩
      rw [hnext s₂ ev₂ hs₂]
      exact (ih (hstep _ _ _ _ hinit hok hs) hrest).mp htail
    · rintro ⟨hok, htail⟩ s₂ ev₂ hs₂
      obtain rfl := hnext s₂ ev₂ hs₂
      exact ⟨(hiff _ _ _ _ hinit hs).mpr hok,
        (ih (hstep _ _ _ _ hinit hok hs) hrest).mpr (htail _ _ hs)⟩

end Runs
