import HertzBeat.Lib.Run

/-!
# What an observer sees of a run

An observer of a system sees a part of its state, its *view*, and takes some of its steps for
*inputs*; some inputs have an *output*. The view may move with the inputs alone: then it is the
state of a machine of the observer's own, and what other steps there are between the inputs does
not matter to it. This is the unwinding rule, `Runs.Observer.outputs_eq`, and with it two runs with
the same inputs have the same outputs (`Runs.Observer.outputs_eq_of_inputs_eq`).
-/

namespace Runs

variable {σ α ε υ ι ω : Type}

/-- A machine with outputs. -/
structure Machine (υ ι ω : Type) where
  next : υ → ι → υ
  output : υ → ι → Option ω

/-- The outputs of a machine on a list of inputs. -/
def Machine.outputs (m : Machine υ ι ω) : υ → List ι → List ω
  | _, [] => []
  | v, i :: is => (m.output v i).toList ++ m.outputs (m.next v i) is

/-- **An observer** of a system. -/
structure Observer (σ α υ ι ω : Type) where
  view : σ → υ
  /-- The input that a step is, if it is one. -/
  input : σ → α → Option ι
  /-- The output that a step has, if it has one. -/
  output : σ → α → Option ω

namespace Observer

variable (O : Observer σ α υ ι ω) (step : StepFn σ α ε)

/-- The inputs of a run. -/
def inputs : σ → List α → List ι
  | _, [] => []
  | s, a :: as => match step s a with
    | none => []
    | some p => (O.input s a).toList ++ inputs p.1 as

/-- The outputs of a run. -/
def outputs : σ → List α → List ω
  | _, [] => []
  | s, a :: as => match step s a with
    | none => []
    | some p => (O.output s a).toList ++ outputs p.1 as

/-- What a step has to be for the observer: an input moves the view as the machine says, with its
output, and any other step leaves the view alone and has none. -/
def Moves (m : Machine υ ι ω) (s : σ) (a : α) (s' : σ) : Prop :=
  match O.input s a with
  | none => O.view s' = O.view s ∧ O.output s a = none
  | some i => O.view s' = m.next (O.view s) i ∧ O.output s a = m.output (O.view s) i

variable {O step} {m : Machine υ ι ω} {Inv : σ → Prop} {P : α → Prop}

/-- **The unwinding rule**: where every step moves the view as the machine says, the outputs of a
run are those of the machine on its inputs. -/
theorem outputs_eq
    (hstep : ∀ s a s' ev, Inv s → P a → step s a = some (s', ev) → Inv s' ∧ O.Moves m s a s')
    {s : σ} (hinv : Inv s) {as : List α} (hP : ∀ a ∈ as, P a) :
    O.outputs step s as = m.outputs (O.view s) (O.inputs step s as) := by
  induction as generalizing s with
  | nil => rfl
  | cons a as ih =>
    rw [outputs, inputs]
    cases hs : step s a with
    | none => rfl
    | some p =>
      obtain ⟨hinv', hmoves⟩ := hstep s a p.1 p.2 hinv (hP a List.mem_cons_self) hs
      have hrest := ih hinv' fun b hb => hP b (List.mem_cons_of_mem _ hb)
      rw [Moves] at hmoves
      cases hi : O.input s a with
      | none =>
        rw [hi] at hmoves
        simp only [hmoves.2, Option.toList_none, List.nil_append, hrest, hmoves.1]
      | some i =>
        rw [hi] at hmoves
        simp only [hmoves.2, Option.toList_some, List.singleton_append, Machine.outputs, hrest,
          hmoves.1]

/-- **Runs with the same inputs have the same outputs**, from states that look alike. -/
theorem outputs_eq_of_inputs_eq
    (hstep : ∀ s a s' ev, Inv s → P a → step s a = some (s', ev) → Inv s' ∧ O.Moves m s a s')
    {s₁ s₂ : σ} (hinv₁ : Inv s₁) (hinv₂ : Inv s₂) (hview : O.view s₁ = O.view s₂)
    {as₁ as₂ : List α} (hP₁ : ∀ a ∈ as₁, P a) (hP₂ : ∀ a ∈ as₂, P a)
    (hinputs : O.inputs step s₁ as₁ = O.inputs step s₂ as₂) :
    O.outputs step s₁ as₁ = O.outputs step s₂ as₂ := by
  rw [outputs_eq hstep hinv₁ hP₁, outputs_eq hstep hinv₂ hP₂, hview, hinputs]

end Observer

end Runs
