import Mathlib.Data.Int.ModEq
import Mathlib.Data.List.Basic
import Mathlib.Data.List.Induction

/-!
# What a timeout is for

A timeout of the timer wheel, said without the wheel. A timeout that is due at tick
`target` of a wheel with `W` buckets is a small automaton, `HertzBeat.Phase`: it
waits, a `Cancel` marks it, and the first tick that is at least `target` and
congruent to it modulo `W` runs it – or drops it, if it was marked.

The automaton reads the events of the wheel's trace. On the traces the wheel can
have, waiting unmarked is the same as a statement about the past that does not
mention the automaton (`HertzBeat.phase_eq_waiting_iff`): the timeout was appended,
no tick processed since was due, and it was not cancelled.
-/

namespace HertzBeat

/-- What a step lets an observer see. -/
inductive WheelEvent where
  /-- A timeout was created with this counter value and delay. -/
  | read (r counter delay : ℕ)
  /-- A timeout was appended to its bucket. -/
  | appended (r : ℕ)
  /-- A timeout was cancelled. -/
  | cancelled (r : ℕ)
  /-- The tick of this number was processed: the timeouts it ran and those it
  dropped. -/
  | processed (t : ℕ) (run swept : List ℕ)
  deriving DecidableEq, Repr

/-! ### The automaton of one timeout -/

/-- A tick at which a timeout with this target may be run: it is not before the
target, and the bucket of the target is the one it processes. -/
def Due (W target : ℤ) (t : ℕ) : Prop := target ≤ t ∧ (t : ℤ) ≡ target [ZMOD W]

instance (W target : ℤ) (t : ℕ) : Decidable (Due W target t) :=
  inferInstanceAs (Decidable (_ ∧ _))

/-- The life of one timeout. -/
inductive Phase where
  /-- Not yet in a bucket. -/
  | unborn
  /-- In its bucket; marked if it was cancelled there. -/
  | waiting (cancelled : Bool)
  /-- Run, by the tick of this number. -/
  | ran (t : ℕ)
  /-- Dropped, because it was cancelled. -/
  | swept
  deriving DecidableEq, Repr

/-- **The automaton of one timeout.** It sees the events of the other timeouts and
takes no notice of them. -/
def Phase.next (W target : ℤ) (r : ℕ) : Phase → WheelEvent → Phase
  | .unborn, .appended r' => if r' = r then .waiting false else .unborn
  | .waiting c, .cancelled r' => if r' = r then .waiting true else .waiting c
  | .waiting c, .processed t _ _ =>
    if (t : ℤ) ≡ target [ZMOD W] then
      if c then .swept else if target ≤ t then .ran t else .waiting c
    else .waiting c
  | p, _ => p

/-- Where the timeout stands after a trace. -/
def phase (W target : ℤ) (r : ℕ) (tr : List WheelEvent) : Phase :=
  tr.foldl (Phase.next W target r) .unborn

variable {W target : ℤ} {r : ℕ}

@[simp] theorem phase_nil : phase W target r [] = .unborn := rfl

theorem phase_append (tr tr' : List WheelEvent) :
    phase W target r (tr ++ tr') = tr'.foldl (Phase.next W target r) (phase W target r tr) :=
  List.foldl_append

theorem phase_snoc (tr : List WheelEvent) (e : WheelEvent) :
    phase W target r (tr ++ [e]) = (phase W target r tr).next W target r e :=
  phase_append tr [e]

/-- A timeout that was not appended has no life yet, whatever its target. -/
theorem phase_eq_unborn {tr : List WheelEvent} (h : .appended r ∉ tr) :
    phase W target r tr = .unborn := by
  induction tr using List.reverseRecOn with
  | nil => rfl
  | append_singleton tr e ih =>
    have hpre : .appended r ∉ tr := fun hc => h (List.mem_append_left _ hc)
    have hne : e ≠ .appended r := fun hc => h (by simp [hc])
    rw [phase_snoc, ih hpre]
    cases e with
    | appended r' => exact if_neg fun hc => hne (by rw [hc])
    | _ => rfl

theorem appended_of_phase {tr : List WheelEvent} (h : phase W target r tr ≠ .unborn) :
    .appended r ∈ tr := by
  by_contra hc
  exact h (phase_eq_unborn hc)

/-- A life, once begun, is never unbegun. -/
theorem next_ne_unborn {p : Phase} (h : p ≠ .unborn) (e : WheelEvent) :
    p.next W target r e ≠ .unborn := by
  cases p with
  | unborn => exact absurd rfl h
  | waiting c =>
    cases e with
    | cancelled r' =>
      simp only [Phase.next]
      split_ifs <;> simp
    | processed t run swept =>
      simp only [Phase.next]
      split_ifs <;> simp
    | _ => simp [Phase.next]
  | ran t => cases e <;> simp [Phase.next]
  | swept => cases e <;> simp [Phase.next]

theorem phase_ne_unborn {tr : List WheelEvent} (h : .appended r ∈ tr) :
    phase W target r tr ≠ .unborn := by
  induction tr using List.reverseRecOn with
  | nil => exact absurd h (by simp)
  | append_singleton tr e ih =>
    rw [phase_snoc]
    rcases List.mem_append.mp h with hpre | hlast
    · exact next_ne_unborn (ih hpre) e
    · obtain rfl : .appended r = e := by simpa using hlast
      cases phase W target r tr <;> simp [Phase.next]

/-! ### Reading a trace

What is asked of a timeout speaks of its past: it was appended, no tick that was due
has been processed since, it was not cancelled. On the traces of the wheel this is
exactly that its automaton waits unmarked. -/

/-- The timeouts run, in the order of the runs. -/
def runs (tr : List WheelEvent) : List ℕ :=
  tr.flatMap fun e => match e with
    | .processed _ run _ => run
    | _ => []

/-- The timeouts dropped, in the order they were. -/
def drops (tr : List WheelEvent) : List ℕ :=
  tr.flatMap fun e => match e with
    | .processed _ _ swept => swept
    | _ => []

/-- The numbers of the ticks processed, in order. -/
def ticks (tr : List WheelEvent) : List ℕ :=
  tr.filterMap fun e => match e with
    | .processed t _ _ => some t
    | _ => none

@[simp] theorem runs_snoc (tr : List WheelEvent) (e : WheelEvent) :
    runs (tr ++ [e]) = runs tr ++ runs [e] :=
  List.flatMap_append

@[simp] theorem drops_snoc (tr : List WheelEvent) (e : WheelEvent) :
    drops (tr ++ [e]) = drops tr ++ drops [e] :=
  List.flatMap_append

/-- An event that is no tick runs nothing. -/
theorem runs_snoc_of_other {e : WheelEvent} (he : ∀ t run swept, e ≠ .processed t run swept)
    (tr : List WheelEvent) : runs (tr ++ [e]) = runs tr := by
  have hnone : runs [e] = [] := by
    cases e with
    | processed t run swept => exact absurd rfl (he t run swept)
    | _ => rfl
  rw [runs_snoc, hnone, List.append_nil]

/-- An event that is no tick drops nothing. -/
theorem drops_snoc_of_other {e : WheelEvent} (he : ∀ t run swept, e ≠ .processed t run swept)
    (tr : List WheelEvent) : drops (tr ++ [e]) = drops tr := by
  have hnone : drops [e] = [] := by
    cases e with
    | processed t run swept => exact absurd rfl (he t run swept)
    | _ => rfl
  rw [drops_snoc, hnone, List.append_nil]

@[simp] theorem ticks_append (tr tr' : List WheelEvent) :
    ticks (tr ++ tr') = ticks tr ++ ticks tr' :=
  List.filterMap_append

/-- **The timeout waits for its tick**: it was appended, none of the ticks processed
since was due, and it has not been cancelled. -/
def Waits (W target : ℤ) (r : ℕ) (tr : List WheelEvent) : Prop :=
  ∃ before since, tr = before ++ .appended r :: since ∧
    (∀ t ∈ ticks since, ¬Due W target t) ∧ .cancelled r ∉ tr

/-- A trace appends a timeout once, and cancels it only after that. -/
structure Orderly (r : ℕ) (tr : List WheelEvent) : Prop where
  appended_once : ∀ pre post, tr = pre ++ .appended r :: post → .appended r ∉ pre
  cancelled_after : ∀ pre post, tr = pre ++ .cancelled r :: post → .appended r ∈ pre

/-- A snoc cut at an element: at its last one, or before. -/
theorem snoc_eq_append_cons {α : Type} {l pre post : List α} {a x : α} :
    l ++ [a] = pre ++ x :: post ↔
      (post = [] ∧ pre = l ∧ x = a) ∨ ∃ post', post = post' ++ [a] ∧ l = pre ++ x :: post' := by
  constructor
  · intro h
    rcases List.eq_nil_or_concat' post with rfl | ⟨post', b, rfl⟩
    · obtain ⟨rfl, hx⟩ := List.append_inj' h rfl
      exact Or.inl ⟨rfl, rfl, by simpa using hx.symm⟩
    · rw [← List.cons_append, ← List.append_assoc] at h
      obtain ⟨hl, hb⟩ := List.append_inj' h rfl
      obtain rfl : a = b := by simpa using hb
      exact Or.inr ⟨post', rfl, hl⟩
  · rintro (⟨rfl, rfl, rfl⟩ | ⟨post', rfl, rfl⟩)
    · rfl
    · simp

theorem Orderly.nil : Orderly r [] where
  appended_once := fun pre post h => absurd h (by simp)
  cancelled_after := fun pre post h => absurd h (by simp)

theorem Orderly.snoc {tr : List WheelEvent} {e : WheelEvent} (h : Orderly r tr)
    (ha : e = .appended r → .appended r ∉ tr) (hc : e = .cancelled r → .appended r ∈ tr) :
    Orderly r (tr ++ [e]) where
  appended_once := by
    intro pre post heq
    rcases snoc_eq_append_cons.mp heq with ⟨-, rfl, hx⟩ | ⟨post', -, htr⟩
    · exact ha hx.symm
    · exact h.appended_once pre post' htr
  cancelled_after := by
    intro pre post heq
    rcases snoc_eq_append_cons.mp heq with ⟨-, rfl, hx⟩ | ⟨post', -, htr⟩
    · exact hc hx.symm
    · exact h.cancelled_after pre post' htr

theorem Orderly.of_append {tr tr' : List WheelEvent} (h : Orderly r (tr ++ tr')) :
    Orderly r tr where
  appended_once := fun pre post heq =>
    h.appended_once pre (post ++ tr') (by rw [heq]; simp)
  cancelled_after := fun pre post heq =>
    h.cancelled_after pre (post ++ tr') (by rw [heq]; simp)

/-- **What lets a timeout wait unmarked**: its append, or, when it waited already, any event
but its cancellation and a tick that is due. -/
theorem next_eq_waiting_iff {p : Phase} {e : WheelEvent} :
    p.next W target r e = .waiting false ↔
      (p = .unborn ∧ e = .appended r) ∨
        (p = .waiting false ∧ e ≠ .cancelled r ∧ ∀ t ∈ ticks [e], ¬Due W target t) := by
  cases e with
  | read r' c d => rcases p with _ | c | t | _ <;> simp [Phase.next, ticks]
  | appended r' => rcases p with _ | c | t | _ <;> simp [Phase.next, ticks]
  | cancelled r' =>
    rcases p with _ | c | t | _
    · simp [Phase.next]
    · by_cases hr : r' = r <;> simp [Phase.next, ticks, hr]
    · simp [Phase.next]
    · simp [Phase.next]
  | processed t run swept =>
    rcases p with _ | (_ | _) | t' | _
    · simp [Phase.next]
    · by_cases hmod : (t : ℤ) ≡ target [ZMOD W] <;> simp [Phase.next, ticks, Due, hmod]
    · by_cases hmod : (t : ℤ) ≡ target [ZMOD W] <;> simp [Phase.next, hmod]
    · simp [Phase.next]
    · simp [Phase.next]

/-- An unmarked timeout goes on waiting while nothing cancels it and no tick is due. -/
theorem foldl_next_waiting {l : List WheelEvent} (hdue : ∀ t ∈ ticks l, ¬Due W target t)
    (hc : .cancelled r ∉ l) :
    l.foldl (Phase.next W target r) (.waiting false) = .waiting false := by
  induction l with
  | nil => rfl
  | cons e l ih =>
    rw [← List.singleton_append, ticks_append] at hdue
    have hhead : Phase.next W target r (.waiting false) e = .waiting false :=
      next_eq_waiting_iff.mpr (Or.inr ⟨rfl, fun he => hc (by simp [he]),
        fun t ht => hdue t (List.mem_append_left _ ht)⟩)
    rw [List.foldl_cons, hhead]
    exact ih (fun t ht => hdue t (List.mem_append_right _ ht)) fun h =>
      hc (List.mem_cons_of_mem _ h)

/-- A timeout that was not appended was not cancelled either. -/
theorem Orderly.not_cancelled {tr : List WheelEvent} (h : Orderly r tr)
    (hun : .appended r ∉ tr) : .cancelled r ∉ tr := by
  intro hcan
  obtain ⟨pre, post, rfl⟩ := List.append_of_mem hcan
  exact hun (List.mem_append_left _ (h.cancelled_after pre post rfl))

/-- **The automaton waits unmarked exactly when the trace says the timeout waits.** -/
theorem phase_eq_waiting_iff {tr : List WheelEvent} (h : Orderly r tr) :
    phase W target r tr = .waiting false ↔ Waits W target r tr := by
  constructor
  · -- backwards along the trace: the past of an automaton that waits now
    intro hph
    induction tr using List.reverseRecOn with
    | nil => exact absurd hph (by simp)
    | append_singleton tr e ih =>
      rw [phase_snoc] at hph
      rcases next_eq_waiting_iff.mp hph with ⟨hp, rfl⟩ | ⟨hp, hne, hnot⟩
      · -- the last event is the append
        have hun : .appended r ∉ tr := fun hc => phase_ne_unborn hc hp
        exact ⟨tr, [], rfl, by simp [ticks], by simpa using h.of_append.not_cancelled hun⟩
      · -- it waited before, and the last event let it wait on
        obtain ⟨before, since, rfl, hdue, hcan⟩ := ih h.of_append hp
        refine ⟨before, since ++ [e], by simp, fun t ht => ?_, ?_⟩
        · rw [ticks_append, List.mem_append] at ht
          exact ht.elim (hdue t) (hnot t)
        · rw [List.mem_append, List.mem_singleton]
          exact fun hmem => hmem.elim hcan fun he => hne he.symm
  · -- forwards from the append, of which there is one
    rintro ⟨before, since, rfl, hdue, hcan⟩
    have hun : phase W target r before = .unborn :=
      phase_eq_unborn (h.appended_once before since rfl)
    rw [phase_append, hun, List.foldl_cons]
    have hborn : Phase.next W target r .unborn (.appended r) = .waiting false := if_pos rfl
    rw [hborn]
    exact foldl_next_waiting hdue fun hm => hcan (by simp [hm])

/-! ### How the automaton moves -/

/-- Whether the timeout is in its bucket. -/
def Phase.isWaiting : Phase → Bool
  | .waiting _ => true
  | _ => false

/-- Whether the timeout was run. -/
def Phase.isRan : Phase → Bool
  | .ran _ => true
  | _ => false

/-- After an event that is none of the timeout's business – it is not its append, not
its cancellation, and no tick – its automaton stands where it stood. -/
theorem phase_snoc_of_other {tr : List WheelEvent} {e : WheelEvent} (ha : e ≠ .appended r)
    (hc : e ≠ .cancelled r) (hp : ∀ t run swept, e ≠ .processed t run swept) :
    phase W target r (tr ++ [e]) = phase W target r tr := by
  rw [phase_snoc]
  cases e with
  | read r' c d => cases phase W target r tr <;> rfl
  | appended r' =>
    have hr : r' ≠ r := fun hr => ha (by rw [hr])
    cases phase W target r tr with
    | unborn => exact if_neg hr
    | _ => rfl
  | cancelled r' =>
    have hr : r' ≠ r := fun hr => hc (by rw [hr])
    cases phase W target r tr with
    | waiting c => exact if_neg hr
    | _ => rfl
  | processed t run swept => exact absurd rfl (hp t run swept)

/-- An event that is no tick neither runs a timeout nor drops it. -/
theorem next_of_not_processed {p : Phase} {e : WheelEvent}
    (he : ∀ t run swept, e ≠ .processed t run swept) :
    (p.next W target r e).isRan = p.isRan ∧ (p.next W target r e = .swept ↔ p = .swept) := by
  cases e with
  | read r' c d => cases p <;> simp [Phase.next]
  | appended r' => cases p <;> by_cases hr : r' = r <;> simp [Phase.next, Phase.isRan, hr]
  | cancelled r' => cases p <;> by_cases hr : r' = r <;> simp [Phase.next, Phase.isRan, hr]
  | processed t run swept => exact absurd rfl (he t run swept)

/-! What processing a bucket does to an automaton: nothing, unless it waits and the
bucket is its own; then it is dropped if marked, run if its tick has come, and kept
otherwise. -/

section Processed

variable {t : ℕ} {run swept : List ℕ} {p : Phase}

theorem next_processed_isWaiting :
    (p.next W target r (.processed t run swept)).isWaiting ↔
      p.isWaiting ∧ ¬((t : ℤ) ≡ target [ZMOD W] ∧ (p = .waiting true ∨ target ≤ t)) := by
  by_cases hmod : (t : ℤ) ≡ target [ZMOD W]
  · by_cases hle : target ≤ t <;> rcases p with _ | (_ | _) | _ | _ <;>
      simp [Phase.next, Phase.isWaiting, hmod, hle]
  · rcases p with _ | c | _ | _ <;> simp [Phase.next, Phase.isWaiting, hmod]

theorem next_processed_isRan :
    (p.next W target r (.processed t run swept)).isRan ↔
      p.isRan ∨ (p = .waiting false ∧ Due W target t) := by
  by_cases hmod : (t : ℤ) ≡ target [ZMOD W]
  · by_cases hle : target ≤ t <;> rcases p with _ | (_ | _) | _ | _ <;>
      simp [Phase.next, Phase.isRan, Due, hmod, hle]
  · rcases p with _ | c | _ | _ <;> simp [Phase.next, Phase.isRan, Due, hmod]

theorem next_processed_eq_swept :
    p.next W target r (.processed t run swept) = .swept ↔
      p = .swept ∨ (p = .waiting true ∧ (t : ℤ) ≡ target [ZMOD W]) := by
  by_cases hmod : (t : ℤ) ≡ target [ZMOD W]
  · by_cases hle : target ≤ t <;> rcases p with _ | (_ | _) | _ | _ <;>
      simp [Phase.next, hmod, hle]
  · rcases p with _ | c | _ | _ <;> simp [Phase.next, hmod]

theorem eq_waiting_of_next_processed {c : Bool}
    (h : p.next W target r (.processed t run swept) = .waiting c) : p = .waiting c := by
  rcases p with _ | c' | _ | _
  · exact absurd h (by simp [Phase.next])
  · by_cases hmod : (t : ℤ) ≡ target [ZMOD W]
    · simp only [Phase.next, if_pos hmod] at h
      cases c' with
      | true => exact absurd h (by simp)
      | false =>
        by_cases hle : target ≤ t
        · exact absurd h (by simp [hle])
        · simpa [hle] using h
    · simpa [Phase.next, hmod] using h
  · exact absurd h (by simp [Phase.next])
  · exact absurd h (by simp [Phase.next])

end Processed

end HertzBeat
