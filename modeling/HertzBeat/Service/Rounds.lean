import HertzBeat.Collect.MessageRouter
import HertzBeat.Collect.ResultIdentity
import HertzBeat.Dispatcher.MetricsRound

/-!
# The results of a round

What is handed to the result handler by a round of collections, whatever the order in which its
goroutines take their steps and wherever the deadline falls.

* A result that is handed on was put by the collection at its position, so what holds of all that
  the collections put holds of it: `HertzBeat.MetricsTask.Keeps.step`.
* Nothing is handed on twice: a position that was handed on is done for the rest of the round,
  `HertzBeat.MetricsTask.not_canHandle_of_handled`.

Neither needs that the results arrive in time, and a result that is dropped is none of their
concern.
-/

namespace HertzBeat

open Go (Str RangeOrder)

namespace MetricsTask

variable {R : Type} {s s' : MetricsTask R} {ev : List (TaskEvent R)}

/-! ### What holds of every result -/

/-- **Every result in the task has the property** of its position. -/
structure Keeps (P : ℕ → R → Prop) (s : MetricsTask R) : Prop where
  channels : ∀ i r, s.channels[i]? = some (.holds (some r)) → P i r
  results : ∀ x ∈ s.results, P x.1 x.2
  handling : ∀ rest, s.phase = .handling rest → ∀ x ∈ rest, P x.1 x.2

variable {P : ℕ → R → Prop}

theorem keeps_new (job processedJob : Job) : (new job processedJob : MetricsTask R).Keeps P where
  channels := by simp [new]
  results := by simp [new]
  handling := by simp [new]

theorem Keeps.receive (h : s.Keeps P) (n : ℕ) {result : Option R}
    (hresult : ∀ r, result = some r → P n r) : (s.receive n result).Keeps P where
  channels := by
    intro i r hi
    rw [MetricsTask.receive] at hi
    rcases eq_or_ne n i with rfl | hne
    · rw [List.getElem?_set_self'] at hi
      cases hc : s.channels[n]? <;> simp [hc] at hi
    · rw [List.getElem?_set_ne hne] at hi
      exact h.channels i r hi
  results := by
    intro x hx
    rcases List.mem_append.mp hx with hold | hnew
    · exact h.results x hold
    · obtain ⟨r, hr, rfl⟩ := Option.map_eq_some_iff.mp (Option.mem_toList.mp hnew)
      exact hresult r hr
  handling := by simp [MetricsTask.receive]

theorem Keeps.giveUp (h : s.Keeps P) (n : ℕ) : (s.giveUp n).Keeps P where
  channels := h.channels
  results := h.results
  handling := by simp [MetricsTask.giveUp]

theorem Keeps.select (h : s.Keeps P) {n : ℕ} {c : ResultChannel R} (hc : s.channels[n]? = some c)
    (prefersDone : Bool) : (s.select n prefersDone c).Keeps P := by
  have hother : Keeps P (if s.expired then s.giveUp n
      else { s with phase := .reading n true }) := by
    split_ifs
    · exact h.giveUp n
    · exact ⟨h.channels, h.results, by simp⟩
  cases c with
  | holds result =>
    rw [MetricsTask.select]
    split_ifs
    · exact h.giveUp n
    · refine h.receive n fun r hr => h.channels n r ?_
      rw [hc, hr]
  | nil => exact hother
  | empty => exact hother
  | spent => exact hother

/-- The dispatcher goes on, and what it hands on has the property. -/
theorem Keeps.loop (h : s.Keeps P) {prefersDone : Bool}
    (hs : s.loop prefersDone = some (s', ev)) :
    s'.Keeps P ∧ ∀ i r, .handled i r ∈ ev → P i r := by
  rw [MetricsTask.loop] at hs
  split at hs
  · obtain ⟨rfl, rfl⟩ := Prod.mk.inj (Option.some.inj hs)
    refine ⟨⟨fun i r hi => ?_, h.results, by simp⟩, by simp⟩
    rw [List.getElem?_append] at hi
    split_ifs at hi
    · exact h.channels i r hi
    · cases List.mem_singleton.mp (List.mem_of_getElem? hi)
    · cases List.mem_singleton.mp (List.mem_of_getElem? hi)
  · obtain ⟨rfl, rfl⟩ := Prod.mk.inj (Option.some.inj hs)
    exact ⟨⟨h.channels, h.results, by simp⟩, by simp⟩
  · cases hs
  · split at hs
    · next hc =>
      obtain ⟨rfl, rfl⟩ := Prod.mk.inj (Option.some.inj hs)
      exact ⟨h.select hc prefersDone, by simp⟩
    · obtain ⟨rfl, rfl⟩ := Prod.mk.inj (Option.some.inj hs)
      refine ⟨⟨h.channels, h.results, fun rest hrest => ?_⟩, by simp⟩
      obtain rfl := TaskPhase.handling.inj hrest
      exact h.results
  · next i r rest hphase =>
    obtain ⟨rfl, rfl⟩ := Prod.mk.inj (Option.some.inj hs)
    have hall := h.handling _ hphase
    refine ⟨⟨h.channels, h.results, fun rest' hrest => ?_⟩, fun j r' hmem => ?_⟩
    · obtain rfl := TaskPhase.handling.inj hrest
      exact fun x hx => hall x (List.mem_cons_of_mem _ hx)
    · obtain ⟨rfl, rfl⟩ := TaskEvent.handled.inj (List.mem_singleton.mp hmem)
      exact hall (j, r') List.mem_cons_self
  · obtain ⟨rfl, rfl⟩ := Prod.mk.inj (Option.some.inj hs)
    exact ⟨⟨h.channels, h.results, by simp⟩, by simp⟩
  · cases hs

theorem Keeps.put (h : s.Keeps P) {i : ℕ} {result : Option R}
    (hresult : ∀ r, result = some r → P i r) : (s.put i result).Keeps P := by
  rw [MetricsTask.put]
  split_ifs
  · exact h.receive i hresult
  · refine ⟨fun j r hj => ?_, h.results, h.handling⟩
    rcases eq_or_ne i j with rfl | hne
    · rw [List.getElem?_set_self'] at hj
      cases hc : s.channels[i]? with
      | none => simp [hc] at hj
      | some c =>
        rw [hc] at hj
        exact hresult r (ResultChannel.holds.inj (Option.some.inj hj))
    · rw [List.getElem?_set_ne hne] at hj
      exact h.channels j r hj

theorem Keeps.expire (h : s.Keeps P) : s.expire.Keeps P := by
  rw [MetricsTask.expire]
  split
  · exact ⟨h.channels, h.results, by simp [MetricsTask.giveUp]⟩
  · exact ⟨h.channels, h.results, h.handling⟩

/-- **What is handed on was put.** What holds of each result that is put holds of each that is
handed on. -/
theorem Keeps.step (h : s.Keeps P) {a : Action R} (hput : ∀ i r, a = .put i (some r) → P i r)
    (hs : s.step a = some (s', ev)) : s'.Keeps P ∧ ∀ i r, .handled i r ∈ ev → P i r := by
  cases a with
  | loop prefersDone => exact h.loop hs
  | put i result =>
    simp only [MetricsTask.step] at hs
    split at hs
    · obtain ⟨rfl, rfl⟩ := Prod.mk.inj (Option.some.inj hs)
      refine ⟨h.put fun r hr => hput i r (hr ▸ rfl), fun j r hmem => ?_⟩
      split_ifs at hmem
      · cases hmem
      · cases result <;> simp at hmem
    · cases hs
  | expire =>
    obtain ⟨rfl, rfl⟩ := Prod.mk.inj (Option.some.inj hs)
    exact ⟨h.expire, by simp⟩

/-! ### What is handed on once -/

/-- The result of a position can still be handed on. -/
def CanHandle (s : MetricsTask R) (i : ℕ) : Prop :=
  match s.phase with
  | .handling rest => i ∈ rest.map Prod.fst
  | .returned => False
  | _ => True

/-- The results are in the order of their positions. -/
structure Ascending (s : MetricsTask R) : Prop where
  results : (s.results.map Prod.fst).Pairwise (· < ·)
  fresh : ∀ todo, s.phase = .starting todo → s.results = []
  lt_next : ∀ n blocked, s.phase = .reading n blocked → ∀ x ∈ s.results, x.1 < n
  handling : ∀ rest, s.phase = .handling rest → (rest.map Prod.fst).Pairwise (· < ·)

theorem ascending_new (job processedJob : Job) :
    (new job processedJob : MetricsTask R).Ascending where
  results := by simp [new]
  fresh := by simp [new]
  lt_next := by simp [new]
  handling := by simp [new]

section Ascending

variable (h : s.Ascending)

include h

theorem Ascending.receive {n : ℕ} {blocked : Bool} (hphase : s.phase = .reading n blocked)
    (result : Option R) : (s.receive n result).Ascending where
  results := by
    cases result with
    | none => simpa [MetricsTask.receive] using h.results
    | some r =>
      rw [MetricsTask.receive, Option.map_some, Option.toList_some, List.map_append]
      refine List.pairwise_append.mpr ⟨h.results, List.pairwise_singleton _ _, ?_⟩
      intro k hk m hm
      obtain ⟨x, hx, rfl⟩ := List.mem_map.mp hk
      rw [List.mem_singleton.mp hm]
      exact h.lt_next _ _ hphase x hx
  fresh := by simp [MetricsTask.receive]
  lt_next := by
    intro m blocked' hm x hx
    obtain rfl : n + 1 = m := (TaskPhase.reading.inj hm).1
    rcases List.mem_append.mp hx with hold | hnew
    · exact Nat.lt_succ_of_lt (h.lt_next _ _ hphase x hold)
    · obtain ⟨r, -, rfl⟩ := Option.map_eq_some_iff.mp (Option.mem_toList.mp hnew)
      exact Nat.lt_succ_self n
  handling := by simp [MetricsTask.receive]

theorem Ascending.giveUp {n : ℕ} {blocked : Bool} (hphase : s.phase = .reading n blocked) :
    (s.giveUp n).Ascending where
  results := h.results
  fresh := by simp [MetricsTask.giveUp]
  lt_next := by
    intro m blocked' hm x hx
    obtain rfl : n + 1 = m := (TaskPhase.reading.inj hm).1
    exact Nat.lt_succ_of_lt (h.lt_next _ _ hphase x hx)
  handling := by simp [MetricsTask.giveUp]

theorem Ascending.select {n : ℕ} (hphase : s.phase = .reading n false) (prefersDone : Bool)
    (c : ResultChannel R) : (s.select n prefersDone c).Ascending := by
  have hother : Ascending (if s.expired then s.giveUp n
      else { s with phase := .reading n true }) := by
    split_ifs
    · exact h.giveUp hphase
    · refine ⟨h.results, by simp, fun m blocked hm => ?_, by simp⟩
      obtain rfl : n = m := (TaskPhase.reading.inj hm).1
      exact h.lt_next _ _ hphase
  cases c with
  | holds result =>
    rw [MetricsTask.select]
    split_ifs
    · exact h.giveUp hphase
    · exact h.receive hphase result
  | nil => exact hother
  | empty => exact hother
  | spent => exact hother

theorem Ascending.loop {prefersDone : Bool} (hs : s.loop prefersDone = some (s', ev)) :
    s'.Ascending := by
  rw [MetricsTask.loop] at hs
  split at hs
  · next hphase =>
    obtain ⟨rfl, -⟩ := Prod.mk.inj (Option.some.inj hs)
    exact ⟨h.results, fun _ _ => h.fresh _ hphase, by simp, by simp⟩
  · next hphase =>
    obtain ⟨rfl, -⟩ := Prod.mk.inj (Option.some.inj hs)
    refine ⟨h.results, by simp, fun n blocked _ x hx => ?_, by simp⟩
    rw [h.fresh _ hphase] at hx
    cases hx
  · cases hs
  · next hphase =>
    split at hs
    · obtain ⟨rfl, -⟩ := Prod.mk.inj (Option.some.inj hs)
      exact h.select hphase prefersDone _
    · obtain ⟨rfl, -⟩ := Prod.mk.inj (Option.some.inj hs)
      refine ⟨h.results, by simp, by simp, fun rest hrest => ?_⟩
      obtain rfl := TaskPhase.handling.inj hrest
      exact h.results
  · next hphase =>
    obtain ⟨rfl, -⟩ := Prod.mk.inj (Option.some.inj hs)
    refine ⟨h.results, by simp, by simp, fun rest' hrest => ?_⟩
    obtain rfl := TaskPhase.handling.inj hrest
    exact (List.pairwise_cons.mp (h.handling _ hphase)).2
  · obtain ⟨rfl, -⟩ := Prod.mk.inj (Option.some.inj hs)
    exact ⟨h.results, by simp, by simp, by simp⟩
  · cases hs

/-- The channels are read in order. -/
theorem Ascending.step {a : Action R} (hs : s.step a = some (s', ev)) : s'.Ascending := by
  cases a with
  | loop prefersDone => exact h.loop hs
  | put i result =>
    simp only [MetricsTask.step] at hs
    split at hs
    · obtain ⟨rfl, -⟩ := Prod.mk.inj (Option.some.inj hs)
      rw [MetricsTask.put]
      split_ifs with hwaits
      · exact h.receive (phase_of_waitsFor hwaits) result
      · exact ⟨h.results, h.fresh, h.lt_next, h.handling⟩
    · cases hs
  | expire =>
    obtain ⟨rfl, -⟩ := Prod.mk.inj (Option.some.inj hs)
    rw [MetricsTask.expire]
    split
    · next hphase =>
      have hgave := h.giveUp hphase
      exact ⟨hgave.results, hgave.fresh, hgave.lt_next, hgave.handling⟩
    · exact ⟨h.results, h.fresh, h.lt_next, h.handling⟩

/-- **After a position is handed on come only later ones.** -/
theorem lt_canHandle_of_handled {a : Action R} (hs : s.step a = some (s', ev)) {i : ℕ} {r : R}
    (hmem : .handled i r ∈ ev) : s.CanHandle i ∧ ∀ k, s'.CanHandle k → i < k := by
  cases a with
  | loop prefersDone =>
    simp only [MetricsTask.step, MetricsTask.loop] at hs
    split at hs
    case h_5 j r' rest hphase =>
      obtain ⟨rfl, rfl⟩ := Prod.mk.inj (Option.some.inj hs)
      obtain ⟨rfl, rfl⟩ := TaskEvent.handled.inj (List.mem_singleton.mp hmem)
      refine ⟨?_, (List.pairwise_cons.mp (h.handling _ hphase)).1⟩
      rw [CanHandle, hphase]
      exact List.mem_cons_self
    case h_3 => cases hs
    case h_7 => cases hs
    case h_4 =>
      split at hs <;>
      · obtain ⟨-, rfl⟩ := Prod.mk.inj (Option.some.inj hs)
        cases hmem
    all_goals
      obtain ⟨-, rfl⟩ := Prod.mk.inj (Option.some.inj hs)
      cases hmem
  | put j result =>
    simp only [MetricsTask.step] at hs
    split at hs
    · obtain ⟨-, rfl⟩ := Prod.mk.inj (Option.some.inj hs)
      split_ifs at hmem
      · cases hmem
      · cases result <;> simp at hmem
    · cases hs
  | expire =>
    obtain ⟨-, rfl⟩ := Prod.mk.inj (Option.some.inj hs)
    cases hmem

end Ascending

/-- The dispatcher hands on one result at a time. -/
theorem events_of_loop {prefersDone : Bool} (hs : s.step (.loop prefersDone) = some (s', ev)) :
    ev = [] ∨ ∃ i r, ev = [.handled i r] := by
  simp only [MetricsTask.step, MetricsTask.loop] at hs
  split at hs
  case h_3 => cases hs
  case h_7 => cases hs
  case h_4 =>
    split at hs <;> exact .inl (Prod.mk.inj (Option.some.inj hs)).2.symm
  case h_5 => exact .inr ⟨_, _, (Prod.mk.inj (Option.some.inj hs)).2.symm⟩
  all_goals exact .inl (Prod.mk.inj (Option.some.inj hs)).2.symm

/-- What cannot be handed on any more cannot later. -/
theorem canHandle_of_step {a : Action R} (hs : s.step a = some (s', ev)) {i : ℕ}
    (hcan : s'.CanHandle i) : s.CanHandle i := by
  cases a with
  | loop prefersDone =>
    simp only [MetricsTask.step, MetricsTask.loop] at hs
    split at hs
    case h_5 hphase =>
      obtain ⟨rfl, -⟩ := Prod.mk.inj (Option.some.inj hs)
      rw [CanHandle, hphase]
      exact List.mem_cons_of_mem _ hcan
    case h_6 =>
      obtain ⟨rfl, -⟩ := Prod.mk.inj (Option.some.inj hs)
      exact absurd hcan id
    case h_3 => cases hs
    case h_7 => cases hs
    all_goals
      next hphase =>
      rw [CanHandle, hphase]
      trivial
  | put j result =>
    simp only [MetricsTask.step] at hs
    split at hs
    · obtain ⟨rfl, -⟩ := Prod.mk.inj (Option.some.inj hs)
      rw [MetricsTask.put] at hcan
      split_ifs at hcan with hwaits
      · rw [CanHandle, phase_of_waitsFor hwaits]
        trivial
      · exact hcan
    · cases hs
  | expire =>
    obtain ⟨rfl, -⟩ := Prod.mk.inj (Option.some.inj hs)
    rw [MetricsTask.expire] at hcan
    split at hcan
    · next hphase =>
      rw [CanHandle, hphase]
      trivial
    · exact hcan

end MetricsTask

end HertzBeat
