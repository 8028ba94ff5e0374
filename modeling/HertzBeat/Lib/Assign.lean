import HertzBeat.Lib.Go
import Mathlib.Data.List.Induction

/-!
# Maps that are filled entry by entry

Most maps of a program are made by a loop: every turn reads something and makes an assignment, or
none. What is in the map afterwards depends on the assignments alone, and on their order only in
that of two with one key the later one counts.

`Go.assign` makes a list of assignments, and `Go.lastValue` is the value of the last one with a key;
`Go.lookup_assign` says that this is what is found. A loop is brought into this form by
`Go.foldl_eq_assign`, from what one of its turns does. Where it does not matter what is assigned, it
is enough that a turn does nothing else, `Go.Assigns`: what a loop assigns then overrides what was
there (`Go.Assigns.lookup`).
-/

namespace Go

variable {κ ν α : Type} [DecidableEq κ]

/-- The assignments `m[k] = v`, one after the other. -/
def assign (m : Map κ ν) (entries : List (κ × ν)) : Map κ ν :=
  entries.foldl (fun m e => m.insert e.1 e.2) m

/-- The value of the last entry with a key. -/
def lastValue (entries : List (κ × ν)) (k : κ) : Option ν :=
  (entries.reverse.find? (·.1 = k)).map Prod.snd

section Assign

variable {m : Map κ ν} {entries entries' : List (κ × ν)} {k : κ} {v : ν}

@[simp] theorem assign_nil (m : Map κ ν) : assign m [] = m := rfl

@[simp] theorem lastValue_nil (k : κ) : lastValue ([] : List (κ × ν)) k = none := rfl

theorem assign_append : assign m (entries ++ entries') = assign (assign m entries) entries' :=
  List.foldl_append

theorem lastValue_append :
    lastValue (entries ++ entries') k = (lastValue entries' k).or (lastValue entries k) := by
  rw [lastValue, List.reverse_append, List.find?_append, Option.map_or]
  rfl

theorem lastValue_singleton : lastValue [(k, v)] k = some v := by
  simp [lastValue]

theorem lastValue_singleton_of_ne {k' : κ} (h : k' ≠ k) : lastValue [(k', v)] k = none := by
  simp [lastValue, h]

/-- **What is found in a map that was filled**: the value that was assigned last, or what was there
before. -/
theorem lookup_assign (m : Map κ ν) (entries : List (κ × ν)) (k : κ) :
    (assign m entries).lookup k = (lastValue entries k).or (m.lookup k) := by
  induction entries using List.reverseRecOn with
  | nil => rfl
  | append_singleton entries e ih =>
    have hlast : assign m (entries ++ [e]) = (assign m entries).insert e.1 e.2 := assign_append
    rw [hlast, lastValue_append]
    rcases eq_or_ne k e.1 with rfl | hne
    · rw [AList.lookup_insert, lastValue_singleton]
      rfl
    · rw [AList.lookup_insert_ne hne, ih, lastValue_singleton_of_ne hne.symm]
      rfl

theorem lastValue_eq_none_iff : lastValue entries k = none ↔ k ∉ entries.map Prod.fst := by
  rw [lastValue, Option.map_eq_none_iff, List.find?_eq_none, List.mem_map]
  constructor
  · rintro h ⟨e, he, rfl⟩
    exact h e (List.mem_reverse.mpr he) (decide_eq_true rfl)
  · intro h e he hk
    exact h ⟨e, List.mem_reverse.mp he, of_decide_eq_true hk⟩

theorem lastValue_eq_some_iff :
    lastValue entries k = some v ↔
      ∃ before after, entries = before ++ (k, v) :: after ∧ k ∉ after.map Prod.fst := by
  constructor
  · intro h
    induction entries using List.reverseRecOn with
    | nil => cases h
    | append_singleton entries e ih =>
      rw [lastValue_append] at h
      rcases eq_or_ne e.1 k with rfl | hne
      · rw [lastValue_singleton] at h
        cases h
        exact ⟨entries, [], rfl, List.not_mem_nil⟩
      · rw [lastValue_singleton_of_ne hne] at h
        obtain ⟨before, after, rfl, hafter⟩ := ih h
        refine ⟨before, after ++ [e], by simp, ?_⟩
        rw [List.map_append, List.mem_append, not_or]
        exact ⟨hafter, by simpa using hne.symm⟩
  · rintro ⟨before, after, rfl, hafter⟩
    rw [← List.singleton_append, ← List.append_assoc, lastValue_append,
      lastValue_eq_none_iff.mpr hafter, lastValue_append, lastValue_singleton]
    rfl

/-- Among entries with different keys each is the last with its key. -/
theorem lastValue_eq_some_iff_mem (h : (entries.map Prod.fst).Nodup) :
    lastValue entries k = some v ↔ (k, v) ∈ entries := by
  rw [lastValue_eq_some_iff]
  constructor
  · rintro ⟨before, after, rfl, -⟩
    simp
  · intro hmem
    obtain ⟨before, after, rfl⟩ := List.append_of_mem hmem
    refine ⟨before, after, rfl, ?_⟩
    rw [List.map_append, List.map_cons] at h
    exact (List.nodup_cons.mp h.of_append_right).1

/-- The last value stays the last if others are left out. -/
theorem lastValue_filter {p : κ × ν → Bool} (h : lastValue entries k = some v) (hp : p (k, v)) :
    lastValue (entries.filter p) k = some v := by
  obtain ⟨before, after, rfl, hafter⟩ := lastValue_eq_some_iff.mp h
  rw [List.filter_append, List.filter_cons_of_pos hp]
  refine lastValue_eq_some_iff.mpr ⟨_, _, rfl, fun hmem => hafter ?_⟩
  exact (List.filter_sublist.map _).subset hmem

end Assign

/-- **A change of a map that is nothing but assignments**, the same whatever the map. -/
def Assigns (f : Map κ ν → Map κ ν) : Prop := ∃ entries, ∀ m, f m = assign m entries

theorem assigns_id : Assigns (id : Map κ ν → Map κ ν) := ⟨[], fun _ => rfl⟩

theorem assigns_insert (k : κ) (v : ν) : Assigns (fun m : Map κ ν => m.insert k v) :=
  ⟨[(k, v)], fun _ => rfl⟩

theorem Assigns.comp {f g : Map κ ν → Map κ ν} (hg : Assigns g) (hf : Assigns f) :
    Assigns (g ∘ f) := by
  obtain ⟨entries, hf⟩ := hf
  obtain ⟨entries', hg⟩ := hg
  refine ⟨entries ++ entries', fun m => ?_⟩
  rw [assign_append, ← hf, ← hg]
  rfl

/-- A loop makes the assignments of its turns. -/
theorem assigns_foldl {f : Map κ ν → α → Map κ ν} (h : ∀ a, Assigns fun m => f m a) (l : List α) :
    Assigns fun m => l.foldl f m := by
  induction l with
  | nil => exact assigns_id
  | cons a l ih => exact ih.comp (h a)

/-- **What was assigned overrides what was there**, key by key. -/
theorem Assigns.lookup {f : Map κ ν → Map κ ν} (h : Assigns f) (m : Map κ ν) (k : κ) :
    (f m).lookup k = ((f ∅).lookup k).or (m.lookup k) := by
  obtain ⟨entries, hf⟩ := h
  rw [hf, hf, lookup_assign, lookup_assign, AList.lookup_empty, Option.or_none]

/-- **A loop each of whose turns makes assignments** makes them all. -/
theorem foldl_eq_assign {f : Map κ ν → α → Map κ ν} {entries : α → List (κ × ν)}
    (h : ∀ m a, f m a = assign m (entries a)) (l : List α) (m : Map κ ν) :
    l.foldl f m = assign m (l.flatMap entries) := by
  induction l generalizing m with
  | nil => rfl
  | cons a l ih => rw [List.foldl_cons, h, ih, List.flatMap_cons, assign_append]

/-- The last of the assignments that a loop makes, found among what it goes through. -/
theorem lastValue_flatMap_toList (entry : α → Option (κ × ν)) (l : List α) (k : κ) :
    lastValue (l.flatMap fun a => (entry a).toList) k =
      ((l.reverse.find? fun a => (entry a).map Prod.fst = some k).bind entry).map Prod.snd := by
  induction l using List.reverseRecOn with
  | nil => rfl
  | append_singleton l a ih =>
    rw [List.flatMap_append, lastValue_append, ih, List.reverse_append, List.reverse_singleton,
      List.singleton_append]
    cases ha : entry a with
    | none => simp [ha]
    | some e =>
      rcases eq_or_ne e.1 k with rfl | hne
      · simp [ha, lastValue]
      · simp [ha, hne, lastValue]

/-! ### Loops -/

/-- A loop that can only hit one target, and does. -/
theorem foldl_hits {σ β : Type*} {step : σ → α → σ} (view : σ → β) (Hits : α → Prop)
    {start target : β} {l : List α}
    (hstep : ∀ a ∈ l, ∀ s, view s = start ∨ view s = target →
      (Hits a → view (step s a) = target) ∧ (¬Hits a → view (step s a) = view s)) {s : σ}
    (hs : view s = target ∨ view s = start ∧ ∃ a ∈ l, Hits a) :
    view (l.foldl step s) = target := by
  induction l generalizing s with
  | nil => simpa using hs
  | cons a l ih =>
    rw [List.foldl_cons]
    apply ih (fun b hb => hstep b (List.mem_cons_of_mem _ hb))
    have ha := hstep a List.mem_cons_self s (hs.symm.imp_left And.left)
    by_cases hhits : Hits a
    · exact .inl (ha.1 hhits)
    · rw [ha.2 hhits]
      refine hs.imp_right (And.imp_right ?_)
      rintro ⟨b, hb, hhits'⟩
      rcases List.mem_cons.mp hb with rfl | hb
      · exact absurd hhits' hhits
      · exact ⟨b, hb, hhits'⟩

end Go
