import HertzBeat.Lib.Go
import Mathlib.Data.List.Sort

/-!
# Grouping through a map, and sorting

A list is often put in order by groups: its elements are appended to the lists of a map, one list
for each key, and the lists of the map are then sorted by their keys. The map is visited in an
arbitrary order, and the sort is not stable. Neither shows: different groups have different keys, so
there is one way to sort them.

* `Go.appendTo` – the assignment `m[k] = append(m[k], a)`, and what a loop of them makes of a map.
* `Go.Visit`, `Go.SliceSort` – the order in which a map is visited, and the sort, as parameters.
* `OrderedGroups` – what comes out, said of the list alone (`orderedGroups_of_sorted`).
-/

/-- **The groups of a list, in order**: each is a part of the list with one key, the keys increase
from group to group, and every element of the list is in the groups exactly as often as in the
list. -/
structure OrderedGroups {α κ : Type} [LT κ] (key : α → κ) (l : List α)
    (groups : List (List α)) : Prop where
  ne_nil : [] ∉ groups
  alike : ∀ g ∈ groups, ∀ a ∈ g, ∀ b ∈ g, key a = key b
  sublist : ∀ g ∈ groups, g.Sublist l
  increasing : groups.Pairwise fun g g' => ∀ a ∈ g, ∀ b ∈ g', key a < key b
  perm : groups.flatten.Perm l

namespace Go

/-- The order in which a `range` statement visits a map: any permutation of its entries. -/
structure Visit (κ ν : Type) where
  order : Map κ ν → List (Σ _ : κ, ν)
  perm : ∀ m, (order m).Perm m.entries

/-- A map is visited as it is listed. -/
def Visit.listed (κ ν : Type) : Visit κ ν := ⟨fun m => m.entries, fun _ => .rfl⟩

/-- `sort.Slice`: any function that sorts by a comparison of numbers. It need not be stable. -/
structure SliceSort (α : Type) where
  sort : (α → α → Bool) → List α → List α
  perm : ∀ less l, (sort less l).Perm l
  sorted : ∀ (key : α → ℤ) l,
    (sort (fun a b => key a < key b) l).Pairwise fun a b => key a ≤ key b

/-- Sorting by insertion. -/
def SliceSort.insertion (α : Type) : SliceSort α where
  sort := fun less l => l.insertionSort fun a b => less b a = false
  perm := fun _ l => List.perm_insertionSort _ l
  sorted := fun key l => by
    have htotal : Std.Total fun a b : α => decide (key b < key a) = false :=
      ⟨fun a b => by simpa using le_total (key a) (key b)⟩
    have htrans : IsTrans α fun a b => decide (key b < key a) = false :=
      ⟨fun a b c hab hbc => by simp only [decide_eq_false_iff_not, not_lt] at *; omega⟩
    have hsorted := List.pairwise_insertionSort (fun a b => decide (key b < key a) = false) l
    exact hsorted.imp fun h => by simpa using h

section Groups

variable {κ α β : Type} [DecidableEq κ] {key : β → κ} {val : β → α} {l : List β}

/-- The assignment `m[k] = append(m[k], a)`. -/
def appendTo (m : Map κ (List α)) (k : κ) (a : α) : Map κ (List α) :=
  m.insert k ((m.lookup k).getD [] ++ [a])

/-- All that is in the lists of a map. -/
def content (m : Map κ (List α)) : List α := (m.entries.map Sigma.snd).flatten

theorem content_appendTo (m : Map κ (List α)) (k : κ) (a : α) :
    (content (appendTo m k a)).Perm (content m ++ [a]) := by
  classical
  have hentries : (appendTo m k a).entries =
      ⟨k, (m.lookup k).getD [] ++ [a]⟩ :: m.entries.kerase k := rfl
  rw [content, hentries, content, List.perm_iff_count]
  intro x
  by_cases hk : k ∈ m
  · -- the list that was there is taken out, and comes back with one more element
    obtain ⟨v, l₁, l₂, hnew, heq, hker⟩ := List.exists_of_kerase (show k ∈ m.entries.keys from hk)
    have hlookup : m.lookup k = some v :=
      AList.mem_lookup_iff.mpr (heq ▸ List.mem_append_right _ List.mem_cons_self)
    rw [hker, heq, hlookup]
    simp only [Option.getD_some, List.map_cons, List.map_append, List.flatten_cons,
      List.flatten_append, List.count_append]
    omega
  · have hker : m.entries.kerase k = m.entries := List.kerase_of_notMem_keys hk
    rw [hker, AList.lookup_eq_none.mpr hk]
    simp only [Option.getD_none, List.nil_append, List.map_cons, List.flatten_cons,
      List.count_append]
    omega

theorem content_foldl_appendTo (m : Map κ (List α)) :
    (content (l.foldl (fun m b => appendTo m (key b) (val b)) m)).Perm
      (content m ++ l.map val) := by
  induction l generalizing m with
  | nil => simp
  | cons b l ih =>
    rw [List.foldl_cons, List.map_cons]
    refine (ih _).trans ?_
    have hhead := (content_appendTo m (key b) (val b)).append_right (l.map val)
    simpa using hhead

/-- **What a loop of such assignments leaves under a key.** -/
theorem lookup_foldl_appendTo (m : Map κ (List α)) (k : κ) :
    (l.foldl (fun m b => appendTo m (key b) (val b)) m).lookup k =
      if l.filter (key · = k) = [] then m.lookup k
      else some ((m.lookup k).getD [] ++ (l.filter (key · = k)).map val) := by
  induction l generalizing m with
  | nil => rfl
  | cons b l ih =>
    rw [List.foldl_cons, ih]
    by_cases hb : key b = k
    · have hlookup : (appendTo m (key b) (val b)).lookup k =
          some ((m.lookup k).getD [] ++ [val b]) := by
        rw [hb, appendTo, AList.lookup_insert]
      rw [hlookup, List.filter_cons_of_pos (by simpa using hb)]
      split_ifs with hnil <;> simp_all
    · have hlookup : (appendTo m (key b) (val b)).lookup k = m.lookup k :=
        AList.lookup_insert_ne (Ne.symm hb)
      rw [hlookup, List.filter_cons_of_neg (by simpa using hb)]

end Groups

section Sorted

variable {α : Type} {key : α → ℤ} {l : List α} {headKey : List α → ℤ}

/-- The entries of the map that a list was grouped into. -/
theorem mem_entries_foldl_appendTo {e : Σ _ : ℤ, List α}
    (he : e ∈ (l.foldl (fun m a => appendTo m (key a) a) ∅).entries) :
    e.2 = l.filter (key · = e.1) ∧ e.2 ≠ [] := by
  have hlookup : (l.foldl (fun m a => appendTo m (key a) (id a)) ∅).lookup e.1 = some e.2 :=
    AList.mem_lookup_iff.mpr he
  rw [lookup_foldl_appendTo, AList.lookup_empty] at hlookup
  split_ifs at hlookup with hnil
  have heq : e.2 = l.filter (key · = e.1) := by simpa using (Option.some.inj hlookup).symm
  exact ⟨heq, heq ▸ hnil⟩

/-- **However the map is visited and its lists are sorted by the keys of their first elements, what
comes out are the groups of the list, in order.** -/
theorem orderedGroups_of_sorted (hhead : ∀ a g, headKey (a :: g) = key a) {gs : List (List α)}
    (hperm : gs.Perm ((l.foldl (fun m a => appendTo m (key a) a) ∅).entries.map Sigma.snd))
    (hsorted : gs.Pairwise fun g g' => headKey g ≤ headKey g') : OrderedGroups key l gs := by
  have hgroup : ∀ g ∈ gs, ∃ k, g = l.filter (key · = k) ∧ g ≠ [] := by
    intro g hg
    obtain ⟨e, he, rfl⟩ := List.mem_map.mp (hperm.mem_iff.mp hg)
    exact ⟨e.1, mem_entries_foldl_appendTo he⟩
  have hkey : ∀ g ∈ gs, ∀ a ∈ g, key a = headKey g := by
    intro g hg a ha
    obtain ⟨k, heq, hne⟩ := hgroup g hg
    have hall : ∀ b ∈ g, key b = k := fun b hb => by
      rw [heq] at hb
      simpa using (List.mem_filter.mp hb).2
    obtain ⟨b, g, rfl⟩ := List.exists_cons_of_ne_nil hne
    rw [hhead, hall a ha, hall b List.mem_cons_self]
  -- the groups have the keys of the map, and so different ones
  have hkeys : ((l.foldl (fun m a => appendTo m (key a) a) ∅).entries.map Sigma.snd).map headKey =
      (l.foldl (fun m a => appendTo m (key a) a) ∅).entries.keys := by
    rw [List.map_map]
    refine List.map_congr_left fun e he => ?_
    obtain ⟨heq, hne⟩ := mem_entries_foldl_appendTo he
    obtain ⟨b, g, hcons⟩ := List.exists_cons_of_ne_nil hne
    have hb : b ∈ l.filter (key · = e.1) := heq ▸ hcons ▸ List.mem_cons_self
    rw [Function.comp_apply, hcons, hhead]
    simpa using (List.mem_filter.mp hb).2
  have hnodup : (gs.map headKey).Nodup := by
    rw [(hperm.map headKey).nodup_iff, hkeys]
    exact AList.nodupKeys _
  have hincreasing : gs.Pairwise fun g g' => headKey g < headKey g' :=
    (hsorted.and (List.pairwise_map.mp hnodup)).imp fun h => lt_of_le_of_ne h.1 h.2
  refine ⟨fun hnil => ?_, fun g hg a ha b hb => ?_, fun g hg => ?_, ?_, ?_⟩
  · obtain ⟨k, -, hne⟩ := hgroup [] hnil
    exact hne rfl
  · rw [hkey g hg a ha, hkey g hg b hb]
  · obtain ⟨k, rfl, -⟩ := hgroup g hg
    exact List.filter_sublist
  · refine hincreasing.imp_of_mem fun {g g'} hg hg' hlt a ha b hb => ?_
    rw [hkey g hg a ha, hkey g' hg' b hb]
    exact hlt
  · have hcontent := @content_foldl_appendTo ℤ α α _ key id l ∅
    rw [List.map_id] at hcontent
    exact hperm.flatten.trans hcontent

end Sorted

end Go
