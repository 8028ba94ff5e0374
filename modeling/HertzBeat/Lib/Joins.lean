import HertzBeat.Lib.Strings
import Mathlib.Logic.Relation

/-!
# What a replacement may join

A replacement takes out every occurrence of a pattern, and yet the pattern may occur in what
it returns: a replacement joins the texts on its two sides, and these may make up the pattern,
or another one that was looked for before. This module says when that cannot happen.

The patterns are *capped* by a letter that no replacement contains: it stands at both their
ends, `Go.Capped`. An occurrence of a capped string then never begins or ends inside of what
was put in, so it was there before, or it comes from a part of the string before in which some
occurrences of the pattern were replaced (`Go.infix_of_infix_replaceAll`). Over a whole run of
replacements: what occurs at the end *arises* in the string at the start, `Go.Arises`, or it
occurred there already and is none of the patterns
(`Go.arises_of_infix_foldl_replaceAll`).

Every replacement takes caps away and puts in none, so a string with few of them lets nothing
arise, `Go.not_arises_of_count_lt`. For the same reason a run of replacements that leaves a string
alone has found nothing in it (`Go.not_infix_of_foldl_replaceAll_eq`); what is put in may then have
caps, as long as it has fewer than the pattern.
-/

namespace Go

open Relation (ReflTransGen TransGen)

variable {α : Type*} {c : α} {old new q s s' : List α}

/-- One occurrence of a pattern is replaced. -/
def Replaces (old new s s' : List α) : Prop := ∃ x y, s = x ++ old ++ y ∧ s' = x ++ new ++ y

theorem Replaces.append_left (h : Replaces old new s s') (u : List α) :
    Replaces old new (u ++ s) (u ++ s') := by
  obtain ⟨x, y, rfl, rfl⟩ := h
  exact ⟨u ++ x, y, by simp, by simp⟩

/-- A letter stands at both ends of a string. -/
structure Capped (c : α) (s : List α) : Prop where
  head : s.head? = some c
  last : s.getLast? = some c

theorem Capped.ne_nil (h : Capped c s) : s ≠ [] := by
  rintro rfl
  exact absurd h.head (by simp)

/-- A capped string between two others that are empty or have the letter at their outer
ends. -/
theorem Capped.append_append {u t : List α} (hs : Capped c s) (hu : ∀ a ∈ u.head?, a = c)
    (ht : ∀ a ∈ t.getLast?, a = c) : Capped c (u ++ s ++ t) where
  head := by
    cases u with
    | nil => simp [hs.head]
    | cons a u => simpa using hu a
  last := by
    rw [List.getLast?_append]
    cases hlast : t.getLast? with
    | none => simp [hs.last]
    | some a => simpa using ht a hlast

/-! ### Occurrences across what was put in -/

/-- **Where a capped string occurs**: before what was put in, behind it, or around it. -/
theorem infix_append_append {u r : List α} (hq : Capped c q) (hc : c ∉ new)
    (h : q <:+: u ++ new ++ r) :
    q <:+: u ∨ q <:+: r ∨ ∃ u₂ r₁, q = u₂ ++ new ++ r₁ ∧ u₂ <:+ u ∧ r₁ <+: r := by
  obtain ⟨a, b, hab⟩ := h
  rw [List.append_assoc, List.append_assoc] at hab
  rcases List.append_eq_append_iff.mp hab with ⟨a', rfl, hrest⟩ | ⟨a', rfl, hrest⟩
  · -- it begins in `u`
    rcases List.append_eq_append_iff.mp hrest with ⟨c', rfl, -⟩ | ⟨q', rfl, hend⟩
    · exact .inl ⟨a, c', by simp⟩
    · rcases List.append_eq_append_iff.mp hend with ⟨r', rfl, rfl⟩ | ⟨n', rfl, -⟩
      · exact .inr (.inr ⟨a', r', by simp, List.suffix_append a a', List.prefix_append r' b⟩)
      · -- its last letter would be in what was put in
        rcases List.eq_nil_or_concat q' with rfl | ⟨l, x, rfl⟩
        · exact .inl ⟨a, [], by simp⟩
        · have hlast := hq.last
          simp only [List.concat_eq_append, ← List.append_assoc, List.getLast?_concat,
            Option.some.injEq] at hlast
          exact absurd (by simp [hlast]) hc
  · rcases List.append_eq_append_iff.mp hrest with ⟨a'', rfl, rfl⟩ | ⟨n', rfl, hend⟩
    · exact .inr (.inl ⟨a'', b, by simp⟩)
    · -- its first letter would be
      cases n' with
      | nil => exact .inr (.inl ⟨[], b, by simpa using hend⟩)
      | cons x n' =>
        have hhead := congrArg List.head? hend
        rw [List.head?_append, hq.head] at hhead
        simp only [Option.some_or, List.cons_append, List.head?_cons, Option.some.injEq] at hhead
        exact absurd (by simp [hhead]) hc

/-- **How far a string with the letter at its end reaches**: not behind the text before what
was put in, or past it. -/
theorem prefix_append_append {u r t : List α} (ht : ∀ a ∈ t.getLast?, a = c) (hc : c ∉ new)
    (h : t <+: u ++ new ++ r) :
    t <+: u ∨ ∃ t', t = u ++ new ++ t' ∧ t' <+: r ∧ ∀ a ∈ t'.getLast?, a = c := by
  obtain ⟨b, hb⟩ := h
  rw [List.append_assoc] at hb
  rcases List.append_eq_append_iff.mp hb with ⟨u', rfl, -⟩ | ⟨t₁, rfl, hrest⟩
  · exact .inl (List.prefix_append t u')
  · rcases List.append_eq_append_iff.mp hrest with ⟨t', rfl, rfl⟩ | ⟨n', rfl, -⟩
    · refine .inr ⟨t', by simp, List.prefix_append t' b, fun a ha => ht a ?_⟩
      rw [List.getLast?_append, List.getLast?_append, Option.mem_def.mp ha]
      rfl
    · rcases List.eq_nil_or_concat t₁ with rfl | ⟨l, x, rfl⟩
      · exact .inl (by simp)
      · have hlast := ht x (by simp)
        exact absurd (by simp [hlast]) hc

section Occurrences

variable [DecidableEq α]

/-- A pattern that occurs occurs a first time, and what is behind it is shorter. -/
theorem exists_first_occurrence (hold : old ≠ []) (h : old <:+: s) :
    ∃ u t, s = u ++ old ++ t ∧ t.length < s.length ∧ ¬old <:+: (u ++ old).dropLast := by
  have hpos : 0 < old.length := List.length_pos_iff.mpr hold
  induction s with
  | nil => exact absurd (List.infix_nil.mp h) hold
  | cons a s ih =>
    by_cases hpre : old <+: a :: s
    · obtain ⟨t, ht⟩ := hpre
      have hlen := congrArg List.length ht
      rw [List.length_append] at hlen
      refine ⟨[], t, by simp [ht], by omega, fun hself => ?_⟩
      have hle := hself.length_le
      rw [List.nil_append, List.length_dropLast] at hle
      omega
    · have hinf := (List.infix_cons_iff.mp h).resolve_left hpre
      obtain ⟨u, t, rfl, hlt, hfirst⟩ := ih hinf
      refine ⟨a :: u, t, by simp, hlt.trans (Nat.lt_succ_self _), fun hlater => ?_⟩
      rw [List.cons_append, List.dropLast_cons_of_ne_nil (by simp [hold])] at hlater
      rcases List.infix_cons_iff.mp hlater with hhere | hthere
      · refine hpre (hhere.trans (List.cons_prefix_cons.mpr ⟨rfl, ?_⟩))
        exact (List.dropLast_prefix _).trans (List.prefix_append _ t)
      · exact hfirst hthere

/-- **The start of a replacement** comes from the start of the string, with some occurrences
replaced. The induction is on the length, from one occurrence to the next. -/
theorem exists_prefix_of_prefix_replaceAll (hold : Capped c old) (hc : c ∉ new) {s t : List α}
    (ht : ∀ a ∈ t.getLast?, a = c) (h : t <+: replaceAll s old new) :
    ∃ w, w <+: s ∧ (∀ a ∈ w.getLast?, a = c) ∧ ReflTransGen (Replaces old new) w t := by
  induction hn : s.length using Nat.strongRecOn generalizing s t with
  | ind n ih =>
    by_cases hinf : old <:+: s
    · obtain ⟨u, r, rfl, hlt, hfirst⟩ := exists_first_occurrence hold.ne_nil hinf
      rw [replaceAll_append_of_first hold.ne_nil hfirst] at h
      rcases prefix_append_append ht hc h with hu | ⟨t', rfl, ht', hlast⟩
      · exact ⟨t, hu.trans ⟨old ++ r, by simp⟩, ht, .refl⟩
      · obtain ⟨w, ⟨r', rfl⟩, hwlast, hw⟩ := ih r.length (hn ▸ hlt) hlast ht' rfl
        refine ⟨u ++ old ++ w, ⟨r', by simp⟩, ?_, ?_⟩
        · intro a ha
          rw [List.getLast?_append, List.getLast?_append, hold.last] at ha
          cases hwl : w.getLast? with
          | none =>
            simp only [hwl, Option.none_or, Option.some_or, Option.mem_def,
              Option.some.injEq] at ha
            exact ha.symm
          | some b =>
            simp only [hwl, Option.some_or, Option.mem_def, Option.some.injEq] at ha
            exact hwlast a (by rw [hwl, ha]; rfl)
        · refine .head ⟨u, w, rfl, rfl⟩ ?_
          exact hw.lift (u ++ new ++ ·) fun _ _ hstep => hstep.append_left _
    · rw [replaceAll_eq_self hinf] at h
      exact ⟨t, h, ht, .refl⟩

/-- **An occurrence in a replacement** comes from a part of the string in which some
occurrences were replaced, or was there before and is not one of the pattern itself. -/
theorem infix_of_infix_replaceAll (hold : Capped c old) (hc : c ∉ new) (hq : Capped c q)
    (h : q <:+: replaceAll s old new) :
    (∃ w, w <:+: s ∧ Capped c w ∧ TransGen (Replaces old new) w q) ∨ q <:+: s ∧ q ≠ old := by
  induction hn : s.length using Nat.strongRecOn generalizing s with
  | ind n ih =>
    by_cases hinf : old <:+: s
    · obtain ⟨u, r, rfl, hlt, hfirst⟩ := exists_first_occurrence hold.ne_nil hinf
      rw [replaceAll_append_of_first hold.ne_nil hfirst] at h
      rcases infix_append_append hq hc h with hu | hr | ⟨u₂, r₁, rfl, ⟨u₁, rfl⟩, hr₁⟩
      · refine .inr ⟨hu.trans ⟨[], old ++ r, by simp⟩, ?_⟩
        rintro rfl
        refine hfirst (hu.trans ?_)
        rw [List.dropLast_append_of_ne_nil hold.ne_nil]
        exact (List.prefix_append u _).isInfix
      · have hrs : r <:+: u ++ old ++ r := (List.suffix_append _ r).isInfix
        rcases ih r.length (hn ▸ hlt) hr rfl with ⟨w, hw, hcap, hstep⟩ | ⟨hw, hne⟩
        · exact .inl ⟨w, hw.trans hrs, hcap, hstep⟩
        · exact .inr ⟨hw.trans hrs, hne⟩
      · -- around what was put in: the part before it, the pattern, and a start of the rest
        have hhead : ∀ a ∈ u₂.head?, a = c := by
          intro a ha
          have hh := hq.head
          rw [List.append_assoc, List.head?_append, Option.mem_def.mp ha] at hh
          exact Option.some.inj hh
        have hlast : ∀ a ∈ r₁.getLast?, a = c := by
          intro a ha
          have hl := hq.last
          rw [List.getLast?_append, Option.mem_def.mp ha] at hl
          exact Option.some.inj hl
        obtain ⟨w, ⟨r', rfl⟩, hwlast, hw⟩ :=
          exists_prefix_of_prefix_replaceAll hold hc hlast hr₁
        refine .inl ⟨u₂ ++ old ++ w, ⟨u₁, r', by simp⟩,
          hold.append_append hhead hwlast, ?_⟩
        refine TransGen.head' ⟨u₂, w, rfl, rfl⟩ ?_
        exact hw.lift (u₂ ++ new ++ ·) fun _ _ hstep => hstep.append_left _
    · rw [replaceAll_eq_self hinf] at h
      refine .inr ⟨h, ?_⟩
      rintro rfl
      exact hinf h

/-! ### A run of replacements -/

/-- **A string arises in another**: some part of that becomes it when patterns in it are
replaced, at least one. -/
def Arises (es : List (List α × List α)) (q s : List α) : Prop :=
  ∃ w, w <:+: s ∧ TransGen (fun s s' => ∃ e ∈ es, Replaces e.1 e.2 s s') w q

/-- **Whole runs**: what occurs after a run of replacements arises in the string, or occurred
in it and is none of the patterns. -/
theorem arises_of_infix_foldl_replaceAll (es : List (List α × List α))
    (hes : ∀ e ∈ es, Capped c e.1 ∧ c ∉ e.2) (hq : Capped c q)
    (h : q <:+: es.foldl (fun s e => replaceAll s e.1 e.2) s) :
    Arises es q s ∨ q <:+: s ∧ ∀ e ∈ es, q ≠ e.1 := by
  -- the part that becomes the string is capped, so the next step can be undone on it
  suffices hcapped : (∃ w, w <:+: s ∧ Capped c w ∧
      TransGen (fun s s' => ∃ e ∈ es, Replaces e.1 e.2 s s') w q) ∨
        q <:+: s ∧ ∀ e ∈ es, q ≠ e.1 by
    rcases hcapped with ⟨w, hw, -, hsteps⟩ | hthere
    · exact .inl ⟨w, hw, hsteps⟩
    · exact .inr hthere
  induction es generalizing s with
  | nil => exact .inr ⟨h, by simp⟩
  | cons e es ih =>
    obtain ⟨hcap, hc⟩ := hes e List.mem_cons_self
    have hfirst : ∀ {w w'}, TransGen (Replaces e.1 e.2) w w' →
        TransGen (fun s s' => ∃ e' ∈ e :: es, Replaces e'.1 e'.2 s s') w w' :=
      fun hsteps => hsteps.lift id fun _ _ hstep => ⟨e, List.mem_cons_self, hstep⟩
    have hlater : ∀ {w w'}, TransGen (fun s s' => ∃ e' ∈ es, Replaces e'.1 e'.2 s s') w w' →
        TransGen (fun s s' => ∃ e' ∈ e :: es, Replaces e'.1 e'.2 s s') w w' :=
      fun hsteps => hsteps.lift id fun _ _ ⟨e', he', hstep⟩ =>
        ⟨e', List.mem_cons_of_mem e he', hstep⟩
    rcases ih (fun e' he' => hes e' (List.mem_cons_of_mem e he')) h with
      ⟨w, hw, hwcap, hsteps⟩ | ⟨hthere, hne⟩
    · rcases infix_of_infix_replaceAll hcap hc hwcap hw with ⟨v, hv, hvcap, hbefore⟩ | ⟨hv, -⟩
      · exact .inl ⟨v, hv, hvcap, (hfirst hbefore).trans (hlater hsteps)⟩
      · exact .inl ⟨w, hv, hwcap, hlater hsteps⟩
    · rcases infix_of_infix_replaceAll hcap hc hq hthere with ⟨v, hv, hvcap, hbefore⟩ | ⟨hv, hqe⟩
      · exact .inl ⟨v, hv, hvcap, hfirst hbefore⟩
      · refine .inr ⟨hv, fun e' he' => ?_⟩
        rcases List.mem_cons.mp he' with rfl | he'
        · exact hqe
        · exact hne e' he'

/-- **Few caps let nothing arise**: each replacement takes away those of its pattern. -/
theorem not_arises_of_count_lt {es : List (List α × List α)} {n : ℕ}
    (hes : ∀ e ∈ es, n ≤ e.1.count c ∧ c ∉ e.2) (h : s.count c < q.count c + n) :
    ¬Arises es q s := by
  rintro ⟨w, hw, hsteps⟩
  have hstep : ∀ {w w' : List α}, (∃ e ∈ es, Replaces e.1 e.2 w w') →
      w'.count c + n ≤ w.count c := by
    rintro _ _ ⟨e, he, x, y, rfl, rfl⟩
    obtain ⟨hn, hc⟩ := hes e he
    simp only [List.count_append, List.count_eq_zero_of_not_mem hc]
    omega
  have hcount : ∀ {q}, TransGen (fun s s' => ∃ e ∈ es, Replaces e.1 e.2 s s') w q →
      q.count c + n ≤ w.count c := by
    intro q hsteps
    induction hsteps with
    | single hreplaces => exact hstep hreplaces
    | tail _ hreplaces ih =>
      have hle := hstep hreplaces
      omega
  have hle := hw.sublist.count_le c
  have hge := hcount hsteps
  omega

/-! ### Replacements that leave a string alone -/

theorem foldl_replaceAll_eq_self {es : List (List α × List α)}
    (h : ∀ e ∈ es, ¬e.1 <:+: s) : es.foldl (fun s e => replaceAll s e.1 e.2) s = s := by
  induction es with
  | nil => rfl
  | cons e es ih =>
    rw [List.foldl_cons, replaceAll_eq_self (h e List.mem_cons_self)]
    exact ih fun e' he' => h e' (List.mem_cons_of_mem e he')

/-- What is put in has no more of a letter than the pattern, and so has the result. The induction
is on the length, from one occurrence to the next. -/
theorem count_replaceAll_le (hold : old ≠ []) (hc : new.count c ≤ old.count c) (s : List α) :
    (replaceAll s old new).count c ≤ s.count c := by
  induction hn : s.length using Nat.strong_induction_on generalizing s with
  | h n ih =>
    by_cases hinf : old <:+: s
    · obtain ⟨u, t, rfl, hlt, hfirst⟩ := exists_first_occurrence hold hinf
      have hrest := ih t.length (hn ▸ hlt) t rfl
      rw [replaceAll_append_of_first hold hfirst]
      simp only [List.count_append]
      omega
    · rw [replaceAll_eq_self hinf]

theorem count_replaceAll_lt (hc : new.count c < old.count c) (h : old <:+: s) :
    (replaceAll s old new).count c < s.count c := by
  have hold : old ≠ [] := by
    rintro rfl
    exact absurd hc (by simp)
  obtain ⟨u, t, rfl, -, hfirst⟩ := exists_first_occurrence hold h
  have hrest := count_replaceAll_le hold hc.le t
  rw [replaceAll_append_of_first hold hfirst]
  simp only [List.count_append]
  omega

theorem count_foldl_replaceAll_le {es : List (List α × List α)}
    (hes : ∀ e ∈ es, e.2.count c < e.1.count c) (s : List α) :
    (es.foldl (fun s e => replaceAll s e.1 e.2) s).count c ≤ s.count c := by
  induction es generalizing s with
  | nil => exact le_rfl
  | cons e es ih =>
    have hlt := hes e List.mem_cons_self
    have hne : e.1 ≠ [] := by
      intro hnil
      rw [hnil] at hlt
      exact absurd hlt (by simp)
    exact (ih (fun e' he' => hes e' (List.mem_cons_of_mem e he')) _).trans
      (count_replaceAll_le hne hlt.le s)

/-- **A run of replacements that leaves a string alone has found no pattern in it**, where every
replacement takes away some of a letter. -/
theorem not_infix_of_foldl_replaceAll_eq {es : List (List α × List α)}
    (hes : ∀ e ∈ es, e.2.count c < e.1.count c)
    (h : es.foldl (fun s e => replaceAll s e.1 e.2) s = s) : ∀ e ∈ es, ¬e.1 <:+: s := by
  induction es with
  | nil => simp
  | cons e es ih =>
    have hes' : ∀ e' ∈ es, e'.2.count c < e'.1.count c := fun e' he' =>
      hes e' (List.mem_cons_of_mem e he')
    have hnot : ¬e.1 <:+: s := by
      intro hinf
      have hlt := count_replaceAll_lt (hes e List.mem_cons_self) hinf
      have hle := count_foldl_replaceAll_le hes' (replaceAll s e.1 e.2)
      rw [List.foldl_cons] at h
      rw [h] at hle
      omega
    rw [List.foldl_cons, replaceAll_eq_self hnot] at h
    rintro e' he'
    rcases List.mem_cons.mp he' with rfl | he'
    · exact hnot
    · exact ih hes' h e' he'

end Occurrences

end Go
