import HertzBeat.Collect.CalculateFields
import Mathlib.Data.Rat.Cast.Order
import Mathlib.Tactic.NormNum

/-!
# Units and their conversion

A conversion looks for a table with both of its units, first among those of bytes, then of bits,
then of time. A name such as `MB` is in the first two, with a different factor in each, so that its
size depends on the other unit: beside `KB` a megabyte is `1024` of them, beside `KBIT` it is
`1000`. Converting in two steps is then not the same as converting in one, and
`HertzBeat.Conversion.convert_path_iff` says for which units this is so.
-/

namespace HertzBeat

open Go (Str Text)

namespace Conversion

/-! ### Ratios -/

/-- The value of one unit in another, if they can be converted. -/
def ratio (originUnit newUnit : Str) : Option ℚ :=
  if originUnit = newUnit then some 1
  else (factors originUnit newUnit).map fun f => (f.1 : ℚ) / f.2

/-- Over the rational numbers a conversion is a product. -/
theorem convert_eq_ok_iff {text : Text} {x y : ℚ} {a b : Str} :
    convert text x a b = .ok y ↔
      ∃ r, ratio (text.toUpper a) (text.toUpper b) = some r ∧ y = x * r := by
  unfold convert ratio
  dsimp only
  split_ifs with hab
  · simp [eq_comm]
  · cases factors (text.toUpper a) (text.toUpper b) with
    | none => simp
    | some f => simp [mul_div_assoc, eq_comm]

section Tables

variable {a b : Str} {p q : ℕ}

/-- What is found in a table is in it. -/
theorem mem_of_lookup {units : List (Str × ℕ)} (h : units.lookup a = some p) : (a, p) ∈ units := by
  obtain ⟨l₁, l₂, rfl, -⟩ := List.lookup_eq_some_iff.mp h
  simp

theorem factor_ne_zero {units : List (Str × ℕ)} (hunits : units ∈ [byteUnits, bitUnits, timeUnits])
    (h : units.lookup a = some p) : (p : ℚ) ≠ 0 := by
  have hall : ∀ units ∈ [byteUnits, bitUnits, timeUnits], ∀ u ∈ units, u.2 ≠ 0 := by decide
  exact Nat.cast_ne_zero.mpr (hall units hunits _ (mem_of_lookup h))

/-- The units of time are in no other table. -/
theorem lookup_of_timeUnits (h : timeUnits.lookup a = some p) :
    byteUnits.lookup a = none ∧ bitUnits.lookup a = none := by
  have hall : ∀ u ∈ timeUnits, byteUnits.lookup u.1 = none ∧ bitUnits.lookup u.1 = none := by
    decide
  exact hall _ (mem_of_lookup h)

theorem factors_of_byteUnits (ha : byteUnits.lookup a = some p) (hb : byteUnits.lookup b = some q) :
    factors a b = some (p, q) := by
  simp [factors, ha, hb]

theorem factors_of_bitUnits (hbyte : byteUnits.lookup a = none ∨ byteUnits.lookup b = none)
    (ha : bitUnits.lookup a = some p) (hb : bitUnits.lookup b = some q) :
    factors a b = some (p, q) := by
  rcases hbyte with hbyte | hbyte <;> simp [factors, hbyte, ha, hb]

theorem factors_of_timeUnits (ha : timeUnits.lookup a = some p)
    (hb : timeUnits.lookup b = some q) : factors a b = some (p, q) := by
  simp [factors, lookup_of_timeUnits ha, lookup_of_timeUnits hb, ha, hb]

/-- Both units are in the table of bytes, or else in that of bits, or in that of time. -/
theorem exists_of_factors {f : ℕ × ℕ} (h : factors a b = some f) :
    (∃ p q, byteUnits.lookup a = some p ∧ byteUnits.lookup b = some q) ∨
      (∃ p q, bitUnits.lookup a = some p ∧ bitUnits.lookup b = some q) ∨
        ∃ p q, timeUnits.lookup a = some p ∧ timeUnits.lookup b = some q := by
  unfold factors at h
  obtain ⟨units, hunits, hf⟩ := List.exists_of_findSome?_eq_some h
  split at hf
  · next p q ha hb =>
    rcases List.mem_cons.mp hunits with rfl | hunits
    · exact .inl ⟨p, q, ha, hb⟩
    · rcases List.mem_cons.mp hunits with rfl | hunits
      · exact .inr (.inl ⟨p, q, ha, hb⟩)
      · obtain rfl := List.mem_singleton.mp hunits
        exact .inr (.inr ⟨p, q, ha, hb⟩)
  · cases hf

/-- A ratio is that of the factors in the table that is used. -/
theorem ratio_of_factors {units : List (Str × ℕ)}
    (hunits : units ∈ [byteUnits, bitUnits, timeUnits])
    (ha : units.lookup a = some p) (hb : units.lookup b = some q)
    (hf : factors a b = some (p, q)) : ratio a b = some ((p : ℚ) / q) := by
  rw [ratio]
  split_ifs with hab
  · subst hab
    obtain rfl := Option.some.inj (ha.symm.trans hb)
    rw [div_self (factor_ne_zero hunits ha)]
  · rw [hf]
    rfl

theorem ratio_byteUnits (ha : byteUnits.lookup a = some p) (hb : byteUnits.lookup b = some q) :
    ratio a b = some ((p : ℚ) / q) :=
  ratio_of_factors (by simp) ha hb (factors_of_byteUnits ha hb)

theorem ratio_bitUnits (hbyte : byteUnits.lookup a = none ∨ byteUnits.lookup b = none)
    (ha : bitUnits.lookup a = some p) (hb : bitUnits.lookup b = some q) :
    ratio a b = some ((p : ℚ) / q) :=
  ratio_of_factors (by simp) ha hb (factors_of_bitUnits hbyte ha hb)

theorem ratio_timeUnits (ha : timeUnits.lookup a = some p) (hb : timeUnits.lookup b = some q) :
    ratio a b = some ((p : ℚ) / q) :=
  ratio_of_factors (by simp) ha hb (factors_of_timeUnits ha hb)

end Tables

/-! ### Three units -/

/-- A unit that counts bytes beside some units and bits beside others. -/
def Shared (u : Str) : Prop := (byteUnits.lookup u).isSome ∧ (bitUnits.lookup u).isSome

/-- A unit that counts bits only. -/
def BitOnly (u : Str) : Prop := byteUnits.lookup u = none ∧ (bitUnits.lookup u).isSome

/-- **Units that do not fit together**: two that count bytes beside each other, and bits beside the
third. -/
def Mixed (a b c : Str) : Prop :=
  (BitOnly a ∧ Shared b ∧ Shared c ∧ b ≠ c) ∨ (BitOnly b ∧ Shared a ∧ Shared c ∧ a ≠ c) ∨
    (BitOnly c ∧ Shared a ∧ Shared b ∧ a ≠ b)

instance (u : Str) : Decidable (Shared u) := inferInstanceAs (Decidable (_ ∧ _))

instance (u : Str) : Decidable (BitOnly u) := inferInstanceAs (Decidable (_ ∧ _))

instance (a b c : Str) : Decidable (Mixed a b c) := inferInstanceAs (Decidable (_ ∨ _))

section Three

variable {a b c : Str} {r s t : ℚ}

/-- Two units that are in the same proportion in both tables are one. -/
theorem shared_ratio_iff {p q p' q' : ℕ} (ha : byteUnits.lookup a = some p)
    (hb : byteUnits.lookup b = some q) (ha' : bitUnits.lookup a = some p')
    (hb' : bitUnits.lookup b = some q') : (p : ℚ) / q = p' / q' ↔ a = b := by
  have hall : ∀ u ∈ byteUnits, ∀ v ∈ byteUnits, ∀ p' ∈ bitUnits.lookup u.1,
      ∀ q' ∈ bitUnits.lookup v.1, u.2 * q' = p' * v.2 → u.1 = v.1 := by
    decide
  have hq : (q : ℚ) ≠ 0 := factor_ne_zero (by simp) hb
  have hq' : (q' : ℚ) ≠ 0 := factor_ne_zero (by simp) hb'
  constructor
  · intro h
    rw [div_eq_div_iff hq hq'] at h
    exact hall _ (mem_of_lookup ha) _ (mem_of_lookup hb) p' ha' q' hb' (by exact_mod_cast h)
  · rintro rfl
    obtain rfl := Option.some.inj (ha.symm.trans hb)
    obtain rfl := Option.some.inj (ha'.symm.trans hb')
    rw [div_self hq, div_self hq']

theorem exists_ratio_swap (h : ratio a b = some r) : ∃ r', ratio b a = some r' := by
  rw [ratio] at h
  split_ifs at h with hab
  · exact ⟨1, if_pos hab.symm⟩
  · obtain ⟨f, hf, -⟩ := Option.map_eq_some_iff.mp h
    rcases exists_of_factors hf with ⟨p, q, ha, hb⟩ | ⟨p, q, ha, hb⟩ | ⟨p, q, ha, hb⟩
    · exact ⟨_, ratio_byteUnits hb ha⟩
    · -- the table of bytes goes first, if it has both of them
      cases hbyte : byteUnits.lookup b with
      | none => exact ⟨_, ratio_bitUnits (.inl hbyte) hb ha⟩
      | some q' =>
        cases hbyte' : byteUnits.lookup a with
        | none => exact ⟨_, ratio_bitUnits (.inr hbyte') hb ha⟩
        | some p' => exact ⟨_, ratio_byteUnits hbyte hbyte'⟩
    · exact ⟨_, ratio_timeUnits hb ha⟩

/-- What a unit without bytes is converted to is a unit of bits, if it is one itself, and otherwise
a unit of time. -/
theorem same_table_of_ratio (h : ratio a b = some r) (hne : a ≠ b)
    (hbyte : byteUnits.lookup a = none) :
    (∃ p q, bitUnits.lookup a = some p ∧ bitUnits.lookup b = some q) ∨
      ∃ p q, timeUnits.lookup a = some p ∧ timeUnits.lookup b = some q := by
  rw [ratio, if_neg hne] at h
  obtain ⟨f, hf, -⟩ := Option.map_eq_some_iff.mp h
  rcases exists_of_factors hf with ⟨p, q, ha, -⟩ | hbits | htime
  · rw [hbyte] at ha
    cases ha
  · exact .inl hbits
  · exact .inr htime

/-- **Three units of which one is without bytes** are all units of bits, or all units of time. -/
theorem same_table_of_ratios (hab : ratio a b = some r) (hac : ratio a c = some t) (hne : a ≠ b)
    (hbyte : byteUnits.lookup a = none) :
    (∃ p q w, bitUnits.lookup a = some p ∧ bitUnits.lookup b = some q ∧
        bitUnits.lookup c = some w) ∨
      ∃ p q w, timeUnits.lookup a = some p ∧ timeUnits.lookup b = some q ∧
        timeUnits.lookup c = some w := by
  rcases same_table_of_ratio hab hne hbyte with ⟨p, q, ha, hb⟩ | ⟨p, q, ha, hb⟩
  · refine .inl ?_
    rcases eq_or_ne a c with rfl | hne'
    · exact ⟨p, q, p, ha, hb, ha⟩
    · rcases same_table_of_ratio hac hne' hbyte with ⟨-, w, -, hc⟩ | ⟨p', w, ha', -⟩
      · exact ⟨p, q, w, ha, hb, hc⟩
      · rw [(lookup_of_timeUnits ha').2] at ha
        cases ha
  · refine .inr ?_
    rcases eq_or_ne a c with rfl | hne'
    · exact ⟨p, q, p, ha, hb, ha⟩
    · rcases same_table_of_ratio hac hne' hbyte with ⟨p', w, ha', -⟩ | ⟨-, w, -, hc⟩
      · rw [(lookup_of_timeUnits ha).2] at ha'
        cases ha'
      · exact ⟨p, q, w, ha, hb, hc⟩

/-- **Which table three units are in**, if each of them can be converted to the others. -/
theorem three_units (hab : ratio a b = some r) (hbc : ratio b c = some s) (hac : ratio a c = some t)
    (hne : a ≠ b) (hne' : b ≠ c) :
    (∃ p q w, byteUnits.lookup a = some p ∧ byteUnits.lookup b = some q ∧
        byteUnits.lookup c = some w) ∨
      (∃ p q w, bitUnits.lookup a = some p ∧ bitUnits.lookup b = some q ∧
        bitUnits.lookup c = some w) ∨
      ∃ p q w, timeUnits.lookup a = some p ∧ timeUnits.lookup b = some q ∧
        timeUnits.lookup c = some w := by
  obtain ⟨r', hba⟩ := exists_ratio_swap hab
  obtain ⟨s', hcb⟩ := exists_ratio_swap hbc
  obtain ⟨t', hca⟩ := exists_ratio_swap hac
  cases ha : byteUnits.lookup a with
  | none => exact .inr (same_table_of_ratios hab hac hne ha)
  | some p =>
    cases hb : byteUnits.lookup b with
    | none =>
      rcases same_table_of_ratios hba hbc hne.symm hb with ⟨q, p', w, hb, ha, hc⟩ |
        ⟨q, p', w, hb, ha, hc⟩
      · exact .inr (.inl ⟨p', q, w, ha, hb, hc⟩)
      · exact .inr (.inr ⟨p', q, w, ha, hb, hc⟩)
    | some q =>
      cases hc : byteUnits.lookup c with
      | none =>
        rcases same_table_of_ratios hcb hca hne'.symm hc with ⟨w, q', p', hc, hb, ha⟩ |
          ⟨w, q', p', hc, hb, ha⟩
        · exact .inr (.inl ⟨p', q', w, ha, hb, hc⟩)
        · exact .inr (.inr ⟨p', q', w, ha, hb, hc⟩)
      | some w => exact .inl ⟨p, q, w, rfl, rfl, rfl⟩

/-- The units of one table fit together. -/
theorem ratio_mul_of_table {units : List (Str × ℕ)}
    (hunits : units ∈ [byteUnits, bitUnits, timeUnits]) {p q w : ℕ} (hb : units.lookup b = some q)
    (hab : ratio a b = some r) (hbc : ratio b c = some s) (hac : ratio a c = some t)
    (hab' : ratio a b = some ((p : ℚ) / q)) (hbc' : ratio b c = some ((q : ℚ) / w))
    (hac' : ratio a c = some ((p : ℚ) / w)) : r * s = t := by
  obtain rfl := Option.some.inj (hab.symm.trans hab')
  obtain rfl := Option.some.inj (hbc.symm.trans hbc')
  obtain rfl := Option.some.inj (hac.symm.trans hac')
  exact div_mul_div_cancel₀ (factor_ne_zero hunits hb)

theorem not_mixed_of_bit_none (h : bitUnits.lookup a = none) : ¬Mixed a b c := by
  simp [Mixed, BitOnly, Shared, h]

theorem not_mixed_of_byteUnits {p q w : ℕ} (ha : byteUnits.lookup a = some p)
    (hb : byteUnits.lookup b = some q) (hc : byteUnits.lookup c = some w) : ¬Mixed a b c := by
  simp [Mixed, BitOnly, ha, hb, hc]

/-- Units of bits fit together if at most one of them is a unit of bytes too. If two are, these must
be the same. -/
theorem ratio_mul_iff_of_bitUnits {p q w : ℕ} (ha : bitUnits.lookup a = some p)
    (hb : bitUnits.lookup b = some q) (hc : bitUnits.lookup c = some w)
    (hab : ratio a b = some r) (hbc : ratio b c = some s) (hac : ratio a c = some t) :
    r * s = t ↔ ¬Mixed a b c := by
  have hp : (p : ℚ) ≠ 0 := factor_ne_zero (by simp) ha
  have hq : (q : ℚ) ≠ 0 := factor_ne_zero (by simp) hb
  have hw : (w : ℚ) ≠ 0 := factor_ne_zero (by simp) hc
  have hsteps : (p : ℚ) / q * (q / w) = p / w := div_mul_div_cancel₀ hq
  cases ha' : byteUnits.lookup a with
  | none =>
    obtain rfl := Option.some.inj (hab.symm.trans (ratio_bitUnits (.inl ha') ha hb))
    obtain rfl := Option.some.inj (hac.symm.trans (ratio_bitUnits (.inl ha') ha hc))
    rw [← hsteps, mul_right_inj' (div_ne_zero hp hq)]
    cases hb' : byteUnits.lookup b with
    | none =>
      obtain rfl := Option.some.inj (hbc.symm.trans (ratio_bitUnits (.inl hb') hb hc))
      exact iff_of_true rfl (by simp [Mixed, Shared, ha', hb'])
    | some q' =>
      cases hc' : byteUnits.lookup c with
      | none =>
        obtain rfl := Option.some.inj (hbc.symm.trans (ratio_bitUnits (.inr hc') hb hc))
        exact iff_of_true rfl (by simp [Mixed, Shared, ha', hc'])
      | some w' =>
        obtain rfl := Option.some.inj (hbc.symm.trans (ratio_byteUnits hb' hc'))
        have hmixed : Mixed a b c ↔ b ≠ c := by
          simp [Mixed, BitOnly, Shared, ha, hb, hc, ha', hb', hc']
        rw [hmixed, not_not, shared_ratio_iff hb' hc' hb hc]
  | some p' =>
    cases hb' : byteUnits.lookup b with
    | none =>
      obtain rfl := Option.some.inj (hab.symm.trans (ratio_bitUnits (.inr hb') ha hb))
      obtain rfl := Option.some.inj (hbc.symm.trans (ratio_bitUnits (.inl hb') hb hc))
      rw [hsteps]
      cases hc' : byteUnits.lookup c with
      | none =>
        obtain rfl := Option.some.inj (hac.symm.trans (ratio_bitUnits (.inr hc') ha hc))
        exact iff_of_true rfl (by simp [Mixed, Shared, hb', hc'])
      | some w' =>
        obtain rfl := Option.some.inj (hac.symm.trans (ratio_byteUnits ha' hc'))
        have hmixed : Mixed a b c ↔ a ≠ c := by
          simp [Mixed, BitOnly, Shared, ha, hb, hc, ha', hb', hc']
        rw [hmixed, not_not, eq_comm, shared_ratio_iff ha' hc' ha hc]
    | some q' =>
      obtain rfl := Option.some.inj (hab.symm.trans (ratio_byteUnits ha' hb'))
      cases hc' : byteUnits.lookup c with
      | none =>
        obtain rfl := Option.some.inj (hbc.symm.trans (ratio_bitUnits (.inr hc') hb hc))
        obtain rfl := Option.some.inj (hac.symm.trans (ratio_bitUnits (.inr hc') ha hc))
        have hmixed : Mixed a b c ↔ a ≠ b := by
          simp [Mixed, BitOnly, Shared, ha, hb, hc, ha', hb', hc']
        rw [hmixed, not_not, ← hsteps, mul_left_inj' (div_ne_zero hq hw),
          shared_ratio_iff ha' hb' ha hb]
      | some w' =>
        exact iff_of_true (ratio_mul_of_table (by simp) hb' hab hbc hac (ratio_byteUnits ha' hb')
          (ratio_byteUnits hb' hc') (ratio_byteUnits ha' hc')) (not_mixed_of_byteUnits ha' hb' hc')

/-- **Converting in two steps is converting in one**, unless the units do not fit together. -/
theorem ratio_mul_iff (hab : ratio a b = some r) (hbc : ratio b c = some s)
    (hac : ratio a c = some t) : r * s = t ↔ ¬Mixed a b c := by
  rcases eq_or_ne a b with rfl | hne
  · have hr : r = 1 := by simpa [ratio, eq_comm] using hab
    have hst : s = t := Option.some.inj (hbc.symm.trans hac)
    refine iff_of_true (by rw [hr, one_mul, hst]) ?_
    simp only [Mixed, BitOnly, Shared]
    grind
  rcases eq_or_ne b c with rfl | hne'
  · have hs : s = 1 := by simpa [ratio, eq_comm] using hbc
    have hrt : r = t := Option.some.inj (hab.symm.trans hac)
    refine iff_of_true (by rw [hs, mul_one, hrt]) ?_
    simp only [Mixed, BitOnly, Shared]
    grind
  rcases three_units hab hbc hac hne hne' with ⟨p, q, w, ha, hb, hc⟩ | ⟨p, q, w, ha, hb, hc⟩ |
    ⟨p, q, w, ha, hb, hc⟩
  · exact iff_of_true (ratio_mul_of_table (by simp) hb hab hbc hac (ratio_byteUnits ha hb)
      (ratio_byteUnits hb hc) (ratio_byteUnits ha hc)) (not_mixed_of_byteUnits ha hb hc)
  · exact ratio_mul_iff_of_bitUnits ha hb hc hab hbc hac
  · exact iff_of_true (ratio_mul_of_table (by simp) hb hab hbc hac (ratio_timeUnits ha hb)
      (ratio_timeUnits hb hc) (ratio_timeUnits ha hc))
      (not_mixed_of_bit_none (lookup_of_timeUnits ha).2)

end Three

/-- **Conversions in two steps and in one.** They agree for zero, and for units that fit together;
for others they do not. -/
theorem convert_path_iff {text : Text} {x y z z' : ℚ} {a b c : Str}
    (hab : convert text x a b = .ok y) (hbc : convert text y b c = .ok z)
    (hac : convert text x a c = .ok z') :
    z = z' ↔ x = 0 ∨ ¬Mixed (text.toUpper a) (text.toUpper b) (text.toUpper c) := by
  obtain ⟨r, hr, rfl⟩ := convert_eq_ok_iff.mp hab
  obtain ⟨s, hs, rfl⟩ := convert_eq_ok_iff.mp hbc
  obtain ⟨t, ht, rfl⟩ := convert_eq_ok_iff.mp hac
  rw [← ratio_mul_iff hr hs ht, mul_assoc, mul_eq_mul_left_iff, or_comm]

/-- Three gigabytes in kilobytes, by way of megabytes and directly. -/
theorem convert_path_gigabytes :
    ∃ z z' : ℚ, convert .ascii (3 : ℚ) (Go.str "gb") (Go.str "MB") = .ok 3072 ∧
      convert .ascii (3072 : ℚ) (Go.str "MB") (Go.str "kb") = .ok z ∧
      convert .ascii (3 : ℚ) (Go.str "gb") (Go.str "kb") = .ok z' ∧ z = z' := by
  have hfirst : convert .ascii (3 : ℚ) (Go.str "gb") (Go.str "MB") = .ok 3072 :=
    convert_eq_ok_iff.mpr ⟨_, rfl, by norm_num⟩
  have hsecond : convert .ascii (3072 : ℚ) (Go.str "MB") (Go.str "kb") = .ok (3072 * 1024) :=
    convert_eq_ok_iff.mpr ⟨_, rfl, by norm_num⟩
  have hdirect : convert .ascii (3 : ℚ) (Go.str "gb") (Go.str "kb") = .ok (3 * 1048576) :=
    convert_eq_ok_iff.mpr ⟨_, rfl, by norm_num⟩
  exact ⟨_, _, hfirst, hsecond, hdirect,
    (convert_path_iff hfirst hsecond hdirect).mpr (.inr (by decide))⟩

/-- **A megabyte in kilobits is 1024000 bits by way of kilobytes, and 1000000 bits directly.** -/
theorem not_convert_path :
    convert .ascii (1 : ℚ) (Go.str "MB") (Go.str "KB") = .ok 1024 ∧
      convert .ascii (1024 : ℚ) (Go.str "KB") (Go.str "KBIT") = .ok 1024 ∧
      convert .ascii (1 : ℚ) (Go.str "MB") (Go.str "KBIT") = .ok 1000 := by
  refine ⟨convert_eq_ok_iff.mpr ⟨_, rfl, ?_⟩, convert_eq_ok_iff.mpr ⟨_, rfl, ?_⟩,
    convert_eq_ok_iff.mpr ⟨_, rfl, ?_⟩⟩ <;> norm_num

end Conversion

end HertzBeat
