import HertzBeat.Lib.Printed

/-!
# How a duration is written

A duration is written as decimal numbers with their units, such as `1h30m` or `-1.5s`; nought may
stand without a unit. `Go.ParsesDurations` is what is relied on of a function that reads durations:
it reads nothing else, and nought is nought.

A string that is also a number is hardly ever a duration, since a unit has letters: the two
readings share the three spellings of nought, on which they agree. So a string that may be either
can be tried in either order, `Go.ParsesDurations.orElse_atoi`.
-/

namespace Go

/-! ### Numbers with units -/

/-- The units, from the nanosecond to the hour. The sign of the microsecond is the micro sign or
the Greek letter, or a plain `u`. -/
def durationUnits : List Str :=
  [str "ns", str "us", str "µs", str "μs", str "ms", str "s", str "m", str "h"]

/-- A string of decimal digits. -/
def AreDigits (s : Str) : Prop := ∀ c ∈ s, 48 ≤ c ∧ c ≤ 57

/-- A decimal number: digits, which a point may stand before, between or after. -/
inductive IsDecimal : Str → Prop
  | whole {digits : Str} : digits ≠ [] → AreDigits digits → IsDecimal digits
  | point {before after : Str} : before ++ after ≠ [] → AreDigits before → AreDigits after →
      IsDecimal (before ++ 46 :: after)

/-- One or more decimal numbers, each with its unit. -/
inductive AreUnits : Str → Prop
  | one {number unit : Str} : IsDecimal number → unit ∈ durationUnits → AreUnits (number ++ unit)
  | more {number unit rest : Str} : IsDecimal number → unit ∈ durationUnits → AreUnits rest →
      AreUnits (number ++ unit ++ rest)

/-- The signs that a number may have. -/
def signs : List Str := [[], str "+", str "-"]

/-- A duration, with its sign: nought, or numbers with units. -/
def IsDuration (s : Str) : Prop :=
  ∃ sign ∈ signs, ∃ t, s = sign ++ t ∧ (t = str "0" ∨ AreUnits t)

/-- **What reads durations**, such as `time.ParseDuration`: it accepts durations only, and
nought for nought. -/
structure ParsesDurations (parseDuration : Str → Option ℤ) : Prop where
  accepts : ∀ s d, parseDuration s = some d → IsDuration s
  nought : ∀ sign ∈ signs, parseDuration (sign ++ str "0") = some 0

/-! ### Durations and numbers -/

/-- A unit has a letter in it. -/
theorem exists_letter_of_mem_durationUnits : ∀ unit ∈ durationUnits, ∃ c ∈ unit, 57 < c :=
  List.all_iff_forall_prop.mp rfl

/-- Numbers with units have a letter in them. -/
theorem AreUnits.exists_letter {s : Str} (h : AreUnits s) : ∃ c ∈ s, 57 < c := by
  cases h with
  | one _ hunit =>
    obtain ⟨c, hc, hlt⟩ := exists_letter_of_mem_durationUnits _ hunit
    exact ⟨c, List.mem_append_right _ hc, hlt⟩
  | more _ hunit _ =>
    obtain ⟨c, hc, hlt⟩ := exists_letter_of_mem_durationUnits _ hunit
    exact ⟨c, List.mem_append_left _ (List.mem_append_right _ hc), hlt⟩

/-- What has a value is made of digits. -/
theorem areDigits_of_digitsValue {s : Str} {n : ℕ} (h : digitsValue s = some n) : AreDigits s := by
  rw [digitsValue] at h
  split at h
  · contradiction
  -- the value up to a digit is there because that up to the next one is
  · induction s using List.reverseRecOn generalizing n with
    | nil => simp [AreDigits]
    | append_singleton s d ih =>
      rw [List.foldl_append, List.foldl_cons, List.foldl_nil] at h
      obtain ⟨m, hm, hd⟩ := Option.bind_eq_some_iff.mp h
      split at hd
      · next hdigit =>
        intro c hc
        rcases List.mem_append.mp hc with hc | hc
        · exact ih (List.ne_nil_of_mem hc) hm c hc
        · rwa [List.mem_singleton.mp hc]
      · contradiction

/-- **A number has no letters.** -/
theorem le_of_atoi {s : Str} {n : ℤ} (h : atoi s = some n) : ∀ c ∈ s, c ≤ 57 := by
  unfold atoi at h
  have hvalue := (Option.filter_eq_some_iff.mp h).1
  have hdigits : ∀ t, digitsValue t ≠ none → ∀ c ∈ t, c ≤ 57 := by
    intro t ht c hc
    obtain ⟨m, hm⟩ := Option.ne_none_iff_exists'.mp ht
    exact (areDigits_of_digitsValue hm c hc).2
  -- with either sign, and without one, what is left is a string of digits
  split at hvalue
  · exact List.forall_mem_cons.mpr ⟨by decide, hdigits _ fun hnone => by simp [hnone] at hvalue⟩
  · exact List.forall_mem_cons.mpr ⟨by decide, hdigits _ fun hnone => by simp [hnone] at hvalue⟩
  · exact hdigits _ fun hnone => by simp [hnone] at hvalue

/-- Nought is nought, whatever its sign. -/
theorem atoi_nought : ∀ sign ∈ signs, atoi (sign ++ str "0") = some 0 := by
  decide +kernel

section Parser

variable {parseDuration : Str → Option ℤ}

/-- **What is a duration and a number is nought**, read in either way. -/
theorem ParsesDurations.eq_zero (h : ParsesDurations parseDuration) {s : Str} {d n : ℤ}
    (hd : parseDuration s = some d) (hn : atoi s = some n) : d = 0 ∧ n = 0 := by
  obtain ⟨sign, hsign, t, rfl, rfl | ht⟩ := h.accepts s d hd
  · rw [h.nought sign hsign] at hd
    rw [atoi_nought sign hsign] at hn
    exact ⟨(Option.some.inj hd).symm, (Option.some.inj hn).symm⟩
  · obtain ⟨c, hc, hlt⟩ := ht.exists_letter
    exact absurd (le_of_atoi hn c (List.mem_append_right _ hc)) (UInt8.not_le.mpr hlt)

/-- **The order of the two readings does not matter**, for numbers that are given a meaning of
which nought is that of no time at all. -/
theorem ParsesDurations.orElse_atoi (h : ParsesDurations parseDuration) {f : ℤ → ℤ} (hf : f 0 = 0)
    (s : Str) : (parseDuration s <|> (atoi s).map f) = ((atoi s).map f <|> parseDuration s) := by
  cases hd : parseDuration s with
  | none => cases hn : atoi s <;> rfl
  | some d =>
    cases hn : atoi s with
    | none => rfl
    | some n =>
      obtain ⟨rfl, rfl⟩ := h.eq_zero hd hn
      rw [Option.map_some, hf]

end Parser

end Go
