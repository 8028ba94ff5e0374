import HertzBeat.Collect.CalculateFields
import HertzBeat.Lib.Decimal

/-!
# Numbers in four decimals

`formatNumber` of `internal/job/collect/dispatch/metrics_collector.go` is to print a number with up
to four decimals. It rounds to four, and where this ends with a nought it prints the number once
more, with as many decimals as it has. For a number of up to four decimals that takes the noughts
off. But a number that has more of them may end with a nought when it is rounded, and then all of
its decimals come out: `1.00001` is printed as `1.00001`.

Numbers are exact here, `Go.Decimal`, so that nothing is owed to the `float64` they are kept in.
-/

namespace HertzBeat

namespace Calculator

open Go (Str Decimal)

variable {Program : Type} (env : Calculator Decimal Program)

/-- Numbers are printed by `strconv.FormatFloat`. -/
structure PrintsDecimals : Prop where
  fixed : ∀ x : Decimal, env.formatFixed x = x.formatFixed 4
  shortest : ∀ x : Decimal, env.formatShortest x = x.formatShortest

/-- A number is printed as it should be: tidy, with four decimals at most, and rounded to them. -/
def PrintsRounded (x : Decimal) : Prop :=
  Go.IsTidy 4 (formatNumber env x) ∧
    ∃ q, Go.decimalValue (formatNumber env x) = some q ∧ Go.IsRounded 4 x.toRat q

variable {env} (henv : env.PrintsDecimals)

include henv

/-- The rounded form is kept unless it ends with a nought. -/
theorem formatNumber_eq (x : Decimal) :
    formatNumber env x = if x.rounded 4 % 10 = 0 then x.formatShortest else x.formatFixed 4 := by
  have hlt : x.rounded 4 % 10 < 10 := Nat.mod_lt _ (by decide)
  have hlast := Go.getLast?_plain x.neg (x.rounded 4) 3
  have hpoint : UInt8.ofNat (48 + x.rounded 4 % 10) ≠ 46 := by
    intro h
    exact absurd (h ▸ (Go.digit_ofNat hlt).1) (by decide)
  rw [formatNumber, henv.fixed, henv.shortest]
  simp only [Decimal.formatFixed, hlast, hpoint, or_false, Go.ofNat_eq_zero_digit_iff hlt]

/-- **A number is printed in four decimals** if and only if it has no more than four, or does not
end with a nought when it is rounded to four. -/
theorem printsRounded_iff (x : Decimal) :
    env.PrintsRounded x ↔ x.Fits 4 ∨ x.rounded 4 % 10 ≠ 0 := by
  rw [PrintsRounded, formatNumber_eq henv]
  split
  · next hnought =>
    rw [Decimal.isTidy_formatShortest_iff, Decimal.decimalValue_formatShortest]
    constructor
    · rintro ⟨hfits, -⟩
      exact .inl hfits
    · rintro (hfits | hne)
      · exact ⟨hfits, _, rfl, x.isRounded_toRat hfits⟩
      · exact absurd hnought hne
  · next hne =>
    have htidy : Go.IsTidy 4 (x.formatFixed 4) := (Go.isTidy_plain_iff (.inr hne)).mpr le_rfl
    exact iff_of_true ⟨htidy, x.isRounded_formatFixed 4⟩ (.inr hne)

omit henv

/-- A calculator of numbers with finitely many decimals, which reads none. -/
def decimalCalculator : Calculator Decimal Unit where
  text := .ascii
  compile := fun _ => none
  run := fun _ _ => .null
  parseFloat := fun _ => none
  formatFixed := fun x => x.formatFixed 4
  formatShortest := Decimal.formatShortest

/-- `-2.50` loses its nought, and `0.12346` is rounded. -/
theorem printsRounded_two_numbers :
    decimalCalculator.PrintsRounded ⟨true, 250, 2⟩ ∧
      decimalCalculator.PrintsRounded ⟨false, 12346, 5⟩ ∧
      formatNumber decimalCalculator ⟨true, 250, 2⟩ = Go.str "-2.5" ∧
      formatNumber decimalCalculator ⟨false, 12346, 5⟩ = Go.str "0.1235" := by
  have hprints : decimalCalculator.PrintsDecimals := ⟨fun _ => rfl, fun _ => rfl⟩
  refine ⟨(printsRounded_iff hprints _).mpr (.inl ?_), (printsRounded_iff hprints _).mpr (.inr ?_),
    rfl, rfl⟩ <;> decide

/-- `1.00001` is printed with all its decimals. -/
theorem not_printsRounded_five_decimals :
    ¬decimalCalculator.PrintsRounded ⟨false, 100001, 5⟩ ∧
      formatNumber decimalCalculator ⟨false, 100001, 5⟩ = Go.str "1.00001" := by
  have hprint : formatNumber decimalCalculator ⟨false, 100001, 5⟩ = Go.str "1.00001" := rfl
  refine ⟨?_, hprint⟩
  rintro ⟨htidy, -⟩
  rw [hprint] at htidy
  have hshort := (htidy (Go.str "1") (Go.str "00001") rfl).2.1
  exact absurd hshort (by decide)

end Calculator

end HertzBeat
