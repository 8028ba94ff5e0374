import HertzBeat.Lib.Printed
import Mathlib.Tactic.FieldSimp
import Mathlib.Tactic.Linarith
import Mathlib.Tactic.Positivity
import Mathlib.Tactic.Ring

/-!
# Decimal numbers in print

A `Go.Decimal` is a number with finitely many decimals, and `strconv.FormatFloat` with the format
`'f'` prints it in two ways: with a given number of decimals, to which it is rounded
(`Go.Decimal.formatFixed`), or with as many as it has (`Go.Decimal.formatShortest`).

What is printed is read back by `Go.decimalValue`. The first way gives the number rounded
(`Go.Decimal.isRounded_formatFixed`), and the second the number itself, without a nought at the end
of the decimals (`Go.Decimal.decimalValue_formatShortest`).
-/

namespace Go

/-! ### Rounding -/

/-- A number is rounded to so many decimals: to one that has no more, and none is nearer. -/
structure IsRounded (places : ℕ) (x q : ℚ) : Prop where
  whole : ∃ n : ℤ, q * 10 ^ places = n
  near : |x - q| * 10 ^ places ≤ 1 / 2

/-- A fraction rounded to a whole number, and to an even one if there are two as near. -/
def halfEven (n d : ℕ) : ℕ :=
  if 2 * (n % d) < d ∨ 2 * (n % d) = d ∧ n / d % 2 = 0 then n / d else n / d + 1

/-- A fraction is its whole part and the rest. -/
theorem div_eq_div_add_mod (n : ℕ) {d : ℕ} (hd : 0 < d) :
    (n : ℚ) / d = (n / d : ℕ) + (n % d : ℕ) / d := by
  have hpos : (0 : ℚ) < d := by exact_mod_cast hd
  have hsplit : (n : ℚ) = d * (n / d : ℕ) + (n % d : ℕ) := by
    exact_mod_cast (Nat.div_add_mod n d).symm
  rw [hsplit]
  field_simp

/-- No whole number is nearer. -/
theorem halfEven_near (n : ℕ) {d : ℕ} (hd : 0 < d) :
    |(n : ℚ) / d - halfEven n d| ≤ 1 / 2 := by
  have hpos : (0 : ℚ) < d := by exact_mod_cast hd
  have hnonneg : (0 : ℚ) ≤ (n % d : ℕ) / d := by positivity
  have hlt : ((n % d : ℕ) : ℚ) / d < 1 := by
    rw [div_lt_one hpos]
    exact_mod_cast Nat.mod_lt n hd
  rw [div_eq_div_add_mod n hd, halfEven, abs_le]
  split
  · next hdown =>
    have hle : ((n % d : ℕ) : ℚ) / d ≤ 1 / 2 := by
      rw [div_le_div_iff₀ hpos two_pos]
      exact_mod_cast (by omega : n % d * 2 ≤ 1 * d)
    constructor <;> linarith
  · next hup =>
    have hge : 1 / 2 ≤ ((n % d : ℕ) : ℚ) / d := by
      rw [div_le_div_iff₀ two_pos hpos]
      exact_mod_cast (by omega : 1 * d ≤ n % d * 2)
    push_cast
    constructor <;> linarith

/-! ### Digits -/

theorem mod_ten_lt (m : ℕ) : m % 10 < 10 := Nat.mod_lt m (by decide)

section Digit

variable {d : ℕ} (hd : d < 10)

include hd

theorem toNat_digit : (UInt8.ofNat (48 + d)).toNat = 48 + d := by
  rw [UInt8.toNat_ofNat']
  exact Nat.mod_eq_of_lt (by omega)

theorem digit_ofNat : 48 ≤ UInt8.ofNat (48 + d) ∧ UInt8.ofNat (48 + d) ≤ 57 := by
  rw [UInt8.le_iff_toNat_le, UInt8.le_iff_toNat_le, toNat_digit hd]
  exact ⟨by simp, by simp; omega⟩

theorem digitsValue_digit : digitsValue [UInt8.ofNat (48 + d)] = some d := by
  rw [digitsValue, if_neg (by simp), List.foldl_cons, List.foldl_nil, Option.bind_some,
    if_pos (digit_ofNat hd), toNat_digit hd]
  simp

/-- The value of a string of digits grows by one digit at a time. -/
theorem digitsValue_concat {s : Str} (hs : s ≠ []) :
    digitsValue (s ++ [UInt8.ofNat (48 + d)]) = (digitsValue s).map (10 * · + d) := by
  rw [digitsValue, digitsValue, if_neg (by simp), if_neg hs, List.foldl_append, List.foldl_cons,
    List.foldl_nil]
  simp only [if_pos (digit_ofNat hd), toNat_digit hd, Nat.add_sub_cancel_left]
  exact (Option.map_eq_bind ..).symm

end Digit

/-- The last `k` digits of a number, with noughts in front if there are fewer. -/
def lastDigits : ℕ → ℕ → Str
  | 0, _ => []
  | k + 1, m => lastDigits k (m / 10) ++ [UInt8.ofNat (48 + m % 10)]

@[simp] theorem length_lastDigits (k m : ℕ) : (lastDigits k m).length = k := by
  induction k generalizing m with
  | zero => rfl
  | succ k ih => rw [lastDigits, List.length_append, ih, List.length_singleton]

theorem mem_lastDigits {k m : ℕ} {c : UInt8} (hc : c ∈ lastDigits k m) : 48 ≤ c ∧ c ≤ 57 := by
  induction k generalizing m with
  | zero => cases hc
  | succ k ih =>
    rcases List.mem_append.mp hc with hc | hc
    · exact ih hc
    · rw [List.mem_singleton.mp hc]
      exact digit_ofNat (mod_ten_lt m)

/-- They are read as what is left of the number. -/
theorem digitsValue_lastDigits (k m : ℕ) :
    digitsValue (lastDigits (k + 1) m) = some (m % 10 ^ (k + 1)) := by
  induction k generalizing m with
  | zero =>
    rw [lastDigits, lastDigits, List.nil_append, digitsValue_digit (mod_ten_lt m),
      zero_add, pow_one]
  | succ k ih =>
    have hne : lastDigits (k + 1) (m / 10) ≠ [] := by
      rw [← List.length_pos_iff, length_lastDigits]
      omega
    rw [lastDigits, digitsValue_concat (mod_ten_lt m) hne, ih, Option.map_some,
      pow_succ' 10 (k + 1), Nat.mod_mul, Nat.add_comm]

/-! ### Plain numbers -/

/-- A number in print, with `k` decimals: `m / 10 ^ k`, with a minus sign if there is one. -/
def plain (neg : Bool) (m k : ℕ) : Str :=
  (if neg then [45] else []) ++ digits (m / 10 ^ k) ++ if k = 0 then [] else 46 :: lastDigits k m

/-- The factor that a minus sign stands for. -/
def signOf (neg : Bool) : ℚ := if neg then -1 else 1

theorem abs_signOf (neg : Bool) : |signOf neg| = 1 := by
  cases neg <;> simp [signOf]

theorem exists_signOf_mul (neg : Bool) (m : ℕ) : ∃ n : ℤ, signOf neg * m = n := by
  cases neg with
  | true => exact ⟨-m, by simp [signOf]⟩
  | false => exact ⟨m, by simp [signOf]⟩

/-- The value of a number in print that has no sign. -/
def unsignedValue (s : Str) : Option ℚ :=
  match splitTwo s [46] with
  | [whole, decimals] => (digitsValue whole).bind fun n =>
      (digitsValue decimals).map fun f : ℕ => (n : ℚ) + f / 10 ^ decimals.length
  | _ => (digitsValue s).map fun n : ℕ => (n : ℚ)

/-- The value of a number in print. -/
def decimalValue : Str → Option ℚ
  | 45 :: s => (unsignedValue s).map fun q => -q
  | s => unsignedValue s

theorem digits_ne_nil (n : ℕ) : digits n ≠ [] := by simp [digits]

theorem point_notMem_digits (n : ℕ) : 46 ∉ digits n :=
  fun h => absurd (mem_digits h).1 (by decide)

theorem point_notMem_lastDigits (k m : ℕ) : 46 ∉ lastDigits k m :=
  fun h => absurd (mem_lastDigits h).1 (by decide)

theorem unsignedValue_plain (m k : ℕ) :
    unsignedValue (plain false m k) = some ((m : ℚ) / 10 ^ k) := by
  rw [plain, if_neg Bool.false_ne_true, List.nil_append]
  cases k with
  | zero =>
    have hone : splitTwo (digits m) [46] = [digits m] := by
      rw [splitTwo, index_of_notMem (point_notMem_digits m)]
    simp [unsignedValue, hone, digitsValue_digits]
  | succ k =>
    have hsum : (m : ℚ) / 10 ^ (k + 1) =
        (m / 10 ^ (k + 1) : ℕ) + ((m % 10 ^ (k + 1) : ℕ) : ℚ) / 10 ^ (k + 1) := by
      exact_mod_cast div_eq_div_add_mod m (by positivity : 0 < 10 ^ (k + 1))
    rw [if_neg (Nat.succ_ne_zero k), unsignedValue, splitTwo_append_cons (point_notMem_digits _)]
    simp only [digitsValue_digits, digitsValue_lastDigits, Option.bind_some, Option.map_some,
      length_lastDigits, hsum]

/-- **A plain number is read back.** -/
theorem decimalValue_plain (neg : Bool) (m k : ℕ) :
    decimalValue (plain neg m k) = some (signOf neg * (m / 10 ^ k)) := by
  cases neg with
  | true =>
    have hminus : plain true m k = 45 :: plain false m k := rfl
    rw [hminus, decimalValue, unsignedValue_plain]
    simp [signOf]
  | false =>
    -- the first byte is a digit, so there is no sign
    have hhead : ∀ s, plain false m k ≠ 45 :: s := by
      intro s h
      obtain ⟨c, tail, hdigits⟩ := List.exists_cons_of_ne_nil (digits_ne_nil (m / 10 ^ k))
      have hc : 48 ≤ c := (mem_digits (hdigits ▸ List.mem_cons_self)).1
      rw [plain, hdigits] at h
      obtain ⟨rfl, -⟩ := List.cons.inj h
      exact absurd hc (by decide)
    rw [decimalValue.eq_2 _ hhead, unsignedValue_plain]
    simp [signOf]

/-- A number in print has so many decimals at most, and neither a nought at the end of them nor a
point without any. -/
def IsTidy (places : ℕ) (s : Str) : Prop :=
  ∀ whole decimals, s = whole ++ 46 :: decimals →
    decimals ≠ [] ∧ decimals.length ≤ places ∧ decimals.getLast? ≠ some 48

/-- The last byte of a plain number that has decimals. -/
theorem getLast?_plain (neg : Bool) (m k : ℕ) :
    (plain neg m (k + 1)).getLast? = some (UInt8.ofNat (48 + m % 10)) := by
  rw [plain, if_neg (Nat.succ_ne_zero k), lastDigits, ← List.cons_append, ← List.append_assoc,
    List.getLast?_concat]

theorem ofNat_eq_zero_digit_iff {d : ℕ} (hd : d < 10) : UInt8.ofNat (48 + d) = 48 ↔ d = 0 := by
  rw [← UInt8.toNat_inj, toNat_digit hd]
  simp

/-- A plain number without a nought at the end is tidy if it has few decimals. -/
theorem isTidy_plain_iff {neg : Bool} {m k places : ℕ} (h : k = 0 ∨ m % 10 ≠ 0) :
    IsTidy places (plain neg m k) ↔ k ≤ places := by
  have hsign : 46 ∉ (if neg then [45] else []) ++ digits (m / 10 ^ k) := by
    rw [List.mem_append, not_or]
    exact ⟨by cases neg <;> simp, point_notMem_digits _⟩
  cases k with
  | zero =>
    have htidy : IsTidy places (plain neg m 0) := by
      intro whole decimals heq
      rw [plain, if_pos rfl, List.append_nil] at heq
      exact absurd (heq ▸ List.mem_append_right _ List.mem_cons_self) hsign
    simp [htidy]
  | succ k =>
    have hlast : (lastDigits (k + 1) m).getLast? ≠ some 48 := by
      rw [lastDigits, List.getLast?_concat, Ne, Option.some_inj,
        ofNat_eq_zero_digit_iff (mod_ten_lt m)]
      exact h.resolve_left (Nat.succ_ne_zero k)
    have hplain : plain neg m (k + 1) = (if neg then [45] else []) ++ digits (m / 10 ^ (k + 1)) ++
        46 :: lastDigits (k + 1) m := by
      rw [plain, if_neg (Nat.succ_ne_zero k)]
    constructor
    · intro htidy
      simpa using (htidy _ _ hplain).2.1
    · intro hle whole decimals heq
      rw [hplain, List.append_cons_inj_of_notMem hsign (point_notMem_lastDigits _ _)] at heq
      obtain ⟨-, -, rfl⟩ := heq
      exact ⟨by rw [← List.length_pos_iff]; simp, by simpa using hle, hlast⟩

/-! ### Numbers with finitely many decimals -/

/-- A number with finitely many decimals: `mantissa / 10 ^ scale`, with a sign. -/
structure Decimal where
  neg : Bool
  mantissa : ℕ
  scale : ℕ
  deriving DecidableEq, Repr

namespace Decimal

variable (x : Decimal)

/-- The number itself. -/
def toRat : ℚ := signOf x.neg * (x.mantissa / 10 ^ x.scale)

/-- The number rounded to so many decimals, without its sign and without a point. -/
def rounded (places : ℕ) : ℕ := halfEven (x.mantissa * 10 ^ places) (10 ^ x.scale)

/-- `strconv.FormatFloat` with format `'f'` and a precision. -/
def formatFixed (places : ℕ) : Str := plain x.neg (x.rounded places) places

/-- The noughts at the end of so many decimals are taken off: what is left, and the number of
decimals that are left. -/
def stripped : ℕ → ℕ → ℕ × ℕ
  | 0, m => (m, 0)
  | k + 1, m => if m % 10 = 0 then stripped k (m / 10) else (m, k + 1)

/-- `strconv.FormatFloat` with format `'f'` and precision `-1`. -/
def formatShortest : Str :=
  plain x.neg (stripped x.scale x.mantissa).1 (stripped x.scale x.mantissa).2

/-- The number has no more than so many decimals. -/
def Fits (places : ℕ) : Prop := 10 ^ x.scale ∣ x.mantissa * 10 ^ places

instance (places : ℕ) : Decidable (x.Fits places) :=
  inferInstanceAs (Decidable (10 ^ x.scale ∣ x.mantissa * 10 ^ places))

/-- **Taking noughts off** leaves the number as it is, and no nought. -/
theorem stripped_spec (k m : ℕ) :
    m * 10 ^ (stripped k m).2 = (stripped k m).1 * 10 ^ k ∧
      ((stripped k m).2 = 0 ∨ (stripped k m).1 % 10 ≠ 0) := by
  induction k generalizing m with
  | zero => simp [stripped]
  | succ k ih =>
    rw [stripped]
    split
    · next hzero =>
      obtain ⟨c, rfl⟩ : 10 ∣ m := Nat.dvd_of_mod_eq_zero hzero
      rw [Nat.mul_div_cancel_left c (by decide)]
      obtain ⟨hvalue, hlast⟩ := ih c
      refine ⟨?_, hlast⟩
      rw [mul_assoc, hvalue]
      ring
    · next hne => exact ⟨rfl, .inr hne⟩

/-- The decimals that are left are those that the number needs. -/
theorem stripped_le_iff (places : ℕ) :
    (stripped x.scale x.mantissa).2 ≤ places ↔ x.Fits places := by
  obtain ⟨hvalue, hlast⟩ := stripped_spec x.scale x.mantissa
  generalize (stripped x.scale x.mantissa).1 = m at hvalue hlast
  generalize (stripped x.scale x.mantissa).2 = k at hvalue hlast ⊢
  constructor
  · intro hle
    refine ⟨m * 10 ^ (places - k), ?_⟩
    calc x.mantissa * 10 ^ places = x.mantissa * 10 ^ k * 10 ^ (places - k) := by
          rw [mul_assoc, ← pow_add, Nat.add_sub_cancel' hle]
      _ = 10 ^ x.scale * (m * 10 ^ (places - k)) := by
          rw [hvalue]
          ring
  · rintro ⟨c, hc⟩
    by_contra hlt
    -- with more decimals than needed, the last one is a nought
    obtain ⟨j, rfl⟩ : ∃ j, k = places + (j + 1) := ⟨k - places - 1, by omega⟩
    have hm : m * 10 ^ x.scale = c * 10 ^ (j + 1) * 10 ^ x.scale := by
      rw [← hvalue, pow_add, ← mul_assoc, hc]
      ring
    have hmul : m = c * 10 ^ j * 10 := by
      rw [Nat.eq_of_mul_eq_mul_right (by positivity) hm]
      ring
    rcases hlast with hzero | hne
    · omega
    · exact hne (by rw [hmul, Nat.mul_mod_left])

/-- **The shortest form is the number itself**, and as short as it can be. -/
theorem decimalValue_formatShortest : decimalValue x.formatShortest = some x.toRat := by
  obtain ⟨hvalue, -⟩ := stripped_spec x.scale x.mantissa
  rw [formatShortest, decimalValue_plain, toRat]
  congr 2
  rw [div_eq_div_iff (by positivity) (by positivity)]
  exact_mod_cast hvalue.symm

theorem isTidy_formatShortest_iff (places : ℕ) :
    IsTidy places x.formatShortest ↔ x.Fits places := by
  rw [formatShortest, isTidy_plain_iff (stripped_spec x.scale x.mantissa).2, stripped_le_iff]

/-- **The fixed form is the number rounded.** -/
theorem isRounded_formatFixed (places : ℕ) :
    ∃ q, decimalValue (x.formatFixed places) = some q ∧ IsRounded places x.toRat q := by
  refine ⟨_, decimalValue_plain x.neg (x.rounded places) places, ?_, ?_⟩
  · rw [mul_assoc, div_mul_cancel₀ _ (by positivity)]
    exact exists_signOf_mul x.neg (x.rounded places)
  · have hnear := halfEven_near (x.mantissa * 10 ^ places) (d := 10 ^ x.scale) (by positivity)
    push_cast at hnear
    calc |x.toRat - signOf x.neg * (x.rounded places / 10 ^ places)| * 10 ^ places
        = |(x.mantissa : ℚ) / 10 ^ x.scale - x.rounded places / 10 ^ places| * |10 ^ places| := by
          rw [toRat, ← mul_sub, abs_mul, abs_signOf, one_mul, abs_of_pos (a := (10 : ℚ) ^ places)
            (by positivity)]
      _ = |(x.mantissa : ℚ) * 10 ^ places / 10 ^ x.scale - x.rounded places| := by
          rw [← abs_mul, sub_mul, div_mul_cancel₀ _ (by positivity), div_mul_eq_mul_div]
      _ ≤ 1 / 2 := hnear

/-- A number with few decimals is rounded to itself. -/
theorem isRounded_toRat {places : ℕ} (h : x.Fits places) : IsRounded places x.toRat x.toRat := by
  obtain ⟨c, hc⟩ := h
  have hwhole : (x.mantissa : ℚ) / 10 ^ x.scale * 10 ^ places = c := by
    rw [div_mul_eq_mul_div, div_eq_iff (by positivity), mul_comm (c : ℚ)]
    exact_mod_cast hc
  refine ⟨?_, by simp⟩
  rw [toRat, mul_assoc, hwhole]
  exact exists_signOf_mul x.neg c

end Decimal

end Go
