import HertzBeat.Lib.Go
import Mathlib.Data.List.Sort

/-!
# Values of interface type

What a field of interface type holds after JSON was decoded into it, `Go.Value`,
and the two ways in which the source prints one: the verb `%v`, which is
`Go.Value.sprint`, and the plain decimal form of a number, `Go.Float.formatF`.

Numbers are held by their decimal digits. Both formats print the digits of the
shortest decimal that is read back as the number, so it is these digits a number
consists of here, and the only arithmetic of printing is where the point goes.
-/

namespace Go

/-- A finite floating-point number, as the shortest decimal that is read back as
it: the digits `0.d₁d₂… · 10 ^ point`. -/
structure Float where
  neg : Bool
  digits : List (Fin 10)
  point : ℤ
  /-- There is no leading zero. -/
  head_ne : digits.head? ≠ some 0 := by decide
  /-- There is no trailing zero. -/
  getLast_ne : digits.getLast? ≠ some 0 := by decide
  /-- Zero has no digits, and no place for the point but one. -/
  point_zero : digits = [] → point = 0 := by decide
  deriving DecidableEq, Repr

/-- A power of ten with `point` digits before the point. -/
def Float.powerOfTen (point : ℤ) : Float where
  neg := false
  digits := [1]
  point := point
  point_zero := by simp

/-- A value of interface type. -/
inductive Value where
  /-- nil. -/
  | null
  | bool (b : Bool)
  /-- A `float64`. -/
  | float (x : Float)
  /-- An `int`. -/
  | int (n : ℤ)
  | str (s : Str)
  /-- A slice of such values. -/
  | arr (vs : List Value)
  /-- A map from strings to such values, in some order. -/
  | obj (kvs : List (Str × Value))

instance : Inhabited Value := ⟨.null⟩

/-! ### Numbers -/

/-- `strconv.Itoa`. -/
def itoa (n : ℤ) : Str := str (toString n)

namespace Float

/-- The byte of a digit. -/
def digitByte (d : Fin 10) : UInt8 := UInt8.ofNat (48 + d)

/-- The minus sign, if there is one. -/
def sign (x : Float) : Str := if x.neg then str "-" else []

/-- `n` digits from position `i` on, where the digits stand at `0, 1, …` and there is
a zero everywhere else. -/
def digitsFrom (x : Float) (i : ℤ) (n : ℕ) : Str :=
  (List.range n).map fun k =>
    let j := i + k
    if 0 ≤ j then ((x.digits[j.toNat]?).elim 48 digitByte) else 48

/-- `strconv.FormatFloat` with format `'f'` and precision `-1`: as many digits behind
the point as there are. -/
def formatF (x : Float) : Str :=
  let whole := if 0 < x.point then x.digitsFrom 0 x.point.toNat else str "0"
  let prec := (x.digits.length - x.point).toNat
  x.sign ++ whole ++ if 0 < prec then str "." ++ x.digitsFrom x.point prec else []

/-- An exponent: its sign, and at least two digits. -/
def formatExponent (e : ℤ) : Str :=
  (if e < 0 then str "-" else str "+") ++ (if e.natAbs < 10 then str "0" else []) ++
    itoa e.natAbs

/-- `strconv.FormatFloat` with format `'e'`, all digits. -/
def formatE (x : Float) : Str :=
  let tail := x.digits.drop 1
  x.sign ++ x.digitsFrom 0 1 ++ (if tail = [] then [] else str "." ++ tail.map digitByte) ++
    str "e" ++ formatExponent (if x.digits = [] then 0 else x.point - 1)

/-- `strconv.FormatFloat` with format `'g'` and precision `-1`: the exponent form for
an exponent below `-4` or of at least `6`, and the plain form in between. -/
def formatG (x : Float) : Str :=
  if x.point - 1 < -4 ∨ 6 ≤ x.point - 1 then x.formatE else x.formatF

theorem letter_notMem_digits (l : List (Fin 10)) : 101 ∉ l.map digitByte := by
  intro h
  obtain ⟨d, -, hd⟩ := List.mem_map.mp h
  revert d
  decide

/-- The plain form is made of digits, a sign and a point. -/
theorem letter_notMem_formatF (x : Float) : 101 ∉ x.formatF := by
  have hsign : 101 ∉ x.sign := by
    unfold sign
    split_ifs <;> decide
  have hdigits : ∀ i n, 101 ∉ x.digitsFrom i n := by
    intro i n h
    obtain ⟨k, -, hk⟩ := List.mem_map.mp h
    simp only at hk
    split_ifs at hk with hj
    · rcases hd : x.digits[(i + k).toNat]? with _ | d
      · rw [hd] at hk
        exact absurd hk (by decide)
      · rw [hd] at hk
        exact letter_notMem_digits [d] (List.mem_singleton.mpr hk.symm)
    · exact absurd hk (by decide)
  unfold formatF
  simp only [List.mem_append, not_or]
  refine ⟨⟨hsign, ?_⟩, ?_⟩
  · split_ifs
    · exact hdigits _ _
    · decide
  · split_ifs
    · rw [List.mem_append, not_or]
      exact ⟨by decide, hdigits _ _⟩
    · exact List.not_mem_nil

theorem letter_mem_formatE (x : Float) : 101 ∈ x.formatE := by
  have hletter : 101 ∈ str "e" := by decide
  simp [formatE, hletter]

/-- **The two forms of a number are the same exactly if the exponent form is not taken.** -/
theorem formatG_eq_formatF_iff (x : Float) :
    x.formatG = x.formatF ↔ ¬(x.point - 1 < -4 ∨ 6 ≤ x.point - 1) := by
  unfold formatG
  split_ifs with h
  · refine iff_of_false (fun heq => x.letter_notMem_formatF ?_) (not_not.mpr h)
    rw [← heq]
    exact x.letter_mem_formatE
  · exact iff_of_true rfl h

end Float

/-! ### The verb `%v` -/

/-- The bytewise order of keys, in which a map is printed. -/
def keyLe (a b : Str × Str) : Bool := decide (a.1 ≤ b.1)

/-- Strings with blanks between them. -/
def spaced (ss : List Str) : Str := List.intercalate (str " ") ss

mutual

/-- `fmt.Sprintf("%v", v)`. -/
def Value.sprint : Value → Str
  | .null => Go.str "<nil>"
  | .bool b => Go.str (if b then "true" else "false")
  | .float x => x.formatG
  | .int n => itoa n
  | .str s => s
  | .arr vs => Go.str "[" ++ spaced (sprintAll vs) ++ Go.str "]"
  | .obj kvs => Go.str "map[" ++
      spaced (((sprintEntries kvs).insertionSort (keyLe · ·)).map fun e =>
        e.1 ++ Go.str ":" ++ e.2) ++ Go.str "]"

/-- The elements of a slice, printed. -/
def sprintAll : List Value → List Str
  | [] => []
  | v :: vs => v.sprint :: sprintAll vs

/-- The entries of a map, with their values printed. -/
def sprintEntries : List (Str × Value) → List (Str × Str)
  | [] => []
  | (k, v) :: kvs => (k, v.sprint) :: sprintEntries kvs

end

/-! ### What is printed determines the integer -/

theorem str_injective : Function.Injective str := by
  intro s t h
  exact String.toByteArray_inj.mp (ByteArray.ext (Array.toList_inj.mp h))

/-- The digits of a number determine it. -/
theorem toDigits_injective : Function.Injective (Nat.toDigits 10) := by
  intro m n h
  have hm := @Nat.ofDigitChars_toDigits 10 m (by decide) le_rfl
  rw [h, Nat.ofDigitChars_toDigits (by decide) le_rfl] at hm
  exact hm.symm

theorem toList_toString_ofNat (n : ℕ) : (toString (Int.ofNat n)).toList = Nat.toDigits 10 n :=
  String.toList_ofList

theorem toList_toString_negSucc (n : ℕ) :
    (toString (Int.negSucc n)).toList = '-' :: Nat.toDigits 10 (n + 1) := by
  have hsign : toString (Int.negSucc n) = "-" ++ String.ofList (Nat.toDigits 10 (n + 1)) := rfl
  rw [hsign, String.toList_append, String.toList_ofList, String.toList_ofList]
  rfl

/-- Digits do not start with a sign. -/
theorem toDigits_ne_sign (m : ℕ) (cs : List Char) : Nat.toDigits 10 m ≠ '-' :: cs := by
  intro h
  have hdigit := @Nat.isDigit_of_mem_toDigits 10 m '-' (by decide) le_rfl (by simp [h])
  exact absurd hdigit (by decide)

/-- **Integers that are printed alike are equal.** -/
theorem itoa_injective : Function.Injective itoa := by
  intro a b h
  have hchars := congrArg String.toList (str_injective h)
  cases a with
  | ofNat m =>
    cases b with
    | ofNat n =>
      rw [toList_toString_ofNat, toList_toString_ofNat] at hchars
      exact congrArg Int.ofNat (toDigits_injective hchars)
    | negSucc n =>
      rw [toList_toString_ofNat, toList_toString_negSucc] at hchars
      exact absurd hchars (toDigits_ne_sign m _)
  | negSucc m =>
    cases b with
    | ofNat n =>
      rw [toList_toString_ofNat, toList_toString_negSucc] at hchars
      exact absurd hchars.symm (toDigits_ne_sign n _)
    | negSucc n =>
      rw [toList_toString_negSucc, toList_toString_negSucc] at hchars
      exact congrArg Int.negSucc (Nat.succ.inj (toDigits_injective (List.cons.inj hchars).2))

end Go
