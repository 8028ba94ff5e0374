import HertzBeat.Collect.CalculateForms
import HertzBeat.Collect.UnitConversion
import HertzBeat.Lib.Printed
import Mathlib.Data.List.Infix

/-!
# Values that are written with their units

A value such as `5GB` is taken apart into its number and its unit before it is converted. The two
steps know different units: what can be converted is in the tables of `HertzBeat.Conversion`, and
what can be taken apart begins with one of `HertzBeat.Calculator.unitSymbols`. A value in terabytes
or in seconds is in the tables and has no symbol, and so it is null:
`HertzBeat.Calculator.calculateFieldsWith_suffixed`.

The search for a symbol goes through the whole text, and symbols that are found further on in the
unit must not mislead it. They do not, for what precedes them is no number.
-/

namespace HertzBeat

open Go (Str)

namespace Calculator

variable {F Program : Type}

/-- The bytes of a number in decimal notation. -/
def numeralBytes : Str := Go.str "+-.0123456789eE"

/-- **A number that is followed by a unit**: the unit does not continue the number, and there is no
white space around either. -/
structure Suffixed (env : Calculator F Program) (numeral : Str) (x : F) (unit : Str) : Prop where
  numeral_ne_nil : numeral ≠ []
  numeral_bytes : ∀ c ∈ numeral, c ∈ numeralBytes
  parse : env.parseFloat numeral = some x
  unit_ne_nil : unit ≠ []
  trimmed : ∀ s ∈ [numeral, unit, numeral ++ unit], env.text.trimSpace s = s
  stops : ∀ w, w <+: unit → w ≠ [] → env.parseFloat (env.text.trimSpace (numeral ++ w)) = none

/-- Whether a unit begins with a symbol. -/
def hasSymbol (unit : Str) : Bool := unitSymbols.any (Go.hasPrefix unit)

/-! ### Taking a value apart -/

/-- A search whose hits all give the same. -/
theorem findSome?_eq_ite {α β : Type} {f : α → Option β} {p : α → Bool} {b : β} {l : List α}
    (h : ∀ a ∈ l, f a = if p a then some b else none) :
    l.findSome? f = if l.any p then some b else none := by
  induction l with
  | nil => rfl
  | cons a l ih =>
    rw [List.findSome?_cons, h a List.mem_cons_self, List.any_cons,
      ih fun a' ha' => h a' (List.mem_cons_of_mem _ ha')]
    cases p a <;> rfl

section Extract

variable [NatCast F] {env : Calculator F Program} {numeral unit : Str} {x : F}

/-- No symbol begins with a byte of a number. -/
theorem exists_cons_of_mem_unitSymbols {symbol : Str} (h : symbol ∈ unitSymbols) :
    ∃ c rest, symbol = c :: rest ∧ c ∉ numeralBytes := by
  have hall : ∀ symbol ∈ unitSymbols, symbol ≠ [] ∧ ∀ c ∈ symbol.head?, c ∉ numeralBytes := by
    decide +kernel
  obtain ⟨hne, hhead⟩ := hall symbol h
  obtain ⟨c, rest, rfl⟩ := List.exists_cons_of_ne_nil hne
  exact ⟨c, rest, rfl, hhead c rfl⟩

omit [NatCast F] in
theorem index_symbol_append (h : Suffixed env numeral x unit) {symbol : Str}
    (hsymbol : symbol ∈ unitSymbols) :
    Go.index symbol (numeral ++ unit) = (Go.index symbol unit).map (· + numeral.length) := by
  obtain ⟨c, rest, rfl, hc⟩ := exists_cons_of_mem_unitSymbols hsymbol
  exact Go.index_append (fun hmem => hc (h.numeral_bytes c hmem)) unit

/-- **A value with a unit is taken apart if the unit begins with a symbol**, and not otherwise. -/
theorem extractDoubleAndUnitFromStr_append (h : Suffixed env numeral x unit) :
    extractDoubleAndUnitFromStr env (numeral ++ unit) =
      if hasSymbol unit then some (x, unit) else none := by
  have hne : numeral ++ unit ≠ [] := List.append_ne_nil_of_left_ne_nil h.numeral_ne_nil unit
  have htrim : env.text.trimSpace (numeral ++ unit) = numeral ++ unit := h.trimmed _ (by simp)
  have hparse : env.parseFloat (numeral ++ unit) = none :=
    htrim ▸ h.stops unit List.prefix_rfl h.unit_ne_nil
  rw [extractDoubleAndUnitFromStr, if_neg hne, htrim]
  dsimp only
  rw [hparse]
  dsimp only
  refine findSome?_eq_ite fun symbol hsymbol => ?_
  rw [index_symbol_append h hsymbol]
  simp only [← Go.index_eq_zero_iff]
  -- where the symbol is found in the unit: not at all, at its beginning, or further on
  cases Go.index symbol unit with
  | none => rfl
  | some i =>
    have hpos : i + numeral.length ≠ 0 := by
      have := List.length_pos_of_ne_nil h.numeral_ne_nil
      omega
    obtain ⟨k, hk⟩ : ∃ k, i + numeral.length = k + 1 := Nat.exists_eq_succ_of_ne_zero hpos
    rw [Option.map_some, hk]
    change (env.parseFloat (env.text.trimSpace ((numeral ++ unit).take (k + 1)))).map _ = _
    rw [← hk, Nat.add_comm i, List.take_length_add_append, List.drop_length_add_append]
    cases i with
    | zero =>
      rw [if_pos rfl, List.take_zero, List.append_nil, List.drop_zero,
        h.trimmed numeral (by simp), h.parse, h.trimmed unit (by simp)]
      rfl
    | succ i =>
      -- what precedes it is no number
      have htake : unit.take (i + 1) ≠ [] := by
        simpa using h.unit_ne_nil
      rw [if_neg (by simp), h.stops _ (List.take_prefix _ _) htake]
      rfl

omit [NatCast F] in
/-- A value with a unit is not null. -/
theorem Suffixed.ne_nullValue (h : Suffixed env numeral x unit) : numeral ++ unit ≠ nullValue := by
  obtain ⟨c, rest, rfl⟩ := List.exists_cons_of_ne_nil h.numeral_ne_nil
  intro heq
  have hc : c ∈ numeralBytes := h.numeral_bytes c List.mem_cons_self
  obtain rfl : c = 38 := (List.cons.inj heq).1
  exact absurd hc (by decide)

end Extract

/-! ### Converting it -/

section Convert

variable [NatCast F] [Mul F] [Div F] {env : Calculator F Program} {numeral unit : Str} {x y : F}
  {conversions : Go.Map Str Conversion} {conversion : Conversion}

/-- The value of a field of numbers with a unit. -/
theorem numberValue_append (h : Suffixed env numeral x unit) {field : Str}
    (hconversion : conversions.lookup field = some conversion)
    (hconvert : Conversion.convert env.text x unit conversion.newUnit = .ok y) :
    numberValue env conversions field (numeral ++ unit) =
      if hasSymbol unit then formatNumber env y else nullValue := by
  rw [numberValue, extractDoubleAndUnitFromStr_append h]
  split_ifs with hsymbol
  · dsimp only
    rw [hconversion]
    dsimp only
    rw [if_neg h.unit_ne_nil, hconvert]
  · rfl

theorem fieldValue_append {fieldMaps : FieldMaps Program} {maps : RowMaps F} {field : Field}
    (h : Suffixed env numeral x unit) (htype : field.type = typeNumber)
    (hat : fieldMaps.at field.field = (none, none))
    (hvalue : maps.aliasValues.lookup field.field = some (numeral ++ unit))
    (hconversion : conversions.lookup field.field = some conversion)
    (hconvert : Conversion.convert env.text x unit conversion.newUnit = .ok y)
    (hformat : formatNumber env y ≠ []) :
    fieldValue env fieldMaps conversions maps field =
      if hasSymbol unit then formatNumber env y else nullValue := by
  obtain ⟨hexpression, halias⟩ := Prod.mk.inj hat
  have hraw : rawValue env fieldMaps maps field = numeral ++ unit := by
    rw [rawValue, hexpression]
    dsimp only
    rw [mappedValue, halias, Option.getD_none, if_pos rfl, hvalue, Option.getD_some]
  have hnumber : numeral ++ unit ≠ [] ∧ numeral ++ unit ≠ nullValue ∧ field.type = typeNumber :=
    ⟨List.append_ne_nil_of_left_ne_nil h.numeral_ne_nil unit, h.ne_nullValue, htype⟩
  have hne : (if hasSymbol unit then formatNumber env y else nullValue) ≠ [] := by
    split_ifs
    · exact hformat
    · decide
  simp only [fieldValue, hraw, if_pos hnumber, numberValue_append h hconversion hconvert,
    if_neg hne]

/-- **A value with a unit.** Let a field of numbers without a calculation be an alias, and its value
in a row a number that is followed by a unit which can be converted to the unit that is configured.
The column is the converted number if the unit begins with a symbol, and null otherwise. -/
theorem calculateFieldsWith_suffixed {calculates : Calculates} {units : Units}
    {metrics : Metrics Option} {result : CollectRepMetricsData} {before after : List Field}
    {field : Field} {r : ℕ} {columns : List Str}
    (hfields : metrics.fields = some (before ++ field :: after)) (htype : field.type = typeNumber)
    (hcalculates : ∀ c ∈ calculates.toList, c.field ≠ some field.field)
    (hrow : result.values[r]? = some columns)
    (hvalue : Go.lastValue (metrics.aliases.zip columns) field.field = some (numeral ++ unit))
    (h : Suffixed env numeral x unit)
    (hconversion : (parseUnits env units).lookup field.field = some conversion)
    (hconvert : Conversion.convert env.text x unit conversion.newUnit = .ok y)
    (hformat : formatNumber env y ≠ []) :
    ∃ row, (calculateFieldsWith env calculates units metrics result).values[r]? = some row ∧
      row[before.length]? =
        some (if hasSymbol unit then formatNumber env y else nullValue) := by
  have haliases : metrics.aliases ≠ [] := by
    intro hnil
    rw [hnil] at hvalue
    cases hvalue
  refine ⟨_, getElem?_calculateFieldsWith haliases hrow, ?_⟩
  rw [hfields, Option.getD_some, getElem?_fieldColumns]
  refine congrArg some (fieldValue_append h htype (at_parseCalculates_eq_none hcalculates) ?_
    hconversion hconvert hformat)
  rw [aliasValues_mapsAfter, aliasValues_lookup_of_lastValue hvalue h.ne_nullValue]

end Convert

/-- A calculator of rational numbers that reads and prints the whole ones. -/
def wholeCalculator : Calculator ℚ Empty where
  text := .ascii
  compile := fun _ => none
  run := fun program => program.elim
  parseFloat := fun s => (Go.atoi s).map fun n => n
  formatFixed := fun x => Go.itoa x.floor ++ Go.str ".0000"
  formatShortest := fun x => Go.itoa x.floor

/-- A metric with a field of numbers that is an alias. -/
def diskMetrics : Metrics Option :=
  { Metrics.bare (Go.str "disk") (Go.str "ssh") with
    aliasFields := some [Go.str "size"]
    fields := some [{ field := Go.str "size", type := typeNumber }] }

theorem suffixed_gigabytes : Suffixed wholeCalculator (Go.str "5") 5 (Go.str "GB") where
  numeral_ne_nil := List.cons_ne_nil _ _
  numeral_bytes := List.all_iff_forall_prop.mp rfl
  parse := rfl
  unit_ne_nil := List.cons_ne_nil _ _
  trimmed := List.all_iff_forall_prop.mp rfl
  stops := by
    intro w hw
    have hall : ∀ w ∈ (Go.str "GB").inits, w ≠ [] →
        wholeCalculator.parseFloat (wholeCalculator.text.trimSpace (Go.str "5" ++ w)) = none :=
      List.all_iff_forall_prop.mp rfl
    exact hall w ((List.mem_inits _ _).mpr hw)

/-- What is collected for it, in one row. -/
def diskResult (size : Str) : CollectRepMetricsData :=
  { createSuccessResponse diskMetrics 0 with values := [[size]] }

/-- Gigabytes are converted. -/
theorem calculateFieldsWith_suffixed_gigabytes :
    ∃ row, (calculateFieldsWith wholeCalculator .other (.strings [Go.str "size=GB->MB"]) diskMetrics
        (diskResult (Go.str "5GB"))).values[0]? = some row ∧ row[0]? = some (Go.str "5120") := by
  have hfields : diskMetrics.fields =
      some ([] ++ { field := Go.str "size", type := typeNumber } :: []) := rfl
  have hcalculates : ∀ c ∈ Calculates.other.toList, c.field ≠ some (Go.str "size") :=
    fun c hc => absurd hc List.not_mem_nil
  have hrow : (diskResult (Go.str "5GB")).values[0]? = some [Go.str "5GB"] := rfl
  have hvalue : Go.lastValue (diskMetrics.aliases.zip [Go.str "5GB"]) (Go.str "size") =
      some (Go.str "5" ++ Go.str "GB") := by decide
  have hconversion : (parseUnits wholeCalculator (.strings [Go.str "size=GB->MB"])).lookup
      (Go.str "size") = some ⟨Go.str "size", Go.str "GB", Go.str "MB"⟩ := rfl
  have hconvert : Conversion.convert wholeCalculator.text (5 : ℚ) (Go.str "GB") (Go.str "MB") =
      .ok 5120 := Conversion.convert_eq_ok_iff.mpr ⟨_, rfl, by norm_num⟩
  have hformat : formatNumber wholeCalculator 5120 = Go.str "5120" := rfl
  obtain ⟨row, hrow', hcolumn⟩ := calculateFieldsWith_suffixed hfields rfl hcalculates hrow
    hvalue suffixed_gigabytes hconversion hconvert (by rw [hformat]; decide)
  exact ⟨row, hrow', hcolumn.trans (congrArg some hformat)⟩

/-- **Terabytes are not**, though the conversion of them is defined. -/
theorem not_calculateFieldsWith_suffixed :
    Conversion.convert .ascii (5 : ℚ) (Go.str "TB") (Go.str "GB") = .ok 5120 ∧
      (calculateFieldsWith wholeCalculator .other (.strings [Go.str "size=TB->GB"]) diskMetrics
        (diskResult (Go.str "5TB"))).values = [[nullValue]] := by
  refine ⟨Conversion.convert_eq_ok_iff.mpr ⟨_, rfl, ?_⟩, rfl⟩
  norm_num

end Calculator

end HertzBeat
