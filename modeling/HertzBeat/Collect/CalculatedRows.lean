import HertzBeat.Collect.CalculateFields
import HertzBeat.Lib.Assign

/-!
# The shape of calculated rows

`CalculateFields` turns rows of aliases into rows of fields. Whatever the expressions, the units
and the formats are, each row becomes one row with one column for each field, and no row is
calculated from another: `HertzBeat.Calculator.calculateFieldsWith_shape`.

The calculations and the units of a metric are of interface type. What was decoded from JSON is
a list of items, which is what `HertzBeat.Calculator.calculateFields` reads; here they are of any
of the types that the source distinguishes (`HertzBeat.Calculator.calculateFieldsWith`).
-/

namespace HertzBeat

open Go (Str)

namespace Calculator

variable {F Program : Type} [NatCast F] [Mul F] [Div F] (env : Calculator F Program)

/-- `CalculateFields`, for calculations and units of any dynamic type. -/
def calculateFieldsWith (calculates : Calculates) (units : Units) (metrics : Metrics Option)
    (result : CollectRepMetricsData) : CollectRepMetricsData :=
  let fieldMaps := parseCalculates env calculates
  let conversions := parseUnits env units
  { result with
    priority := metrics.priority
    fields := metrics.fields.getD []
    values := if metrics.aliases = [] then [] else result.values.map fun columns =>
      fieldColumns env fieldMaps conversions
        ((metrics.aliases.zip columns).foldl (readAlias env) {}) (metrics.fields.getD []) }

/-- A metric that was decoded has its calculations and units as items. -/
theorem calculateFields_eq (metrics : Metrics Option) (result : CollectRepMetricsData) :
    calculateFields env metrics result = calculateFieldsWith env (.ofValue metrics.calculates)
      (.ofValue metrics.units) metrics result :=
  rfl

/-! ### One column -/

/-- **What the column of a field can be**: never empty, and for a field of numbers the null value
or a number that was printed. -/
structure ColumnOf (field : Field) (column : Str) : Prop where
  ne_nil : column ≠ []
  number : field.type = typeNumber → column = nullValue ∨ ∃ x, column = formatNumber env x

variable {env} {fieldMaps : FieldMaps Program} {conversions : Go.Map Str Conversion}
  {maps : RowMaps F}

/-- The value of a field of numbers is null or a number that was printed. -/
theorem numberValue_cases (realField value : Str) :
    numberValue env conversions realField value = nullValue ∨
      ∃ x, numberValue env conversions realField value = formatNumber env x := by
  unfold numberValue
  split
  · exact .inl rfl
  · split
    · exact .inr ⟨_, rfl⟩
    · split <;> exact .inr ⟨_, rfl⟩

theorem columnOf_fieldValue (field : Field) :
    ColumnOf env field (fieldValue env fieldMaps conversions maps field) := by
  have hnull : nullValue ≠ [] := by decide
  simp only [fieldValue]
  -- whether the value is treated as a number, and whether there is none in the end
  split_ifs with hnumber hempty hempty
  · exact ⟨hnull, fun _ => .inl rfl⟩
  · exact ⟨hempty, fun _ => numberValue_cases _ _⟩
  · exact ⟨hnull, fun _ => .inl rfl⟩
  · refine ⟨hempty, fun htype => .inl ?_⟩
    by_contra hraw
    exact hnumber ⟨hempty, hraw, htype⟩

/-! ### One row -/

variable (env) in
/-- **A row has one column for each field, in their order.** -/
def RowOf (fields : List Field) (row : List Str) : Prop := List.Forall₂ (ColumnOf env) fields row

/-- By induction on the fields that are left; the maps may be any. -/
theorem rowOf_fieldColumns (fields : List Field) :
    RowOf env fields (fieldColumns env fieldMaps conversions maps fields) := by
  induction fields generalizing maps with
  | nil => exact .nil
  | cons field fields ih => exact .cons (columnOf_fieldValue field) ih

/-! ### The maps along a row -/

variable (env fieldMaps conversions) in
/-- The maps after some of the fields. -/
def mapsAfter : RowMaps F → List Field → RowMaps F
  | maps, [] => maps
  | maps, field :: fields =>
    mapsAfter
      (RowMaps.record env maps field.field (fieldValue env fieldMaps conversions maps field)) fields

theorem fieldColumns_append (fields fields' : List Field) :
    fieldColumns env fieldMaps conversions maps (fields ++ fields') =
      fieldColumns env fieldMaps conversions maps fields ++
        fieldColumns env fieldMaps conversions (mapsAfter env fieldMaps conversions maps fields)
          fields' := by
  induction fields generalizing maps with
  | nil => rfl
  | cons field fields ih => exact congrArg (_ :: ·) ih

theorem length_fieldColumns (fields : List Field) :
    (fieldColumns env fieldMaps conversions maps fields).length = fields.length :=
  (rowOf_fieldColumns fields).length_eq.symm

theorem mapsAfter_append (fields fields' : List Field) :
    mapsAfter env fieldMaps conversions maps (fields ++ fields') =
      mapsAfter env fieldMaps conversions (mapsAfter env fieldMaps conversions maps fields)
        fields' := by
  induction fields generalizing maps with
  | nil => rfl
  | cons field fields ih => exact ih

/-- **The column of a field**, from the maps as they are when it is reached. -/
theorem getElem?_fieldColumns (fields fields' : List Field) (field : Field) :
    (fieldColumns env fieldMaps conversions maps (fields ++ field :: fields'))[fields.length]? =
      some (fieldValue env fieldMaps conversions (mapsAfter env fieldMaps conversions maps fields)
        field) := by
  rw [fieldColumns_append, List.getElem?_append_right (length_fieldColumns fields).le,
    length_fieldColumns, Nat.sub_self]
  rfl

omit [Mul F] [Div F] in
theorem aliasValues_record (maps : RowMaps F) (field value : Str) :
    (RowMaps.record env maps field value).aliasValues = maps.aliasValues := by
  unfold RowMaps.record
  split_ifs <;> rfl

/-- The values of the aliases stay as they were read. -/
theorem aliasValues_mapsAfter (fields : List Field) :
    (mapsAfter env fieldMaps conversions maps fields).aliasValues = maps.aliasValues := by
  induction fields generalizing maps with
  | nil => rfl
  | cons field fields ih => exact ih.trans (aliasValues_record maps _ _)

omit [Mul F] [Div F] in
/-- The aliases that have a value are assigned it one after the other. -/
theorem aliasValues_foldl_readAlias (columns : List (Str × Str)) (maps : RowMaps F) :
    (columns.foldl (readAlias env) maps).aliasValues =
      Go.assign maps.aliasValues (columns.filter (·.2 ≠ nullValue)) := by
  induction columns generalizing maps with
  | nil => rfl
  | cons column columns ih =>
    rw [List.foldl_cons, ih, readAlias]
    by_cases hnull : column.2 = nullValue
    · rw [if_pos hnull, aliasValues_record, List.filter_cons_of_neg (by simpa using hnull)]
    · rw [if_neg hnull, aliasValues_record, List.filter_cons_of_pos (by simpa using hnull)]
      rfl

omit [Mul F] [Div F] in
/-- What is no alias has no value among those that were collected. -/
theorem aliasValues_lookup_eq_none {aliases columns : List Str} {name : Str} (h : name ∉ aliases) :
    (((aliases.zip columns).foldl (readAlias env) {}).aliasValues).lookup name = none := by
  rw [aliasValues_foldl_readAlias, Go.lookup_assign]
  have hnone : Go.lastValue ((aliases.zip columns).filter (·.2 ≠ nullValue)) name = none := by
    rw [Go.lastValue_eq_none_iff]
    intro hmem
    obtain ⟨e, he, rfl⟩ := List.mem_map.mp hmem
    exact h (List.of_mem_zip (List.mem_of_mem_filter he)).1
  rw [hnone]
  rfl

omit [Mul F] [Div F] in
/-- The value of an alias is the last that its columns have. -/
theorem aliasValues_lookup_of_lastValue {aliases columns : List Str} {name value : Str}
    (h : Go.lastValue (aliases.zip columns) name = some value) (hnull : value ≠ nullValue) :
    (((aliases.zip columns).foldl (readAlias env) {}).aliasValues).lookup name = some value := by
  rw [aliasValues_foldl_readAlias, Go.lookup_assign,
    Go.lastValue_filter h (by simpa using hnull), Option.some_or]

/-! ### All rows -/

/-- A row is calculated from the row at its place. -/
theorem getElem?_calculateFieldsWith {calculates : Calculates} {units : Units}
    {metrics : Metrics Option} {result : CollectRepMetricsData} (haliases : metrics.aliases ≠ [])
    {r : ℕ} {columns : List Str} (hrow : result.values[r]? = some columns) :
    (calculateFieldsWith env calculates units metrics result).values[r]? =
      some (fieldColumns env (parseCalculates env calculates) (parseUnits env units)
        ((metrics.aliases.zip columns).foldl (readAlias env) {}) (metrics.fields.getD [])) := by
  simp only [calculateFieldsWith, if_neg haliases, List.getElem?_map, hrow, Option.map_some]

/-- **Calculated rows**: there are as many as rows that were collected, each has one column for
each field, and the rows of two lists put together are those of the first followed by those of the
second. -/
theorem calculateFieldsWith_shape (env : Calculator F Program) (calculates : Calculates)
    (units : Units) (metrics : Metrics Option) (haliases : metrics.aliases ≠ []) :
    (∀ result : CollectRepMetricsData,
      (calculateFieldsWith env calculates units metrics result).values.length =
          result.values.length ∧
        ∀ row ∈ (calculateFieldsWith env calculates units metrics result).values,
          row.length = (metrics.fields.getD []).length ∧
            RowOf env (metrics.fields.getD []) row) ∧
    ∀ (result : CollectRepMetricsData) (rows₁ rows₂ : List (List Str)),
      (calculateFieldsWith env calculates units metrics
          { result with values := rows₁ ++ rows₂ }).values =
        (calculateFieldsWith env calculates units metrics { result with values := rows₁ }).values ++
          (calculateFieldsWith env calculates units metrics
            { result with values := rows₂ }).values := by
  simp only [calculateFieldsWith, if_neg haliases]
  refine ⟨fun result => ⟨List.length_map _, fun row hrow => ?_⟩, fun result rows₁ rows₂ => ?_⟩
  · obtain ⟨columns, -, rfl⟩ := List.mem_map.mp hrow
    have hrow := @rowOf_fieldColumns _ _ _ _ _ env (parseCalculates env calculates)
      (parseUnits env units) ((metrics.aliases.zip columns).foldl (readAlias env) {})
      (metrics.fields.getD [])
    exact ⟨hrow.length_eq.symm, hrow⟩
  · exact List.map_append

/-- A calculator of natural numbers that knows no expressions. -/
def plainCalculator : Calculator ℕ Empty where
  text := .ascii
  compile := fun _ => none
  run := fun program => program.elim
  parseFloat := fun s => if s = Go.str "5" then some 5 else none
  formatFixed := Go.itoa ∘ Int.ofNat
  formatShortest := Go.itoa ∘ Int.ofNat

/-- A metric with one alias and two fields. -/
def loadMetrics : Metrics Option :=
  { Metrics.bare (Go.str "cpu") (Go.str "ssh") with
    aliasFields := some [Go.str "load"]
    fields := some [{ field := Go.str "load" }, { field := Go.str "name", type := typeString }] }

theorem calculateFieldsWith_shape_load :
    loadMetrics.aliases ≠ [] ∧
      (calculateFieldsWith plainCalculator .other .other loadMetrics
        { createSuccessResponse loadMetrics 0 with values := [[Go.str "5"], []] }).values =
          [[Go.str "5", nullValue], [nullValue, nullValue]] ∧
      (calculateFieldsWith plainCalculator .other .other loadMetrics
        { createSuccessResponse loadMetrics 0 with values := [[Go.str "5"], []] }).values.length =
          2 :=
  ⟨by decide, rfl,
    ((calculateFieldsWith_shape plainCalculator .other .other loadMetrics (by decide)).1 _).1⟩

end Calculator

end HertzBeat
