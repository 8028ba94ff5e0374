import HertzBeat.Collect.CalculateForms

/-!
# Fields that are referred to by their names

A field may be calculated from one before it. An expression sees the value of that field, for each
value enters the contexts as soon as it is there. But a calculation that is just a name is not
treated as an expression: it is taken for the name of an alias and looked up among the values that
were collected, and the calculated ones are not there. So a field that is calculated by the name of
another one is null, whatever that other one is:
`HertzBeat.Calculator.calculateFieldsWith_named_iff`. What gets through to the expressions is the
script of a structure, and a string that does not look like a name.
-/

namespace HertzBeat

open Go (Str Value)

namespace Calculator

variable {F Program : Type}

/-! ### A calculation that is just a name -/

namespace Calculation

/-- **A calculation that is just a name**: as a string, as an alias or as a script. A script that
does not compile is no calculation. -/
inductive Names (env : Calculator F Program) (field name : Str) : Calculation → Prop
  | ofString {calculate : Str} (h : splitCalculateString calculate = [field, name]) :
    Names env field name (.string calculate)
  | ofAlias : Names env field name (.struct { field := field, aliasField := name })
  | ofScript (h : (env.compile name).isSome) :
    Names env field name (.struct { field := field, script := name })

/-- Whether a calculation that is just a name is run as an expression. -/
def IsRun (env : Calculator F Program) (field name : Str) : Calculation → Prop
  | string _ => name ≠ field ∧ ¬isSimpleFieldName name ∧ (env.compile name).isSome
  | struct calculate => calculate.script ≠ []

end Calculation

section Names

variable {env : Calculator F Program} {field name : Str} {maps : FieldMaps Program}
  {c : Calculation}

/-- A string whose expression is not run is an alias. -/
theorem at_addString_alias {s : Str} (hs : splitCalculateString s = [field, name])
    (h : name = field ∨ isSimpleFieldName name ∨ env.compile name = none) :
    (addString env maps s).at field = (maps.expressions.lookup field, some name) := by
  have hadd : addString env maps s = { maps with aliases := maps.aliases.insert field name } := by
    rw [addString, hs]
    dsimp only
    split_ifs with hname
    · rfl
    · obtain ⟨hne, hsimple⟩ := not_or.mp hname
      rw [(h.resolve_left hne).resolve_left hsimple]
  rw [hadd, FieldMaps.at, AList.lookup_insert]

/-- A string whose expression is run. -/
theorem at_addString_program {s : Str} (hs : splitCalculateString s = [field, name])
    (hne : name ≠ field) (hsimple : ¬isSimpleFieldName name) {program : Program}
    (hcompile : env.compile name = some program) :
    (addString env maps s).at field = (some program, maps.aliases.lookup field) := by
  have hadd : addString env maps s =
      { maps with expressions := maps.expressions.insert field program } := by
    rw [addString, hs]
    dsimp only
    rw [if_neg (not_or.mpr ⟨hne, hsimple⟩), hcompile]
  rw [hadd, FieldMaps.at, AList.lookup_insert]

/-- **What a calculation that is just a name gives its field**: a program if it is run, and an alias
if it is not. -/
theorem at_addCalculation_of_names (hc : c.Names env field name) (hname : name ≠ []) :
    (c.IsRun env field name ∧ ∃ program, env.compile name = some program ∧
        (addCalculation env {} c).at field = (some program, none)) ∨
      ¬c.IsRun env field name ∧ (addCalculation env {} c).at field = (none, some name) := by
  cases hc with
  | @ofString s hs =>
    by_cases hrun : Calculation.IsRun env field name (.string s)
    · obtain ⟨program, hcompile⟩ := Option.isSome_iff_exists.mp hrun.2.2
      exact .inl ⟨hrun, program, hcompile, at_addString_program hs hrun.1 hrun.2.1 hcompile⟩
    · refine .inr ⟨hrun, at_addString_alias hs ?_⟩
      by_contra h
      obtain ⟨hne, hsimple, hcompile⟩ := not_or.mp h |>.imp_right not_or.mp
      exact hrun ⟨hne, hsimple, Option.isSome_iff_ne_none.mpr hcompile⟩
  | ofAlias =>
    refine .inr ⟨fun h => h rfl, ?_⟩
    simp only [addCalculation, addCalculate, if_neg hname, if_true, FieldMaps.at,
      AList.lookup_insert]
    rfl
  | ofScript h =>
    obtain ⟨program, hcompile⟩ := Option.isSome_iff_exists.mp h
    refine .inl ⟨hname, program, hcompile, ?_⟩
    simp only [addCalculation, addCalculate, if_neg hname, hcompile, if_true, FieldMaps.at,
      AList.lookup_insert]
    rfl

end Names

/-! ### The values of the two fields -/

/-- What an expression finds under the name of a field with a value. -/
def cellOf (value : Str) : Cell F := if value = nullValue then .null else .text value

/-- **A program that is just a name**: it gives what is found under it. -/
def ReadsName (env : Calculator F Program) (program : Program) (name : Str) : Prop :=
  ∀ context : Go.Map Str (Cell F),
    (context.lookup name = some .null → env.run program context = .null) ∧
      ∀ value, context.lookup name = some (.text value) → env.run program context = .printed value

section Values

variable [NatCast F] {env : Calculator F Program} {name : Str}

theorem stringValues_record (maps : RowMaps F) (value : Str) :
    (RowMaps.record env maps name value).stringValues.lookup name = some (cellOf value) := by
  unfold RowMaps.record cellOf
  split_ifs <;> exact AList.lookup_insert _

theorem stringValues_record_of_ne (maps : RowMaps F) {field : Str} (h : name ≠ field)
    (value : Str) :
    (RowMaps.record env maps field value).stringValues.lookup name =
      maps.stringValues.lookup name := by
  unfold RowMaps.record
  split_ifs <;> exact AList.lookup_insert_ne h

variable [Mul F] [Div F] {fieldMaps : FieldMaps Program} {conversions : Go.Map Str Conversion}
  {maps : RowMaps F}

/-- Fields with other names leave a name alone. -/
theorem stringValues_mapsAfter {fields : List Field} (h : name ∉ fields.map Field.field) :
    (mapsAfter env fieldMaps conversions maps fields).stringValues.lookup name =
      maps.stringValues.lookup name := by
  induction fields generalizing maps with
  | nil => rfl
  | cons field fields ih =>
    rw [List.map_cons, List.mem_cons, not_or] at h
    rw [mapsAfter, ih h.2, stringValues_record_of_ne _ h.1]

/-- A field that is mapped to a name without a value is null. -/
theorem fieldValue_of_alias {field : Field}
    (hat : fieldMaps.at field.field = (none, some name)) (hname : name ≠ [])
    (hvalue : maps.aliasValues.lookup name = none) :
    fieldValue env fieldMaps conversions maps field = nullValue := by
  obtain ⟨hexpression, halias⟩ := Prod.mk.inj hat
  have hraw : rawValue env fieldMaps maps field = [] := by
    rw [rawValue, hexpression]
    dsimp only
    rw [mappedValue, halias, Option.getD_some, if_neg hname, hvalue]
    rfl
  rw [fieldValue, hraw]
  rfl

/-- A field of strings that is the expression of a name has the value of that name. -/
theorem fieldValue_of_expression {field : Field} {program : Program} {value : Str}
    (hat : fieldMaps.at field.field = (some program, none)) (htype : field.type = typeString)
    (hreads : ReadsName env program name)
    (hvalue : maps.stringValues.lookup name = some (cellOf value)) (hne : value ≠ []) :
    fieldValue env fieldMaps conversions maps field = value := by
  obtain ⟨hexpression, -⟩ := Prod.mk.inj hat
  have htype' : field.type ≠ typeNumber := by
    rw [htype]
    decide
  unfold cellOf at hvalue
  split_ifs at hvalue with hnull
  · have hraw : rawValue env fieldMaps maps field = [] := by
      rw [rawValue, hexpression]
      dsimp only
      rw [if_pos htype, (hreads _).1 hvalue]
    rw [fieldValue, hraw, hnull]
    rfl
  · have hraw : rawValue env fieldMaps maps field = value := by
      rw [rawValue, hexpression]
      dsimp only
      rw [if_pos htype, (hreads _).2 value hvalue]
    have hnumber : ¬(value ≠ [] ∧ value ≠ nullValue ∧ field.type = typeNumber) :=
      fun h => htype' h.2.2
    simp only [fieldValue, hraw, if_neg hnumber, if_neg hne]

end Values

/-! ### The row -/

section Row

variable [NatCast F] [Mul F] [Div F] {env : Calculator F Program}

/-- **The columns of two fields**: the second is reached with maps that have the value of the first.
Whatever stands in between, the values of the aliases are still those that were collected. -/
theorem getElem?_fieldColumns_pair (fieldMaps : FieldMaps Program)
    (conversions : Go.Map Str Conversion) (maps : RowMaps F) (before after : List Field)
    {between : List Field} {field : Field} (field' : Field)
    (hbetween : field.field ∉ between.map Field.field) :
    ∃ value ≠ [], ∃ maps' : RowMaps F, maps'.aliasValues = maps.aliasValues ∧
      maps'.stringValues.lookup field.field = some (cellOf value) ∧
      (fieldColumns env fieldMaps conversions maps
        (before ++ field :: (between ++ field' :: after)))[before.length]? = some value ∧
      (fieldColumns env fieldMaps conversions maps
        (before ++ field :: (between ++ field' :: after)))[before.length + (between.length + 1)]? =
          some (fieldValue env fieldMaps conversions maps' field') := by
  generalize hreached : mapsAfter env fieldMaps conversions maps before = reached
  generalize hvalue : fieldValue env fieldMaps conversions reached field = value
  refine ⟨value, hvalue ▸ (columnOf_fieldValue field).ne_nil,
    mapsAfter env fieldMaps conversions (RowMaps.record env reached field.field value) between,
    ?_, ?_, ?_, ?_⟩
  · rw [aliasValues_mapsAfter, aliasValues_record, ← hreached, aliasValues_mapsAfter]
  · rw [stringValues_mapsAfter hbetween, stringValues_record]
  · rw [getElem?_fieldColumns, hreached, hvalue]
  · have hsplit : before ++ field :: (between ++ field' :: after) =
        (before ++ field :: between) ++ field' :: after := by
      rw [List.append_assoc, List.cons_append]
    have hlength : before.length + (between.length + 1) = (before ++ field :: between).length := by
      rw [List.length_append, List.length_cons]
    rw [hsplit, hlength, getElem?_fieldColumns, mapsAfter_append, hreached, mapsAfter, hvalue]

/-- **The value of a field that is calculated by the name of another one.** Let the only calculation
of a field of strings be just the name of a field before it that is no alias. Its value is that of
the other field only if that is null, or if the name is run as an expression. -/
theorem calculateFieldsWith_named_iff {calculates : Calculates} {units : Units}
    {metrics : Metrics Option} {before between after : List Field} {field field' : Field}
    {calculation : Calculation}
    (hfields : metrics.fields = some (before ++ field :: (between ++ field' :: after)))
    (htype : field'.type = typeString) (hbetween : field.field ∉ between.map Field.field)
    (hname : field.field ≠ []) (halias : field.field ∉ metrics.aliases)
    (hcalculated : CalculatedBy calculates field'.field calculation)
    (hnames : calculation.Names env field'.field field.field)
    (hreads : ∀ program, env.compile field.field = some program →
      ReadsName env program field.field) (result : CollectRepMetricsData) :
    ∀ row ∈ (calculateFieldsWith env calculates units metrics result).values, ∃ value value',
      row[before.length]? = some value ∧ row[before.length + (between.length + 1)]? = some value' ∧
        (value' = value ↔
          value = nullValue ∨ calculation.IsRun env field'.field field.field) := by
  intro row hrow
  obtain ⟨columns, rfl⟩ : ∃ columns, row = fieldColumns env (parseCalculates env calculates)
      (parseUnits env units) ((metrics.aliases.zip columns).foldl (readAlias env) {})
      (before ++ field :: (between ++ field' :: after)) := by
    simp only [calculateFieldsWith, hfields, Option.getD_some] at hrow
    split_ifs at hrow
    · cases hrow
    · obtain ⟨columns, -, rfl⟩ := List.mem_map.mp hrow
      exact ⟨columns, rfl⟩
  obtain ⟨value, hne, maps, haliases, hvalue, hfirst, hsecond⟩ :=
    @getElem?_fieldColumns_pair _ _ _ _ _ env (parseCalculates env calculates)
      (parseUnits env units) ((metrics.aliases.zip columns).foldl (readAlias env) {}) before after
      _ _ field' hbetween
  refine ⟨value, _, hfirst, hsecond, ?_⟩
  have hat := at_parseCalculates env hcalculated
  rcases at_addCalculation_of_names hnames hname with ⟨hrun, program, hcompile, h⟩ | ⟨hrun, h⟩
  · rw [fieldValue_of_expression (hat.trans h) htype (hreads program hcompile) hvalue hne]
    exact iff_of_true rfl (.inr hrun)
  · -- the name is looked up where only aliases have values
    have hnone : maps.aliasValues.lookup field.field = none := by
      rw [haliases, aliasValues_lookup_eq_none halias]
    rw [fieldValue_of_alias (hat.trans h) hname hnone, or_iff_left hrun, eq_comm]

end Row

/-! ### A name that is not run -/

/-- A calculator with two kinds of expressions: a name, and a name with a quoted text added. -/
def nameCalculator : Calculator ℕ (Str × Str) where
  text := .ascii
  compile := fun s =>
    match Go.splitTwo s (Go.str "+") with
    | [name, quoted] => some (name, quoted.filter (· ≠ 39))
    | _ => some (s, [])
  run := fun program context =>
    match context.lookup program.1 with
    | some (.text value) => .printed (value ++ program.2)
    | some (.number x) => .printed (Go.itoa x ++ program.2)
    | _ => .null
  parseFloat := fun s => if s = Go.str "5" then some 5 else none
  formatFixed := Go.itoa ∘ Int.ofNat
  formatShortest := Go.itoa ∘ Int.ofNat

theorem readsName_nameCalculator (name : Str) : ReadsName nameCalculator (name, []) name := by
  intro context
  refine ⟨fun h => ?_, fun value h => ?_⟩
  · simp only [nameCalculator, h]
  · simp only [nameCalculator, h, List.append_nil]

/-- A metric with two fields of strings, neither of them an alias. -/
def usageMetrics : Metrics Option :=
  { Metrics.bare (Go.str "cpu") (Go.str "ssh") with
    aliasFields := some [Go.str "used"]
    fields := some [{ field := Go.str "usage", type := typeString },
      { field := Go.str "load", type := typeString }] }

/-- The usage is not null, and the load that is calculated by its name is. -/
theorem not_calculateFieldsWith_named :
    (parseCalculates nameCalculator
        (.strings [Go.str "usage=used+'%'", Go.str "load=usage"])).expressions.lookup
          (Go.str "usage") ≠ none ∧
      Go.str "usage" ∉ usageMetrics.aliases ∧
      (calculateFieldsWith nameCalculator
          (.strings [Go.str "usage=used+'%'", Go.str "load=usage"]) .other usageMetrics
          { createSuccessResponse usageMetrics 0 with values := [[Go.str "5"]] }).values =
        [[Go.str "5%", nullValue]] :=
  ⟨by decide, by decide, rfl⟩

/-- The same calculations as structures. -/
def usageCalculates : Calculates :=
  .structs [{ field := Go.str "usage", script := Go.str "used+'%'" },
    { field := Go.str "load", script := Go.str "usage" }]

theorem calculatedBy_usageCalculates : CalculatedBy usageCalculates (Go.str "load")
    (.struct { field := Go.str "load", script := Go.str "usage" }) where
  mem := List.mem_cons_of_mem _ List.mem_cons_self
  only := by
    intro c hc hfield
    rcases List.mem_cons.mp hc with rfl | hc
    · exact absurd hfield (by decide)
    · exact List.mem_singleton.mp hc

/-- As a script the name is run, and the load is the usage. -/
theorem calculateFieldsWith_named_script :
    ∃ row ∈ (calculateFieldsWith nameCalculator usageCalculates .other usageMetrics
        { createSuccessResponse usageMetrics 0 with values := [[Go.str "5"]] }).values,
      ∃ value, row[0]? = some value ∧ row[1]? = some value := by
  have hvalues : (calculateFieldsWith nameCalculator usageCalculates .other usageMetrics
      { createSuccessResponse usageMetrics 0 with values := [[Go.str "5"]] }).values =
        [[Go.str "5%", Go.str "5%"]] := rfl
  have hrow := hvalues ▸ List.mem_singleton_self [Go.str "5%", Go.str "5%"]
  have hcompile : nameCalculator.compile (Go.str "usage") = some (Go.str "usage", []) := by decide
  have hreads : ∀ program, nameCalculator.compile (Go.str "usage") = some program →
      ReadsName nameCalculator program (Go.str "usage") := by
    intro program hprogram
    obtain rfl := Option.some.inj (hcompile.symm.trans hprogram)
    exact readsName_nameCalculator _
  have hfields : usageMetrics.fields =
      some ([] ++ { field := Go.str "usage", type := typeString } ::
        ([] ++ { field := Go.str "load", type := typeString } :: [])) := rfl
  obtain ⟨value, value', hvalue, hvalue', h⟩ := calculateFieldsWith_named_iff hfields rfl
    List.not_mem_nil (by decide) (by decide) calculatedBy_usageCalculates
    (.ofScript (Option.isSome_of_mem hcompile)) hreads _ _ hrow
  exact ⟨_, hrow, value, hvalue, (h.mpr (.inr (by decide : Go.str "usage" ≠ []))) ▸ hvalue'⟩

end Calculator

end HertzBeat
