import HertzBeat.Lib.Text
import HertzBeat.Types.CollectData

/-!
# Calculated fields

`CalculateFields` of `internal/job/collect/dispatch/metrics_collector.go`, with the parts of
`internal/util/unit` and of the replacer that it uses: the rows that a collector returned, one
column for each alias, are turned into rows with one column for each field.

The numbers are of any type with a product and a quotient. Compiling and running expressions,
reading and printing numbers are parameters, `HertzBeat.Calculator`. None of the functions
here can panic, and so they are plain functions.
-/

namespace HertzBeat

open Go (Str StrMap Value Text)

/-! ### Units -/

/-- A unit conversion. -/
structure Conversion where
  field : Str
  originUnit : Str
  newUnit : Str
  deriving DecidableEq, Repr

namespace Conversion

/-- `ParseConversion`. -/
def parse (text : Text) (unitStr : Str) : Except Str Conversion :=
  match Go.split unitStr (Go.str "=") with
  | [fieldName, conversionPart] =>
    let conversionPart := text.trimSpace conversionPart
    match Go.split conversionPart (Go.str "->") with
    | [originUnit, newUnit] =>
      .ok { field := text.trimSpace fieldName, originUnit := text.trimSpace originUnit,
            newUnit := text.trimSpace newUnit }
    | _ => .error (Go.str "invalid unit conversion format: " ++ conversionPart ++
        Go.str ", expected 'originUnit->newUnit'")
  | _ => .error (Go.str "invalid unit conversion format: " ++ unitStr ++
      Go.str ", expected 'fieldName=originUnit->newUnit'")

/-- The units of bytes, in bytes. -/
def byteUnits : List (Str × ℕ) :=
  [("B", 1), ("KB", 1024), ("MB", 1024 ^ 2), ("GB", 1024 ^ 3), ("TB", 1024 ^ 4),
    ("PB", 1024 ^ 5), ("KIB", 1024), ("MIB", 1024 ^ 2), ("GIB", 1024 ^ 3), ("TIB", 1024 ^ 4),
    ("PIB", 1024 ^ 5)].map fun u => (Go.str u.1, u.2)

/-- The units of bits, in bits. -/
def bitUnits : List (Str × ℕ) :=
  [("B", 1), ("KB", 1000), ("MB", 1000 ^ 2), ("GB", 1000 ^ 3), ("TB", 1000 ^ 4),
    ("PB", 1000 ^ 5), ("KBIT", 1000), ("MBIT", 1000 ^ 2), ("GBIT", 1000 ^ 3),
    ("TBIT", 1000 ^ 4), ("PBIT", 1000 ^ 5)].map fun u => (Go.str u.1, u.2)

/-- The units of time, in nanoseconds. -/
def timeUnits : List (Str × ℕ) :=
  [("NS", 1), ("US", 1000), ("MS", 1000000), ("S", 1000000000), ("MIN", 60000000000),
    ("H", 3600000000000), ("D", 86400000000000)].map fun u => (Go.str u.1, u.2)

/-- The factors of two units in the first of the tables that has both. -/
def factors (originUnit newUnit : Str) : Option (ℕ × ℕ) :=
  [byteUnits, bitUnits, timeUnits].findSome? fun units =>
    match units.lookup originUnit, units.lookup newUnit with
    | some originFactor, some newFactor => some (originFactor, newFactor)
    | _, _ => none

/-- `Convert`. -/
def convert {F : Type} [Mul F] [Div F] [NatCast F] (text : Text) (value : F)
    (originUnit newUnit : Str) : Except Str F :=
  let originUnit := text.toUpper originUnit
  let newUnit := text.toUpper newUnit
  if originUnit = newUnit then .ok value
  else match factors originUnit newUnit with
    | some (originFactor, newFactor) => .ok (value * (originFactor : F) / (newFactor : F))
    | none => .error (Go.str "unsupported unit conversion from " ++ originUnit ++ Go.str " to " ++
        newUnit)

end Conversion

/-! ### Values and expressions -/

/-- What the value of a field is in the context of an expression. -/
inductive Cell (F : Type) where
  | null
  | number (x : F)
  | text (s : Str)

/-- What an expression gives. -/
inductive Output where
  | failed
  | null
  /-- A value, as `%v` prints it. -/
  | printed (s : Str)

/-- The libraries that fields are calculated with. -/
structure Calculator (F Program : Type) where
  text : Text
  /-- `expr.Compile`. -/
  compile : Str → Option Program
  /-- `expr.Run`, in a context. -/
  run : Program → Go.Map Str (Cell F) → Output
  /-- `strconv.ParseFloat`. -/
  parseFloat : Str → Option F
  /-- `strconv.FormatFloat` with format `'f'` and precision `4`. -/
  formatFixed : F → Str
  /-- `strconv.FormatFloat` with format `'f'` and precision `-1`. -/
  formatShortest : F → Str

namespace Calculator

variable {F Program : Type} (env : Calculator F Program)

/-- `formatNumber`. -/
def formatNumber (value : F) : Str :=
  let formatted := env.formatFixed value
  match formatted.getLast? with
  | some c => if c = 48 ∨ c = 46 then env.formatShortest value else formatted
  | none => formatted

/-- The units that a number may be followed by. -/
def unitSymbols : List Str :=
  ["%", "Gi", "Mi", "Ki", "G", "g", "M", "m", "K", "k", "B", "b"].map Go.str

/-- `ExtractDoubleAndUnitFromStr`. -/
def extractDoubleAndUnitFromStr [NatCast F] (s : Str) : Option (F × Str) :=
  if s = [] then none
  else
    let s := env.text.trimSpace s
    match env.parseFloat s with
    | some value => some (value, [])
    | none => unitSymbols.findSome? fun unitSymbol =>
      match Go.index unitSymbol s with
      | none => none
      | some 0 => some (((0 : ℕ) : F), env.text.trimSpace s)
      | some i => (env.parseFloat (env.text.trimSpace (s.take i))).map fun value =>
          (value, env.text.trimSpace (s.drop i))

/-! ### The configuration -/

/-- A calculation. -/
structure Calculate where
  field : Str := []
  script : Str := []
  aliasField : Str := []

/-- The dynamic types that a list of calculations may have, and one that is none. -/
inductive Calculates where
  | strings (calculates : List Str)
  | structs (calculates : List Calculate)
  | items (calculates : List Value)
  | other

/-- The calculations of a metric that was decoded. -/
def Calculates.ofValue : Value → Calculates
  | .arr vs => .items vs
  -- what is no list is neither a list of strings nor one of calculations when it is
  -- marshalled and read again
  | _ => .other

/-- The two maps that `parseCalculates` makes. -/
structure FieldMaps (Program : Type) where
  expressions : Go.Map Str Program := ∅
  aliases : StrMap := ∅

/-- `splitCalculateString`. -/
def splitCalculateString (calculate : Str) : List Str := Go.splitTwo calculate (Go.str "=")

/-- `isSimpleFieldName`. -/
def isSimpleFieldName (s : Str) : Bool :=
  s ≠ [] && s.all fun c =>
    (97 ≤ c && c ≤ 122) || (65 ≤ c && c ≤ 90) || (48 ≤ c && c ≤ 57) || c = 95

/-- A calculation that is written as a string. -/
def addString (maps : FieldMaps Program) (calculate : Str) : FieldMaps Program :=
  match splitCalculateString calculate with
  | [field, expression] =>
    if expression = field ∨ isSimpleFieldName expression then
      { maps with aliases := maps.aliases.insert field expression }
    else match env.compile expression with
      | none => { maps with aliases := maps.aliases.insert field expression }
      | some program => { maps with expressions := maps.expressions.insert field program }
  | _ => maps

/-- A calculation that is a structure. One whose script does not compile is dropped. -/
def addCalculate (maps : FieldMaps Program) (calculate : Calculate) : FieldMaps Program :=
  let addAlias (maps : FieldMaps Program) : FieldMaps Program :=
    if calculate.aliasField = [] then maps
    else { maps with aliases := maps.aliases.insert calculate.field calculate.aliasField }
  if calculate.script = [] then addAlias maps
  else match env.compile calculate.script with
    | none => maps
    | some program =>
      addAlias { maps with expressions := maps.expressions.insert calculate.field program }

/-- The string under a key, if there is one. -/
def stringAt (entries : List (Str × Value)) (key : String) : Str :=
  match entries.lookup (Go.str key) with
  | some (.str s) => s
  | _ => []

/-- An item of a list of either. The source writes out here what its functions for the other two
lists do. -/
def addItem (maps : FieldMaps Program) : Value → FieldMaps Program
  | .str s =>
    match splitCalculateString s with
    | [field, expression] =>
      if expression = field ∨ isSimpleFieldName expression then
        { maps with aliases := maps.aliases.insert field expression }
      else match env.compile expression with
        | none => { maps with aliases := maps.aliases.insert field expression }
        | some program => { maps with expressions := maps.expressions.insert field program }
    | _ => maps
  | .obj entries =>
    let field := stringAt entries "field"
    let script := stringAt entries "script"
    let aliasField := stringAt entries "aliasField"
    let addAlias (maps : FieldMaps Program) : FieldMaps Program :=
      if aliasField = [] then maps
      else { maps with aliases := maps.aliases.insert field aliasField }
    -- a list of structures is read without this check
    if field = [] then maps
    else if script = [] then addAlias maps
    else match env.compile script with
      | none => maps
      | some program =>
        addAlias { maps with expressions := maps.expressions.insert field program }
  | _ => maps

/-- A string among the items is read like one in a list of strings. -/
theorem addItem_str (maps : FieldMaps Program) (s : Str) :
    addItem env maps (.str s) = addString env maps s := rfl

/-- A map among the items is read like a structure, if it names a field. -/
theorem addItem_obj (maps : FieldMaps Program) (entries : List (Str × Value)) :
    addItem env maps (.obj entries) =
      if stringAt entries "field" = [] then maps
      else addCalculate env maps
        { field := stringAt entries "field", script := stringAt entries "script",
          aliasField := stringAt entries "aliasField" } := rfl

/-- `parseCalculates`. -/
def parseCalculates : Calculates → FieldMaps Program
  | .strings calculates => calculates.foldl (addString env) {}
  | .structs calculates => calculates.foldl (addCalculate env) {}
  | .items calculates => calculates.foldl (addItem env) {}
  | .other => {}

/-- A unit of a field. -/
structure Unit where
  field : Str := []
  unit : Str := []

/-- The dynamic types that a list of units may have, and one that is none. -/
inductive Units where
  | strings (units : List Str)
  | structs (units : List Unit)
  | items (units : List Value)
  | other

/-- The units of a metric that was decoded. -/
def Units.ofValue : Value → Units
  | .arr vs => .items vs
  | _ => .other

/-- A unit that is written as a string. -/
def addUnitString (conversions : Go.Map Str Conversion) (unitStr : Str) :
    Go.Map Str Conversion :=
  match Conversion.parse env.text unitStr with
  | .error _ => conversions
  | .ok conversion => conversions.insert conversion.field conversion

/-- A unit that is a structure. -/
def addUnit (conversions : Go.Map Str Conversion) (u : Unit) : Go.Map Str Conversion :=
  if u.field = [] ∨ u.unit = [] then conversions
  else addUnitString env conversions (u.field ++ Go.str "=" ++ u.unit)

/-- An item of a list of either, written out again in the source. -/
def addUnitItem (conversions : Go.Map Str Conversion) : Value → Go.Map Str Conversion
  | .str s =>
    match Conversion.parse env.text s with
    | .error _ => conversions
    | .ok conversion => conversions.insert conversion.field conversion
  | .obj entries =>
    let field := stringAt entries "field"
    let unit := stringAt entries "unit"
    if field ≠ [] ∧ unit ≠ [] then
      match Conversion.parse env.text (field ++ Go.str "=" ++ unit) with
      | .error _ => conversions
      | .ok conversion => conversions.insert conversion.field conversion
    else conversions
  | _ => conversions

/-- A string among the items is read like one in a list of strings. -/
theorem addUnitItem_str (conversions : Go.Map Str Conversion) (s : Str) :
    addUnitItem env conversions (.str s) = addUnitString env conversions s := rfl

/-- A map among the items is read like a structure. -/
theorem addUnitItem_obj (conversions : Go.Map Str Conversion) (entries : List (Str × Value)) :
    addUnitItem env conversions (.obj entries) =
      addUnit env conversions
        { field := stringAt entries "field", unit := stringAt entries "unit" } := by
  simp only [addUnitItem, addUnit, addUnitString, ne_eq, ← not_or, ite_not]

/-- `parseUnits`. -/
def parseUnits : Units → Go.Map Str Conversion
  | .strings units => units.foldl (addUnitString env) ∅
  | .structs units => units.foldl (addUnit env) ∅
  | .items units => units.foldl (addUnitItem env) ∅
  | .other => ∅

/-! ### A row -/

/-- The maps that are filled along a row: the values of the aliases, and the contexts of
expressions of numbers and of strings. -/
structure RowMaps (F : Type) where
  aliasValues : StrMap := ∅
  fieldValues : Go.Map Str (Cell F) := ∅
  stringValues : Go.Map Str (Cell F) := ∅

variable [NatCast F]

/-- The value of a field enters the contexts. -/
def RowMaps.record (maps : RowMaps F) (field value : Str) : RowMaps F :=
  if value = nullValue then
    { maps with
      fieldValues := maps.fieldValues.insert field .null
      stringValues := maps.stringValues.insert field .null }
  else
    { maps with
      fieldValues := maps.fieldValues.insert field
        (match extractDoubleAndUnitFromStr env value with
          | some doubleAndUnit => .number doubleAndUnit.1
          | none => .text value)
      stringValues := maps.stringValues.insert field (.text value) }

/-- A column of the collector's row. -/
def readAlias (maps : RowMaps F) (column : Str × Str) : RowMaps F :=
  let maps := RowMaps.record env maps column.1 column.2
  if column.2 = nullValue then maps
  else { maps with aliasValues := maps.aliasValues.insert column.1 column.2 }

/-- The value that a field is mapped to: that of its alias, or of the alias with its name. -/
def mappedValue (fieldMaps : FieldMaps Program) (maps : RowMaps F) (realField : Str) : Str :=
  let aliasField := (fieldMaps.aliases.lookup realField).getD []
  (maps.aliasValues.lookup (if aliasField = [] then realField else aliasField)).getD []

/-- The value of a field before its type is looked at. -/
def rawValue (fieldMaps : FieldMaps Program) (maps : RowMaps F) (field : Field) : Str :=
  match fieldMaps.expressions.lookup field.field with
  | none => mappedValue fieldMaps maps field.field
  | some program =>
    match env.run program
        (if field.type = typeString then maps.stringValues else maps.fieldValues) with
    | .failed => mappedValue fieldMaps maps field.field
    | .null => []
    | .printed s => s

variable [Mul F] [Div F]

/-- The value of a field of numbers. A conversion that fails leaves the number as it is. -/
def numberValue (conversions : Go.Map Str Conversion) (realField value : Str) : Str :=
  match extractDoubleAndUnitFromStr env value with
  | none => nullValue
  | some (number, unit) =>
    match conversions.lookup realField with
    | none => formatNumber env number
    | some conversion =>
      match Conversion.convert env.text number
          (if unit = [] then conversion.originUnit else unit) conversion.newUnit with
      | .ok converted => formatNumber env converted
      | .error _ => formatNumber env number

/-- The value of a field. -/
def fieldValue (fieldMaps : FieldMaps Program) (conversions : Go.Map Str Conversion)
    (maps : RowMaps F) (field : Field) : Str :=
  let value := rawValue env fieldMaps maps field
  let value := if value ≠ [] ∧ value ≠ nullValue ∧ field.type = typeNumber then
      numberValue env conversions field.field value
    else value
  if value = [] then nullValue else value

/-- The loop over the fields: the columns of those that are left. -/
def fieldColumns (fieldMaps : FieldMaps Program) (conversions : Go.Map Str Conversion) :
    RowMaps F → List Field → List Str
  | _, [] => []
  | maps, field :: fields =>
    let value := fieldValue env fieldMaps conversions maps field
    -- later expressions may refer to the field
    value :: fieldColumns fieldMaps conversions (RowMaps.record env maps field.field value) fields

/-- The row of fields of a row of aliases. -/
def calculateRow (metrics : Metrics Option) (columns : List Str) : List Str :=
  let fieldMaps := parseCalculates env (.ofValue metrics.calculates)
  let conversions := parseUnits env (.ofValue metrics.units)
  let maps := (metrics.aliases.zip columns).foldl (readAlias env) {}
  fieldColumns env fieldMaps conversions maps (metrics.fields.getD [])

/-- `CalculateFields`. -/
def calculateFields (metrics : Metrics Option) (result : CollectRepMetricsData) :
    CollectRepMetricsData :=
  { result with
    priority := metrics.priority
    fields := metrics.fields.getD []
    values := if metrics.aliases = [] then [] else result.values.map (calculateRow env metrics) }

end Calculator

end HertzBeat
