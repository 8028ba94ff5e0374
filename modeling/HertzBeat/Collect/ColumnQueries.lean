import HertzBeat.Collect.RowQueries
import HertzBeat.Lib.Assign

/-!
# Columns queries

A columns query reads a result set sideways: every row is a name and a value, and the answer is a
single row with the values of the names that the metric lists. The collector goes through the rows
once and keeps the values in a map, under the names trimmed and in lower case; then it looks up its
own names, in lower case; and at the end it writes the response time over the first name that asks
for it.

`HertzBeat.JDBCCollector.columnsValue` says what is to stand under a name without the map and
without the order of these passes, in terms of the last row with that name. The two agree:
`HertzBeat.JDBCCollector.queryColumns_addResponseTime`.
-/

namespace HertzBeat

open Go (Str StrMap)

namespace JDBCCollector

/-! ### What is to be returned -/

/-- A cell of a row that is scanned into so many destinations. A row that cannot be scanned has
none. -/
def Row.cell (n : ℕ) (row : Row) (i : ℕ) : Option Str :=
  match row.scan n with
  | .error _ => none
  | .ok values => values i

variable (env : Env)

/-- The name that a row has a value for, if its first column is not NULL. -/
def rowName (n : ℕ) (row : Row) : Option Str :=
  (row.cell n 0).map fun key => env.text.toLower (env.text.trimSpace key)

/-- The last row for a name, in whatever case it is written. -/
def lastRow (n : ℕ) (rows : List Row) (name : Str) : Option Row :=
  rows.reverse.find? fun row => rowName env n row = some (env.text.toLower name)

/-- What the rows have for a name. A response time that they have no row for is counted as zero. -/
def rowsValue (n : ℕ) (rows : List Row) (name : Str) : Str :=
  match lastRow env n rows name with
  | some row => (row.cell n 1).getD nullValue
  | none => if name = responseTimeKey then Go.str "0" else nullValue

/-- **What is to stand under the `i`-th of the names**: the duration of the collection, where the
response time is asked for first, and what the rows have for the name. -/
def columnsValue (n : ℕ) (rows : List Row) (aliasFields : List Str) (i : ℕ) (name : Str) : Str :=
  if name = responseTimeKey ∧ ¬(aliasFields.take i).contains responseTimeKey then
    Go.itoa env.duration
  else rowsValue env n rows name

/-! ### The map of the rows -/

/-- What a row assigns. -/
def rowEntry (n : ℕ) (row : Row) : Option (Str × Str) :=
  (rowName env n row).map fun name => (name, (row.cell n 1).getD nullValue)

variable {env} {n : ℕ} {rows : List Row} {name : Str}

theorem addKeyValue_eq_assign (m : StrMap) (row : Row) :
    addKeyValue env n m row = Go.assign m (rowEntry env n row).toList := by
  rw [addKeyValue, rowEntry, rowName, Row.cell, Row.cell]
  cases row.scan n with
  | error err => rfl
  | ok values =>
    cases h : values 0 with
    | none => simp [h]
    | some key => simp [h, Go.assign]

/-- The map holds the value of the last row for each name. -/
theorem lookup_keyValueMap :
    (rows.foldl (addKeyValue env n) ∅).lookup (env.text.toLower name) =
      (lastRow env n rows name).map fun row => (row.cell n 1).getD nullValue := by
  rw [Go.foldl_eq_assign addKeyValue_eq_assign, Go.lookup_assign, AList.lookup_empty,
    Option.or_none, Go.lastValue_flatMap_toList]
  have hname : ∀ row, (rowEntry env n row).map Prod.fst = rowName env n row := by
    intro row
    rw [rowEntry, Option.map_map]
    exact congrFun Option.map_id _
  simp only [hname]
  -- a row that is found has a name, so that it assigns its value
  cases hrow : lastRow env n rows name with
  | none =>
    rw [lastRow] at hrow
    rw [hrow]
    rfl
  | some row =>
    rw [lastRow] at hrow
    have hkey := of_decide_eq_true (List.find?_some (p := fun row =>
      decide (rowName env n row = some (env.text.toLower name))) hrow)
    rw [hrow, Option.bind_some, rowEntry, hkey]
    rfl

/-- The column that is filled is what the rows have. -/
theorem keyValueColumn_eq :
    keyValueColumn env (rows.foldl (addKeyValue env n) ∅) name = rowsValue env n rows name := by
  rw [keyValueColumn, lookup_keyValueMap, rowsValue]
  cases lastRow env n rows name <;> rfl

/-! ### The response time -/

/-- The first position of a name is where it stands and does not stand before. -/
theorem idxOf?_eq_some_iff_take {l : List Str} {a : Str} {i : ℕ} :
    l.idxOf? a = some i ↔ l[i]? = some a ∧ a ∉ l.take i := by
  rw [List.idxOf?_eq_some_iff]
  constructor
  · rintro ⟨hi, ha, hbefore⟩
    refine ⟨by rw [List.getElem?_eq_getElem hi, ha], fun hmem => ?_⟩
    obtain ⟨j, hj, hja⟩ := List.mem_take_iff_getElem.mp hmem
    exact hbefore j (lt_min_iff.mp hj).1 hja
  · rintro ⟨hget, hmem⟩
    obtain ⟨hi, ha⟩ := List.getElem?_eq_some_iff.mp hget
    refine ⟨hi, ha, fun j hj hja => hmem ?_⟩
    exact List.mem_take_iff_getElem.mpr ⟨j, lt_min hj (hj.trans hi), hja⟩

/-- The response time is written where it is asked for first. -/
theorem values_addResponseTime {response : CollectRepMetricsData} {aliasFields : List Str}
    (f : Str → Str) (hvalues : response.values = [aliasFields.map f]) :
    (addResponseTime env response aliasFields).values =
      [aliasFields.zipIdx.map fun p =>
        if p.1 = responseTimeKey ∧ ¬(aliasFields.take p.2).contains responseTimeKey then
          Go.itoa env.duration
        else f p.1] := by
  have hfirst : ∀ i (hi : i < aliasFields.length),
      (aliasFields[i] = responseTimeKey ∧ responseTimeKey ∉ aliasFields.take i ↔
        aliasFields.idxOf? responseTimeKey = some i) := by
    intro i hi
    rw [idxOf?_eq_some_iff_take, List.getElem?_eq_getElem hi, Option.some.injEq]
  rw [addResponseTime]
  cases hidx : aliasFields.idxOf? responseTimeKey with
  | none =>
    rw [hvalues, List.cons.injEq]
    refine ⟨List.ext_getElem (by simp) fun i hi hi' => ?_, rfl⟩
    rw [List.length_map] at hi
    simp [hfirst i hi, hidx]
  | some rtIndex =>
    have hlt : rtIndex < (aliasFields.map f).length := by
      rw [List.length_map]
      exact (List.idxOf?_eq_some_iff.mp hidx).1
    change response.values.map _ = _
    rw [hvalues, List.map_singleton, if_pos hlt, List.cons.injEq]
    refine ⟨List.ext_getElem (by simp) fun i hi hi' => ?_, rfl⟩
    rw [List.length_set, List.length_map] at hi
    simp [List.getElem_set, hfirst i hi, hidx]

/-! ### The row -/

section

variable {rows : Rows} {columns aliasFields : List Str} {url sql : Str}
  {response : CollectRepMetricsData}

theorem queryColumns_eq_ok (hquery : env.query url sql = .ok rows)
    (hcolumns : rows.columns = .ok columns) (htwo : 2 ≤ columns.length)
    (herr : rows.err (rows.rows.length + 1) = none) (haliases : aliasFields ≠ []) :
    queryColumns env url sql aliasFields response =
      .ok { (buildFields response aliasFields []).2 with
        values := response.values ++
          [aliasFields.map (rowsValue env columns.length rows.rows)] } := by
  have hnames : (buildFields response aliasFields []).1 = aliasFields := if_neg haliases
  have hrow : aliasFields.map
      (keyValueColumn env (rows.rows.foldl (addKeyValue env columns.length) ∅)) =
        aliasFields.map (rowsValue env columns.length rows.rows) :=
    List.map_congr_left fun _ _ => keyValueColumn_eq
  rw [← hrow]
  simp only [queryColumns, hquery, hcolumns, Except.mapError, bind, Except.bind,
    if_neg (Nat.not_lt.mpr htwo), if_neg haliases, Rows.result, herr, hnames]
  rfl

/-- **A columns query looks the names up among the rows.** Whatever the result set is, there is one
row with one column for each name, and in each column stands what is to stand there. -/
theorem queryColumns_addResponseTime (hquery : env.query url sql = .ok rows)
    (hcolumns : rows.columns = .ok columns) (htwo : 2 ≤ columns.length)
    (herr : rows.err (rows.rows.length + 1) = none) (haliases : aliasFields ≠ [])
    (hresponse : response.values = []) :
    ∃ filled, queryColumns env url sql aliasFields response = .ok filled ∧
      (addResponseTime env filled aliasFields).values =
        [aliasFields.zipIdx.map fun p =>
          columnsValue env columns.length rows.rows aliasFields p.2 p.1] := by
  refine ⟨_, queryColumns_eq_ok hquery hcolumns htwo herr haliases, ?_⟩
  apply values_addResponseTime
  rw [hresponse]
  rfl

/-- The status of a server, as rows of names and values: a name that comes twice, one with blanks
and capitals, one without a name and one without a value. -/
def statusRows : Rows :=
  .table [Go.str "Variable_name", Go.str "Value"]
    [[some (Go.str "uptime"), some (Go.str "1")], [some (Go.str " Uptime "), some (Go.str "2")],
      [none, some (Go.str "3")], [some (Go.str "threads"), none]] fun _ => { msg := [] }

theorem queryColumns_status :
    ∃ filled, queryColumns (.answering statusRows 7) [] []
        [Go.str "UPTIME", responseTimeKey, Go.str "threads", responseTimeKey, Go.str "queries"]
        (createSuccessResponse (Metrics.bare [] []) 0) = .ok filled ∧
      (addResponseTime (.answering statusRows 7) filled
        [Go.str "UPTIME", responseTimeKey, Go.str "threads", responseTimeKey,
          Go.str "queries"]).values =
        [[Go.str "2", Go.str "7", nullValue, Go.str "0", nullValue]] := by
  obtain ⟨filled, hfilled, hvalues⟩ := @queryColumns_addResponseTime (.answering statusRows 7)
    statusRows _ [Go.str "UPTIME", responseTimeKey, Go.str "threads", responseTimeKey,
      Go.str "queries"] [] [] (createSuccessResponse (Metrics.bare [] []) 0) rfl rfl (by decide) rfl
    (by simp) rfl
  refine ⟨filled, hfilled, hvalues.trans ?_⟩
  rfl

end

end JDBCCollector

end HertzBeat
