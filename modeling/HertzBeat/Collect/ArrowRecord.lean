import HertzBeat.Types.CollectData

/-!
# The Arrow record of a result

`createArrowRecordBatch` of `internal/job/collect/lazy_message_router.go`: a result is turned into
a record of columns. The rows of its values are the outer loop and its fields the inner one; each
turn appends one cell to the builder of a column. The Arrow library is a parameter,
`HertzBeat.Arrow`: what is used of it are the four laws that come with it.

* `HertzBeat.createArrowRecordBatch_eq` – neither the loops nor `NewRecord` ever panic, and what
  the loops leave in the builders is the transposition of the values, with the empty string for
  every cell that is not there;
* `HertzBeat.createArrowRecordBatch_cells` – so every cell of the values can be read back.
-/

namespace HertzBeat

open Go (Str)

/-! ### Records -/

/-- A field of a schema. All fields here have the type of strings. -/
structure ArrowField where
  name : Str
  nullable : Bool
  metadata : List (Str × Str)
  deriving DecidableEq, Repr

/-- A schema. -/
structure ArrowSchema where
  fields : List ArrowField
  metadata : List (Str × Str)
  deriving DecidableEq, Repr

/-- What `NewRecord` requires of the columns: one for each field, none shorter than there are
rows. -/
def Fits (schema : ArrowSchema) (columns : List (List Str)) (rows : ℕ) : Prop :=
  (rows = 0 ∧ columns = []) ∨
    (columns.length = schema.fields.length ∧ ∀ column ∈ columns, rows ≤ column.length)

instance (schema : ArrowSchema) (columns : List (List Str)) (rows : ℕ) :
    Decidable (Fits schema columns rows) :=
  inferInstanceAs (Decidable (_ ∨ _))

/-- A record: the columns of a schema. -/
structure ArrowRecord where
  schema : ArrowSchema
  columns : List (List Str)
  rows : ℕ
  fits : Fits schema columns rows

/-- How building a record can panic. -/
inductive RecordPanic where
  /-- There is no builder at an index. -/
  | indexOutOfRange
  /-- `NewRecord` rejects the columns. -/
  | invalidRecord
  deriving DecidableEq, Repr

/-- The rows of a record, as its reader sees them. -/
def ArrowRecord.readRows (record : ArrowRecord) : List (List Str) :=
  (List.range record.rows).map fun r => record.columns.map fun column => column[r]?.getD []

/-! ### The Arrow library -/

/-- **The Arrow library**, as far as it makes records. -/
structure Arrow where
  /-- `arrow.MetadataFrom`, of a map with these entries. -/
  metadataFrom : List (Str × Str) → List (Str × Str)
  /-- A builder of a column of strings. -/
  Builder : Type
  /-- `array.NewBuilder`. -/
  newBuilder : Builder
  /-- `Append`. -/
  append : Builder → Str → Builder
  /-- The cells of the array that `NewArray` gives. -/
  newArray : Builder → List Str
  /-- `array.NewRecord`. -/
  newRecord : ArrowSchema → List (List Str) → ℕ → Except RecordPanic ArrowRecord
  /-- Metadata has the entries of the map, in some order. -/
  metadataFrom_perm : ∀ kvs, (metadataFrom kvs).Perm kvs
  /-- A new builder has no cells. -/
  newArray_newBuilder : newArray newBuilder = []
  /-- A cell is appended behind the others. -/
  newArray_append : ∀ builder value, newArray (append builder value) = newArray builder ++ [value]
  /-- Columns that fit are the columns of the record. -/
  newRecord_of_fits : ∀ schema columns rows (h : Fits schema columns rows),
    newRecord schema columns rows = .ok ⟨schema, columns, rows, h⟩

/-- The laws can be met: metadata is sorted by its keys, a builder is the list of its cells, and
`NewRecord` panics on columns that do not fit. -/
def Arrow.ofLists : Arrow where
  metadataFrom kvs := kvs.insertionSort (Go.keyLe · ·)
  Builder := List Str
  newBuilder := []
  append column value := column ++ [value]
  newArray := id
  newRecord schema columns rows :=
    if h : Fits schema columns rows then .ok ⟨schema, columns, rows, h⟩ else .error .invalidRecord
  metadataFrom_perm kvs := List.perm_insertionSort _ kvs
  newArray_newBuilder := rfl
  newArray_append _ _ := rfl
  newRecord_of_fits _ _ _ h := dif_pos h

variable (arrow : Arrow)

/-- Metadata of one choice of keys tells the values apart. -/
theorem Arrow.eq_of_metadataFrom_eq {kvs kvs' : List (Str × Str)}
    (hkeys : kvs.map Prod.fst = kvs'.map Prod.fst) (hnodup : (kvs.map Prod.fst).Nodup)
    (h : arrow.metadataFrom kvs = arrow.metadataFrom kvs') : kvs = kvs' := by
  have hperm : kvs.Perm kvs' :=
    (arrow.metadataFrom_perm kvs).symm.trans (h ▸ arrow.metadataFrom_perm kvs')
  clear h
  induction kvs generalizing kvs' with
  | nil => exact hperm.nil_eq
  | cons kv kvs ih =>
    cases kvs' with
    | nil => exact absurd hkeys (by simp)
    | cons kv' kvs' =>
      obtain ⟨hkey, hrest⟩ := List.cons.inj hkeys
      obtain ⟨hnew, hnodup⟩ := List.nodup_cons.mp hnodup
      -- the first entry is there on the other side, and its key nowhere but in front
      have hkv : kv = kv' := by
        rcases List.mem_cons.mp (hperm.mem_iff.mp List.mem_cons_self) with heq | hmem
        · exact heq
        · exact absurd (hrest ▸ List.mem_map_of_mem hmem) hnew
      subst hkv
      rw [ih hrest hnodup hperm.cons_inv]

/-! ### The schema of a result -/

/-- The verb `%t`. -/
def formatBool (b : Bool) : Str := Go.str (if b then "true" else "false")

/-- The metadata of a field of a result. -/
def fieldEntries (field : Field) : List (Str × Str) :=
  [(Go.str "type", Go.itoa field.type),
    (Go.str "label", formatBool field.label),
    (Go.str "unit", field.unit)]

/-- The field of a schema that a field of a result becomes. -/
def dynamicField (field : Field) : ArrowField where
  name := field.field
  nullable := true
  metadata := arrow.metadataFrom (fieldEntries field)

/-- The metadata of a result. -/
def schemaEntries (data : CollectRepMetricsData) : List (Str × Str) :=
  [(Go.str "id", Go.itoa data.id),
    (Go.str "tenantId", Go.itoa data.tenantId),
    (Go.str "app", data.app),
    (Go.str "metrics", data.metrics),
    (Go.str "priority", Go.itoa data.priority),
    (Go.str "time", Go.itoa data.time),
    (Go.str "labels", []),
    (Go.str "annotations", [])]

/-- The schema of a result. -/
def arrowSchema (data : CollectRepMetricsData) : ArrowSchema where
  fields := data.fields.map (dynamicField arrow)
  metadata := arrow.metadataFrom (schemaEntries data)

/-! ### The columns of a result -/

/-- `Append` to the builder at an index. -/
def appendTo (builders : List arrow.Builder) (i : ℕ) (value : Str) :
    Except RecordPanic (List arrow.Builder) :=
  match builders[i]? with
  | none => .error .indexOutOfRange
  | some builder => .ok (builders.set i (arrow.append builder value))

/-- The inner loop: one cell for each of `n` fields. -/
def appendCells (n : ℕ) (value : ℕ → Str) (builders : List arrow.Builder) :
    Except RecordPanic (List arrow.Builder) :=
  (List.range n).foldlM (fun builders i => appendTo arrow builders i (value i)) builders

/-- One turn of the outer loop. A row may have fewer columns than there are fields, and the one
row of a result without rows has none. -/
def appendRow (data : CollectRepMetricsData) (builders : List arrow.Builder) (rowIdx : ℕ) :
    Except RecordPanic (List arrow.Builder) :=
  match data.values[rowIdx]? with
  | some valueRow => appendCells arrow data.fields.length (fun i => valueRow[i]?.getD []) builders
  | none => appendCells arrow data.fields.length (fun _ => []) builders

/-- The number of rows of a record: at least one. -/
def rowCount (data : CollectRepMetricsData) : ℕ :=
  if data.values.length = 0 then 1 else data.values.length

/-- `createArrowRecordBatch`. -/
def createArrowRecordBatch (data : CollectRepMetricsData) : Except RecordPanic ArrowRecord := do
  let schema := arrowSchema arrow data
  let builders := schema.fields.map fun _ => arrow.newBuilder
  let builders ← (List.range (rowCount data)).foldlM (appendRow arrow data) builders
  let arrays := builders.map arrow.newArray
  arrow.newRecord schema arrays (rowCount data)

/-! ### What the loops build -/

/-- The cell of a result: empty if it is not there. -/
def CollectRepMetricsData.cell (data : CollectRepMetricsData) (r i : ℕ) : Str :=
  ((data.values[r]?).bind (·[i]?)).getD []

/-- The first `n` cells of every column. -/
def columnsUpTo (data : CollectRepMetricsData) (n : ℕ) : List (List Str) :=
  (List.range data.fields.length).map fun i => (List.range n).map fun r => data.cell r i

theorem rowCount_eq_max (data : CollectRepMetricsData) :
    rowCount data = max 1 data.values.length := by
  unfold rowCount
  split_ifs with h <;> omega

theorem length_columnsUpTo (data : CollectRepMetricsData) (n : ℕ) :
    (columnsUpTo data n).length = data.fields.length := by
  rw [columnsUpTo, List.length_map, List.length_range]

variable {arrow}

/-- One cell is appended to the builder it is meant for. -/
theorem appendTo_eq {builders : List arrow.Builder} {i : ℕ} {builder : arrow.Builder} (value : Str)
    (h : builders[i]? = some builder) :
    appendTo arrow builders i value = .ok (builders.set i (arrow.append builder value)) := by
  rw [appendTo, h]

/-- **A row goes into every builder once.** The induction is on the fields done so far: the
builders below have their cell already, the others not yet. -/
theorem appendCells_eq (value : ℕ → Str) (builders : List arrow.Builder) {n : ℕ}
    (hn : n ≤ builders.length) :
    appendCells arrow n value builders = .ok (builders.mapIdx fun i builder =>
      if i < n then arrow.append builder (value i) else builder) := by
  induction n with
  | zero =>
    have hsame : (builders.mapIdx fun i builder =>
        if i < 0 then arrow.append builder (value i) else builder) = builders := by
      refine List.ext_getElem? fun i => ?_
      simp
    rw [hsame]
    rfl
  | succ n ih =>
    have hlt : n < builders.length := hn
    have hnext : (builders.mapIdx fun i builder =>
        if i < n then arrow.append builder (value i) else builder)[n]? = some (builders[n]) := by
      simp [List.getElem?_mapIdx, List.getElem?_eq_getElem hlt]
    unfold appendCells at ih ⊢
    rw [List.range_succ, List.foldlM_append, ih hlt.le]
    simp only [List.foldlM_cons, List.foldlM_nil, bind_pure]
    refine (appendTo_eq (value n) hnext).trans (congrArg Except.ok (List.ext_getElem? fun i => ?_))
    rcases eq_or_ne n i with rfl | hne
    · simp [hlt]
    · rw [List.getElem?_set_ne hne, List.getElem?_mapIdx, List.getElem?_mapIdx]
      have hiff : i < n + 1 ↔ i < n := by omega
      simp only [hiff]

/-- A turn of the outer loop extends every column by its cell of the row. -/
theorem appendRow_columnsUpTo {data : CollectRepMetricsData} {n : ℕ}
    {builders : List arrow.Builder} (h : builders.map arrow.newArray = columnsUpTo data n) :
    ∃ builders', appendRow arrow data builders n = .ok builders' ∧
      builders'.map arrow.newArray = columnsUpTo data (n + 1) := by
  have hlen : builders.length = data.fields.length := by
    rw [← length_columnsUpTo data n, ← h, List.length_map]
  have hcells : appendRow arrow data builders n =
      appendCells arrow data.fields.length (fun i => data.cell n i) builders := by
    unfold appendRow CollectRepMetricsData.cell
    cases data.values[n]? <;> rfl
  refine ⟨_, hcells.trans (appendCells_eq _ _ hlen.ge), List.ext_getElem? fun i => ?_⟩
  have hcolumn := congrArg (·[i]?) h
  simp only [columnsUpTo, List.getElem?_map] at hcolumn
  rw [List.getElem?_map, List.getElem?_mapIdx, columnsUpTo, List.getElem?_map]
  rcases lt_or_ge i data.fields.length with hi | hi
  · rw [List.getElem?_range hi, List.getElem?_eq_getElem (by omega)] at *
    simp only [Option.map_some, Option.some.injEq] at hcolumn
    simp [hi, List.range_succ, arrow.newArray_append, hcolumn]
  · rw [List.getElem?_eq_none (by omega), List.getElem?_eq_none (by simpa using hi)]
    rfl

/-- **What the loops build**: by induction on the rows done so far. -/
theorem foldlM_appendRow (data : CollectRepMetricsData) (n : ℕ) :
    ∃ builders, (List.range n).foldlM (appendRow arrow data)
        ((arrowSchema arrow data).fields.map fun _ => arrow.newBuilder) = .ok builders ∧
      builders.map arrow.newArray = columnsUpTo data n := by
  induction n with
  | zero =>
    refine ⟨_, rfl, ?_⟩
    simp [columnsUpTo, arrowSchema, Function.comp_def, List.map_const', arrow.newArray_newBuilder]
  | succ n ih =>
    obtain ⟨builders, hloop, hcolumns⟩ := ih
    obtain ⟨builders', hrow, hcolumns'⟩ := appendRow_columnsUpTo hcolumns
    refine ⟨builders', ?_, hcolumns'⟩
    rw [List.range_succ, List.foldlM_append, hloop]
    simp only [List.foldlM_cons, List.foldlM_nil, bind_pure]
    exact hrow

/-- All columns have the length that `NewRecord` asks for. -/
theorem fits_columnsUpTo (arrow : Arrow) (data : CollectRepMetricsData) (n : ℕ) :
    Fits (arrowSchema arrow data) (columnsUpTo data n) n := by
  refine .inr ⟨?_, fun column hcolumn => ?_⟩
  · rw [length_columnsUpTo, arrowSchema, List.length_map]
  · obtain ⟨i, -, rfl⟩ := List.mem_map.mp hcolumn
    rw [List.length_map, List.length_range]

/-- **The record of a result.** -/
theorem createArrowRecordBatch_eq (arrow : Arrow) (data : CollectRepMetricsData) :
    createArrowRecordBatch arrow data = .ok ⟨arrowSchema arrow data,
      columnsUpTo data (rowCount data), rowCount data, fits_columnsUpTo arrow data _⟩ := by
  obtain ⟨builders, hloops, hcolumns⟩ := @foldlM_appendRow arrow data (rowCount data)
  simp only [createArrowRecordBatch, hloops]
  change arrow.newRecord _ (builders.map arrow.newArray) _ = _
  rw [hcolumns]
  exact arrow.newRecord_of_fits _ _ _ _

/-- Where every row has one column for each field, the cells of the columns are the values. -/
theorem map_cell_eq_values {data : CollectRepMetricsData} (hne : data.values ≠ [])
    (hrows : ∀ row ∈ data.values, row.length = data.fields.length) :
    ((List.range (rowCount data)).map fun r =>
      (List.range data.fields.length).map fun i => data.cell r i) = data.values := by
  have hcount : rowCount data = data.values.length := by
    rw [rowCount, if_neg (by simpa using hne)]
  refine List.ext_getElem? fun r => ?_
  rw [List.getElem?_map, hcount]
  rcases lt_or_ge r data.values.length with hr | hr
  · have hwidth := hrows _ (List.getElem_mem hr)
    rw [List.getElem?_range hr, List.getElem?_eq_getElem hr, Option.map_some, Option.some_inj]
    refine List.ext_getElem? fun i => ?_
    rw [List.getElem?_map]
    rcases lt_or_ge i data.fields.length with hi | hi
    · rw [List.getElem?_range hi, List.getElem?_eq_getElem (hwidth ▸ hi)]
      simp [CollectRepMetricsData.cell, hr, hwidth ▸ hi]
    · rw [List.getElem?_eq_none (by simpa using hi), List.getElem?_eq_none (hwidth ▸ hi)]
      rfl
  · rw [List.getElem?_eq_none (by simpa using hr), List.getElem?_eq_none hr]
    rfl

/-- **Cells survive.** The record of a result has one column for each field, in their order; all
have one length, which is the number of rows or one; every cell is the one of the values, or
empty where there is none. So values whose rows have one column for each field are read back as
they are. -/
theorem createArrowRecordBatch_cells (arrow : Arrow) (data : CollectRepMetricsData) :
    ∃ record, createArrowRecordBatch arrow data = .ok record ∧
      record.schema.fields.map ArrowField.name = data.fields.map Field.field ∧
      record.columns.length = data.fields.length ∧
      record.rows = max 1 data.values.length ∧
      (∀ column ∈ record.columns, column.length = max 1 data.values.length) ∧
      (∀ r i, r < max 1 data.values.length → i < data.fields.length →
        (record.columns[i]?).bind (·[r]?) = some (((data.values[r]?).bind (·[i]?)).getD [])) ∧
      (data.values ≠ [] → (∀ row ∈ data.values, row.length = data.fields.length) →
        record.readRows = data.values) := by
  refine ⟨_, createArrowRecordBatch_eq arrow data, ?_, length_columnsUpTo _ _,
    rowCount_eq_max data, ?_, ?_, ?_⟩
  · simp [arrowSchema, dynamicField]
  · intro column hcolumn
    obtain ⟨i, -, rfl⟩ := List.mem_map.mp hcolumn
    rw [List.length_map, List.length_range, rowCount_eq_max]
  · intro r i hr hi
    rw [← rowCount_eq_max] at hr
    simp [columnsUpTo, hi, hr, CollectRepMetricsData.cell]
  · intro hne hrows
    refine Eq.trans ?_ (map_cell_eq_values hne hrows)
    refine List.map_congr_left fun r hr => ?_
    have hr' := List.mem_range.mp hr
    simp [columnsUpTo, hr']

end HertzBeat
