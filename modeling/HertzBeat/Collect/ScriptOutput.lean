import HertzBeat.Collect.SSHCollector
import HertzBeat.Lib.Assign
import HertzBeat.Lib.Printed

/-!
# What a script prints

A script that is run over SSH prints its results as text, in one of two forms: one value in each
line, in the order of the aliases, or a table with a header line. The response time is not printed
by the script; an alias of that name is filled by the collector, wherever it stands.

Both forms are read back as what was printed. For the first it is a matter of alignment: the aliases
and the lines are walked through side by side, the lines more slowly, and
`HertzBeat.SSHCollector.values_parseResponseDataByOne` says that each value ends up under its alias.
For the second, `HertzBeat.SSHCollector.values_parseResponseDataByMulti` says that the rows of a
table come out as they went in, however they were laid out; a cell is found by the name at the head
of its column.
-/

namespace HertzBeat

open Go (Str Text)

namespace SSHCollector

/-! ### One value in each line -/

section OneRow

variable {env : Env}

/-- Values that are printed one in each line, and ended with a newline or not. -/
def printedValues (values : List Str) (final : Bool) : Str :=
  [10].intercalate values ++ if final then [10] else []

/-- The lines begin with the values. What may follow is an empty line. -/
theorem split_printedValues {values : List Str} (hvalues : ∀ v ∈ values, 10 ∉ v) (final : Bool) :
    ∃ rest, Go.split (printedValues values final) (Go.str "\n") = values ++ rest := by
  have hjoined : ∃ rest, Go.split ([10].intercalate values) [10] = values ++ rest := by
    rcases eq_or_ne values [] with rfl | hne
    · exact ⟨[[]], rfl⟩
    · exact ⟨[], by rw [Go.split_intercalate hvalues hne, List.append_nil]⟩
  obtain ⟨rest, hrest⟩ := hjoined
  change ∃ rest, Go.split (printedValues values final) [10] = values ++ rest
  cases final with
  | false =>
    refine ⟨rest, ?_⟩
    rw [← hrest]
    exact congrArg (Go.split · [10]) (List.append_nil _)
  | true =>
    refine ⟨rest ++ [[]], ?_⟩
    rw [← List.append_assoc, ← hrest]
    exact Go.split_concat _ _

/-- An ordinary alias takes the next line. -/
theorem oneRowColumns_cons {name value : Str}
    (hname : ¬env.helper.text.equalFold name responseTimeKey)
    (hvalue : env.helper.text.trimSpace value = value) (aliases lines : List Str) :
    oneRowColumns env (name :: aliases) (value :: lines) =
      value :: oneRowColumns env aliases lines := by
  rw [oneRowColumns, if_neg hname, hvalue]

/-- The alias of the response time takes none. -/
theorem oneRowColumns_responseTime {name : Str}
    (hname : env.helper.text.equalFold name responseTimeKey) (aliases lines : List Str) :
    oneRowColumns env (name :: aliases) lines =
      Go.itoa env.responseTime :: oneRowColumns env aliases lines := by
  rw [oneRowColumns.eq_def]
  exact if_pos hname

/-- The aliases and the lines that belong to them are walked through side by side. -/
theorem oneRowColumns_names {names values : List Str} (hlen : names.length = values.length)
    (hnames : ∀ name ∈ names, ¬env.helper.text.equalFold name responseTimeKey)
    (hvalues : ∀ v ∈ values, env.helper.text.trimSpace v = v) (lines : List Str) :
    oneRowColumns env names (values ++ lines) = values := by
  induction names generalizing values with
  | nil => rw [List.length_eq_zero_iff.mp hlen.symm, oneRowColumns]
  | cons name names ih =>
    obtain ⟨v, values, rfl⟩ := List.exists_cons_of_length_eq_add_one hlen.symm
    rw [List.forall_mem_cons] at hnames hvalues
    rw [List.cons_append, oneRowColumns_cons hnames.1 hvalues.1,
      ih (Nat.succ.inj hlen) hnames.2 hvalues.2]

theorem oneRowColumns_insertIdx {names values : List Str} (hlen : names.length = values.length)
    (hnames : ∀ name ∈ names, ¬env.helper.text.equalFold name responseTimeKey)
    (hvalues : ∀ v ∈ values, env.helper.text.trimSpace v = v) (lines : List Str)
    {i : ℕ} (hi : i ≤ names.length) {name : Str}
    (hname : env.helper.text.equalFold name responseTimeKey) :
    oneRowColumns env (names.insertIdx i name) (values ++ lines) =
      values.insertIdx i (Go.itoa env.responseTime) := by
  induction i generalizing names values with
  | zero =>
    rw [List.insertIdx_zero, List.insertIdx_zero, oneRowColumns_responseTime hname,
      oneRowColumns_names hlen hnames hvalues]
  | succ i ih =>
    obtain ⟨n, names, rfl⟩ := List.exists_cons_of_length_pos (Nat.zero_lt_of_lt hi)
    obtain ⟨v, values, rfl⟩ := List.exists_cons_of_length_eq_add_one hlen.symm
    rw [List.forall_mem_cons] at hnames hvalues
    rw [List.insertIdx_succ_cons, List.insertIdx_succ_cons, List.cons_append,
      oneRowColumns_cons hnames.1 hvalues.1,
      ih (Nat.succ.inj hlen) hnames.2 hvalues.2 (Nat.le_of_succ_le_succ hi)]

/-- A row is made if there is a line for every alias but one. -/
theorem values_parseResponseDataByOne_of_length {result : Str} {aliases lines rest : List Str}
    {response : CollectRepMetricsData} (hlines : Go.split result (Go.str "\n") = lines ++ rest)
    (hlen : aliases.length ≤ lines.length + 1) :
    (parseResponseDataByOne env result aliases response).values =
      response.values ++ [oneRowColumns env aliases (lines ++ rest)] := by
  have hle : ¬(lines ++ rest).length + 1 < aliases.length := by
    rw [List.length_append]
    omega
  rw [parseResponseDataByOne, hlines, if_neg hle]

/-- **Values that are printed one in each line stand under their aliases**, and the response time
under its own, if it is asked for, wherever that is. -/
theorem values_parseResponseDataByOne {names values : List Str}
    (hvalues : ∀ v ∈ values, 10 ∉ v ∧ env.helper.text.trimSpace v = v)
    (hnames : ∀ name ∈ names, ¬env.helper.text.equalFold name responseTimeKey)
    (hlen : names.length = values.length) (final : Bool) (response : CollectRepMetricsData) :
    (parseResponseDataByOne env (printedValues values final) names response).values =
        response.values ++ [values] ∧
      ∀ i ≤ names.length, ∀ name, env.helper.text.equalFold name responseTimeKey →
        (parseResponseDataByOne env (printedValues values final) (names.insertIdx i name)
            response).values =
          response.values ++ [values.insertIdx i (Go.itoa env.responseTime)] := by
  obtain ⟨rest, hrest⟩ := split_printedValues (fun v hv => (hvalues v hv).1) final
  have htrim : ∀ v ∈ values, env.helper.text.trimSpace v = v := fun v hv => (hvalues v hv).2
  constructor
  · rw [values_parseResponseDataByOne_of_length hrest (by omega),
      oneRowColumns_names hlen hnames htrim]
  · intro i hi name hname
    have hinsert : (names.insertIdx i name).length ≤ values.length + 1 := by
      rw [List.length_insertIdx_of_le_length hi, hlen]
    rw [values_parseResponseDataByOne_of_length hrest hinsert,
      oneRowColumns_insertIdx hlen hnames htrim rest hi hname]

/-- A host whose scripts answer in so many milliseconds. -/
def Env.answering (responseTime : ℤ) : Env where
  helper := .connected
  parseDuration := fun _ => none
  newSession := .ok ()
  run := fun _ => .ok []
  now := 0
  responseTime := responseTime

/-- Two values, with the response time between them. -/
theorem values_parseResponseDataByOne_two :
    (parseResponseDataByOne (.answering 7) (Go.str "12\nLinux 6.1\n")
        [Go.str "load", Go.str "ResponseTime", Go.str "kernel"]
        (createSuccessResponse (Metrics.bare [] []) 0)).values =
      [[Go.str "12", Go.str "7", Go.str "Linux 6.1"]] :=
  (@values_parseResponseDataByOne (.answering 7) [Go.str "load", Go.str "kernel"]
    [Go.str "12", Go.str "Linux 6.1"] (List.all_iff_forall_prop.mp rfl)
    (List.all_iff_forall_prop.mp rfl) rfl true
    (createSuccessResponse (Metrics.bare [] []) 0)).2 1 (by decide) (Go.str "ResponseTime")
    rfl

end OneRow

/-! ### A table -/

/-- **A table**: names that differ in more than their case, and rows with a cell for each of them.
All of these are words. -/
structure Table (text : Text) where
  names : List Str
  rows : List (List Str)
  isWord_name : ∀ name ∈ names, text.IsWord name
  nodup_names : (names.map text.toLower).Nodup
  length_row : ∀ row ∈ rows, row.length = names.length
  isWord_cell : ∀ row ∈ rows, ∀ cell ∈ row, text.IsWord cell

/-- **The lines of rows**: a line for each of them in their order, and blank lines anywhere. -/
inductive PrintsRows : List (List Str) → List Str → Prop
  | nil : PrintsRows [] []
  | blank {rows : List (List Str)} {line : Str} {lines : List Str} :
    Go.AreBlanks line → PrintsRows rows lines → PrintsRows rows (line :: lines)
  | row {cells : List Str} {rows : List (List Str)} {line : Str} {lines : List Str} :
    Go.Spaced cells line → PrintsRows rows lines → PrintsRows (cells :: rows) (line :: lines)

/-- **A table as it is printed**: a header line, and the lines of the rows. A newline at the end is
a last line that is blank. -/
def Table.PrintedAs {text : Text} (table : Table text) (result : Str) : Prop :=
  ∃ header lines, Go.Spaced table.names header ∧ PrintsRows table.rows lines ∧
    result = [10].intercalate (header :: lines)

variable (env : Env)

/-- The cell of a row under a name, in whatever case that is written. -/
def cellUnder (names cells : List Str) (name : Str) : Option Str :=
  ((names.zip cells).find? fun p =>
    env.helper.text.toLower p.1 = env.helper.text.toLower name).map Prod.snd

/-- **What is to stand under an alias**, for a row of the table. -/
def tableColumn (names cells : List Str) (aliasField : Str) : Str :=
  if env.helper.text.equalFold aliasField responseTimeKey then Go.itoa env.responseTime
  else (cellUnder env names cells aliasField).getD nullValue

section MultiRow

variable {env} (htext : env.helper.text.Separates)

include htext

/-- The positions of the names are assigned one after the other. -/
theorem fieldMapping_eq_assign {names : List Str} {header : Str} (h : Go.Spaced names header)
    (hnames : ∀ name ∈ names, env.helper.text.IsWord name) :
    fieldMapping env header =
      Go.assign ∅ (names.zipIdx.map fun p => (env.helper.text.toLower p.1, p.2)) := by
  rw [fieldMapping, Go.fields_spaced htext h hnames, Go.assign, List.foldl_map]
  apply List.foldl_ext
  intro mapping p hp
  rw [htext.trimSpace_word p.1 (hnames p.1 (List.fst_mem_of_mem_zipIdx hp))]

theorem lookup_fieldMapping_eq_some_iff {names : List Str} {header : Str}
    (h : Go.Spaced names header) (hnames : ∀ name ∈ names, env.helper.text.IsWord name)
    (hnodup : (names.map env.helper.text.toLower).Nodup) {key : Str} {i : ℕ} :
    (fieldMapping env header).lookup key = some i ↔
      ∃ name, names[i]? = some name ∧ env.helper.text.toLower name = key := by
  have hkeys :
      ((names.zipIdx.map fun p => (env.helper.text.toLower p.1, p.2)).map Prod.fst).Nodup := by
    rw [List.map_map]
    change (names.zipIdx.map (env.helper.text.toLower ∘ Prod.fst)).Nodup
    rwa [← List.map_map, List.zipIdx_map_fst]
  rw [fieldMapping_eq_assign htext h hnames, Go.lookup_assign, AList.lookup_empty, Option.or_none,
    Go.lastValue_eq_some_iff_mem hkeys, List.mem_map]
  constructor
  · rintro ⟨p, hp, heq⟩
    obtain ⟨rfl, rfl⟩ := Prod.mk.inj heq
    exact ⟨p.1, List.mem_zipIdx_iff_getElem?.mp hp, rfl⟩
  · rintro ⟨name, hname, rfl⟩
    exact ⟨(name, i), List.mem_zipIdx_iff_getElem?.mpr hname, rfl⟩

/-- **A name leads to the cell under it.** -/
theorem lookup_fieldMapping_bind {names cells : List Str} {header : Str}
    (h : Go.Spaced names header) (hnames : ∀ name ∈ names, env.helper.text.IsWord name)
    (hnodup : (names.map env.helper.text.toLower).Nodup) (hlen : cells.length = names.length)
    (name : Str) :
    (((fieldMapping env header).lookup (env.helper.text.toLower name)).bind fun i => cells[i]?) =
      cellUnder env names cells name := by
  have hlookup := @lookup_fieldMapping_eq_some_iff env htext names header h hnames hnodup
    (env.helper.text.toLower name)
  rw [cellUnder]
  cases hfind : (names.zip cells).find? fun p =>
      decide (env.helper.text.toLower p.1 = env.helper.text.toLower name) with
  | none =>
    rw [Option.map_none, Option.bind_eq_none_iff]
    intro i hi
    obtain ⟨n, hn, hkey⟩ := hlookup.mp hi
    obtain ⟨hlt, -⟩ := List.getElem?_eq_some_iff.mp hn
    have hcell := List.getElem?_eq_getElem (hlen ▸ hlt : i < cells.length)
    have hmem : (n, cells[i]) ∈ names.zip cells :=
      List.mem_iff_getElem?.mpr ⟨i, List.getElem?_zip_eq_some.mpr ⟨hn, hcell⟩⟩
    exact absurd (decide_eq_true hkey) (List.find?_eq_none.mp hfind _ hmem)
  | some p =>
    obtain ⟨i, hi⟩ := List.mem_iff_getElem?.mp (List.mem_of_find?_eq_some hfind)
    obtain ⟨hn, hcell⟩ := List.getElem?_zip_eq_some.mp hi
    have hkey := List.find?_some (p := fun p : Str × Str =>
      decide (env.helper.text.toLower p.1 = env.helper.text.toLower name)) hfind
    rw [hlookup.mpr ⟨p.1, hn, of_decide_eq_true hkey⟩, Option.bind_some, hcell]
    rfl

/-- The lines of the rows are read one by one, and those that are blank are passed over. -/
theorem filterMap_multiRow {rows : List (List Str)} {lines : List Str} (h : PrintsRows rows lines)
    (hcells : ∀ row ∈ rows, ∀ cell ∈ row, env.helper.text.IsWord cell) (mapping : Go.Map Str ℕ)
    (aliasFields : List Str) :
    lines.filterMap (multiRow env mapping aliasFields) =
      rows.map (multiRowColumns env mapping aliasFields) := by
  induction h with
  | nil => rfl
  | @blank rows line lines hblank _ ih =>
    have hline : multiRow env mapping aliasFields line = none :=
      if_pos ((htext.trimSpace_eq_nil_iff line).mpr (Go.fields_blanks htext hblank))
    rw [List.filterMap_cons_none hline, ih hcells]
  | @row cells rows line lines hspaced _ ih =>
    rw [List.forall_mem_cons] at hcells
    have hfields := Go.fields_spaced htext hspaced hcells.1
    have hne : env.helper.text.trimSpace line ≠ [] := fun hnil => by
      rw [htext.trimSpace_eq_nil_iff, hfields] at hnil
      subst hnil
      cases hspaced
    have hline : multiRow env mapping aliasFields line =
        some (multiRowColumns env mapping aliasFields cells) := by
      rw [multiRow, if_neg hne, htext.fields_trimSpace, hfields]
    rw [List.filterMap_cons_some hline, ih hcells.2, List.map_cons]

theorem newline_notMem_lines {rows : List (List Str)} {lines : List Str} (h : PrintsRows rows lines)
    (hcells : ∀ row ∈ rows, ∀ cell ∈ row, env.helper.text.IsWord cell) :
    ∀ line ∈ lines, 10 ∉ line := by
  induction h with
  | nil => simp
  | blank hblank _ ih =>
    rw [List.forall_mem_cons]
    exact ⟨fun hmem => (hblank 10 hmem).2 rfl, ih hcells⟩
  | row hspaced _ ih =>
    rw [List.forall_mem_cons] at hcells ⊢
    exact ⟨Go.newline_notMem_spaced htext hspaced hcells.1, ih hcells.2⟩

/-- **A table that is printed is read back**: there is one row for each of its rows, and in each of
them what is to stand under the aliases. -/
theorem values_parseResponseDataByMulti {table : Table env.helper.text} {result : Str}
    (hprinted : table.PrintedAs result) (aliasFields : List Str)
    (response : CollectRepMetricsData) :
    (parseResponseDataByMulti env result aliasFields response).values =
      response.values ++ table.rows.map fun cells =>
        aliasFields.map (tableColumn env table.names cells) := by
  obtain ⟨header, lines, hheader, hlines, rfl⟩ := hprinted
  have hsplit : Go.split ([10].intercalate (header :: lines)) (Go.str "\n") = header :: lines := by
    apply Go.split_intercalate _ (List.cons_ne_nil _ _)
    rw [List.forall_mem_cons]
    exact ⟨Go.newline_notMem_spaced htext hheader table.isWord_name,
      newline_notMem_lines htext hlines table.isWord_cell⟩
  have hrows : table.rows.map (multiRowColumns env (fieldMapping env header) aliasFields) =
      table.rows.map fun cells => aliasFields.map (tableColumn env table.names cells) := by
    refine List.map_congr_left fun cells hcells => List.map_congr_left fun aliasField _ => ?_
    rw [lookup_fieldMapping_bind htext hheader table.isWord_name table.nodup_names
      (table.length_row cells hcells), tableColumn]
  rw [parseResponseDataByMulti, hsplit]
  cases lines with
  | nil =>
    have hnil : table.rows = [] := by
      generalize table.rows = rows at hlines
      cases hlines
      rfl
    rw [hnil]
    exact (List.append_nil _).symm
  | cons line lines =>
    change response.values ++ _ = _
    rw [filterMap_multiRow htext hlines table.isWord_cell, hrows]

end MultiRow

/-- The file systems of a host. -/
def disks : Table .ascii where
  names := [Go.str "Mount", Go.str "Used"]
  rows := [[Go.str "/", Go.str "12G"], [Go.str "/var", Go.str "3G"]]
  isWord_name := by decide
  nodup_names := by decide
  length_row := by decide
  isWord_cell := by decide

theorem values_parseResponseDataByMulti_disks :
    (parseResponseDataByMulti (.answering 7) (Go.str "Mount  Used\n/ 12G\n\n/var\t3G\n")
        [Go.str "used", responseTimeKey, Go.str "mount", Go.str "free"]
        (createSuccessResponse (Metrics.bare [] []) 0)).values =
      [[Go.str "12G", Go.str "7", Go.str "/", nullValue],
        [Go.str "3G", Go.str "7", Go.str "/var", nullValue]] := by
  have hblanks :
      Go.AreBlanks [32, 32] ∧ Go.AreBlanks [32] ∧ Go.AreBlanks [9] ∧ Go.AreBlanks [] := by
    simp [Go.AreBlanks, Go.isBlank]
  have hheader : Go.Spaced disks.names (Go.str "Mount  Used") :=
    @Go.Spaced.cons _ [32, 32] _ _ (by simp) hblanks.1 (.word _)
  have hlines : PrintsRows disks.rows [Go.str "/ 12G", [], Go.str "/var\t3G", []] :=
    .row (@Go.Spaced.cons _ [32] _ _ (by simp) hblanks.2.1 (.word _)) <|
      .blank hblanks.2.2.2 <|
        .row (@Go.Spaced.cons _ [9] _ _ (by simp) hblanks.2.2.1 (.word _)) <|
          .blank hblanks.2.2.2 .nil
  refine (@values_parseResponseDataByMulti (.answering 7) Go.Text.separates_ascii disks _
    ⟨_, _, hheader, hlines, rfl⟩ _ _).trans ?_
  rfl

end SSHCollector

end HertzBeat
