import HertzBeat.Collect.HTTPCollector
import HertzBeat.Lib.Printed

/-!
# The rows of the HTTP collector

Four parsers make rows, each in its own way: of a table of metrics, of a page, of headers, and of a
JSON value. What they do not know is how long the exchange took and what its status was. That is
written into their rows afterwards, at the positions of the aliases that ask for it, and a response
without any row gets one first.

The positions are counted in the list of aliases and used in the rows, so that everything hangs on
the width of these. `HertzBeat.HTTPCollector.fillRow_eq` says what becomes of a row of the right
width, and `HertzBeat.HTTPCollector.collect_rows` what a collection returns.
-/

namespace HertzBeat

open Go (Str)

namespace HTTPCollector

variable {URL : Type} (env : Env URL)

/-- **What is to stand in a column**, where something stands there already. -/
def filledColumn (statusCode : ℤ) (aliasField column : Str) : Str :=
  if env.text.equalFold aliasField statusCodeKey then Go.itoa statusCode
  else if env.text.equalFold aliasField responseTimeKey then Go.itoa env.responseTime
  else column

/-- The rows that are there to be filled. -/
def rowsToFill (response : CollectRepMetricsData) (fields : List Str) : List (List Str) :=
  if response.values = [] then [fields.map fun _ => nullValue] else response.values

variable {env} {statusCode : ℤ} {fields : List Str}

/-- One column is filled. -/
theorem fillColumn_eq (done : List Str) (column : Str) (rest : List Str) (aliasField : Str) :
    fillColumn env statusCode (done ++ column :: rest) (aliasField, done.length) =
      .ok (done ++ filledColumn env statusCode aliasField column :: rest) := by
  have hset : ∀ c v, setColumn (done ++ c :: rest) done.length v = .ok (done ++ v :: rest) := by
    intro c v
    rw [setColumn, if_pos (by simp), List.set_append_right _ _ le_rfl, Nat.sub_self,
      List.set_cons_zero]
  rw [fillColumn, filledColumn]
  by_cases hrt : env.text.equalFold aliasField responseTimeKey = true <;>
    by_cases hsc : env.text.equalFold aliasField statusCodeKey = true <;>
    simp [hrt, hsc, hset, bind, Except.bind, pure, Except.pure]

/-- The columns are filled one after the other. -/
theorem foldlM_fillColumn (fields done columns : List Str) (hlen : columns.length = fields.length) :
    (fields.zipIdx done.length).foldlM (fillColumn env statusCode) (done ++ columns) =
      .ok (done ++ List.zipWith (filledColumn env statusCode) fields columns) := by
  induction fields generalizing done columns with
  | nil =>
    rw [List.length_eq_zero_iff.mp hlen]
    rfl
  | cons aliasField fields ih =>
    obtain ⟨column, columns, rfl⟩ := List.exists_cons_of_length_eq_add_one hlen
    have hrest := ih (done ++ [filledColumn env statusCode aliasField column]) columns
      (Nat.succ.inj hlen)
    rw [List.length_append, List.length_singleton, List.append_assoc, List.append_assoc] at hrest
    rw [List.zipIdx_cons, List.foldlM_cons, fillColumn_eq]
    exact hrest

/-- **A row with a column for each alias is filled.** -/
theorem fillRow_eq {columns : List Str} (hlen : columns.length = fields.length) :
    fillRow env fields statusCode columns =
      .ok (List.zipWith (filledColumn env statusCode) fields columns) :=
  foldlM_fillColumn fields [] columns hlen

theorem rowsToFill_ne_nil (response : CollectRepMetricsData) (fields : List Str) :
    rowsToFill response fields ≠ [] := by
  rw [rowsToFill]
  split_ifs with h
  · exact List.cons_ne_nil _ _
  · exact h

/-- The row that is made up is as wide as the others. -/
theorem length_of_mem_rowsToFill {response : CollectRepMetricsData}
    (hlen : ∀ row ∈ response.values, row.length = fields.length) :
    ∀ row ∈ rowsToFill response fields, row.length = fields.length := by
  rw [rowsToFill]
  split_ifs
  · simp
  · exact hlen

/-- **What becomes of the rows of a parser.** -/
theorem fillCommonFields_eq {response : CollectRepMetricsData}
    (hlen : ∀ row ∈ response.values, row.length = fields.length) :
    fillCommonFields env response fields statusCode =
      .ok { response with
        fields := if response.fields = [] then stringFields fields else response.fields
        values := (rowsToFill response fields).map
          (List.zipWith (filledColumn env statusCode) fields) } := by
  have hfill : (rowsToFill response fields).mapM (fillRow env fields statusCode) =
      .ok ((rowsToFill response fields).map (List.zipWith (filledColumn env statusCode) fields)) :=
    Go.mapM_eq_ok_map fun row hrow => fillRow_eq (length_of_mem_rowsToFill hlen row hrow)
  rw [fillCommonFields]
  change Except.bind ((rowsToFill response fields).mapM (fillRow env fields statusCode)) _ = _
  rw [hfill]
  rfl

/-! ### What a collection returns -/

/-- **A row as it should be**: with a column for each alias, and the status and the time of the
exchange in those that ask for it. -/
structure RowFits (env : Env URL) (statusCode : ℤ) (fields row : List Str) : Prop where
  length_eq : row.length = fields.length
  statusCode_of : ∀ (i : ℕ) (aliasField : Str), fields[i]? = some aliasField →
    env.text.equalFold aliasField statusCodeKey → row[i]? = some (Go.itoa statusCode)
  responseTime_of : ∀ (i : ℕ) (aliasField : Str), fields[i]? = some aliasField →
    env.text.equalFold aliasField responseTimeKey → row[i]? = some (Go.itoa env.responseTime)

/-- No alias asks for both. -/
theorem not_equalFold_statusCodeKey (hfolds : env.text.Folds) {aliasField : Str}
    (h : env.text.equalFold aliasField responseTimeKey) :
    ¬env.text.equalFold aliasField statusCodeKey := by
  intro h'
  have hkeys := hfolds.trans _ _ _ (hfolds.symm _ _ h) h'
  have hlower := hfolds.ascii _ _ (List.all_iff_forall_prop.mp rfl)
    (List.all_iff_forall_prop.mp rfl) hkeys
  exact absurd hlower (by decide)

theorem rowFits_zipWith (hfolds : env.text.Folds) {columns : List Str}
    (hlen : columns.length = fields.length) :
    RowFits env statusCode fields (List.zipWith (filledColumn env statusCode) fields columns) := by
  have hget : ∀ (i : ℕ) (aliasField : Str), fields[i]? = some aliasField → ∃ column,
      (List.zipWith (filledColumn env statusCode) fields columns)[i]? =
        some (filledColumn env statusCode aliasField column) := by
    intro i aliasField hi
    obtain ⟨hlt, -⟩ := List.getElem?_eq_some_iff.mp hi
    refine ⟨columns[i], ?_⟩
    rw [List.getElem?_zipWith, hi, List.getElem?_eq_getElem (hlen ▸ hlt)]
  refine ⟨by rw [List.length_zipWith, hlen, min_self], ?_, ?_⟩
  · intro i aliasField hi hstatus
    obtain ⟨column, hcolumn⟩ := hget i aliasField hi
    rw [hcolumn, filledColumn, if_pos hstatus]
  · intro i aliasField hi htime
    obtain ⟨column, hcolumn⟩ := hget i aliasField hi
    rw [hcolumn, filledColumn, if_neg (not_equalFold_statusCodeKey hfolds htime), if_pos htime]

variable {metrics : Metrics Option} {response : CollectRepMetricsData}

/-- A collection that succeeds got as far as its parser. -/
theorem exists_of_collect_success (h : collect env metrics = .ok response)
    (hcode : response.code = .success) :
    ∃ config req resp body parsed, metrics.http = some config ∧
      createRequest env config (targetURL metrics config) = .ok req ∧
      exchangeAll env config (clientTimeout metrics config) req = .ok (.ok resp) ∧
      parseResponse env resp body metrics config = .ok parsed ∧
      fillCommonFields env parsed metrics.aliases resp.statusCode = .ok response := by
  have hfail : ∀ code msg, code ≠ .success →
      (.ok (createFailResponse metrics env.now code msg) : Except Go.Panic _) ≠ .ok response := by
    rintro code msg hne heq
    obtain rfl := Except.ok.inj heq
    exact hne hcode
  unfold collect at h
  split at h
  · cases h
  · next config hconfig =>
    dsimp only at h
    split_ifs at h
    · exact absurd h (hfail _ _ (by decide))
    · split at h
      · exact absurd h (hfail _ _ (by decide))
      · next req hreq =>
        split at h
        · cases h
        · exact absurd h (hfail _ _ (by decide))
        · next resp hresp =>
          split at h
          · exact absurd h (hfail _ _ (by decide))
          · next body hbody =>
            split at h
            · exact absurd h (hfail _ _ (by decide))
            · next parsed hparsed =>
              exact ⟨config, req, resp, body, parsed, hconfig, hreq, hresp, hparsed, h⟩

/-- **The rows of a collection**: no column is written that is not there, and a collection that
succeeds has rows, all of them as they should be for the response that it got. -/
theorem collect_rows (hfolds : env.text.Folds) (metrics : Metrics Option) :
    collect env metrics ≠ .error .indexOutOfRange ∧
      ∀ response, collect env metrics = .ok response → response.code = .success →
        ∃ config req resp, metrics.http = some config ∧
          createRequest env config (targetURL metrics config) = .ok req ∧
          exchangeAll env config (clientTimeout metrics config) req = .ok (.ok resp) ∧
          response.values ≠ [] ∧
            ∀ row ∈ response.values, RowFits env resp.statusCode metrics.aliases row := by
  constructor
  · cases hhttp : metrics.http with
    | none =>
      rw [collect_eq_error hhttp]
      simp
    | some config =>
      obtain ⟨response, hresponse⟩ := @collect_eq_ok _ env metrics config hhttp
      rw [hresponse]
      simp
  · intro response h hcode
    obtain ⟨config, req, resp, body, parsed, hconfig, hreq, hresp, hparsed, hfill⟩ :=
      exists_of_collect_success h hcode
    have hlen := length_of_parseResponse hparsed
    rw [fillCommonFields_eq hlen] at hfill
    obtain rfl := Except.ok.inj hfill
    refine ⟨config, req, resp, hconfig, hreq, hresp, ?_, ?_⟩
    · exact fun hnil => rowsToFill_ne_nil parsed metrics.aliases (List.map_eq_nil_iff.mp hnil)
    · intro row hrow
      obtain ⟨columns, hcolumns, rfl⟩ := List.mem_map.mp hrow
      exact rowFits_zipWith hfolds (length_of_mem_rowsToFill hlen columns hcolumns)

/-- A server that answers every request with a page. A URL is any string. -/
def Env.answering (statusCode : ℤ) (body : Str) (responseTime : ℤ) : Env Str where
  text := .ascii
  newRequest := fun method url body =>
    .ok { method := method, url := url, header := ∅, body := body }
  string := id
  requestURI := id
  addQuery := fun url _ => url
  canonicalKey := id
  basicAuth := fun _ _ => []
  md5Hex := id
  cnonce := []
  exchange := fun _ _ _ => .ok
    { statusCode := statusCode, header := fun _ => [], body := .ok body, closedBody := .ok [] }
  decodeJSON := fun _ => none
  textToMetricFamilies := fun _ => .ok []
  order := .listed
  now := 0
  responseTime := responseTime
  newRequest_string := fun _ => ⟨⟨_, rfl⟩, fun _ => ⟨_, rfl⟩⟩

/-- A metric of a page that is no JSON. -/
def pageMetrics : Metrics Option :=
  { Metrics.bare (Go.str "page") (Go.str "http") with
    aliasFields := some [Go.str "title", Go.str "RESPONSETIME", Go.str "statusCode"]
    http := some
      { url := Go.str "http://example.org", headers := none, params := none
        authorization := none } }

/-- The page has no row of its own, and so one that is made up is filled. -/
theorem collect_rows_page :
    ∃ response, collect (.answering 404 (Go.str "Not found") 7) pageMetrics = .ok response ∧
      response.code = .success ∧
      response.values = [[nullValue, Go.str "7", Go.str "404"]] ∧
      ∀ row ∈ response.values,
        RowFits (.answering 404 (Go.str "Not found") 7) 404 pageMetrics.aliases row := by
  refine ⟨_, rfl, rfl, rfl, ?_⟩
  obtain ⟨config, req, resp, hconfig, -, hresp, -, hfits⟩ :=
    (@collect_rows _ (.answering 404 (Go.str "Not found") 7) Go.Text.folds_ascii pageMetrics).2
      _ rfl rfl
  obtain rfl := Option.some.inj hconfig
  obtain rfl := Except.ok.inj (Except.ok.inj hresp)
  exact hfits

end HTTPCollector

end HertzBeat
