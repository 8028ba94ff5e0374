import HertzBeat.Collect.JDBCCollector

/-!
# The response time in row queries

A metric may ask for the response time of a query among its fields, under a name of its own beside
those of the columns. The row queries scan each row into one destination for each *name*, and put
the response time into the row afterwards. But a scan wants one destination for each *column*. With
the name of the response time there is one too many, and every scan fails:
`HertzBeat.JDBCCollector.collect_rows_iff`. The collection is as it should be only if there is no
row to scan.
-/

namespace HertzBeat

open Go (Str)

namespace JDBCCollector

/-- The queries that return rows. -/
inductive RowQuery where
  | oneRow
  | multiRow
  deriving DecidableEq, Repr

namespace RowQuery

/-- How the query is named in a configuration. -/
def name : RowQuery → Str
  | .oneRow => Go.str "oneRow"
  | .multiRow => Go.str "multiRow"

/-- How often `Next` is called, unless it is until there are no more rows. -/
def limit : RowQuery → Option ℕ
  | .oneRow => some 1
  | .multiRow => none

/-- The rows that the query is to return, of those that there are. -/
def returned {α : Type} (table : List α) : RowQuery → List α
  | .oneRow => table.take 1
  | .multiRow => table

end RowQuery

/-- **A result set**, with these columns and these rows of values. A row is scanned into as many
destinations as there are columns, and into no other number. -/
def Rows.table (columns : List Str) (table : List (List (Option Str))) (scanError : ℕ → DBError) :
    Rows where
  columns := .ok columns
  rows := table.map fun row =>
    ⟨fun n => if n = columns.length then .ok fun i => row[i]?.join else .error (scanError n)⟩
  err := fun _ => none

/-- **The row that is to be returned**: the values of the columns, or the null marker, and the
response time at its position. -/
def timedRow (position : ℕ) (duration : ℤ) (row : List (Option Str)) : List Str :=
  (row.map fun value => value.getD nullValue).insertIdx position (Go.itoa duration)

section

variable {env : Env} {metrics : Metrics Option} {jdbc : JDBCProtocol Option} {q : RowQuery}
  {columns : List Str} {table : List (List (Option Str))} {scanError : ℕ → DBError}
  {url sql : Str} {aliasFields : List Str} {response : CollectRepMetricsData}

/-- A configuration that asks for rows. -/
theorem runQuery_eq (hq : jdbc.queryType = q.name) :
    runQuery env jdbc url aliasFields response =
      queryRows env q.limit url jdbc.sql aliasFields response := by
  rw [runQuery, hq]
  cases q with
  | oneRow =>
    rw [if_pos (by rfl)]
    rfl
  | multiRow =>
    rw [if_neg (by decide), if_pos (by rfl)]
    rfl

/-- Without a row there is nothing to scan. -/
theorem queryRows_nil (hquery : env.query url sql = .ok (.table columns [] scanError)) :
    queryRows env q.limit url sql aliasFields response =
      .ok (buildFields response aliasFields columns).2 := by
  rw [queryRows, hquery]
  cases q <;> simp [RowQuery.limit, Rows.table, Rows.result, Except.mapError, pure, Except.pure,
    bind, Except.bind]

/-- The first row cannot be scanned if there are not as many names as columns. -/
theorem queryRows_cons {row : List (Option Str)}
    (hquery : env.query url sql = .ok (.table columns (row :: table) scanError))
    (hne : aliasFields ≠ []) (hlen : aliasFields.length ≠ columns.length) :
    queryRows env q.limit url sql aliasFields response =
      .error ((scanError aliasFields.length).wrap "failed to scan row: ") := by
  have hnames : (buildFields response aliasFields columns).1 = aliasFields := if_neg hne
  have hscan : ∀ rows, ((Rows.table columns [row] scanError).rows ++ rows).mapM
      (scanRow aliasFields.length) =
        .error ((scanError aliasFields.length).wrap "failed to scan row: ") := by
    intro rows
    simp [Rows.table, scanRow, hlen, bind, Except.bind]
  have htake : ∃ rows, (Rows.table columns (row :: table) scanError).rows.take
      (q.limit.getD ((Rows.table columns (row :: table) scanError).rows.length + 1)) =
        (Rows.table columns [row] scanError).rows ++ rows := by
    cases q <;> exact ⟨_, rfl⟩
  obtain ⟨rows, hrows⟩ := htake
  rw [queryRows, hquery]
  change (((Rows.table columns (row :: table) scanError).rows.take _).mapM
    (scanRow (buildFields response aliasFields columns).1.length)).bind _ = _
  rw [hnames, hrows, hscan]
  rfl

/-- A collection that gets as far as its row query, with either outcome of that. -/
theorem collect_of_queryRows {address : Str × Str} (hjdbc : metrics.jdbc = some jdbc)
    (hq : jdbc.queryType = q.name)
    (haddress : localAddress env jdbc (getTimeout env jdbc.timeout) = .ok address)
    (hurl : constructDatabaseURL env jdbc address.1 address.2 = .ok url)
    (hconnection : getConnection env url jdbc.platform (getTimeout env jdbc.timeout) = .ok ()) :
    (∀ err, queryRows env q.limit url jdbc.sql metrics.aliases
          (createSuccessResponse metrics env.now) = .error err →
        collect env metrics = .ok (queryFailed env metrics err)) ∧
      ∀ response, queryRows env q.limit url jdbc.sql metrics.aliases
          (createSuccessResponse metrics env.now) = .ok response →
        collect env metrics = .ok (addResponseTime env response metrics.aliases) := by
  rw [← runQuery_eq hq]
  constructor
  · intro err hrows
    simp only [collect, hjdbc, haddress, hurl, hconnection, hrows]
  · intro response hrows
    simp only [collect, hjdbc, haddress, hurl, hconnection, hrows]

/-- **What a row query collects with the response time among the names.** The collection succeeds,
with the rows as they should be, exactly if there is no row; if there is one, the collection fails
with the error of its scan. -/
theorem collect_rows_iff {address : Str × Str} {names : List Str} {position : ℕ}
    (hjdbc : metrics.jdbc = some jdbc) (hq : jdbc.queryType = q.name)
    (haddress : localAddress env jdbc (getTimeout env jdbc.timeout) = .ok address)
    (hurl : constructDatabaseURL env jdbc address.1 address.2 = .ok url)
    (hconnection : getConnection env url jdbc.platform (getTimeout env jdbc.timeout) = .ok ())
    (hquery : env.query url jdbc.sql = .ok (.table columns table scanError))
    (hnames : names.length = columns.length) (hposition : position ≤ names.length)
    (haliases : metrics.aliases = names.insertIdx position responseTimeKey) :
    ∃ response, collect env metrics = .ok response ∧
      (response.code = .success ∧
          response.values = (q.returned table).map (timedRow position env.duration) ↔ table = []) ∧
      (table ≠ [] → response = queryFailed env metrics
        ((scanError (columns.length + 1)).wrap "failed to scan row: ")) := by
  have hlen : metrics.aliases.length = columns.length + 1 := by
    rw [haliases, List.length_insertIdx_of_le_length hposition, hnames]
  have hne : metrics.aliases ≠ [] := fun hnil => by
    rw [hnil] at hlen
    cases hlen
  have hcollect := collect_of_queryRows hjdbc hq haddress hurl hconnection
  cases table with
  | nil =>
    refine ⟨_, hcollect.2 _ (queryRows_nil hquery), iff_of_true ⟨?_, ?_⟩ rfl, fun h => absurd rfl h⟩
    · rw [addResponseTime]
      split <;> rfl
    · rw [addResponseTime]
      cases q <;> split <;> rfl
  | cons row table =>
    have hfailed := hcollect.1 _ (queryRows_cons hquery hne (by omega))
    rw [hlen] at hfailed
    refine ⟨_, hfailed, iff_of_false (fun h => ?_) (by simp), fun _ => rfl⟩
    have hcode := h.1
    rw [queryFailed] at hcode
    split_ifs at hcode <;> cases hcode

/-- A metric that asks for the number of connections, and for the response time. -/
def connectionsMetrics : Metrics Option :=
  { Metrics.bare (Go.str "connections") (Go.str "jdbc") with
    aliasFields := some [Go.str "count", responseTimeKey]
    jdbc := some
      { host := Go.str "db.example.org", port := Go.str "5432", platform := Go.str "postgresql"
        queryType := Go.str "oneRow", sql := Go.str "select count(*) from pg_stat_activity"
        sshTunnel := none } }

/-- A database with one column, and these rows. -/
def connectionsEnv (table : List (List (Option Str))) : Env :=
  .answering (.table [Go.str "count"] table fun _ => { msg := Go.str "wrong number of columns" }) 5

theorem collect_rows_none :
    ∃ response, collect (connectionsEnv []) connectionsMetrics = .ok response ∧
      response.code = .success ∧ response.values = [] := by
  obtain ⟨response, hresponse, hiff, -⟩ := @collect_rows_iff (connectionsEnv []) connectionsMetrics
    _ .oneRow [Go.str "count"] [] _ _ _ [Go.str "count"] 1 rfl rfl rfl rfl rfl rfl rfl (by decide)
    rfl
  exact ⟨response, hresponse, hiff.mpr rfl⟩

/-- **One row, and the collection fails**: the scan is given two destinations for one column. -/
theorem not_collect_rows_one :
    ∃ response, collect (connectionsEnv [[some (Go.str "12")]]) connectionsMetrics =
        .ok response ∧ response.code = .fail ∧ response.values = [] ∧
      response.msg = Go.str "Query error: failed to scan row: wrong number of columns" := by
  refine ⟨_, rfl, ?_, ?_, ?_⟩ <;> rfl

end

end JDBCCollector

end HertzBeat
