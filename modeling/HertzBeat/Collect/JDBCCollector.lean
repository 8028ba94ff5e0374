import HertzBeat.Lib.Strings
import HertzBeat.Lib.Text
import HertzBeat.Types.CollectData

/-!
# The JDBC collector

`internal/protocol/basic/database/jdbc_collector.go`. The drivers, the network and the
regular expressions are parameters. A result set is what `database/sql` shows of it: the
columns, and for each row what a scan into a number of destinations gives.

`PreCheck` is not modelled: nothing calls it.
-/

namespace HertzBeat

open Go (Str StrMap Text)

namespace JDBCCollector

/-! ### The database -/

/-- An error of the database. Wrapping it changes the text only: the code that Postgres gave
it and whether it is a timeout can still be found out. -/
structure DBError where
  msg : Str
  pqCode : Option Str := none
  timeout : Bool := false

/-- `fmt.Errorf` with a text before the wrapped error. -/
def DBError.wrap (text : String) (err : DBError) : DBError :=
  { err with msg := Go.str text ++ err.msg }

/-- A row: what a scan into so many destinations fails with, or stores in the `i`-th. NULL is
`none`. -/
structure Row where
  scan : ℕ → Except DBError (ℕ → Option Str)

/-- What a query gives. -/
structure Rows where
  columns : Except DBError (List Str)
  /-- The rows that `Next` stops at. -/
  rows : List Row
  /-- `rows.Err()`, after so many calls of `Next`. -/
  err : ℕ → Option DBError

/-- The libraries and the target of a collection. -/
structure Env where
  text : Text
  /-- `time.ParseDuration`. -/
  parseDuration : Str → Option ℤ
  /-- The text of the error of `strconv.Atoi`. -/
  atoiError : Str → Str
  /-- `regexp.MatchString`, of a pattern and a string. -/
  matchString : Str → Str → Bool
  /-- `ssh.Dial`, to an address with a user name, a password and a timeout. -/
  sshDial : Str → Str → Str → ℤ → Except Str Unit
  /-- A listener on a local port: its host and its port. -/
  listen : Except Str (Str × Str)
  /-- `sql.Open`, of a driver and a URL. -/
  sqlOpen : Str → Str → Except Str Unit
  /-- `PingContext`, with a timeout. -/
  ping : Str → Str → ℤ → Except Str Unit
  /-- `QueryContext`, on the database of a URL. -/
  query : Str → Str → Except DBError Rows
  /-- `ExecContext`, and the number of rows that it affected. -/
  exec : Str → Str → Except DBError (Except Str ℤ)
  now : ℤ
  /-- The duration of the collection, in milliseconds. -/
  duration : ℤ

variable (env : Env)

/-- `getTimeout`. -/
def getTimeout (timeoutStr : Str) : ℤ :=
  Go.parseTimeout env.parseDuration (30 * Go.second) timeoutStr

/-! ### The URL -/

/-- Dangerous parameters prohibited in the URL. -/
def vulnerableKeywords : List Str :=
  [Go.str "allowLoadLocalInfile", Go.str "allowLoadLocalInfileInPath", Go.str "useLocalInfile"]

/-- Dangerous keywords prohibited in the URL. -/
def blackList : List Str :=
  [ -- SQL commands
    "create trigger", "create alias", "runscript from", "shutdown", "drop table",
    "drop database", "create function", "alter system", "grant all", "revoke all",
    -- files
    "allowloadlocalinfile", "allowloadlocalinfileinpath", "uselocalinfile",
    -- code execution
    "init=", "javaobjectserializer=", "runscript", "serverstatusdiffinterceptor",
    "queryinterceptors=", "statementinterceptors=", "exceptioninterceptors=",
    "xp_cmdshell", "create function", "dbms_java", "sp_sysexecute", "load_file",
    -- several statements
    "allowmultiqueries",
    -- deserialization
    "autodeserialize", "detectcustomcollations"].map Go.str

/-- Patterns prohibited in every URL. -/
def universalBypassPatterns : List Str :=
  ["(?i)create\\s+trigger", "(?i)create\\s+function", "(?i)drop\\s+table",
    "(?i)drop\\s+database", "(?i)run\\s+script", "(?i)alter\\s+system", "(?i)grant\\s+all",
    "(?i)revoke\\s+all", "(?i)xp\\s*cmdshell", "(?i)load\\s+file"].map Go.str

/-- Patterns prohibited in the URLs of a platform. -/
def platformBypassPatterns (platform : Str) : List Str :=
  if platform = Go.str "mysql" ∨ platform = Go.str "mariadb" then
    ["(?i)allow\\s+load\\s+local\\s+infile", "(?i)allow\\s+multi\\s+queries",
      "(?i)query\\s+interceptors", "(?i)auto\\s+deserialize"].map Go.str
  else if platform = Go.str "postgresql" then
    ["(?i)socket\\s+factory", "(?i)logger\\s+file", "(?i)logger\\s+level"].map Go.str
  else []

/-- The URL without what `[\x00-\x1F\x7F\xA0]` matches. The last of these takes two bytes. -/
def cleanURL : Str → Str
  | 0xC2 :: 0xA0 :: s => cleanURL s
  | c :: s => if c < 0x20 ∨ c = 0x7F then cleanURL s else c :: cleanURL s
  | [] => []

/-- The loop of `recursiveDecode`, with so many turns left; `none` when a turn fails. -/
def recursiveDecodeFrom : ℕ → Str → Option Str
  | 0, prev => some prev
  | n + 1, prev =>
    match Go.queryUnescape prev with
    | none => none
    | some decoded => if decoded = prev then some decoded else recursiveDecodeFrom n decoded

/-- `recursiveDecode`. The string that it returns with an error is not used. -/
def recursiveDecode (s : Str) : Option Str := recursiveDecodeFrom 5 s

/-- `validateURL`. -/
def validateURL (rawURL platform : Str) : Except Str Unit :=
  let cleanedURL := cleanURL rawURL
  let url := env.text.toLower ((recursiveDecode cleanedURL).getD cleanedURL)
  if 2048 < rawURL.length then
    .error (Go.str "JDBC URL length exceeds maximum limit of 2048 characters")
  else if let some keyword := vulnerableKeywords.find? (Go.contains url) then
    .error (Go.str "JDBC URL prohibit contains vulnerable param " ++ keyword)
  else if let some keyword := blackList.find? (Go.contains url) then
    .error (Go.str "invalid JDBC URL: contains potentially malicious parameter: " ++ keyword)
  else if Go.contains url (Go.str "jndi:") ∨ Go.contains url (Go.str "ldap:") ∨
      Go.contains url (Go.str "rmi:") then
    .error (Go.str ("invalid JDBC URL: contains potentially malicious JNDI or " ++
      "deserialization parameter"))
  else if let some pattern := universalBypassPatterns.find? (env.matchString · url) then
    .error (Go.str "invalid JDBC URL: contains potentially malicious bypass pattern: " ++ pattern)
  else if let some pattern := (platformBypassPatterns (env.text.toLower platform)).find?
      (env.matchString · url) then
    .error (Go.str "invalid " ++ platform ++
      Go.str " JDBC URL: contains potentially malicious bypass pattern: " ++ pattern)
  else .ok ()

/-- The query type of scripts. -/
def queryTypeRunScript : Str := Go.str "runScript"

/-- The credentials and the address, as they stand in all the URLs. -/
def authority (jdbc : JDBCProtocol Option) (open_ host port close : Str) : Str :=
  jdbc.username ++ Go.str ":" ++ jdbc.password ++ Go.str "@" ++ open_ ++ host ++ Go.str ":" ++
    port ++ close

/-- `constructDatabaseURL`. -/
def constructDatabaseURL (jdbc : JDBCProtocol Option) (host port : Str) : Except Str Str :=
  if jdbc.url ≠ [] then (validateURL env jdbc.url jdbc.platform).map fun _ => jdbc.url
  else if jdbc.platform = Go.str "mysql" ∨ jdbc.platform = Go.str "mariadb" then
    let dsn := authority jdbc (Go.str "tcp(") host port (Go.str ")") ++ Go.str "/" ++
      jdbc.database ++ Go.str ("?parseTime=true&charset=utf8mb4&timeout=30s&readTimeout=30s" ++
        "&writeTimeout=30s")
    .ok (if jdbc.queryType = queryTypeRunScript then dsn ++ Go.str "&multiStatements=true"
      else dsn)
  else if jdbc.platform = Go.str "postgresql" then
    .ok (Go.str "postgres://" ++ authority jdbc [] host port [] ++ Go.str "/" ++ jdbc.database ++
      Go.str "?sslmode=disable&connect_timeout=30")
  else if jdbc.platform = Go.str "sqlserver" then
    .ok (Go.str "sqlserver://" ++ authority jdbc [] host port [] ++ Go.str "?database=" ++
      jdbc.database ++
      Go.str "&trustServerCertificate=true&encrypt=disable&connection+timeout=30")
  else if jdbc.platform = Go.str "oracle" then
    .ok (Go.str "oracle://" ++ authority jdbc [] host port [] ++ Go.str "/" ++ jdbc.database)
  else .error (Go.str "unsupported database platform for URL construction: " ++ jdbc.platform)

/-! ### The connection -/

/-- `startSSHTunnel`: the host and the port on this side. -/
def startSSHTunnel (config : SSHTunnel) (timeout : ℤ) : Except Str (Str × Str) :=
  match Go.atoi config.port with
  | none => .error (Go.str "invalid SSH port: " ++ env.atoiError config.port)
  | some sshPort => do
    let sshAddr := config.host ++ Go.str ":" ++ Go.itoa sshPort
    (env.sshDial sshAddr config.username config.password timeout).mapError
      (Go.str "failed to dial SSH server: " ++ ·)
    env.listen.mapError (Go.str "failed to listen on local port: " ++ ·)

/-- The host and the port that the database is reached at. -/
def localAddress (jdbc : JDBCProtocol Option) (timeout : ℤ) : Except Str (Str × Str) :=
  match jdbc.sshTunnel with
  | some tunnel =>
    if (Go.parseBool tunnel.enable).getD false then startSSHTunnel env tunnel timeout
    else .ok (jdbc.host, jdbc.port)
  | none => .ok (jdbc.host, jdbc.port)

/-- The driver of a platform, or of a URL. -/
def driverName (databaseURL platform : Str) : Option Str :=
  if platform = Go.str "mysql" ∨ platform = Go.str "mariadb" then some (Go.str "mysql")
  else if platform = Go.str "postgresql" then some (Go.str "postgres")
  else if platform = Go.str "sqlserver" then some (Go.str "sqlserver")
  else if platform = Go.str "oracle" then some (Go.str "oracle")
  else if Go.hasPrefix databaseURL (Go.str "postgres:") then some (Go.str "postgres")
  else if Go.hasPrefix databaseURL (Go.str "sqlserver:") then some (Go.str "sqlserver")
  else if Go.hasPrefix databaseURL (Go.str "oracle:") then some (Go.str "oracle")
  else if Go.contains databaseURL (Go.str "@tcp(") then some (Go.str "mysql")
  else none

/-- `getConnection`. -/
def getConnection (databaseURL platform : Str) (timeout : ℤ) : Except Str Unit :=
  match driverName databaseURL platform with
  | none => .error (Go.str "unsupported platform or ambiguous URL: " ++ platform)
  | some driver => do
    (env.sqlOpen driver databaseURL).mapError (Go.str "failed to open database: " ++ ·)
    (env.ping driver databaseURL timeout).mapError (Go.str "failed to ping database: " ++ ·)

/-! ### The queries -/

/-- `buildFields`: the names to be used, and the response with its fields. -/
def buildFields (response : CollectRepMetricsData) (aliasFields columns : List Str) :
    List Str × CollectRepMetricsData :=
  let fieldNames := if aliasFields = [] then columns else aliasFields
  (fieldNames, { response with
    fields := fieldNames.zipIdx.map fun field =>
      { field := field.1, type := typeString, instance_ := field.2 = 0 } })

/-- A row is scanned into so many destinations. -/
def scanRow (n : ℕ) (row : Row) : Except DBError (List Str) :=
  match row.scan n with
  | .error err => .error (err.wrap "failed to scan row: ")
  | .ok values => .ok ((List.range n).map fun i => (values i).getD nullValue)

/-- The result of a query, after so many calls of `Next`. -/
def Rows.result (rows : Rows) (calls : ℕ) (response : CollectRepMetricsData) :
    Except DBError CollectRepMetricsData :=
  match rows.err calls with
  | none => .ok response
  | some err => .error err

/-- The part that `queryOneRow` and `queryMultiRow` share: the rows that the first so many
calls of `Next` give are scanned into one destination for each field. Without a limit it is
called until it gives no more. -/
def queryRows (limit : Option ℕ) (url sql : Str) (aliasFields : List Str)
    (response : CollectRepMetricsData) : Except DBError CollectRepMetricsData := do
  let rows ← (env.query url sql).mapError (·.wrap "query execution failed: ")
  let columns ← rows.columns.mapError (·.wrap "failed to get columns: ")
  let (fieldNames, response) := buildFields response aliasFields columns
  let calls := limit.getD (rows.rows.length + 1)
  let values ← (rows.rows.take calls).mapM (scanRow fieldNames.length)
  rows.result calls { response with values := response.values ++ values }

/-- `queryOneRow`. -/
def queryOneRow (url sql : Str) (aliasFields : List Str) (response : CollectRepMetricsData) :
    Except DBError CollectRepMetricsData :=
  queryRows env (some 1) url sql aliasFields response

/-- `queryMultiRow`. -/
def queryMultiRow (url sql : Str) (aliasFields : List Str) (response : CollectRepMetricsData) :
    Except DBError CollectRepMetricsData :=
  queryRows env none url sql aliasFields response

/-- One turn of the loop of `queryColumns`, over a result with so many columns. A row that
cannot be scanned is passed over. -/
def addKeyValue (n : ℕ) (keyValueMap : StrMap) (row : Row) : StrMap :=
  match row.scan n with
  | .error _ => keyValueMap
  | .ok values =>
    match values 0 with
    | none => keyValueMap
    | some key =>
      keyValueMap.insert (env.text.toLower (env.text.trimSpace key)) ((values 1).getD nullValue)

/-- The column of a field that `queryColumns` fills. -/
def keyValueColumn (keyValueMap : StrMap) (fieldName : Str) : Str :=
  match keyValueMap.lookup (env.text.toLower fieldName) with
  | some value => value
  | none => if fieldName = responseTimeKey then Go.str "0" else nullValue

/-- `queryColumns`. -/
def queryColumns (url sql : Str) (aliasFields : List Str) (response : CollectRepMetricsData) :
    Except DBError CollectRepMetricsData := do
  let rows ← (env.query url sql).mapError (·.wrap "query execution failed: ")
  let columns ← rows.columns.mapError (·.wrap "failed to get columns: ")
  if columns.length < 2 then
    throw { msg := Go.str "columns query type requires at least 2 columns, got " ++
      Go.itoa columns.length }
  if aliasFields = [] then
    throw { msg := Go.str "columns query type requires aliasFields to be defined" }
  let (fieldNames, response) := buildFields response aliasFields []
  let keyValueMap := rows.rows.foldl (addKeyValue env columns.length) ∅
  rows.result (rows.rows.length + 1) { response with
    values := response.values ++ [fieldNames.map (keyValueColumn env keyValueMap)] }

/-- `runScript`. -/
def runScript (url sql : Str) (response : CollectRepMetricsData) :
    Except DBError CollectRepMetricsData := do
  let result ← (env.exec url sql).mapError (·.wrap "script execution failed: ")
  let (_, response) := buildFields response [] [Go.str "rows_affected"]
  let affected := match result with
    | .error _ => Go.str "0"
    | .ok rowsAffected => Go.itoa rowsAffected
  return { response with values := response.values ++ [[affected]] }

/-- The query that a configuration asks for. -/
def runQuery (jdbc : JDBCProtocol Option) (url : Str) (aliasFields : List Str)
    (response : CollectRepMetricsData) : Except DBError CollectRepMetricsData :=
  if jdbc.queryType = Go.str "oneRow" then queryOneRow env url jdbc.sql aliasFields response
  else if jdbc.queryType = Go.str "multiRow" then
    queryMultiRow env url jdbc.sql aliasFields response
  else if jdbc.queryType = Go.str "columns" then queryColumns env url jdbc.sql aliasFields response
  else if jdbc.queryType = queryTypeRunScript then runScript env url jdbc.sql response
  else .error { msg := Go.str "unsupported query type: " ++ jdbc.queryType }

/-- The SQLSTATE of a connection that cannot be established. -/
def pqUnreachableCode : Str := Go.str "08001"

/-- The response to a query that failed. -/
def queryFailed (metrics : Metrics Option) (err : DBError) : CollectRepMetricsData :=
  if err.pqCode = some pqUnreachableCode then
    createFailResponse metrics env.now .unReachable
      (Go.str "Query error: " ++ err.msg ++ Go.str " (Code: " ++ pqUnreachableCode ++ Go.str ")")
  else if err.timeout then
    createFailResponse metrics env.now .unReachable (Go.str "Query timeout: " ++ err.msg)
  else createFailResponse metrics env.now .fail (Go.str "Query error: " ++ err.msg)

/-- `addResponseTime`: the first alias of that name gets it, in the rows that reach so far. -/
def addResponseTime (response : CollectRepMetricsData) (aliasFields : List Str) :
    CollectRepMetricsData :=
  match aliasFields.idxOf? responseTimeKey with
  | none => response
  | some rtIndex => { response with
      values := response.values.map fun columns =>
        if rtIndex < columns.length then columns.set rtIndex (Go.itoa env.duration) else columns }

/-- `Collect`. The configuration that is extracted from a nil pointer is nil, with no error. -/
def collect (metrics : Metrics Option) : Except Go.Panic CollectRepMetricsData :=
  match metrics.jdbc with
  | none => .error .nilDereference
  | some jdbc =>
    let timeout := getTimeout env jdbc.timeout
    let fail (code : CollectCode) (msg : Str) : Except Go.Panic CollectRepMetricsData :=
      .ok (createFailResponse metrics env.now code msg)
    match localAddress env jdbc timeout with
    | .error err => fail .unConnectable (Go.str "SSH tunnel error: " ++ err)
    | .ok address =>
      match constructDatabaseURL env jdbc address.1 address.2 with
      | .error err => fail .fail (Go.str "Database URL error: " ++ err)
      | .ok databaseURL =>
        match getConnection env databaseURL jdbc.platform timeout with
        | .error err => fail .unConnectable (Go.str "Connection error: " ++ err)
        | .ok _ =>
          match runQuery env jdbc databaseURL metrics.aliases
              (createSuccessResponse metrics env.now) with
          | .error err => .ok (queryFailed env metrics err)
          | .ok response => .ok (addResponseTime env response metrics.aliases)

variable {env} {metrics : Metrics Option}

/-- **A collection with a configuration returns**, whatever the database answers. -/
theorem collect_eq_ok {jdbc : JDBCProtocol Option} (h : metrics.jdbc = some jdbc) :
    ∃ response, collect env metrics = .ok response := by
  simp only [collect, h]
  -- the tunnel, the URL, the connection and the query each fail or go on
  split
  · exact ⟨_, rfl⟩
  · split
    · exact ⟨_, rfl⟩
    · split
      · exact ⟨_, rfl⟩
      · split <;> exact ⟨_, rfl⟩

/-- Without one it panics. -/
theorem collect_eq_error (h : metrics.jdbc = none) :
    collect env metrics = .error .nilDereference := by
  simp only [collect, h]

/-- A database that is there and answers every query with these rows, after so many milliseconds.
The strings are of ASCII, and no regular expression matches. -/
def Env.answering (rows : Rows) (duration : ℤ) : Env where
  text := .ascii
  parseDuration := fun _ => none
  atoiError := fun _ => []
  matchString := fun _ _ => false
  sshDial := fun _ _ _ _ => .ok ()
  listen := .ok ([], [])
  sqlOpen := fun _ _ => .ok ()
  ping := fun _ _ _ => .ok ()
  query := fun _ _ => .ok rows
  exec := fun _ _ => .ok (.ok 0)
  now := 0
  duration := duration

end JDBCCollector

end HertzBeat
