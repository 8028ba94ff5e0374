import HertzBeat.Collect.CollectMetrics
import HertzBeat.Lib.Handles

/-!
# The connections of a collection

The collectors with the connections that they open and close: `ssh_helper.go`, which the SSH and
the Redis collector dial with, the tunnel, the database and the cursors of the JDBC collector, the
pool of the Redis client, and the connection of a Milvus client. The functions are those of the
models of the collectors, as programs over a table of handles (`Handles.Prog`). Each of them has two
facts: what it returns is what the function without connections returns, and what it leaves open.

A connection through an SSH client is a channel of that client and has no socket of its own. To
close it closes the channel, so a socket is only closed by who holds the client. `dialViaProxy`
closes the client of the proxy on each of its error paths, and hands out the channel alone.
-/

namespace HertzBeat.Sockets

open Go (Str)
open Handles

/-- A connection: a socket, or a channel of a client that runs over another connection. -/
inductive NetConn where
  | socket (n : ℕ)
  | channel (conn : NetConn)
  deriving DecidableEq, Repr

namespace NetConn

/-- The sockets that are closed with the connection. -/
def closes : NetConn → Finset ℕ
  | socket n => {n}
  | channel _ => ∅

/-- The socket that its bytes go through. -/
def root : NetConn → ℕ
  | socket n => n
  | channel conn => conn.root

end NetConn

/-! ### The SSH helper -/

namespace SSHHelper

open HertzBeat.SSHHelper (Env ClientConfig createProxyClientConfig)

variable (env : Env)

/-- A connection to an address. -/
def dialTCP (addr : Str) : Prog Str NetConn := do
  let (_, n) ← acquire (env.dialTCP addr)
  return .socket n

/-- `DialWithContext`. -/
def dialWithContext (addr : Str) (config : ClientConfig) : Prog Str NetConn := do
  let conn ← dialTCP env addr
  closeOnError conn.closes (lift (env.handshake addr config))
  return conn

/-- `dialViaProxy`. The client of the proxy is closed on the error paths only, and no one else
holds it. -/
def dialViaProxy (config : SSHProtocol) (targetConfig : ClientConfig) : Prog Str NetConn := do
  let proxyConfig ← lift ((createProxyClientConfig env config).mapError
    (Go.str "failed to create proxy client config: " ++ ·))
  let proxyConfig := if 0 < targetConfig.timeout then
      { proxyConfig with timeout := targetConfig.timeout }
    else proxyConfig
  let proxyAddress := Go.joinHostPort config.proxyHost config.proxyPort
  let proxyConn ← mapError (fun err =>
    Go.str "failed to connect to proxy server " ++ proxyAddress ++ Go.str ": " ++ err)
    (dialTCP env proxyAddress)
  closeOnError proxyConn.closes (lift ((env.handshake proxyAddress proxyConfig).mapError
    (Go.str "failed to establish SSH connection to proxy: " ++ ·)))
  let targetAddress := Go.joinHostPort config.host config.port
  closeOnError proxyConn.closes (lift ((env.dialThrough proxyAddress targetAddress).mapError
    fun err => Go.str "failed to dial target server " ++ targetAddress ++
      Go.str " via proxy: " ++ err))
  let targetConn := NetConn.channel proxyConn
  closeOnError (targetConn.closes ∪ proxyConn.closes)
    (lift ((env.handshake targetAddress targetConfig).mapError
      (Go.str "failed to establish SSH connection to target server: " ++ ·)))
  return targetConn

/-- `DialWithProxy`. -/
def dialWithProxy (config : SSHProtocol) (clientConfig : ClientConfig) : Prog Str NetConn :=
  if config.useProxy ≠ Go.str "true" ∨ config.proxyHost = [] ∨ config.proxyPort = [] then
    dialWithContext env (Go.joinHostPort config.host config.port) clientConfig
  else if config.proxyUsername = [] then
    lift (.error (Go.str "proxy username is required when using proxy"))
  else if config.proxyPassword = [] ∧ config.proxyPrivateKey = [] then
    lift (.error
      (Go.str "either proxy password or proxy private key is required when using proxy"))
  else dialViaProxy env config clientConfig

/-- Whether a configuration leads through a proxy. -/
def usesProxy (config : SSHProtocol) : Bool :=
  !decide (config.useProxy ≠ Go.str "true" ∨ config.proxyHost = [] ∨ config.proxyPort = [])

/-! What the programs return is what the functions without connections do. -/

theorem returns_dialTCP (addr : Str) :
    Returns (dialTCP env addr) (fun _ => ()) (env.dialTCP addr) :=
  (returns_acquire (env.dialTCP addr)).bind_pure fun _ => rfl

theorem returns_dialWithContext (addr : Str) (config : ClientConfig) :
    Returns (dialWithContext env addr config) (fun _ => ())
      (HertzBeat.SSHHelper.dialWithContext env addr config) :=
  Returns.bind (returns_dialTCP env addr) fun conn =>
    ((returns_lift (env.handshake addr config)).closeOnError conn.closes).bind_pure fun _ => rfl

theorem returns_dialViaProxy (config : SSHProtocol) (targetConfig : ClientConfig) :
    Returns (dialViaProxy env config targetConfig) (fun _ => ())
      (HertzBeat.SSHHelper.dialViaProxy env config targetConfig) := by
  unfold dialViaProxy HertzBeat.SSHHelper.dialViaProxy
  refine (returns_lift _).bind fun _ => ?_
  refine ((returns_dialTCP env _).mapError _).bind fun proxyConn => ?_
  refine ((returns_lift _).closeOnError proxyConn.closes).bind fun _ => ?_
  refine ((returns_lift _).closeOnError proxyConn.closes).bind fun _ => ?_
  exact ((returns_lift _).closeOnError _).bind_pure fun _ => rfl

theorem returns_dialWithProxy (config : SSHProtocol) (clientConfig : ClientConfig) :
    Returns (dialWithProxy env config clientConfig) (fun _ => ())
      (HertzBeat.SSHHelper.dialWithProxy env config clientConfig) := by
  unfold dialWithProxy HertzBeat.SSHHelper.dialWithProxy
  split_ifs
  · exact returns_dialWithContext env _ _
  · exact fun _ => rfl
  · exact fun _ => rfl
  · exact returns_dialViaProxy env config clientConfig

/-! What they leave open is the socket of the connection that they return. Whoever closes the
connection closes the socket, unless it is that of a proxy. -/

/-- The socket of a connection is open, and it is closed with the connection or not. -/
def Hands (proxied : Bool) : Except Str NetConn → Finset ℕ → Prop
  | .ok conn, H => H = {conn.root} ∧ conn.closes = if proxied then ∅ else {conn.root}
  | .error _, H => H = ∅

/-- The text of the error does not matter. -/
theorem owns_mapError {proxied : Bool} {p : Prog Str NetConn} {f : Str → Str}
    (h : Owns (· = ∅) p (Hands proxied)) : Owns (· = ∅) (mapError f p) (Hands proxied) :=
  (h.mono (fun _ hH => hH) fun r _ hH => by cases r <;> exact hH).mapError

theorem owns_dialTCP (addr : Str) : Owns (· = ∅) (dialTCP env addr) (Hands false) := by
  refine (owns_acquire_held (env.dialTCP addr)).bind_held (fun a => owns_pure ?_) fun _ => rfl
  rintro H rfl
  exact ⟨rfl, rfl⟩

theorem owns_dialWithContext (addr : Str) (config : ClientConfig) :
    Owns (· = ∅) (dialWithContext env addr config) (Hands false) := by
  refine (owns_dialTCP env addr).bind (fun conn => owns_and fun hconn => ?_) fun _ _ h => h
  rw [if_neg Bool.false_ne_true] at hconn
  rw [hconn]
  refine (owns_closeOnError_lift _ _).bind_held (fun _ => owns_pure ?_) fun _ => rfl
  rintro H rfl
  exact ⟨rfl, hconn⟩

theorem owns_dialViaProxy (config : SSHProtocol) (targetConfig : ClientConfig) :
    Owns (· = ∅) (dialViaProxy env config targetConfig) (Hands true) := by
  refine owns_bind_lift (fun proxyConfig _ => ?_) fun _ _ _ h => h
  refine Owns.bind (owns_mapError (owns_dialTCP env _)) (fun conn => owns_and fun hconn => ?_)
    fun _ _ h => h
  -- from here on the socket of the proxy is open, and every error closes it
  rw [if_neg Bool.false_ne_true] at hconn
  have hclose : NetConn.closes (.channel conn) ∪ {conn.root} = {conn.root} :=
    Finset.empty_union _
  simp only [hconn, hclose]
  refine (owns_closeOnError_lift _ _).bind_held (fun _ => ?_) fun _ => rfl
  refine (owns_closeOnError_lift _ _).bind_held (fun _ => ?_) fun _ => rfl
  refine (owns_closeOnError_lift _ _).bind_held (fun _ => owns_pure ?_) fun _ => rfl
  rintro H rfl
  exact ⟨rfl, rfl⟩

theorem owns_dialWithProxy (config : SSHProtocol) (clientConfig : ClientConfig) :
    Owns (· = ∅) (dialWithProxy env config clientConfig) (Hands (usesProxy config)) := by
  unfold dialWithProxy usesProxy
  split_ifs with hproxy
  · simpa [hproxy] using owns_dialWithContext env _ clientConfig
  · exact owns_lift fun _ h => h
  · exact owns_lift fun _ h => h
  · simpa [hproxy] using owns_dialViaProxy env config clientConfig

end SSHHelper

/-! ### The SSH collector -/

namespace SSHCollector

open HertzBeat.SSHCollector (Env getTimeout createSuccessResponseWithResult)

variable (env : Env)

/-- `executeSSHScript`. A session is a channel of the client, without a socket. -/
def executeSSHScript (config : SSHProtocol) (timeout : ℤ) : Prog Str Str := do
  let clientConfig ← lift ((HertzBeat.SSHHelper.createSSHClientConfig env.helper config).mapError
    (Go.str "failed to create SSH client config: " ++ ·))
  let conn ← mapError (fun err => Go.str "failed to connect to SSH server " ++
      Go.joinHostPort config.host config.port ++ Go.str ": " ++ err)
    (SSHHelper.dialWithProxy env.helper config { clientConfig with timeout := timeout })
  deferClose conn.closes (lift do
    env.newSession.mapError (Go.str "failed to create SSH session: " ++ ·)
    (env.run config.script).mapError fun err =>
      if err.2 = [] then Go.str "script execution failed: " ++ err.1
      else Go.str "script execution failed: " ++ err.1 ++ Go.str ", stderr: " ++ err.2)

/-- `Collect`. -/
def collect (metrics : Metrics Option) : Prog Go.Panic CollectRepMetricsData :=
  match metrics.ssh with
  | none => pure (createFailResponse metrics env.now .fail
      (Go.str "SSH configuration is required"))
  | some config => do
    match ← attempt (executeSSHScript env config (getTimeout env config.timeout)) with
    | .error err => pure (createFailResponse metrics env.now .unConnectable
        (Go.str "SSH execution error: " ++ err))
    | .ok result => lift (createSuccessResponseWithResult env metrics result)

/-- Whether a configuration leads through a proxy to a target that is connected. -/
def connectedByProxy (config : SSHProtocol) (timeout : ℤ) : Bool :=
  SSHHelper.usesProxy config &&
    match HertzBeat.SSHHelper.createSSHClientConfig env.helper config with
    | .error _ => false
    | .ok clientConfig => (HertzBeat.SSHHelper.dialWithProxy env.helper config
        { clientConfig with timeout := timeout }).isOk

/-- The number of sockets that a collection leaves open. -/
def leaves (metrics : Metrics Option) : ℕ :=
  match metrics.ssh with
  | none => 0
  | some config => if connectedByProxy env config (getTimeout env config.timeout) then 1 else 0

theorem returns_executeSSHScript (config : SSHProtocol) (timeout : ℤ) :
    Returns (executeSSHScript env config timeout) id
      (HertzBeat.SSHCollector.executeSSHScript env config timeout) := by
  unfold executeSSHScript HertzBeat.SSHCollector.executeSSHScript
  refine (returns_lift _).bind fun clientConfig => ?_
  refine ((SSHHelper.returns_dialWithProxy env.helper config _).mapError _).bind fun conn => ?_
  exact (returns_lift _).deferClose _

theorem returns_collect (metrics : Metrics Option) :
    Returns (collect env metrics) id (HertzBeat.SSHCollector.collect env metrics) := by
  unfold collect HertzBeat.SSHCollector.collect
  cases metrics.ssh with
  | none => exact fun _ => rfl
  | some config =>
    refine (returns_executeSSHScript env config _).bind_attempt fun x hx => ?_
    simp only [← hx]
    cases x with
    | error err => exact fun _ => rfl
    | ok result => exact returns_lift _

/-- The socket stays open where it is that of a proxy, and else is closed with the client. -/
theorem owns_executeSSHScript (config : SSHProtocol) (timeout : ℤ) :
    Owns (· = ∅) (executeSSHScript env config timeout) fun _ H =>
      H.card = if connectedByProxy env config timeout then 1 else 0 := by
  unfold executeSSHScript connectedByProxy
  refine owns_bind_lift (fun clientConfig hconfig => ?_) fun err H hconfig hH => ?_
  · rw [Go.mapError_eq_ok.mp hconfig]
    refine ((SSHHelper.owns_mapError (SSHHelper.owns_dialWithProxy env.helper config
      { clientConfig with timeout := timeout })).and_returns
      ((SSHHelper.returns_dialWithProxy env.helper config _).mapError _)).bind
      (fun conn => owns_and fun hdial => owns_and fun hclose => ?_) ?_
    · simp only [Go.mapError_eq_ok.mp hdial.symm]
      refine Owns.deferClose ?_ (owns_lift ?_)
      · rintro H rfl
        rw [hclose]
        split_ifs <;> simp
      · rintro H rfl
        rw [hclose]
        cases SSHHelper.usesProxy config <;> simp [Except.isOk, Except.toBool]
    · rintro err H ⟨rfl, hdial⟩
      obtain ⟨err', hdial, -⟩ := Go.mapError_eq_error.mp hdial.symm
      simp [hdial, Except.isOk, Except.toBool]
  · obtain ⟨err', hconfig, -⟩ := Go.mapError_eq_error.mp hconfig
    simp [hconfig, hH]

theorem owns_collect (metrics : Metrics Option) :
    Owns (· = ∅) (collect env metrics) fun _ H => H.card = leaves env metrics := by
  unfold collect leaves
  cases metrics.ssh with
  | none => exact owns_pure fun H hH => by rw [hH, Finset.card_empty]
  | some config =>
    refine (owns_executeSSHScript env config _).bind_attempt fun x => ?_
    cases x with
    | error err => exact owns_pure fun _ h => h
    | ok result => exact owns_lift fun _ h => h

end SSHCollector

/-! ### The JDBC collector -/

namespace JDBCCollector

open HertzBeat.JDBCCollector (Env DBError getTimeout driverName constructDatabaseURL buildFields
  scanRow addKeyValue keyValueColumn runScript queryTypeRunScript queryFailed addResponseTime)

variable (env : Env)

/-- `startSSHTunnel`: the host and the port on this side, and the client and the listener. -/
def startSSHTunnel (config : SSHTunnel) (timeout : ℤ) : Prog Str ((Str × Str) × Finset ℕ) :=
  match Go.atoi config.port with
  | none => lift (.error (Go.str "invalid SSH port: " ++ env.atoiError config.port))
  | some sshPort => do
    let sshAddr := config.host ++ Go.str ":" ++ Go.itoa sshPort
    let (_, client) ← acquire ((env.sshDial sshAddr config.username config.password
      timeout).mapError (Go.str "failed to dial SSH server: " ++ ·))
    let (address, listener) ← closeOnError {client} (acquire
      (env.listen.mapError (Go.str "failed to listen on local port: " ++ ·)))
    return (address, {listener, client})

/-- The host and the port that the database is reached at, and what a tunnel holds. -/
def localAddress (jdbc : JDBCProtocol Option) (timeout : ℤ) :
    Prog Str ((Str × Str) × Finset ℕ) :=
  match jdbc.sshTunnel with
  | some tunnel =>
    if (Go.parseBool tunnel.enable).getD false then startSSHTunnel env tunnel timeout
    else pure ((jdbc.host, jdbc.port), ∅)
  | none => pure ((jdbc.host, jdbc.port), ∅)

/-- `getConnection`: the database. -/
def getConnection (databaseURL platform : Str) (timeout : ℤ) : Prog Str ℕ :=
  match driverName databaseURL platform with
  | none => lift (.error (Go.str "unsupported platform or ambiguous URL: " ++ platform))
  | some driver => do
    let (_, db) ← acquire ((env.sqlOpen driver databaseURL).mapError
      (Go.str "failed to open database: " ++ ·))
    closeOnError {db} (lift ((env.ping driver databaseURL timeout).mapError
      (Go.str "failed to ping database: " ++ ·)))
    return db

/-- The part that `queryOneRow` and `queryMultiRow` share. -/
def queryRows (limit : Option ℕ) (url sql : Str) (aliasFields : List Str)
    (response : CollectRepMetricsData) : Prog DBError CollectRepMetricsData := do
  let (rows, cursor) ← acquire ((env.query url sql).mapError (·.wrap "query execution failed: "))
  deferClose {cursor} (lift do
    let columns ← rows.columns.mapError (·.wrap "failed to get columns: ")
    let (fieldNames, response) := buildFields response aliasFields columns
    let calls := limit.getD (rows.rows.length + 1)
    let values ← (rows.rows.take calls).mapM (scanRow fieldNames.length)
    rows.result calls { response with values := response.values ++ values })

/-- `queryColumns`. -/
def queryColumns (url sql : Str) (aliasFields : List Str) (response : CollectRepMetricsData) :
    Prog DBError CollectRepMetricsData := do
  let (rows, cursor) ← acquire ((env.query url sql).mapError (·.wrap "query execution failed: "))
  deferClose {cursor} (lift do
    let columns ← rows.columns.mapError (·.wrap "failed to get columns: ")
    if columns.length < 2 then
      throw { msg := Go.str "columns query type requires at least 2 columns, got " ++
        Go.itoa columns.length }
    if aliasFields = [] then
      throw { msg := Go.str "columns query type requires aliasFields to be defined" }
    let (fieldNames, response) := buildFields response aliasFields []
    let keyValueMap := rows.rows.foldl (addKeyValue env columns.length) ∅
    rows.result (rows.rows.length + 1) { response with
      values := response.values ++ [fieldNames.map (keyValueColumn env keyValueMap)] })

/-- The query that a configuration asks for. A script has no cursor. -/
def runQuery (jdbc : JDBCProtocol Option) (url : Str) (aliasFields : List Str)
    (response : CollectRepMetricsData) : Prog DBError CollectRepMetricsData :=
  if jdbc.queryType = Go.str "oneRow" then queryRows env (some 1) url jdbc.sql aliasFields response
  else if jdbc.queryType = Go.str "multiRow" then
    queryRows env none url jdbc.sql aliasFields response
  else if jdbc.queryType = Go.str "columns" then queryColumns env url jdbc.sql aliasFields response
  else if jdbc.queryType = queryTypeRunScript then lift (runScript env url jdbc.sql response)
  else lift (.error { msg := Go.str "unsupported query type: " ++ jdbc.queryType })

/-- The collection of a configuration; an error of the program is the response that the code
returns early. -/
def collectWith (metrics : Metrics Option) (jdbc : JDBCProtocol Option) :
    Prog CollectRepMetricsData CollectRepMetricsData := do
  let timeout := getTimeout env jdbc.timeout
  let (address, tunnel) ← mapError (fun err => createFailResponse metrics env.now .unConnectable
    (Go.str "SSH tunnel error: " ++ err)) (localAddress env jdbc timeout)
  deferClose tunnel do
    let databaseURL ← lift ((constructDatabaseURL env jdbc address.1 address.2).mapError fun err =>
      createFailResponse metrics env.now .fail (Go.str "Database URL error: " ++ err))
    let db ← mapError (fun err => createFailResponse metrics env.now .unConnectable
      (Go.str "Connection error: " ++ err)) (getConnection env databaseURL jdbc.platform timeout)
    deferClose {db} do
      let response ← mapError (queryFailed env metrics)
        (runQuery env jdbc databaseURL metrics.aliases (createSuccessResponse metrics env.now))
      return addResponseTime env response metrics.aliases

/-- `Collect`. -/
def collect (metrics : Metrics Option) : Prog Go.Panic CollectRepMetricsData :=
  match metrics.jdbc with
  | none => lift (.error .nilDereference)
  | some jdbc => do
    match ← attempt (collectWith env metrics jdbc) with
    | .error response => return response
    | .ok response => return response

theorem returns_localAddress (jdbc : JDBCProtocol Option) (timeout : ℤ) :
    Returns (localAddress env jdbc timeout) Prod.fst
      (HertzBeat.JDBCCollector.localAddress env jdbc timeout) := by
  unfold localAddress HertzBeat.JDBCCollector.localAddress
  cases jdbc.sshTunnel with
  | none => exact fun _ => rfl
  | some tunnel =>
    simp only
    split_ifs
    · unfold startSSHTunnel HertzBeat.JDBCCollector.startSSHTunnel
      cases Go.atoi tunnel.port with
      | none => exact fun _ => rfl
      | some sshPort =>
        exact (returns_acquire _).bind fun client =>
          ((returns_acquire _).closeOnError {client.2}).bind_pure fun _ => rfl
    · exact fun _ => rfl

theorem returns_getConnection (databaseURL platform : Str) (timeout : ℤ) :
    Returns (getConnection env databaseURL platform timeout) (fun _ => ())
      (HertzBeat.JDBCCollector.getConnection env databaseURL platform timeout) := by
  unfold getConnection HertzBeat.JDBCCollector.getConnection
  cases driverName databaseURL platform with
  | none => exact fun _ => rfl
  | some driver =>
    exact (returns_acquire _).bind fun db =>
      ((returns_lift _).closeOnError {db.2}).bind_pure fun _ => rfl

theorem returns_runQuery (jdbc : JDBCProtocol Option) (url : Str) (aliasFields : List Str)
    (response : CollectRepMetricsData) :
    Returns (runQuery env jdbc url aliasFields response) id
      (HertzBeat.JDBCCollector.runQuery env jdbc url aliasFields response) := by
  unfold runQuery HertzBeat.JDBCCollector.runQuery
  split_ifs
  · exact (returns_acquire _).bind fun rows => (returns_lift _).deferClose {rows.2}
  · exact (returns_acquire _).bind fun rows => (returns_lift _).deferClose {rows.2}
  · exact (returns_acquire _).bind fun rows => (returns_lift _).deferClose {rows.2}
  · exact returns_lift _
  · exact returns_lift _

/-- What the collection of a configuration returns, early or at its end. -/
def responseWith (metrics : Metrics Option) (jdbc : JDBCProtocol Option) :
    Except CollectRepMetricsData CollectRepMetricsData := do
  let timeout := getTimeout env jdbc.timeout
  let address ← (HertzBeat.JDBCCollector.localAddress env jdbc timeout).mapError fun err =>
    createFailResponse metrics env.now .unConnectable (Go.str "SSH tunnel error: " ++ err)
  let databaseURL ← (constructDatabaseURL env jdbc address.1 address.2).mapError fun err =>
    createFailResponse metrics env.now .fail (Go.str "Database URL error: " ++ err)
  (HertzBeat.JDBCCollector.getConnection env databaseURL jdbc.platform timeout).mapError
    fun err => createFailResponse metrics env.now .unConnectable
      (Go.str "Connection error: " ++ err)
  let response ← (HertzBeat.JDBCCollector.runQuery env jdbc databaseURL metrics.aliases
    (createSuccessResponse metrics env.now)).mapError (queryFailed env metrics)
  return addResponseTime env response metrics.aliases

theorem returns_collectWith (metrics : Metrics Option) (jdbc : JDBCProtocol Option) :
    Returns (collectWith env metrics jdbc) id (responseWith env metrics jdbc) := by
  refine ((returns_localAddress env jdbc _).mapError _).bind fun address => ?_
  refine Returns.deferClose ((returns_lift _).bind fun databaseURL => ?_) address.2
  refine ((returns_getConnection env databaseURL _ _).mapError _).bind fun db => ?_
  refine Returns.deferClose (((returns_runQuery env jdbc _ _ _).mapError _).bind
    fun response => ?_) {db}
  exact returns_pure _ id

theorem collect_eq_responseWith {metrics : Metrics Option} {jdbc : JDBCProtocol Option}
    (hjdbc : metrics.jdbc = some jdbc) : HertzBeat.JDBCCollector.collect env metrics =
      match responseWith env metrics jdbc with
      | .error response => .ok response
      | .ok response => .ok response := by
  -- each of the four calls fails, and the response is returned early, or the next one follows
  simp only [HertzBeat.JDBCCollector.collect, hjdbc, responseWith]
  cases HertzBeat.JDBCCollector.localAddress env jdbc (getTimeout env jdbc.timeout) with
  | error err => rfl
  | ok address =>
    dsimp only [Except.mapError, bind, Except.bind]
    cases constructDatabaseURL env jdbc address.1 address.2 with
    | error err => rfl
    | ok databaseURL =>
      dsimp only
      cases HertzBeat.JDBCCollector.getConnection env databaseURL jdbc.platform
        (getTimeout env jdbc.timeout) with
      | error err => rfl
      | ok db =>
        dsimp only
        cases HertzBeat.JDBCCollector.runQuery env jdbc databaseURL metrics.aliases
          (createSuccessResponse metrics env.now) <;> rfl

theorem returns_collect (metrics : Metrics Option) :
    Returns (collect env metrics) id (HertzBeat.JDBCCollector.collect env metrics) := by
  unfold collect
  cases hjdbc : metrics.jdbc with
  | none =>
    rw [HertzBeat.JDBCCollector.collect_eq_error hjdbc]
    exact fun _ => rfl
  | some jdbc =>
    rw [collect_eq_responseWith env hjdbc]
    refine (returns_collectWith env metrics jdbc).bind_attempt fun x hx => ?_
    rw [← hx]
    cases x <;> exact fun _ => rfl

/-! A tunnel, a database and a cursor are closed by whoever opened them. -/

theorem owns_localAddress (jdbc : JDBCProtocol Option) (timeout : ℤ) :
    Owns (· = ∅) (localAddress env jdbc timeout) (Held Prod.snd) := by
  unfold localAddress
  cases jdbc.sshTunnel with
  | none => exact owns_pure fun _ h => h
  | some tunnel =>
    simp only
    split_ifs
    · unfold startSSHTunnel
      cases Go.atoi tunnel.port with
      | none => exact owns_lift fun _ h => h
      | some sshPort =>
        refine (owns_acquire_held _).bind_held (fun client => ?_) fun _ => rfl
        exact (owns_closeOnError_acquire _ _).bind_held (fun _ => owns_pure fun _ h => h)
          fun _ => rfl
    · exact owns_pure fun _ h => h

theorem owns_getConnection (databaseURL platform : Str) (timeout : ℤ) :
    Owns (· = ∅) (getConnection env databaseURL platform timeout) (Held fun db => {db}) := by
  unfold getConnection
  cases driverName databaseURL platform with
  | none => exact owns_lift fun _ h => h
  | some driver =>
    refine (owns_acquire_held _).bind_held (fun db => ?_) fun _ => rfl
    exact (owns_closeOnError_lift _ _).bind_held (fun _ => owns_pure fun _ h => h) fun _ => rfl

theorem owns_runQuery (jdbc : JDBCProtocol Option) (url : Str) (aliasFields : List Str)
    (response : CollectRepMetricsData) :
    Owns (· = ∅) (runQuery env jdbc url aliasFields response) fun _ H => H = ∅ := by
  unfold runQuery
  split_ifs
  all_goals first
    | exact owns_lift fun _ h => h
    | exact (owns_acquire_held _).bind_held
        (fun _ => Owns.deferClose_held (owns_lift fun _ h => h)) fun _ => rfl

theorem owns_collect (metrics : Metrics Option) :
    Owns (· = ∅) (collect env metrics) fun _ H => H = ∅ := by
  unfold collect
  cases metrics.jdbc with
  | none => exact owns_lift fun _ h => h
  | some jdbc =>
    refine Owns.bind_attempt (Q := fun _ H => H = ∅) ?_ fun x => ?_
    · refine (owns_localAddress env jdbc _).mapError_held.bind_held (fun address => ?_)
        fun _ => rfl
      refine Owns.deferClose_held (owns_bind_lift (fun databaseURL _ => ?_) fun _ _ _ h => h)
      refine (owns_getConnection env databaseURL _ _).mapError_held.bind_held (fun db => ?_)
        fun _ => rfl
      refine Owns.deferClose_held ?_
      exact Owns.bind (Q := fun _ H => H = ∅) (owns_runQuery env jdbc _ _ _).mapError
        (fun response => owns_pure fun _ h => h) fun _ _ h => h
    · cases x <;> exact owns_pure fun _ h => h

end JDBCCollector

/-! ### The Redis collector -/

namespace RedisCollector

open HertzBeat.RedisCollector (Env Dialer createRedisDialer)

variable (env : Env)

/-- A connection of the client, and the sockets that are closed with it: through an SSH tunnel that
is the socket of the tunnel, since `Close` of the wrapper closes the SSH client too. -/
def dial (addr : Str) : Option Dialer → Prog Str (Finset ℕ)
  | none => do
    let conn ← SSHHelper.dialTCP env.helper addr
    return conn.closes
  | some dialer => do
    let sshClient ← mapError (Go.str "failed to connect to ssh server: " ++ ·)
      (SSHHelper.dialWithContext env.helper dialer.address dialer.config)
    closeOnError sshClient.closes (lift ((env.helper.dialThrough dialer.address addr).mapError
      (Go.str "failed to dial target via ssh: " ++ ·)))
    return (NetConn.channel sshClient).closes ∪ sshClient.closes

/-- The connections that the pools of the client dial in a collection, one after another; one that
fails is not kept. -/
def dialAll (dialer : Option Dialer) : List Str → Prog Go.Panic (Finset ℕ)
  | [] => pure ∅
  | addr :: addrs => do
    let conns ← dialAll dialer addrs
    match ← attempt (dial env addr dialer) with
    | .error _ => return conns
    | .ok conn => return conns ∪ conn

/-- `Collect`, with a client whose pools dial these addresses. `Close` of the client closes the
connections of its pools. -/
def collect (addrs : List Str) (metrics : Metrics Option) : Prog Go.Panic CollectRepMetricsData :=
  match metrics.redis with
  | none => lift (.error .nilDereference)
  | some config =>
    match createRedisDialer env config.sshTunnel with
    | .error _ => lift (HertzBeat.RedisCollector.collect env metrics)
    | .ok dialer => do
      let pool ← dialAll env dialer addrs
      deferClose pool (lift (HertzBeat.RedisCollector.collect env metrics))

theorem owns_dial (addr : Str) (dialer : Option Dialer) :
    Owns (· = ∅) (dial env addr dialer) (Held id) := by
  cases dialer with
  | none =>
    refine (SSHHelper.owns_dialTCP env.helper addr).bind (fun conn => owns_and fun hconn => ?_)
      fun _ _ h => h
    exact owns_pure fun _ h => h.trans hconn.symm
  | some dialer =>
    refine (SSHHelper.owns_mapError (SSHHelper.owns_dialWithContext env.helper _ _)).bind
      (fun sshClient => owns_and fun hclient => ?_) fun _ _ h => h
    rw [if_neg Bool.false_ne_true] at hclient
    rw [hclient]
    refine (owns_closeOnError_lift _ _).bind_held (fun _ => owns_pure ?_) fun _ => rfl
    rintro H rfl
    exact (Finset.empty_union _).symm

theorem owns_dialAll (dialer : Option Dialer) (addrs : List Str) :
    Owns (· = ∅) (dialAll env dialer addrs) (Held id) := by
  induction addrs with
  | nil => exact owns_pure fun _ h => h
  | cons addr addrs ih =>
    refine ih.bind_held (fun conns => ?_) fun _ => rfl
    refine (owns_dial env addr dialer).frame.bind_attempt fun x => ?_
    cases x with
    | error err =>
      refine owns_pure ?_
      rintro H ⟨H', rfl, -, rfl⟩
      exact Finset.union_empty _
    | ok conn =>
      refine owns_pure ?_
      rintro H ⟨H', rfl, -, rfl⟩
      rfl

theorem owns_collect (addrs : List Str) (metrics : Metrics Option) :
    Owns (· = ∅) (collect env addrs metrics) fun _ H => H = ∅ := by
  unfold collect
  cases metrics.redis with
  | none => exact owns_lift fun _ h => h
  | some config =>
    simp only
    cases createRedisDialer env config.sshTunnel with
    | error err => exact owns_lift fun _ h => h
    | ok dialer =>
      exact (owns_dialAll env dialer addrs).bind_held
        (fun pool => Owns.deferClose_held (owns_lift fun _ h => h)) fun _ => rfl

theorem total_dialAll (dialer : Option Dialer) (addrs : List Str) :
    Total (dialAll env dialer addrs) := by
  induction addrs with
  | nil => exact total_pure ∅
  | cons addr addrs ih =>
    refine ih.bind fun conns => (total_attempt _).bind fun x => ?_
    cases x <;> exact total_pure _

theorem returns_collect (addrs : List Str) (metrics : Metrics Option) :
    Returns (collect env addrs metrics) id (HertzBeat.RedisCollector.collect env metrics) := by
  unfold collect
  cases hredis : metrics.redis with
  | none =>
    rw [HertzBeat.RedisCollector.collect_eq_error hredis]
    exact fun _ => rfl
  | some config =>
    simp only
    cases createRedisDialer env config.sshTunnel with
    | error err => exact returns_lift _
    | ok dialer =>
      exact (total_dialAll env dialer addrs).returns_bind fun pool =>
        (returns_lift _).deferClose pool

end RedisCollector

/-! ### The Milvus collector -/

namespace MilvusCollector

open HertzBeat.MilvusCollector (Env credentials timeoutOf column)

variable (env : Env)

/-- The response of a server that is connected. -/
def respond (metrics : Metrics Option) (config : MilvusProtocol) : CollectRepMetricsData :=
  match env.getVersion with
  | .error err => createFailResponse metrics env.now .fail
      (Go.str "failed to get version: " ++ err)
  | .ok version => { createSuccessResponse metrics env.now with
      values := [metrics.aliases.map (column env config version)] }

/-- `Collect`. -/
def collect (metrics : Metrics Option) : Prog Go.Panic CollectRepMetricsData :=
  match metrics.milvus with
  | none => lift (.error .nilDereference)
  | some config => do
    let addr := config.host ++ Go.str ":" ++ config.port
    match ← attempt (acquire
        (env.connect addr (credentials config) (timeoutOf config.timeout))) with
    | .error err => pure (createFailResponse metrics env.now .unConnectable
        (Go.str "failed to connect: " ++ err))
    | .ok client => deferClose {client.2} (pure (respond env metrics config))

theorem returns_collect (metrics : Metrics Option) :
    Returns (collect env metrics) id (HertzBeat.MilvusCollector.collect env metrics) := by
  unfold collect HertzBeat.MilvusCollector.collect
  cases metrics.milvus with
  | none => exact fun _ => rfl
  | some config =>
    refine (returns_acquire _).bind_attempt fun x hx => ?_
    simp only [← hx]
    cases x with
    | error err => exact fun _ => rfl
    | ok client =>
      unfold respond
      cases env.getVersion <;> exact fun _ => rfl

theorem owns_collect (metrics : Metrics Option) :
    Owns (· = ∅) (collect env metrics) fun _ H => H = ∅ := by
  unfold collect
  cases metrics.milvus with
  | none => exact owns_lift fun _ h => h
  | some config =>
    refine (owns_acquire_held _).bind_attempt fun x => ?_
    cases x with
    | error err => exact owns_pure fun _ h => h
    | ok client => exact Owns.deferClose_held (owns_pure fun _ h => h)

end MilvusCollector

end HertzBeat.Sockets
