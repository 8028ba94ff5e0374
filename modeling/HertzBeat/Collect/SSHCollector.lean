import HertzBeat.Lib.Text
import HertzBeat.Types.CollectData

/-!
# The SSH collector

`internal/protocol/basic/ssh/ssh_collector.go`, with the helper it connects with,
`internal/util/ssh/ssh_helper.go`, which the Redis collector uses too. The connections and the
script that runs at the other end of them are parameters.

Of the five collectors this is the one that looks whether it has a configuration:
`HertzBeat.SSHCollector.collect_eq_ok` needs no hypothesis.
-/

namespace HertzBeat

open Go (Str Text)

/-! ### The helper -/

namespace SSHHelper

/-- How a client authenticates itself. -/
inductive AuthMethod where
  | publicKeys (privateKey : Str)
  | password (password : Str)
  deriving DecidableEq, Repr

/-- The configuration of a client. -/
structure ClientConfig where
  user : Str
  auth : AuthMethod
  timeout : ℤ := 0
  deriving DecidableEq, Repr

/-- What the helper asks of the SSH library and of the network. -/
structure Env where
  text : Text
  /-- `ParsePrivateKey`. -/
  parsePrivateKey : Str → Except Str Unit
  /-- A connection to an address is opened. -/
  dialTCP : Str → Except Str Unit
  /-- `ssh.NewClientConn`, on a connection to an address. -/
  handshake : Str → ClientConfig → Except Str Unit
  /-- A connection is opened through the client of one address to another. -/
  dialThrough : Str → Str → Except Str Unit

variable (env : Env)

/-- The configuration of a client that has a key or a password, with the texts of the errors
that it may end in. -/
def clientConfig (user privateKey password keyError missing : Str) : Except Str ClientConfig :=
  if privateKey ≠ [] ∧ env.text.trimSpace privateKey ≠ [] then
    ((env.parsePrivateKey privateKey).mapError (keyError ++ ·)).map fun _ =>
      { user := user, auth := .publicKeys privateKey }
  else if password ≠ [] then .ok { user := user, auth := .password password }
  else .error missing

/-- `CreateSSHClientConfig`. -/
def createSSHClientConfig (config : SSHProtocol) : Except Str ClientConfig :=
  clientConfig env config.username config.privateKey config.password
    (Go.str "failed to parse private key: ")
    (Go.str "either password or private key must be provided")

/-- `createProxyClientConfig`. -/
def createProxyClientConfig (config : SSHProtocol) : Except Str ClientConfig :=
  clientConfig env config.proxyUsername config.proxyPrivateKey config.proxyPassword
    (Go.str "failed to parse proxy private key: ")
    (Go.str "either proxy password or proxy private key must be provided")

/-- `DialWithContext`. -/
def dialWithContext (addr : Str) (config : ClientConfig) : Except Str Unit := do
  env.dialTCP addr
  env.handshake addr config

/-- `dialViaProxy`. -/
def dialViaProxy (config : SSHProtocol) (targetConfig : ClientConfig) : Except Str Unit := do
  let proxyConfig ← (createProxyClientConfig env config).mapError
    (Go.str "failed to create proxy client config: " ++ ·)
  let proxyConfig := if 0 < targetConfig.timeout then
      { proxyConfig with timeout := targetConfig.timeout }
    else proxyConfig
  let proxyAddress := Go.joinHostPort config.proxyHost config.proxyPort
  (env.dialTCP proxyAddress).mapError fun err =>
    Go.str "failed to connect to proxy server " ++ proxyAddress ++ Go.str ": " ++ err
  (env.handshake proxyAddress proxyConfig).mapError
    (Go.str "failed to establish SSH connection to proxy: " ++ ·)
  let targetAddress := Go.joinHostPort config.host config.port
  (env.dialThrough proxyAddress targetAddress).mapError fun err =>
    Go.str "failed to dial target server " ++ targetAddress ++ Go.str " via proxy: " ++ err
  (env.handshake targetAddress targetConfig).mapError
    (Go.str "failed to establish SSH connection to target server: " ++ ·)

/-- `DialWithProxy`. -/
def dialWithProxy (config : SSHProtocol) (clientConfig : ClientConfig) : Except Str Unit :=
  if config.useProxy ≠ Go.str "true" ∨ config.proxyHost = [] ∨ config.proxyPort = [] then
    dialWithContext env (Go.joinHostPort config.host config.port) clientConfig
  else if config.proxyUsername = [] then
    .error (Go.str "proxy username is required when using proxy")
  else if config.proxyPassword = [] ∧ config.proxyPrivateKey = [] then
    .error (Go.str "either proxy password or proxy private key is required when using proxy")
  else dialViaProxy env config clientConfig

/-- A network in which every connection succeeds. The strings are of ASCII. -/
def Env.connected : Env where
  text := .ascii
  parsePrivateKey := fun _ => .ok ()
  dialTCP := fun _ => .ok ()
  handshake := fun _ _ => .ok ()
  dialThrough := fun _ _ => .ok ()

end SSHHelper

/-! ### The collector -/

namespace SSHCollector

/-- The libraries and the target of a collection. -/
structure Env where
  helper : SSHHelper.Env
  /-- `time.ParseDuration`. -/
  parseDuration : Str → Option ℤ
  newSession : Except Str Unit
  /-- A script runs: what it writes, or the error and what it wrote to the other stream. -/
  run : Str → Except (Str × Str) Str
  now : ℤ
  responseTime : ℤ

variable (env : Env)

/-- `getTimeout`. -/
def getTimeout (timeoutStr : Str) : ℤ :=
  Go.parseTimeout env.parseDuration (30 * Go.second) timeoutStr

/-- `executeSSHScript`. -/
def executeSSHScript (config : SSHProtocol) (timeout : ℤ) : Except Str Str := do
  let clientConfig ← (SSHHelper.createSSHClientConfig env.helper config).mapError
    (Go.str "failed to create SSH client config: " ++ ·)
  (SSHHelper.dialWithProxy env.helper config { clientConfig with timeout := timeout }).mapError
    fun err => Go.str "failed to connect to SSH server " ++
      Go.joinHostPort config.host config.port ++ Go.str ": " ++ err
  env.newSession.mapError (Go.str "failed to create SSH session: " ++ ·)
  (env.run config.script).mapError fun err =>
    if err.2 = [] then Go.str "script execution failed: " ++ err.1
    else Go.str "script execution failed: " ++ err.1 ++ Go.str ", stderr: " ++ err.2

/-- The loop of `parseResponseDataByOne`: every alias other than that of the response time
takes the next of the lines that are left. -/
def oneRowColumns : List Str → List Str → List Str
  | [], _ => []
  | aliasField :: aliasFields, lines =>
    if env.helper.text.equalFold aliasField responseTimeKey then
      Go.itoa env.responseTime :: oneRowColumns aliasFields lines
    else match lines with
      | [] => nullValue :: oneRowColumns aliasFields []
      | line :: lines => env.helper.text.trimSpace line :: oneRowColumns aliasFields lines

/-- `parseResponseDataByOne`. -/
def parseResponseDataByOne (result : Str) (aliasFields : List Str)
    (response : CollectRepMetricsData) : CollectRepMetricsData :=
  let lines := Go.split result (Go.str "\n")
  if lines.length + 1 < aliasFields.length then response
  else { response with
    values := response.values ++ [oneRowColumns env aliasFields lines]
    fields := response.fields ++ stringFields aliasFields }

/-- The positions of the names in the header line. Of two names that are alike but for their
case the later one counts. -/
def fieldMapping (header : Str) : Go.Map Str ℕ :=
  ((env.helper.text.fields header).zipIdx).foldl (fun mapping field =>
    mapping.insert (env.helper.text.toLower (env.helper.text.trimSpace field.1)) field.2) ∅

/-- The columns of a line. -/
def multiRowColumns (mapping : Go.Map Str ℕ) (aliasFields values : List Str) : List Str :=
  aliasFields.map fun aliasField =>
    if env.helper.text.equalFold aliasField responseTimeKey then Go.itoa env.responseTime
    else ((mapping.lookup (env.helper.text.toLower aliasField)).bind fun i => values[i]?).getD
      nullValue

/-- The row of a line; blank lines have none. -/
def multiRow (mapping : Go.Map Str ℕ) (aliasFields : List Str) (line : Str) : Option (List Str) :=
  let line := env.helper.text.trimSpace line
  if line = [] then none
  else some (multiRowColumns env mapping aliasFields (env.helper.text.fields line))

/-- `parseResponseDataByMulti`. -/
def parseResponseDataByMulti (result : Str) (aliasFields : List Str)
    (response : CollectRepMetricsData) : CollectRepMetricsData :=
  match Go.split result (Go.str "\n") with
  | header :: line :: lines =>
    let mapping := fieldMapping env header
    { response with
      values := response.values ++ (line :: lines).filterMap (multiRow env mapping aliasFields)
      fields := response.fields ++ stringFields aliasFields }
  | _ => response

/-- `createSuccessResponseWithResult`. It reads the configuration once more, without a look
whether there is one. -/
def createSuccessResponseWithResult (metrics : Metrics Option) (result : Str) :
    Except Go.Panic CollectRepMetricsData :=
  let response := createSuccessResponse metrics env.now
  match metrics.ssh with
  | none => .error .nilDereference
  | some config =>
    if env.helper.text.equalFold config.parseType (Go.str "oneRow") then
      .ok (parseResponseDataByOne env result metrics.aliases response)
    else if env.helper.text.equalFold config.parseType (Go.str "multiRow") then
      .ok (parseResponseDataByMulti env result metrics.aliases response)
    else .ok response

/-- `Collect`. -/
def collect (metrics : Metrics Option) : Except Go.Panic CollectRepMetricsData :=
  match metrics.ssh with
  | none =>
    .ok (createFailResponse metrics env.now .fail (Go.str "SSH configuration is required"))
  | some config =>
    match executeSSHScript env config (getTimeout env config.timeout) with
    | .error err => .ok (createFailResponse metrics env.now .unConnectable
        (Go.str "SSH execution error: " ++ err))
    | .ok result => createSuccessResponseWithResult env metrics result

/-- **A collection returns**, with a configuration and without. -/
theorem collect_eq_ok (metrics : Metrics Option) :
    ∃ response, collect env metrics = .ok response := by
  unfold collect
  cases hssh : metrics.ssh with
  | none => exact ⟨_, rfl⟩
  | some config =>
    simp only
    split
    · exact ⟨_, rfl⟩
    · simp only [createSuccessResponseWithResult, hssh]
      split_ifs <;> exact ⟨_, rfl⟩

end SSHCollector

end HertzBeat
