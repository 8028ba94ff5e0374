import HertzBeat.Collect.SSHCollector

/-!
# The Redis collector

`internal/protocol/basic/redis/redis_collector.go`. The client library is a parameter: what a
server answers to `INFO` and to `CLUSTER INFO`, and which nodes of a cluster are reached. The
nodes are asked by goroutines of their own that add their rows under one lock, so their order
is that in which they get it.
-/

namespace HertzBeat

open Go (Str StrMap)

namespace RedisCollector

/-- A dialer that goes through an SSH tunnel: the address of the server, and the client. -/
structure Dialer where
  address : Str
  config : SSHHelper.ClientConfig

/-- The options of a client. -/
structure Options where
  addr : Str
  username : Str
  password : Str
  timeout : ℤ
  dialer : Option Dialer

/-- The libraries and the target of a collection. -/
structure Env where
  helper : SSHHelper.Env
  /-- `time.ParseDuration`. -/
  parseDuration : Str → Option ℤ
  /-- `INFO`, of a section or of the default ones. -/
  info : Options → Option Str → Except Str Str
  /-- `CLUSTER INFO`. -/
  clusterInfo : Options → Except Str Str
  /-- The masters and the slaves of a cluster that are visited, in the order in which they get
  the lock. -/
  nodes : Options → List Options
  now : ℤ
  /-- The response time of a node. -/
  responseTime : Options → ℤ

variable (env : Env)

/-- The pattern that stands for a cluster. -/
def clusterPattern : Str := Go.str "3"

/-- What the patterns and the metric of a cluster are called. -/
def clusterName : Str := Go.str "cluster"

/-- The field that the address is put into. -/
def identityKey : Str := Go.str "identity"

/-- A pattern asks for the state of the cluster. -/
def hasClusterPrefix (pattern : Str) : Bool :=
  Go.hasPrefix (env.helper.text.toLower pattern) clusterName

/-- The timeout: a number of milliseconds, or else a duration. -/
def timeoutOf (timeoutStr : Str) : ℤ :=
  if timeoutStr = [] then 30 * Go.second
  else (((Go.atoi timeoutStr).map fun t => Go.wrap64 (t * Go.millisecond)) <|>
    env.parseDuration timeoutStr).getD (30 * Go.second)

/-- `createRedisDialer`. -/
def createRedisDialer (sshTunnel : Option SSHTunnel) : Except Str (Option Dialer) :=
  match sshTunnel with
  | none => .ok none
  | some tunnel =>
    if tunnel.enable ≠ Go.str "true" then .ok none
    else
      let sshConfig : SSHProtocol :=
        { host := tunnel.host, port := tunnel.port, username := tunnel.username,
          password := tunnel.password }
      (SSHHelper.createSSHClientConfig env.helper sshConfig).map fun clientConfig =>
        some { address := Go.joinHostPort sshConfig.host sshConfig.port
               config := { clientConfig with timeout := 30 * Go.second } }

/-- `fetchRedisInfo`. -/
def fetchRedisInfo (client : Options) (pattern : Str) : Except Str Str :=
  if pattern ≠ [] ∧ hasClusterPrefix env pattern ∧ pattern ≠ clusterPattern then
    env.clusterInfo client
  else if pattern = [] ∨ pattern = clusterPattern then env.info client none
  else env.info client (some pattern)

/-- One turn of the loop of `parseInfo`. -/
def parseLine (result : StrMap) (line : Str) : StrMap :=
  let line := env.helper.text.trimSpace line
  if line = [] ∨ Go.hasPrefix line (Go.str "#") then result
  else match Go.splitTwo line (Go.str ":") with
    | [key, value] =>
      result.insert (env.helper.text.toLower (env.helper.text.trimSpace key))
        (env.helper.text.trimSpace value)
    | _ => result

/-- `parseInfo`. -/
def parseInfo (info : Str) : StrMap :=
  (Go.split info (Go.str "\n")).foldl (parseLine env) ∅

/-- The row that `addValueRow` adds. -/
def valueRow (aliasFields : List Str) (parseMap : StrMap) : List Str :=
  aliasFields.map fun field => (parseMap.lookup (env.helper.text.toLower field)).getD nullValue

/-- What a node answered, with the response time and the address of its own. -/
def ownValues (client : Options) (info : Str) : StrMap :=
  ((parseInfo env info).insert (env.helper.text.toLower responseTimeKey)
    (Go.itoa (env.responseTime client))).insert (env.helper.text.toLower identityKey) client.addr

/-- The client of a configuration. -/
def options (config : RedisProtocol Option) (dialer : Option Dialer) : Options where
  addr := config.host ++ Go.str ":" ++ config.port
  username := config.username
  password := config.password
  timeout := timeoutOf env config.timeout
  dialer := dialer

/-- `collectSingle`. -/
def collectSingle (metrics : Metrics Option) (config : RedisProtocol Option)
    (dialer : Option Dialer) (response : CollectRepMetricsData) : CollectRepMetricsData :=
  let client := options env config dialer
  match fetchRedisInfo env client config.pattern with
  | .error err => { response with code := .fail, msg := err }
  | .ok info =>
    { response with
      values := response.values ++ [valueRow env metrics.aliases (ownValues env client info)] }

/-- The row of a node of a cluster. One that does not answer has none. -/
def collectNode (metrics : Metrics Option) (config : RedisProtocol Option) (node : Options) :
    Option (List Str) :=
  match fetchRedisInfo env node config.pattern with
  | .error _ => none
  | .ok info =>
    let parseMap := ownValues env node info
    -- the state of the cluster may overwrite what is there
    let parseMap := if metrics.name = clusterName then
        match env.clusterInfo node with
        | .error _ => parseMap
        | .ok clusterInfo => (parseInfo env clusterInfo).entries.foldl
            (fun m (e : Σ _ : Str, Str) => m.insert e.1 e.2) parseMap
      else parseMap
    some (valueRow env metrics.aliases parseMap)

/-- `collectCluster`. -/
def collectCluster (metrics : Metrics Option) (config : RedisProtocol Option)
    (dialer : Option Dialer) (response : CollectRepMetricsData) : CollectRepMetricsData :=
  let nodes := env.nodes (options env config dialer)
  let response := { response with
    values := response.values ++ nodes.filterMap (collectNode env metrics config) }
  if response.values = [] then
    { response with code := .fail, msg := Go.str "no data collected from cluster" }
  else response

/-- `Collect`. -/
def collect (metrics : Metrics Option) : Except Go.Panic CollectRepMetricsData :=
  let response := { createSuccessResponse metrics env.now with
    fields := stringFields metrics.aliases }
  match metrics.redis with
  | none => .error .nilDereference
  | some config =>
    match createRedisDialer env config.sshTunnel with
    | .error err => .ok { response with code := .unConnectable, msg := err }
    | .ok dialer =>
      if config.pattern = clusterPattern ∨ hasClusterPrefix env config.pattern then
        .ok (collectCluster env metrics config dialer response)
      else .ok (collectSingle env metrics config dialer response)

variable {env} {metrics : Metrics Option}

/-- **A collection with a configuration returns**, whatever the servers answer. -/
theorem collect_eq_ok {config : RedisProtocol Option} (h : metrics.redis = some config) :
    ∃ response, collect env metrics = .ok response := by
  simp only [collect, h]
  split
  · exact ⟨_, rfl⟩
  · split_ifs <;> exact ⟨_, rfl⟩

/-- Without one it panics. -/
theorem collect_eq_error (h : metrics.redis = none) :
    collect env metrics = .error .nilDereference := by
  simp only [collect, h]

end RedisCollector

end HertzBeat
