import HertzBeat.Lib.Text
import HertzBeat.Types.CollectData

/-!
# The Milvus collector

`internal/protocol/extension/milvus/milvus_collector.go`: it connects, asks for the version,
and makes one row of what it knows.
-/

namespace HertzBeat

open Go (Str Text)

namespace MilvusCollector

/-- The libraries and the target of a collection. -/
structure Env where
  text : Text
  /-- A connection to an address with a user name and a password, if there are both, and a
  timeout. -/
  connect : Str → Option (Str × Str) → ℤ → Except Str Unit
  getVersion : Except Str Str
  now : ℤ
  responseTime : ℤ

variable (env : Env)

/-- The timeout: ten seconds where there is no number of milliseconds. -/
def timeoutOf (timeoutStr : Str) : ℤ :=
  if timeoutStr = [] then 10 * Go.second
  else match Go.atoi timeoutStr with
    | some t => Go.wrap64 (t * Go.millisecond)
    | none => 10 * Go.second

/-- The column of an alias. -/
def column (config : MilvusProtocol) (version field : Str) : Str :=
  let name := env.text.toLower field
  if name = env.text.toLower responseTimeKey then Go.itoa env.responseTime
  else if name = Go.str "version" then version
  else if name = Go.str "host" then config.host
  else if name = Go.str "port" then config.port
  else nullValue

/-- The user name and the password of a configuration, if there are both. -/
def credentials (config : MilvusProtocol) : Option (Str × Str) :=
  if config.username ≠ [] ∧ config.password ≠ [] then some (config.username, config.password)
  else none

/-- `Collect`. -/
def collect (metrics : Metrics Option) : Except Go.Panic CollectRepMetricsData :=
  match metrics.milvus with
  | none => .error .nilDereference
  | some config =>
    let addr := config.host ++ Go.str ":" ++ config.port
    match env.connect addr (credentials config) (timeoutOf config.timeout) with
    | .error err => .ok (createFailResponse metrics env.now .unConnectable
        (Go.str "failed to connect: " ++ err))
    | .ok _ =>
      match env.getVersion with
      | .error err => .ok (createFailResponse metrics env.now .fail
          (Go.str "failed to get version: " ++ err))
      | .ok version => .ok { createSuccessResponse metrics env.now with
          values := [metrics.aliases.map (column env config version)] }

variable {env} {metrics : Metrics Option}

/-- **A collection with a configuration returns**, whatever the server answers. -/
theorem collect_eq_ok {config : MilvusProtocol} (h : metrics.milvus = some config) :
    ∃ response, collect env metrics = .ok response := by
  simp only [collect, h]
  split
  · exact ⟨_, rfl⟩
  · split <;> exact ⟨_, rfl⟩

/-- Without one it panics. -/
theorem collect_eq_error (h : metrics.milvus = none) :
    collect env metrics = .error .nilDereference := by
  simp only [collect, h]

end MilvusCollector

end HertzBeat
