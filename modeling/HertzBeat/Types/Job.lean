import HertzBeat.Lib.Value

/-!
# Jobs

The records of `internal/types/job`: a job, its metrics, and the protocol
configurations the metrics point to.

In the source these records refer to one another by pointer, slice and map, and
some of the code writes through such a reference while other records share it. All
of them are therefore stated over a *reference former* `Ptr`: a field of type
`Ptr α` is what the source declares as a pointer to `α`, a slice of it or a map.

* With `Ptr = Option` a record holds what its references lead to, and `none` is
  nil: `HertzBeat.Job`. Most of the code never writes through a reference of a job,
  and for it a job is this tree.
* With `Ptr = Ref` a record holds addresses, and the tree is only there together
  with the memories they lead into.

The loggers inside the protocol configurations are left out, and so is the inside
of a parameter definition, which no modelled code looks at.
-/

namespace HertzBeat

open Go (Str StrMap Value)

/-- An address, or nil. The type says what is to be found at it. -/
abbrev Ref (_ : Type) : Type := Option ℕ

/-! ### Protocol configurations -/

/-- HTTP authorization. -/
structure Authorization where
  type : Str := []
  basicAuthUsername : Str := []
  basicAuthPassword : Str := []
  digestAuthUsername : Str := []
  digestAuthPassword : Str := []
  bearerTokenToken : Str := []
  deriving DecidableEq, Repr

/-- HTTP. -/
structure HTTPProtocol (Ptr : Type → Type) where
  url : Str := []
  method : Str := []
  headers : Ptr StrMap
  params : Ptr StrMap
  body : Str := []
  parseScript : Str := []
  parseType : Str := []
  keyword : Str := []
  timeout : Str := []
  ssl : Str := []
  authorization : Ptr Authorization

/-- SSH. -/
structure SSHProtocol where
  host : Str := []
  port : Str := []
  username : Str := []
  password : Str := []
  privateKey : Str := []
  privateKeyPassphrase : Str := []
  script : Str := []
  parseType : Str := []
  parseScript : Str := []
  timeout : Str := []
  reuseConnection : Str := []
  useProxy : Str := []
  proxyHost : Str := []
  proxyPort : Str := []
  proxyUsername : Str := []
  proxyPassword : Str := []
  proxyPrivateKey : Str := []
  deriving DecidableEq, Repr

/-- An SSH tunnel. -/
structure SSHTunnel where
  enable : Str := []
  host : Str := []
  port : Str := []
  username : Str := []
  password : Str := []
  deriving DecidableEq, Repr

/-- JDBC. -/
structure JDBCProtocol (Ptr : Type → Type) where
  host : Str := []
  port : Str := []
  platform : Str := []
  username : Str := []
  password : Str := []
  database : Str := []
  timeout : Str := []
  queryType : Str := []
  sql : Str := []
  url : Str := []
  reuseConnection : Str := []
  sshTunnel : Ptr SSHTunnel

/-- Redis. -/
structure RedisProtocol (Ptr : Type → Type) where
  host : Str := []
  port : Str := []
  username : Str := []
  password : Str := []
  pattern : Str := []
  timeout : Str := []
  sshTunnel : Ptr SSHTunnel

/-- SNMP. -/
structure SNMPProtocol where
  host : Str := []
  port : ℤ := 0
  version : Str := []
  community : Str := []
  username : Str := []
  authType : Str := []
  authPasswd : Str := []
  privType : Str := []
  privPasswd : Str := []
  contextName : Str := []
  timeout : ℤ := 0
  operation : Str := []
  oids : Str := []
  deriving DecidableEq, Repr

/-- JMX. -/
structure JMXProtocol where
  host : Str := []
  port : ℤ := 0
  username : Str := []
  password : Str := []
  protocol : Str := []
  url : Str := []
  timeout : ℤ := 0
  deriving DecidableEq, Repr

/-- MongoDB. -/
structure MongoDBProtocol where
  host : Str := []
  port : ℤ := 0
  username : Str := []
  password : Str := []
  database : Str := []
  authDatabase : Str := []
  command : Str := []
  timeout : ℤ := 0
  deriving DecidableEq, Repr

/-- Milvus. -/
structure MilvusProtocol where
  host : Str := []
  port : Str := []
  username : Str := []
  password : Str := []
  timeout : Str := []
  deriving DecidableEq, Repr

/-! ### Metrics and jobs -/

/-- A metric field. -/
structure Field where
  field : Str := []
  type : ℤ := 0
  label : Bool := false
  unit : Str := []
  instance_ : Bool := false
  value : Value := .null
  i18n : Value := .null

/-- A metric configuration. -/
structure Metrics (Ptr : Type → Type) where
  name : Str := []
  i18n : Value := .null
  priority : ℤ := 0
  collectTime : ℤ := 0
  interval : ℤ := 0
  visible : Ptr Bool
  fields : Ptr (List Field)
  aliasFields : Ptr (List Str)
  calculates : Value := .null
  filters : Value := .null
  units : Value := .null
  protocol : Str := []
  host : Str := []
  port : Str := []
  timeout : Str := []
  range : Str := []
  configMap : Ptr StrMap
  hasSubTask : Bool := false
  http : Ptr (HTTPProtocol Ptr)
  ssh : Ptr SSHProtocol
  jdbc : Ptr (JDBCProtocol Ptr)
  snmp : Ptr SNMPProtocol
  jmx : Ptr JMXProtocol
  redis : Ptr (RedisProtocol Ptr)
  mongodb : Ptr MongoDBProtocol
  milvus : Ptr MilvusProtocol

/-- The metric configuration of a protocol all of whose other fields have their zero value. -/
def Metrics.bare (name protocol : Str) : Metrics Option where
  name := name
  protocol := protocol
  visible := none
  fields := none
  aliasFields := none
  configMap := none
  http := none
  ssh := none
  jdbc := none
  snmp := none
  jmx := none
  redis := none
  mongodb := none
  milvus := none

/-- A parameter definition, as it was decoded. -/
structure ParamDefine where
  json : Value

/-- An entry of a job's configuration. -/
structure Configmap where
  key : Str := []
  value : Value := .null
  type : ℤ := 0
  option : List Str := []

/-- Collected data that is kept with a job. -/
structure MetricsData where
  id : ℤ := 0
  tenantId : ℤ := 0
  app : Str := []
  metrics : Str := []
  priority : ℤ := 0
  time : ℤ := 0
  code : ℤ := 0
  msg : Str := []
  fields : List Field := []
  values : List (List Str) := []
  metadata : StrMap := ∅
  labels : StrMap := ∅

/-- A pointer to an element of a slice of metrics: the slice, and the position in
it. -/
structure MetricsPtr where
  slice : ℕ
  index : ℕ
  deriving DecidableEq, Repr

/-- A monitoring job. -/
structure JobOf (Ptr : Type → Type) where
  id : ℤ := 0
  tenantId : ℤ := 0
  monitorId : ℤ := 0
  metadata : Ptr StrMap
  labels : Ptr StrMap
  annotations : Ptr StrMap
  hide : Bool := false
  category : Str := []
  app : Str := []
  name : Value := .null
  help : Value := .null
  helpLink : Value := .null
  timestamp : ℤ := 0
  defaultInterval : ℤ := 0
  intervals : Ptr (List ℤ)
  isCyclic : Bool := false
  params : Ptr (List ParamDefine)
  metrics : Ptr (List (Metrics Ptr))
  configmap : Ptr (List Configmap)
  isSd : Bool := false
  sd : Bool := false
  prometheusProxyMode : Bool := false
  cyclic : Bool := false
  interval : ℤ := 0
  envConfigmaps : Ptr (Go.Map Str Configmap)
  dispatchTime : ℤ := 0
  priorMetrics : Ptr (List (Ptr (List MetricsPtr)))
  responseDataTemp : Ptr (List MetricsData)

/-- A job with everything its references lead to. -/
abbrev Job := JobOf Option

/-- The job all of whose fields have their zero value, but for the three the
scheduler reads. -/
def Job.bare (id : ℤ) (isCyclic : Bool) (defaultInterval : ℤ) : Job where
  id := id
  isCyclic := isCyclic
  defaultInterval := defaultInterval
  metadata := none
  labels := none
  annotations := none
  intervals := none
  params := none
  metrics := none
  configmap := none
  envConfigmaps := none
  priorMetrics := none
  responseDataTemp := none

end HertzBeat
