import HertzBeat.Lib.MemFrame
import HertzBeat.Param.Replacer

/-!
# Cloning a job and replacing its parameters

`ReplaceJobParams` is meant to leave the job it is given alone: it clones the job
and replaces the placeholders in the clone. Whether it does depends on what the
clone shares with the original, so here jobs live in a *store*
(`HertzBeat.Store`): every pointer, slice and map of a job is an address, and the
records, slices and maps themselves are kept in one memory for each type.

`HertzBeat.Store.clone` is `Job.Clone` and `HertzBeat.Store.replaceJobParams` is the
replacement. A clone has a new slice of metrics, and each of the metrics a new
configuration map, new slices of fields and a new HTTP configuration; the SSH, JDBC
and Redis configurations are those of the original.

The source copies some of the slices twice and keeps the second copy; here there is
one. The configurations no modelled code follows – SNMP, JMX, MongoDB, Milvus and
the visibility flag – have no memory: their addresses are copied along and never
written through.
-/

namespace HertzBeat

open Go (Str StrMap RangeOrder)

/-- The memories a job is spread over. -/
structure Store where
  jobs : Mem (JobOf Ref) := .empty
  metrics : Mem (List (Metrics Ref)) := .empty
  configmaps : Mem (List Configmap) := .empty
  https : Mem (HTTPProtocol Ref) := .empty
  authorizations : Mem Authorization := .empty
  sshs : Mem SSHProtocol := .empty
  jdbcs : Mem (JDBCProtocol Ref) := .empty
  redises : Mem (RedisProtocol Ref) := .empty
  tunnels : Mem SSHTunnel := .empty
  strMaps : Mem StrMap := .empty
  fields : Mem (List Field) := .empty
  aliasFields : Mem (List Str) := .empty
  intervals : Mem (List ℤ) := .empty
  params : Mem (List ParamDefine) := .empty
  priorMetrics : Mem (List (Ref (List MetricsPtr))) := .empty
  metricsPtrs : Mem (List MetricsPtr) := .empty

namespace Store

/-! ### Cloning -/

/-- The copy of an HTTP configuration, with its maps and its authorization. -/
def cloneHTTP (s : Store) (http : Ref (HTTPProtocol Ref)) : Ref (HTTPProtocol Ref) × Store :=
  match http.bind s.https.read with
  | none => (none, s)
  | some h =>
    let headers := s.strMaps.copy h.headers
    let params := headers.2.copy h.params
    let authorization := s.authorizations.copy h.authorization
    let cloneHTTP := { h with
      headers := headers.1
      params := params.1
      authorization := authorization.1 }
    (some s.https.size, { s with
      strMaps := params.2
      authorizations := authorization.2
      https := s.https.alloc cloneHTTP })

/-- The element of the clone's slice of metrics that an element of the original's is
copied to. -/
def cloneMetrics (s : Store) (metric : Metrics Ref) : Metrics Ref × Store :=
  let configMap := s.strMaps.copy metric.configMap
  let fields := s.fields.copy metric.fields
  let aliasFields := s.aliasFields.copy metric.aliasFields
  let http := cloneHTTP { s with
    strMaps := configMap.2
    fields := fields.2
    aliasFields := aliasFields.2 } metric.http
  -- the other pointers of the element are copied with it
  ({ metric with
      configMap := configMap.1
      fields := fields.1
      aliasFields := aliasFields.1
      http := http.1 }, http.2)

/-- The copies of a slice's elements. -/
def cloneAllMetrics (s : Store) : List (Metrics Ref) → List (Metrics Ref) × Store
  | [] => ([], s)
  | metric :: metrics =>
    let first := s.cloneMetrics metric
    let rest := cloneAllMetrics first.2 metrics
    (first.1 :: rest.1, rest.2)

/-- The copy of a slice of metrics. -/
def cloneMetricsSlice (s : Store) (metrics : Ref (List (Metrics Ref))) :
    Ref (List (Metrics Ref)) × Store :=
  match metrics.bind s.metrics.read with
  | none => (none, s)
  | some ms =>
    let clones := s.cloneAllMetrics ms
    (some clones.2.metrics.size, { clones.2 with metrics := clones.2.metrics.alloc clones.1 })

/-- The copy of the prior metrics: a new slice of new slices, holding the same
pointers. -/
def clonePriorMetrics (s : Store) (priorMetrics : Ref (List (Ref (List MetricsPtr)))) :
    Ref (List (Ref (List MetricsPtr))) × Store :=
  match priorMetrics.bind s.priorMetrics.read with
  | none => (none, s)
  | some rows =>
    let clones := s.metricsPtrs.copyAll rows
    (some s.priorMetrics.size, { s with
      metricsPtrs := clones.2
      priorMetrics := s.priorMetrics.alloc clones.1 })

/-- `Job.Clone`. The fields that it does not mention are left at their zero value. -/
def clone (s : Store) (job : JobOf Ref) : ℕ × Store :=
  let intervals := s.intervals.copy job.intervals
  let params := s.params.copy job.params
  let configmap := s.configmaps.copy job.configmap
  let metadata := s.strMaps.copy job.metadata
  let labels := metadata.2.copy job.labels
  let annotations := labels.2.copy job.annotations
  let priorMetrics := clonePriorMetrics { s with
    intervals := intervals.2
    params := params.2
    configmaps := configmap.2
    strMaps := annotations.2 } job.priorMetrics
  let metrics := cloneMetricsSlice priorMetrics.2 job.metrics
  let clone : JobOf Ref :=
    { id := job.id
      tenantId := job.tenantId
      monitorId := job.monitorId
      hide := job.hide
      category := job.category
      app := job.app
      name := job.name
      help := job.help
      helpLink := job.helpLink
      timestamp := job.timestamp
      defaultInterval := job.defaultInterval
      isCyclic := job.isCyclic
      metadata := metadata.1
      labels := labels.1
      annotations := annotations.1
      intervals := intervals.1
      params := params.1
      configmap := configmap.1
      priorMetrics := priorMetrics.1
      metrics := metrics.1
      envConfigmaps := none
      responseDataTemp := none }
  (metrics.2.jobs.size, { metrics.2 with jobs := metrics.2.jobs.alloc clone })

/-! ### Replacing -/

variable (o : RangeOrder) (paramMap : StrMap)

/-- `replaceJDBCParams`. -/
def replaceJDBC (s : Store) (jdbc : Ref (JDBCProtocol Ref)) : Store :=
  -- the call of the tunnel's replacement comes after those of the eleven fields
  let tunnel := (jdbc.bind s.jdbcs.read).bind (·.sshTunnel)
  { s with
    jdbcs := s.jdbcs.modifyAt jdbc (Replacer.replaceJDBCParams o · paramMap)
    tunnels := s.tunnels.modifyAt tunnel (Replacer.replaceTunnelParams (o.at 11) · paramMap) }

/-- `replaceSSHParams`. -/
def replaceSSH (s : Store) (ssh : Ref SSHProtocol) : Store :=
  { s with sshs := s.sshs.modifyAt ssh (Replacer.replaceSSHParams o · paramMap) }

/-- `replaceRedisParams`. -/
def replaceRedis (s : Store) (redis : Ref (RedisProtocol Ref)) : Store :=
  let tunnel := (redis.bind s.redises.read).bind (·.sshTunnel)
  { s with
    redises := s.redises.modifyAt redis (Replacer.replaceRedisParams o · paramMap)
    tunnels := s.tunnels.modifyAt tunnel (Replacer.replaceTunnelParams (o.at 6) · paramMap) }

/-- The new map in place of the headers or the params of an HTTP configuration. -/
def replaceHTTPMap (strMaps : Mem StrMap) (entries : Ref StrMap) : Ref StrMap × Mem StrMap :=
  match entries.bind strMaps.read with
  | none => (none, strMaps)
  | some es => (some strMaps.size, strMaps.alloc (Replacer.replaceHTTPMap o es paramMap))

/-- `replaceHTTPParams`. -/
def replaceHTTP (s : Store) (http : Ref (HTTPProtocol Ref)) : Store :=
  match http.bind s.https.read with
  | none => s
  | some h =>
    let headers := replaceHTTPMap (o.at 8) paramMap s.strMaps h.headers
    let params := replaceHTTPMap (o.at 9) paramMap headers.2 h.params
    { s with
      strMaps := params.2
      https := s.https.modifyAt http fun h =>
        { Replacer.replaceHTTPParams o h paramMap with
          headers := headers.1
          params := params.1 }
      authorizations := s.authorizations.modifyAt h.authorization
        (Replacer.replaceAuthorizationParams (o.at 10) · paramMap) }

/-- `ReplaceMetricsParams`: the element of the slice as it is afterwards, and the
store. -/
def replaceMetricsParams (s : Store) (metric : Metrics Ref) : Metrics Ref × Store :=
  let s := s.replaceJDBC (o.at 0) paramMap metric.jdbc
  let s := s.replaceSSH (o.at 1) paramMap metric.ssh
  let s := s.replaceHTTP (o.at 2) paramMap metric.http
  let s := s.replaceRedis (o.at 3) paramMap metric.redis
  (Replacer.replaceBasicMetricsParams (o.at 4) metric paramMap,
    { s with
      strMaps := s.strMaps.modifyAt metric.configMap
        (Replacer.replaceConfigMap ((o.at 4).at 4) · paramMap) })

/-- The loop over the metrics of the clone, from the `i`-th on. -/
def replaceAllMetrics (i : ℕ) (s : Store) : List (Metrics Ref) → List (Metrics Ref) × Store
  | [] => ([], s)
  | metric :: metrics =>
    let first := s.replaceMetricsParams (o.at i) paramMap metric
    let rest := replaceAllMetrics (i + 1) first.2 metrics
    (first.1 :: rest.1, rest.2)

end Store

/-- The error of `ReplaceJobParams`. The other two it could return are of calls that
do not fail: the clone of a job is not nil, and `ReplaceMetricsParams` has no error. -/
inductive ReplaceError where
  /-- `job is nil`. -/
  | nilJob
  deriving DecidableEq, Repr

/-- The text of the error. -/
def ReplaceError.message : ReplaceError → Str
  | .nilJob => Go.str "job is nil"

namespace Store

/-- The parameter map of a job. -/
def paramMap (s : Store) (job : JobOf Ref) : StrMap :=
  Replacer.createParamMapSimple ((job.configmap.bind s.configmaps.read).getD [])

/-- `ReplaceJobParams`: the address of the clone, or an error, and the store
afterwards. -/
def replaceJobParams (o : RangeOrder) (s : Store) (job : Ref (JobOf Ref)) :
    Except ReplaceError ℕ × Store :=
  match job.bind s.jobs.read with
  | none => (.error .nilJob, s)
  | some j =>
    let clonedJob := s.clone j
    -- the parameters are those of the original, the metrics those of the clone
    let metrics := (clonedJob.2.jobs.read clonedJob.1).bind (·.metrics)
    let replaced := clonedJob.2.replaceAllMetrics o (s.paramMap j) 0
      ((metrics.bind clonedJob.2.metrics.read).getD [])
    (.ok clonedJob.1, { replaced.2 with
      metrics := replaced.2.metrics.modifyAt metrics fun _ => replaced.1 })

end Store

end HertzBeat
