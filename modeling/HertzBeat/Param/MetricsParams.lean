import HertzBeat.Param.Replacer

/-!
# The parameters of a metric, and of a job

`ReplaceMetricsParams` of `internal/util/param`, on a metric that shares nothing with another:
the configuration of each protocol that it has one of, the strings of its own, and its
configuration map. `ReplaceJobParams` is the same on a clone of a job, for one metric after
the other.

What is replaced in a tree here is replaced in a store in `HertzBeat.Param.JobStore`; the two
agree (`HertzBeat.Store.readJob_replaceJobParams`).
-/

namespace HertzBeat

open Go (Str StrMap RangeOrder)

namespace Replacer

/-- `replaceJDBCParams`. -/
def replaceJDBC (o : RangeOrder) (paramMap : StrMap) (jdbc : JDBCProtocol Option) :
    JDBCProtocol Option :=
  { replaceJDBCParams o jdbc paramMap with
    sshTunnel := jdbc.sshTunnel.map (replaceTunnelParams (o.at 11) · paramMap) }

/-- `replaceRedisParams`. -/
def replaceRedis (o : RangeOrder) (paramMap : StrMap) (redis : RedisProtocol Option) :
    RedisProtocol Option :=
  { replaceRedisParams o redis paramMap with
    sshTunnel := redis.sshTunnel.map (replaceTunnelParams (o.at 6) · paramMap) }

/-- `replaceHTTPParams`. -/
def replaceHTTP (o : RangeOrder) (paramMap : StrMap) (http : HTTPProtocol Option) :
    HTTPProtocol Option :=
  { replaceHTTPParams o http paramMap with
    headers := http.headers.map (replaceHTTPMap (o.at 8) · paramMap)
    params := http.params.map (replaceHTTPMap (o.at 9) · paramMap)
    authorization := http.authorization.map (replaceAuthorizationParams (o.at 10) · paramMap) }

/-- The part of `ReplaceMetricsParams` that comes before the configuration map. -/
def replaceProtocols (o : RangeOrder) (paramMap : StrMap) (metrics : Metrics Option) :
    Metrics Option :=
  { replaceBasicMetricsParams (o.at 4) metrics paramMap with
    jdbc := metrics.jdbc.map (replaceJDBC (o.at 0) paramMap)
    ssh := metrics.ssh.map (replaceSSHParams (o.at 1) · paramMap)
    http := metrics.http.map (replaceHTTP (o.at 2) paramMap)
    redis := metrics.redis.map (replaceRedis (o.at 3) paramMap) }

/-- `ReplaceMetricsParams`. -/
def replaceMetricsParams (o : RangeOrder) (paramMap : StrMap) (metrics : Metrics Option) :
    Metrics Option :=
  { replaceProtocols o paramMap metrics with
    configMap := metrics.configMap.map (replaceConfigMap ((o.at 4).at 4) · paramMap) }

/-- The loop of `replaceBasicMetricsParams` over the configuration map, where that is the
parameter map too: every turn sees what the ones before it have written. -/
def replaceOwnConfigMap (o : RangeOrder) (configMap : StrMap) : StrMap :=
  (((o.at 0).visit configMap).zipIdx).foldl (fun m e =>
    m.insert e.1.1 (replaceParamPlaceholders ((o.at 1).at e.2) e.1.2 m)) configMap

/-- `ReplaceMetricsParams` with the metric's own configuration map for the parameters. -/
def replaceOwnParams (o : RangeOrder) (metrics : Metrics Option) : Metrics Option :=
  let configMap := metrics.configMap.getD ∅
  { replaceProtocols o configMap metrics with
    configMap := metrics.configMap.map (replaceOwnConfigMap ((o.at 4).at 4)) }

end Replacer

/-! ### Jobs -/

/-- `Clone`, of a job that shares nothing. The fields that it does not mention are left at their
zero value. -/
def Job.clone (job : Job) : Job :=
  { id := job.id
    tenantId := job.tenantId
    monitorId := job.monitorId
    hide := job.hide
    category := job.category
    app := job.app
    name := job.name
    help := job.help
    helpLink := job.helpLink
    timestamp := job.timestamp
    defaultInterval := job.defaultInterval
    isCyclic := job.isCyclic
    metadata := job.metadata
    labels := job.labels
    annotations := job.annotations
    intervals := job.intervals
    params := job.params
    configmap := job.configmap
    priorMetrics := job.priorMetrics
    metrics := job.metrics
    envConfigmaps := none
    responseDataTemp := none }

/-- `ReplaceJobParams`, of a job that shares nothing. -/
def Replacer.replaceJobParams (o : RangeOrder) (job : Job) : Job :=
  { job.clone with
    metrics := job.clone.metrics.map fun metrics => metrics.zipIdx.map fun m =>
      replaceMetricsParams (o.at m.2) (createParamMapSimple (job.configmap.getD [])) m.1 }

end HertzBeat
