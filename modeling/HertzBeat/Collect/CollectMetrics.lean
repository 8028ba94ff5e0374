import HertzBeat.Collect.HTTPCollector
import HertzBeat.Collect.SSHCollector
import HertzBeat.Collect.RedisCollector
import HertzBeat.Collect.MilvusCollector
import HertzBeat.Collect.JDBCCollector
import HertzBeat.Collect.CalculateFields
import HertzBeat.Param.MetricsParams

/-!
# The collection of one metric

`CollectMetrics` of `internal/job/collect/dispatch/metrics_collector.go`: the goroutine that
fills in the parameters of a metric, has the collector of its protocol collect it, and puts
the result into a channel. Nothing recovers a panic of it.

It does not look whether the metric has a configuration for its protocol, and of the collectors
only that of SSH does. So the goroutine puts its one result exactly when there is one where it
is needed, `HertzBeat.MetricsCollector.putsOne_iff`.
-/

namespace HertzBeat

open Go (Str StrMap RangeOrder)

namespace MetricsCollector

/-! ### The collectors -/

/-- The collectors that are registered. -/
inductive Collector where
  | http
  | ssh
  | jdbc
  | redis
  | milvus
  deriving DecidableEq, Repr

/-- The protocol of a collector. -/
def Collector.protocol : Collector → Str
  | .http => Go.str "http"
  | .ssh => Go.str "ssh"
  | .jdbc => Go.str "jdbc"
  | .redis => Go.str "redis"
  | .milvus => Go.str "milvus"

/-- `CollectorFor`. -/
def collectorFor (protocol : Str) : Except Str Collector :=
  match [Collector.http, .ssh, .jdbc, .redis, .milvus].find? (·.protocol = protocol) with
  | some collector => .ok collector
  | none => .error (Go.str "no collector found for protocol: " ++ protocol)

/-- What a collection meets: the targets and the libraries of the collectors. -/
structure Env (URL F Program : Type) where
  http : HTTPCollector.Env URL
  ssh : SSHCollector.Env
  jdbc : JDBCCollector.Env
  redis : RedisCollector.Env
  milvus : MilvusCollector.Env
  calculator : Calculator F Program
  order : RangeOrder
  now : ℤ

variable {URL F Program : Type} (env : Env URL F Program)

/-- `Collect` of a collector. No one returns nil. -/
def Collector.collect (metrics : Metrics Option) :
    Collector → Except Go.Panic (Option CollectRepMetricsData)
  | .http => some <$> HTTPCollector.collect env.http metrics
  | .ssh => some <$> SSHCollector.collect env.ssh metrics
  | .jdbc => some <$> JDBCCollector.collect env.jdbc metrics
  | .redis => some <$> RedisCollector.collect env.redis metrics
  | .milvus => some <$> MilvusCollector.collect env.milvus metrics

/-- A metric has what a collector needs: its configuration, which SSH can do without. -/
def Collector.configured (metrics : Metrics Option) : Collector → Bool
  | .http => metrics.http.isSome
  | .ssh => true
  | .jdbc => metrics.jdbc.isSome
  | .redis => metrics.redis.isSome
  | .milvus => metrics.milvus.isSome

/-- What a collector that panics without a configuration and otherwise returns does. -/
theorem map_some_of_config {α β : Type} {config : Option α} {collected : Except Go.Panic β}
    (hok : ∀ {c}, config = some c → ∃ result, collected = .ok result)
    (herror : config = none → collected = .error .nilDereference) :
    if config.isSome then ∃ result, some <$> collected = .ok (some result)
    else some <$> collected = .error .nilDereference := by
  cases config with
  | none =>
    rw [herror rfl]
    rfl
  | some c =>
    obtain ⟨result, rfl⟩ := hok rfl
    exact ⟨result, rfl⟩

/-- **A collector returns a result where the metric has what it needs**, and otherwise
panics. -/
theorem Collector.collect_eq (metrics : Metrics Option) (collector : Collector) :
    if collector.configured metrics then
      ∃ result, collector.collect env metrics = .ok (some result)
    else collector.collect env metrics = .error .nilDereference := by
  cases collector with
  | http => exact map_some_of_config HTTPCollector.collect_eq_ok HTTPCollector.collect_eq_error
  | ssh =>
    obtain ⟨result, hok⟩ := SSHCollector.collect_eq_ok env.ssh metrics
    refine ⟨result, ?_⟩
    simp only [collect, hok]
    rfl
  | jdbc => exact map_some_of_config JDBCCollector.collect_eq_ok JDBCCollector.collect_eq_error
  | redis => exact map_some_of_config RedisCollector.collect_eq_ok RedisCollector.collect_eq_error
  | milvus =>
    exact map_some_of_config MilvusCollector.collect_eq_ok MilvusCollector.collect_eq_error

/-! ### The goroutine -/

/-- The configuration of a job is merged into that of the metric. -/
def mergeConfigmap (metrics : Metrics Option) (job : Job) : Metrics Option :=
  { metrics with
    configMap := some ((job.configmap.getD []).foldl (fun m param =>
      m.insert param.key (match param.value with
        | .null => []
        | v => v.sprint)) (metrics.configMap.getD ∅)) }

/-- `createErrorResponse`. -/
def createErrorResponse (metrics : Metrics Option) (job : Job) (code : CollectCode)
    (message : Str) : CollectRepMetricsData where
  id := job.monitorId
  monitorId := job.monitorId
  tenantId := job.tenantId
  app := job.app
  metrics := metrics.name
  priority := metrics.priority
  time := env.now
  code := code
  msg := message

/-- One map is written over another. -/
def overlay (m m' : StrMap) : StrMap :=
  m'.entries.foldl (fun m (e : Σ _ : Str, Str) => m.insert e.1 e.2) m

/-- The result gets what the job knows. -/
def enrich (job : Job) (result : CollectRepMetricsData) : CollectRepMetricsData :=
  { result with
    id := job.monitorId
    monitorId := job.monitorId
    app := job.app
    tenantId := job.tenantId
    labels := overlay result.labels (job.labels.getD ∅)
    metadata := overlay result.metadata (job.metadata.getD ∅) }

variable [NatCast F] [Mul F] [Div F]

/-- The end of the goroutine: the results that it puts into the channel. -/
def finish (metrics : Metrics Option) (job : Job) :
    Option CollectRepMetricsData → Except Go.Panic (List (Option CollectRepMetricsData))
  -- the failure that is logged is read from the result
  | none => .error .nilDereference
  | some result =>
    let result := if result.code = .success then env.calculator.calculateFields metrics result
      else result
    .ok [some (enrich job result)]

/-- The goroutine of `CollectMetrics`: the results that it puts into the channel. -/
def collectMetrics (metrics : Metrics Option) (job : Job) :
    Except Go.Panic (List (Option CollectRepMetricsData)) := do
  -- `ReplaceMetricsParams` returns no error
  let metrics := Replacer.replaceOwnParams env.order (mergeConfigmap metrics job)
  match collectorFor metrics.protocol with
  | .error err => return [some (createErrorResponse env metrics job .unavailable
      (Go.str "Collector not found: " ++ err))]
  | .ok collector => finish env metrics job (← collector.collect env metrics)

/-! ### Exactly one result -/

/-- The goroutine puts exactly one result into the channel, and it is not nil. -/
def PutsOne (metrics : Metrics Option) (job : Job) : Prop :=
  ∃ result, collectMetrics env metrics job = .ok [some result]

/-- A metric has the configuration that its protocol needs. -/
def Configured (metrics : Metrics Option) : Prop :=
  ∀ collector : Collector, collector.protocol = metrics.protocol → collector.configured metrics

theorem collectorFor_protocol (collector : Collector) :
    collectorFor collector.protocol = .ok collector := by
  cases collector <;> rfl

/-- A protocol without a collector is that of none. -/
theorem protocol_ne_of_collectorFor {protocol err : Str} (h : collectorFor protocol = .error err)
    (collector : Collector) : collector.protocol ≠ protocol := by
  rintro rfl
  rw [collectorFor_protocol] at h
  exact absurd h (by simp)

theorem protocol_of_collectorFor {protocol : Str} {collector : Collector}
    (h : collectorFor protocol = .ok collector) : collector.protocol = protocol := by
  unfold collectorFor at h
  split at h
  · next c hfind =>
    obtain rfl := Except.ok.inj h
    simpa using List.find?_some hfind
  · exact absurd h (by simp)

/-- The metric that the collector is given: with the parameters of the job filled in. -/
theorem configured_replaceOwnParams (o : RangeOrder) (metrics : Metrics Option) (job : Job)
    (collector : Collector) :
    collector.configured (Replacer.replaceOwnParams o (mergeConfigmap metrics job)) =
      collector.configured metrics := by
  cases collector with
  | http => exact Option.isSome_map
  | ssh => rfl
  | jdbc => exact Option.isSome_map
  | redis => exact Option.isSome_map
  | milvus => rfl

/-- What the goroutine of a metric with a collector does: with what that needs it puts one
result, and otherwise it panics. -/
theorem collectMetrics_of_collectorFor {metrics : Metrics Option} {collector : Collector}
    (h : collectorFor metrics.protocol = .ok collector) (job : Job) :
    if collector.configured metrics then
      ∃ result, collectMetrics env metrics job = .ok [some result]
    else collectMetrics env metrics job = .error .nilDereference := by
  have hcollect := collector.collect_eq env
    (Replacer.replaceOwnParams env.order (mergeConfigmap metrics job))
  rw [configured_replaceOwnParams] at hcollect
  have hprotocol : collectorFor
      (Replacer.replaceOwnParams env.order (mergeConfigmap metrics job)).protocol =
        .ok collector := h
  simp only [collectMetrics, hprotocol]
  split_ifs at hcollect ⊢ with hconf
  · obtain ⟨result, hresult⟩ := hcollect
    rw [hresult]
    exact ⟨_, rfl⟩
  · rw [hcollect]
    rfl

/-- **Exactly one result is put where the metric has what the collector of its protocol
needs**, whatever the rest of it, the job and the target are. -/
theorem putsOne_iff (metrics : Metrics Option) (job : Job) :
    PutsOne env metrics job ↔ Configured metrics := by
  cases h : collectorFor metrics.protocol with
  | error err =>
    have hprotocol : collectorFor
        (Replacer.replaceOwnParams env.order (mergeConfigmap metrics job)).protocol =
          .error err := h
    refine iff_of_true ?_ fun collector heq => absurd heq (protocol_ne_of_collectorFor h collector)
    simp only [PutsOne, collectMetrics, hprotocol]
    exact ⟨_, rfl⟩
  | ok collector =>
    have hputs := collectMetrics_of_collectorFor env h job
    -- the collector is the only one of the protocol
    have hconf : Configured metrics ↔ collector.configured metrics := by
      refine ⟨fun hall => hall collector (protocol_of_collectorFor h), fun hc other heq => ?_⟩
      rw [← heq, collectorFor_protocol] at h
      obtain rfl := Except.ok.inj h
      exact hc
    rw [hconf, PutsOne]
    split_ifs at hputs with hc
    · exact iff_of_true hputs hc
    · refine iff_of_false ?_ hc
      rintro ⟨result, hok⟩
      rw [hputs] at hok
      exact absurd hok (by simp)

/-! ### A metric without a configuration -/

/-- An environment in which nothing can be reached. -/
def Env.unreachable : Env Unit ℕ Unit where
  http :=
    { text := .ascii, newRequest := fun _ _ _ => .error [], string := fun _ => []
      requestURI := fun _ => [], addQuery := fun u _ => u, canonicalKey := id
      basicAuth := fun _ _ => [], md5Hex := id, cnonce := []
      exchange := fun _ _ _ => .error [], decodeJSON := fun _ => none
      textToMetricFamilies := fun _ => .error [], order := .listed, now := 0, responseTime := 0
      newRequest_string := fun h => absurd h (by simp) }
  ssh :=
    { helper := helper, parseDuration := fun _ => none, newSession := .error []
      run := fun _ => .error ([], []), now := 0, responseTime := 0 }
  jdbc :=
    { text := .ascii, parseDuration := fun _ => none, atoiError := id
      matchString := fun _ _ => false, sshDial := fun _ _ _ _ => .error []
      listen := .error [], sqlOpen := fun _ _ => .ok (), ping := fun _ _ _ => .error []
      query := fun _ _ => .error { msg := [] }, exec := fun _ _ => .error { msg := [] }
      now := 0, duration := 0 }
  redis :=
    { helper := helper, parseDuration := fun _ => none, info := fun _ _ => .error []
      clusterInfo := fun _ => .error [], nodes := fun _ => [], now := 0
      responseTime := fun _ => 0 }
  milvus :=
    { text := .ascii, connect := fun _ _ _ => .error [], getVersion := .error [], now := 0
      responseTime := 0 }
  calculator :=
    { text := .ascii, compile := fun _ => none, run := fun _ _ => .failed
      parseFloat := fun _ => none, formatFixed := fun _ => [], formatShortest := fun _ => [] }
  order := .listed
  now := 0
where
  helper : SSHHelper.Env :=
    { text := .ascii, parsePrivateKey := fun _ => .error [], dialTCP := fun _ => .error []
      handshake := fun _ _ => .error [], dialThrough := fun _ _ => .error [] }

/-- A metric of the protocol HTTP that comes without a configuration of it ends the
collector. -/
theorem not_putsOne_http : ¬ PutsOne Env.unreachable (.bare (Go.str "summary") (Go.str "http"))
    (.bare 1 true 60) := by
  rintro ⟨result, hok⟩
  have hfor : collectorFor (Metrics.bare (Go.str "summary") (Go.str "http")).protocol =
    .ok .http := collectorFor_protocol .http
  have hpanic := collectMetrics_of_collectorFor Env.unreachable hfor (.bare 1 true 60)
  rw [if_neg (by decide)] at hpanic
  rw [hpanic] at hok
  exact absurd hok (by simp)

end MetricsCollector

end HertzBeat
