import HertzBeat.Collect.CollectMetrics

/-!
# Whose result it is

A result carries the name of its metric, which the collector of the protocol writes, and the ids
and the application of its job, which `CollectMetrics` writes over whatever the collector left
there. The manager files a result under these, and under nothing else.

`HertzBeat.MetricsCollector.about_of_collectMetrics` says that they are the right ones, for every
protocol, every answer of a target and every way in which a collection can fail.
-/

namespace HertzBeat

open Go (Str)

/-- **A result is about a metric of a job.** -/
structure CollectRepMetricsData.About (data : CollectRepMetricsData) (job : Job) (name : Str) :
    Prop where
  id : data.id = job.monitorId
  monitorId : data.monitorId = job.monitorId
  tenantId : data.tenantId = job.tenantId
  app : data.app = job.app
  metrics : data.metrics = name

/-! ### The name that a collector writes -/

namespace HTTPCollector

variable {URL : Type} {env : Env URL} {metrics : Metrics Option} {config : HTTPProtocol Option}
  {response response' : CollectRepMetricsData}

theorem metrics_fillCommonFields {fields : List Str} {statusCode : ℤ}
    (h : fillCommonFields env response fields statusCode = .ok response') :
    response'.metrics = response.metrics := by
  rw [fillCommonFields] at h
  obtain ⟨values, -, hok⟩ := Go.bind_eq_ok.mp h
  rw [← Except.ok.inj hok]

theorem metrics_parseJsonPath (body : Str) (parseScript : Str) :
    (parseJsonPath env body metrics parseScript).metrics = metrics.name := by
  unfold parseJsonPath
  split <;> rfl

theorem metrics_parseResponse {resp : Response} {body : Str}
    (h : parseResponse env resp body metrics config = .ok response) :
    response.metrics = metrics.name := by
  unfold parseResponse at h
  split_ifs at h
  · unfold parsePrometheus at h
    cases hfamilies : env.textToMetricFamilies body with
    | error err => simp [hfamilies, Except.map] at h
    | ok families =>
      rw [hfamilies] at h
      rw [← Except.ok.inj h]
      rfl
  · rw [← Except.ok.inj h]
    rfl
  · rw [← Except.ok.inj h]
    rfl
  · rw [← Except.ok.inj h]
    exact metrics_parseJsonPath body config.parseScript

theorem metrics_collect (h : collect env metrics = .ok response) :
    response.metrics = metrics.name := by
  unfold collect at h
  split at h
  · cases h
  -- every way to fail is a response with the name, and so is every response that is parsed
  · simp only at h
    split_ifs at h
    · rw [← Except.ok.inj h]
      rfl
    · split at h
      · rw [← Except.ok.inj h]
        rfl
      · split at h
        · cases h
        · rw [← Except.ok.inj h]
          rfl
        · split at h
          · rw [← Except.ok.inj h]
            rfl
          · split at h
            · rw [← Except.ok.inj h]
              rfl
            · next hparsed =>
              exact (metrics_fillCommonFields h).trans (metrics_parseResponse hparsed)

end HTTPCollector

namespace SSHCollector

variable {env : Env} {metrics : Metrics Option} {response : CollectRepMetricsData}

theorem metrics_parseResponseDataByOne (result : Str) (aliasFields : List Str) :
    (parseResponseDataByOne env result aliasFields response).metrics = response.metrics := by
  simp only [parseResponseDataByOne]
  split_ifs <;> rfl

theorem metrics_parseResponseDataByMulti (result : Str) (aliasFields : List Str) :
    (parseResponseDataByMulti env result aliasFields response).metrics = response.metrics := by
  unfold parseResponseDataByMulti
  split <;> rfl

theorem metrics_collect (h : collect env metrics = .ok response) :
    response.metrics = metrics.name := by
  unfold collect at h
  split at h
  · rw [← Except.ok.inj h]
    rfl
  · split at h
    · rw [← Except.ok.inj h]
      rfl
    · simp only [createSuccessResponseWithResult] at h
      split at h
      · cases h
      · split_ifs at h
        · rw [← Except.ok.inj h]
          exact metrics_parseResponseDataByOne _ _
        · rw [← Except.ok.inj h]
          exact metrics_parseResponseDataByMulti _ _
        · rw [← Except.ok.inj h]
          rfl

end SSHCollector

namespace RedisCollector

variable {env : Env} {metrics : Metrics Option} {response : CollectRepMetricsData}

theorem metrics_collectSingle (config : RedisProtocol Option) (dialer : Option Dialer) :
    (collectSingle env metrics config dialer response).metrics = response.metrics := by
  simp only [collectSingle]
  split <;> rfl

theorem metrics_collectCluster (config : RedisProtocol Option) (dialer : Option Dialer) :
    (collectCluster env metrics config dialer response).metrics = response.metrics := by
  simp only [collectCluster]
  split_ifs <;> rfl

theorem metrics_collect (h : collect env metrics = .ok response) :
    response.metrics = metrics.name := by
  simp only [collect] at h
  split at h
  · cases h
  · split at h
    · rw [← Except.ok.inj h]
      rfl
    · split_ifs at h
      · rw [← Except.ok.inj h]
        exact metrics_collectCluster _ _
      · rw [← Except.ok.inj h]
        exact metrics_collectSingle _ _

end RedisCollector

namespace MilvusCollector

variable {env : Env} {metrics : Metrics Option} {response : CollectRepMetricsData}

theorem metrics_collect (h : collect env metrics = .ok response) :
    response.metrics = metrics.name := by
  simp only [collect] at h
  split at h
  · cases h
  · split at h
    · rw [← Except.ok.inj h]
      rfl
    · split at h <;>
      · rw [← Except.ok.inj h]
        rfl

end MilvusCollector

namespace JDBCCollector

variable {env : Env} {metrics : Metrics Option} {response response' : CollectRepMetricsData}

theorem metrics_result {rows : Rows} {calls : ℕ} (h : rows.result calls response = .ok response') :
    response'.metrics = response.metrics := by
  unfold Rows.result at h
  split at h
  · rw [← Except.ok.inj h]
  · cases h

theorem metrics_queryRows {limit : Option ℕ} {url sql : Str} {aliasFields : List Str}
    (h : queryRows env limit url sql aliasFields response = .ok response') :
    response'.metrics = response.metrics := by
  rw [queryRows] at h
  obtain ⟨rows, -, h⟩ := Go.bind_eq_ok.mp h
  obtain ⟨columns, -, h⟩ := Go.bind_eq_ok.mp h
  obtain ⟨values, -, h⟩ := Go.bind_eq_ok.mp h
  exact (metrics_result h).trans rfl

theorem metrics_queryColumns {url sql : Str} {aliasFields : List Str}
    (h : queryColumns env url sql aliasFields response = .ok response') :
    response'.metrics = response.metrics := by
  rw [queryColumns] at h
  obtain ⟨rows, -, h⟩ := Go.bind_eq_ok.mp h
  obtain ⟨columns, -, h⟩ := Go.bind_eq_ok.mp h
  split_ifs at h
  · cases h
  · cases h
  · cases h
  · dsimp only at h
    exact (metrics_result h).trans rfl

theorem metrics_runScript {url sql : Str} (h : runScript env url sql response = .ok response') :
    response'.metrics = response.metrics := by
  rw [runScript] at h
  obtain ⟨result, -, h⟩ := Go.bind_eq_ok.mp h
  rw [← Except.ok.inj h]

theorem metrics_runQuery {jdbc : JDBCProtocol Option} {url : Str} {aliasFields : List Str}
    (h : runQuery env jdbc url aliasFields response = .ok response') :
    response'.metrics = response.metrics := by
  unfold runQuery at h
  split_ifs at h
  · exact metrics_queryRows h
  · exact metrics_queryRows h
  · exact metrics_queryColumns h
  · exact metrics_runScript h

theorem metrics_queryFailed (err : DBError) :
    (queryFailed env metrics err).metrics = metrics.name := by
  unfold queryFailed
  split_ifs <;> rfl

theorem metrics_addResponseTime (aliasFields : List Str) :
    (addResponseTime env response aliasFields).metrics = response.metrics := by
  unfold addResponseTime
  split <;> rfl

theorem metrics_collect (h : collect env metrics = .ok response) :
    response.metrics = metrics.name := by
  simp only [collect] at h
  split at h
  · cases h
  -- the tunnel, the URL and the connection each fail or go on
  · split at h
    · rw [← Except.ok.inj h]
      rfl
    · split at h
      · rw [← Except.ok.inj h]
        rfl
      · split at h
        · rw [← Except.ok.inj h]
          rfl
        · split at h
          · rw [← Except.ok.inj h]
            exact metrics_queryFailed _
          · next hquery =>
            rw [← Except.ok.inj h]
            exact (metrics_addResponseTime _).trans (metrics_runQuery hquery)

end JDBCCollector

/-! ### What `CollectMetrics` puts -/

namespace MetricsCollector

variable {URL F Program : Type} {env : Env URL F Program} {metrics : Metrics Option}

/-- **Every collector writes the name of the metric.** -/
theorem Collector.metrics_collect {collector : Collector} {result : Option CollectRepMetricsData}
    (h : collector.collect env metrics = .ok result) :
    ∃ data, result = some data ∧ data.metrics = metrics.name := by
  cases collector with
  | http =>
    obtain ⟨data, hdata, hsome⟩ := Go.map_eq_ok.mp h
    exact ⟨data, hsome.symm, HTTPCollector.metrics_collect hdata⟩
  | ssh =>
    obtain ⟨data, hdata, hsome⟩ := Go.map_eq_ok.mp h
    exact ⟨data, hsome.symm, SSHCollector.metrics_collect hdata⟩
  | jdbc =>
    obtain ⟨data, hdata, hsome⟩ := Go.map_eq_ok.mp h
    exact ⟨data, hsome.symm, JDBCCollector.metrics_collect hdata⟩
  | redis =>
    obtain ⟨data, hdata, hsome⟩ := Go.map_eq_ok.mp h
    exact ⟨data, hsome.symm, RedisCollector.metrics_collect hdata⟩
  | milvus =>
    obtain ⟨data, hdata, hsome⟩ := Go.map_eq_ok.mp h
    exact ⟨data, hsome.symm, MilvusCollector.metrics_collect hdata⟩

variable [NatCast F] [Mul F] [Div F]

/-- **A collection that ends puts one result, about its metric and its job.** -/
theorem about_of_collectMetrics {job : Job} {results : List (Option CollectRepMetricsData)}
    (h : collectMetrics env metrics job = .ok results) :
    ∃ data, results = [some data] ∧ data.About job metrics.name := by
  simp only [collectMetrics] at h
  split at h
  · rw [← Except.ok.inj h]
    exact ⟨_, rfl, rfl, rfl, rfl, rfl, rfl⟩
  · obtain ⟨result, hcollect, hfinish⟩ := Go.bind_eq_ok.mp h
    obtain ⟨data, rfl, hname⟩ := Collector.metrics_collect hcollect
    rw [← Except.ok.inj hfinish]
    refine ⟨_, rfl, rfl, rfl, rfl, rfl, ?_⟩
    -- neither the calculation nor the ids of the job touch the name
    rw [enrich]
    dsimp only
    split_ifs <;> exact hname

end MetricsCollector

end HertzBeat
