import HertzBeat.Param.Frame
import HertzBeat.Param.MetricsParams

/-!
# The tree of a job in a store

Most of the code never writes through a reference of a job, and takes a job for a tree.
`ReplaceJobParams` does write through references, and its model works on a store. This module
reads the tree of a job off a store, `HertzBeat.Store.readJob`, and shows that the tree of a clone
is the clone of the tree: `HertzBeat.Store.clonesJob_clone`.

A clone is made by a run of copies, and a copy leads to what was copied. That stays so, because
the store only grows (`HertzBeat.Store.Grows`) and what a record leads to does not change then, if
none of its references dangles (`HertzBeat.Store.ClosedMetrics.agrees`). What is copied is also
new, so no two clones have a copy in common (`HertzBeat.Store.ClonesAll`): that is for the
replacement, in `HertzBeat.Param.ReplacedTree`.
-/

namespace HertzBeat

open Go (Str StrMap RangeOrder)

/-- The memories of the records that a job leads to and that no modelled code writes to. -/
structure Unwritten where
  visibles : Mem Bool := .empty
  snmps : Mem SNMPProtocol := .empty
  jmxs : Mem JMXProtocol := .empty
  mongodbs : Mem MongoDBProtocol := .empty
  milvuses : Mem MilvusProtocol := .empty
  envConfigmaps : Mem (Go.Map Str Configmap) := .empty
  responseData : Mem (List MetricsData) := .empty

namespace Store

/-! ### Reading -/

/-- An HTTP configuration with what it leads to. -/
def readHTTP (s : Store) (http : HTTPProtocol Ref) : HTTPProtocol Option :=
  { http with
    headers := http.headers.bind s.strMaps.read
    params := http.params.bind s.strMaps.read
    authorization := http.authorization.bind s.authorizations.read }

/-- A JDBC configuration with its tunnel. -/
def readJDBC (s : Store) (jdbc : JDBCProtocol Ref) : JDBCProtocol Option :=
  { jdbc with sshTunnel := jdbc.sshTunnel.bind s.tunnels.read }

/-- A Redis configuration with its tunnel. -/
def readRedis (s : Store) (redis : RedisProtocol Ref) : RedisProtocol Option :=
  { redis with sshTunnel := redis.sshTunnel.bind s.tunnels.read }

variable (u : Unwritten)

/-- A metric with what it leads to. -/
def readMetrics (s : Store) (metric : Metrics Ref) : Metrics Option :=
  { metric with
    visible := metric.visible.bind u.visibles.read
    fields := metric.fields.bind s.fields.read
    aliasFields := metric.aliasFields.bind s.aliasFields.read
    configMap := metric.configMap.bind s.strMaps.read
    http := (metric.http.bind s.https.read).map s.readHTTP
    ssh := metric.ssh.bind s.sshs.read
    jdbc := (metric.jdbc.bind s.jdbcs.read).map s.readJDBC
    snmp := metric.snmp.bind u.snmps.read
    jmx := metric.jmx.bind u.jmxs.read
    redis := (metric.redis.bind s.redises.read).map s.readRedis
    mongodb := metric.mongodb.bind u.mongodbs.read
    milvus := metric.milvus.bind u.milvuses.read }

/-- The rows of a job's prior metrics. -/
def readPriorMetrics (s : Store) (priorMetrics : Ref (List (Ref (List MetricsPtr)))) :
    Option (List (Option (List MetricsPtr))) :=
  (priorMetrics.bind s.priorMetrics.read).map (·.map (·.bind s.metricsPtrs.read))

/-- **The tree of a job.** -/
def readJob (s : Store) (job : JobOf Ref) : Job :=
  { job with
    metadata := job.metadata.bind s.strMaps.read
    labels := job.labels.bind s.strMaps.read
    annotations := job.annotations.bind s.strMaps.read
    intervals := job.intervals.bind s.intervals.read
    params := job.params.bind s.params.read
    metrics := (job.metrics.bind s.metrics.read).map (·.map (s.readMetrics u))
    configmap := job.configmap.bind s.configmaps.read
    envConfigmaps := job.envConfigmaps.bind u.envConfigmaps.read
    priorMetrics := s.readPriorMetrics job.priorMetrics
    responseDataTemp := job.responseDataTemp.bind u.responseData.read }

/-! ### What a metric leads to -/

/-- The HTTP configuration of a metric. -/
def httpOf (s : Store) (metric : Metrics Ref) : Option (HTTPProtocol Ref) :=
  metric.http.bind s.https.read

/-- The maps of a metric. -/
def mapsOf (s : Store) (metric : Metrics Ref) : List (Ref StrMap) :=
  [metric.configMap, (s.httpOf metric).bind (·.headers), (s.httpOf metric).bind (·.params)]

/-- The HTTP authorization of a metric. -/
def authorizationOf (s : Store) (metric : Metrics Ref) : Ref Authorization :=
  (s.httpOf metric).bind (·.authorization)

/-- The SSH tunnels of a metric. -/
def tunnelsOf (s : Store) (metric : Metrics Ref) : List (Ref SSHTunnel) :=
  [s.jdbcTunnel metric.conns, s.redisTunnel metric.conns]

/-- No reference of a metric dangles, among those into memories that grow. -/
structure ClosedMetrics (s : Store) (metric : Metrics Ref) : Prop where
  maps : ∀ r ∈ s.mapsOf metric, s.strMaps.Leads r
  http : s.https.Leads metric.http
  authorization : s.authorizations.Leads (s.authorizationOf metric)
  fields : s.fields.Leads metric.fields
  aliasFields : s.aliasFields.Leads metric.aliasFields

/-- Two stores agree on all that a metric leads to. -/
structure Agrees (s s' : Store) (metric : Metrics Ref) : Prop where
  maps : ∀ r ∈ s.mapsOf metric, s.strMaps.SameAt s'.strMaps r
  http : s.https.SameAt s'.https metric.http
  authorization : s.authorizations.SameAt s'.authorizations (s.authorizationOf metric)
  fields : s.fields.SameAt s'.fields metric.fields
  aliasFields : s.aliasFields.SameAt s'.aliasFields metric.aliasFields
  jdbc : s.jdbcs.SameAt s'.jdbcs metric.jdbc
  ssh : s.sshs.SameAt s'.sshs metric.ssh
  redis : s.redises.SameAt s'.redises metric.redis
  tunnels : ∀ r ∈ s.tunnelsOf metric, s.tunnels.SameAt s'.tunnels r

namespace Agrees

variable {s s' : Store} {metric : Metrics Ref}

theorem refl (s : Store) (metric : Metrics Ref) : s.Agrees s metric :=
  ⟨fun _ _ => .refl _ _, .refl _ _, .refl _ _, .refl _ _, .refl _ _, .refl _ _, .refl _ _,
    .refl _ _, fun _ _ => .refl _ _⟩

theorem httpOf_eq (h : s.Agrees s' metric) : s'.httpOf metric = s.httpOf metric := h.http

theorem mapsOf_eq (h : s.Agrees s' metric) : s'.mapsOf metric = s.mapsOf metric := by
  simp only [mapsOf, h.httpOf_eq]

theorem authorizationOf_eq (h : s.Agrees s' metric) :
    s'.authorizationOf metric = s.authorizationOf metric := by
  simp only [authorizationOf, h.httpOf_eq]

theorem jdbcTunnel_eq (h : s.Agrees s' metric) :
    s'.jdbcTunnel metric.conns = s.jdbcTunnel metric.conns :=
  congrArg (Option.bind · _) h.jdbc

theorem redisTunnel_eq (h : s.Agrees s' metric) :
    s'.redisTunnel metric.conns = s.redisTunnel metric.conns :=
  congrArg (Option.bind · _) h.redis

theorem tunnelsOf_eq (h : s.Agrees s' metric) : s'.tunnelsOf metric = s.tunnelsOf metric := by
  simp only [tunnelsOf, h.jdbcTunnel_eq, h.redisTunnel_eq]

theorem trans {s'' : Store} (h : s.Agrees s' metric) (h' : s'.Agrees s'' metric) :
    s.Agrees s'' metric where
  maps r hr := (h.maps r hr).trans (h'.maps r (h.mapsOf_eq ▸ hr))
  http := h.http.trans h'.http
  authorization := h.authorization.trans (h.authorizationOf_eq ▸ h'.authorization)
  fields := h.fields.trans h'.fields
  aliasFields := h.aliasFields.trans h'.aliasFields
  jdbc := h.jdbc.trans h'.jdbc
  ssh := h.ssh.trans h'.ssh
  redis := h.redis.trans h'.redis
  tunnels r hr := (h.tunnels r hr).trans (h'.tunnels r (h.tunnelsOf_eq ▸ hr))

/-- **A metric is read alike in stores that agree on it.** -/
theorem readMetrics_eq (h : s.Agrees s' metric) :
    s'.readMetrics u metric = s.readMetrics u metric := by
  have hmaps := h.maps
  have hauthorization := h.authorization
  have htunnels := h.tunnels
  simp only [mapsOf, List.forall_mem_cons] at hmaps
  simp only [tunnelsOf, List.forall_mem_cons] at htunnels
  have hhttp : (metric.http.bind s'.https.read).map s'.readHTTP =
      (metric.http.bind s.https.read).map s.readHTTP := by
    rw [h.http.bind_read_eq]
    rcases hread : metric.http.bind s.https.read with _ | http
    · rfl
    · simp only [authorizationOf, httpOf, hread, Option.bind_some] at hmaps hauthorization
      simp only [Option.map_some, readHTTP, hmaps.2.1.bind_read_eq,
        hmaps.2.2.1.bind_read_eq, hauthorization.bind_read_eq]
  have hjdbc : (metric.jdbc.bind s'.jdbcs.read).map s'.readJDBC =
      (metric.jdbc.bind s.jdbcs.read).map s.readJDBC := by
    rw [h.jdbc.bind_read_eq]
    rcases hread : metric.jdbc.bind s.jdbcs.read with _ | jdbc
    · rfl
    · have htunnel := htunnels.1
      simp only [jdbcTunnel, Metrics.conns, hread, Option.bind_some] at htunnel
      simp only [Option.map_some, readJDBC, htunnel.bind_read_eq]
  have hredis : (metric.redis.bind s'.redises.read).map s'.readRedis =
      (metric.redis.bind s.redises.read).map s.readRedis := by
    rw [h.redis.bind_read_eq]
    rcases hread : metric.redis.bind s.redises.read with _ | redis
    · rfl
    · have htunnel := htunnels.2.1
      simp only [redisTunnel, Metrics.conns, hread, Option.bind_some] at htunnel
      simp only [Option.map_some, readRedis, htunnel.bind_read_eq]
  simp only [readMetrics, hhttp, hjdbc, hredis,
    h.fields.bind_read_eq, h.aliasFields.bind_read_eq, hmaps.1.bind_read_eq, h.ssh.bind_read_eq]

end Agrees

/-! ### The clone of a metric -/

/-- The store has grown, and nothing that was there has changed. -/
structure Grows (s s' : Store) : Prop extends KeepsCopied s s', SameShared s s'

theorem Grows.refl (s : Store) : s.Grows s := ⟨.refl s, .refl s⟩

theorem Grows.trans {s₁ s₂ s₃ : Store} (h₁ : s₁.Grows s₂) (h₂ : s₂.Grows s₃) : s₁.Grows s₃ where
  jobs := h₁.jobs.trans h₂.jobs
  metrics := h₁.metrics.trans h₂.metrics
  configmaps := h₁.configmaps.trans h₂.configmaps
  https := h₁.https.trans h₂.https
  authorizations := h₁.authorizations.trans h₂.authorizations
  strMaps := h₁.strMaps.trans h₂.strMaps
  fields := h₁.fields.trans h₂.fields
  aliasFields := h₁.aliasFields.trans h₂.aliasFields
  intervals := h₁.intervals.trans h₂.intervals
  params := h₁.params.trans h₂.params
  priorMetrics := h₁.priorMetrics.trans h₂.priorMetrics
  metricsPtrs := h₁.metricsPtrs.trans h₂.metricsPtrs
  toSameShared := h₁.toSameShared.trans h₂.toSameShared

theorem grows_cloneMetrics (s : Store) (metric : Metrics Ref) : s.Grows (s.cloneMetrics metric).2 :=
  ⟨((Copied.refl s).cloneMetrics metric).1.toKeepsCopied, sameShared_cloneMetrics s metric⟩

theorem SameShared.readJDBC_eq {s s' : Store} (h : s.SameShared s') :
    s'.readJDBC = s.readJDBC := by
  funext jdbc
  rw [readJDBC, readJDBC, h.tunnels]

theorem SameShared.readRedis_eq {s s' : Store} (h : s.SameShared s') :
    s'.readRedis = s.readRedis := by
  funext redis
  rw [readRedis, readRedis, h.tunnels]

section Growing

variable {s s' : Store} {metric : Metrics Ref}

theorem ClosedMetrics.agrees (h : s.ClosedMetrics metric) (hgrows : s.Grows s') :
    s.Agrees s' metric where
  maps r hr := hgrows.strMaps.sameAt (h.maps r hr)
  http := hgrows.https.sameAt h.http
  authorization := hgrows.authorizations.sameAt h.authorization
  fields := hgrows.fields.sameAt h.fields
  aliasFields := hgrows.aliasFields.sameAt h.aliasFields
  jdbc := Mem.sameAt_of_eq hgrows.jdbcs _
  ssh := Mem.sameAt_of_eq hgrows.sshs _
  redis := Mem.sameAt_of_eq hgrows.redises _
  tunnels r _ := Mem.sameAt_of_eq hgrows.tunnels r

theorem ClosedMetrics.grows (h : s.ClosedMetrics metric) (hgrows : s.Grows s') :
    s'.ClosedMetrics metric where
  maps := by
    rw [(h.agrees hgrows).mapsOf_eq]
    exact fun r hr => (h.maps r hr).mono hgrows.strMaps.size_le
  http := h.http.mono hgrows.https.size_le
  authorization := by
    rw [(h.agrees hgrows).authorizationOf_eq]
    exact h.authorization.mono hgrows.authorizations.size_le
  fields := h.fields.mono hgrows.fields.size_le
  aliasFields := h.aliasFields.mono hgrows.aliasFields.size_le

end Growing

/-- What a clone copies is new since the store `s`. -/
structure NewSince (s s' : Store) (metric : Metrics Ref) : Prop where
  maps : ∀ r ∈ s'.mapsOf metric, ∀ a, r = some a → s.strMaps.size ≤ a
  http : ∀ a, metric.http = some a → s.https.size ≤ a
  authorization : ∀ a, s'.authorizationOf metric = some a → s.authorizations.size ≤ a

/-- **What the clone of a metric is**: it leads to what the original leads to, by references
that are new as far as they are copied. -/
structure Clones (s s' : Store) (metric clone : Metrics Ref) : Prop where
  reads : ∀ u, s'.readMetrics u clone = s.readMetrics u metric
  closed : s'.ClosedMetrics clone
  new : s.NewSince s' clone
  conns_eq : clone.conns = metric.conns

section CloneMetrics

variable (s : Store) (metric : Metrics Ref)

theorem httpOf_cloneMetrics :
    (s.cloneMetrics metric).2.httpOf (s.cloneMetrics metric).1 =
      (s.httpOf metric).map fun http =>
        let configMap := s.strMaps.copy metric.configMap
        let headers := configMap.2.copy http.headers
        { http with
          headers := headers.1
          params := (headers.2.copy http.params).1
          authorization := (s.authorizations.copy http.authorization).1 } := by
  simp only [cloneMetrics, cloneHTTP, httpOf]
  rcases metric.http.bind s.https.read with _ | http
  · rfl
  · exact Mem.read_alloc_self _ _

/-- The maps of a metric are copied one after the other. -/
theorem mapsOf_cloneMetrics :
    (s.cloneMetrics metric).2.mapsOf (s.cloneMetrics metric).1 =
        (s.strMaps.copyAll (s.mapsOf metric)).1 ∧
      (s.cloneMetrics metric).2.strMaps = (s.strMaps.copyAll (s.mapsOf metric)).2 := by
  rw [mapsOf, httpOf_cloneMetrics]
  simp only [mapsOf, cloneMetrics, cloneHTTP, httpOf]
  rcases metric.http.bind s.https.read with _ | http <;> exact ⟨rfl, rfl⟩

theorem authorizationOf_cloneMetrics :
    (s.cloneMetrics metric).2.authorizationOf (s.cloneMetrics metric).1 =
        (s.authorizations.copy (s.authorizationOf metric)).1 ∧
      (s.cloneMetrics metric).2.authorizations =
        (s.authorizations.copy (s.authorizationOf metric)).2 := by
  rw [authorizationOf, httpOf_cloneMetrics]
  simp only [authorizationOf, cloneMetrics, cloneHTTP, httpOf]
  rcases metric.http.bind s.https.read with _ | http <;> exact ⟨rfl, rfl⟩

/-- The new HTTP configuration is behind all that were there. -/
theorem http_cloneMetrics {a : ℕ} (h : (s.cloneMetrics metric).1.http = some a) :
    a = s.https.size ∧ (s.cloneMetrics metric).2.https.size = s.https.size + 1 := by
  simp only [cloneMetrics, cloneHTTP] at h ⊢
  rcases hread : metric.http.bind s.https.read with _ | http
  · simp only [hread] at h
    exact absurd h (by simp)
  · simp only [hread, Option.some.injEq] at h
    exact ⟨h.symm, Mem.size_alloc _ _⟩

theorem fields_cloneMetrics :
    (s.cloneMetrics metric).2.fields = (s.fields.copy metric.fields).2 ∧
      (s.cloneMetrics metric).2.aliasFields = (s.aliasFields.copy metric.aliasFields).2 := by
  simp only [cloneMetrics, cloneHTTP]
  rcases metric.http.bind s.https.read with _ | http <;> exact ⟨rfl, rfl⟩

variable {s metric}

theorem readHTTP_cloneMetrics (h : s.ClosedMetrics metric) :
    ((s.cloneMetrics metric).2.httpOf (s.cloneMetrics metric).1).map
        (s.cloneMetrics metric).2.readHTTP = (s.httpOf metric).map s.readHTTP ∧
      (s.cloneMetrics metric).1.configMap.bind (s.cloneMetrics metric).2.strMaps.read =
        metric.configMap.bind s.strMaps.read := by
  obtain ⟨hmaps, hstrMaps⟩ := s.mapsOf_cloneMetrics metric
  obtain ⟨hauthorization, hauthorizations⟩ := s.authorizationOf_cloneMetrics metric
  -- the copies lead to what was copied
  have hread := Mem.map_bind_read_copyAll (.refl _) h.maps
  have hread' := s.authorizations.bind_read_copy (s.authorizationOf metric)
  rw [← hmaps, ← hstrMaps] at hread
  rw [← hauthorization, ← hauthorizations] at hread'
  simp only [mapsOf, List.map_cons, List.map_nil, List.cons.injEq, and_true] at hread
  simp only [authorizationOf] at hread'
  obtain ⟨hconfigMap, hheaders, hparams⟩ := hread
  refine ⟨?_, hconfigMap⟩
  rw [httpOf_cloneMetrics] at hheaders hparams hread' ⊢
  generalize s.httpOf metric = http at hheaders hparams hread' ⊢
  cases http with
  | none => rfl
  | some http =>
    simp only [Option.map_some, Option.bind_some] at hheaders hparams hread' ⊢
    simp only [readHTTP, hheaders, hparams, hread']

theorem readMetrics_cloneMetrics (h : s.ClosedMetrics metric) :
    (s.cloneMetrics metric).2.readMetrics u (s.cloneMetrics metric).1 = s.readMetrics u metric := by
  obtain ⟨hhttp, hconfigMap⟩ := readHTTP_cloneMetrics h
  obtain ⟨hfields, haliasFields⟩ := s.fields_cloneMetrics metric
  have hshared := s.sameShared_cloneMetrics metric
  simp only [httpOf] at hhttp
  simp only [readMetrics, hhttp, hconfigMap, hfields, haliasFields, hshared.readJDBC_eq,
    hshared.readRedis_eq, hshared.sshs, hshared.jdbcs, hshared.redises]
  simp only [cloneMetrics, Mem.bind_read_copy]

theorem clones_cloneMetrics (h : s.ClosedMetrics metric) :
    s.Clones (s.cloneMetrics metric).2 metric (s.cloneMetrics metric).1 := by
  obtain ⟨hmaps, hstrMaps⟩ := s.mapsOf_cloneMetrics metric
  obtain ⟨hauthorization, hauthorizations⟩ := s.authorizationOf_cloneMetrics metric
  refine ⟨fun u => readMetrics_cloneMetrics u h, ⟨?_, ?_, ?_, ?_, ?_⟩, ⟨?_, ?_, ?_⟩, rfl⟩
  · rw [hmaps, hstrMaps]
    exact Mem.leads_copyAll _ _
  · intro a ha
    have := s.http_cloneMetrics metric ha
    omega
  · rw [hauthorization, hauthorizations]
    exact Mem.leads_copy _ _
  · rw [(s.fields_cloneMetrics metric).1]
    exact Mem.leads_copy _ _
  · rw [(s.fields_cloneMetrics metric).2]
    exact Mem.leads_copy _ _
  · rw [hmaps]
    exact Mem.size_le_of_copyAll _ _
  · intro a ha
    exact (s.http_cloneMetrics metric ha).1.ge
  · rw [hauthorization]
    exact fun a ha => Mem.size_le_of_copy ha

end CloneMetrics

/-! ### The clones of all metrics -/

/-- Two metrics lead to different records in the memories that a clone copies. -/
structure ApartCopies (s : Store) (metric metric' : Metrics Ref) : Prop where
  maps : ∀ r ∈ s.mapsOf metric, ∀ r' ∈ s.mapsOf metric', Mem.Apart r r'
  http : Mem.Apart metric.http metric'.http
  authorization : Mem.Apart (s.authorizationOf metric) (s.authorizationOf metric')

/-- What the clones of some metrics are: each leads to what its original leads to, and no two
have a copy in common. -/
structure ClonesAll (s s' : Store) (ms clones : List (Metrics Ref)) : Prop where
  grows : s.Grows s'
  reads : ∀ u, clones.map (s'.readMetrics u) = ms.map (s.readMetrics u)
  closed : ∀ clone ∈ clones, s'.ClosedMetrics clone
  new : ∀ clone ∈ clones, s.NewSince s' clone
  apart : clones.Pairwise s'.ApartCopies
  conns_eq : clones.map Metrics.conns = ms.map Metrics.conns

theorem NewSince.of_agrees {s s' s'' : Store} {metric : Metrics Ref} (h : s.NewSince s' metric)
    (hagrees : s'.Agrees s'' metric) : s.NewSince s'' metric where
  maps := hagrees.mapsOf_eq ▸ h.maps
  http := h.http
  authorization := hagrees.authorizationOf_eq ▸ h.authorization

theorem ApartCopies.of_agrees {s s' : Store} {metric metric' : Metrics Ref}
    (h : s.ApartCopies metric metric') (hagrees : s.Agrees s' metric)
    (hagrees' : s.Agrees s' metric') : s'.ApartCopies metric metric' where
  maps := by
    rw [hagrees.mapsOf_eq, hagrees'.mapsOf_eq]
    exact h.maps
  http := h.http
  authorization := by
    rw [hagrees.authorizationOf_eq, hagrees'.authorizationOf_eq]
    exact h.authorization

/-- The clones stay what they are when the store grows. -/
theorem ClonesAll.mono {s s' s'' : Store} {ms clones : List (Metrics Ref)}
    (h : s.ClonesAll s' ms clones) (hgrows : s'.Grows s'') : s.ClonesAll s'' ms clones := by
  have hagrees : ∀ clone ∈ clones, s'.Agrees s'' clone := fun clone hclone =>
    (h.closed clone hclone).agrees hgrows
  refine ⟨h.grows.trans hgrows, fun u => ?_, ?_, ?_, ?_, h.conns_eq⟩
  · rw [← h.reads u]
    exact List.map_congr_left fun clone hclone => (hagrees clone hclone).readMetrics_eq u
  · exact fun clone hclone => (h.closed clone hclone).grows hgrows
  · exact fun clone hclone => (h.new clone hclone).of_agrees (hagrees clone hclone)
  · exact h.apart.imp_of_mem fun hm hm' hapart => hapart.of_agrees (hagrees _ hm) (hagrees _ hm')

/-- What is new is apart from what was there. -/
theorem NewSince.apartCopies {s s' : Store} {metric metric' : Metrics Ref}
    (h : s.NewSince s' metric') (hgrows : s.Grows s') (hclosed : s.ClosedMetrics metric) :
    s'.ApartCopies metric metric' where
  maps := by
    rw [(hclosed.agrees hgrows).mapsOf_eq]
    exact fun r hr r' hr' => (hclosed.maps r hr).apart (h.maps r' hr')
  http := hclosed.http.apart h.http
  authorization := by
    rw [(hclosed.agrees hgrows).authorizationOf_eq]
    exact hclosed.authorization.apart h.authorization

theorem clonesAll_cloneAllMetrics {s : Store} {ms : List (Metrics Ref)}
    (h : ∀ metric ∈ ms, s.ClosedMetrics metric) :
    s.ClonesAll (s.cloneAllMetrics ms).2 ms (s.cloneAllMetrics ms).1 := by
  induction ms generalizing s with
  | nil => exact ⟨.refl s, by simp [cloneAllMetrics], by simp [cloneAllMetrics],
      by simp [cloneAllMetrics], .nil, rfl⟩
  | cons metric ms ih =>
    obtain ⟨hmetric, hms⟩ := List.forall_mem_cons.mp h
    have hfirst := clones_cloneMetrics hmetric
    have hgrows := s.grows_cloneMetrics metric
    have hrest := ih fun m hm => (hms m hm).grows hgrows
    have hagrees := hfirst.closed.agrees hrest.grows
    refine ⟨hgrows.trans hrest.grows, fun u => ?_, ?_, ?_, ?_, ?_⟩
    · rw [cloneAllMetrics, List.map_cons, List.map_cons, hagrees.readMetrics_eq, hfirst.reads,
        hrest.reads]
      refine congrArg _ (List.map_congr_left fun m hm => ?_)
      exact ((hms m hm).agrees hgrows).readMetrics_eq u
    · exact List.forall_mem_cons.mpr ⟨hfirst.closed.grows hrest.grows, hrest.closed⟩
    · refine List.forall_mem_cons.mpr ⟨hfirst.new.of_agrees hagrees, fun m hm => ⟨?_, ?_, ?_⟩⟩
      · exact fun r hr a ha => hgrows.strMaps.size_le.trans ((hrest.new m hm).maps r hr a ha)
      · exact fun a ha => hgrows.https.size_le.trans ((hrest.new m hm).http a ha)
      · exact fun a ha =>
          hgrows.authorizations.size_le.trans ((hrest.new m hm).authorization a ha)
    · refine List.pairwise_cons.mpr ⟨fun m hm => ?_, hrest.apart⟩
      exact (hrest.new m hm).apartCopies hrest.grows hfirst.closed
    · rw [cloneAllMetrics, List.map_cons, List.map_cons, hfirst.conns_eq, hrest.conns_eq]

/-! ### The clone of a job -/

/-- No reference of a job dangles, among those into memories that grow. -/
structure Closed (s : Store) (job : JobOf Ref) : Prop where
  metadata : s.strMaps.Leads job.metadata
  labels : s.strMaps.Leads job.labels
  annotations : s.strMaps.Leads job.annotations
  priorMetrics : ∀ rows, job.priorMetrics.bind s.priorMetrics.read = some rows →
    ∀ row ∈ rows, s.metricsPtrs.Leads row
  metrics : ∀ metric ∈ (job.metrics.bind s.metrics.read).getD [], s.ClosedMetrics metric

/-- What the clone of a slice of metrics is. -/
structure ClonesSlice (s s' : Store) (metrics clone : Ref (List (Metrics Ref))) : Prop where
  all : s.ClonesAll s' ((metrics.bind s.metrics.read).getD [])
    ((clone.bind s'.metrics.read).getD [])
  eq_none_iff : clone.bind s'.metrics.read = none ↔ metrics.bind s.metrics.read = none

theorem ClonesSlice.reads {s s' : Store} {metrics clone : Ref (List (Metrics Ref))}
    (h : s.ClonesSlice s' metrics clone) :
    (clone.bind s'.metrics.read).map (·.map (s'.readMetrics u)) =
      (metrics.bind s.metrics.read).map (·.map (s.readMetrics u)) := by
  have hall := h.all.reads u
  have hnone := h.eq_none_iff
  generalize clone.bind s'.metrics.read = clones at hall hnone
  generalize metrics.bind s.metrics.read = ms at hall hnone
  cases clones with
  | none => rw [hnone.mp rfl]; rfl
  | some clones =>
    cases ms with
    | none => exact absurd (hnone.mpr rfl) (by simp)
    | some ms => exact congrArg some hall

theorem clonesSlice_cloneMetricsSlice {s : Store} {metrics : Ref (List (Metrics Ref))}
    (h : ∀ metric ∈ (metrics.bind s.metrics.read).getD [], s.ClosedMetrics metric) :
    s.ClonesSlice (s.cloneMetricsSlice metrics).2 metrics (s.cloneMetricsSlice metrics).1 := by
  have hall := clonesAll_cloneAllMetrics h
  unfold cloneMetricsSlice
  rcases hread : metrics.bind s.metrics.read with _ | ms
  · rw [hread] at hall
    refine ⟨?_, by simp [hread]⟩
    rw [hread]
    exact hall
  · rw [hread, Option.getD_some] at hall
    have hgrows : (s.cloneAllMetrics ms).2.Grows { (s.cloneAllMetrics ms).2 with
        metrics := (s.cloneAllMetrics ms).2.metrics.alloc (s.cloneAllMetrics ms).1 } :=
      { Grows.refl (s.cloneAllMetrics ms).2 with metrics := Mem.keeps_alloc _ _ }
    have hnew : (some (s.cloneAllMetrics ms).2.metrics.size).bind
        ((s.cloneAllMetrics ms).2.metrics.alloc (s.cloneAllMetrics ms).1).read =
          some (s.cloneAllMetrics ms).1 := Mem.read_alloc_self _ _
    refine ⟨?_, by simp only [hread, hnew, reduceCtorEq]⟩
    simp only [hread, hnew, Option.getD_some]
    exact hall.mono hgrows

theorem readPriorMetrics_clonePriorMetrics {s : Store} {prior : Ref (List (Ref (List MetricsPtr)))}
    (h : ∀ rows, prior.bind s.priorMetrics.read = some rows →
      ∀ row ∈ rows, s.metricsPtrs.Leads row) :
    (s.clonePriorMetrics prior).2.readPriorMetrics (s.clonePriorMetrics prior).1 =
      s.readPriorMetrics prior := by
  unfold readPriorMetrics clonePriorMetrics
  rcases hread : prior.bind s.priorMetrics.read with _ | rows
  · rfl
  · rw [Option.map_some, ← Mem.map_bind_read_copyAll (.refl _) (h rows hread)]
    exact congrArg (Option.map _) (Mem.read_alloc_self _ _)

/-- The memories of the jobs and of their own slices have not changed. -/
structure SameSlices (s s' : Store) : Prop where
  jobs : s'.jobs = s.jobs
  configmaps : s'.configmaps = s.configmaps
  intervals : s'.intervals = s.intervals
  params : s'.params = s.params
  priorMetrics : s'.priorMetrics = s.priorMetrics
  metricsPtrs : s'.metricsPtrs = s.metricsPtrs

theorem SameSlices.refl (s : Store) : s.SameSlices s := ⟨rfl, rfl, rfl, rfl, rfl, rfl⟩

theorem SameSlices.trans {s₁ s₂ s₃ : Store} (h₁ : s₁.SameSlices s₂) (h₂ : s₂.SameSlices s₃) :
    s₁.SameSlices s₃ where
  jobs := h₂.jobs.trans h₁.jobs
  configmaps := h₂.configmaps.trans h₁.configmaps
  intervals := h₂.intervals.trans h₁.intervals
  params := h₂.params.trans h₁.params
  priorMetrics := h₂.priorMetrics.trans h₁.priorMetrics
  metricsPtrs := h₂.metricsPtrs.trans h₁.metricsPtrs

theorem SameSlices.readPriorMetrics_eq {s s' : Store} (h : s.SameSlices s') :
    s'.readPriorMetrics = s.readPriorMetrics := by
  funext prior
  rw [readPriorMetrics, readPriorMetrics, h.priorMetrics, h.metricsPtrs]

theorem sameSlices_cloneMetrics (s : Store) (metric : Metrics Ref) :
    s.SameSlices (s.cloneMetrics metric).2 := by
  simp only [cloneMetrics, cloneHTTP]
  split <;> exact ⟨rfl, rfl, rfl, rfl, rfl, rfl⟩

theorem sameSlices_cloneAllMetrics (s : Store) (ms : List (Metrics Ref)) :
    s.SameSlices (s.cloneAllMetrics ms).2 := by
  induction ms generalizing s with
  | nil => exact .refl s
  | cons metric ms ih => exact (s.sameSlices_cloneMetrics metric).trans (ih _)

theorem sameSlices_cloneMetricsSlice (s : Store) (metrics : Ref (List (Metrics Ref))) :
    s.SameSlices (s.cloneMetricsSlice metrics).2 := by
  unfold cloneMetricsSlice
  split
  · exact .refl s
  · exact { s.sameSlices_cloneAllMetrics _ with }

/-- The store in which the cloning of the prior metrics begins: the other slices of the job and
its maps are copied. -/
def copySlices (s : Store) (job : JobOf Ref) : Store :=
  { s with
    intervals := (s.intervals.copy job.intervals).2
    params := (s.params.copy job.params).2
    configmaps := (s.configmaps.copy job.configmap).2
    strMaps := (((s.strMaps.copy job.metadata).2.copy job.labels).2.copy job.annotations).2 }

theorem grows_copySlices (s : Store) (job : JobOf Ref) : s.Grows (s.copySlices job) :=
  { Grows.refl s with
    intervals := Mem.keeps_copy _ _
    params := Mem.keeps_copy _ _
    configmaps := Mem.keeps_copy _ _
    strMaps := (Mem.keeps_copy _ _).trans ((Mem.keeps_copy _ _).trans (Mem.keeps_copy _ _)) }

/-- **What the clone of a job is.** Its own maps are in the store `s₁` in which the cloning of
the metrics begins. -/
structure ClonesJob (s s₁ s' : Store) (job clone : JobOf Ref) : Prop where
  reads : ∀ u, s'.readJob u clone = (s.readJob u job).clone
  slice : s₁.ClonesSlice s' job.metrics clone.metrics
  maps : ∀ r ∈ [clone.metadata, clone.labels, clone.annotations], s₁.strMaps.Leads r
  shared : s.SameShared s₁
  metrics_eq : s₁.metrics = s.metrics

/-- The store in which the cloning of the metrics begins. -/
def beforeMetrics (s : Store) (job : JobOf Ref) : Store :=
  ((s.copySlices job).clonePriorMetrics job.priorMetrics).2

/-- **The tree of a clone is the clone of the tree.** -/
theorem clonesJob_clone {s : Store} {job : JobOf Ref} (h : s.Closed job) :
    ∃ clone, (s.clone job).2.jobs.read (s.clone job).1 = some clone ∧
      s.ClonesJob (s.beforeMetrics job) (s.clone job).2 job clone := by
  have hslices := s.grows_copySlices job
  obtain ⟨hcopied, hshared, hmetrics⟩ :=
    (Copied.refl (s.copySlices job)).clonePriorMetrics job.priorMetrics
  have hmetrics : (s.beforeMetrics job).metrics = s.metrics := hmetrics
  have hprior : (s.copySlices job).Grows (s.beforeMetrics job) := ⟨hcopied.toKeepsCopied, hshared⟩
  have hslice := @clonesSlice_cloneMetricsSlice (s.beforeMetrics job) job.metrics <| by
    rw [hmetrics]
    exact fun m hm => (h.metrics m hm).grows (hslices.trans hprior)
  have hsame := (s.beforeMetrics job).sameSlices_cloneMetricsSlice job.metrics
  have hlast : ((s.beforeMetrics job).cloneMetricsSlice job.metrics).2.Grows (s.clone job).2 :=
    { Grows.refl ((s.beforeMetrics job).cloneMetricsSlice job.metrics).2 with
      jobs := Mem.keeps_alloc _ _ }
  have hgrows := hprior.trans (hslice.all.grows.trans hlast)
  have hkeeps : ((s.strMaps.copy job.metadata).2.copy job.labels).2.Keeps
      (s.clone job).2.strMaps := (Mem.keeps_copy _ _).trans hgrows.strMaps
  refine ⟨_, Mem.read_alloc_self _ _, fun u => ?_, ⟨hslice.all.mono hlast, hslice.eq_none_iff⟩, ?_,
    hslices.toSameShared.trans hprior.toSameShared, hmetrics⟩
  · simp only [readJob, Job.clone]
    congr 1
    -- the maps, in the order in which they are copied
    · exact ((Mem.keeps_copy _ _).trans hkeeps).bind_read_copy
    · exact hkeeps.bind_read_copy.trans ((Mem.keeps_copy _ _).sameAt h.labels)
    · exact hgrows.strMaps.bind_read_copy.trans
        (((Mem.keeps_copy _ _).trans (Mem.keeps_copy _ _)).sameAt h.annotations)
    · exact hgrows.intervals.bind_read_copy
    · exact hgrows.params.bind_read_copy
    · refine (hslice.reads u).trans ?_
      rw [hmetrics]
      refine Option.map_congr fun ms hms => List.map_congr_left fun m hm => ?_
      have hclosed := h.metrics m (by rw [hms]; exact hm)
      exact (hclosed.agrees (hslices.trans hprior)).readMetrics_eq u
    · exact hgrows.configmaps.bind_read_copy
    · exact (congrFun hsame.readPriorMetrics_eq _).trans
        (@readPriorMetrics_clonePriorMetrics (s.copySlices job) _ h.priorMetrics)
  · have hleads := s.strMaps.leads_copyAll [job.metadata, job.labels, job.annotations]
    exact fun r hr => (hleads r hr).mono hprior.strMaps.size_le

end Store

end HertzBeat
