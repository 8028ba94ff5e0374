import HertzBeat.Param.JobStore

/-!
# What replacing the parameters of a job does to the job

The comment in `ReplaceJobParams` says that the job is cloned to avoid modifying the
original, and `Clone` says of itself that it makes a deep copy. The copy is not
deep: of the configurations a metric points to it copies only the HTTP one. The
replacement then writes through the pointers that were not copied, and the
placeholders of the original's SSH, JDBC and Redis configurations are gone for good
(`HertzBeat.Store.not_keeps_ssh_password`).

The proof keeps the two halves of the store apart. In the memories whose records
the clone copies, every write goes to a record that is new
(`HertzBeat.Store.Copied`, carried through the clone and through the loop over the
metrics). In the other four nothing is allocated, and what happens there is a list
of writes to the original's own records, made in the order of the metrics
(`HertzBeat.Store.writes_replaceAllMetrics`). So the original is
left alone when these writes change nothing, and – as long as no record is written
twice – only then: `HertzBeat.Store.replaceJobParams_keeps`.
-/

namespace HertzBeat

open Go (Str StrMap RangeOrder)

/-- The configurations of a metric that a clone shares with the original. -/
structure Conns where
  jdbc : Ref (JDBCProtocol Ref)
  ssh : Ref SSHProtocol
  redis : Ref (RedisProtocol Ref)

/-- The configurations of a metric that a clone shares with it. -/
def Metrics.conns (metric : Metrics Ref) : Conns := ⟨metric.jdbc, metric.ssh, metric.redis⟩

namespace Store

/-! ### What is to be shown, and when it holds -/

/-- The memories of the records that a clone copies are kept. -/
structure KeepsCopied (s s' : Store) : Prop where
  jobs : s.jobs.Keeps s'.jobs
  metrics : s.metrics.Keeps s'.metrics
  configmaps : s.configmaps.Keeps s'.configmaps
  https : s.https.Keeps s'.https
  authorizations : s.authorizations.Keeps s'.authorizations
  strMaps : s.strMaps.Keeps s'.strMaps
  fields : s.fields.Keeps s'.fields
  aliasFields : s.aliasFields.Keeps s'.aliasFields
  intervals : s.intervals.Keeps s'.intervals
  params : s.params.Keeps s'.params
  priorMetrics : s.priorMetrics.Keeps s'.priorMetrics
  metricsPtrs : s.metricsPtrs.Keeps s'.metricsPtrs

/-- **Everything is kept**: every job, slice, map and configuration that was in the
store is there, unaltered. -/
structure Keeps (s s' : Store) : Prop extends KeepsCopied s s' where
  sshs : s.sshs.Keeps s'.sshs
  jdbcs : s.jdbcs.Keeps s'.jdbcs
  redises : s.redises.Keeps s'.redises
  tunnels : s.tunnels.Keeps s'.tunnels

/-- The SSH tunnel of the JDBC configuration. -/
def jdbcTunnel (s : Store) (c : Conns) : Ref SSHTunnel :=
  (c.jdbc.bind s.jdbcs.read).bind (·.sshTunnel)

/-- The SSH tunnel of the Redis configuration. -/
def redisTunnel (s : Store) (c : Conns) : Ref SSHTunnel :=
  (c.redis.bind s.redises.read).bind (·.sshTunnel)

/-- **The replacement has nothing to do** on the configurations a metric shares: its
JDBC, SSH and Redis configurations and the tunnels of these come out as they go in. -/
structure Settled (o : RangeOrder) (paramMap : StrMap) (s : Store) (c : Conns) : Prop where
  jdbc : ∀ jdbc, c.jdbc.bind s.jdbcs.read = some jdbc →
    Replacer.replaceJDBCParams (o.at 0) jdbc paramMap = jdbc
  jdbcTunnel : ∀ tunnel, (s.jdbcTunnel c).bind s.tunnels.read = some tunnel →
    Replacer.replaceTunnelParams ((o.at 0).at 11) tunnel paramMap = tunnel
  ssh : ∀ ssh, c.ssh.bind s.sshs.read = some ssh →
    Replacer.replaceSSHParams (o.at 1) ssh paramMap = ssh
  redis : ∀ redis, c.redis.bind s.redises.read = some redis →
    Replacer.replaceRedisParams (o.at 3) redis paramMap = redis
  redisTunnel : ∀ tunnel, (s.redisTunnel c).bind s.tunnels.read = some tunnel →
    Replacer.replaceTunnelParams ((o.at 3).at 6) tunnel paramMap = tunnel

/-- The shared configurations of a job's metrics. -/
def conns (s : Store) (job : JobOf Ref) : List Conns :=
  ((job.metrics.bind s.metrics.read).getD []).map Metrics.conns

/-- No two metrics have one configuration, and no two configurations one tunnel; so it
is in every job that was decoded from a message. -/
structure Unshared (s : Store) (cs : List Conns) : Prop where
  jdbcs : (cs.filterMap (·.jdbc)).Nodup
  sshs : (cs.filterMap (·.ssh)).Nodup
  redises : (cs.filterMap (·.redis)).Nodup
  tunnels : ((cs.flatMap fun c => [s.jdbcTunnel c, s.redisTunnel c]).filterMap id).Nodup

theorem KeepsCopied.refl (s : Store) : s.KeepsCopied s :=
  ⟨.refl _, .refl _, .refl _, .refl _, .refl _, .refl _, .refl _, .refl _, .refl _, .refl _,
    .refl _, .refl _⟩

/-! ### The memories whose records are copied -/

/-- What holds from the moment the clone of a job of `s₀` is begun: the copied
memories are kept, and the HTTP configurations that are new have authorizations that
are new. -/
structure Copied (s₀ s : Store) : Prop extends KeepsCopied s₀ s where
  http_authorization : ∀ r h a, s₀.https.size ≤ r → s.https.read r = some h →
    h.authorization = some a → s₀.authorizations.size ≤ a

/-- The references of a metric that the replacement writes through, among those that
the clone copies, are new. -/
structure CopiedMetrics (s₀ : Store) (metric : Metrics Ref) : Prop where
  configMap : ∀ r, metric.configMap = some r → s₀.strMaps.size ≤ r
  http : ∀ r, metric.http = some r → s₀.https.size ≤ r

theorem Copied.refl (s : Store) : s.Copied s where
  toKeepsCopied := .refl s
  http_authorization := by
    intro r h a hr hread
    exact absurd (Mem.lt_size_of_read hread) (by omega)

/-- A clone allocates nothing in the memories whose records it shares. -/
structure SameShared (s s' : Store) : Prop where
  sshs : s'.sshs = s.sshs
  jdbcs : s'.jdbcs = s.jdbcs
  redises : s'.redises = s.redises
  tunnels : s'.tunnels = s.tunnels

theorem SameShared.refl (s : Store) : s.SameShared s := ⟨rfl, rfl, rfl, rfl⟩

theorem SameShared.trans {s₁ s₂ s₃ : Store} (h₁ : s₁.SameShared s₂) (h₂ : s₂.SameShared s₃) :
    s₁.SameShared s₃ where
  sshs := h₂.sshs.trans h₁.sshs
  jdbcs := h₂.jdbcs.trans h₁.jdbcs
  redises := h₂.redises.trans h₁.redises
  tunnels := h₂.tunnels.trans h₁.tunnels

theorem sameShared_cloneHTTP (s : Store) (http : Ref (HTTPProtocol Ref)) :
    s.SameShared (s.cloneHTTP http).2 := by
  unfold cloneHTTP
  split <;> exact ⟨rfl, rfl, rfl, rfl⟩

theorem Copied.cloneHTTP {s₀ s : Store} (hs : s₀.Copied s) (http : Ref (HTTPProtocol Ref)) :
    s₀.Copied (s.cloneHTTP http).2 ∧
      ∀ r, (s.cloneHTTP http).1 = some r → s₀.https.size ≤ r := by
  unfold Store.cloneHTTP
  split
  · exact ⟨hs, by simp⟩
  · rename_i h _
    refine ⟨{ hs with
      strMaps := hs.strMaps.trans ((Mem.keeps_copy _ _).trans (Mem.keeps_copy _ _))
      authorizations := hs.authorizations.trans (Mem.keeps_copy _ _)
      https := hs.https.trans (Mem.keeps_alloc _ _)
      http_authorization := ?_ }, ?_⟩
    · intro r h' a hr hread ha
      rcases Mem.read_alloc_eq_some.mp hread with hold | ⟨rfl, rfl⟩
      · exact hs.http_authorization r h' a hr hold ha
      -- the new configuration has the new copy of the authorization
      · exact hs.authorizations.size_le.trans (Mem.size_le_of_copy ha)
    · rintro r hr
      cases hr
      exact hs.https.size_le

theorem sameShared_cloneMetrics (s : Store) (metric : Metrics Ref) :
    s.SameShared (s.cloneMetrics metric).2 := by
  have h := sameShared_cloneHTTP { s with
    strMaps := (s.strMaps.copy metric.configMap).2
    fields := (s.fields.copy metric.fields).2
    aliasFields := (s.aliasFields.copy metric.aliasFields).2 } metric.http
  exact ⟨h.sshs, h.jdbcs, h.redises, h.tunnels⟩

theorem Copied.cloneMetrics {s₀ s : Store} (hs : s₀.Copied s) (metric : Metrics Ref) :
    s₀.Copied (s.cloneMetrics metric).2 ∧ s₀.CopiedMetrics (s.cloneMetrics metric).1 := by
  have hbefore : s₀.Copied { s with
      strMaps := (s.strMaps.copy metric.configMap).2
      fields := (s.fields.copy metric.fields).2
      aliasFields := (s.aliasFields.copy metric.aliasFields).2 } :=
    { hs with
      strMaps := hs.strMaps.trans (Mem.keeps_copy _ _)
      fields := hs.fields.trans (Mem.keeps_copy _ _)
      aliasFields := hs.aliasFields.trans (Mem.keeps_copy _ _) }
  obtain ⟨hstore, hhttp⟩ := hbefore.cloneHTTP metric.http
  refine ⟨hstore, ?_, hhttp⟩
  intro r hr
  exact hs.strMaps.size_le.trans (Mem.size_le_of_copy hr)

/-- **The clones of the metrics**: what the replacement will write through is new, and
what the clones share with the originals is as in the originals. -/
theorem Copied.cloneAllMetrics {s₀ s : Store} (hs : s₀.Copied s) (ms : List (Metrics Ref)) :
    s₀.Copied (s.cloneAllMetrics ms).2 ∧ s.SameShared (s.cloneAllMetrics ms).2 ∧
      (∀ metric ∈ (s.cloneAllMetrics ms).1, s₀.CopiedMetrics metric) ∧
      (s.cloneAllMetrics ms).1.map Metrics.conns = ms.map Metrics.conns := by
  induction ms generalizing s with
  | nil => exact ⟨hs, .refl s, by simp [Store.cloneAllMetrics], rfl⟩
  | cons metric ms ih =>
    obtain ⟨hstore, hmetric⟩ := hs.cloneMetrics metric
    obtain ⟨hrest, hshared, hall, hconns⟩ := ih hstore
    refine ⟨hrest, (s.sameShared_cloneMetrics metric).trans hshared, ?_, ?_⟩
    · intro m hm
      rcases List.mem_cons.mp hm with rfl | hm
      · exact hmetric
      · exact hall m hm
    · change _ :: _ = _ :: _
      rw [hconns]
      rfl

theorem Copied.clonePriorMetrics {s₀ s : Store} (hs : s₀.Copied s)
    (prior : Ref (List (Ref (List MetricsPtr)))) :
    s₀.Copied (s.clonePriorMetrics prior).2 ∧ s.SameShared (s.clonePriorMetrics prior).2 ∧
      (s.clonePriorMetrics prior).2.metrics = s.metrics := by
  unfold Store.clonePriorMetrics
  split
  · exact ⟨hs, .refl s, rfl⟩
  · refine ⟨{ hs with
      metricsPtrs := hs.metricsPtrs.trans (Mem.keeps_copyAll _ _)
      priorMetrics := hs.priorMetrics.trans (Mem.keeps_alloc _ _) }, ⟨rfl, rfl, rfl, rfl⟩, rfl⟩

/-- The slice of metrics of the clone is new – if there is one – and its metrics are
copied as far as `Clone` copies them. -/
theorem Copied.cloneMetricsSlice {s₀ s : Store} (hs : s₀.Copied s)
    (metrics : Ref (List (Metrics Ref))) :
    s₀.Copied (s.cloneMetricsSlice metrics).2 ∧ s.SameShared (s.cloneMetricsSlice metrics).2 ∧
      ∃ ms, ((s.cloneMetricsSlice metrics).1.bind
          (s.cloneMetricsSlice metrics).2.metrics.read).getD [] = ms ∧
        (∀ a, (s.cloneMetricsSlice metrics).1 = some a → s₀.metrics.size ≤ a) ∧
        (∀ metric ∈ ms, s₀.CopiedMetrics metric) ∧
        ms.map Metrics.conns = ((metrics.bind s.metrics.read).getD []).map Metrics.conns := by
  unfold Store.cloneMetricsSlice
  rcases metrics.bind s.metrics.read with _ | ms
  · exact ⟨hs, .refl s, [], rfl, by simp, by simp, rfl⟩
  · obtain ⟨hstore, hshared, hall, hconns⟩ := hs.cloneAllMetrics ms
    refine ⟨{ hstore with metrics := hstore.metrics.trans (Mem.keeps_alloc _ _) },
      ⟨hshared.sshs, hshared.jdbcs, hshared.redises, hshared.tunnels⟩, _, rfl, ?_, ?_, ?_⟩
    · rintro a ha
      cases ha
      exact hstore.metrics.size_le
    · simpa using hall
    · simpa using hconns

/-- **What a clone is**: a store in which the original is kept, and a job whose slice of
metrics is copied. -/
theorem copied_clone (s : Store) (job : JobOf Ref) :
    s.Copied (s.clone job).2 ∧ s.SameShared (s.clone job).2 ∧
      ∃ metrics ms, ((s.clone job).2.jobs.read (s.clone job).1).bind (·.metrics) = metrics ∧
        (metrics.bind (s.clone job).2.metrics.read).getD [] = ms ∧
        (∀ a, metrics = some a → s.metrics.size ≤ a) ∧
        (∀ metric ∈ ms, s.CopiedMetrics metric) ∧ ms.map Metrics.conns = s.conns job := by
  have hslices : s.Copied { s with
      intervals := (s.intervals.copy job.intervals).2
      params := (s.params.copy job.params).2
      configmaps := (s.configmaps.copy job.configmap).2
      strMaps := (((s.strMaps.copy job.metadata).2.copy job.labels).2.copy job.annotations).2 } :=
    { Copied.refl s with
      intervals := Mem.keeps_copy _ _
      params := Mem.keeps_copy _ _
      configmaps := Mem.keeps_copy _ _
      strMaps := (Mem.keeps_copy _ _).trans ((Mem.keeps_copy _ _).trans (Mem.keeps_copy _ _)) }
  obtain ⟨hprior, hsame, hmetrics⟩ := hslices.clonePriorMetrics job.priorMetrics
  obtain ⟨hstore, hsame', ms, hms, hnew, hall, hconns⟩ := hprior.cloneMetricsSlice job.metrics
  have hshared := hsame.trans hsame'
  refine ⟨{ hstore with jobs := hstore.jobs.trans (Mem.keeps_alloc _ _) },
    ⟨hshared.sshs, hshared.jdbcs, hshared.redises, hshared.tunnels⟩, _, ms, rfl, ?_, ?_, hall, ?_⟩
  · rw [Store.clone, Mem.read_alloc_self]
    exact hms
  · rw [Store.clone, Mem.read_alloc_self]
    exact hnew
  · rw [hconns, hmetrics]
    rfl

/-! ### The loop over the metrics -/

variable (o : RangeOrder) (paramMap : StrMap)

theorem keeps_replaceHTTPMap (strMaps : Mem StrMap) (entries : Ref StrMap) :
    strMaps.Keeps (replaceHTTPMap o paramMap strMaps entries).2 := by
  unfold replaceHTTPMap
  split
  · exact .refl _
  · exact Mem.keeps_alloc _ _

/-- Replacing in an HTTP configuration that is new writes to new records only. -/
theorem Copied.replaceHTTP {s₀ s : Store} (hs : s₀.Copied s) {http : Ref (HTTPProtocol Ref)}
    (hhttp : ∀ r, http = some r → s₀.https.size ≤ r) :
    s₀.Copied (s.replaceHTTP o paramMap http) := by
  unfold Store.replaceHTTP
  split
  · exact hs
  · rename_i h hread
    obtain ⟨r, rfl, hr⟩ := Option.bind_eq_some_iff.mp hread
    have hnew := hhttp r rfl
    exact { hs with
      strMaps := hs.strMaps.trans
        ((keeps_replaceHTTPMap _ _ _ _).trans (keeps_replaceHTTPMap _ _ _ _))
      https := hs.https.modifyAt hhttp _
      authorizations := hs.authorizations.modifyAt
        (fun a ha => hs.http_authorization r h a hnew hr ha) _
      http_authorization := by
        intro r' h' a hr' hread' ha
        -- the replacement leaves the pointer to the authorization as it is
        have hauth : ((some r').bind (Mem.read _)).bind
            (fun h : HTTPProtocol Ref => h.authorization) = some a :=
          Option.bind_eq_some_iff.mpr ⟨h', hread', ha⟩
        rw [Mem.bind_read_modifyAt _ _ (by intro _; rfl)] at hauth
        obtain ⟨h'', hread'', ha''⟩ := Option.bind_eq_some_iff.mp hauth
        exact hs.http_authorization r' h'' a hr' hread'' ha'' }

theorem Copied.replaceMetricsParams {s₀ s : Store} (hs : s₀.Copied s) {metric : Metrics Ref}
    (hmetric : s₀.CopiedMetrics metric) :
    s₀.Copied (s.replaceMetricsParams o paramMap metric).2 := by
  -- JDBC, SSH and Redis configurations are none of the copied memories
  have hjdbc : s₀.Copied (s.replaceJDBC (o.at 0) paramMap metric.jdbc) := { hs with }
  have hssh : s₀.Copied ((s.replaceJDBC (o.at 0) paramMap metric.jdbc).replaceSSH (o.at 1)
      paramMap metric.ssh) := { hjdbc with }
  have hhttp := hssh.replaceHTTP (o.at 2) paramMap hmetric.http
  exact { hhttp with strMaps := hhttp.strMaps.modifyAt hmetric.configMap _ }

theorem Copied.replaceAllMetrics {s₀ s : Store} (hs : s₀.Copied s) {ms : List (Metrics Ref)}
    (hms : ∀ metric ∈ ms, s₀.CopiedMetrics metric) (i : ℕ) :
    s₀.Copied (s.replaceAllMetrics o paramMap i ms).2 := by
  induction ms generalizing s i with
  | nil => exact hs
  | cons metric ms ih =>
    have hfirst := hs.replaceMetricsParams (o.at i) paramMap (hms metric (by simp))
    exact ih hfirst (fun m hm => hms m (by simp [hm])) (i + 1)

/-! ### The memories whose records are shared -/

/-- The write to the JDBC configuration of the `i`-th metric. -/
def jdbcWrite (p : Conns × ℕ) : Ref (JDBCProtocol Ref) × (JDBCProtocol Ref → JDBCProtocol Ref) :=
  (p.1.jdbc, (Replacer.replaceJDBCParams ((o.at p.2).at 0) · paramMap))

/-- The write to the SSH configuration of the `i`-th metric. -/
def sshWrite (p : Conns × ℕ) : Ref SSHProtocol × (SSHProtocol → SSHProtocol) :=
  (p.1.ssh, (Replacer.replaceSSHParams ((o.at p.2).at 1) · paramMap))

/-- The write to the Redis configuration of the `i`-th metric. -/
def redisWrite (p : Conns × ℕ) :
    Ref (RedisProtocol Ref) × (RedisProtocol Ref → RedisProtocol Ref) :=
  (p.1.redis, (Replacer.replaceRedisParams ((o.at p.2).at 3) · paramMap))

/-- The writes to the SSH tunnels of the `i`-th metric. -/
def tunnelWrites (s : Store) (p : Conns × ℕ) : List (Ref SSHTunnel × (SSHTunnel → SSHTunnel)) :=
  [(s.jdbcTunnel p.1, (Replacer.replaceTunnelParams (((o.at p.2).at 0).at 11) · paramMap)),
    (s.redisTunnel p.1, (Replacer.replaceTunnelParams (((o.at p.2).at 3).at 6) · paramMap))]

/-- **What the loop does to the shared records**: the writes for the metrics, one after
the other. -/
structure Writes (cs : List (Conns × ℕ)) (s s' : Store) : Prop where
  jdbcs : s'.jdbcs = s.jdbcs.writes (cs.map (jdbcWrite o paramMap))
  sshs : s'.sshs = s.sshs.writes (cs.map (sshWrite o paramMap))
  redises : s'.redises = s.redises.writes (cs.map (redisWrite o paramMap))
  tunnels : s'.tunnels = s.tunnels.writes (cs.flatMap (tunnelWrites o paramMap s))

theorem sameShared_replaceHTTP (s : Store) (http : Ref (HTTPProtocol Ref)) :
    s.SameShared (s.replaceHTTP o paramMap http) := by
  unfold replaceHTTP
  split <;> exact ⟨rfl, rfl, rfl, rfl⟩

/-- The writes for one metric. -/
theorem writes_replaceMetricsParams (s : Store) (metric : Metrics Ref) (i : ℕ) :
    Writes o paramMap [(metric.conns, i)] s
      (s.replaceMetricsParams (o.at i) paramMap metric).2 := by
  have hhttp := sameShared_replaceHTTP ((o.at i).at 2) paramMap
    ((s.replaceJDBC ((o.at i).at 0) paramMap metric.jdbc).replaceSSH ((o.at i).at 1) paramMap
      metric.ssh) metric.http
  refine ⟨hhttp.jdbcs, hhttp.sshs, ?_, ?_⟩
  · exact congrArg (Mem.modifyAt · metric.redis _) hhttp.redises
  · change Mem.modifyAt _ _ _ = _
    rw [hhttp.redises, hhttp.tunnels]
    rfl

/-- The writes for some metrics leave the tunnels of the others in place: a pointer to a
tunnel is never written. -/
theorem Writes.tunnelWrites_eq {i : ℕ} {c : Conns} {s s' : Store}
    (h : Writes o paramMap [(c, i)] s s') (p : Conns × ℕ) :
    tunnelWrites o paramMap s' p = tunnelWrites o paramMap s p := by
  have hjdbc : s'.jdbcTunnel p.1 = s.jdbcTunnel p.1 := by
    unfold jdbcTunnel
    rw [h.jdbcs, List.map_singleton, Mem.writes_cons, Mem.writes_nil]
    exact Mem.bind_read_modifyAt _ _ (by intro _; rfl) _
  have hredis : s'.redisTunnel p.1 = s.redisTunnel p.1 := by
    unfold redisTunnel
    rw [h.redises, List.map_singleton, Mem.writes_cons, Mem.writes_nil]
    exact Mem.bind_read_modifyAt _ _ (by intro _; rfl) _
  rw [tunnelWrites, tunnelWrites, hjdbc, hredis]

theorem writes_replaceAllMetrics (s : Store) (ms : List (Metrics Ref)) (i : ℕ) :
    Writes o paramMap ((ms.map Metrics.conns).zipIdx i) s
      (s.replaceAllMetrics o paramMap i ms).2 := by
  induction ms generalizing s i with
  | nil => exact ⟨rfl, rfl, rfl, rfl⟩
  | cons metric ms ih =>
    have hfirst := writes_replaceMetricsParams o paramMap s metric i
    have hrest := ih (s.replaceMetricsParams (o.at i) paramMap metric).2 (i + 1)
    -- the tunnels of the later metrics are found through records the first may have written
    have htunnels := funext (hfirst.tunnelWrites_eq o paramMap)
    refine ⟨?_, ?_, ?_, ?_⟩
    · exact hrest.jdbcs.trans (congrArg (Mem.writes · _) hfirst.jdbcs)
    · exact hrest.sshs.trans (congrArg (Mem.writes · _) hfirst.sshs)
    · exact hrest.redises.trans (congrArg (Mem.writes · _) hfirst.redises)
    · have hlater := hrest.tunnels
      rw [htunnels] at hlater
      exact hlater.trans (congrArg (Mem.writes · _) hfirst.tunnels)

/-! ### The whole call -/

theorem Keeps.refl (s : Store) : s.Keeps s :=
  { KeepsCopied.refl s with
    sshs := .refl _
    jdbcs := .refl _
    redises := .refl _
    tunnels := .refl _ }

/-- **The call**: the copied memories are kept, and the shared ones have been written to
for the metrics of the original. -/
theorem writes_replaceJobParams {s : Store} {job : Ref (JobOf Ref)} {j : JobOf Ref}
    (hj : job.bind s.jobs.read = some j) :
    s.KeepsCopied (s.replaceJobParams o job).2 ∧
      Writes o (s.paramMap j) (s.conns j).zipIdx s (s.replaceJobParams o job).2 := by
  obtain ⟨hcopied, hshared, metrics, ms, hmetrics, hms, hnew, hall, hconns⟩ := s.copied_clone j
  have hloop := hcopied.replaceAllMetrics o (s.paramMap j) hall 0
  have hwrites := writes_replaceAllMetrics o (s.paramMap j) (s.clone j).2 ms 0
  have htunnels :
      tunnelWrites o (s.paramMap j) (s.clone j).2 = tunnelWrites o (s.paramMap j) s := by
    funext p
    simp only [tunnelWrites, jdbcTunnel, redisTunnel, hshared.jdbcs, hshared.redises]
  rw [hconns] at hwrites
  unfold replaceJobParams
  rw [hj]
  simp only [hmetrics, hms]
  refine ⟨{ hloop.toKeepsCopied with metrics := hloop.metrics.modifyAt hnew _ }, ?_⟩
  have hwritten := hwrites.tunnels
  rw [htunnels, hshared.tunnels] at hwritten
  exact ⟨hshared.jdbcs ▸ hwrites.jdbcs, hshared.sshs ▸ hwrites.sshs,
    hshared.redises ▸ hwrites.redises, hwritten⟩

/-- The job at an address is settled: the replacement has nothing to do on what its
metrics share with their clones. -/
def SettledJob (s : Store) (job : Ref (JobOf Ref)) : Prop :=
  ∀ j, job.bind s.jobs.read = some j →
    ∀ p ∈ (s.conns j).zipIdx, Settled (o.at p.2) (s.paramMap j) s p.1

/-- The metrics of the job at an address share no configurations. -/
def UnsharedJob (s : Store) (job : Ref (JobOf Ref)) : Prop :=
  ∀ j, job.bind s.jobs.read = some j → s.Unshared (s.conns j)

/-- Settled configurations, said of the writes. -/
theorem forall_settled_iff (s : Store) (cs : List (Conns × ℕ)) :
    (∀ p ∈ cs, Settled (o.at p.2) paramMap s p.1) ↔
      (∀ w ∈ cs.map (jdbcWrite o paramMap), ∀ a, w.1.bind s.jdbcs.read = some a → w.2 a = a) ∧
      (∀ w ∈ cs.map (sshWrite o paramMap), ∀ a, w.1.bind s.sshs.read = some a → w.2 a = a) ∧
      (∀ w ∈ cs.map (redisWrite o paramMap), ∀ a, w.1.bind s.redises.read = some a → w.2 a = a) ∧
      ∀ w ∈ cs.flatMap (tunnelWrites o paramMap s), ∀ a,
        w.1.bind s.tunnels.read = some a → w.2 a = a := by
  constructor
  · intro h
    refine ⟨?_, ?_, ?_, ?_⟩
    · rintro w hw
      obtain ⟨p, hp, rfl⟩ := List.mem_map.mp hw
      exact (h p hp).jdbc
    · rintro w hw
      obtain ⟨p, hp, rfl⟩ := List.mem_map.mp hw
      exact (h p hp).ssh
    · rintro w hw
      obtain ⟨p, hp, rfl⟩ := List.mem_map.mp hw
      exact (h p hp).redis
    · rintro w hw
      obtain ⟨p, hp, hw⟩ := List.mem_flatMap.mp hw
      rcases List.mem_pair.mp hw with rfl | rfl
      · exact (h p hp).jdbcTunnel
      · exact (h p hp).redisTunnel
  · rintro ⟨hjdbc, hssh, hredis, htunnel⟩ p hp
    have hmem : ∀ w ∈ tunnelWrites o paramMap s p, w ∈ cs.flatMap (tunnelWrites o paramMap s) :=
      fun w hw => List.mem_flatMap.mpr ⟨p, hp, hw⟩
    exact
      { jdbc := hjdbc _ (List.mem_map_of_mem hp)
        jdbcTunnel := htunnel _ (hmem _ (List.mem_pair.mpr (.inl rfl)))
        ssh := hssh _ (List.mem_map_of_mem hp)
        redis := hredis _ (List.mem_map_of_mem hp)
        redisTunnel := htunnel _ (hmem _ (List.mem_pair.mpr (.inr rfl))) }

/-- The addresses written to, where the order of the visits does not matter. -/
theorem filterMap_map_zipIdx {α β : Type} (cs : List Conns) (f : Conns × ℕ → Option α × β)
    (g : Conns → Option α) (hfg : ∀ p, (f p).1 = g p.1) :
    (cs.zipIdx.map f).filterMap Prod.fst = cs.filterMap g := by
  rw [List.filterMap_map]
  conv_rhs => rw [← List.zipIdx_map_fst 0 cs, List.filterMap_map]
  exact List.filterMap_congr fun p _ => hfg p

theorem filterMap_tunnelWrites (s : Store) (cs : List Conns) :
    (cs.zipIdx.flatMap (tunnelWrites o paramMap s)).filterMap Prod.fst =
      (cs.flatMap fun c => [s.jdbcTunnel c, s.redisTunnel c]).filterMap id := by
  conv_rhs => rw [← List.zipIdx_map_fst 0 cs, List.flatMap_map]
  rw [List.filterMap_flatMap, List.filterMap_flatMap]
  rfl

/-- **When the original job is left alone.** It is, whenever the replacement has nothing
to do on the JDBC, SSH and Redis configurations of its metrics; and if these are not
shared among the metrics themselves, only then. -/
theorem replaceJobParams_keeps (s : Store) (job : Ref (JobOf Ref)) :
    (SettledJob o s job → s.Keeps (s.replaceJobParams o job).2) ∧
      (UnsharedJob s job → s.Keeps (s.replaceJobParams o job).2 → SettledJob o s job) := by
  rcases hj : job.bind s.jobs.read with _ | j
  · have hstore : (s.replaceJobParams o job).2 = s := by rw [replaceJobParams, hj]
    refine ⟨fun _ => ?_, fun _ _ j hj' => absurd (hj.symm.trans hj') (by simp)⟩
    rw [hstore]
    exact .refl s
  obtain ⟨hcopied, hwrites⟩ := writes_replaceJobParams o hj
  constructor
  · intro hsettled
    obtain ⟨hjdbc, hssh, hredis, htunnel⟩ := (forall_settled_iff o _ s _).mp (hsettled j hj)
    exact
      { hcopied with
        jdbcs := by rw [hwrites.jdbcs, Mem.writes_of_fixed hjdbc]; exact .refl _
        sshs := by rw [hwrites.sshs, Mem.writes_of_fixed hssh]; exact .refl _
        redises := by rw [hwrites.redises, Mem.writes_of_fixed hredis]; exact .refl _
        tunnels := by rw [hwrites.tunnels, Mem.writes_of_fixed htunnel]; exact .refl _ }
  · intro hunshared hkeeps j' hj'
    obtain rfl : j = j' := Option.some.inj (hj.symm.trans hj')
    have hsep := hunshared j hj
    -- a record that is written once and comes out as it was is settled
    refine (forall_settled_iff o _ s _).mpr ⟨?_, ?_, ?_, ?_⟩
    · refine Mem.fixed_of_keeps_writes ?_ (hwrites.jdbcs ▸ hkeeps.jdbcs)
      rw [filterMap_map_zipIdx _ _ Conns.jdbc fun _ => rfl]
      exact hsep.jdbcs
    · refine Mem.fixed_of_keeps_writes ?_ (hwrites.sshs ▸ hkeeps.sshs)
      rw [filterMap_map_zipIdx _ _ Conns.ssh fun _ => rfl]
      exact hsep.sshs
    · refine Mem.fixed_of_keeps_writes ?_ (hwrites.redises ▸ hkeeps.redises)
      rw [filterMap_map_zipIdx _ _ Conns.redis fun _ => rfl]
      exact hsep.redises
    · refine Mem.fixed_of_keeps_writes ?_ (hwrites.tunnels ▸ hkeeps.tunnels)
      rw [filterMap_tunnelWrites]
      exact hsep.tunnels

/-- A store with one job, whose one metric has an SSH configuration with the given
password and an HTTP configuration with a placeholder; the job's own configuration has
a value for it. -/
def oneJob (password : String) : Store where
  jobs := ⟨[{ id := 1, metadata := none, labels := none, annotations := none, intervals := none,
              params := none, metrics := some 0, configmap := some 0, envConfigmaps := none,
              priorMetrics := none, responseDataTemp := none }]⟩
  metrics := ⟨[[{ visible := none, fields := none, aliasFields := none, configMap := none,
                  http := some 0, ssh := some 0, jdbc := none, snmp := none, jmx := none,
                  redis := none, mongodb := none, milvus := none }]]⟩
  configmaps := ⟨[[{ key := Go.str "password", value := .str (Go.str "secret"), type := 1 }]]⟩
  https := ⟨[{ body := Go.str "^_^password^_^", headers := none, params := none,
               authorization := none }]⟩
  sshs := ⟨[{ host := Go.str "localhost", password := Go.str password }]⟩

/-- With no placeholder in the SSH configuration the original is left alone, and with
it the placeholder in its HTTP configuration. -/
theorem keeps_ssh_plain :
    (oneJob "plain").Keeps ((oneJob "plain").replaceJobParams .listed (some 0)).2 ∧
      SettledJob .listed (oneJob "plain") (some 0) := by
  have hsettled : SettledJob .listed (oneJob "plain") (some 0) := by
    intro j hj p hp
    cases hj
    obtain rfl := List.mem_singleton.mp hp
    refine ⟨?_, ?_, ?_, ?_, ?_⟩ <;> intro a ha <;> cases ha
    rfl
  have hunshared : UnsharedJob (oneJob "plain") (some 0) := by
    intro j hj
    cases hj
    refine ⟨?_, ?_, ?_, ?_⟩ <;> decide
  have hkeeps := (replaceJobParams_keeps .listed (oneJob "plain") (some 0)).1 hsettled
  exact ⟨hkeeps, (replaceJobParams_keeps .listed _ _).2 hunshared hkeeps⟩

/-- **The clone shares the SSH configuration.** Replacing the parameters of the clone
writes the password into the original. -/
theorem not_keeps_ssh_password :
    ¬(oneJob "^_^password^_^").Keeps
      ((oneJob "^_^password^_^").replaceJobParams .listed (some 0)).2 := by
  intro h
  exact absurd (h.sshs 0 _ rfl) (by decide)

end Store

end HertzBeat
