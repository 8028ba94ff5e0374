import HertzBeat.Param.JobTree

/-!
# Replacing in a store, and in a tree

`ReplaceJobParams` has two models. `HertzBeat.Store.replaceJobParams` writes to what the clone of a
job leads to, and `HertzBeat.Replacer.replaceJobParams` makes a new tree. They agree on every job no
two metrics of which share a configuration, as there are none in a job that was decoded from a
message: `HertzBeat.Store.readJob_replaceJobParams`.

The loop over the metrics writes through references, so it needs the metrics to be separate
(`HertzBeat.Store.Separate`). A turn of the loop touches only what its metric leads to
(`HertzBeat.Store.Touches`). It replaces in the tree of that metric
(`HertzBeat.Store.readMetrics_replaceMetricsParams`) and leaves the trees of the others alone, and
the metrics stay separate (`HertzBeat.Store.Separate.step`). The clones of metrics are separate:
what was copied is new, and what was not is separate in the original
(`HertzBeat.Store.ClonesAll.separate`).
-/

namespace HertzBeat

open Go (Str StrMap RangeOrder)

namespace Store

variable (u : Unwritten)

/-! ### The turn of one metric -/

section Turn

variable (o : RangeOrder) (paramMap : StrMap) (s : Store) (metric : Metrics Ref)

theorem bind_read_replaceHTTPMap (strMaps : Mem StrMap) (entries : Ref StrMap) :
    (replaceHTTPMap o paramMap strMaps entries).1.bind
        (replaceHTTPMap o paramMap strMaps entries).2.read =
      (entries.bind strMaps.read).map (Replacer.replaceHTTPMap o · paramMap) := by
  unfold replaceHTTPMap
  split
  · next h => rw [h]; rfl
  · next es h => rw [h]; exact Mem.read_alloc_self _ _

theorem leads_replaceHTTPMap (strMaps : Mem StrMap) (entries : Ref StrMap) :
    (replaceHTTPMap o paramMap strMaps entries).2.Leads
      (replaceHTTPMap o paramMap strMaps entries).1 := by
  unfold replaceHTTPMap
  split
  · exact fun a ha => absurd ha (by simp)
  · rintro a ⟨⟩
    rw [Mem.size_alloc]
    exact Nat.lt_succ_self _

theorem size_le_of_replaceHTTPMap {strMaps : Mem StrMap} {entries : Ref StrMap} {a : ℕ}
    (h : (replaceHTTPMap o paramMap strMaps entries).1 = some a) : strMaps.size ≤ a := by
  unfold replaceHTTPMap at h
  split at h
  · exact absurd h (by simp)
  · exact (Option.some.inj h).le

/-- The new headers of a metric, and the memory with them. -/
def newHeaders : Ref StrMap × Mem StrMap :=
  replaceHTTPMap ((o.at 2).at 8) paramMap s.strMaps ((s.httpOf metric).bind (·.headers))

/-- The new params of a metric, and the memory with them. -/
def newParams : Ref StrMap × Mem StrMap :=
  replaceHTTPMap ((o.at 2).at 9) paramMap (s.newHeaders o paramMap metric).2
    ((s.httpOf metric).bind (·.params))

/-- What a turn of the loop does to the memories whose records a clone copies. -/
theorem copied_replaceMetricsParams :
    (s.replaceMetricsParams o paramMap metric).2.strMaps =
        (s.newParams o paramMap metric).2.modifyAt metric.configMap
          (Replacer.replaceConfigMap ((o.at 4).at 4) · paramMap) ∧
      (s.replaceMetricsParams o paramMap metric).2.https =
        s.https.modifyAt metric.http (fun http =>
          { Replacer.replaceHTTPParams (o.at 2) http paramMap with
            headers := (s.newHeaders o paramMap metric).1
            params := (s.newParams o paramMap metric).1 }) ∧
      (s.replaceMetricsParams o paramMap metric).2.authorizations =
        s.authorizations.modifyAt (s.authorizationOf metric)
          (Replacer.replaceAuthorizationParams ((o.at 2).at 10) · paramMap) ∧
      (s.replaceMetricsParams o paramMap metric).2.fields = s.fields ∧
      (s.replaceMetricsParams o paramMap metric).2.aliasFields = s.aliasFields := by
  simp only [replaceMetricsParams, replaceRedis, replaceSSH, replaceJDBC, replaceHTTP, newParams,
    newHeaders, authorizationOf, httpOf]
  rcases hread : metric.http.bind s.https.read with _ | http
  · refine ⟨rfl, (Mem.modifyAt_of_fixed fun a ha => ?_).symm, rfl, rfl, rfl⟩
    exact absurd (hread.symm.trans ha) (by simp)
  · exact ⟨rfl, rfl, rfl, rfl, rfl⟩

/-- What a turn of the loop does to the memories whose records a clone shares. -/
theorem shared_replaceMetricsParams :
    (s.replaceMetricsParams o paramMap metric).2.jdbcs =
        s.jdbcs.modifyAt metric.jdbc (Replacer.replaceJDBCParams (o.at 0) · paramMap) ∧
      (s.replaceMetricsParams o paramMap metric).2.sshs =
        s.sshs.modifyAt metric.ssh (Replacer.replaceSSHParams (o.at 1) · paramMap) ∧
      (s.replaceMetricsParams o paramMap metric).2.redises =
        s.redises.modifyAt metric.redis (Replacer.replaceRedisParams (o.at 3) · paramMap) ∧
      (s.replaceMetricsParams o paramMap metric).2.tunnels =
        (s.tunnels.modifyAt (s.jdbcTunnel metric.conns)
            (Replacer.replaceTunnelParams ((o.at 0).at 11) · paramMap)).modifyAt
          (s.redisTunnel metric.conns)
          (Replacer.replaceTunnelParams ((o.at 3).at 6) · paramMap) := by
  simp only [replaceMetricsParams, replaceRedis, replaceSSH, replaceJDBC, replaceHTTP, jdbcTunnel,
    redisTunnel, Metrics.conns]
  rcases metric.http.bind s.https.read with _ | http <;> exact ⟨rfl, rfl, rfl, rfl⟩

/-- A turn of the loop leaves the jobs and their slices alone. -/
theorem sameSlices_replaceMetricsParams :
    s.SameSlices (s.replaceMetricsParams o paramMap metric).2 ∧
      (s.replaceMetricsParams o paramMap metric).2.metrics = s.metrics := by
  simp only [replaceMetricsParams, replaceRedis, replaceSSH, replaceJDBC, replaceHTTP]
  rcases metric.http.bind s.https.read with _ | http <;>
    exact ⟨⟨rfl, rfl, rfl, rfl, rfl, rfl⟩, rfl⟩

/-- **What a turn of the loop touches**: only what its metric leads to. -/
structure Touches (s s' : Store) (metric : Metrics Ref) : Prop where
  strMaps : ∀ r, s.strMaps.Leads r → Mem.Apart metric.configMap r → s.strMaps.SameAt s'.strMaps r
  https : ∀ r, Mem.Apart metric.http r → s.https.SameAt s'.https r
  authorizations : ∀ r, Mem.Apart (s.authorizationOf metric) r →
    s.authorizations.SameAt s'.authorizations r
  jdbcs : ∀ r, Mem.Apart metric.jdbc r → s.jdbcs.SameAt s'.jdbcs r
  sshs : ∀ r, Mem.Apart metric.ssh r → s.sshs.SameAt s'.sshs r
  redises : ∀ r, Mem.Apart metric.redis r → s.redises.SameAt s'.redises r
  tunnels : ∀ r, (∀ t ∈ s.tunnelsOf metric, Mem.Apart t r) → s.tunnels.SameAt s'.tunnels r
  fields : s'.fields = s.fields
  aliasFields : s'.aliasFields = s.aliasFields
  strMaps_size : s.strMaps.size ≤ s'.strMaps.size
  https_size : s'.https.size = s.https.size
  authorizations_size : s'.authorizations.size = s.authorizations.size

theorem keeps_newParams : s.strMaps.Keeps (s.newParams o paramMap metric).2 :=
  (keeps_replaceHTTPMap _ _ _ _).trans (keeps_replaceHTTPMap _ _ _ _)

theorem touches_replaceMetricsParams :
    s.Touches (s.replaceMetricsParams o paramMap metric).2 metric := by
  obtain ⟨hstrMaps, hhttps, hauthorizations, hfields, haliasFields⟩ :=
    s.copied_replaceMetricsParams o paramMap metric
  obtain ⟨hjdbcs, hsshs, hredises, htunnels⟩ := s.shared_replaceMetricsParams o paramMap metric
  have hkeeps := s.keeps_newParams o paramMap metric
  refine ⟨fun r hr hapart => ?_, fun r hapart => ?_, fun r hapart => ?_, fun r hapart => ?_,
    fun r hapart => ?_, fun r hapart => ?_, fun r hapart => ?_, hfields, haliasFields, ?_, ?_, ?_⟩
  · rw [hstrMaps]
    exact (hkeeps.sameAt hr).trans (Mem.sameAt_modifyAt _ hapart _)
  · rw [hhttps]
    exact Mem.sameAt_modifyAt _ hapart _
  · rw [hauthorizations]
    exact Mem.sameAt_modifyAt _ hapart _
  · rw [hjdbcs]
    exact Mem.sameAt_modifyAt _ hapart _
  · rw [hsshs]
    exact Mem.sameAt_modifyAt _ hapart _
  · rw [hredises]
    exact Mem.sameAt_modifyAt _ hapart _
  · simp only [tunnelsOf, List.forall_mem_cons] at hapart
    rw [htunnels]
    exact (Mem.sameAt_modifyAt _ hapart.1 _).trans (Mem.sameAt_modifyAt _ hapart.2.1 _)
  · rw [hstrMaps, Mem.size_modifyAt]
    exact hkeeps.size_le
  · rw [hhttps, Mem.size_modifyAt]
  · rw [hauthorizations, Mem.size_modifyAt]

end Turn

/-! ### Separate metrics -/

/-- Two metrics lead to different records. -/
structure ApartFrom (s : Store) (metric metric' : Metrics Ref) : Prop
    extends ApartCopies s metric metric' where
  jdbc : Mem.Apart metric.jdbc metric'.jdbc
  ssh : Mem.Apart metric.ssh metric'.ssh
  redis : Mem.Apart metric.redis metric'.redis
  tunnels : ∀ r ∈ s.tunnelsOf metric, ∀ r' ∈ s.tunnelsOf metric', Mem.Apart r r'

theorem ApartFrom.symm {s : Store} {metric metric' : Metrics Ref} (h : s.ApartFrom metric metric') :
    s.ApartFrom metric' metric where
  maps r hr r' hr' := (h.maps r' hr' r hr).symm
  http := h.http.symm
  authorization := h.authorization.symm
  jdbc := h.jdbc.symm
  ssh := h.ssh.symm
  redis := h.redis.symm
  tunnels r hr r' hr' := (h.tunnels r' hr' r hr).symm

theorem ApartFrom.of_agrees {s s' : Store} {metric metric' : Metrics Ref}
    (h : s.ApartFrom metric metric') (hagrees : s.Agrees s' metric)
    (hagrees' : s.Agrees s' metric') : s'.ApartFrom metric metric' :=
  { h.toApartCopies.of_agrees hagrees hagrees' with
    jdbc := h.jdbc
    ssh := h.ssh
    redis := h.redis
    tunnels := by
      rw [hagrees.tunnelsOf_eq, hagrees'.tunnelsOf_eq]
      exact h.tunnels }

/-- **The metrics are separate**: no record is led to twice, and none dangles. -/
structure Separate (s : Store) (ms : List (Metrics Ref)) : Prop where
  closed : ∀ metric ∈ ms, s.ClosedMetrics metric
  tunnels : ∀ metric ∈ ms, (s.tunnelsOf metric).Pairwise Mem.Apart
  apart : ms.Pairwise s.ApartFrom

section Separate

variable {s s' : Store} {metric metric' : Metrics Ref} {ms : List (Metrics Ref)}

theorem Separate.swap (h : s.Separate (metric :: metric' :: ms)) :
    s.Separate (metric' :: metric :: ms) := by
  have hperm := List.Perm.swap metric metric' ms
  refine ⟨fun m hm => h.closed m (hperm.mem_iff.mp hm),
    fun m hm => h.tunnels m (hperm.mem_iff.mp hm), ?_⟩
  exact (hperm.pairwise_iff ApartFrom.symm).mpr h.apart

theorem Separate.tail (h : s.Separate (metric :: ms)) : s.Separate ms where
  closed m hm := h.closed m (List.mem_cons_of_mem _ hm)
  tunnels m hm := h.tunnels m (List.mem_cons_of_mem _ hm)
  apart := (List.pairwise_cons.mp h.apart).2

/-- A turn of the loop leaves the metrics alone that are apart from its own. -/
theorem Touches.agrees (h : s.Touches s' metric) (hapart : s.ApartFrom metric metric')
    (hclosed : s.ClosedMetrics metric') : s.Agrees s' metric' where
  maps r hr := h.strMaps r (hclosed.maps r hr) (hapart.maps _ List.mem_cons_self r hr)
  http := h.https _ hapart.http
  authorization := h.authorizations _ hapart.authorization
  fields := Mem.sameAt_of_eq h.fields _
  aliasFields := Mem.sameAt_of_eq h.aliasFields _
  jdbc := h.jdbcs _ hapart.jdbc
  ssh := h.sshs _ hapart.ssh
  redis := h.redises _ hapart.redis
  tunnels r hr := h.tunnels r fun t ht => hapart.tunnels t ht r hr

theorem Touches.closedMetrics (h : s.Touches s' metric) (hagrees : s.Agrees s' metric')
    (hclosed : s.ClosedMetrics metric') : s'.ClosedMetrics metric' where
  maps := by
    rw [hagrees.mapsOf_eq]
    exact fun r hr => (hclosed.maps r hr).mono h.strMaps_size
  http := hclosed.http.mono h.https_size.ge
  authorization := by
    rw [hagrees.authorizationOf_eq]
    exact hclosed.authorization.mono h.authorizations_size.ge
  fields := h.fields ▸ hclosed.fields
  aliasFields := h.aliasFields ▸ hclosed.aliasFields

variable (o : RangeOrder) (paramMap : StrMap)

/-- The HTTP configuration of a metric after its turn. -/
theorem httpOf_replaceMetricsParams :
    (s.replaceMetricsParams o paramMap metric).2.httpOf
        (s.replaceMetricsParams o paramMap metric).1 =
      (s.httpOf metric).map fun http => { Replacer.replaceHTTPParams (o.at 2) http paramMap with
        headers := (s.newHeaders o paramMap metric).1
        params := (s.newParams o paramMap metric).1 } := by
  rw [httpOf, (s.copied_replaceMetricsParams o paramMap metric).2.1]
  exact Mem.bind_read_modifyAt_self _ _ _

theorem authorizationOf_replaceMetricsParams :
    (s.replaceMetricsParams o paramMap metric).2.authorizationOf
      (s.replaceMetricsParams o paramMap metric).1 = s.authorizationOf metric := by
  rw [authorizationOf, httpOf_replaceMetricsParams, authorizationOf]
  rcases s.httpOf metric with _ | http <;> rfl

theorem tunnelsOf_replaceMetricsParams :
    (s.replaceMetricsParams o paramMap metric).2.tunnelsOf
      (s.replaceMetricsParams o paramMap metric).1 = s.tunnelsOf metric := by
  obtain ⟨hjdbcs, -, hredises, -⟩ := s.shared_replaceMetricsParams o paramMap metric
  simp only [tunnelsOf, jdbcTunnel, redisTunnel, hjdbcs, hredises]
  congr 1
  · exact Mem.bind_read_modifyAt _ _ (by intro _; rfl) _
  · exact congrArg (· :: []) (Mem.bind_read_modifyAt _ _ (by intro _; rfl) _)

/-- The maps of a metric after its turn. -/
theorem mapsOf_replaceMetricsParams :
    (s.replaceMetricsParams o paramMap metric).2.mapsOf
        (s.replaceMetricsParams o paramMap metric).1 =
      [metric.configMap, (s.newHeaders o paramMap metric).1,
        (s.newParams o paramMap metric).1] := by
  rw [mapsOf, httpOf_replaceMetricsParams]
  rcases hread : s.httpOf metric with _ | http
  · simp only [newHeaders, newParams, hread, replaceHTTPMap]
    rfl
  · rfl

/-- The headers and the params of a metric are new after its turn. -/
theorem newMaps_replaceMetricsParams :
    ∀ r ∈ [(s.newHeaders o paramMap metric).1, (s.newParams o paramMap metric).1],
      (∀ a, r = some a → s.strMaps.size ≤ a) ∧ (s.newParams o paramMap metric).2.Leads r := by
  have hkeeps : s.strMaps.Keeps (s.newHeaders o paramMap metric).2 := keeps_replaceHTTPMap _ _ _ _
  have hkeeps' : (s.newHeaders o paramMap metric).2.Keeps (s.newParams o paramMap metric).2 :=
    keeps_replaceHTTPMap _ _ _ _
  refine List.forall_mem_cons.mpr ⟨⟨fun a ha => size_le_of_replaceHTTPMap _ _ ha, ?_⟩,
    List.forall_mem_singleton.mpr ⟨fun a ha => ?_, leads_replaceHTTPMap _ _ _ _⟩⟩
  · exact (leads_replaceHTTPMap _ _ _ _).mono hkeeps'.size_le
  · exact hkeeps.size_le.trans (size_le_of_replaceHTTPMap _ _ ha)

theorem ClosedMetrics.replaceMetricsParams (h : s.ClosedMetrics metric) :
    (s.replaceMetricsParams o paramMap metric).2.ClosedMetrics
      (s.replaceMetricsParams o paramMap metric).1 := by
  have htouches := s.touches_replaceMetricsParams o paramMap metric
  have hnew := @newMaps_replaceMetricsParams s metric o paramMap
  obtain ⟨hstrMaps, -⟩ := s.copied_replaceMetricsParams o paramMap metric
  refine ⟨?_, h.http.mono htouches.https_size.ge, ?_, htouches.fields ▸ h.fields,
    htouches.aliasFields ▸ h.aliasFields⟩
  · rw [mapsOf_replaceMetricsParams]
    refine List.forall_mem_cons.mpr
      ⟨(h.maps _ List.mem_cons_self).mono htouches.strMaps_size, fun r hr => ?_⟩
    rw [hstrMaps]
    exact (hnew r hr).2.mono (Mem.size_modifyAt _ _ _).ge
  · rw [authorizationOf_replaceMetricsParams]
    exact h.authorization.mono htouches.authorizations_size.ge

/-- A metric is apart from the others after its turn as it was before. -/
theorem ApartFrom.replaceMetricsParams (h : s.ApartFrom metric metric')
    (hclosed : s.ClosedMetrics metric') :
    (s.replaceMetricsParams o paramMap metric).2.ApartFrom
      (s.replaceMetricsParams o paramMap metric).1 metric' := by
  have hagrees := (s.touches_replaceMetricsParams o paramMap metric).agrees h hclosed
  refine ⟨⟨?_, h.http, ?_⟩, h.jdbc, h.ssh, h.redis, ?_⟩
  · rw [mapsOf_replaceMetricsParams, hagrees.mapsOf_eq]
    refine List.forall_mem_cons.mpr ⟨h.maps _ List.mem_cons_self, fun r hr r' hr' => ?_⟩
    exact ((hclosed.maps r' hr').apart (newMaps_replaceMetricsParams o paramMap r hr).1).symm
  · rw [authorizationOf_replaceMetricsParams, hagrees.authorizationOf_eq]
    exact h.authorization
  · rw [tunnelsOf_replaceMetricsParams, hagrees.tunnelsOf_eq]
    exact h.tunnels

/-- **The metrics stay separate in the turn of the first.** -/
theorem Separate.step (h : s.Separate (metric :: ms)) :
    (s.replaceMetricsParams o paramMap metric).2.Separate
      ((s.replaceMetricsParams o paramMap metric).1 :: ms) := by
  have htouches := s.touches_replaceMetricsParams o paramMap metric
  obtain ⟨hclosed, hclosed'⟩ := List.forall_mem_cons.mp h.closed
  obtain ⟨hapart, hapart'⟩ := List.pairwise_cons.mp h.apart
  have hagrees : ∀ m ∈ ms, s.Agrees (s.replaceMetricsParams o paramMap metric).2 m := fun m hm =>
    htouches.agrees (hapart m hm) (hclosed' m hm)
  refine ⟨?_, ?_, ?_⟩
  · exact List.forall_mem_cons.mpr ⟨hclosed.replaceMetricsParams o paramMap, fun m hm =>
      htouches.closedMetrics (hagrees m hm) (hclosed' m hm)⟩
  · refine List.forall_mem_cons.mpr ⟨?_, fun m hm => ?_⟩
    · rw [tunnelsOf_replaceMetricsParams]
      exact h.tunnels _ List.mem_cons_self
    · rw [(hagrees m hm).tunnelsOf_eq]
      exact h.tail.tunnels m hm
  · refine List.pairwise_cons.mpr ⟨fun m hm => ?_, ?_⟩
    · exact (hapart m hm).replaceMetricsParams o paramMap (hclosed' m hm)
    · exact hapart'.imp_of_mem fun hm hm' hap => hap.of_agrees (hagrees _ hm) (hagrees _ hm')

/-- The maps of a metric after its turn, in the memory then. -/
theorem read_newMaps (h : s.ClosedMetrics metric) :
    (s.newHeaders o paramMap metric).1.bind
          (s.replaceMetricsParams o paramMap metric).2.strMaps.read =
        (((s.httpOf metric).bind (·.headers)).bind s.strMaps.read).map
          (Replacer.replaceHTTPMap ((o.at 2).at 8) · paramMap) ∧
      (s.newParams o paramMap metric).1.bind
          (s.replaceMetricsParams o paramMap metric).2.strMaps.read =
        (((s.httpOf metric).bind (·.params)).bind s.strMaps.read).map
          (Replacer.replaceHTTPMap ((o.at 2).at 9) · paramMap) ∧
      metric.configMap.bind (s.replaceMetricsParams o paramMap metric).2.strMaps.read =
        (metric.configMap.bind s.strMaps.read).map
          (Replacer.replaceConfigMap ((o.at 4).at 4) · paramMap) := by
  have hmaps := h.maps
  simp only [mapsOf, List.forall_mem_cons] at hmaps
  obtain ⟨hconfigMap, -, hparams, -⟩ := hmaps
  have hkeeps : s.strMaps.Keeps (s.newHeaders o paramMap metric).2 := keeps_replaceHTTPMap _ _ _ _
  have hkeeps' : (s.newHeaders o paramMap metric).2.Keeps (s.newParams o paramMap metric).2 :=
    keeps_replaceHTTPMap _ _ _ _
  have hleads : (s.newHeaders o paramMap metric).2.Leads (s.newHeaders o paramMap metric).1 :=
    leads_replaceHTTPMap _ _ _ _
  -- the configuration map is written last, and it is none of the new maps
  have hapart : ∀ r ∈ [(s.newHeaders o paramMap metric).1, (s.newParams o paramMap metric).1],
      Mem.Apart metric.configMap r := fun r hr =>
    hconfigMap.apart (newMaps_replaceMetricsParams o paramMap r hr).1
  simp only [List.forall_mem_cons] at hapart
  rw [(s.copied_replaceMetricsParams o paramMap metric).1]
  refine ⟨?_, ?_, ?_⟩
  · rw [(Mem.sameAt_modifyAt _ hapart.1 _).bind_read_eq,
      (hkeeps'.sameAt hleads).bind_read_eq]
    exact bind_read_replaceHTTPMap _ _ _ _
  · rw [(Mem.sameAt_modifyAt _ hapart.2.1 _).bind_read_eq, ← (hkeeps.sameAt hparams).bind_read_eq]
    exact bind_read_replaceHTTPMap _ _ _ _
  · rw [Mem.bind_read_modifyAt_self, ((hkeeps.trans hkeeps').sameAt hconfigMap).bind_read_eq]

/-- The HTTP configuration of a metric after its turn, with what it leads to. -/
theorem readHTTP_replaceMetricsParams (h : s.ClosedMetrics metric) :
    ((s.replaceMetricsParams o paramMap metric).2.httpOf
          (s.replaceMetricsParams o paramMap metric).1).map
        (s.replaceMetricsParams o paramMap metric).2.readHTTP =
      ((s.httpOf metric).map s.readHTTP).map (Replacer.replaceHTTP (o.at 2) paramMap) := by
  obtain ⟨hheaders, hparams, -⟩ := read_newMaps o paramMap h
  have hauthorization := Mem.bind_read_modifyAt_self s.authorizations (s.authorizationOf metric)
    (Replacer.replaceAuthorizationParams ((o.at 2).at 10) · paramMap)
  rw [← (s.copied_replaceMetricsParams o paramMap metric).2.2.1, authorizationOf] at hauthorization
  rw [httpOf_replaceMetricsParams]
  rcases hread : s.httpOf metric with _ | http
  · rfl
  · rw [hread] at hheaders hparams hauthorization
    simp only [Option.bind_some] at hheaders hparams hauthorization
    simp only [Option.map_some, readHTTP, hheaders, hparams, Replacer.replaceHTTPParams,
      hauthorization, Replacer.replaceHTTP]

/-- The JDBC and Redis configurations of a metric after its turn, with their tunnels. -/
theorem readTunnels_replaceMetricsParams (h : (s.tunnelsOf metric).Pairwise Mem.Apart) :
    (metric.jdbc.bind (s.replaceMetricsParams o paramMap metric).2.jdbcs.read).map
        (s.replaceMetricsParams o paramMap metric).2.readJDBC =
      ((metric.jdbc.bind s.jdbcs.read).map s.readJDBC).map
        (Replacer.replaceJDBC (o.at 0) paramMap) ∧
    (metric.redis.bind (s.replaceMetricsParams o paramMap metric).2.redises.read).map
        (s.replaceMetricsParams o paramMap metric).2.readRedis =
      ((metric.redis.bind s.redises.read).map s.readRedis).map
        (Replacer.replaceRedis (o.at 3) paramMap) := by
  obtain ⟨hjdbcs, -, hredises, htunnels⟩ := s.shared_replaceMetricsParams o paramMap metric
  have hapart : Mem.Apart (s.jdbcTunnel metric.conns) (s.redisTunnel metric.conns) :=
    List.pairwise_pair.mp h
  constructor
  · have htunnel := Mem.bind_read_modifyAt_self s.tunnels (s.jdbcTunnel metric.conns)
      (Replacer.replaceTunnelParams ((o.at 0).at 11) · paramMap)
    rw [← (Mem.sameAt_modifyAt _ hapart.symm _).bind_read_eq, ← htunnels] at htunnel
    rw [hjdbcs, Mem.bind_read_modifyAt_self]
    rcases hread : metric.jdbc.bind s.jdbcs.read with _ | jdbc
    · rfl
    · simp only [jdbcTunnel, Metrics.conns, hread, Option.bind_some] at htunnel
      simp only [Option.map_some, readJDBC, Replacer.replaceJDBCParams, htunnel,
        Replacer.replaceJDBC]
  · have htunnel := (s.tunnels.modifyAt (s.jdbcTunnel metric.conns)
      (Replacer.replaceTunnelParams ((o.at 0).at 11) · paramMap)).bind_read_modifyAt_self
        (s.redisTunnel metric.conns) (Replacer.replaceTunnelParams ((o.at 3).at 6) · paramMap)
    rw [← htunnels, (Mem.sameAt_modifyAt _ hapart _).bind_read_eq] at htunnel
    rw [hredises, Mem.bind_read_modifyAt_self]
    rcases hread : metric.redis.bind s.redises.read with _ | redis
    · rfl
    · simp only [redisTunnel, Metrics.conns, hread, Option.bind_some] at htunnel
      simp only [Option.map_some, readRedis, Replacer.replaceRedisParams, htunnel,
        Replacer.replaceRedis]

/-- **A turn of the loop replaces in the tree of its metric.** -/
theorem readMetrics_replaceMetricsParams (h : s.ClosedMetrics metric)
    (htunnels : (s.tunnelsOf metric).Pairwise Mem.Apart) :
    (s.replaceMetricsParams o paramMap metric).2.readMetrics u
        (s.replaceMetricsParams o paramMap metric).1 =
      Replacer.replaceMetricsParams o paramMap (s.readMetrics u metric) := by
  obtain ⟨-, -, hconfigMap⟩ := read_newMaps o paramMap h
  obtain ⟨hjdbc, hredis⟩ := readTunnels_replaceMetricsParams o paramMap htunnels
  obtain ⟨-, -, -, hfields, haliasFields⟩ := s.copied_replaceMetricsParams o paramMap metric
  have hhttp := readHTTP_replaceMetricsParams o paramMap h
  have hssh := Mem.bind_read_modifyAt_self s.sshs metric.ssh
    (Replacer.replaceSSHParams (o.at 1) · paramMap)
  rw [← (s.shared_replaceMetricsParams o paramMap metric).2.1] at hssh
  simp only [readMetrics, Replacer.replaceMetricsParams, Replacer.replaceProtocols,
    Replacer.replaceBasicMetricsParams]
  -- the fields with a fact above are closed by it
  congr 1
  · rw [hfields]
    rfl
  · rw [haliasFields]
    rfl

/-! ### The loop -/

/-- **The loop leaves a metric alone that is separate from its own.** -/
theorem Separate.agrees (h : s.Separate (metric :: ms)) (i : ℕ) :
    s.Agrees (s.replaceAllMetrics o paramMap i ms).2 metric := by
  induction ms generalizing s i with
  | nil => exact .refl s metric
  | cons m ms ih =>
    have hapart := (List.pairwise_cons.mp h.swap.apart).1 metric List.mem_cons_self
    have hfirst := (s.touches_replaceMetricsParams (o.at i) paramMap m).agrees hapart
      (h.closed _ List.mem_cons_self)
    exact hfirst.trans (ih (h.swap.step (o.at i) paramMap).tail (i + 1))

/-- **The loop replaces in the tree of every metric.** -/
theorem Separate.readMetrics_eq (h : s.Separate ms) (i : ℕ) :
    (s.replaceAllMetrics o paramMap i ms).1.map
        ((s.replaceAllMetrics o paramMap i ms).2.readMetrics u) =
      (ms.zipIdx i).map fun m =>
        Replacer.replaceMetricsParams (o.at m.2) paramMap (s.readMetrics u m.1) := by
  induction ms generalizing s i with
  | nil => rfl
  | cons m ms ih =>
    have hstep := h.step (o.at i) paramMap
    have hapart := (List.pairwise_cons.mp h.apart).1
    have hfirst := hstep.agrees o paramMap (i + 1)
    rw [replaceAllMetrics, List.map_cons, List.zipIdx_cons, List.map_cons, ih hstep.tail (i + 1),
      hfirst.readMetrics_eq, readMetrics_replaceMetricsParams u _ _ (h.closed _ List.mem_cons_self)
        (h.tunnels _ List.mem_cons_self)]
    refine congrArg _ (List.map_congr_left fun p hp => ?_)
    have hmem := List.fst_mem_of_mem_zipIdx hp
    rw [((s.touches_replaceMetricsParams (o.at i) paramMap m).agrees (hapart _ hmem)
      (h.tail.closed _ hmem)).readMetrics_eq]

/-- The loop leaves a map alone that is none of the configuration maps. -/
theorem sameAt_replaceAllMetrics {r : Ref StrMap} (hr : s.strMaps.Leads r)
    (h : ∀ m ∈ ms, Mem.Apart m.configMap r) (i : ℕ) :
    s.strMaps.SameAt (s.replaceAllMetrics o paramMap i ms).2.strMaps r := by
  induction ms generalizing s i with
  | nil => exact .refl _ r
  | cons m ms ih =>
    have htouches := s.touches_replaceMetricsParams (o.at i) paramMap m
    have hfirst := htouches.strMaps r hr (h m List.mem_cons_self)
    exact hfirst.trans (ih (hr.mono htouches.strMaps_size)
      (fun m' hm' => h m' (List.mem_cons_of_mem _ hm')) (i + 1))

theorem sameSlices_replaceAllMetrics (s : Store) (ms : List (Metrics Ref)) (i : ℕ) :
    s.SameSlices (s.replaceAllMetrics o paramMap i ms).2 ∧
      (s.replaceAllMetrics o paramMap i ms).2.metrics = s.metrics := by
  induction ms generalizing s i with
  | nil => exact ⟨.refl s, rfl⟩
  | cons m ms ih =>
    have hfirst := s.sameSlices_replaceMetricsParams (o.at i) paramMap m
    have hrest := ih (s.replaceMetricsParams (o.at i) paramMap m).2 (i + 1)
    exact ⟨hfirst.1.trans hrest.1, hrest.2.trans hfirst.2⟩

end Separate

/-! ### The whole call -/

theorem SameShared.unshared {s s' : Store} (h : s.SameShared s') {cs : List Conns}
    (hcs : s.Unshared cs) : s'.Unshared cs where
  jdbcs := hcs.jdbcs
  sshs := hcs.sshs
  redises := hcs.redises
  tunnels := by
    simp only [jdbcTunnel, redisTunnel, h.jdbcs, h.redises]
    exact hcs.tunnels

/-- **The clones are separate**, if the originals share no configurations. -/
theorem ClonesAll.separate {s s' : Store} {ms clones : List (Metrics Ref)}
    (h : s.ClonesAll s' ms clones) (hunshared : s'.Unshared (clones.map Metrics.conns)) :
    s'.Separate clones := by
  have htunnels := List.pairwise_flatMap.mp (List.pairwise_filterMap.mp hunshared.tunnels)
  have hjdbcs := List.pairwise_map.mp (List.pairwise_filterMap.mp hunshared.jdbcs)
  have hsshs := List.pairwise_map.mp (List.pairwise_filterMap.mp hunshared.sshs)
  have hredises := List.pairwise_map.mp (List.pairwise_filterMap.mp hunshared.redises)
  refine ⟨h.closed, fun m hm => htunnels.1 _ (List.mem_map_of_mem hm), ?_⟩
  have hpairs := hjdbcs.and (hsshs.and (hredises.and (List.pairwise_map.mp htunnels.2)))
  refine (h.apart.and hpairs).imp ?_
  rintro m m' ⟨hcopies, hjdbc, hssh, hredis, htunnel⟩
  exact ⟨hcopies, hjdbc, hssh, hredis, htunnel⟩

/-- **Replacing in a store is replacing in a tree.** Where no reference of a job dangles and no two
of its metrics share a configuration, the job that `ReplaceJobParams` returns is, as a tree, what
the replacement of trees makes of the tree of the job before the call. -/
theorem readJob_replaceJobParams (o : RangeOrder) {s : Store} {job : Ref (JobOf Ref)}
    {j : JobOf Ref} (hj : job.bind s.jobs.read = some j) (hclosed : s.Closed j)
    (hunshared : s.Unshared (s.conns j)) :
    ∃ a clone, (s.replaceJobParams o job).1 = .ok a ∧
      (s.replaceJobParams o job).2.jobs.read a = some clone ∧
      (s.replaceJobParams o job).2.readJob u clone =
        Replacer.replaceJobParams o (s.readJob u j) := by
  obtain ⟨clone, hclone, hclones⟩ := clonesJob_clone hclosed
  have hall := hclones.slice.all
  -- the clones are separate, and so are the maps of the job from those of the clones
  have hseparate :
      (s.clone j).2.Separate ((clone.metrics.bind (s.clone j).2.metrics.read).getD []) := by
    refine hall.separate ((hclones.shared.trans hall.grows.toSameShared).unshared ?_)
    rw [hall.conns_eq, hclones.metrics_eq]
    exact hunshared
  have hmaps : ∀ r ∈ [clone.metadata, clone.labels, clone.annotations],
      (s.clone j).2.strMaps.SameAt ((s.clone j).2.replaceAllMetrics o (s.paramMap j) 0
        ((clone.metrics.bind (s.clone j).2.metrics.read).getD [])).2.strMaps r := by
    intro r hr
    have hleads := hclones.maps r hr
    refine sameAt_replaceAllMetrics o _ (hleads.mono hall.grows.strMaps.size_le) (fun m hm => ?_) 0
    exact (hleads.apart ((hall.new m hm).maps _ List.mem_cons_self)).symm
  simp only [List.forall_mem_cons] at hmaps
  obtain ⟨hsame, hmetrics⟩ := (s.clone j).2.sameSlices_replaceAllMetrics o (s.paramMap j)
    ((clone.metrics.bind (s.clone j).2.metrics.read).getD []) 0
  have htrees := hseparate.readMetrics_eq u o (s.paramMap j) 0
  simp only [replaceJobParams, hj, hclone, Option.bind_some]
  refine ⟨_, clone, rfl, hsame.jobs ▸ hclone, ?_⟩
  rw [Replacer.replaceJobParams, ← hclones.reads u]
  simp only [readJob]
  congr 1
  · exact hmaps.1
  · exact hmaps.2.1
  · exact hmaps.2.2.1
  · rw [hsame.intervals]
  · rw [hsame.params]
  · rw [Mem.bind_read_modifyAt_self, hmetrics]
    rcases hms : clone.metrics.bind (s.clone j).2.metrics.read with _ | ms
    · rfl
    · rw [hms, Option.getD_some] at htrees
      simp only [Option.map_some, List.zipIdx_map, List.map_map]
      exact congrArg some htrees
  · rw [hsame.configmaps]
  · exact congrFun hsame.readPriorMetrics_eq _

end Store

end HertzBeat
