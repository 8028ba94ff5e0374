import HertzBeat.Collect.ReadFields

/-!
# The second replacement

`DispatchMetricsTask` replaces the placeholders of a job with `ReplaceJobParams` and hands its
metrics to `CollectMetrics`, which calls `ReplaceMetricsParams` again, with a map that it makes of
the same configuration (`HertzBeat.MetricsCollector.received`). Nothing tells a placeholder of the
job from a value that looks like one: a password `^_^name^_^` that the first pass has put in is the
placeholder of a parameter to the second.

The second pass changes nothing where no string that it is given has a placeholder in it. Where
every value has fewer carets than its placeholder (`HertzBeat.Replacer.Lighter`) it changes nothing
*only* there, because a replacement then always takes carets away:
`HertzBeat.MetricsCollector.config_received`. In terms of the job itself, no parameter is left
after the first pass where no placeholder can arise in it
(`HertzBeat.MetricsCollector.config_received_of_unjoinable`).

The jobs here are trees: no two metrics share a record. A map is compared by what it has for each
key.
-/

namespace HertzBeat

open Go (Str StrMap RangeOrder)

/-! ### The two passes -/

namespace MetricsCollector

/-- The parameters of the second pass: the configuration map of the metric, with that of the job
written over it. -/
def ownParams (metrics : Metrics Option) (job : Job) : StrMap :=
  (mergeConfigmap metrics job).configMap.getD ∅

/-- The metric that a collector receives. -/
def received (o : RangeOrder) (metrics : Metrics Option) (job : Job) : Metrics Option :=
  Replacer.replaceOwnParams o (mergeConfigmap metrics job)

end MetricsCollector

/-! ### What a collector finds in a metric -/

/-- The content of an HTTP configuration. -/
structure HTTPContent where
  strings : List Str
  headers : Option (Str → Option Str)
  params : Option (Str → Option Str)
  authorization : Option Authorization

/-- The content of an HTTP configuration: a map is what it has for each key. -/
def HTTPProtocol.content (http : HTTPProtocol Option) : HTTPContent where
  strings := http.strings
  headers := http.headers.map fun m => m.lookup
  params := http.params.map fun m => m.lookup
  authorization := http.authorization

/-- The basic fields of a metric and its protocol configurations. -/
structure MetricsConfig where
  basic : List Str
  http : Option HTTPContent
  ssh : Option SSHProtocol
  jdbc : Option (JDBCProtocol Option)
  redis : Option (RedisProtocol Option)
  snmp : Option SNMPProtocol
  jmx : Option JMXProtocol
  mongodb : Option MongoDBProtocol
  milvus : Option MilvusProtocol

/-- The basic fields of a metric. -/
def Metrics.basic {Ptr : Type → Type} (metrics : Metrics Ptr) : List Str :=
  [metrics.host, metrics.port, metrics.timeout, metrics.range]

/-- **The basic fields of a metric and its protocol configurations.** -/
def Metrics.config (metrics : Metrics Option) : MetricsConfig where
  basic := metrics.basic
  http := metrics.http.map HTTPProtocol.content
  ssh := metrics.ssh
  jdbc := metrics.jdbc
  redis := metrics.redis
  snmp := metrics.snmp
  jmx := metrics.jmx
  mongodb := metrics.mongodb
  milvus := metrics.milvus

/-- All strings of an SSH configuration. -/
def SSHProtocol.strings (ssh : SSHProtocol) : List Str :=
  [ssh.host, ssh.port, ssh.username, ssh.password, ssh.privateKey, ssh.privateKeyPassphrase,
    ssh.script, ssh.parseType, ssh.parseScript, ssh.timeout, ssh.reuseConnection, ssh.useProxy,
    ssh.proxyHost, ssh.proxyPort, ssh.proxyUsername, ssh.proxyPassword, ssh.proxyPrivateKey]

/-- The strings of a JDBC configuration itself that are replaced. -/
def JDBCProtocol.replaced (jdbc : JDBCProtocol Option) : List Str :=
  jdbc.strings ++ [jdbc.reuseConnection]

theorem SSHProtocol.strings_inj {ssh ssh' : SSHProtocol} :
    ssh.strings = ssh'.strings ↔ ssh = ssh' := by
  cases ssh
  cases ssh'
  simp [strings]

theorem Authorization.reads_inj {auth auth' : Authorization} :
    auth.reads = auth'.reads ↔ auth = auth' := by
  cases auth
  cases auth'
  simp [reads]

theorem SSHTunnel.eq_iff {tunnel tunnel' : SSHTunnel} :
    tunnel = tunnel' ↔ tunnel.replaced = tunnel'.replaced ∧ tunnel.enable = tunnel'.enable := by
  cases tunnel
  cases tunnel'
  simp [replaced, and_comm]

theorem JDBCProtocol.eq_iff {jdbc jdbc' : JDBCProtocol Option} :
    jdbc = jdbc' ↔ jdbc.replaced = jdbc'.replaced ∧ jdbc.sshTunnel = jdbc'.sshTunnel := by
  cases jdbc
  cases jdbc'
  simp [replaced, strings, and_assoc]

theorem RedisProtocol.eq_iff {redis redis' : RedisProtocol Option} :
    redis = redis' ↔ redis.strings = redis'.strings ∧ redis.sshTunnel = redis'.sshTunnel := by
  cases redis
  cases redis'
  simp [strings, and_assoc]

namespace Replacer

/-! ### One string -/

/-- **No parameter is left to put in**: the placeholder of none occurs in the string. The empty
name is passed over. -/
def NoneLeft (paramMap : StrMap) (field : Str) : Prop :=
  ∀ k ∈ paramMap.keys, k ≠ [] → ¬placeholder k <:+: field

/-- Every value has fewer carets than the placeholder it is put in for. -/
def Lighter (paramMap : StrMap) : Prop :=
  ∀ e ∈ paramMap.entries, e.2.count caret < (placeholder e.1).count caret

instance (paramMap : StrMap) (field : Str) : Decidable (NoneLeft paramMap field) :=
  inferInstanceAs (Decidable (∀ k ∈ paramMap.keys, k ≠ [] → ¬placeholder k <:+: field))

instance (paramMap : StrMap) : Decidable (Lighter paramMap) :=
  inferInstanceAs (Decidable (∀ e ∈ paramMap.entries, _ < _))

section

variable {paramMap : StrMap} {field : Str} {o : RangeOrder}

theorem noneLeft_iff :
    NoneLeft paramMap field ↔ ∀ e ∈ patterns (o.visit paramMap), ¬e.1 <:+: field := by
  have hperm := o.visit_perm paramMap
  constructor
  · rintro h _ he
    obtain ⟨e, hnamed, rfl⟩ := List.mem_map.mp he
    obtain ⟨hmem, hname⟩ := List.mem_filter.mp hnamed
    exact h e.1 (List.mem_map.mpr ⟨e, hperm.mem_iff.mp hmem, rfl⟩) (by simpa using hname)
  · rintro h k hk hname
    obtain ⟨e, he, rfl⟩ := List.mem_map.mp (show k ∈ paramMap.entries.map Sigma.fst from hk)
    refine h (placeholder e.1, e.2) (List.mem_map.mpr ⟨e, List.mem_filter.mpr ⟨?_, ?_⟩, rfl⟩)
    · exact hperm.mem_iff.mpr he
    · simpa using hname

/-- A string in which no parameter is left stays. -/
theorem replaceParamPlaceholders_of_noneLeft (h : NoneLeft paramMap field) (o : RangeOrder) :
    replaceParamPlaceholders o field paramMap = field := by
  unfold replaceParamPlaceholders
  split_ifs with hnil hno
  · exact hnil.symm
  · rfl
  · rw [foldl_replaceParam_patterns]
    exact Go.foldl_replaceAll_eq_self (noneLeft_iff.mp h)

/-- Where values are lighter than their placeholders, no other string stays. -/
theorem noneLeft_of_replaceParamPlaceholders (hlight : Lighter paramMap)
    (h : replaceParamPlaceholders o field paramMap = field) : NoneLeft paramMap field := by
  unfold replaceParamPlaceholders at h
  split_ifs at h with hnil hno
  · rintro k - - hinf
    exact placeholder_ne_nil k (List.infix_nil.mp (hnil ▸ hinf))
  · simp only [Go.contains, Bool.not_eq_true', decide_eq_false_iff_not] at hno
    rintro k - - hinf
    exact hno ((delimiter_infix_placeholder k).trans hinf)
  · rw [foldl_replaceParam_patterns] at h
    refine noneLeft_iff.mpr (Go.not_infix_of_foldl_replaceAll_eq (c := caret) ?_ h)
    rintro _ he
    obtain ⟨e, hnamed, rfl⟩ := List.mem_map.mp he
    exact hlight e ((o.visit_perm paramMap).mem_iff.mp (List.mem_filter.mp hnamed).1)

end

/-! ### The calls of a pass -/

/-- The calls that replace strings one after the other, each with its order. -/
def callsAt (o : RangeOrder) (calls : List ℕ) (fields : List Str) : List (RangeOrder × Str) :=
  (calls.zip fields).map fun p => (o.at p.1, p.2)

/-- The calls for the values of a map of an HTTP configuration. -/
def mapCalls (o : RangeOrder) (entries : StrMap) : List (RangeOrder × Str) :=
  ((o.at 0).visit entries).zipIdx.map fun e => ((o.at 2).at e.2, e.1.2)

/-- The calls for an SSH tunnel. -/
def tunnelCalls (o : RangeOrder) (tunnel : SSHTunnel) : List (RangeOrder × Str) :=
  callsAt o [0, 1, 2, 3] tunnel.replaced

/-- The calls for a JDBC configuration. -/
def jdbcCalls (o : RangeOrder) (jdbc : JDBCProtocol Option) : List (RangeOrder × Str) :=
  callsAt o [0, 1, 2, 3, 4, 5, 6, 7, 8, 9, 10] jdbc.replaced ++
    jdbc.sshTunnel.elim [] (tunnelCalls (o.at 11))

/-- The calls for an SSH configuration. -/
def sshCalls (o : RangeOrder) (ssh : SSHProtocol) : List (RangeOrder × Str) :=
  callsAt o [0, 1, 2, 3, 4, 5, 6, 7, 8, 9, 10, 11, 12, 13, 14, 15, 16] ssh.strings

/-- The calls for an HTTP configuration, but for those of the keys of its maps. -/
def httpCalls (o : RangeOrder) (http : HTTPProtocol Option) : List (RangeOrder × Str) :=
  callsAt o [0, 1, 2, 3, 4, 5, 6, 7] http.strings ++ http.headers.elim [] (mapCalls (o.at 8)) ++
    http.params.elim [] (mapCalls (o.at 9)) ++
    http.authorization.elim [] fun auth => callsAt (o.at 10) [0, 1, 2, 3, 4, 5] auth.reads

/-- The calls for a Redis configuration. -/
def redisCalls (o : RangeOrder) (redis : RedisProtocol Option) : List (RangeOrder × Str) :=
  callsAt o [0, 1, 2, 3, 4, 5] redis.strings ++ redis.sshTunnel.elim [] (tunnelCalls (o.at 6))

/-- **The calls of `replaceParamPlaceholders`** with which `ReplaceMetricsParams` writes the basic
fields of a metric and its protocol configurations: the order of each, and the string it is
given. -/
def metricsCalls (o : RangeOrder) (metrics : Metrics Option) : List (RangeOrder × Str) :=
  metrics.jdbc.elim [] (jdbcCalls (o.at 0)) ++ metrics.ssh.elim [] (sshCalls (o.at 1)) ++
    metrics.http.elim [] (httpCalls (o.at 2)) ++ metrics.redis.elim [] (redisCalls (o.at 3)) ++
    callsAt (o.at 4) [0, 1, 2, 3] metrics.basic

/-- Every call returns the string it is given. -/
def Fixed (paramMap : StrMap) (calls : List (RangeOrder × Str)) : Prop :=
  ∀ call ∈ calls, replaceParamPlaceholders call.1 call.2 paramMap = call.2

section

variable {paramMap : StrMap} {o : RangeOrder}

theorem fixed_append {calls calls' : List (RangeOrder × Str)} :
    Fixed paramMap (calls ++ calls') ↔ Fixed paramMap calls ∧ Fixed paramMap calls' :=
  List.forall_mem_append

/-- A part that may be absent. -/
theorem map_eq_self_iff {α : Type} {part : Option α} {f : α → α}
    {calls : α → List (RangeOrder × Str)}
    (h : ∀ a, part = some a → (f a = a ↔ Fixed paramMap (calls a))) :
    part.map f = part ↔ Fixed paramMap (part.elim [] calls) := by
  cases part with
  | none => simp [Fixed]
  | some a => simpa using h a rfl

/-- A part that may be absent and is compared by what it holds. -/
theorem map_map_eq_iff {α β : Type} {part : Option α} {f : α → α} {content : α → β}
    {calls : α → List (RangeOrder × Str)}
    (h : ∀ a, part = some a → (content (f a) = content a ↔ Fixed paramMap (calls a))) :
    (part.map f).map content = part.map content ↔ Fixed paramMap (part.elim [] calls) := by
  cases part with
  | none => simp [Fixed]
  | some a => simpa using h a rfl

/-- Strings that are replaced one after the other. -/
theorem eq_iff_fixed_callsAt {calls : List ℕ} {fields fields' : List Str}
    (hlen : calls.length = fields.length) (hfields : fields' =
      (calls.zip fields).map fun p => replaceParamPlaceholders (o.at p.1) p.2 paramMap) :
    fields' = fields ↔ Fixed paramMap (callsAt o calls fields) := by
  rw [hfields]
  clear hfields
  induction calls generalizing fields with
  | nil =>
    obtain rfl := List.length_eq_zero_iff.mp hlen.symm
    simp [Fixed, callsAt]
  | cons call calls ih =>
    cases fields with
    | nil => exact absurd hlen (by simp)
    | cons field fields =>
      have hrest := ih (Nat.succ.inj hlen)
      simp only [Fixed, callsAt, List.zip_cons_cons, List.map_cons, List.cons.injEq,
        List.forall_mem_cons] at hrest ⊢
      rw [hrest]

theorem replaceSSHParams_eq_iff (ssh : SSHProtocol) :
    replaceSSHParams o ssh paramMap = ssh ↔ Fixed paramMap (sshCalls o ssh) := by
  rw [← SSHProtocol.strings_inj]
  exact eq_iff_fixed_callsAt rfl rfl

theorem replaceTunnelParams_eq_iff (tunnel : SSHTunnel) :
    replaceTunnelParams o tunnel paramMap = tunnel ↔ Fixed paramMap (tunnelCalls o tunnel) := by
  have henable : (replaceTunnelParams o tunnel paramMap).enable = tunnel.enable := rfl
  rw [SSHTunnel.eq_iff, and_iff_left henable]
  exact eq_iff_fixed_callsAt rfl rfl

theorem replaceJDBC_eq_iff (jdbc : JDBCProtocol Option) :
    replaceJDBC o paramMap jdbc = jdbc ↔ Fixed paramMap (jdbcCalls o jdbc) := by
  rw [JDBCProtocol.eq_iff, jdbcCalls, fixed_append]
  exact and_congr (eq_iff_fixed_callsAt rfl rfl)
    (map_eq_self_iff fun tunnel _ => replaceTunnelParams_eq_iff tunnel)

theorem replaceRedis_eq_iff (redis : RedisProtocol Option) :
    replaceRedis o paramMap redis = redis ↔ Fixed paramMap (redisCalls o redis) := by
  rw [RedisProtocol.eq_iff, redisCalls, fixed_append]
  exact and_congr (eq_iff_fixed_callsAt rfl rfl)
    (map_eq_self_iff fun tunnel _ => replaceTunnelParams_eq_iff tunnel)

theorem replaceAuthorizationParams_eq_iff (auth : Authorization) :
    replaceAuthorizationParams o auth paramMap = auth ↔
      Fixed paramMap (callsAt o [0, 1, 2, 3, 4, 5] auth.reads) := by
  rw [← Authorization.reads_inj]
  exact eq_iff_fixed_callsAt rfl rfl

/-! ### The maps of an HTTP configuration -/

/-- The keys of a map are such as a pass keeps: not empty, and without a delimiter. -/
def KeptKeys (entries : StrMap) : Prop :=
  ∀ e ∈ entries.entries, e.1 ≠ [] ∧ ¬delimiter <:+: e.1

/-- The keys that a pass has left are such. -/
theorem keptKeys_replaceHTTPMap (entries : StrMap) :
    KeptKeys (replaceHTTPMap o entries paramMap) := by
  unfold replaceHTTPMap
  refine List.foldlRecOn (motive := KeptKeys) _ _ (fun e he => absurd he List.not_mem_nil)
    fun new hnew visited _ e he => ?_
  simp only at he
  split_ifs at he with hkey
  · rcases List.mem_cons.mp he with rfl | hold
    · exact ⟨hkey.1, by simpa [Go.contains] using hkey.2⟩
    · exact hnew e ((List.kerase_sublist _ _).subset hold)
  · exact hnew e he

theorem replaceParamPlaceholders_of_no_delimiter {field : Str} (h : ¬delimiter <:+: field)
    (o : RangeOrder) : replaceParamPlaceholders o field paramMap = field :=
  replaceParamPlaceholders_of_noneLeft
    (fun k _ _ hinf => h ((delimiter_infix_placeholder k).trans hinf)) o

/-- A map with such keys gets a new value under each of them. -/
theorem replaceHTTPMap_eq {entries : StrMap} (hkeys : KeptKeys entries) :
    replaceHTTPMap o entries paramMap = ((o.at 0).visit entries).zipIdx.foldl (fun new e =>
      new.insert e.1.1 (replaceParamPlaceholders ((o.at 2).at e.2) e.1.2 paramMap)) ∅ := by
  refine List.foldl_ext _ _ _ fun new e he => ?_
  obtain ⟨hne, hdelim⟩ := hkeys e.1
    (((o.at 0).visit_perm entries).mem_iff.mp (List.fst_mem_of_mem_zipIdx he))
  simp [replaceParamPlaceholders_of_no_delimiter hdelim, hne, Go.contains, hdelim]

/-- A map in which every entry gets a new value, in some order, has what it had exactly if these are
the values it had. What the map is written over has none of the other keys. -/
theorem lookup_foldl_visit_iff {entries m₀ : StrMap} (hm₀ : ∀ k ∉ entries, m₀.lookup k = none)
    {value : (Σ _ : Str, Str) × ℕ → Str} :
    ((o.visit entries).zipIdx.foldl (fun new e => new.insert e.1.1 (value e)) m₀).lookup =
        entries.lookup ↔ ∀ e ∈ (o.visit entries).zipIdx, value e = e.1.2 := by
  have hperm := o.visit_perm entries
  have hkeysMap : (o.visit entries).zipIdx.map (fun e => e.1.1) = (o.visit entries).keys := by
    rw [show (fun e : (Σ _ : Str, Str) × ℕ => e.1.1) = Sigma.fst ∘ Prod.fst from rfl,
      ← List.map_map, List.zipIdx_map_fst]
    rfl
  have hnodup : ((o.visit entries).zipIdx.map fun e => e.1.1).Nodup := by
    rw [hkeysMap]
    exact (List.perm_nodupKeys hperm).mpr entries.nodupKeys
  have hold : ∀ e ∈ (o.visit entries).zipIdx, entries.lookup e.1.1 = some e.1.2 :=
    fun e he => AList.mem_lookup_iff.mpr (hperm.mem_iff.mp (List.fst_mem_of_mem_zipIdx he))
  have hnew : ∀ e ∈ (o.visit entries).zipIdx,
      ((o.visit entries).zipIdx.foldl (fun new e => new.insert e.1.1 (value e)) m₀).lookup e.1.1 =
        some (value e) :=
    fun e he => Go.lookup_foldl_insert_of_mem hnodup he m₀
  constructor
  · intro h e he
    have heq := congrFun h e.1.1
    rw [hnew e he, hold e he] at heq
    exact Option.some.inj heq
  · intro h
    funext k
    by_cases hk : k ∈ (o.visit entries).zipIdx.map fun e => e.1.1
    · obtain ⟨e, he, rfl⟩ := List.mem_map.mp hk
      rw [hnew e he, hold e he, h e he]
    · have hnone : k ∉ entries := by
        rw [hkeysMap] at hk
        exact fun hmem => hk ((hperm.map Sigma.fst).mem_iff.mpr hmem)
      rw [Go.lookup_foldl_insert_of_notMem hk, hm₀ k hnone, AList.lookup_eq_none.mpr hnone]

theorem lookup_replaceHTTPMap_iff {entries : StrMap} (hkeys : KeptKeys entries) :
    (replaceHTTPMap o entries paramMap).lookup = entries.lookup ↔
      Fixed paramMap (mapCalls o entries) := by
  rw [replaceHTTPMap_eq hkeys, lookup_foldl_visit_iff fun k _ => AList.lookup_empty k, Fixed,
    mapCalls, List.forall_mem_map]

/-- The configuration map of a metric has what it had exactly if every value of it stays. -/
theorem lookup_replaceConfigMap_iff {configMap : StrMap} :
    (replaceConfigMap o configMap paramMap).lookup = configMap.lookup ↔
      ∀ e ∈ ((o.at 0).visit configMap).zipIdx,
        replaceParamPlaceholders ((o.at 1).at e.2) e.1.2 paramMap = e.1.2 :=
  lookup_foldl_visit_iff fun _ hk => AList.lookup_eq_none.mpr hk

/-! ### A whole metric -/

/-- The keys of the maps of a metric are such as a pass keeps. -/
def KeepsKeys (metrics : Metrics Option) : Prop :=
  ∀ http, metrics.http = some http →
    (∀ headers, http.headers = some headers → KeptKeys headers) ∧
      ∀ params, http.params = some params → KeptKeys params

theorem content_replaceHTTP_iff {http : HTTPProtocol Option}
    (hheaders : ∀ headers, http.headers = some headers → KeptKeys headers)
    (hparams : ∀ params, http.params = some params → KeptKeys params) :
    (replaceHTTP o paramMap http).content = http.content ↔
      Fixed paramMap (httpCalls o http) := by
  rw [HTTPProtocol.content, HTTPProtocol.content, HTTPContent.mk.injEq]
  simp only [httpCalls, fixed_append, and_assoc]
  refine and_congr (eq_iff_fixed_callsAt rfl rfl) (and_congr ?_ (and_congr ?_ ?_))
  · exact map_map_eq_iff fun headers hsome => lookup_replaceHTTPMap_iff (hheaders headers hsome)
  · exact map_map_eq_iff fun params hsome => lookup_replaceHTTPMap_iff (hparams params hsome)
  · exact map_eq_self_iff fun auth _ => replaceAuthorizationParams_eq_iff auth

/-- **A pass leaves a metric as it is exactly if every call returns its string.** -/
theorem config_replaceProtocols_iff {metrics : Metrics Option} (hkeys : KeepsKeys metrics) :
    (replaceProtocols o paramMap metrics).config = metrics.config ↔
      Fixed paramMap (metricsCalls o metrics) := by
  rw [Metrics.config, Metrics.config, MetricsConfig.mk.injEq]
  simp only [metricsCalls, fixed_append]
  have hbasic : (replaceProtocols o paramMap metrics).basic = metrics.basic ↔
      Fixed paramMap (callsAt (o.at 4) [0, 1, 2, 3] metrics.basic) :=
    eq_iff_fixed_callsAt rfl rfl
  have hhttp : (replaceProtocols o paramMap metrics).http.map HTTPProtocol.content =
      metrics.http.map HTTPProtocol.content ↔
        Fixed paramMap (metrics.http.elim [] (httpCalls (o.at 2))) :=
    map_map_eq_iff fun http hsome =>
      content_replaceHTTP_iff (hkeys http hsome).1 (hkeys http hsome).2
  have hssh : (replaceProtocols o paramMap metrics).ssh = metrics.ssh ↔
      Fixed paramMap (metrics.ssh.elim [] (sshCalls (o.at 1))) :=
    map_eq_self_iff fun ssh _ => replaceSSHParams_eq_iff ssh
  have hjdbc : (replaceProtocols o paramMap metrics).jdbc = metrics.jdbc ↔
      Fixed paramMap (metrics.jdbc.elim [] (jdbcCalls (o.at 0))) :=
    map_eq_self_iff fun jdbc _ => replaceJDBC_eq_iff jdbc
  have hredis : (replaceProtocols o paramMap metrics).redis = metrics.redis ↔
      Fixed paramMap (metrics.redis.elim [] (redisCalls (o.at 3))) :=
    map_eq_self_iff fun redis _ => replaceRedis_eq_iff redis
  rw [hbasic, hhttp, hssh, hjdbc, hredis]
  constructor
  · rintro ⟨hb, hh, hs, hj, hr, -⟩
    exact ⟨⟨⟨⟨hj, hs⟩, hh⟩, hr⟩, hb⟩
  · rintro ⟨⟨⟨⟨hj, hs⟩, hh⟩, hr⟩, hb⟩
    exact ⟨hb, hh, hs, hj, hr, rfl, rfl, rfl, rfl⟩

/-- The first pass leaves no other keys. -/
theorem keepsKeys_replaceMetricsParams (metrics : Metrics Option) :
    KeepsKeys (replaceMetricsParams o paramMap metrics) := by
  intro http hhttp
  obtain ⟨http, -, rfl⟩ := Option.map_eq_some_iff.mp hhttp
  constructor
  · intro headers hheaders
    obtain ⟨headers, -, rfl⟩ := Option.map_eq_some_iff.mp hheaders
    exact keptKeys_replaceHTTPMap headers
  · intro params hparams
    obtain ⟨params, -, rfl⟩ := Option.map_eq_some_iff.mp hparams
    exact keptKeys_replaceHTTPMap params

theorem exists_of_mem_replaceJobParams {job : Job} {metrics : Metrics Option}
    (h : metrics ∈ (replaceJobParams o job).metrics.getD []) :
    ∃ i, ∃ metrics₀ ∈ job.metrics.getD [], metrics = replaceMetricsParams (o.at i)
      (createParamMapSimple (job.configmap.getD [])) metrics₀ := by
  rw [replaceJobParams] at h
  change metrics ∈ (job.metrics.map _).getD [] at h
  cases hm : job.metrics with
  | none => simp [hm] at h
  | some ms =>
    rw [hm] at h
    obtain ⟨p, hp, rfl⟩ := List.mem_map.mp h
    exact ⟨p.2, p.1, List.fst_mem_of_mem_zipIdx hp, rfl⟩

/-! ### What the first pass hands on -/

/-- The strings of some calls are what a pass has made of the strings of others. -/
def Handed (paramMap : StrMap) (calls₀ calls : List (RangeOrder × Str)) : Prop :=
  ∀ call ∈ calls, ∃ o, ∃ call₀ ∈ calls₀, call.2 = replaceParamPlaceholders o call₀.2 paramMap

section

variable {o' : RangeOrder} {calls₀ calls₁ calls calls' : List (RangeOrder × Str)}

theorem Handed.append (h : Handed paramMap calls₀ calls) (h' : Handed paramMap calls₁ calls') :
    Handed paramMap (calls₀ ++ calls₁) (calls ++ calls') := by
  intro call hcall
  rcases List.mem_append.mp hcall with hcall | hcall
  · obtain ⟨o, call₀, hmem, heq⟩ := h call hcall
    exact ⟨o, call₀, List.mem_append_left _ hmem, heq⟩
  · obtain ⟨o, call₀, hmem, heq⟩ := h' call hcall
    exact ⟨o, call₀, List.mem_append_right _ hmem, heq⟩

theorem handed_elim_map {α : Type} {part : Option α} {f : α → α}
    {g g' : α → List (RangeOrder × Str)} (h : ∀ a, Handed paramMap (g a) (g' (f a))) :
    Handed paramMap (part.elim [] g) ((part.map f).elim [] g') := by
  cases part with
  | none => exact fun call hcall => absurd hcall List.not_mem_nil
  | some a => exact h a

theorem handed_callsAt {ks ks' : List ℕ} {fields fields' : List Str} (hfields : fields' =
      (ks.zip fields).map fun p => replaceParamPlaceholders (o.at p.1) p.2 paramMap) :
    Handed paramMap (callsAt o ks fields) (callsAt o' ks' fields') := by
  intro call hcall
  obtain ⟨p', hp', rfl⟩ := List.mem_map.mp hcall
  have hmem := (List.of_mem_zip hp').2
  rw [hfields] at hmem
  obtain ⟨p, hp, heq⟩ := List.mem_map.mp hmem
  exact ⟨o.at p.1, (o.at p.1, p.2), List.mem_map.mpr ⟨p, hp, rfl⟩, heq.symm⟩

theorem handed_mapCalls (entries : StrMap) :
    Handed paramMap (mapCalls o entries) (mapCalls o' (replaceHTTPMap o entries paramMap)) := by
  intro call hcall
  obtain ⟨e, he, rfl⟩ := List.mem_map.mp hcall
  have hmem := ((o'.at 0).visit_perm _).mem_iff.mp (List.fst_mem_of_mem_zipIdx he)
  obtain ⟨-, o₀, value, hvalue, heq⟩ := MetricsCollector.replacedEntry_of_mem o entries e.1 hmem
  -- the value is visited by the first pass too
  obtain ⟨e₀, he₀, rfl⟩ := List.mem_map.mp hvalue
  obtain ⟨i, hi⟩ := List.mem_iff_getElem?.mp (((o.at 0).visit_perm entries).mem_iff.mpr he₀)
  exact ⟨o₀, _, List.mem_map.mpr ⟨(e₀, i), List.mk_mem_zipIdx_iff_getElem?.mpr hi, rfl⟩, heq⟩

theorem handed_tunnelCalls (tunnel : SSHTunnel) :
    Handed paramMap (tunnelCalls o tunnel)
      (tunnelCalls o' (replaceTunnelParams o tunnel paramMap)) :=
  handed_callsAt rfl

/-- **The strings that the second pass is given are those that the first has made.** -/
theorem handed_metricsCalls (metrics : Metrics Option) :
    Handed paramMap (metricsCalls o metrics)
      (metricsCalls o' (replaceMetricsParams o paramMap metrics)) := by
  refine (((Handed.append ?_ ?_).append ?_).append ?_).append (handed_callsAt rfl)
  · exact handed_elim_map fun jdbc =>
      (handed_callsAt rfl).append (handed_elim_map handed_tunnelCalls)
  · exact handed_elim_map fun ssh => handed_callsAt rfl
  · exact handed_elim_map fun http =>
      (((handed_callsAt rfl).append (handed_elim_map handed_mapCalls)).append
        (handed_elim_map handed_mapCalls)).append (handed_elim_map fun auth => handed_callsAt rfl)
  · exact handed_elim_map fun redis =>
      (handed_callsAt rfl).append (handed_elim_map handed_tunnelCalls)

end

theorem mem_createParamMapSimple {configmap : List Configmap} {k : Str} :
    k ∈ createParamMapSimple configmap ↔ ∃ config ∈ configmap, config.key = k := by
  rw [createParamMapSimple, Go.mem_foldl_insert]
  simp

/-- The keys of a configuration map stay. -/
theorem mem_of_mem_replaceConfigMap {configMap : StrMap} {k : Str}
    (h : k ∈ replaceConfigMap o configMap paramMap) : k ∈ configMap := by
  rw [replaceConfigMap, Go.mem_foldl_insert] at h
  rcases h with h | ⟨e, he, rfl⟩
  · exact h
  · have hmem := ((o.at 0).visit_perm configMap).mem_iff.mp (List.fst_mem_of_mem_zipIdx he)
    exact List.mem_map.mpr ⟨e.1, hmem, rfl⟩

end

end Replacer

namespace MetricsCollector

open Replacer

section

variable {o o' : RangeOrder} {job : Job} {metrics : Metrics Option}

/-- The second pass leaves the metrics of the first as they are exactly if every call of it returns
the string it is given. -/
theorem config_received_iff (h : metrics ∈ (replaceJobParams o job).metrics.getD []) :
    (received o' metrics (replaceJobParams o job)).config = metrics.config ↔
      Fixed (ownParams metrics (replaceJobParams o job)) (metricsCalls o' metrics) := by
  obtain ⟨i, metrics₀, -, rfl⟩ := exists_of_mem_replaceJobParams h
  exact config_replaceProtocols_iff (keepsKeys_replaceMetricsParams metrics₀)

/-- **The second pass** changes nothing where no parameter is left in a string that it is given.
Where every value has fewer carets than its placeholder, it changes nothing only there. -/
theorem config_received (h : metrics ∈ (replaceJobParams o job).metrics.getD []) :
    ((∀ call ∈ metricsCalls o' metrics,
          NoneLeft (ownParams metrics (replaceJobParams o job)) call.2) →
        (received o' metrics (replaceJobParams o job)).config = metrics.config) ∧
      (Lighter (ownParams metrics (replaceJobParams o job)) →
        (received o' metrics (replaceJobParams o job)).config = metrics.config →
        ∀ call ∈ metricsCalls o' metrics,
          NoneLeft (ownParams metrics (replaceJobParams o job)) call.2) := by
  constructor
  · intro hleft
    exact (config_received_iff h).mpr fun call hcall =>
      replaceParamPlaceholders_of_noneLeft (hleft call hcall) call.1
  · intro hlight hsame call hcall
    exact noneLeft_of_replaceParamPlaceholders hlight ((config_received_iff h).mp hsame call hcall)

end

/-- A job for a metric that logs in with a password of its configuration. -/
def loginJob (password : String) : Job :=
  { Job.bare 7 true 60 with
    configmap := some [{ key := Go.str "password", value := .str (Go.str password), type := 1 },
      { key := Go.str "name", value := .str (Go.str "root"), type := 1 }]
    metrics := some [{ Metrics.bare (Go.str "basic") (Go.str "ssh") with
      ssh := some { username := Go.str "^_^name^_^", password := Go.str "^_^password^_^" } }] }

theorem config_received_login :
    ∃ metrics ∈ (replaceJobParams .listed (loginJob "p^s")).metrics.getD [],
      (received .listed metrics (replaceJobParams .listed (loginJob "p^s"))).config =
        metrics.config :=
  ⟨_, List.mem_cons_self, (config_received List.mem_cons_self).1 (by decide)⟩

/-- **A password that looks like a placeholder is rewritten**: the first pass puts it in, and the
second replaces it by the name. -/
theorem config_received_login_ne :
    ∃ metrics ∈ (replaceJobParams .listed (loginJob "^_^name^_^")).metrics.getD [],
      metrics.ssh.map (·.password) = some (Go.str "^_^name^_^") ∧
        (received .listed metrics (replaceJobParams .listed (loginJob "^_^name^_^"))).ssh.map
          (·.password) = some (Go.str "root") ∧
        (received .listed metrics (replaceJobParams .listed (loginJob "^_^name^_^"))).config ≠
          metrics.config := by
  refine ⟨_, List.mem_cons_self, rfl, rfl, fun hsame => ?_⟩
  have hssh : some (Go.str "root") = some (Go.str "^_^name^_^") :=
    congrArg (fun c => c.ssh.map (·.password)) hsame
  exact absurd hssh (by decide)

/-- The second pass has the parameters of the job, and those of the metric. -/
theorem mem_ownParams {metrics : Metrics Option} {job : Job} {k : Str} :
    k ∈ ownParams metrics job ↔
      k ∈ metrics.configMap.getD ∅ ∨ ∃ config ∈ job.configmap.getD [], config.key = k :=
  Go.mem_foldl_insert _

/-- **Placeholders are substituted once where none can arise**: where names and values have no
carets, a metric has no parameters of its own, and the replacement of no string joins texts to a
placeholder. -/
theorem config_received_of_unjoinable {o o' : RangeOrder} {job : Job}
    (hfree : CaretFree (createParamMapSimple (job.configmap.getD [])))
    (hown : ∀ metrics ∈ job.metrics.getD [], ∀ k ∈ metrics.configMap.getD ∅,
      k ∈ createParamMapSimple (job.configmap.getD []))
    (hjoin : ∀ metrics ∈ job.metrics.getD [], ∀ o, ∀ call ∈ metricsCalls o metrics,
      Unjoinable (createParamMapSimple (job.configmap.getD [])) call.2) :
    ∀ metrics ∈ (replaceJobParams o job).metrics.getD [],
      (received o' metrics (replaceJobParams o job)).config = metrics.config := by
  intro metrics h
  obtain ⟨i, metrics₀, hmem, rfl⟩ := exists_of_mem_replaceJobParams h
  refine (config_received_iff h).mpr fun call hcall => ?_
  refine replaceParamPlaceholders_of_noneLeft (fun k hk _ => ?_) call.1
  have hk' : k ∈ createParamMapSimple (job.configmap.getD []) := by
    rcases mem_ownParams.mp hk with hk | hk
    · refine hown metrics₀ hmem k ?_
      cases hc : metrics₀.configMap with
      | none => simp [replaceMetricsParams, hc] at hk
      | some configMap =>
        simp only [replaceMetricsParams, hc, Option.map_some, Option.getD_some] at hk
        exact mem_of_mem_replaceConfigMap hk
    · exact mem_createParamMapSimple.mpr hk
  obtain ⟨o₀, call₀, hcall₀, heq⟩ := handed_metricsCalls metrics₀ call hcall
  rw [heq]
  exact not_infix_replaceParamPlaceholders hfree (hjoin metrics₀ hmem _ call₀ hcall₀) o₀ hk'

end MetricsCollector

end HertzBeat
