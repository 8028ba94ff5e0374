import HertzBeat.Collect.CollectMetrics
import HertzBeat.Lib.Joins
import HertzBeat.Param.Placeholders

/-!
# Which placeholders reach a collector

`ReplaceMetricsParams` lists the fields whose placeholders it replaces, one function for each
protocol, and the collectors read the fields somewhere else. This module holds the two
together: the strings that the collector of a protocol reads of its configuration
(`HertzBeat.MetricsCollector.Collector.reads`; it reads no others,
`HertzBeat.MetricsCollector.collect_withoutUnread`), and those among them that the replacement
leaves as they are (`HertzBeat.MetricsCollector.Collector.kept`). It leaves all of Milvus, for
which there is no such function, and the `enable` of an SSH tunnel.

A field that is replaced may still have the placeholder of a parameter in it afterwards, when
the texts on the two sides of a value join to one. Where that cannot happen
(`HertzBeat.Replacer.Unjoinable`) the placeholders that reach the collector are those in the
fields that are kept, `HertzBeat.MetricsCollector.clean_reads_replaceMetricsParams`.
-/

namespace HertzBeat

open Go (Str StrMap RangeOrder Arises Capped)

namespace Replacer

/-! ### What is left in a string -/

/-- The letter that a placeholder starts and ends with. -/
def caret : UInt8 := 94

/-- The names and the values of the parameters have no caret in them. -/
def CaretFree (paramMap : StrMap) : Prop := ∀ e ∈ paramMap.entries, caret ∉ e.1 ∧ caret ∉ e.2

instance (paramMap : StrMap) : Decidable (CaretFree paramMap) :=
  inferInstanceAs (Decidable (∀ e ∈ paramMap.entries, caret ∉ e.1 ∧ caret ∉ e.2))

/-- No string has the placeholder of a parameter in it. -/
def Clean (paramMap : StrMap) (fields : List Str) : Prop :=
  ∀ field ∈ fields, ∀ k ∈ paramMap.keys, ¬placeholder k <:+: field

instance (paramMap : StrMap) (fields : List Str) : Decidable (Clean paramMap fields) :=
  inferInstanceAs (Decidable (∀ field ∈ fields, ∀ k ∈ paramMap.keys, ¬placeholder k <:+: field))

/-- The patterns that are replaced, with what they are replaced by. -/
def patterns (params : List (Σ _ : Str, Str)) : List (Str × Str) :=
  (named params).map fun e => (placeholder e.1, e.2)

theorem foldl_replaceParam_patterns (params : List (Σ _ : Str, Str)) (field : Str) :
    params.foldl replaceParam field =
      (patterns params).foldl (fun s e => Go.replaceAll s e.1 e.2) field := by
  rw [foldl_replaceParam, patterns, List.foldl_map]

/-- **No placeholder of a parameter arises in a string**: no part of it becomes one when
placeholders in it are replaced by their values. That of the empty name, which is passed over,
is not in it at all. -/
def Unjoinable (paramMap : StrMap) (field : Str) : Prop :=
  ∀ k ∈ paramMap.keys, ¬Arises (patterns paramMap.entries) (placeholder k) field ∧
    (k = [] → ¬placeholder k <:+: field)

theorem capped_placeholder (name : Str) : Capped caret (placeholder name) where
  head := by
    unfold placeholder
    rw [List.append_assoc, List.head?_append]
    rfl
  last := by
    unfold placeholder
    rw [List.getLast?_append]
    rfl

theorem delimiter_infix_placeholder (name : Str) : delimiter <:+: placeholder name :=
  ⟨[], name ++ delimiter, by simp [placeholder]⟩

theorem capped_of_mem_patterns {params : List (Σ _ : Str, Str)}
    (hfree : ∀ e ∈ params, caret ∉ e.1 ∧ caret ∉ e.2) {e : Str × Str} (he : e ∈ patterns params) :
    Capped caret e.1 ∧ caret ∉ e.2 := by
  obtain ⟨param, hparam, rfl⟩ := List.mem_map.mp he
  exact ⟨capped_placeholder param.1, (hfree param (List.mem_filter.mp hparam).1).2⟩

theorem mem_patterns_of_perm {params params' : List (Σ _ : Str, Str)} (h : params.Perm params')
    {e : Str × Str} (he : e ∈ patterns params) : e ∈ patterns params' :=
  ((h.filter _).map _).mem_iff.mp he

/-- **The replacement of a string leaves no placeholder where none can arise**, whatever the
order of the parameters. -/
theorem not_infix_replaceParamPlaceholders {paramMap : StrMap} {field : Str}
    (hfree : CaretFree paramMap) (h : Unjoinable paramMap field) (o : RangeOrder) {k : Str}
    (hk : k ∈ paramMap.keys) : ¬placeholder k <:+: replaceParamPlaceholders o field paramMap := by
  unfold replaceParamPlaceholders
  split_ifs with hnil hno
  · exact fun hinf => placeholder_ne_nil k (List.infix_nil.mp hinf)
  · simp only [Go.contains, Bool.not_eq_true', decide_eq_false_iff_not] at hno
    exact fun hinf => hno ((delimiter_infix_placeholder k).trans hinf)
  · intro hinf
    have hperm := o.visit_perm paramMap
    rw [foldl_replaceParam_patterns] at hinf
    have hcapped : ∀ e ∈ patterns (o.visit paramMap), Capped caret e.1 ∧ caret ∉ e.2 :=
      fun e he => capped_of_mem_patterns hfree (mem_patterns_of_perm hperm he)
    rcases Go.arises_of_infix_foldl_replaceAll _ hcapped (capped_placeholder k) hinf with
      ⟨w, hw, hsteps⟩ | ⟨hthere, hne⟩
    · refine (h k hk).1 ⟨w, hw, hsteps.lift id ?_⟩
      rintro _ _ ⟨e, he, hstep⟩
      exact ⟨e, mem_patterns_of_perm hperm he, hstep⟩
    · -- it was there, and so is the placeholder of no name that was looked for
      by_cases hname : k = []
      · exact (h k hk).2 hname hthere
      · obtain ⟨e, he, rfl⟩ := List.mem_map.mp (show k ∈ paramMap.entries.map Sigma.fst from hk)
        refine hne (placeholder e.1, e.2) ?_ rfl
        refine mem_patterns_of_perm hperm.symm (List.mem_map.mpr ⟨e, ?_, rfl⟩)
        exact List.mem_filter.mpr ⟨he, by simpa using hname⟩

/-- The texts on the two sides of an empty value join to the placeholder of a parameter that
was looked for before. -/
example : replaceParamPlaceholders .listed (Go.str "^_^ho^_^a^_^st^_^")
    (twoParams "a" "" "host" "db1") = Go.str "^_^host^_^" := rfl

theorem count_caret_placeholder (name : Str) : 4 ≤ (placeholder name).count caret := by
  unfold placeholder
  rw [List.count_append, List.count_append]
  have hdelim : delimiter.count caret = 2 := by decide
  omega

/-- A string with at most one placeholder in it, and no other caret, lets none arise. -/
theorem unjoinable_of_count_lt {paramMap : StrMap} {field : Str} (hfree : CaretFree paramMap)
    (hname : [] ∉ paramMap.keys) (h : field.count caret < 8) : Unjoinable paramMap field := by
  intro k hk
  refine ⟨?_, fun hnil => absurd (hnil ▸ hk) hname⟩
  have hcount := count_caret_placeholder k
  refine @Go.not_arises_of_count_lt _ caret _ _ _ _ 4 (fun e he => ?_) (by omega)
  obtain ⟨param, hparam, rfl⟩ := List.mem_map.mp he
  exact ⟨count_caret_placeholder param.1, (hfree param (List.mem_filter.mp hparam).1).2⟩

end Replacer

/-! ### What the collectors read -/

/-- The strings of an SSH tunnel that are replaced. -/
def SSHTunnel.replaced (tunnel : SSHTunnel) : List Str :=
  [tunnel.host, tunnel.port, tunnel.username, tunnel.password]

/-- The one that is not. -/
def SSHTunnel.kept (tunnel : SSHTunnel) : List Str := [tunnel.enable]

/-- The strings of an SSH tunnel that are read. -/
def SSHTunnel.reads (tunnel : SSHTunnel) : List Str := tunnel.kept ++ tunnel.replaced

/-- The strings of an authorization that are read. -/
def Authorization.reads (auth : Authorization) : List Str :=
  [auth.type, auth.basicAuthUsername, auth.basicAuthPassword, auth.digestAuthUsername,
    auth.digestAuthPassword, auth.bearerTokenToken]

/-- The strings of an SSH configuration that are read. -/
def SSHProtocol.reads (ssh : SSHProtocol) : List Str :=
  [ssh.host, ssh.port, ssh.username, ssh.password, ssh.privateKey, ssh.script, ssh.parseType,
    ssh.timeout, ssh.useProxy, ssh.proxyHost, ssh.proxyPort, ssh.proxyUsername,
    ssh.proxyPassword, ssh.proxyPrivateKey]

/-- The strings that are read of a JDBC configuration itself. -/
def JDBCProtocol.strings {Ptr : Type → Type} (jdbc : JDBCProtocol Ptr) : List Str :=
  [jdbc.host, jdbc.port, jdbc.platform, jdbc.username, jdbc.password, jdbc.database,
    jdbc.timeout, jdbc.queryType, jdbc.sql, jdbc.url]

/-- The strings that are read of a Redis configuration itself. -/
def RedisProtocol.strings {Ptr : Type → Type} (redis : RedisProtocol Ptr) : List Str :=
  [redis.host, redis.port, redis.username, redis.password, redis.pattern, redis.timeout]

/-- The strings that are read of an HTTP configuration itself. -/
def HTTPProtocol.strings {Ptr : Type → Type} (http : HTTPProtocol Ptr) : List Str :=
  [http.url, http.method, http.body, http.parseScript, http.parseType, http.keyword,
    http.timeout, http.ssl]

/-- The strings of a Milvus configuration that are read. -/
def MilvusProtocol.reads (milvus : MilvusProtocol) : List Str :=
  [milvus.host, milvus.port, milvus.username, milvus.password, milvus.timeout]

namespace MetricsCollector

/-- The keys of a map. -/
def mapKeys (m : StrMap) : List Str := m.entries.map Sigma.fst

/-- The values of a map. -/
def mapValues (m : StrMap) : List Str := m.entries.map Sigma.snd

/-- **The strings that the collector of a protocol reads of its configuration.** -/
def Collector.reads (metrics : Metrics Option) : Collector → List Str
  | .http => metrics.http.elim [] fun http =>
      http.strings ++ (http.headers.elim [] mapKeys ++ http.params.elim [] mapKeys) ++
        (http.headers.elim [] mapValues ++ http.params.elim [] mapValues) ++
        http.authorization.elim [] Authorization.reads
  | .ssh => metrics.ssh.elim [] SSHProtocol.reads
  | .jdbc => metrics.jdbc.elim [] fun jdbc => jdbc.strings ++ jdbc.sshTunnel.elim [] SSHTunnel.reads
  | .redis => metrics.redis.elim [] fun redis =>
      redis.strings ++ redis.sshTunnel.elim [] SSHTunnel.reads
  | .milvus => metrics.milvus.elim [] MilvusProtocol.reads

/-- Those of them that the replacement leaves as they are. -/
def Collector.kept (metrics : Metrics Option) : Collector → List Str
  | .http => []
  | .ssh => []
  | .jdbc => metrics.jdbc.elim [] fun jdbc => jdbc.sshTunnel.elim [] SSHTunnel.kept
  | .redis => metrics.redis.elim [] fun redis => redis.sshTunnel.elim [] SSHTunnel.kept
  | .milvus => metrics.milvus.elim [] MilvusProtocol.reads

/-- Those of them that it replaces. The keys of the maps of an HTTP configuration are neither:
one that has a delimiter left is dropped. -/
def Collector.replaced (metrics : Metrics Option) : Collector → List Str
  | .http => metrics.http.elim [] fun http =>
      http.strings ++ (http.headers.elim [] mapValues ++ http.params.elim [] mapValues) ++
        http.authorization.elim [] Authorization.reads
  | .ssh => metrics.ssh.elim [] SSHProtocol.reads
  | .jdbc => metrics.jdbc.elim [] fun jdbc =>
      jdbc.strings ++ jdbc.sshTunnel.elim [] SSHTunnel.replaced
  | .redis => metrics.redis.elim [] fun redis =>
      redis.strings ++ redis.sshTunnel.elim [] SSHTunnel.replaced
  | .milvus => []

/-- A metric without the strings of its configurations that no collector reads. -/
def withoutUnread (metrics : Metrics Option) : Metrics Option :=
  { metrics with
    ssh := metrics.ssh.map fun ssh =>
      { ssh with privateKeyPassphrase := [], parseScript := [], reuseConnection := [] }
    jdbc := metrics.jdbc.map fun jdbc => { jdbc with reuseConnection := [] } }

/-- **The collectors read no other string**: each reads the same of a metric without them, and
returns the same. -/
theorem collect_withoutUnread {URL F Program : Type} (env : Env URL F Program)
    (metrics : Metrics Option) (collector : Collector) :
    collector.reads (withoutUnread metrics) = collector.reads metrics ∧
      collector.collect env (withoutUnread metrics) = collector.collect env metrics := by
  cases collector with
  | http => exact ⟨rfl, rfl⟩
  | ssh =>
    obtain ⟨ssh, hssh⟩ : ∃ ssh, metrics = { metrics with ssh := ssh } := ⟨metrics.ssh, rfl⟩
    rw [hssh]
    cases ssh <;> exact ⟨rfl, rfl⟩
  | jdbc =>
    obtain ⟨jdbc, hjdbc⟩ : ∃ jdbc, metrics = { metrics with jdbc := jdbc } := ⟨metrics.jdbc, rfl⟩
    rw [hjdbc]
    cases jdbc <;> exact ⟨rfl, rfl⟩
  | redis => exact ⟨rfl, rfl⟩
  | milvus => exact ⟨rfl, rfl⟩

/-! ### After the replacement -/

open Replacer

section

variable {paramMap : StrMap} {l l' : List Str}

theorem clean_nil : Clean paramMap [] := by
  intro field hfield
  exact absurd hfield (by simp)

theorem clean_append : Clean paramMap (l ++ l') ↔ Clean paramMap l ∧ Clean paramMap l' :=
  List.forall_mem_append

/-- What is read of a part that may be absent. -/
theorem clean_elim_map {α : Type} {part : Option α} {f : α → α} {reads : α → List Str}
    (h : ∀ a, part = some a → Clean paramMap (reads (f a))) :
    Clean paramMap ((part.map f).elim [] reads) := by
  cases part with
  | none => exact clean_nil
  | some a => exact h a rfl

variable (o : RangeOrder)

/-- Strings that are replaced one after the other, each with a call of its own. -/
theorem clean_map_replace (hfree : CaretFree paramMap) (calls : List ℕ)
    (h : ∀ field ∈ l, Unjoinable paramMap field) :
    Clean paramMap ((calls.zip l).map fun p =>
      replaceParamPlaceholders (o.at p.1) p.2 paramMap) := by
  intro field hfield k hk
  obtain ⟨p, hp, rfl⟩ := List.mem_map.mp hfield
  exact not_infix_replaceParamPlaceholders hfree (h p.2 (List.of_mem_zip hp).2) (o.at p.1) hk

/-- An entry of a map of an HTTP configuration after its replacement: the key has no delimiter
left, and the value is the replacement of one. -/
def ReplacedEntry (paramMap entries : StrMap) (e : Σ _ : Str, Str) : Prop :=
  ¬delimiter <:+: e.1 ∧ ∃ o, ∃ value ∈ mapValues entries,
    e.2 = replaceParamPlaceholders o value paramMap

theorem replacedEntry_of_mem (entries : StrMap) :
    ∀ e ∈ (replaceHTTPMap o entries paramMap).entries, ReplacedEntry paramMap entries e := by
  unfold replaceHTTPMap
  -- the loop inserts no other entries
  refine List.foldlRecOn (motive := fun new : StrMap => ∀ e ∈ new.entries,
    ReplacedEntry paramMap entries e) _ _ (fun e he => absurd he List.not_mem_nil)
    fun new hnew visited hvisited e he => ?_
  simp only at he
  split_ifs at he with hkey
  · rcases List.mem_cons.mp he with rfl | hold
    · refine ⟨by simpa [Go.contains] using hkey.2, (o.at 2).at visited.2, visited.1.2, ?_, rfl⟩
      have hmem := ((o.at 0).visit_perm entries).mem_iff.mp (List.fst_mem_of_mem_zipIdx hvisited)
      exact List.mem_map.mpr ⟨visited.1, hmem, rfl⟩
    · exact hnew e ((List.kerase_sublist _ _).subset hold)
  · exact hnew e he

theorem clean_mapKeys (entries : StrMap) :
    Clean paramMap (mapKeys (replaceHTTPMap o entries paramMap)) := by
  intro field hfield k hk hinf
  obtain ⟨e, he, rfl⟩ := List.mem_map.mp hfield
  exact (replacedEntry_of_mem o entries e he).1 ((delimiter_infix_placeholder k).trans hinf)

theorem clean_mapValues (hfree : CaretFree paramMap) {entries : StrMap}
    (h : ∀ field ∈ mapValues entries, Unjoinable paramMap field) :
    Clean paramMap (mapValues (replaceHTTPMap o entries paramMap)) := by
  intro field hfield k hk
  obtain ⟨e, he, rfl⟩ := List.mem_map.mp hfield
  obtain ⟨-, o', value, hvalue, heq⟩ := replacedEntry_of_mem o entries e he
  rw [heq]
  exact not_infix_replaceParamPlaceholders hfree (h value hvalue) o' hk

/-- A configuration with a tunnel is clean after the replacement when its own strings and the
`enable` of the tunnel are. -/
theorem clean_append_tunnel (hfree : CaretFree paramMap) {tunnel : Option SSHTunnel}
    (hstrings : Clean paramMap l)
    (h : ∀ field ∈ tunnel.elim [] SSHTunnel.replaced, Unjoinable paramMap field)
    (hkept : Clean paramMap (tunnel.elim [] SSHTunnel.kept)) :
    Clean paramMap
      (l ++ (tunnel.map (replaceTunnelParams o · paramMap)).elim [] SSHTunnel.reads) := by
  refine clean_append.mpr ⟨hstrings, clean_elim_map fun tunnel heq => ?_⟩
  simp only [heq, Option.elim_some] at h hkept
  exact clean_append.mpr ⟨hkept, clean_map_replace o hfree [0, 1, 2, 3] h⟩

end

/-- **Where nothing can arise, what is read is clean after the replacement when what is kept
is.** -/
theorem clean_reads_of_unjoinable {paramMap : StrMap} (hfree : CaretFree paramMap)
    (o : RangeOrder) (metrics : Metrics Option) (collector : Collector)
    (h : ∀ field ∈ collector.replaced metrics, Unjoinable paramMap field)
    (hkept : Clean paramMap (collector.kept metrics)) :
    Clean paramMap (collector.reads (replaceMetricsParams o paramMap metrics)) := by
  cases collector with
  | http =>
    refine clean_elim_map fun http hhttp => ?_
    simp only [Collector.replaced, hhttp, Option.elim_some, List.forall_mem_append] at h
    obtain ⟨⟨hstrings, hheaders, hparams⟩, hauth⟩ := h
    simp only [clean_append]
    refine ⟨⟨⟨?_, ?_, ?_⟩, ?_, ?_⟩, ?_⟩
    · exact clean_map_replace (o.at 2) hfree [0, 1, 2, 3, 4, 5, 6, 7] hstrings
    · exact clean_elim_map fun headers _ => clean_mapKeys _ headers
    · exact clean_elim_map fun params _ => clean_mapKeys _ params
    · refine clean_elim_map fun headers heq => ?_
      simp only [heq, Option.elim_some] at hheaders
      exact clean_mapValues _ hfree hheaders
    · refine clean_elim_map fun params heq => ?_
      simp only [heq, Option.elim_some] at hparams
      exact clean_mapValues _ hfree hparams
    · refine clean_elim_map fun auth heq => ?_
      simp only [heq, Option.elim_some] at hauth
      exact clean_map_replace ((o.at 2).at 10) hfree [0, 1, 2, 3, 4, 5] hauth
  | ssh =>
    refine clean_elim_map fun ssh hssh => ?_
    simp only [Collector.replaced, hssh, Option.elim_some] at h
    exact clean_map_replace (o.at 1) hfree [0, 1, 2, 3, 4, 6, 7, 9, 11, 12, 13, 14, 15, 16] h
  | jdbc =>
    refine clean_elim_map fun jdbc hjdbc => ?_
    simp only [Collector.replaced, hjdbc, Option.elim_some, List.forall_mem_append] at h
    simp only [Collector.kept, hjdbc, Option.elim_some] at hkept
    have hstrings := clean_map_replace (o.at 0) hfree [0, 1, 2, 3, 4, 5, 6, 7, 8, 9] h.1
    exact clean_append_tunnel _ hfree hstrings h.2 hkept
  | redis =>
    refine clean_elim_map fun redis hredis => ?_
    simp only [Collector.replaced, hredis, Option.elim_some, List.forall_mem_append] at h
    simp only [Collector.kept, hredis, Option.elim_some] at hkept
    have hstrings := clean_map_replace (o.at 3) hfree [0, 1, 2, 3, 4, 5] h.1
    exact clean_append_tunnel _ hfree hstrings h.2 hkept
  | milvus => exact hkept

/-- The `enable` of a tunnel is read as it is. -/
theorem kept_tunnel_subset (o : RangeOrder) (paramMap : StrMap) (tunnel : Option SSHTunnel)
    (l : List Str) :
    tunnel.elim [] SSHTunnel.kept ⊆
      l ++ (tunnel.map (replaceTunnelParams o · paramMap)).elim [] SSHTunnel.reads := by
  intro field hfield
  cases tunnel with
  | none => exact absurd hfield List.not_mem_nil
  | some tunnel =>
    obtain rfl := List.mem_singleton.mp hfield
    exact List.mem_append_right l List.mem_cons_self

/-- So is all that is kept. -/
theorem kept_subset_reads (o : RangeOrder) (paramMap : StrMap) (metrics : Metrics Option)
    (collector : Collector) :
    collector.kept metrics ⊆ collector.reads (replaceMetricsParams o paramMap metrics) := by
  cases collector with
  | http => exact List.nil_subset _
  | ssh => exact List.nil_subset _
  | jdbc =>
    cases hjdbc : metrics.jdbc with
    | none => simp [Collector.kept, hjdbc]
    | some jdbc =>
      simp only [Collector.kept, Collector.reads, replaceMetricsParams, replaceProtocols, hjdbc]
      exact kept_tunnel_subset _ paramMap jdbc.sshTunnel _
  | redis =>
    cases hredis : metrics.redis with
    | none => simp [Collector.kept, hredis]
    | some redis =>
      simp only [Collector.kept, Collector.reads, replaceMetricsParams, replaceProtocols, hredis]
      exact kept_tunnel_subset _ paramMap redis.sshTunnel _
  | milvus => exact fun _ h => h

/-- **The placeholders that reach a collector are those in the fields that are kept**, where
none can arise in the others: then what it reads has no placeholder of a parameter exactly
when they have none. That they have none is needed in any case. -/
theorem clean_reads_replaceMetricsParams {paramMap : StrMap} (hfree : CaretFree paramMap)
    (o : RangeOrder) (metrics : Metrics Option) (collector : Collector) :
    (Clean paramMap (collector.reads (replaceMetricsParams o paramMap metrics)) →
        Clean paramMap (collector.kept metrics)) ∧
      ((∀ field ∈ collector.replaced metrics, Unjoinable paramMap field) →
        Clean paramMap (collector.kept metrics) →
        Clean paramMap (collector.reads (replaceMetricsParams o paramMap metrics))) := by
  refine ⟨fun hreads field hfield => ?_, clean_reads_of_unjoinable hfree o metrics collector⟩
  exact hreads field (kept_subset_reads o paramMap metrics collector hfield)

/-- The metric of a database behind an SSH tunnel. -/
def tunnelled (enable : String) : Metrics Option :=
  { Metrics.bare (Go.str "basic") (Go.str "jdbc") with
    jdbc := some
      { host := Go.str "^_^host^_^", password := Go.str "^_^password^_^"
        platform := Go.str "mysql"
        sshTunnel := some { enable := Go.str enable, host := Go.str "^_^sshHost^_^" } } }

/-- With the tunnel turned on, nothing but values reaches the collector; one of them is
empty. -/
theorem clean_reads_tunnelled_true :
    Clean (twoParams "host" "db1" "password" "")
      (Collector.reads (replaceMetricsParams .listed (twoParams "host" "db1" "password" "")
        (tunnelled "true")) .jdbc) := by
  have hfree : CaretFree (twoParams "host" "db1" "password" "") := by decide
  refine (clean_reads_replaceMetricsParams hfree .listed (tunnelled "true") .jdbc).2
    (fun field hfield => ?_) (by decide)
  have hcount : ∀ field ∈ Collector.replaced (tunnelled "true") .jdbc, field.count caret < 8 := by
    decide
  exact unjoinable_of_count_lt hfree (by decide) (hcount field hfield)

/-- **Whether there is a tunnel cannot be a parameter**: the collector is given the
placeholder, and reads it as no. -/
theorem not_clean_reads_tunnelled_parameter :
    ¬Clean (twoParams "host" "db1" "enableSshTunnel" "true")
      (Collector.reads (replaceMetricsParams .listed
        (twoParams "host" "db1" "enableSshTunnel" "true") (tunnelled "^_^enableSshTunnel^_^"))
        .jdbc) := by
  decide

end MetricsCollector

end HertzBeat
