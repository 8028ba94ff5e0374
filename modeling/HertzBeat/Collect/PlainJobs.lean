import HertzBeat.Collect.SecondPass
import Mathlib.Data.Option.Basic
import Mathlib.Data.List.Forall2

/-!
# Jobs without placeholders

A job that has no placeholder in it should come out of `ReplaceJobParams` as it went in. The
replacement itself leaves such a job alone: a string without a delimiter stays, and a map whose
keys are not empty gets the entries it had. But `Clone` copies the job field by field, and leaves
eight fields out: what comes out has their zero values,
`HertzBeat.Replacer.replaceJobParams_same`.

Two jobs are compared field by field, and maps by what they have for each key. The job here is a
tree. Since nothing that is written changes, it makes no difference whether its metrics share
records.
-/

namespace HertzBeat

open Go (Str StrMap RangeOrder)

/-! ### Equal jobs -/

/-- **The two metrics are equal in every field.** -/
structure Metrics.Same (m m' : Metrics Option) : Prop where
  http : m.http.map HTTPProtocol.content = m'.http.map HTTPProtocol.content
  configMap : m.configMap.map (fun c => c.lookup) = m'.configMap.map fun c => c.lookup
  /-- All other fields. -/
  rest : { m with http := none, configMap := none } = { m' with http := none, configMap := none }

/-- **The two jobs are equal in every field.** -/
structure Job.Same (job job' : Job) : Prop where
  metrics : Option.Rel (List.Forall₂ Metrics.Same) job.metrics job'.metrics
  /-- All other fields. -/
  rest : { job with metrics := none } = { job' with metrics := none }

/-! ### Jobs without placeholders -/

/-- The strings of the basic fields of a metric and of its protocol configurations that are
replaced, but for the keys of maps. -/
def Metrics.templates (m : Metrics Option) : List Str :=
  m.jdbc.elim [] (fun jdbc => jdbc.replaced ++ jdbc.sshTunnel.elim [] SSHTunnel.replaced) ++
    m.ssh.elim [] SSHProtocol.strings ++
    m.http.elim [] (fun http => http.strings ++ http.headers.elim [] MetricsCollector.mapValues ++
      http.params.elim [] MetricsCollector.mapValues ++
      http.authorization.elim [] Authorization.reads) ++
    m.redis.elim [] (fun redis => redis.strings ++ redis.sshTunnel.elim [] SSHTunnel.replaced) ++
    m.basic

/-- **The metric has no placeholder**: none of the strings that are replaced has a delimiter in it,
and the keys of the headers and of the params have none and are not empty. -/
structure Metrics.Plain (m : Metrics Option) : Prop where
  templates : ∀ s ∈ m.templates, ¬Replacer.delimiter <:+: s
  values : ∀ s ∈ m.configMap.elim [] MetricsCollector.mapValues, ¬Replacer.delimiter <:+: s
  keys : Replacer.KeepsKeys m

/-- No metric of the job has one. -/
def Job.Plain (job : Job) : Prop := ∀ m ∈ job.metrics.getD [], m.Plain

namespace Replacer

variable {paramMap : StrMap} {o : RangeOrder}

/-! ### The replacement of such a job -/

/-- Every call is given one of the strings. -/
def Among (strings : List Str) (calls : List (RangeOrder × Str)) : Prop :=
  ∀ call ∈ calls, call.2 ∈ strings

section

variable {strings strings' : List Str} {calls calls' : List (RangeOrder × Str)}

theorem Among.append (h : Among strings calls) (h' : Among strings' calls') :
    Among (strings ++ strings') (calls ++ calls') := by
  intro call hcall
  rcases List.mem_append.mp hcall with hcall | hcall
  · exact List.mem_append_left _ (h call hcall)
  · exact List.mem_append_right _ (h' call hcall)

theorem among_elim {α : Type} {part : Option α} {strings : α → List Str}
    {calls : α → List (RangeOrder × Str)} (h : ∀ a, Among (strings a) (calls a)) :
    Among (part.elim [] strings) (part.elim [] calls) := by
  cases part with
  | none => exact fun call hcall => absurd hcall List.not_mem_nil
  | some a => exact h a

theorem among_callsAt (ks : List ℕ) (fields : List Str) : Among fields (callsAt o ks fields) := by
  intro call hcall
  obtain ⟨p, hp, rfl⟩ := List.mem_map.mp hcall
  exact (List.of_mem_zip hp).2

theorem among_mapCalls (entries : StrMap) :
    Among (MetricsCollector.mapValues entries) (mapCalls o entries) := by
  intro call hcall
  obtain ⟨e, he, rfl⟩ := List.mem_map.mp hcall
  have hmem := ((o.at 0).visit_perm entries).mem_iff.mp (List.fst_mem_of_mem_zipIdx he)
  exact List.mem_map.mpr ⟨e.1, hmem, rfl⟩

/-- The strings that the calls of a pass are given are the templates of the metric. -/
theorem among_metricsCalls (m : Metrics Option) : Among m.templates (metricsCalls o m) := by
  have htunnel : ∀ o, ∀ tunnel : SSHTunnel, Among tunnel.replaced (tunnelCalls o tunnel) :=
    fun o tunnel => among_callsAt _ _
  refine (((Among.append ?_ ?_).append ?_).append ?_).append (among_callsAt _ m.basic)
  · exact among_elim fun jdbc => (among_callsAt _ _).append (among_elim (htunnel _))
  · exact among_elim fun ssh => among_callsAt _ _
  · exact among_elim fun http =>
      (((among_callsAt _ _).append (among_elim among_mapCalls)).append
        (among_elim among_mapCalls)).append (among_elim fun auth => among_callsAt _ _)
  · exact among_elim fun redis => (among_callsAt _ _).append (among_elim (htunnel _))

end

/-- **A metric without a placeholder stays as it is.** -/
theorem same_replaceMetricsParams {m : Metrics Option} (h : m.Plain) :
    (replaceMetricsParams o paramMap m).Same m := by
  have hfixed : Fixed paramMap (metricsCalls o m) := fun call hcall =>
    replaceParamPlaceholders_of_no_delimiter (h.templates _ (among_metricsCalls m call hcall)) _
  have hconfig := (config_replaceProtocols_iff h.keys).mpr hfixed
  rw [Metrics.config, Metrics.config, MetricsConfig.mk.injEq] at hconfig
  obtain ⟨hbasic, hhttp, hssh, hjdbc, hredis, -⟩ := hconfig
  refine ⟨hhttp, ?_, ?_⟩
  · cases hc : m.configMap with
    | none => simp [replaceMetricsParams, hc]
    | some configMap =>
      simp only [replaceMetricsParams, hc, Option.map_some]
      refine congrArg some (lookup_replaceConfigMap_iff.mpr fun e he => ?_)
      have hmem := ((((o.at 4).at 4).at 0).visit_perm configMap).mem_iff.mp
        (List.fst_mem_of_mem_zipIdx he)
      refine replaceParamPlaceholders_of_no_delimiter (h.values _ ?_) _
      rw [hc]
      exact List.mem_map.mpr ⟨e.1, hmem, rfl⟩
  · simp only [Metrics.basic, List.cons.injEq, and_true] at hbasic
    obtain ⟨hhost, hport, htimeout, hrange⟩ := hbasic
    congr 1

/-! ### What the clone leaves out -/

/-- The job without the fields that `Clone` does not copy. -/
def withoutUncloned (job : Job) : Job :=
  { job with
    isSd := false
    sd := false
    prometheusProxyMode := false
    cyclic := false
    interval := 0
    envConfigmaps := none
    dispatchTime := 0
    responseDataTemp := none }

/-- The fields that `Clone` does not copy have their zero values. -/
structure UnclonedZero (job : Job) : Prop where
  isSd : job.isSd = false
  sd : job.sd = false
  prometheusProxyMode : job.prometheusProxyMode = false
  cyclic : job.cyclic = false
  interval : job.interval = 0
  envConfigmaps : job.envConfigmaps = none
  dispatchTime : job.dispatchTime = 0
  responseDataTemp : job.responseDataTemp = none

theorem unclonedZero_iff {job : Job} : UnclonedZero job ↔ withoutUncloned job = job := by
  constructor
  · rintro ⟨h₁, h₂, h₃, h₄, h₅, h₆, h₇, h₈⟩
    cases job
    simp_all [withoutUncloned]
  · intro h
    rw [← h]
    exact ⟨rfl, rfl, rfl, rfl, rfl, rfl, rfl, rfl⟩

/-- The metrics of a job without placeholders come out as they are. -/
theorem same_metrics {job : Job} (h : job.Plain) :
    Option.Rel (List.Forall₂ Metrics.Same) (replaceJobParams o job).metrics job.metrics := by
  have hmetrics : (replaceJobParams o job).metrics = job.metrics.map fun ms =>
      ms.zipIdx.map fun m => replaceMetricsParams (o.at m.2)
        (createParamMapSimple (job.configmap.getD [])) m.1 := rfl
  rw [hmetrics]
  cases hms : job.metrics with
  | none => exact .none
  | some ms =>
    refine .some (List.forall₂_map_left_iff.mpr ?_)
    -- both sides are read off the list of the metrics with their positions
    conv_rhs => rw [← List.zipIdx_map_fst 0 ms]
    refine List.forall₂_map_right_iff.mpr (List.forall₂_same.mpr fun p hp => ?_)
    refine same_replaceMetricsParams (h p.1 ?_)
    rw [hms]
    exact List.fst_mem_of_mem_zipIdx hp

/-- **A job without placeholders** comes out as it is but for the fields that `Clone` does not copy;
so it comes out unchanged exactly if these have their zero values. -/
theorem replaceJobParams_same {job : Job} (h : job.Plain) :
    (replaceJobParams o job).Same (withoutUncloned job) ∧
      ((replaceJobParams o job).Same job ↔ UnclonedZero job) := by
  have hsame : (replaceJobParams o job).Same (withoutUncloned job) := ⟨same_metrics h, rfl⟩
  refine ⟨hsame, fun hjob => ?_, fun hzero => ?_⟩
  · have hrest := hsame.rest.symm.trans hjob.rest
    rw [unclonedZero_iff]
    cases job
    simpa [withoutUncloned] using hrest
  · rw [unclonedZero_iff] at hzero
    rwa [hzero] at hsame

/-- A job with one metric, that is collected over HTTP. -/
def statusJob (cyclic : Bool) (interval : ℤ) : Job :=
  { Job.bare 7 true 60 with
    cyclic := cyclic
    interval := interval
    metrics := some [{ Metrics.bare (Go.str "status") (Go.str "http") with
      host := Go.str "example.org"
      http := some
        { url := Go.str "/status", method := Go.str "GET", params := none, authorization := none
          headers := some ((∅ : StrMap).insert (Go.str "Accept") (Go.str "text/html")) } }] }

theorem plain_statusJob (cyclic : Bool) (interval : ℤ) : (statusJob cyclic interval).Plain := by
  intro m hm
  obtain rfl := List.mem_singleton.mp hm
  refine ⟨by decide, fun s hs => absurd hs List.not_mem_nil, ?_⟩
  intro http hhttp
  cases hhttp
  refine ⟨fun headers hheaders => ?_, fun params hparams => absurd hparams (by simp)⟩
  cases hheaders
  unfold KeptKeys
  decide

theorem replaceJobParams_same_status :
    (statusJob false 0).Plain ∧ (replaceJobParams .listed (statusJob false 0)).Same
      (statusJob false 0) :=
  ⟨plain_statusJob false 0, (replaceJobParams_same (plain_statusJob false 0)).2.mpr
    ⟨rfl, rfl, rfl, rfl, rfl, rfl, rfl, rfl⟩⟩

/-- **The interval of a job is lost**, and that it is cyclic. -/
theorem not_replaceJobParams_same_status :
    (statusJob true 60).Plain ∧ (replaceJobParams .listed (statusJob true 60)).interval = 0 ∧
      (replaceJobParams .listed (statusJob true 60)).cyclic = false ∧
      ¬(replaceJobParams .listed (statusJob true 60)).Same (statusJob true 60) := by
  refine ⟨plain_statusJob true 60, rfl, rfl, fun h => ?_⟩
  have hinterval := congrArg JobOf.interval h.rest
  exact absurd hinterval (by decide)

end Replacer

end HertzBeat
