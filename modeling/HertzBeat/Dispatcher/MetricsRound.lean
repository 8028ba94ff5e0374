import HertzBeat.Collect.SecondPass
import HertzBeat.Dispatcher.MetricsTask
import HertzBeat.Dispatcher.PriorMetrics

/-!
# What a round collects

`DispatchMetricsTask` of `internal/job/dispatcher/common_dispatcher.go` up to the point where the
collections are started. It lets `ConstructPriorMetrics` select the metrics that are to be
collected, and then collects what `NextCollectMetrics` returns, which is every metric of the job.
The parameters are replaced in a copy of the job, and for each metric the metric of the copy is
looked for by its name.

* `HertzBeat.Job.collects_selected_iff` – when the metrics that are collected are those that were
  selected.
* `HertzBeat.Job.collects_own_iff` – when each metric is collected with its own configuration:
  exactly when the names are different.
-/

namespace HertzBeat

open Go (Str StrMap RangeOrder)

/-! ### The round -/

/-- `NextCollectMetrics`: the pointers to the metrics of the job, each with what it leads to. -/
def Job.nextCollectMetrics (job : Job) : List (ℕ × Metrics Option) :=
  ((job.metrics.getD []).zipIdx).map Prod.swap

/-- The pointer to the first metric of the processed job that has the name. -/
def findProcessed (processedJob : Job) (name : Str) : Option ℕ :=
  (processedJob.metrics.getD []).findIdx? (·.name = name)

/-- A round whose collections are started. -/
structure MetricsRound where
  job : Job
  processedJob : Job
  /-- For each metric to collect the metric of the processed job that `CollectMetrics` is called
  with. A metric that is not found there is left out. -/
  calls : List (Option ℕ)

/-- The part of **`DispatchMetricsTask`** that starts the collections. If the job has no metrics, it
returns before the parameters are replaced; there is no call then anyway. -/
def Job.metricsRound (o : GroupOrder) (order : RangeOrder) (slice : ℕ) (now : ℤ) (job : Job) :
    MetricsRound :=
  let job := job.constructPriorMetrics o slice now
  let metricsToCollect := job.nextCollectMetrics
  let processedJob := Replacer.replaceJobParams order job
  { job := job
    processedJob := processedJob
    calls := metricsToCollect.map fun m => findProcessed processedJob m.2.name }

/-- The metrics that are handed to the collector. -/
def MetricsRound.handed (round : MetricsRound) : List ℕ := round.calls.filterMap id

/-- The positions of the metrics in `PriorMetrics`. -/
def Job.priorPositions (job : Job) : List ℕ :=
  ((job.priorMetrics.getD []).map fun group => (group.getD []).map MetricsPtr.index).flatten

/-! ### Positions of names -/

section Names

variable {α : Type} [BEq α] [LawfulBEq α] {l : List α}

theorem nodup_map_idxOf_iff : (l.map fun a => l.idxOf a).Nodup ↔ l.Nodup := by
  constructor
  · exact List.Nodup.of_map _
  · intro h
    exact h.map_on fun a ha b _ hab => (List.idxOf_inj ha).mp hab

theorem map_idxOf_eq_range_iff : (l.map fun a => l.idxOf a) = List.range l.length ↔ l.Nodup := by
  constructor
  · intro h
    rw [← nodup_map_idxOf_iff, h]
    exact List.nodup_range
  · intro h
    refine List.ext_getElem (by simp) fun i hi _ => ?_
    rw [List.getElem_map, List.getElem_range]
    exact h.idxOf_getElem i _

theorem map_idxOf_perm_range_iff :
    (l.map fun a => l.idxOf a).Perm (List.range l.length) ↔ l.Nodup := by
  constructor
  · intro h
    rw [← nodup_map_idxOf_iff, h.nodup_iff]
    exact List.nodup_range
  · intro h
    rw [map_idxOf_eq_range_iff.mpr h]

end Names

section

variable (o : GroupOrder) (order : RangeOrder) (slice : ℕ) (now : ℤ) (job : Job)

/-! ### What is called -/

/-- The names of the metrics of a job. -/
def Job.metricsNames (job : Job) : List Str := (job.metrics.getD []).map (·.name)

variable {job} in
theorem Job.metricsNames_getElem? {i : ℕ} {metric : Metrics Option}
    (h : (job.metrics.getD [])[i]? = some metric) : job.metricsNames[i]? = some metric.name := by
  rw [metricsNames, List.getElem?_map, h, Option.map_some]

/-- What is to be collected are all metrics. -/
theorem Job.map_snd_nextCollectMetrics :
    job.nextCollectMetrics.map Prod.snd = job.metrics.getD [] := by
  rw [nextCollectMetrics, List.map_map]
  exact List.zipIdx_map_fst 0 (job.metrics.getD [])

theorem Job.map_fst_nextCollectMetrics :
    job.nextCollectMetrics.map Prod.fst = List.range job.metricsNames.length := by
  rw [nextCollectMetrics, List.map_map, metricsNames, List.length_map, List.range_eq_range']
  exact List.zipIdx_map_snd 0 (job.metrics.getD [])

theorem Job.metricsNames_constructPriorMetrics :
    (job.constructPriorMetrics o slice now).metricsNames = job.metricsNames := by
  rw [metricsNames, metrics_constructPriorMetrics]
  exact selectMetrics_map fun _ _ _ => rfl

theorem Replacer.metrics_replaceJobParams :
    (replaceJobParams order job).metrics.getD [] = (job.metrics.getD []).zipIdx.map fun m =>
      replaceMetricsParams (order.at m.2) (createParamMapSimple (job.configmap.getD [])) m.1 := by
  change (job.metrics.map _).getD [] = _
  cases job.metrics <;> rfl

/-- The name of a metric is not replaced. -/
theorem Replacer.metricsNames_replaceJobParams :
    (replaceJobParams order job).metricsNames = job.metricsNames := by
  rw [Job.metricsNames, metrics_replaceJobParams, List.map_map, Job.metricsNames]
  conv_rhs => rw [← List.zipIdx_map_fst 0 (job.metrics.getD []), List.map_map]
  rfl

theorem findProcessed_eq {name : Str} (h : name ∈ job.metricsNames) :
    findProcessed job name = some (job.metricsNames.idxOf name) := by
  have hidx : job.metricsNames.idxOf name = (job.metrics.getD []).findIdx (·.name = name) := by
    rw [List.idxOf, Job.metricsNames, List.findIdx_map]
    congr 1
    funext metric
    rw [Function.comp_apply, Bool.beq_eq_decide_eq]
  have hlt : job.metricsNames.idxOf name < (job.metrics.getD []).length := by
    simpa [Job.metricsNames] using List.idxOf_lt_length_of_mem h
  rw [findProcessed, List.findIdx?_eq_some_iff_findIdx_eq]
  exact ⟨hlt, hidx.symm⟩

theorem Job.calls_metricsRound :
    (job.metricsRound o order slice now).calls =
      job.metricsNames.map fun name => some (job.metricsNames.idxOf name) := by
  have hselected := job.metricsNames_constructPriorMetrics o slice now
  have hprocessed :=
    Replacer.metricsNames_replaceJobParams order (job.constructPriorMetrics o slice now)
  have hcalls : (job.metricsRound o order slice now).calls =
      (job.constructPriorMetrics o slice now).metricsNames.map (findProcessed
        (Replacer.replaceJobParams order (job.constructPriorMetrics o slice now))) := by
    rw [metricsNames, ← map_snd_nextCollectMetrics, List.map_map, List.map_map]
    rfl
  rw [hcalls, hselected]
  refine List.map_congr_left fun name hname => ?_
  rw [findProcessed_eq _ (hprocessed ▸ hselected ▸ hname), hprocessed, hselected]

theorem Job.handed_metricsRound :
    (job.metricsRound o order slice now).handed =
      job.metricsNames.map fun name => job.metricsNames.idxOf name := by
  rw [MetricsRound.handed, calls_metricsRound, List.filterMap_map]
  exact congrFun List.filterMap_eq_map _

/-- The metric at a position is handed over if it is the first one of its name. -/
theorem Job.mem_handed_metricsRound {i : ℕ} {metric : Metrics Option}
    (h : (job.metrics.getD [])[i]? = some metric) :
    i ∈ (job.metricsRound o order slice now).handed ↔
      job.metricsNames.idxOf metric.name = i := by
  have hname := metricsNames_getElem? h
  rw [handed_metricsRound, List.mem_map]
  constructor
  · rintro ⟨name, hmem, rfl⟩
    have hget := List.getElem?_idxOf hmem
    rw [hname] at hget
    rw [Option.some.inj hget]
  · intro hidx
    exact ⟨metric.name, List.mem_of_getElem? hname, hidx⟩

end

/-! ### What is selected -/

section

variable {now : ℤ} {metrics : List (Metrics Option)}

theorem Job.priorPositions_constructPriorMetrics (o : GroupOrder) (slice : ℕ) (now : ℤ)
    (job : Job) :
    (job.constructPriorMetrics o slice now).priorPositions =
      (sortGroups o (selectMetrics now (job.metrics.getD []))).flatten := by
  change (((sortGroups o (selectMetrics now (job.metrics.getD []))).map (groupPtrs slice)).map
    fun group => (group.getD []).map MetricsPtr.index).flatten = _
  rw [List.map_map]
  conv_rhs => rw [← List.map_id (sortGroups o (selectMetrics now (job.metrics.getD [])))]
  refine congrArg List.flatten (List.map_congr_left fun group _ => ?_)
  change (group.map (MetricsPtr.mk slice)).map MetricsPtr.index = group
  rw [List.map_map]
  exact List.map_id group

theorem nodup_selectedPositions : (selectedPositions now metrics).Nodup := by
  rw [selectedPositions]
  split_ifs
  · cases metrics.findIdx? (·.priority = 0) <;> simp
  · have hsub : (duePositions now metrics).Sublist (metrics.zipIdx.map Prod.snd) :=
      List.filter_sublist.map _
    rw [List.zipIdx_map_snd] at hsub
    exact hsub.nodup List.nodup_range'

theorem duePositions_perm_range_iff :
    (duePositions now metrics).Perm (List.range metrics.length) ↔
      ∀ metric ∈ metrics, metric.due now := by
  constructor
  · intro hperm metric hmem
    obtain ⟨i, hi⟩ := List.mem_iff_getElem?.mp hmem
    have hlt : i ∈ List.range metrics.length :=
      List.mem_range.mpr (List.getElem?_eq_some_iff.mp hi).1
    obtain ⟨metric', hi', hdue⟩ := mem_duePositions.mp (hperm.mem_iff.mpr hlt)
    rw [hi] at hi'
    exact Option.some.inj hi' ▸ hdue
  · intro hall
    have hfilter : metrics.zipIdx.filter (·.1.due now) = metrics.zipIdx :=
      List.filter_eq_self.mpr fun p hp => hall p.1 (List.fst_mem_of_mem_zipIdx hp)
    rw [duePositions, hfilter, List.zipIdx_map_snd, ← List.range_eq_range']

/-- The first metric of priority 0 is all there is. -/
theorem findIdx?_perm_range_iff :
    (metrics.findIdx? (·.priority = 0)).toList.Perm (List.range metrics.length) ↔
      metrics = [] ∨ ∃ metric, metrics = [metric] ∧ metric.priority = 0 := by
  constructor
  · intro hperm
    cases hi : metrics.findIdx? (·.priority = 0) with
    | none =>
      have hlen : metrics.length = 0 := by simpa [hi] using hperm.length_eq.symm
      exact Or.inl (List.length_eq_zero_iff.mp hlen)
    | some i =>
      have hlen : metrics.length = 1 := by simpa [hi] using hperm.length_eq.symm
      obtain ⟨metric, rfl⟩ := List.length_eq_one_iff.mp hlen
      refine Or.inr ⟨metric, rfl, ?_⟩
      by_contra hpriority
      simp [hpriority] at hi
  · rintro (rfl | ⟨metric, rfl, hpriority⟩)
    · rfl
    · simp [hpriority]

/-- **All metrics are selected** if all are due, or if there is one only, of priority 0. -/
theorem selectedPositions_perm_range_iff :
    (selectedPositions now metrics).Perm (List.range metrics.length) ↔
      (∀ metric ∈ metrics, metric.due now) ∨
        ∃ metric, metrics = [metric] ∧ metric.priority = 0 := by
  by_cases hnil : duePositions now metrics = []
  · rw [selectedPositions, if_pos hnil, findIdx?_perm_range_iff]
    refine or_congr_left ⟨?_, fun hall => ?_⟩
    · rintro rfl metric hmem
      exact absurd hmem List.not_mem_nil
    · exact List.eq_nil_iff_forall_not_mem.mpr fun metric hmem =>
        not_due_of_duePositions_eq_nil hnil hmem (hall metric hmem)
  · rw [selectedPositions, if_neg hnil, duePositions_perm_range_iff]
    -- a single metric is the one that is due
    refine (or_iff_left_of_imp ?_).symm
    rintro ⟨metric, rfl, -⟩ m hm
    obtain ⟨i, hi⟩ := List.exists_mem_of_ne_nil _ hnil
    obtain ⟨metric', hi', hdue⟩ := mem_duePositions.mp hi
    rw [List.mem_singleton.mp hm, ← List.mem_singleton.mp (List.mem_of_getElem? hi')]
    exact hdue

end

/-! ### The round as a whole -/

section

variable (o : GroupOrder) (order : RangeOrder) (slice : ℕ) (now : ℤ) (job : Job)

/-- **When a round collects what was selected**: each metric of `PriorMetrics` once and no other,
exactly when the names are different and all metrics are selected. In any case the first metric of
each name is collected, whether it is due or not. -/
theorem Job.collects_selected_iff :
    ((job.metricsRound o order slice now).handed.Perm
        (job.metricsRound o order slice now).job.priorPositions ↔
      job.metricsNames.Nodup ∧
        ((∀ metric ∈ job.metrics.getD [], metric.due now) ∨
          ∃ metric, job.metrics.getD [] = [metric] ∧ metric.priority = 0)) ∧
      ((∀ i metric, (job.metrics.getD [])[i]? = some metric →
          i ∈ (job.metricsRound o order slice now).handed → metric.due now) ↔
        ∀ i metric, (job.metrics.getD [])[i]? = some metric →
          job.metricsNames.idxOf metric.name = i → metric.due now) := by
  constructor
  · have hlen : job.metricsNames.length = (job.metrics.getD []).length := List.length_map _
    have hprior : (job.metricsRound o order slice now).job.priorPositions.Perm
        (selectedPositions now (job.metrics.getD [])) := by
      have hpositions := job.priorPositions_constructPriorMetrics o slice now
      exact hpositions ▸ flatten_sortGroups o now (job.metrics.getD [])
    rw [handed_metricsRound, ← selectedPositions_perm_range_iff, ← hlen]
    constructor
    · intro hperm
      have hselected := hperm.trans hprior
      have hnodup : job.metricsNames.Nodup :=
        nodup_map_idxOf_iff.mp (hselected.nodup_iff.mpr nodup_selectedPositions)
      exact ⟨hnodup, hselected.symm.trans (map_idxOf_perm_range_iff.mpr hnodup)⟩
    · rintro ⟨hnodup, hall⟩
      exact (map_idxOf_perm_range_iff.mpr hnodup).trans (hall.symm.trans hprior.symm)
  · refine forall_congr' fun i => forall_congr' fun metric => forall_congr' fun h => ?_
    rw [mem_handed_metricsRound o order slice now job h]

/-- A job with two metrics that were collected at the same time. The one is to be collected every
minute, the other every ten. -/
def twoMetrics (name name' : String) : Job :=
  { Job.bare 7 true 60 with
    metrics := some
      [{ Metrics.bare (Go.str name) (Go.str "http") with
          collectTime := 1700000000000, interval := 60 },
        { Metrics.bare (Go.str name') (Go.str "http") with
          collectTime := 1700000000000, interval := 600 }] }

/-- **A metric is collected before its interval has elapsed**: after a minute the first metric alone
is selected, and both are collected. -/
theorem twoMetrics_not_collects_selected :
    ((twoMetrics "cpu" "disk").metricsRound ⟨.listed _ _, .insertion _⟩ .listed 0
        1700000060000).job.priorPositions = [0] ∧
      ((twoMetrics "cpu" "disk").metricsRound ⟨.listed _ _, .insertion _⟩ .listed 0
        1700000060000).handed = [0, 1] := by
  constructor <;> rfl

/-- **When each metric is collected with its own configuration.** The call for a metric is made with
the replaced version of the first metric of its name. So each call is made with the replaced version
of its own metric exactly when the names are different; it is the same for the metrics to be
collected once each, and for the calls to share no metric. -/
theorem Job.collects_own_iff :
    (∀ (i : ℕ) (metric : Metrics Option),
        ((job.metricsRound o order slice now).job.metrics.getD [])[i]? = some metric →
      ∃ first : Metrics Option, ((job.metricsRound o order slice now).job.metrics.getD [])[
            job.metricsNames.idxOf metric.name]? = some first ∧
          (job.metricsRound o order slice now).calls[i]? =
            some (some (job.metricsNames.idxOf metric.name)) ∧
          ((job.metricsRound o order slice now).processedJob.metrics.getD [])[
              job.metricsNames.idxOf metric.name]? =
            some (Replacer.replaceMetricsParams (order.at (job.metricsNames.idxOf metric.name))
              (Replacer.createParamMapSimple (job.configmap.getD [])) first)) ∧
      ((job.metricsRound o order slice now).calls =
          (job.metricsRound o order slice now).job.nextCollectMetrics.map (fun m => some m.1) ↔
        job.metricsNames.Nodup) ∧
      ((job.metricsRound o order slice now).handed.Perm
          ((job.metricsRound o order slice now).job.nextCollectMetrics.map Prod.fst) ↔
        job.metricsNames.Nodup) ∧
      ((job.metricsRound o order slice now).handed.Nodup ↔ job.metricsNames.Nodup) := by
  have hnames : (job.metricsRound o order slice now).job.metricsNames = job.metricsNames :=
    job.metricsNames_constructPriorMetrics o slice now
  have hpositions := (job.metricsRound o order slice now).job.map_fst_nextCollectMetrics
  have hcalls := job.calls_metricsRound o order slice now
  rw [hnames] at hpositions
  refine ⟨fun i metric hmetric => ?_, ?_, ?_, ?_⟩
  · have hname : job.metricsNames[i]? = some metric.name :=
      hnames ▸ metricsNames_getElem? hmetric
    have hlt := List.idxOf_lt_length_of_mem (List.mem_of_getElem? hname)
    rw [← hnames, metricsNames, List.length_map, ← metricsNames, hnames] at hlt
    refine ⟨_, List.getElem?_eq_getElem hlt, ?_, ?_⟩
    · rw [hcalls, List.getElem?_map, hname, Option.map_some]
    · have hprocessed : (job.metricsRound o order slice now).processedJob.metrics.getD [] = _ :=
        Replacer.metrics_replaceJobParams order (job.metricsRound o order slice now).job
      rw [hprocessed, List.getElem?_map, List.getElem?_zipIdx, List.getElem?_eq_getElem hlt,
        Option.map_some, Option.map_some, Nat.zero_add]
      rfl
  · have hsome : (job.metricsRound o order slice now).job.nextCollectMetrics.map
        (fun m => some m.1) = (List.range job.metricsNames.length).map some := by
      rw [← hpositions, List.map_map]
      rfl
    have hidx : (job.metricsRound o order slice now).calls =
        (job.metricsNames.map fun name => job.metricsNames.idxOf name).map some := by
      rw [hcalls, List.map_map]
      rfl
    rw [hsome, hidx, (List.map_injective_iff.mpr (Option.some_injective _)).eq_iff]
    exact map_idxOf_eq_range_iff
  · rw [handed_metricsRound, hpositions]
    exact map_idxOf_perm_range_iff
  · rw [handed_metricsRound]
    exact nodup_map_idxOf_iff

/-- **Of two metrics of one name the first is collected twice**, and the second not at all. -/
theorem twoMetrics_not_collects_own :
    ((twoMetrics "disk" "disk").metricsRound ⟨.listed _ _, .insertion _⟩ .listed 0
        1700000060000).calls = [some 0, some 0] := by
  rfl

end

end HertzBeat
