import HertzBeat.Lib.Groups
import HertzBeat.Types.CollectData

/-!
# The metrics of a round

`ConstructPriorMetrics` of `internal/types/job/job_types.go`, which selects the metrics of a job
that are to be collected in a round: those whose own interval has elapsed, grouped by their
priority, or else the first metric of priority 0. It marks what it selects with the time of the
round.

The groups are made in a map from priorities to lists of pointers, and sorted by the priorities of
the first metrics. A pointer leads into the job's slice of metrics; here it is a position in it.
`HertzBeat.Job.constructsPriorMetrics` says what comes out, whatever the order in which the map is
visited and however the groups are sorted.
-/

namespace HertzBeat

open Go (Str)

/-! ### Selecting -/

/-- The interval of the metric has elapsed, by the comparison of the source. -/
def Metrics.due (now : ℤ) (metric : Metrics Option) : Bool :=
  Go.wrap64 (metric.collectTime + Go.wrap64 (metric.interval * 1000)) ≤ now

/-- The metric has fields, and no aliases of them. -/
def Metrics.lacksAliases (metric : Metrics Option) : Bool :=
  metric.aliases = [] ∧ 0 < (metric.fields.getD []).length

/-- The names of the fields of a metric. -/
def Metrics.fieldNames (metric : Metrics Option) : List Str :=
  (metric.fields.getD []).map (·.field)

/-- A metric that is due is marked as collected, and gets aliases if it has none. -/
def Metrics.collectedAt (now : ℤ) (metric : Metrics Option) : Metrics Option :=
  { metric with
    collectTime := now
    aliasFields := if metric.lacksAliases then some metric.fieldNames else metric.aliasFields }

/-- The loop over the metrics, from the `i`-th on: the metrics afterwards, and the groups. -/
def collectDue (now : ℤ) : ℕ → List (Metrics Option) → Go.Map ℤ (List ℕ) →
    List (Metrics Option) × Go.Map ℤ (List ℕ)
  | _, [], groups => ([], groups)
  | i, metric :: metrics, groups =>
    if metric.due now then
      let rest := collectDue now (i + 1) metrics (Go.appendTo groups metric.priority i)
      (metric.collectedAt now :: rest.1, rest.2)
    else
      let rest := collectDue now (i + 1) metrics groups
      (metric :: rest.1, rest.2)

/-- What is done when no metric is due: the first of priority 0 is taken, if there is one. -/
def collectDefault (now : ℤ) (metrics : List (Metrics Option)) :
    List (Metrics Option) × Go.Map ℤ (List ℕ) :=
  match metrics.findIdx? (·.priority = 0) with
  -- that there is none is only logged
  | none => (metrics, ∅)
  | some i =>
    (metrics.modify i fun metric => { metric with collectTime := now },
      (∅ : Go.Map ℤ (List ℕ)).insert 0 [i])

/-- The metrics after the selection, and the groups that are selected. -/
def selectMetrics (now : ℤ) (metrics : List (Metrics Option)) :
    List (Metrics Option) × Go.Map ℤ (List ℕ) :=
  let due := collectDue now 0 metrics ∅
  if due.2.entries = [] then collectDefault now due.1 else due

/-! ### Sorting -/

/-- The priority of the metric at a position. -/
def priorityAt (metrics : List (Metrics Option)) (i : ℕ) : ℤ :=
  ((metrics[i]?).map (·.priority)).getD Go.maxInt

/-- The priority that a group is sorted by: that of its first metric. -/
def groupPriority (metrics : List (Metrics Option)) (group : List ℕ) : ℤ :=
  (group.head?.map (priorityAt metrics)).getD Go.maxInt

/-- What the source leaves open: the order in which the map of the groups is visited, and how they
are sorted. -/
structure GroupOrder where
  visit : Go.Visit ℤ (List ℕ)
  slice : Go.SliceSort (List ℕ)

/-- A group as it stands in `PriorMetrics`: the pointers into a slice of metrics. -/
def groupPtrs (slice : ℕ) (group : List ℕ) : Option (List MetricsPtr) :=
  some (group.map (MetricsPtr.mk slice))

/-- The groups of a selection, sorted. -/
def sortGroups (o : GroupOrder) (selected : List (Metrics Option) × Go.Map ℤ (List ℕ)) :
    List (List ℕ) :=
  o.slice.sort (fun g g' => groupPriority selected.1 g < groupPriority selected.1 g')
    ((o.visit.order selected.2).map Sigma.snd)

/-- **`ConstructPriorMetrics`**, of a job whose metrics are in the slice at an address. -/
def Job.constructPriorMetrics (o : GroupOrder) (slice : ℕ) (now : ℤ) (job : Job) : Job :=
  let selected := selectMetrics now (job.metrics.getD [])
  { job with
    metrics := job.metrics.map fun _ => selected.1
    priorMetrics := some ((sortGroups o selected).map (groupPtrs slice))
    envConfigmaps := some (job.envConfigmaps.getD ∅) }

/-! ### What is selected -/

/-- The positions of the metrics that are due. -/
def duePositions (now : ℤ) (metrics : List (Metrics Option)) : List ℕ :=
  (metrics.zipIdx.filter (·.1.due now)).map Prod.snd

/-- The positions of the metrics that are selected: those that are due, or else the first of
priority 0. -/
def selectedPositions (now : ℤ) (metrics : List (Metrics Option)) : List ℕ :=
  if duePositions now metrics = [] then (metrics.findIdx? (·.priority = 0)).toList
  else duePositions now metrics

/-- **What `ConstructPriorMetrics` is to do**: it leaves the groups `prior` of metrics. -/
structure ConstructsPriorMetrics (slice : ℕ) (now : ℤ) (job job' : Job) (prior : List (List ℕ)) :
    Prop where
  priorMetrics : job'.priorMetrics = some (prior.map (groupPtrs slice))
  /-- If some metric is due, these are the groups of the metrics that are. -/
  due : duePositions now (job.metrics.getD []) ≠ [] →
    OrderedGroups (priorityAt (job.metrics.getD [])) (duePositions now (job.metrics.getD [])) prior
  /-- If none is, it is the first metric of priority 0 alone, or nothing. -/
  default : duePositions now (job.metrics.getD []) = [] →
    prior = (((job.metrics.getD []).findIdx? (·.priority = 0)).map fun i => [i]).toList
  /-- The time is set in the metrics of the groups, and aliases in those that are due and lack
  them. Everything else of a metric stays. -/
  metrics : ∀ i, (job'.metrics.getD [])[i]? =
    ((job.metrics.getD [])[i]?).map fun metric : Metrics Option =>
      { metric with
        collectTime := if i ∈ prior.flatten then now else metric.collectTime
        aliasFields := if metric.due now ∧ metric.lacksAliases then some metric.fieldNames
          else metric.aliasFields }
  /-- Everything else of the job stays, but for the map that is made if there is none. -/
  rest : { job' with metrics := none, priorMetrics := none } =
    { job with
      metrics := none, priorMetrics := none, envConfigmaps := some (job.envConfigmaps.getD ∅) }

section

variable {now : ℤ} {metrics : List (Metrics Option)}

theorem collectDue_fst (i : ℕ) (groups : Go.Map ℤ (List ℕ)) :
    (collectDue now i metrics groups).1 =
      metrics.map fun metric => if metric.due now then metric.collectedAt now else metric := by
  induction metrics generalizing i groups with
  | nil => rfl
  | cons metric metrics ih =>
    rw [collectDue, List.map_cons]
    split_ifs with hdue <;> simp only [ih]

/-- The positions of the metrics that are due are appended to the groups of their priorities. -/
theorem collectDue_snd {priority : ℕ → ℤ} (i : ℕ) (groups : Go.Map ℤ (List ℕ))
    (hpriority : ∀ j metric, metrics[j]? = some metric → priority (i + j) = metric.priority) :
    (collectDue now i metrics groups).2 =
      (((metrics.zipIdx i).filter (·.1.due now)).map Prod.snd).foldl
        (fun groups j => Go.appendTo groups (priority j) j) groups := by
  induction metrics generalizing i groups with
  | nil => rfl
  | cons metric metrics ih =>
    have hhead : priority i = metric.priority := hpriority 0 metric rfl
    have htail : ∀ j m, metrics[j]? = some m → priority (i + 1 + j) = m.priority := by
      intro j m hm
      rw [Nat.add_assoc, Nat.add_comm 1 j]
      exact hpriority (j + 1) m hm
    rw [collectDue, List.zipIdx_cons, List.filter_cons]
    split_ifs with hdue
    · rw [List.map_cons, List.foldl_cons, ← ih (i + 1) _ htail, hhead]
    · rw [← ih (i + 1) _ htail]

theorem mem_duePositions {i : ℕ} :
    i ∈ duePositions now metrics ↔ ∃ metric, metrics[i]? = some metric ∧ metric.due now := by
  simp only [duePositions, List.mem_map, List.mem_filter, Prod.exists,
    List.mem_zipIdx_iff_getElem?]
  constructor
  · rintro ⟨metric, j, ⟨hmetric, hdue⟩, rfl⟩
    exact ⟨metric, hmetric, hdue⟩
  · rintro ⟨metric, hmetric, hdue⟩
    exact ⟨metric, i, ⟨hmetric, hdue⟩, rfl⟩

theorem priorityAt_congr {metrics' : List (Metrics Option)}
    (h : metrics'.map (·.priority) = metrics.map (·.priority)) :
    priorityAt metrics' = priorityAt metrics := by
  funext i
  rw [priorityAt, priorityAt, ← List.getElem?_map, ← List.getElem?_map, h]

/-- The groups of the metrics that are due, in the map. -/
theorem collectDue_groups (now : ℤ) (metrics : List (Metrics Option)) :
    (collectDue now 0 metrics ∅).2 =
      (duePositions now metrics).foldl
        (fun groups j => Go.appendTo groups (priorityAt metrics j) j) ∅ := by
  refine collectDue_snd 0 ∅ fun j metric hmetric => ?_
  rw [Nat.zero_add, priorityAt, hmetric, Option.map_some, Option.getD_some]

theorem collectDue_entries_eq_nil_iff :
    (collectDue now 0 metrics ∅).2.entries = [] ↔ duePositions now metrics = [] := by
  rw [collectDue_groups]
  constructor
  · intro hnil
    have hperm := @Go.content_foldl_appendTo ℤ ℕ ℕ _ (priorityAt metrics) id
      (duePositions now metrics) ∅
    rw [List.map_id] at hperm
    have hcontent : Go.content ((duePositions now metrics).foldl
        (fun groups j => Go.appendTo groups (priorityAt metrics j) (id j)) ∅) = [] := by
      rw [Go.content]
      exact congrArg (fun l => (l.map Sigma.snd).flatten) hnil
    rw [hcontent] at hperm
    exact hperm.symm.eq_nil
  · intro hnil
    rw [hnil]
    rfl

theorem selectMetrics_of_due (h : duePositions now metrics ≠ []) :
    selectMetrics now metrics = collectDue now 0 metrics ∅ :=
  if_neg (mt collectDue_entries_eq_nil_iff.mp h)

theorem not_due_of_duePositions_eq_nil (h : duePositions now metrics = [])
    {metric : Metrics Option} (hmem : metric ∈ metrics) : ¬ metric.due now := by
  intro hdue
  obtain ⟨i, hi⟩ := List.mem_iff_getElem?.mp hmem
  have hpos : i ∈ duePositions now metrics := mem_duePositions.mpr ⟨metric, hi, hdue⟩
  rw [h] at hpos
  exact List.not_mem_nil hpos

theorem selectMetrics_of_not_due (h : duePositions now metrics = []) :
    selectMetrics now metrics = collectDefault now metrics := by
  have hsame : (collectDue now 0 metrics ∅).1 = metrics := by
    rw [collectDue_fst, List.map_congr_left fun metric hmem =>
      if_neg (not_due_of_duePositions_eq_nil h hmem), List.map_id']
  rw [selectMetrics, if_pos (collectDue_entries_eq_nil_iff.mpr h), hsame]

/-- The map that the default metric is put into has no other group. -/
theorem collectDefault_groups :
    (collectDefault now metrics).2.entries.map Sigma.snd =
      ((metrics.findIdx? (·.priority = 0)).map fun i => [i]).toList := by
  rw [collectDefault]
  cases metrics.findIdx? (·.priority = 0) <;> rfl

/-- **The metrics after the selection**: those that are selected are marked with the time. -/
theorem selectMetrics_getElem? (j : ℕ) :
    (selectMetrics now metrics).1[j]? = (metrics[j]?).map fun metric : Metrics Option =>
      { metric with
        collectTime := if j ∈ selectedPositions now metrics then now else metric.collectTime
        aliasFields := if metric.due now ∧ metric.lacksAliases then some metric.fieldNames
          else metric.aliasFields } := by
  rw [selectedPositions]
  by_cases hnil : duePositions now metrics = []
  · rw [selectMetrics_of_not_due hnil, collectDefault, if_pos hnil]
    cases hj : metrics[j]? with
    | none =>
      have hlen : metrics.length ≤ j := List.getElem?_eq_none_iff.mp hj
      cases metrics.findIdx? (·.priority = 0) <;> simp [hlen]
    | some metric =>
      have hdue : ¬ metric.due now :=
        not_due_of_duePositions_eq_nil hnil (List.mem_of_getElem? hj)
      cases metrics.findIdx? (·.priority = 0) with
      | none => simp [hj, hdue]
      | some i =>
        by_cases hij : i = j
        · simp [hj, hdue, hij]
        · simp [hj, hdue, hij, Ne.symm hij]
  · rw [selectMetrics_of_due hnil, collectDue_fst, List.getElem?_map, if_neg hnil]
    cases hj : metrics[j]? with
    | none => rfl
    | some metric =>
      have hmem : j ∈ duePositions now metrics ↔ metric.due now := by
        rw [mem_duePositions, hj]
        simp
      by_cases hdue : metric.due now <;> simp [hmem, hdue, Metrics.collectedAt]

/-- What a metric has besides its time and its aliases is not changed by the selection. -/
theorem selectMetrics_map {β : Type} {f : Metrics Option → β}
    (hf : ∀ (metric : Metrics Option) time aliases,
      f { metric with collectTime := time, aliasFields := aliases } = f metric) :
    (selectMetrics now metrics).1.map f = metrics.map f := by
  ext j : 1
  rw [List.getElem?_map, selectMetrics_getElem?, List.getElem?_map, Option.map_map]
  congr 1
  funext metric
  exact hf metric _ _

/-! ### The groups -/

variable {o : GroupOrder}

theorem perm_sortGroups (selected : List (Metrics Option) × Go.Map ℤ (List ℕ)) :
    (sortGroups o selected).Perm (selected.2.entries.map Sigma.snd) :=
  (o.slice.perm _ _).trans ((o.visit.perm _).map _)

/-- If some metric is due, the groups are those of the metrics that are. -/
theorem orderedGroups_sortGroups (h : duePositions now metrics ≠ []) :
    OrderedGroups (priorityAt metrics) (duePositions now metrics)
      (sortGroups o (selectMetrics now metrics)) := by
  have hperm := @perm_sortGroups o (selectMetrics now metrics)
  rw [selectMetrics_of_due h, collectDue_groups] at hperm
  have hpriority : groupPriority (selectMetrics now metrics).1 = groupPriority metrics := by
    funext g
    rw [groupPriority, groupPriority, priorityAt_congr (selectMetrics_map fun _ _ _ => rfl)]
  have hsorted : (sortGroups o (selectMetrics now metrics)).Pairwise fun g g' =>
      groupPriority metrics g ≤ groupPriority metrics g' := by
    rw [sortGroups, hpriority]
    exact o.slice.sorted _ _
  rw [selectMetrics_of_due h] at hsorted ⊢
  exact Go.orderedGroups_of_sorted (fun a g => rfl) hperm hsorted

/-- If none is, there is at most one. -/
theorem sortGroups_of_not_due (h : duePositions now metrics = []) :
    sortGroups o (selectMetrics now metrics) =
      ((metrics.findIdx? (·.priority = 0)).map fun i => [i]).toList := by
  have hperm := @perm_sortGroups o (selectMetrics now metrics)
  rw [selectMetrics_of_not_due h, collectDefault_groups] at hperm
  rw [selectMetrics_of_not_due h]
  cases hi : metrics.findIdx? (·.priority = 0) <;> simpa [hi] using hperm

theorem flatten_sortGroups (o : GroupOrder) (now : ℤ) (metrics : List (Metrics Option)) :
    (sortGroups o (selectMetrics now metrics)).flatten.Perm (selectedPositions now metrics) := by
  rw [selectedPositions]
  split_ifs with hnil
  · rw [sortGroups_of_not_due hnil]
    cases metrics.findIdx? (·.priority = 0) <;> simp
  · exact (orderedGroups_sortGroups hnil).perm

end

/-! ### The function as a whole -/

theorem Job.metrics_constructPriorMetrics (o : GroupOrder) (slice : ℕ) (now : ℤ) (job : Job) :
    (job.constructPriorMetrics o slice now).metrics.getD [] =
      (selectMetrics now (job.metrics.getD [])).1 := by
  change (job.metrics.map fun _ => (selectMetrics now (job.metrics.getD [])).1).getD [] = _
  cases job.metrics <;> rfl

/-- **`ConstructPriorMetrics` selects as it is to**, for every job and time, in whatever order the
map is visited and however the groups are sorted. -/
theorem Job.constructsPriorMetrics (o : GroupOrder) (slice : ℕ) (now : ℤ) (job : Job) :
    ∃ prior,
      ConstructsPriorMetrics slice now job (job.constructPriorMetrics o slice now) prior := by
  refine ⟨sortGroups o (selectMetrics now (job.metrics.getD [])), rfl, orderedGroups_sortGroups,
    sortGroups_of_not_due, fun i => ?_, rfl⟩
  rw [metrics_constructPriorMetrics, selectMetrics_getElem?]
  simp only [(flatten_sortGroups o now (job.metrics.getD [])).mem_iff]

end HertzBeat
