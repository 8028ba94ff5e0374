import HertzBeat.Service.Reporting
import Mathlib.Algebra.BigOperators.Group.Finset.Sigma

/-!
# No result is reported twice

A round hands on each of its results once, a timeout is run once, and a task that is to be done once
gets one timeout. Each of these is about one part of the collector. Taken together they bound what
the manager is sent: `HertzBeat.Service.one_time_reports_le` says that of the one-time tasks there
are never more reports than there are metrics in the tasks that were issued, in whatever order the
parts of the collector take their steps.

The argument has two halves. The reports are all different, where a report is known by the timeout
of its round and its position, `HertzBeat.Service.Once`. And the positions there are under all
timeouts of one-time jobs are no more than the metrics that were issued,
`HertzBeat.Service.capacity_step`.
-/

namespace HertzBeat

open Go (Str BlockCipher)
open Runs

/-! ### Timeouts that are used up -/

namespace DispatchState

variable {s s' : DispatchState} {ev : List DispatchEvent}

/-- **A timeout is used up**: it is not armed, and no `Run` for it is still to begin. -/
structure Spent (s : DispatchState) (r : ℕ) : Prop where
  task : ∃ t, s.td.wheelTimer.task r = some t
  disarmed : ∀ j, ¬s.Armed j r
  begun : ∀ x ∈ s.runs, x.timeout = r → x.stage ≠ .fired

/-- A new timeout is not one that was there. -/
theorem Spent.of_asked {r : ℕ} (h : s.Spent r) {j : Job} {o : Option ℕ}
    (ha : Asked s.td.wheelTimer j o s'.td.wheelTimer) (hruns : s'.runs ⊆ s.runs) : s'.Spent r := by
  obtain ⟨t, ht⟩ := h.task
  refine ⟨⟨t, ha.task_mono r t ht⟩, fun j' harmed => ?_, fun x hx => h.begun x (hruns hx)⟩
  rcases (ha.armed_iff j' r).mp harmed with hold | ⟨-, hnew⟩
  · exact h.disarmed j' hold
  · rw [ha.fresh r hnew] at ht
    cases ht

/-- A step that arms nothing and starts no `Run`. -/
theorem Spent.of_still {r : ℕ} (h : s.Spent r)
    (htask : ∀ r, s'.td.wheelTimer.task r = s.td.wheelTimer.task r)
    (harmed : ∀ j, s'.Armed j r → s.Armed j r)
    (hruns : ∀ x ∈ s'.runs, x.timeout = r → x.stage = .fired →
      ∃ y ∈ s.runs, y.timeout = r ∧ y.stage = .fired) : s'.Spent r := by
  obtain ⟨t, ht⟩ := h.task
  refine ⟨⟨t, (htask r).trans ht⟩, fun j hj => h.disarmed j (harmed j hj), fun x hx hr hst => ?_⟩
  obtain ⟨y, hy, hyr, hyst⟩ := hruns x hx hr hst
  exact h.begun y hy hyr hyst

theorem exists_fired_of_advanceRun {r r' : ℕ} {stage : RunStage} (hstage : stage ≠ .fired)
    {x : TaskRun} (hx : x ∈ s.advanceRun r' stage) (hr : x.timeout = r) (hst : x.stage = .fired) :
    ∃ y ∈ s.runs, y.timeout = r ∧ y.stage = .fired := by
  obtain ⟨y, hy, hyt, -, ⟨-, hadvanced⟩ | ⟨-, rfl⟩⟩ := mem_advanceRun hx
  · exact absurd (hadvanced.symm.trans hst) hstage
  · exact ⟨x, hy, hr, hst⟩

theorem exists_fired_of_endRun {r r' : ℕ} {x : TaskRun} (hx : x ∈ s.endRun r') (hr : x.timeout = r)
    (hst : x.stage = .fired) : ∃ y ∈ s.runs, y.timeout = r ∧ y.stage = .fired :=
  ⟨x, (s.endRun_sublist r').subset hx, hr, hst⟩

/-- **What is used up stays so.** -/
theorem Spent.step {r : ℕ} (h : s.Spent r) (hwf : s.WellFormed) {a : DispatchAct}
    (hs : s.step a = some (s', ev)) : s'.Spent r := by
  cases a with
  | addJob job now =>
    rcases job with _ | j
    · obtain ⟨rfl, -⟩ := step_addJob_nil hs
      exact h
    · obtain ⟨o, ha⟩ := step_addJob hwf hs
      exact h.of_asked ha.asked (ha.runs_eq ▸ List.Subset.refl _)
  | removeJob id =>
    rcases step_removeJob hs with ⟨hi, -⟩ | ⟨r', hr⟩
    · exact h.of_still (fun r => by rw [hi.wheel_eq]) (fun j => hi.armed_iff.mp)
        fun x hx hxr hst => ⟨x, hi.runs_eq ▸ hx, hxr, hst⟩
    · exact h.of_still (fun r => by rw [hr.wheel_eq, HashedWheelTimer.task_cancel])
        (fun j hj => ((hr.armed_iff hwf).mp hj).1)
        fun x hx hxr hst => ⟨x, hr.runs_eq ▸ hx, hxr, hst⟩
  | start =>
    have hst := (step_start hs).1
    exact h.of_still hst.task_eq (fun j => (hst.armed_iff j r).mp)
      fun x hx hxr hx' => ⟨x, hst.runs_eq ▸ hx, hxr, hx'⟩
  | stop =>
    rcases (step_stop hwf hs).2 with ⟨-, rfl⟩ | hst
    · exact h
    · exact h.of_still hst.task_eq (fun j hj => ((hst.armed_iff j r).mp hj).1)
        fun x hx hxr hx' => ⟨x, hst.runs_eq ▸ hx, hxr, hx'⟩
  | tick =>
    have ht := (step_tick hs).1
    refine h.of_still (fun r => by rw [ht.td_eq]; rfl) (fun j hj => ((ht.armed_iff hwf).mp hj).1)
      fun x hx hxr hst => ?_
    rw [ht.runs_eq] at hx
    rcases List.mem_append.mp hx with hold | hfired
    · exact ⟨x, hold, hxr, hst⟩
    · -- a tick runs what is armed
      obtain ⟨t, harmed⟩ := HashedWheelTimer.mem_tick_run hwf.wheel (mem_firedRuns.mp hfired).1
      exact absurd (hxr ▸ harmed) (h.disarmed t.job)
  | begin r' now =>
    obtain ⟨x, hb⟩ := step_begin hs
    refine h.of_still (fun r => by rw [hb.wheel_eq]) (fun j => hb.armed_iff.mp)
      fun y hy => ?_
    rw [hb.runs_eq] at hy
    exact exists_fired_of_advanceRun (by decide) hy
  | complete r' outcome =>
    obtain ⟨x, hc, -⟩ := step_complete hs
    refine h.of_still (fun r => by rw [hc.wheel_eq]) (fun j => hc.armed_iff.mp)
      fun y hy => ?_
    rw [hc.runs_eq] at hy
    split_ifs at hy
    · exact exists_fired_of_advanceRun (by decide) hy
    · exact exists_fired_of_endRun hy
  | reschedule r' now =>
    obtain ⟨x, -, -, -, ⟨rfl, -⟩ | ⟨o, hr⟩⟩ := step_reschedule hwf hs
    · exact h.of_still (fun _ => rfl) (fun _ hj => hj) fun y hy => exists_fired_of_endRun hy
    · exact h.of_asked hr.asked (hr.runs_eq ▸ (s.endRun_sublist r').subset)

/-- **A `Run` that begins uses up its timeout.** -/
theorem spent_of_begin (hwf : s.WellFormed) {r : ℕ} {now : ℤ}
    (hs : s.step (.begin r now) = some (s', ev)) : s'.Spent r := by
  obtain ⟨x, hb⟩ := step_begin hs
  obtain rfl := hb.timeout_eq
  refine ⟨⟨⟨x.job⟩, ?_⟩, fun j hj => ?_, fun y hy hyr hst => ?_⟩
  · rw [hb.wheel_eq]
    exact hwf.run_task x hb.run_mem
  · exact hwf.run_disarmed x hb.run_mem j (hb.armed_iff.mp hj)
  · rw [hb.runs_eq] at hy
    obtain ⟨z, -, hzt, -, ⟨-, hadvanced⟩ | ⟨hne, rfl⟩⟩ := mem_advanceRun hy
    · exact absurd (hadvanced.symm.trans hst) (by decide)
    · exact hne hyr

/-- A `Run` that is to begin is for a timeout that is not used up. -/
theorem not_spent_of_runAt {r : ℕ} {x : TaskRun} (hx : s.runAt r .fired = some x) :
    ¬s.Spent r := by
  intro h
  obtain ⟨hmem, hr, hst⟩ := runAt_eq_some hx
  exact h.begun x hmem hr hst

end DispatchState

/-! ### How much there is to report of one-time jobs -/

/-- The number of metrics of a job that is to be done once. -/
def Job.oneTimeMetrics (job : Job) : ℕ := if job.isCyclic then 0 else job.metricsNames.length

/-- The number of metrics under all timeouts of one-time jobs. -/
def HashedWheelTimer.oneTimeMetrics (w : HashedWheelTimer WheelTimerTask) : ℕ :=
  ∑ r ∈ Finset.range w.timeouts.size, ((w.task r).map fun t => t.job.oneTimeMetrics).getD 0

namespace HashedWheelTimer

variable {w w' : HashedWheelTimer WheelTimerTask}

theorem oneTimeMetrics_congr (h : ∀ r, w'.task r = w.task r) :
    w'.oneTimeMetrics = w.oneTimeMetrics := by
  have hsize : ∀ {v v' : HashedWheelTimer WheelTimerTask}, (∀ r, v'.task r = v.task r) →
      v.timeouts.size ≤ v'.timeouts.size := by
    intro v v' hv
    by_contra hlt
    obtain ⟨t, ht⟩ := task_eq_some_of_lt (not_le.mp hlt)
    rw [← hv] at ht
    exact (task_lt ht).false
  rw [oneTimeMetrics, oneTimeMetrics, le_antisymm (hsize fun r => (h r).symm) (hsize h)]
  exact Finset.sum_congr rfl fun r _ => by rw [h]

/-- A new timeout adds the metrics of its job. -/
theorem oneTimeMetrics_newTimeout (hwf : w.WellFormed) {j : Job} {delay now : ℤ} {o : Option ℕ}
    (h : w.newTimeout ⟨j⟩ delay now = .ok (w', o)) :
    w'.oneTimeMetrics ≤ w.oneTimeMetrics + j.oneTimeMetrics := by
  rcases newTimeout_eq_ok hwf h with ⟨-, rfl, -⟩ | ⟨-, -, harms⟩
  · exact Nat.le_add_right _ _
  · rw [oneTimeMetrics, harms.size_eq, Finset.sum_range_succ, harms.task_eq, if_pos rfl]
    refine Nat.add_le_add_right (Finset.sum_congr rfl fun r hr => ?_).le _
    rw [harms.task_eq, if_neg (Finset.mem_range.mp hr).ne]

/-- **There are no more different positions under the timeouts** than metrics. -/
theorem length_le_oneTimeMetrics {keys : List (Σ _ : ℕ, ℕ)} (hnodup : keys.Nodup)
    (hkeys : ∀ k ∈ keys, ∃ t, w.task k.1 = some t ∧ k.2 < t.job.oneTimeMetrics) :
    keys.length ≤ w.oneTimeMetrics := by
  have hsub : keys.toFinset ⊆ (Finset.range w.timeouts.size).sigma fun r =>
      Finset.range (((w.task r).map fun t => t.job.oneTimeMetrics).getD 0) := by
    intro k hk
    obtain ⟨t, ht, hlt⟩ := hkeys k (List.mem_toFinset.mp hk)
    rw [Finset.mem_sigma, Finset.mem_range, Finset.mem_range, ht]
    exact ⟨task_lt ht, hlt⟩
  have hcard := Finset.card_le_card hsub
  rw [List.toFinset_card_of_nodup hnodup, Finset.card_sigma] at hcard
  simpa only [Finset.card_range, oneTimeMetrics] using hcard

end HashedWheelTimer

/-- The metrics that a step of the scheduler adds. -/
def ServiceAct.oneTimeMetrics : ServiceAct → ℕ
  | .addAsyncCollectJob (some job) _ => job.oneTimeMetrics
  | _ => 0

/-- A step of the scheduler adds the metrics of the job that it adds, and no others. -/
theorem JobService.oneTimeMetrics_of_step {s s' : JobService} {ev : List DispatchEvent}
    {a : ServiceAct} (hwf : s.dispatch.WellFormed) (hs : s.step a = some (s', ev)) :
    s'.dispatch.td.wheelTimer.oneTimeMetrics ≤
      s.dispatch.td.wheelTimer.oneTimeMetrics + a.oneTimeMetrics := by
  rcases dispatch_of_step hs with hsame | ⟨b, hb, hcall⟩
  · rw [hsame]
    exact Nat.le_add_right _ _
  · rcases DispatchState.wheel_of_step hwf hb with htasks | ⟨j, delay, now, o, hnew, hj⟩
    · rw [HashedWheelTimer.oneTimeMetrics_congr htasks]
      exact Nat.le_add_right _ _
    · have hle := HashedWheelTimer.oneTimeMetrics_newTimeout hwf.wheel hnew
      rcases hj with ⟨now', rfl⟩ | ⟨x, -, -, hcyclic⟩
      · rw [hcall j now' rfl]
        exact hle
      · -- a job that is scheduled again is cyclic
        have hzero : j.oneTimeMetrics = 0 := if_pos hcyclic
        omega

/-! ### What is seen of one-time tasks -/

/-- A report of a one-time task. -/
def ServiceEvent.isOneTimeReport : ServiceEvent → Bool
  | .reported _ _ msg => msg.type = .responseOneTimeTaskData
  | .received _ => false

/-- The number of metrics in a one-time task that is issued. -/
def ServiceEvent.oneTimeIssued (json : Json) : ServiceEvent → ℕ
  | .received m =>
    if m.type = .issueOneTimeTask then
      match json.job m.msg with
      | .ok job => job.metricsNames.length
      | .error _ => 0
    else 0
  | .reported _ _ _ => 0

/-- The timeout and the position of a report. -/
def ServiceEvent.reportKey : ServiceEvent → Option (Σ _ : ℕ, ℕ)
  | .reported r i _ => some ⟨r, i⟩
  | .received _ => none

/-- The number of metrics that a processor is to add. -/
def Handler.oneTimeMetrics : Handler → ℕ
  | .adding isCyclic job _ _ => if isCyclic then 0 else job.metricsNames.length
  | .removing _ => 0

namespace Service

variable {URL F Program : Type} [NatCast F] [Mul F] [Div F]
variable {aes : BlockCipher} {json : Json} {identity : Str} {ipc : IPC}
variable {s s' : Service} {tr ev : List ServiceEvent}

/-! ### The positions there are -/

/-- The metrics of one-time jobs that are scheduled or are about to be. -/
def capacity (s : Service) : ℕ :=
  s.jobs.dispatch.td.wheelTimer.oneTimeMetrics + (s.handlers.map Handler.oneTimeMetrics).sum

theorem sum_eraseIdx {handlers : List Handler} {i : ℕ} {handler : Handler}
    (h : handlers[i]? = some handler) :
    handler.oneTimeMetrics + ((handlers.eraseIdx i).map Handler.oneTimeMetrics).sum =
      (handlers.map Handler.oneTimeMetrics).sum := by
  obtain ⟨hlt, rfl⟩ := List.getElem?_eq_some_iff.mp h
  exact ((List.getElem_cons_eraseIdx_perm hlt).map Handler.oneTimeMetrics).sum_eq

theorem sum_set {handlers : List Handler} {i : ℕ} {handler handler' : Handler}
    (h : handlers[i]? = some handler) (heq : handler'.oneTimeMetrics = handler.oneTimeMetrics) :
    ((handlers.set i handler').map Handler.oneTimeMetrics).sum =
      (handlers.map Handler.oneTimeMetrics).sum := by
  obtain ⟨hlt, rfl⟩ := List.getElem?_eq_some_iff.mp h
  conv_rhs => rw [← List.set_getElem_self hlt]
  rw [List.map_set, List.map_set, heq]

/-- A processor that has read its message is to add the metrics of its job. -/
theorem capacity_issue (s : Service) (isCyclic : Bool) (m : Message) :
    (s.issue json isCyclic m).capacity ≤ s.capacity + if isCyclic then 0 else
      match json.job m.msg with
      | .ok job => job.metricsNames.length
      | .error _ => 0 := by
  cases hjob : json.job m.msg with
  | error err =>
    simp only [issue, hjob]
    exact Nat.le_add_right _ _
  | ok job =>
    simp only [issue, hjob, capacity, List.map_append, List.map_cons, List.map_nil,
      List.sum_append, List.sum_cons, List.sum_nil, Handler.oneTimeMetrics]
    omega

theorem capacity_receive (s : Service) (m : Message) :
    (s.receive json m).capacity ≤
      s.capacity + (ServiceEvent.received m).oneTimeIssued json := by
  rw [receive]
  split
  · exact Nat.le_add_right _ _
  · exact (capacity_issue s true m).trans (Nat.le_add_right _ _)
  · next htype =>
    refine (capacity_issue s false m).trans ?_
    rw [ServiceEvent.oneTimeIssued, if_pos htype]
    exact le_rfl
  · refine le_trans (le_of_eq ?_) (Nat.le_add_right _ _)
    split
    · rfl
    · simp [capacity, Handler.oneTimeMetrics]
  · exact Nat.le_add_right _ _

theorem capacity_setJobs (hwf : s.jobs.dispatch.WellFormed) {a : ServiceAct} {jobs : JobService}
    {jev : List DispatchEvent} (hs : s.jobs.step a = some (jobs, jev))
    (hzero : a.oneTimeMetrics = 0) : { s with jobs := jobs }.capacity ≤ s.capacity := by
  have hjobs := JobService.oneTimeMetrics_of_step hwf hs
  rw [hzero] at hjobs
  exact Nat.add_le_add_right hjobs _

/-- **A step adds what it issues**, and no more. -/
theorem capacity_step (hwf : s.jobs.dispatch.WellFormed)
    (hs : Takes aes json identity ipc URL F Program s s' ev) :
    s'.capacity ≤ s.capacity + (ev.map (ServiceEvent.oneTimeIssued json)).sum := by
  cases hs with
  | receive m => simpa using capacity_receive s m
  | @decrypt i isCyclic job decrypted rest config hi =>
    have hsum : ((s.handlers.set i (.adding isCyclic job
        (decrypted ++ [Replacer.preprocessConfig aes s.secretKey config]) rest)).map
        Handler.oneTimeMetrics).sum = (s.handlers.map Handler.oneTimeMetrics).sum := sum_set hi rfl
    simp only [capacity] at hsum ⊢
    omega
  | @add i isCyclic job decrypted now jobs jev hi h =>
    have hjobs := JobService.oneTimeMetrics_of_step hwf h
    have hsum := sum_eraseIdx hi
    have hjob : (job.prepared isCyclic decrypted).oneTimeMetrics =
        if isCyclic then 0 else job.metricsNames.length := rfl
    simp only [capacity, ServiceAct.oneTimeMetrics, Handler.oneTimeMetrics, hjob] at hjobs hsum ⊢
    omega
  | @remove i id ids jobs jev hi h =>
    have hsum : ((s.handlers.set i (.removing ids)).map Handler.oneTimeMetrics).sum =
        (s.handlers.map Handler.oneTimeMetrics).sum := sum_set hi rfl
    have hjobs := JobService.oneTimeMetrics_of_step hwf h
    simp only [capacity, ServiceAct.oneTimeMetrics] at hjobs ⊢
    omega
  | removed hi =>
    have hsum := sum_eraseIdx hi
    simp only [capacity, Handler.oneTimeMetrics] at hsum ⊢
    omega
  | @schedule a jobs jev hown h =>
    have hzero : a.oneTimeMetrics = 0 := by
      cases a with
      | addAsyncCollectJob job now => cases hown
      | _ => rfl
    exact (capacity_setJobs hwf h hzero).trans (Nat.le_add_right _ _)
  | dispatch _ _ _ _ _ _ h => exact (capacity_setJobs hwf h rfl).trans (Nat.le_add_right _ _)
  | finish h => exact (capacity_setJobs hwf h rfl).trans (Nat.le_add_right _ _)
  | _ => exact Nat.le_add_right _ _

/-! ### The reports are different -/

/-- **Nothing was reported twice, and nothing will be**: what a round has yet to report comes after
what it has reported. -/
structure Once (s : Service) (tr : List ServiceEvent) : Prop where
  nodup : (tr.filterMap ServiceEvent.reportKey).Nodup
  reported : ∀ r i msg, .reported r i msg ∈ tr → s.jobs.dispatch.Spent r ∧
    ∀ round, s.rounds r = some round → ∀ k, round.task.CanHandle k → i < k
  rounds : ∀ r round, s.rounds r = some round →
    s.jobs.dispatch.Spent r ∧ round.task.Ascending

theorem once_init (now : ℤ) : (init now).Once [] where
  nodup := List.nodup_nil
  reported := by simp
  rounds := by simp [init]

section Once

variable (h : s.Once tr)

include h

/-- The scheduler takes a step. -/
theorem Once.setJobs (hwf : s.jobs.dispatch.WellFormed) {a : ServiceAct} {jobs : JobService}
    {jev : List DispatchEvent} (hs : s.jobs.step a = some (jobs, jev)) :
    { s with jobs := jobs }.Once tr := by
  have hspent : ∀ {r}, s.jobs.dispatch.Spent r → jobs.dispatch.Spent r := by
    intro r hr
    rcases JobService.dispatch_of_step hs with hsame | ⟨b, hb, -⟩
    · rw [hsame]
      exact hr
    · exact hr.step hwf hb
  refine ⟨h.nodup, fun r i msg hmem => ?_, fun r round hround => ?_⟩
  · obtain ⟨hr, hcan⟩ := h.reported r i msg hmem
    exact ⟨hspent hr, hcan⟩
  · obtain ⟨hr, hascending⟩ := h.rounds r round hround
    exact ⟨hspent hr, hascending⟩

/-- The processors do not matter. -/
theorem Once.of_same (hjobs : s'.jobs = s.jobs) (hrounds : s'.rounds = s.rounds) : s'.Once tr := by
  refine ⟨h.nodup, ?_, ?_⟩
  · rw [hjobs, hrounds]
    exact h.reported
  · rw [hjobs, hrounds]
    exact h.rounds

/-- What is received is no report. -/
theorem Once.received (m : Message) : s.Once (tr ++ [.received m]) := by
  refine ⟨?_, fun r i msg hmem => h.reported r i msg ?_, h.rounds⟩
  · rw [List.filterMap_append]
    exact (List.append_nil _).symm ▸ h.nodup
  · rcases List.mem_append.mp hmem with hold | hnew
    · exact hold
    · cases List.mem_singleton.mp hnew

/-- A round that is over is taken away. -/
theorem Once.endRound (r : ℕ) : (s.setRound r none).Once tr := by
  have hold : ∀ {r' round}, (s.setRound r none).rounds r' = some round →
      s.rounds r' = some round := by
    intro r' round hround
    simp only [setRound, Function.update_apply] at hround
    split_ifs at hround
    exact hround
  refine ⟨h.nodup, fun r' i msg hmem => ?_, fun r' round hround => h.rounds r' round (hold hround)⟩
  obtain ⟨hr, hcan⟩ := h.reported r' i msg hmem
  exact ⟨hr, fun round hround => hcan round (hold hround)⟩

/-- A round begins, for a timeout that was not used up. -/
theorem Once.beginRound {r : ℕ} {round : Round} (hunseen : ∀ i msg, .reported r i msg ∉ tr)
    (hspent : s.jobs.dispatch.Spent r) (hascending : round.task.Ascending) :
    (s.setRound r (some round)).Once tr := by
  refine ⟨h.nodup, fun r' i msg hmem => ?_, fun r' round' hround => ?_⟩
  · obtain ⟨hr, hcan⟩ := h.reported r' i msg hmem
    refine ⟨hr, fun round' hround => ?_⟩
    simp only [setRound, Function.update_apply] at hround
    split_ifs at hround with heq
    · exact absurd (heq ▸ hmem) (hunseen i msg)
    · exact hcan round' hround
  · simp only [setRound, Function.update_apply] at hround
    split_ifs at hround with heq
    · obtain rfl := Option.some.inj hround
      exact ⟨heq ▸ hspent, hascending⟩
    · exact h.rounds r' round' hround

/-- A round takes a step. -/
theorem Once.stepRound {r : ℕ} {round : Round} (hround : s.rounds r = some round)
    {a : MetricsTask.Action CollectRepMetricsData} {task : MetricsTask CollectRepMetricsData}
    {tev : List (TaskEvent CollectRepMetricsData)}
    (hs : round.task.step a = some (task, tev)) :
    (s.setRound r (some { round with task := task })).Once tr := by
  obtain ⟨hspent, hascending⟩ := h.rounds r round hround
  refine ⟨h.nodup, fun r' i msg hmem => ?_, fun r' round' hround' => ?_⟩
  · obtain ⟨hr, hcan⟩ := h.reported r' i msg hmem
    refine ⟨hr, fun round' hround' => ?_⟩
    simp only [setRound, Function.update_apply] at hround'
    split_ifs at hround' with heq
    · obtain rfl := Option.some.inj hround'
      exact fun k hk => hcan round (heq ▸ hround) k (MetricsTask.canHandle_of_step hs hk)
    · exact hcan round' hround'
  · simp only [setRound, Function.update_apply] at hround'
    split_ifs at hround' with heq
    · obtain rfl := Option.some.inj hround'
      exact ⟨heq ▸ hspent, hascending.step hs⟩
    · exact h.rounds r' round' hround'

/-- **A report is a new one.** -/
theorem Once.report {r i : ℕ} {round : Round} (hround : s.rounds r = some round)
    {a : MetricsTask.Action CollectRepMetricsData} {task : MetricsTask CollectRepMetricsData}
    {tev : List (TaskEvent CollectRepMetricsData)}
    (hs : round.task.step a = some (task, tev)) {data : CollectRepMetricsData}
    (hhandled : .handled i data ∈ tev) (msg : Message) :
    (s.setRound r (some { round with task := task })).Once (tr ++ [.reported r i msg]) := by
  obtain ⟨hspent, hascending⟩ := h.rounds r round hround
  obtain ⟨hcan, hlater⟩ := MetricsTask.lt_canHandle_of_handled hascending hs hhandled
  have hstep := h.stepRound hround hs
  refine ⟨?_, fun r' i' msg' hmem => ?_, hstep.rounds⟩
  · rw [List.filterMap_append]
    refine List.nodup_append.mpr ⟨h.nodup, List.nodup_singleton _, ?_⟩
    rintro k hk k' hk' rfl
    obtain rfl := List.mem_singleton.mp hk'
    -- a report of the position would have left nothing to hand on
    obtain ⟨e, he, hkey⟩ := List.mem_filterMap.mp hk
    cases e with
    | received m => cases hkey
    | reported r' i' msg' =>
      obtain ⟨rfl, hi⟩ := Sigma.mk.inj (Option.some.inj hkey)
      rw [heq_iff_eq] at hi
      exact ((h.reported r' i' msg' he).2 round hround i hcan).ne hi
  · rcases List.mem_append.mp hmem with hold | hnew
    · exact hstep.reported r' i' msg' hold
    · obtain ⟨rfl, rfl, rfl⟩ := ServiceEvent.reported.inj (List.mem_singleton.mp hnew)
      refine ⟨hspent, fun round' hround' => ?_⟩
      simp only [setRound, Function.update_self] at hround'
      obtain rfl := Option.some.inj hround'
      exact hlater

end Once

/-- **A step reports nothing twice.** -/
theorem Once.step (h : s.Once tr) (hwf : s.jobs.dispatch.WellFormed)
    (hs : Takes aes json identity ipc URL F Program s s' ev) : s'.Once (tr ++ ev) := by
  cases hs with
  | receive m =>
    obtain ⟨hjobs, hrounds⟩ := @receive_frame json s m
    exact (h.of_same hjobs hrounds).received m
  | decrypt hi =>
    rw [List.append_nil]
    exact h.of_same rfl rfl
  | add hi hadd =>
    rw [List.append_nil]
    exact (h.setJobs hwf hadd).of_same rfl rfl
  | remove hi hremove =>
    rw [List.append_nil]
    exact (h.setJobs hwf hremove).of_same rfl rfl
  | removed hi =>
    rw [List.append_nil]
    exact h.of_same rfl rfl
  | schedule hown hstep =>
    rw [List.append_nil]
    exact h.setJobs hwf hstep
  | @dispatch r x now jobs jev w o order slice hx hnames hbegin =>
    rw [List.append_nil]
    -- what is reported has used up its timeout, and this one is to begin
    have hunseen : ∀ i msg, .reported r i msg ∉ tr := fun i msg hmem =>
      DispatchState.not_spent_of_runAt hx (h.reported r i msg hmem).1
    obtain ⟨q, hq, hpair⟩ := Option.map_eq_some_iff.mp hbegin
    have hspent := DispatchState.spent_of_begin hwf hq
    refine (h.setJobs hwf hbegin).beginRound hunseen ?_ (MetricsTask.ascending_new _ _)
    rw [← (Prod.mk.inj hpair).1]
    exact hspent
  | collect hround hcollection hput =>
    rw [List.append_nil]
    exact h.stepRound hround hput
  | @loop r round prefersDone task tev client hround hloop =>
    rcases MetricsTask.events_of_loop hloop with rfl | ⟨i, data, rfl⟩
    · exact (List.append_nil tr).symm ▸ h.stepRound hround hloop
    · -- the result is reported, if there is a client that is started
      cases hreport : reportOf identity ipc client round.called.job data with
      | none =>
        have hnone : reports identity ipc client round.called.job r [.handled i data] = [] := by
          simp [reports, hreport]
        rw [hnone, List.append_nil]
        exact h.stepRound hround hloop
      | some msg =>
        have hone : reports identity ipc client round.called.job r [.handled i data] =
            [.reported r i msg] := by
          simp [reports, hreport]
        rw [hone]
        exact h.report hround hloop (List.mem_singleton_self _) msg
  | expire hround hexpire =>
    rw [List.append_nil]
    exact h.stepRound hround hexpire
  | @finish r jobs jev hcomplete =>
    rw [List.append_nil]
    exact (h.setJobs hwf hcomplete).endRound r

/-! ### The bound -/

/-- A report of a one-time task is one of a position under a timeout of such a job. -/
def OneTimeAt (s : Service) (e : ServiceEvent) : Prop :=
  e.isOneTimeReport = true → ∃ k t, e.reportKey = some k ∧
    s.jobs.dispatch.td.wheelTimer.task k.1 = some t ∧ k.2 < t.job.oneTimeMetrics

/-- The type of a message tells whether its job is cyclic. -/
theorem Reports.isCyclic_of_type {job : Job} {data : CollectRepMetricsData} {msg : Message}
    (h : Reports identity ipc job data msg) (htype : msg.type = .responseOneTimeTaskData) :
    job.isCyclic = false := by
  obtain ⟨record, -, rfl⟩ := h
  by_contra hcyclic
  rw [Bool.not_eq_false] at hcyclic
  simp [hcyclic] at htype

/-- The scheduler takes a step of its own with a step of the collector, or stays as it is. -/
theorem jobs_of_takes (hs : Takes aes json identity ipc URL F Program s s' ev) :
    s'.jobs = s.jobs ∨ ∃ b jev, s.jobs.step b = some (s'.jobs, jev) := by
  cases hs with
  | receive m => exact .inl (receive_frame s m).1
  | add hi h => exact .inr ⟨_, _, h⟩
  | remove hi h => exact .inr ⟨_, _, h⟩
  | schedule hown h => exact .inr ⟨_, _, h⟩
  | dispatch w o order slice hx hnames h => exact .inr ⟨_, _, h⟩
  | finish h => exact .inr ⟨_, _, h⟩
  | _ => exact .inl rfl

/-- The task of a timeout stays what it is. -/
theorem task_of_takes (hwf : s.jobs.dispatch.WellFormed)
    (hs : Takes aes json identity ipc URL F Program s s' ev) {r : ℕ} {t : WheelTimerTask}
    (ht : s.jobs.dispatch.td.wheelTimer.task r = some t) :
    s'.jobs.dispatch.td.wheelTimer.task r = some t := by
  rcases jobs_of_takes hs with hsame | ⟨b, jev, hb⟩
  · rw [hsame, ht]
  · rcases JobService.dispatch_of_step hb with hsame | ⟨c, hc, -⟩
    · rw [hsame, ht]
    · exact DispatchState.task_of_step hwf hc ht

/-- **What a step reports of one-time jobs is one of their positions.** -/
theorem oneTimeAt_step (hsound : s.Sound aes json URL F Program tr)
    (hs : Takes aes json identity ipc URL F Program s s' ev) {e : ServiceEvent} (he : e ∈ ev) :
    s'.OneTimeAt e := by
  intro htype
  cases e with
  | received m => cases htype
  | reported r i msg =>
    obtain ⟨t, data, ht, ⟨env, metrics, processed, hname, -⟩, hreports⟩ := hsound.reported hs he
    refine ⟨⟨r, i⟩, t, rfl, task_of_takes hsound.wellFormed hs ht, ?_⟩
    rw [Job.oneTimeMetrics, hreports.isCyclic_of_type (of_decide_eq_true htype), if_neg (by simp)]
    exact (List.getElem?_eq_some_iff.mp hname).1

/-- **One-time tasks are reported at most once.** In every run of the collector, there are at most
as many reports of one-time tasks as there are metrics in the one-time tasks that were received. -/
theorem one_time_reports_le {now : ℤ} {as : List (ServiceStep URL F Program)}
    (h : exec (step aes json identity ipc) (init now) as = some (s, tr)) :
    (tr.filter ServiceEvent.isOneTimeReport).length ≤
      (tr.map (ServiceEvent.oneTimeIssued json)).sum := by
  obtain ⟨-, honce, hcapacity, hat⟩ : s.Sound aes json URL F Program tr ∧ s.Once tr ∧
      s.capacity ≤ (tr.map (ServiceEvent.oneTimeIssued json)).sum ∧ ∀ e ∈ tr, s.OneTimeAt e := by
    refine @exec_induction _ _ _ _ (fun s tr => s.Sound aes json URL F Program tr ∧ s.Once tr ∧
      s.capacity ≤ (tr.map (ServiceEvent.oneTimeIssued json)).sum ∧ ∀ e ∈ tr, s.OneTimeAt e) _
      ⟨sound_init now, once_init now, le_rfl, by simp⟩ ?_ _ _ _ h
    rintro s tr a s' ev ⟨hsound, honce, hcapacity, hat⟩ hstep
    have hs := takes_of_step aes json identity ipc hstep
    refine ⟨hsound.step hs, honce.step hsound.wellFormed hs, ?_, fun e he => ?_⟩
    · rw [List.map_append, List.sum_append]
      exact (capacity_step hsound.wellFormed hs).trans (Nat.add_le_add_right hcapacity _)
    · rcases List.mem_append.mp he with hold | hnew
      · intro htype
        obtain ⟨k, t, hk, ht, hlt⟩ := hat e hold htype
        exact ⟨k, t, hk, task_of_takes hsound.wellFormed hs ht, hlt⟩
      · exact oneTimeAt_step hsound hs hnew
  -- the reports are different positions, and there are no more of these than metrics
  have hlength : ((tr.filter ServiceEvent.isOneTimeReport).filterMap
      ServiceEvent.reportKey).length = (tr.filter ServiceEvent.isOneTimeReport).length := by
    refine List.filterMap_length_eq_length.mpr fun e he => ?_
    obtain ⟨hmem, htype⟩ := List.mem_filter.mp he
    obtain ⟨k, t, hk, -⟩ := hat e hmem htype
    rw [hk]
    rfl
  have hsub : (tr.filter ServiceEvent.isOneTimeReport).Sublist tr := List.filter_sublist
  have hnodup := (hsub.filterMap ServiceEvent.reportKey).nodup honce.nodup
  rw [← hlength]
  refine (HashedWheelTimer.length_le_oneTimeMetrics hnodup fun k hk => ?_).trans
    ((Nat.le_add_right _ _).trans hcapacity)
  obtain ⟨e, he, hkey⟩ := List.mem_filterMap.mp hk
  obtain ⟨hmem, htype⟩ := List.mem_filter.mp he
  obtain ⟨k', t, hk', ht⟩ := hat e hmem htype
  rw [hkey] at hk'
  obtain rfl := Option.some.inj hk'
  exact ⟨t, ht⟩

/-- The task that is asked for has one metric, and is reported once. -/
theorem one_time_reports_le_one_task :
    ∃ (ipc : IPC) (s : Service) (tr : List ServiceEvent),
      exec (step ⟨fun _ block => block⟩ oneTask [] ipc) (init 0) askAndReport = some (s, tr) ∧
      (tr.filter ServiceEvent.isOneTimeReport).length = 1 ∧
      (tr.filter ServiceEvent.isOneTimeReport).length ≤
        (tr.map (ServiceEvent.oneTimeIssued oneTask)).sum := by
  obtain ⟨write, hwrite⟩ := exists_injective_write
  let ipc : IPC := ⟨.ofLists, write, hwrite⟩
  have hrun : (exec (step ⟨fun _ block => block⟩ oneTask [] ipc) (init 0) askAndReport).map
      (fun p => (p.2.filter ServiceEvent.isOneTimeReport).length) = some 1 := rfl
  obtain ⟨⟨s, tr⟩, hs, hone⟩ := Option.map_eq_some_iff.mp hrun
  exact ⟨ipc, s, tr, hs, hone, one_time_reports_le hs⟩

end Service

end HertzBeat
