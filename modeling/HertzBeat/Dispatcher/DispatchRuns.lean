import HertzBeat.Dispatcher.TimeDispatch
import HertzBeat.Lib.Run

/-!
# Runs of the time dispatcher

The dispatcher with the goroutines that its wheel starts. A tick starts one
goroutine for every timeout it runs; the goroutine begins `Run` of the task some
time later, `DispatchMetricsTask` returns some time after that, and the job is then
rescheduled. Calls of the dispatcher and ticks may fall anywhere in between, so each
of these is a step of its own, and a run is any sequence of steps.

A panic in a call of the dispatcher ends the run: nothing on the way up recovers
it. A panic in `Run` is recovered by the goroutine, and only ends that.
-/

namespace HertzBeat

open Runs

/-! ### The system -/

/-- How far a `Run` in flight has come. -/
inductive RunStage where
  /-- The tick has started its goroutine. -/
  | fired
  /-- `DispatchMetricsTask` was called and has not returned. -/
  | dispatching
  /-- `DispatchMetricsTask` has returned nil, and the job is to be rescheduled. -/
  | rescheduling
  deriving DecidableEq, Repr

/-- A `Run` in flight: the timeout it is for, its job, and how far it has come. -/
structure TaskRun where
  timeout : ℕ
  job : Job
  stage : RunStage

/-- The dispatcher and the runs in flight. -/
structure DispatchState where
  td : TimeDispatch
  runs : List TaskRun

/-- A step of the dispatcher. A run in flight is named by its timeout. -/
inductive DispatchAct where
  | addJob (job : Option Job) (now : ℤ)
  | removeJob (jobID : ℤ)
  | start
  | stop
  /-- A tick of the wheel. -/
  | tick
  /-- A goroutine begins `Run`. -/
  | begin (r : ℕ) (now : ℤ)
  /-- `DispatchMetricsTask` ends. -/
  | complete (r : ℕ) (outcome : Outcome)
  /-- `Run` reschedules its job. -/
  | reschedule (r : ℕ) (now : ℤ)

/-- What a step lets an observer see. -/
inductive DispatchEvent where
  /-- `AddJob` returned nil: it gave the wheel this delay and was returned this
  timeout. -/
  | added (job : Job) (timeout : Option ℕ) (delay : ℤ)
  /-- `RemoveJob` returned nil. -/
  | removed (jobID : ℤ)
  /-- `DispatchMetricsTask` was called for the job. -/
  | dispatched (job : Job)
  /-- `RescheduleJob` gave the wheel this delay and was returned this timeout. -/
  | rescheduled (job : Job) (timeout : Option ℕ) (delay : ℤ)
  /-- At this time this `NextExecutionAt` was recorded for the job. -/
  | recorded (job : Job) (now next : ℤ)

namespace DispatchState

/-- A new dispatcher. -/
def init (now : ℤ) : DispatchState where
  td := TimeDispatch.newTimeDispatch now
  runs := []

/-- The run in flight for a timeout, if it has come this far. -/
def runAt (s : DispatchState) (r : ℕ) (stage : RunStage) : Option TaskRun :=
  s.runs.find? fun x => x.timeout = r ∧ x.stage = stage

/-- The runs in flight after one has come further. -/
def advanceRun (s : DispatchState) (r : ℕ) (stage : RunStage) : List TaskRun :=
  s.runs.map fun x => if x.timeout = r then { x with stage := stage } else x

/-- The runs in flight after one has ended. -/
def endRun (s : DispatchState) (r : ℕ) : List TaskRun := s.runs.filter fun x => x.timeout ≠ r

/-- The runs a tick starts. -/
def firedRuns (w : HashedWheelTimer WheelTimerTask) (run : List ℕ) : List TaskRun :=
  run.filterMap fun r => (w.task r).map fun task => ⟨r, task.job, .fired⟩

/-- What `AddJob` returned and recorded. -/
def addEvents (td : TimeDispatch) (job : Job) (now : ℤ) : List DispatchEvent :=
  match td.jobInfos.lookup job.id with
  | none => []
  | some info =>
    [.added job info.timeout (firstDelay job), .recorded job now info.nextExecutionAt]

/-- What `UpdateJobExecution` recorded: nothing, unless the job registered under the id
is cyclic and has an interval. -/
def beginEvents (td : TimeDispatch) (jobID now : ℤ) : List DispatchEvent :=
  match td.jobInfos.lookup jobID with
  | none => []
  | some info =>
    if info.job.isCyclic ∧ 0 < info.job.defaultInterval then
      [.recorded info.job now info.nextExecutionAt]
    else []

/-- What `RescheduleJob` was returned and recorded. -/
def rescheduleEvents (td : TimeDispatch) (job : Job) (now : ℤ) : List DispatchEvent :=
  .rescheduled job ((td.cyclicTasks.lookup job.id).getD none) (nextDelay job) ::
    match td.jobInfos.lookup job.id with
    | none => []
    | some info => [.recorded job now info.nextExecutionAt]

/-- One step of the system. -/
def step (s : DispatchState) : DispatchAct → Option (DispatchState × List DispatchEvent)
  | .addJob job now =>
    match s.td.addJob job now with
    -- a panic of a caller is the end of the run
    | .error _ => none
    | .ok (td, _) =>
      some ({ s with td := td }, (job.map fun j => addEvents td j now).getD [])
  | .removeJob jobID =>
    match s.td.removeJob jobID with
    | .error _ => none
    | .ok (td, err) => some ({ s with td := td }, if err = none then [.removed jobID] else [])
  | .start => some ({ s with td := s.td.start.1 }, [])
  | .stop =>
    match s.td.stop with
    | .error _ => none
    | .ok td => some ({ s with td := td }, [])
  | .tick =>
    if s.td.wheelTimer.running then
      let p := s.td.wheelTimer.tick
      some (⟨{ s.td with wheelTimer := p.1 }, s.runs ++ firedRuns p.1 p.2.run⟩, [])
    else none
  | .begin r now =>
    match s.runAt r .fired with
    | none => none
    | some x =>
      let td := WheelTimerTask.begin ⟨x.job⟩ s.td now
      some (⟨td, s.advanceRun r .dispatching⟩, beginEvents td x.job.id now ++ [.dispatched x.job])
  | .complete r outcome =>
    match s.runAt r .dispatching with
    | none => none
    | some x =>
      some (⟨WheelTimerTask.complete s.td outcome,
        if WheelTimerTask.reschedules ⟨x.job⟩ outcome then s.advanceRun r .rescheduling
        else s.endRun r⟩, [])
  | .reschedule r now =>
    match s.runAt r .rescheduling with
    | none => none
    | some x =>
      match WheelTimerTask.rescheduleJob ⟨x.job⟩ s.td now with
      -- a panic ends the goroutine, which recovers it
      | .error _ => some ({ s with runs := s.endRun r }, [])
      | .ok td => some (⟨td, s.endRun r⟩, rescheduleEvents td x.job now)

/-! ### What the dispatcher has under way -/

variable {s s' : DispatchState} {ev : List DispatchEvent}

/-- A timeout of the job is in the wheel, and not cancelled. -/
def Armed (s : DispatchState) (j : Job) (r : ℕ) : Prop := s.td.wheelTimer.Armed ⟨j⟩ r

/-- A `Run` of the job is in flight for the timeout. -/
def InFlight (s : DispatchState) (j : Job) (r : ℕ) : Prop :=
  ∃ x ∈ s.runs, x.timeout = r ∧ x.job = j

/-- The timeout is armed for the job, or the job's `Run` for it is in flight. -/
def Live (s : DispatchState) (j : Job) (r : ℕ) : Prop := s.Armed j r ∨ s.InFlight j r

/-- **Well-formed states.** What is stored under an id is a timeout of a job with that
id; the runs in flight are for different timeouts, none of which is still armed. -/
structure WellFormed (s : DispatchState) : Prop where
  wheel : s.td.wheelTimer.WellFormed
  cyclic_task : ∀ id r, s.td.cyclicTasks.lookup id = some (some r) →
    ∃ j, s.td.wheelTimer.task r = some ⟨j⟩ ∧ j.id = id
  temp_task : ∀ id r, s.td.tempTasks.lookup id = some (some r) →
    ∃ j, s.td.wheelTimer.task r = some ⟨j⟩ ∧ j.id = id
  runs_nodup : (s.runs.map TaskRun.timeout).Nodup
  run_task : ∀ x ∈ s.runs, s.td.wheelTimer.task x.timeout = some ⟨x.job⟩
  run_disarmed : ∀ x ∈ s.runs, ∀ j, ¬s.Armed j x.timeout
  run_cyclic : ∀ x ∈ s.runs, x.stage = .rescheduling → x.job.isCyclic ∧ 0 < x.job.defaultInterval

theorem wellFormed_init (now : ℤ) : (init now).WellFormed where
  wheel := HashedWheelTimer.wellFormed_new _ _
  cyclic_task := fun id r h => absurd h (by simp [init, TimeDispatch.newTimeDispatch])
  temp_task := fun id r h => absurd h (by simp [init, TimeDispatch.newTimeDispatch])
  runs_nodup := List.nodup_nil
  run_task := fun x h => absurd h (by simp [init])
  run_disarmed := fun x h => absurd h (by simp [init])
  run_cyclic := fun x h => absurd h (by simp [init])

theorem WellFormed.inFlight_task (h : s.WellFormed) {j : Job} {r : ℕ} (hr : s.InFlight j r) :
    s.td.wheelTimer.task r = some ⟨j⟩ := by
  obtain ⟨x, hx, rfl, rfl⟩ := hr
  exact h.run_task x hx

theorem WellFormed.live_task (h : s.WellFormed) {j : Job} {r : ℕ} (hr : s.Live j r) :
    s.td.wheelTimer.task r = some ⟨j⟩ := by
  rcases hr with hr | hr
  · exact hr.2.2
  · exact h.inFlight_task hr

/-- The id of the job of a timeout. -/
def jobID (s : DispatchState) (r : ℕ) : Option ℤ := (s.td.wheelTimer.task r).map (·.job.id)

/-- The timeouts of a job that are in the wheel and not cancelled, and those whose runs
are in flight. -/
def liveTimeouts (s : DispatchState) (id : ℤ) : List ℕ :=
  (s.td.wheelTimer.pending.filter fun r =>
    !s.td.wheelTimer.isCancelled r && decide (s.jobID r = some id)) ++
  (s.runs.filter fun x => x.job.id = id).map TaskRun.timeout

theorem WellFormed.mem_liveTimeouts (h : s.WellFormed) {id : ℤ} {r : ℕ} :
    r ∈ s.liveTimeouts id ↔ ∃ j, j.id = id ∧ s.Live j r := by
  rw [liveTimeouts, List.mem_append, List.mem_filter, h.wheel.mem_pending, List.mem_map]
  constructor
  · rintro (⟨hp, hr⟩ | ⟨x, hx, rfl⟩)
    · obtain ⟨hc, hid⟩ : s.td.wheelTimer.isCancelled r = false ∧ s.jobID r = some id := by
        simpa using hr
      obtain ⟨task, htask, rfl⟩ := Option.map_eq_some_iff.mp hid
      exact ⟨task.job, rfl, Or.inl ⟨hp, hc, htask⟩⟩
    · obtain ⟨hx, hid⟩ := List.mem_filter.mp hx
      exact ⟨x.job, by simpa using hid, Or.inr ⟨x, hx, rfl, rfl⟩⟩
  · rintro ⟨j, rfl, ⟨hp, hc, htask⟩ | ⟨x, hx, rfl, rfl⟩⟩
    · exact Or.inl ⟨hp, by simp [hc, jobID, htask]⟩
    · exact Or.inr ⟨x, List.mem_filter.mpr ⟨hx, by simp⟩, rfl⟩

theorem WellFormed.nodup_liveTimeouts (h : s.WellFormed) (id : ℤ) :
    (s.liveTimeouts id).Nodup := by
  refine List.nodup_append.mpr ⟨h.wheel.nodup_pending.filter _,
    (List.filter_sublist.map _).nodup h.runs_nodup, ?_⟩
  rintro r hr _ hr' rfl
  obtain ⟨hp, hprop⟩ := List.mem_filter.mp hr
  obtain ⟨x, hx, rfl⟩ := List.mem_map.mp hr'
  obtain ⟨hx, -⟩ := List.mem_filter.mp hx
  obtain ⟨hc, -⟩ : s.td.wheelTimer.isCancelled x.timeout = false ∧ _ := by simpa using hprop
  exact h.run_disarmed x hx x.job ⟨h.wheel.mem_pending.mp hp, hc, h.run_task x hx⟩

/-! ### The runs in flight -/

theorem runAt_eq_some {r : ℕ} {stage : RunStage} {x : TaskRun} (h : s.runAt r stage = some x) :
    x ∈ s.runs ∧ x.timeout = r ∧ x.stage = stage := by
  have hmem := List.mem_of_find?_eq_some h
  have hprop := List.find?_some h
  exact ⟨hmem, by simpa using hprop⟩

theorem mem_firedRuns {w : HashedWheelTimer WheelTimerTask} {run : List ℕ} {x : TaskRun} :
    x ∈ firedRuns w run ↔
      x.timeout ∈ run ∧ w.task x.timeout = some ⟨x.job⟩ ∧ x.stage = .fired := by
  rw [firedRuns, List.mem_filterMap]
  constructor
  · rintro ⟨r, hr, hx⟩
    obtain ⟨task, htask, rfl⟩ := Option.map_eq_some_iff.mp hx
    exact ⟨hr, htask, rfl⟩
  · rintro ⟨hr, htask, hstage⟩
    refine ⟨x.timeout, hr, ?_⟩
    rw [htask, ← hstage]
    rfl

theorem timeout_firedRuns (w : HashedWheelTimer WheelTimerTask) (run : List ℕ) :
    (firedRuns w run).map TaskRun.timeout = run.filter fun r => (w.task r).isSome := by
  induction run with
  | nil => rfl
  | cons r run ih =>
    rw [firedRuns] at ih ⊢
    rcases ht : w.task r with _ | task <;> simp [ht, ih]

theorem timeout_advanceRun (s : DispatchState) (r : ℕ) (stage : RunStage) :
    (s.advanceRun r stage).map TaskRun.timeout = s.runs.map TaskRun.timeout := by
  rw [advanceRun, List.map_map]
  refine List.map_congr_left fun x _ => ?_
  by_cases hx : x.timeout = r <;> simp [hx]

/-- A run that has come further is the same run at another stage. -/
theorem mem_advanceRun {r : ℕ} {stage : RunStage} {x : TaskRun}
    (h : x ∈ s.advanceRun r stage) :
    ∃ y ∈ s.runs, y.timeout = x.timeout ∧ y.job = x.job ∧
      ((y.timeout = r ∧ x.stage = stage) ∨ (y.timeout ≠ r ∧ x = y)) := by
  obtain ⟨y, hy, rfl⟩ := List.mem_map.mp h
  by_cases hr : y.timeout = r
  · exact ⟨y, hy, by simp [hr], by simp [hr], Or.inl ⟨hr, by simp [hr]⟩⟩
  · exact ⟨y, hy, by simp [hr], by simp [hr], Or.inr ⟨hr, by simp [hr]⟩⟩

theorem inFlight_of_advanceRun {r r' : ℕ} {stage : RunStage} {j : Job}
    (h : s'.runs = s.advanceRun r stage) : s'.InFlight j r' ↔ s.InFlight j r' := by
  rw [InFlight, h]
  constructor
  · rintro ⟨x, hx, rfl, rfl⟩
    obtain ⟨y, hy, ht, hj, -⟩ := mem_advanceRun hx
    exact ⟨y, hy, ht, hj⟩
  · rintro ⟨x, hx, rfl, rfl⟩
    refine ⟨_, List.mem_map.mpr ⟨x, hx, rfl⟩, ?_, ?_⟩ <;> split_ifs <;> rfl

theorem inFlight_of_endRun {r r' : ℕ} {j : Job} (h : s'.runs = s.endRun r) :
    s'.InFlight j r' ↔ s.InFlight j r' ∧ r' ≠ r := by
  rw [InFlight, h]
  constructor
  · rintro ⟨x, hx, rfl, rfl⟩
    obtain ⟨hx, hr⟩ := List.mem_filter.mp hx
    exact ⟨⟨x, hx, rfl, rfl⟩, by simpa using hr⟩
  · rintro ⟨⟨x, hx, rfl, rfl⟩, hr⟩
    exact ⟨x, List.mem_filter.mpr ⟨hx, by simpa using hr⟩, rfl, rfl⟩

/-- The same runs are in flight. -/
theorem inFlight_of_eq {r : ℕ} {j : Job} (h : s'.runs = s.runs) :
    s'.InFlight j r ↔ s.InFlight j r := by
  rw [InFlight, h, InFlight]

end DispatchState

end HertzBeat
