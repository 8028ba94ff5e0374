import HertzBeat.Dispatcher.ArmedTimeouts
import HertzBeat.Types.Job

/-!
# The time dispatcher

`TimeDispatch` of `internal/job/dispatcher/time_wheel.go`, which schedules jobs on
the timer wheel, and the `WheelTimerTask` of `wheel_timer_task.go`, which the wheel
runs for a job.

A `sync.Map` is a map, and the nil pointer that `NewTimeout` returns once the timer
is stopped is stored in it like any other: the values are `Option ℕ`, an address or
nil. A function that can panic returns `Except`, one that returns an error returns
its text, `none` being nil. Every function that reads the clock takes the time, in
nanoseconds.

`Start` makes two goroutines, the one that takes the ticks of the wheel and the one
that logs the statistics, and each is given a context derived from that of the call.
The contexts belong to the goroutines and are with them, in
`HertzBeat.Dispatcher.Lifecycle`; here is what the dispatcher holds of the second one,
the function that cancels its context and its ticker. What it logs is left out.
-/

namespace HertzBeat

open Go (Str)

/-! ### The delays of a job -/

/-- The delay `AddJob` gives the wheel. -/
def firstDelay (job : Job) : ℤ :=
  -- the interval counts milliseconds here, and seconds in `nextDelay`
  if 0 < job.defaultInterval then Go.wrap64 (job.defaultInterval * Go.millisecond)
  else 10 * Go.second

/-- The delay `RescheduleJob` gives the wheel, and the distance to the next execution
that `UpdateJobExecution` records. -/
def nextDelay (job : Job) : ℤ := Go.wrap64 (job.defaultInterval * Go.second)

/-! ### The dispatcher -/

/-- A task that runs in the time wheel. The dispatcher it reports to is the one that
created it, and its job is not nil: both places that create a task pass both. -/
structure WheelTimerTask where
  job : Job

/-- Information about a scheduled job. A zero time is `none`. -/
structure JobInfo where
  job : Job
  timeout : Option ℕ
  createdAt : ℤ
  lastExecutedAt : Option ℤ := none
  nextExecutionAt : ℤ
  executionCount : ℤ := 0

/-- Dispatcher statistics. -/
structure DispatcherStats where
  startTime : ℤ
  totalJobsAdded : ℤ := 0
  totalJobsRemoved : ℤ := 0
  totalJobsExecuted : ℤ := 0
  totalJobsCompleted : ℤ := 0
  totalJobsFailed : ℤ := 0
  lastExecutionTime : Option ℤ := none
  deriving DecidableEq, Repr

/-- The time dispatcher. -/
structure TimeDispatch where
  wheelTimer : HashedWheelTimer WheelTimerTask
  cyclicTasks : Go.Map ℤ (Option ℕ)
  tempTasks : Go.Map ℤ (Option ℕ)
  jobInfos : Go.Map ℤ JobInfo
  started : Bool
  stats : DispatcherStats
  /-- The ticker of the statistics. -/
  statsLogger : Option ℕ
  /-- The function that cancels the context of the goroutine that logs them. -/
  statsCancel : Option ℕ
  /-- For each such goroutine that was started, whether its context was cancelled. It is
  numbered like its ticker. -/
  statsContexts : Mem Bool

/-- `Cancel` through a stored pointer. -/
def cancelStored (w : HashedWheelTimer WheelTimerTask) :
    Option ℕ → Except Go.Panic (HashedWheelTimer WheelTimerTask)
  | some r => .ok (w.cancel r)
  | none => .error .nilDereference

namespace TimeDispatch

/-- `NewTimeDispatch`. -/
def newTimeDispatch (now : ℤ) : TimeDispatch where
  wheelTimer := HashedWheelTimer.newHashedWheelTimer WheelTimerTask 512 (100 * Go.millisecond)
  cyclicTasks := ∅
  tempTasks := ∅
  jobInfos := ∅
  started := false
  stats := { startTime := now }
  statsLogger := none
  statsCancel := none
  statsContexts := Mem.empty

/-- `AddJob`. -/
def addJob (td : TimeDispatch) (job : Option Job) (now : ℤ) :
    Except Go.Panic (TimeDispatch × Option Str) :=
  match job with
  | none => .ok (td, some (Go.str "job cannot be nil"))
  | some job =>
    let delay := firstDelay job
    match td.wheelTimer.newTimeout ⟨job⟩ delay now with
    | .error p => .error p
    | .ok (wheelTimer, timeout) =>
      -- what was stored under the id before is overwritten, and its timeout not cancelled
      let jobInfo : JobInfo :=
        { job := job, timeout := timeout, createdAt := now, nextExecutionAt := now + delay }
      .ok ({ td with
        wheelTimer := wheelTimer
        cyclicTasks :=
          if job.isCyclic then td.cyclicTasks.insert job.id timeout else td.cyclicTasks
        tempTasks := if job.isCyclic then td.tempTasks else td.tempTasks.insert job.id timeout
        jobInfos := td.jobInfos.insert job.id jobInfo
        stats := { td.stats with totalJobsAdded := td.stats.totalJobsAdded + 1 } }, none)

/-- `RemoveJob`: the cyclic tasks are looked at first. -/
def removeJob (td : TimeDispatch) (jobID : ℤ) : Except Go.Panic (TimeDispatch × Option Str) :=
  let stats := { td.stats with totalJobsRemoved := td.stats.totalJobsRemoved + 1 }
  match td.cyclicTasks.lookup jobID with
  | some timeout =>
    -- a temporary task of the same id stays
    match cancelStored td.wheelTimer timeout with
    | .error p => .error p
    | .ok wheelTimer =>
      .ok ({ td with
        wheelTimer := wheelTimer
        cyclicTasks := td.cyclicTasks.erase jobID
        jobInfos := td.jobInfos.erase jobID
        stats := stats }, none)
  | none =>
    match td.tempTasks.lookup jobID with
    | some timeout =>
      match cancelStored td.wheelTimer timeout with
      | .error p => .error p
      | .ok wheelTimer =>
        .ok ({ td with
          wheelTimer := wheelTimer
          tempTasks := td.tempTasks.erase jobID
          jobInfos := td.jobInfos.erase jobID
          stats := stats }, none)
    | none =>
      .ok ({ td with stats := stats }, some (Go.str "job not found: " ++ Go.str (toString jobID)))

/-- `startStatsLogging`, up to the goroutine that it starts. -/
def startStatsLogging (td : TimeDispatch) : TimeDispatch :=
  { td with
    statsCancel := some td.statsContexts.size
    statsLogger := some td.statsContexts.size
    statsContexts := td.statsContexts.alloc false }

/-- `stopStatsLogging`. The goroutine that it stops reads `statsLogger` whenever it comes
to its `select`. -/
def stopStatsLogging (td : TimeDispatch) : TimeDispatch :=
  { td with
    statsContexts := match td.statsCancel with
      | some i => td.statsContexts.modify i fun _ => true
      | none => td.statsContexts
    statsCancel := none
    statsLogger := none }

@[simp] theorem stopStatsLogging_wheelTimer (td : TimeDispatch) :
    td.stopStatsLogging.wheelTimer = td.wheelTimer := rfl

@[simp] theorem stopStatsLogging_cyclicTasks (td : TimeDispatch) :
    td.stopStatsLogging.cyclicTasks = td.cyclicTasks := rfl

@[simp] theorem stopStatsLogging_tempTasks (td : TimeDispatch) :
    td.stopStatsLogging.tempTasks = td.tempTasks := rfl

/-- What the dispatcher holds of the statistics goroutines. -/
def statsLogging (td : TimeDispatch) : Option ℕ × Option ℕ × Mem Bool :=
  (td.statsLogger, td.statsCancel, td.statsContexts)

/-- `Start`. The start of the wheel timer never fails. -/
def start (td : TimeDispatch) : TimeDispatch × Option Str :=
  if td.started then (td, some (Go.str "time dispatcher already started"))
  else
    let td := { td with wheelTimer := td.wheelTimer.start }
    ({ td.startStatsLogging with started := true }, none)

/-- The loops of `Stop`: cancel every stored timeout. The order in which a map is
visited makes no difference to the outcome. -/
def cancelAll (w : HashedWheelTimer WheelTimerTask) (timeouts : List (Option ℕ)) :
    Except Go.Panic (HashedWheelTimer WheelTimerTask) :=
  timeouts.foldlM cancelStored w

/-- `Stop`. An error of the wheel timer's `Stop` is only logged, and there is none. -/
def stop (td : TimeDispatch) : Except Go.Panic TimeDispatch :=
  if td.started then do
    let td := td.stopStatsLogging
    let w ← cancelAll td.wheelTimer (td.cyclicTasks.entries.map Sigma.snd)
    let w ← cancelAll w (td.tempTasks.entries.map Sigma.snd)
    let w ← w.stop
    return { td with
      wheelTimer := w, cyclicTasks := ∅, tempTasks := ∅, jobInfos := ∅, started := false }
  else
    return td

/-! ### What a task reports -/

/-- `RecordJobExecution`. -/
def recordJobExecution (td : TimeDispatch) (now : ℤ) : TimeDispatch :=
  { td with stats := { td.stats with
      totalJobsExecuted := td.stats.totalJobsExecuted + 1, lastExecutionTime := some now } }

/-- `RecordJobCompleted`. -/
def recordJobCompleted (td : TimeDispatch) : TimeDispatch :=
  { td with stats := { td.stats with totalJobsCompleted := td.stats.totalJobsCompleted + 1 } }

/-- `RecordJobFailed`. -/
def recordJobFailed (td : TimeDispatch) : TimeDispatch :=
  { td with stats := { td.stats with totalJobsFailed := td.stats.totalJobsFailed + 1 } }

/-- `UpdateJobExecution`. -/
def updateJobExecution (td : TimeDispatch) (jobID now : ℤ) : TimeDispatch :=
  match td.jobInfos.lookup jobID with
  | none => td
  | some jobInfo =>
    let jobInfo' : JobInfo := { jobInfo with
      lastExecutedAt := some now
      executionCount := jobInfo.executionCount + 1
      nextExecutionAt :=
        if jobInfo.job.isCyclic ∧ 0 < jobInfo.job.defaultInterval then now + nextDelay jobInfo.job
        else jobInfo.nextExecutionAt }
    { td with jobInfos := td.jobInfos.insert jobID jobInfo' }

/-- `RescheduleJob`. -/
def rescheduleJob (td : TimeDispatch) (job : Job) (now : ℤ) :
    Except Go.Panic (TimeDispatch × Option Str) :=
  if ¬job.isCyclic ∨ job.defaultInterval ≤ 0 then
    .ok (td, some (Go.str "job is not cyclable or has invalid interval"))
  else
    match td.wheelTimer.newTimeout ⟨job⟩ (nextDelay job) now with
    | .error p => .error p
    | .ok (wheelTimer, timeout) =>
      -- stored even if the job was removed while it ran
      .ok ({ td with
        wheelTimer := wheelTimer
        cyclicTasks := td.cyclicTasks.insert job.id timeout
        jobInfos := match td.jobInfos.lookup job.id with
          | none => td.jobInfos
          | some jobInfo => td.jobInfos.insert job.id
              { jobInfo with nextExecutionAt := now + nextDelay job, timeout := timeout } }, none)

end TimeDispatch

/-! ### A run of a task

`Run` of a task is cut at its call of `DispatchMetricsTask`, which may take any time
and end in any way, and once more before `rescheduleJob`. -/

/-- How `DispatchMetricsTask` ends. A panic is recovered by the wheel. -/
inductive Outcome where
  | ok
  | error
  | panic
  deriving DecidableEq, Repr

namespace WheelTimerTask

/-- `Run` up to the call of `DispatchMetricsTask`. -/
def begin (task : WheelTimerTask) (td : TimeDispatch) (now : ℤ) : TimeDispatch :=
  (td.recordJobExecution now).updateJobExecution task.job.id now

/-- `Run` from the return of `DispatchMetricsTask` to the rescheduling. -/
def complete (td : TimeDispatch) : Outcome → TimeDispatch
  | .ok => td.recordJobCompleted
  | .error => td.recordJobFailed
  | .panic => td

/-- Whether a `Run` goes on to reschedule the job. -/
def reschedules (task : WheelTimerTask) (outcome : Outcome) : Bool :=
  outcome = .ok ∧ task.job.isCyclic ∧ 0 < task.job.defaultInterval

/-- The rescheduling at the end of `Run`, whose error is only logged. -/
def rescheduleJob (task : WheelTimerTask) (td : TimeDispatch) (now : ℤ) :
    Except Go.Panic TimeDispatch :=
  if task.job.defaultInterval ≤ 0 then .ok td
  else (td.rescheduleJob task.job now).map Prod.fst

end WheelTimerTask

end HertzBeat
