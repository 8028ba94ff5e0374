import HertzBeat.Dispatcher.TimeDispatch

/-!
# The runner

`Runner` of `internal/job/server/job_server.go`, through which the transport adds and
removes jobs: it keeps the running jobs in a map of its own beside the time
dispatcher. Both methods hold its lock from the first access to the last, so each is
one step.

The dispatcher stores pointers to timeouts of its wheel. That they lead to timeouts
the wheel has created is part of what a runner is here, `HertzBeat.Runner.allocated`,
and the two methods keep it.
-/

namespace HertzBeat

open Go (Str)

/-! ### What the dispatcher has stored -/

namespace TimeDispatch

/-- Every timeout in a map is one that the wheel has created. -/
def Created (w : HashedWheelTimer WheelTimerTask) (tasks : Go.Map ℤ (Option ℕ)) : Prop :=
  ∀ id r, tasks.lookup id = some (some r) → r < w.timeouts.size

theorem Created.mono {w w' : HashedWheelTimer WheelTimerTask} {tasks : Go.Map ℤ (Option ℕ)}
    (h : Created w tasks) (hw : w.timeouts.size ≤ w'.timeouts.size) : Created w' tasks :=
  fun id r hr => (h id r hr).trans_le hw

theorem Created.insert {w : HashedWheelTimer WheelTimerTask} {tasks : Go.Map ℤ (Option ℕ)}
    (h : Created w tasks) (id : ℤ) {o : Option ℕ} (ho : ∀ r, o = some r → r < w.timeouts.size) :
    Created w (tasks.insert id o) := by
  intro id' r hr
  rcases Go.lookup_of_lookup_insert hr with ⟨-, hnew⟩ | hold
  · exact ho r hnew
  · exact h id' r hold

theorem Created.erase {w : HashedWheelTimer WheelTimerTask} {tasks : Go.Map ℤ (Option ℕ)}
    (h : Created w tasks) (id : ℤ) : Created w (tasks.erase id) :=
  fun id' r hr => h id' r (Go.lookup_of_lookup_erase hr)

/-- Every timeout the dispatcher has stored is one that its wheel has created. -/
structure Allocated (td : TimeDispatch) : Prop where
  cyclic : Created td.wheelTimer td.cyclicTasks
  temp : Created td.wheelTimer td.tempTasks

theorem allocated_newTimeDispatch (now : ℤ) : (newTimeDispatch now).Allocated where
  cyclic := fun id r h => absurd h (by simp [newTimeDispatch])
  temp := fun id r h => absurd h (by simp [newTimeDispatch])

theorem Allocated.addJob {td td' : TimeDispatch} (h : td.Allocated) {job : Option Job} {now : ℤ}
    {e : Option Str} (hok : td.addJob job now = .ok (td', e)) : td'.Allocated := by
  cases job with
  | none =>
    cases hok
    exact h
  | some job =>
    rw [TimeDispatch.addJob] at hok
    split at hok
    · exact absurd hok (by simp)
    · rename_i w o hnew
      cases hok
      -- the timeout that is stored is the one the wheel has just returned
      have hw : td.wheelTimer.timeouts.size ≤ w.timeouts.size ∧
          ∀ r, o = some r → r < w.timeouts.size := by
        rcases td.wheelTimer.newTimeout_cases ⟨job⟩ (firstDelay job) now with
          ⟨-, hok⟩ | ⟨-, -, w', hstill, -, hlt, hok⟩ | ⟨-, -, hok⟩
        · cases hok.symm.trans hnew
          exact ⟨le_rfl, by simp⟩
        · cases hok.symm.trans hnew
          refine ⟨hstill.size_le, ?_⟩
          rintro r hr
          cases hr
          exact hlt
        · exact absurd (hok.symm.trans hnew) (by simp)
      by_cases hcyclic : job.isCyclic = true
      · simp only [hcyclic, if_true]
        exact ⟨(h.cyclic.mono hw.1).insert job.id hw.2, h.temp.mono hw.1⟩
      · simp only [hcyclic, Bool.false_eq_true, if_false]
        exact ⟨h.cyclic.mono hw.1, (h.temp.mono hw.1).insert job.id hw.2⟩

theorem Allocated.removeJob {td td' : TimeDispatch} (h : td.Allocated) {jobID : ℤ}
    {e : Option Str} (hok : td.removeJob jobID = .ok (td', e)) : td'.Allocated := by
  have hcancel : ∀ {o w}, cancelStored td.wheelTimer o = .ok w →
      td.wheelTimer.timeouts.size ≤ w.timeouts.size := by
    rintro (_ | r) w hw
    · exact absurd hw (by simp [cancelStored])
    · cases hw
      exact (td.wheelTimer.still_cancel r).size_le
  rw [TimeDispatch.removeJob] at hok
  split at hok
  · split at hok
    · exact absurd hok (by simp)
    · rename_i hw
      cases hok
      exact ⟨(h.cyclic.mono (hcancel hw)).erase jobID, h.temp.mono (hcancel hw)⟩
  · split at hok
    · split at hok
      · exact absurd hok (by simp)
      · rename_i hw
        cases hok
        exact ⟨h.cyclic.mono (hcancel hw), (h.temp.mono (hcancel hw)).erase jobID⟩
    · cases hok
      exact ⟨h.cyclic, h.temp⟩

end TimeDispatch

/-! ### The runner -/

/-- The runner. -/
structure Runner where
  runningJobs : Go.Map ℤ Job
  timeDispatch : TimeDispatch
  /-- What the dispatcher has stored are timeouts of its wheel. -/
  allocated : timeDispatch.Allocated

namespace Runner

/-- `AddAsyncCollectJob`. -/
def addAsyncCollectJob (r : Runner) (job : Option Job) (now : ℤ) :
    Except Go.Panic (Runner × Option Str) :=
  match job with
  | none => .ok (r, some (Go.str "job cannot be nil"))
  | some job =>
    let runningJobs := r.runningJobs.insert job.id job
    match h : r.timeDispatch.addJob (some job) now with
    | .error p => .error p
    | .ok (td, none) => .ok (⟨runningJobs, td, r.allocated.addJob h⟩, none)
    | .ok (td, some err) =>
      .ok (⟨runningJobs.erase job.id, td, r.allocated.addJob h⟩,
        some (Go.str "failed to add job to time dispatcher: " ++ err))

/-- `RemoveAsyncCollectJob`. -/
def removeAsyncCollectJob (r : Runner) (jobID : ℤ) : Except Go.Panic (Runner × Option Str) :=
  let runningJobs := r.runningJobs.erase jobID
  match h : r.timeDispatch.removeJob jobID with
  | .error p => .error p
  | .ok (td, err) =>
    .ok (⟨runningJobs, td, r.allocated.removeJob h⟩,
      err.map (Go.str "failed to remove job from time dispatcher: " ++ ·))

end Runner

end HertzBeat
