import HertzBeat.Lib.Commute
import HertzBeat.Transport.Runner

/-!
# What a scheduler holds, by id

The state of a runner has much in it that depends on when things happened: the
addresses of timeouts, deadlines, buckets. What the transport is concerned with is
less, `HertzBeat.Tasks`: which job is registered as running under an id, and of which
job there is a timeout among the cyclic and among the temporary tasks. A stored nil
shows as `some none`.

Both methods of the runner are functions of this much
(`HertzBeat.Runner.tasks_addAsyncCollectJob`,
`HertzBeat.Runner.tasks_removeAsyncCollectJob`), given what the wheel gives for a job,
which they do not change. On it, operations on different ids commute, and two
removals do in any case.
-/

namespace HertzBeat

open Runs

/-- The jobs of a scheduler, by id. -/
@[ext]
structure Tasks where
  running : ℤ → Option Job
  cyclic : ℤ → Option (Option Job)
  temp : ℤ → Option (Option Job)

namespace Tasks

/-- The tasks of a scheduler that nothing was added to. -/
def empty : Tasks := ⟨fun _ => none, fun _ => none, fun _ => none⟩

/-- Add a job, for which the wheel gave the timeout. -/
def put (t : Tasks) (job : Job) (timeout : Option Job) : Tasks where
  running := Function.update t.running job.id (some job)
  cyclic := if job.isCyclic then Function.update t.cyclic job.id (some timeout) else t.cyclic
  temp := if job.isCyclic then t.temp else Function.update t.temp job.id (some timeout)

/-- Remove a job: its cyclic task, or else its temporary one. To cancel nil panics. -/
def remove (t : Tasks) (id : ℤ) : Option Tasks :=
  let running := Function.update t.running id none
  match t.cyclic id, t.temp id with
  | some (some _), _ => some { t with running, cyclic := Function.update t.cyclic id none }
  | some none, _ => none
  | none, some (some _) => some { t with running, temp := Function.update t.temp id none }
  | none, some none => none
  | none, none => some { t with running }

/-- A removal that succeeds changes the entries of its id only. -/
theorem remove_eq_some {t t' : Tasks} {id : ℤ} (h : t.remove id = some t') :
    t'.running = Function.update t.running id none ∧
      ∀ id', id' ≠ id → t'.cyclic id' = t.cyclic id' ∧ t'.temp id' = t.temp id' := by
  unfold remove at h
  split at h <;> cases h <;> refine ⟨rfl, fun id' hid => ?_⟩ <;>
    simp [Function.update_of_ne hid]

theorem running_foldlM_remove {ids : List ℤ} {t t' : Tasks} (h : ids.foldlM remove t = some t')
    {id : ℤ} (hid : id ∈ ids ∨ t.running id = none) : t'.running id = none := by
  induction ids generalizing t with
  | nil =>
    cases h
    exact hid.resolve_left (by simp)
  | cons id' ids ih =>
    obtain ⟨u, hu, hrest⟩ := Option.bind_eq_some_iff.mp h
    refine ih hrest ?_
    rw [(remove_eq_some hu).1]
    by_cases he : id = id'
    · exact .inr (by rw [he, Function.update_self])
    · rw [Function.update_of_ne he]
      exact hid.imp_left fun hmem => (List.mem_cons.mp hmem).resolve_left he

/-! ### What commutes -/

theorem put_comm (t : Tasks) {job job' : Job} (hne : job.id ≠ job'.id) (a b : Option Job) :
    (t.put job a).put job' b = (t.put job' b).put job a := by
  by_cases hc : job.isCyclic = true <;> by_cases hc' : job'.isCyclic = true <;>
    simp [put, hc, hc', Function.update_comm hne]

theorem put_remove_comm (t : Tasks) {job : Job} {id : ℤ} (hne : job.id ≠ id) (a : Option Job) :
    (t.put job a).remove id = (t.remove id).map (·.put job a) := by
  have hcyclic : (t.put job a).cyclic id = t.cyclic id := by
    by_cases hc : job.isCyclic = true <;> simp [put, hc, Function.update_of_ne hne.symm]
  have htemp : (t.put job a).temp id = t.temp id := by
    by_cases hc : job.isCyclic = true <;> simp [put, hc, Function.update_of_ne hne.symm]
  unfold remove
  rw [hcyclic, htemp]
  rcases t.cyclic id with _ | _ | _ <;> rcases t.temp id with _ | _ | _ <;>
    simp only [Option.map_none, Option.map_some, Option.some.injEq] <;>
    by_cases hc : job.isCyclic = true <;>
    simp [put, hc, Function.update_comm hne]

/-- Two removals commute. -/
theorem remove_comm (t : Tasks) (id id' : ℤ) :
    (t.remove id).bind (·.remove id') = (t.remove id').bind (·.remove id) := by
  rcases eq_or_ne id id' with rfl | hne
  · rfl
  · unfold remove
    rcases hc : t.cyclic id with _ | _ | _ <;> rcases ht : t.temp id with _ | _ | _ <;>
      rcases hc' : t.cyclic id' with _ | _ | _ <;> rcases ht' : t.temp id' with _ | _ | _ <;>
      simp [hc, ht, hc', ht', Function.update_of_ne hne, Function.update_of_ne hne.symm,
        Function.update_comm hne]

end Tasks

/-! ### The tasks of a runner -/

/-- What a wheel gives for a job: nothing where it panics, nil where it is stopped, and
else a timeout of the job. -/
def HashedWheelTimer.timeoutFor (w : HashedWheelTimer WheelTimerTask) (job : Job) :
    Option (Option Job) :=
  if w.stopped then some none else if w.Fits (firstDelay job) then some (some job) else none

theorem HashedWheelTimer.Still.timeoutFor {w w' : HashedWheelTimer WheelTimerTask}
    (h : w.Still w') : w'.timeoutFor = w.timeoutFor := by
  funext job
  have hfits : w'.Fits (firstDelay job) ↔ w.Fits (firstDelay job) := by
    unfold HashedWheelTimer.Fits
    rw [h.currentTick, h.tickDuration, h.wheelSize]
  simp only [HashedWheelTimer.timeoutFor, h.stopped, hfits]

/-- The job of the timeout stored under an id. -/
def storedJob (w : HashedWheelTimer WheelTimerTask) (tasks : Go.Map ℤ (Option ℕ)) (id : ℤ) :
    Option (Option Job) :=
  (tasks.lookup id).map fun o => (o.bind w.task).map (·.job)

section Stored

variable {w w' : HashedWheelTimer WheelTimerTask} {tasks : Go.Map ℤ (Option ℕ)}

theorem storedJob_still (h : TimeDispatch.Created w tasks) (hw : w.Still w') :
    storedJob w' tasks = storedJob w tasks := by
  funext id
  unfold storedJob
  rcases hl : tasks.lookup id with _ | _ | r
  · rfl
  · rfl
  · exact congrArg (fun t => some (Option.map _ t)) (hw.task r (h id r hl))

theorem storedJob_eq_comp (w : HashedWheelTimer WheelTimerTask) (tasks : Go.Map ℤ (Option ℕ)) :
    storedJob w tasks =
      Option.map (fun o : Option ℕ => (o.bind w.task).map (·.job)) ∘ tasks.lookup := rfl

theorem storedJob_insert (w : HashedWheelTimer WheelTimerTask) (tasks : Go.Map ℤ (Option ℕ))
    (id : ℤ) (o : Option ℕ) :
    storedJob w (tasks.insert id o) =
      Function.update (storedJob w tasks) id (some ((o.bind w.task).map (·.job))) := by
  rw [storedJob_eq_comp, Go.lookup_insert_eq_update, Function.comp_update]
  rfl

theorem storedJob_erase (w : HashedWheelTimer WheelTimerTask) (tasks : Go.Map ℤ (Option ℕ))
    (id : ℤ) : storedJob w (tasks.erase id) = Function.update (storedJob w tasks) id none := by
  rw [storedJob_eq_comp, Go.lookup_erase_eq_update, Function.comp_update]
  rfl

/-- A stored timeout has a job. -/
theorem storedJob_of_lookup (h : TimeDispatch.Created w tasks) {id : ℤ} {r : ℕ}
    (hl : tasks.lookup id = some (some r)) : ∃ job, storedJob w tasks id = some (some job) := by
  obtain ⟨t, ht⟩ := HashedWheelTimer.task_eq_some_of_lt (h id r hl)
  exact ⟨t.job, by simp [storedJob, hl, ht]⟩

end Stored

namespace Runner

/-- The wheel of a runner's dispatcher. -/
def wheel (r : Runner) : HashedWheelTimer WheelTimerTask := r.timeDispatch.wheelTimer

/-- The tasks of a runner. -/
def tasks (r : Runner) : Tasks where
  running := r.runningJobs.lookup
  cyclic := storedJob r.wheel r.timeDispatch.cyclicTasks
  temp := storedJob r.wheel r.timeDispatch.tempTasks

/-- What `AddJob` stores for a job the wheel gives a timeout for. -/
theorem tasks_of_newTimeout (r : Runner) (job : Job) (now : ℤ)
    {w : HashedWheelTimer WheelTimerTask} {o : Option ℕ} (hw : r.wheel.Still w)
    (hnew : r.wheel.newTimeout ⟨job⟩ (firstDelay job) now = .ok (w, o)) :
    ∃ r' : Runner, r.addAsyncCollectJob (some job) now = .ok (r', none) ∧
      r'.tasks = r.tasks.put job ((o.bind w.task).map (·.job)) ∧ r'.wheel = w := by
  have hnew' : r.timeDispatch.wheelTimer.newTimeout ⟨job⟩ (firstDelay job) now = .ok (w, o) := hnew
  have hcyclic := storedJob_still r.allocated.cyclic hw
  have htemp := storedJob_still r.allocated.temp hw
  unfold addAsyncCollectJob
  dsimp only
  split
  · rename_i p hadd
    simp only [TimeDispatch.addJob, hnew'] at hadd
    exact absurd hadd (by simp)
  · rename_i td hadd
    simp only [TimeDispatch.addJob, hnew'] at hadd
    cases hadd
    refine ⟨_, rfl, ?_, rfl⟩
    unfold tasks wheel Tasks.put
    dsimp only
    rw [Go.lookup_insert_eq_update]
    by_cases hc : job.isCyclic = true
    · simp only [hc, if_true, storedJob_insert, hcyclic, htemp]
    · simp only [hc, if_false, storedJob_insert, hcyclic, htemp, Bool.false_eq_true]
  · rename_i td err hadd
    simp only [TimeDispatch.addJob, hnew'] at hadd
    exact absurd hadd (by simp)

/-- **`AddAsyncCollectJob`, on the tasks.** -/
theorem tasks_addAsyncCollectJob (r : Runner) (job : Job) (now : ℤ) :
    (r.wheel.timeoutFor job = none ∧ ∃ p, r.addAsyncCollectJob (some job) now = .error p) ∨
      ∃ timeout r', r.wheel.timeoutFor job = some timeout ∧
        r.addAsyncCollectJob (some job) now = .ok (r', none) ∧
        r'.tasks = r.tasks.put job timeout ∧ r.wheel.Still r'.wheel := by
  -- stopped, in range, or a panic
  rcases r.wheel.newTimeout_cases ⟨job⟩ (firstDelay job) now with
    ⟨hstopped, hnew⟩ | ⟨hstopped, hfits, w, hstill, htask, -, hnew⟩ | ⟨hstopped, hfits, hnew⟩
  · obtain ⟨r', hadd, htasks, hw⟩ := r.tasks_of_newTimeout job now (.refl _) hnew
    refine .inr ⟨none, r', ?_, hadd, htasks, hw ▸ .refl _⟩
    rw [HashedWheelTimer.timeoutFor, if_pos hstopped]
  · obtain ⟨r', hadd, htasks, hw⟩ := r.tasks_of_newTimeout job now hstill hnew
    rw [Option.bind_some, htask] at htasks
    refine .inr ⟨some job, r', ?_, hadd, htasks, hw ▸ hstill⟩
    rw [HashedWheelTimer.timeoutFor, if_neg (by simp [hstopped]), if_pos hfits]
  · refine .inl ⟨?_, .indexOutOfRange, ?_⟩
    · rw [HashedWheelTimer.timeoutFor, if_neg (by simp [hstopped]), if_neg hfits]
    · have hadd : r.timeDispatch.addJob (some job) now = .error .indexOutOfRange := by
        simp only [TimeDispatch.addJob]
        rw [show r.timeDispatch.wheelTimer.newTimeout ⟨job⟩ (firstDelay job) now = _ from hnew]
      unfold addAsyncCollectJob
      dsimp only
      split <;> simp_all

/-- A removal that cancels the stored timeout, if there is one, and stores what is left. -/
theorem tasks_of_removeJob (r : Runner) (jobID : ℤ) {td : TimeDispatch} {err : Option Go.Str}
    (hrem : r.timeDispatch.removeJob jobID = .ok (td, err))
    (hw : r.wheel.Still td.wheelTimer) :
    ∃ r' err', r.removeAsyncCollectJob jobID = .ok (r', err') ∧ r.wheel.Still r'.wheel ∧
      r'.tasks = ⟨Function.update r.tasks.running jobID none,
        storedJob td.wheelTimer td.cyclicTasks, storedJob td.wheelTimer td.tempTasks⟩ := by
  unfold removeAsyncCollectJob
  dsimp only
  split
  · rename_i p hrem'
    exact absurd (hrem.symm.trans hrem') (by simp)
  · rename_i td' err' hrem'
    cases hrem.symm.trans hrem'
    refine ⟨_, _, rfl, hw, ?_⟩
    unfold tasks wheel
    rw [Go.lookup_erase_eq_update]

theorem removeAsyncCollectJob_error (r : Runner) {jobID : ℤ} {p : Go.Panic}
    (hrem : r.timeDispatch.removeJob jobID = .error p) :
    r.removeAsyncCollectJob jobID = .error p := by
  unfold removeAsyncCollectJob
  dsimp only
  split
  · rename_i p' hrem'
    cases hrem.symm.trans hrem'
    rfl
  · rename_i hrem'
    exact absurd (hrem.symm.trans hrem') (by simp)

/-- **`RemoveAsyncCollectJob`, on the tasks.** -/
theorem tasks_removeAsyncCollectJob (r : Runner) (jobID : ℤ) :
    (r.tasks.remove jobID = none ∧ ∃ p, r.removeAsyncCollectJob jobID = .error p) ∨
      ∃ r' err, r.removeAsyncCollectJob jobID = .ok (r', err) ∧
        r.tasks.remove jobID = some r'.tasks ∧ r.wheel.Still r'.wheel := by
  -- cancelling a timeout leaves its job readable, so the other entries stand
  have hcyclic (a : ℕ) : storedJob (r.timeDispatch.wheelTimer.cancel a)
      r.timeDispatch.cyclicTasks = r.tasks.cyclic :=
    storedJob_still r.allocated.cyclic (r.wheel.still_cancel a)
  have htemp (a : ℕ) : storedJob (r.timeDispatch.wheelTimer.cancel a)
      r.timeDispatch.tempTasks = r.tasks.temp :=
    storedJob_still r.allocated.temp (r.wheel.still_cancel a)
  -- the dispatcher looks at the cyclic tasks, then at the temporary ones
  rcases hc : r.timeDispatch.cyclicTasks.lookup jobID with _ | _ | a
  · have hmissing : r.tasks.cyclic jobID = none := by simp [tasks, storedJob, hc]
    rcases ht : r.timeDispatch.tempTasks.lookup jobID with _ | _ | a
    · have hmissing' : r.tasks.temp jobID = none := by simp [tasks, storedJob, ht]
      obtain ⟨r', err, hrem, hw, htasks⟩ := r.tasks_of_removeJob jobID
        (by simp only [TimeDispatch.removeJob, hc, ht]; rfl) (by exact .refl _)
      refine .inr ⟨r', err, hrem, ?_, hw⟩
      rw [htasks, Tasks.remove, hmissing, hmissing']
      rfl
    · have hnil : r.tasks.temp jobID = some none := by simp [tasks, storedJob, ht]
      refine .inl ⟨by simp [Tasks.remove, hmissing, hnil], .nilDereference,
        r.removeAsyncCollectJob_error ?_⟩
      simp only [TimeDispatch.removeJob, hc, ht, cancelStored]
    · obtain ⟨job, hjob⟩ := storedJob_of_lookup r.allocated.temp ht
      obtain ⟨r', err, hrem, hw, htasks⟩ := r.tasks_of_removeJob jobID
        (by simp only [TimeDispatch.removeJob, hc, ht, cancelStored]; rfl)
        (by exact r.wheel.still_cancel a)
      refine .inr ⟨r', err, hrem, ?_, hw⟩
      rw [htasks, Tasks.remove, hmissing, show r.tasks.temp jobID = some (some job) from hjob]
      simp only [storedJob_erase, hcyclic, htemp]
  · have hnil : r.tasks.cyclic jobID = some none := by simp [tasks, storedJob, hc]
    refine .inl ⟨by simp [Tasks.remove, hnil], .nilDereference,
      r.removeAsyncCollectJob_error ?_⟩
    simp only [TimeDispatch.removeJob, hc, cancelStored]
  · obtain ⟨job, hjob⟩ := storedJob_of_lookup r.allocated.cyclic hc
    obtain ⟨r', err, hrem, hw, htasks⟩ := r.tasks_of_removeJob jobID
      (by simp only [TimeDispatch.removeJob, hc, cancelStored]; rfl)
        (by exact r.wheel.still_cancel a)
    refine .inr ⟨r', err, hrem, ?_, hw⟩
    rw [htasks, Tasks.remove, show r.tasks.cyclic jobID = some (some job) from hjob]
    simp only [storedJob_erase, hcyclic, htemp]

end Runner

end HertzBeat
