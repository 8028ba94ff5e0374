import HertzBeat.Dispatcher.DispatchSteps
import HertzBeat.Lib.Views

/-!
# Jobs do not influence each other's schedule

All jobs share the buckets of one wheel, its tick counter and the three maps of the dispatcher.
Still the ticks that run the timeouts of a job depend on the steps taken for that job alone. The
dispatcher as one job id sees it is `HertzBeat.JobView`: the counter, the timeouts of the id in the
order in which they were created – each with its tick, its bucket and whether it is armed – and
which of them the two task maps hold. An address would tell how many timeouts the other jobs have
created, so a timeout is named by its position in that order.

The view is a machine of its own, `HertzBeat.JobView.machine`: ticks and the `AddJob`, `RemoveJob`
and rescheduling steps of the id move it, and every other step of the dispatcher leaves it alone
(`HertzBeat.DispatchState.moves_step`). To begin a `Run` and to end one without rescheduling
changes no schedule, so these steps need not even be the same in two runs that are compared.

The argument needs that nothing stored under an id is a timeout of another id, which is part of
`HertzBeat.DispatchState.WellFormed`, and that the wheel is not stopped.
-/

namespace HertzBeat

open Runs

/-! ### The timeouts of the wheel, one by one -/

/-- What decides by which tick a timeout is run. -/
structure Timer where
  wheelIndex : ℤ
  bucketIndex : ℤ
  /-- Whether the timeout is in the wheel and not cancelled. -/
  armed : Bool
  deriving DecidableEq, Repr

namespace Timer

/-- The timer once its timeout is cancelled, or run. -/
def disarm (x : Timer) : Timer := { x with armed := false }

/-- Whether the tick with this number runs the timeout. -/
def due (x : Timer) (wheelSize : ℤ) (t : ℕ) : Bool :=
  x.armed && (decide (x.bucketIndex = (t : ℤ).tmod wheelSize) && decide (x.wheelIndex ≤ t))

theorem due_iff {x : Timer} {wheelSize : ℤ} {t : ℕ} : x.due wheelSize t = true ↔
    x.armed = true ∧ x.bucketIndex = (t : ℤ).tmod wheelSize ∧ x.wheelIndex ≤ t := by
  simp [due]

end Timer

namespace HashedWheelTimer

variable {T : Type} {w w' : HashedWheelTimer T}

/-- The timer of the timeout at an address. -/
def timer (w : HashedWheelTimer T) (r : ℕ) : Timer :=
  ⟨w.wheelIndex r, w.bucketIndex r, decide (w.Pending r) && !w.isCancelled r⟩

theorem WellFormed.armed_timer (h : w.WellFormed) {r : ℕ} :
    (w.timer r).armed = true ↔ ∃ t, w.Armed t r := by
  rw [timer, Bool.and_eq_true, decide_eq_true_eq, Bool.not_eq_true']
  constructor
  · rintro ⟨hp, hc⟩
    obtain ⟨t, ht⟩ := task_eq_some_of_lt (h.size_of_pending hp)
    exact ⟨t, hp, hc, ht⟩
  · rintro ⟨t, hp, hc, -⟩
    exact ⟨hp, hc⟩

/-- A timer is the place of its timeout, which never changes, and whether it is armed. -/
theorem timer_eq_iff (h : w.WellFormed) {r : ℕ} {x : Timer} :
    w.timer r = x ↔ w.wheelIndex r = x.wheelIndex ∧ w.bucketIndex r = x.bucketIndex ∧
      ((∃ t, w.Armed t r) ↔ x.armed = true) := by
  rw [← h.armed_timer, ← Bool.eq_iff_iff]
  cases x
  simp [timer]

/-- **`Cancel` disarms the one timer.** -/
theorem timer_cancel (h : w.WellFormed) (r r' : ℕ) :
    (w.cancel r).timer r' = if r' = r then (w.timer r').disarm else w.timer r' := by
  rw [timer_eq_iff (wellFormed_cancel h r), w.wheelIndex_cancel, w.bucketIndex_cancel]
  simp only [armed_cancel h, exists_and_right, ← h.armed_timer]
  split_ifs with hr
  · simp [hr, Timer.disarm, timer]
  · simp [hr, timer]

/-- **A tick runs the timeouts that are due.** -/
theorem mem_tick_run_iff (h : w.WellFormed) {r : ℕ} :
    r ∈ w.tick.2.run ↔ (w.timer r).due w.wheelSize (w.currentTick + 1) = true := by
  rw [tick, mem_processTick_run]
  change r ∈ w.wheel (((w.currentTick + 1 : ℕ) : ℤ).tmod w.wheelSize) ∧ w.isCancelled r = false ∧
    w.wheelIndex r ≤ (w.currentTick + 1 : ℕ) ↔ _
  rw [h.mem_iff, Timer.due_iff, timer, Bool.and_eq_true, decide_eq_true_eq, Bool.not_eq_true']
  tauto

theorem timer_tick (h : w.WellFormed) (r : ℕ) :
    w.tick.1.timer r = if (w.timer r).due w.wheelSize (w.currentTick + 1) then (w.timer r).disarm
      else w.timer r := by
  rw [timer_eq_iff (wellFormed_tick h)]
  simp only [armed_tick h, exists_and_right, ← h.armed_timer, mem_tick_run_iff h]
  change w.wheelIndex r = _ ∧ w.bucketIndex r = _ ∧ _
  split_ifs with hdue
  · exact ⟨rfl, rfl, by simp [hdue, Timer.disarm]⟩
  · exact ⟨rfl, rfl, by simp [hdue]⟩

/-- The timer that a timeout with this delay gets. -/
def newTimer (wheelSize tickDuration : ℤ) (currentTick : ℕ) (delay : ℤ) : Timer :=
  ⟨currentTick + delay.tdiv tickDuration,
    (currentTick + delay.tdiv tickDuration).tmod wheelSize, true⟩

/-- **What `NewTimeout` does to the timers**: there is a new one. -/
structure Sets (w : HashedWheelTimer T) (task : T) (delay : ℤ) (w' : HashedWheelTimer T) :
    Prop where
  size_eq : w'.timeouts.size = w.timeouts.size + 1
  task_eq : ∀ r, w'.task r = if r = w.timeouts.size then some task else w.task r
  timer_eq : ∀ r, w'.timer r = if r = w.timeouts.size then
    newTimer w.wheelSize w.tickDuration w.currentTick delay else w.timer r
  wheelSize_eq : w'.wheelSize = w.wheelSize
  tickDuration_eq : w'.tickDuration = w.tickDuration
  currentTick_eq : w'.currentTick = w.currentTick
  fits : 0 ≤ (newTimer w.wheelSize w.tickDuration w.currentTick delay).bucketIndex

theorem sets_of_newTimeout (h : w.WellFormed) (hstopped : w.stopped = false) {task : T}
    {delay now : ℤ} {o : Option ℕ} (hok : w.newTimeout task delay now = .ok (w', o)) :
    o = some w.timeouts.size ∧ w.Sets task delay w' := by
  rw [newTimeout, hstopped, if_neg Bool.false_ne_true, addToBucket] at hok
  split_ifs at hok with hi
  obtain ⟨rfl, rfl⟩ := Prod.mk.inj (Except.ok.inj hok)
  have harms := arms_push h task delay now hi
  refine ⟨rfl, harms.size_eq, harms.task_eq, fun r => ?_, rfl, rfl, rfl, ?_⟩
  · rw [timer_eq_iff harms.wellFormed]
    simp only [harms.armed_iff, exists_or, ← h.armed_timer, exists_and_right, exists_eq, true_and]
    change (w.prepareTimeout task delay now).wheelIndex r = _ ∧
      (w.prepareTimeout task delay now).bucketIndex r = _ ∧ _
    split_ifs with hr
    · subst hr
      rw [w.wheelIndex_prepareTimeout_new, w.bucketIndex_prepareTimeout_new]
      simp [newTimer]
    · rw [w.wheelIndex_prepareTimeout _ _ _ hr, w.bucketIndex_prepareTimeout _ _ _ hr]
      simp [hr, timer]
  · rw [w.bucketIndex_prepareTimeout_new] at hi
    exact hi.1

theorem not_fits_of_newTimeout {task : T} {delay now : ℤ} {p : Go.Panic}
    (herr : w.newTimeout task delay now = .error p) :
    ¬0 ≤ (newTimer w.wheelSize w.tickDuration w.currentTick delay).bucketIndex := by
  intro hi
  obtain ⟨w', o, hok⟩ := exists_newTimeout task now hi
  rw [herr] at hok
  exact absurd hok (by simp)

end HashedWheelTimer

/-! ### What one job sees -/

/-- **The dispatcher as one job id sees it.** -/
structure JobView where
  wheelSize : ℤ
  tickDuration : ℤ
  currentTick : ℕ
  /-- The timeouts created for the id, in order. -/
  timers : List Timer
  /-- For each of them, the delay with which its `Run` reschedules the job. -/
  delays : List ℤ
  /-- The position of the timeout that is stored as cyclic task. -/
  cyclic : Option ℕ
  /-- The position of the timeout that is stored as one-time task. -/
  temp : Option ℕ

/-- What can be done for a job id, and the tick. -/
inductive JobInput where
  | tick
  | add (job : Job)
  | remove
  /-- The `Run` of the timeout at this position reschedules its job. -/
  | reschedule (k : ℕ)

namespace JobView

/-- Whether the next tick runs a timeout. -/
def due (v : JobView) (x : Timer) : Bool := x.due v.wheelSize (v.currentTick + 1)

/-- The timer that a timeout with this delay gets now. -/
def newTimer (v : JobView) (delay : ℤ) : Timer :=
  HashedWheelTimer.newTimer v.wheelSize v.tickDuration v.currentTick delay

/-- One more timeout. -/
def arm (v : JobView) (delay next : ℤ) : JobView :=
  { v with timers := v.timers ++ [v.newTimer delay], delays := v.delays ++ [next] }

/-- Cancel the timeout at a position. -/
def disarm (v : JobView) (k : ℕ) : JobView := { v with timers := v.timers.modify k Timer.disarm }

/-- What the id sees happen. -/
def step (v : JobView) : JobInput → JobView
  | .tick => { v with
      currentTick := v.currentTick + 1
      timers := v.timers.map fun x => if v.due x then x.disarm else x }
  | .add job =>
    let v' := v.arm (firstDelay job) (nextDelay job)
    if job.isCyclic then { v' with cyclic := some v.timers.length }
    else { v' with temp := some v.timers.length }
  | .remove =>
    match v.cyclic, v.temp with
    | some k, _ => { v.disarm k with cyclic := none }
    | none, some k => { v.disarm k with temp := none }
    | none, none => v
  | .reschedule k =>
    let delay := v.delays.getD k 0
    -- a negative bucket index is a panic, which the goroutine of the run recovers
    if 0 ≤ (v.newTimer delay).bucketIndex then
      { v.arm delay delay with cyclic := some v.timers.length }
    else v

/-- The view as a machine: the output of a tick is, for each timeout of the id, whether the tick
runs it. -/
def machine : Machine JobView JobInput (List Bool) where
  next := step
  output := fun v i => match i with
    | .tick => some (v.timers.map v.due)
    | _ => none

end JobView

namespace DispatchState

variable {s s' : DispatchState} {ev : List DispatchEvent} {a : ℤ}

/-- The timeouts created for a job id, in order. -/
def timeoutsOf (s : DispatchState) (a : ℤ) : List ℕ :=
  (List.range s.td.wheelTimer.timeouts.size).filter fun r => s.jobID r = some a

/-- The position of a timeout among those of a job id. -/
def position (s : DispatchState) (a : ℤ) (r : ℕ) : ℕ := (s.timeoutsOf a).idxOf r

/-- The delay with which the `Run` of a timeout reschedules its job. -/
def delayOf (s : DispatchState) (r : ℕ) : ℤ :=
  ((s.td.wheelTimer.task r).map fun task => nextDelay task.job).getD 0

/-- The position of the timeout that a map has for a job id. -/
def storedIn (s : DispatchState) (a : ℤ) (tasks : Go.Map ℤ (Option ℕ)) : Option ℕ :=
  (tasks.lookup a).join.map (s.position a)

/-- What a job id sees of the dispatcher. -/
def view (a : ℤ) (s : DispatchState) : JobView where
  wheelSize := s.td.wheelTimer.wheelSize
  tickDuration := s.td.wheelTimer.tickDuration
  currentTick := s.td.wheelTimer.currentTick
  timers := (s.timeoutsOf a).map s.td.wheelTimer.timer
  delays := (s.timeoutsOf a).map s.delayOf
  cyclic := s.storedIn a s.td.cyclicTasks
  temp := s.storedIn a s.td.tempTasks

/-- The input that a step is for a job id. The clock is not part of it. -/
def input (a : ℤ) (s : DispatchState) : DispatchAct → Option JobInput
  | .tick => some .tick
  | .addJob (some job) _ => if job.id = a then some (.add job) else none
  | .removeJob id => if id = a then some .remove else none
  | .reschedule r _ =>
    if s.jobID r = some a then some (.reschedule (s.position a r)) else none
  | _ => none

/-- Which timeouts of a job id a tick runs. -/
def fired (a : ℤ) (s : DispatchState) : DispatchAct → Option (List Bool)
  | .tick => some ((s.timeoutsOf a).map fun r => decide (r ∈ s.td.wheelTimer.tick.2.run))
  | _ => none

/-- A job id as an observer of the dispatcher. -/
def observer (a : ℤ) : Observer DispatchState DispatchAct JobView JobInput (List Bool) where
  view := view a
  input := input a
  output := fired a

/-- **The steps for a job id** in a run: the ticks, and the `AddJob`, `RemoveJob` and rescheduling
steps of the id, in order. -/
def inputs (a : ℤ) (s : DispatchState) (as : List DispatchAct) : List JobInput :=
  (observer a).inputs step s as

/-- **The firings of a job id** in a run: for each tick which of the timeouts created for the id
until then it runs. -/
def firings (a : ℤ) (s : DispatchState) (as : List DispatchAct) : List (List Bool) :=
  (observer a).outputs step s as

/-! ### The timeouts of a job id -/

theorem mem_timeoutsOf {r : ℕ} : r ∈ s.timeoutsOf a ↔ s.jobID r = some a := by
  rw [timeoutsOf, List.mem_filter, List.mem_range, decide_eq_true_eq, and_iff_right_iff_imp]
  intro h
  obtain ⟨task, htask, -⟩ := Option.map_eq_some_iff.mp h
  exact HashedWheelTimer.task_lt htask

theorem ne_size_of_mem {r : ℕ} (hr : r ∈ s.timeoutsOf a) : r ≠ s.td.wheelTimer.timeouts.size :=
  (List.mem_range.mp (List.mem_filter.mp hr).1).ne

theorem nodup_timeoutsOf (s : DispatchState) (a : ℤ) : (s.timeoutsOf a).Nodup :=
  List.nodup_range.filter _

theorem timeoutsOf_congr (hsize : s'.td.wheelTimer.timeouts.size = s.td.wheelTimer.timeouts.size)
    (htask : ∀ r, s'.td.wheelTimer.task r = s.td.wheelTimer.task r) :
    s'.timeoutsOf a = s.timeoutsOf a := by
  rw [timeoutsOf, hsize, timeoutsOf]
  exact List.filter_congr fun r _ => by rw [jobID, htask, jobID]

/-- What is stored under an id is a timeout of the id. -/
theorem WellFormed.stored_mem (h : s.WellFormed) {r : ℕ}
    (hr : s.td.cyclicTasks.lookup a = some (some r) ∨ s.td.tempTasks.lookup a = some (some r)) :
    r ∈ s.timeoutsOf a := by
  obtain ⟨j, htask, hid⟩ := hr.elim (h.cyclic_task a r) (h.temp_task a r)
  rw [mem_timeoutsOf, jobID, htask, ← hid]
  rfl

/-- To change one element of a list without repetitions is to change the image at its
position. -/
theorem map_eq_modify {α β : Type} [DecidableEq α] {l : List α} (hl : l.Nodup) {x : α} (hx : x ∈ l)
    {f g : α → β} {φ : β → β} (hself : g x = φ (f x)) (hne : ∀ y ∈ l, y ≠ x → g y = f y) :
    l.map g = (l.map f).modify (l.idxOf x) φ := by
  induction l with
  | nil => exact absurd hx (by simp)
  | cons y l ih =>
    obtain ⟨hy, hl⟩ := List.nodup_cons.mp hl
    by_cases hyx : y = x
    · subst hyx
      have hrest : l.map g = l.map f := List.map_congr_left fun z hz =>
        hne z (List.mem_cons_of_mem _ hz) fun hc => hy (hc ▸ hz)
      simp [hself, hrest]
    · have hx' : x ∈ l := (List.mem_cons.mp hx).resolve_left (Ne.symm hyx)
      have hrest := ih hl hx' fun z hz => hne z (List.mem_cons_of_mem _ hz)
      simp [List.idxOf_cons_ne _ hyx, hne y List.mem_cons_self hyx, hrest]

/-! ### Steps that the id does not see -/

/-- A step that leaves the timeouts of the id and what is stored under it alone. -/
theorem view_congr (hw : s'.td.wheelTimer.wheelSize = s.td.wheelTimer.wheelSize ∧
      s'.td.wheelTimer.tickDuration = s.td.wheelTimer.tickDuration ∧
      s'.td.wheelTimer.currentTick = s.td.wheelTimer.currentTick)
    (hof : s'.timeoutsOf a = s.timeoutsOf a)
    (htimer : ∀ r ∈ s.timeoutsOf a, s'.td.wheelTimer.timer r = s.td.wheelTimer.timer r)
    (htask : ∀ r ∈ s.timeoutsOf a, s'.td.wheelTimer.task r = s.td.wheelTimer.task r)
    (hc : s'.td.cyclicTasks.lookup a = s.td.cyclicTasks.lookup a)
    (ht : s'.td.tempTasks.lookup a = s.td.tempTasks.lookup a) : s'.view a = s.view a := by
  have hdelay : ∀ r ∈ s.timeoutsOf a, s'.delayOf r = s.delayOf r := fun r hr => by
    rw [delayOf, htask r hr, delayOf]
  have hpos : s'.position a = s.position a := funext fun r => by rw [position, hof, position]
  rw [view, view, JobView.mk.injEq]
  refine ⟨hw.1, hw.2.1, hw.2.2, ?_, ?_, ?_, ?_⟩
  · rw [hof, List.map_congr_left htimer]
  · rw [hof, List.map_congr_left hdelay]
  · rw [storedIn, storedIn, hc, hpos]
  · rw [storedIn, storedIn, ht, hpos]

/-- A step that does not touch the wheel and stores nothing under the id. -/
theorem view_of_wheel_eq (hw : s'.td.wheelTimer = s.td.wheelTimer)
    (hc : s'.td.cyclicTasks.lookup a = s.td.cyclicTasks.lookup a)
    (ht : s'.td.tempTasks.lookup a = s.td.tempTasks.lookup a) : s'.view a = s.view a :=
  view_congr (by simp [hw]) (timeoutsOf_congr (by rw [hw]) fun r => by rw [hw])
    (fun r _ => by rw [hw]) (fun r _ => by rw [hw]) hc ht

theorem Idle.view_eq (h : s.Idle s') : s'.view a = s.view a :=
  view_of_wheel_eq h.wheel_eq (by rw [h.cyclic_eq]) (by rw [h.temp_eq])

theorem Starts.view_eq (h : s.Starts s') : s'.view a = s.view a := by
  have hw := h.wheel_eq
  rw [HashedWheelTimer.start] at hw
  split_ifs at hw
  · exact view_of_wheel_eq hw (by rw [h.cyclic_eq]) (by rw [h.temp_eq])
  · exact view_of_wheel_eq hw (by rw [h.cyclic_eq]) (by rw [h.temp_eq])
  · exact view_congr (by simp [hw]) (timeoutsOf_congr (by rw [hw]) h.task_eq)
      (fun r _ => by rw [hw]; rfl) (fun r _ => h.task_eq r) (by rw [h.cyclic_eq])
      (by rw [h.temp_eq])

/-! ### A new timeout -/

section NewTimeout

variable {j : Job} {delay : ℤ} (hsets : s.td.wheelTimer.Sets ⟨j⟩ delay s'.td.wheelTimer)

include hsets

theorem jobID_of_sets (r : ℕ) :
    s'.jobID r = if r = s.td.wheelTimer.timeouts.size then some j.id else s.jobID r := by
  rw [jobID, hsets.task_eq]
  split_ifs <;> rfl

theorem timeoutsOf_of_sets : s'.timeoutsOf a =
    if j.id = a then s.timeoutsOf a ++ [s.td.wheelTimer.timeouts.size] else s.timeoutsOf a := by
  have hold : (List.range s.td.wheelTimer.timeouts.size).filter (fun r => s'.jobID r = some a) =
      s.timeoutsOf a := by
    refine List.filter_congr fun r hr => ?_
    rw [jobID_of_sets hsets, if_neg (List.mem_range.mp hr).ne]
  rw [timeoutsOf, hsets.size_eq, List.range_succ, List.filter_append, hold]
  have hnew := jobID_of_sets hsets s.td.wheelTimer.timeouts.size
  rw [if_pos rfl] at hnew
  split_ifs with hid <;> simp [hnew, hid]

/-- A timeout of another id is not seen. -/
theorem view_of_sets_ne (hid : j.id ≠ a)
    (hc : s'.td.cyclicTasks.lookup a = s.td.cyclicTasks.lookup a)
    (ht : s'.td.tempTasks.lookup a = s.td.tempTasks.lookup a) : s'.view a = s.view a := by
  refine view_congr ⟨hsets.wheelSize_eq, hsets.tickDuration_eq, hsets.currentTick_eq⟩ ?_
    (fun r hr => ?_) (fun r hr => ?_) hc ht
  · rw [timeoutsOf_of_sets hsets, if_neg hid]
  · rw [hsets.timer_eq, if_neg (ne_size_of_mem hr)]
  · rw [hsets.task_eq, if_neg (ne_size_of_mem hr)]

/-- A timeout of the id itself comes last. -/
theorem view_of_sets_self (hid : j.id = a) :
    s'.view a = { (s.view a).arm delay (nextDelay j) with
      cyclic := s'.storedIn a s'.td.cyclicTasks, temp := s'.storedIn a s'.td.tempTasks } := by
  have hof : s'.timeoutsOf a = s.timeoutsOf a ++ [s.td.wheelTimer.timeouts.size] := by
    rw [timeoutsOf_of_sets hsets, if_pos hid]
  have htimers : (s.timeoutsOf a).map s'.td.wheelTimer.timer =
      (s.timeoutsOf a).map s.td.wheelTimer.timer :=
    List.map_congr_left fun r hr => by rw [hsets.timer_eq, if_neg (ne_size_of_mem hr)]
  have hdelays : (s.timeoutsOf a).map s'.delayOf = (s.timeoutsOf a).map s.delayOf :=
    List.map_congr_left fun r hr => by
      rw [delayOf, hsets.task_eq, if_neg (ne_size_of_mem hr), delayOf]
  rw [view, JobView.arm, JobView.mk.injEq]
  refine ⟨hsets.wheelSize_eq, hsets.tickDuration_eq, hsets.currentTick_eq, ?_, ?_, rfl, rfl⟩
  · rw [hof, List.map_append, htimers, List.map_singleton, hsets.timer_eq, if_pos rfl]
    rfl
  · rw [hof, List.map_append, hdelays, List.map_singleton, delayOf, hsets.task_eq, if_pos rfl]
    rfl

/-- What was stored under the id keeps its position. -/
theorem storedIn_of_sets {tasks : Go.Map ℤ (Option ℕ)}
    (hmem : ∀ r, tasks.lookup a = some (some r) → r ∈ s.timeoutsOf a) :
    s'.storedIn a tasks = s.storedIn a tasks := by
  rw [storedIn, storedIn]
  rcases hl : tasks.lookup a with _ | _ | r
  · rfl
  · rfl
  · have hr := hmem r hl
    have hpos : s'.position a r = s.position a r := by
      rw [position, timeoutsOf_of_sets hsets]
      split_ifs
      · exact List.idxOf_append_of_mem hr
      · rfl
    simp [hpos]

/-- The new timeout, stored under the id, is the last. -/
theorem storedIn_insert_of_sets (hid : j.id = a) (tasks : Go.Map ℤ (Option ℕ)) :
    s'.storedIn a (tasks.insert a (some s.td.wheelTimer.timeouts.size)) =
      some (s.view a).timers.length := by
  have hpos : s'.position a s.td.wheelTimer.timeouts.size = (s.timeoutsOf a).length := by
    rw [position, timeoutsOf_of_sets hsets, if_pos hid,
      List.idxOf_append_of_notMem fun hc => ne_size_of_mem hc rfl]
    simp
  simp [storedIn, hpos, view]

end NewTimeout

/-! ### A removal -/

section Removal

variable {id : ℤ} {r : ℕ} (hwf : s.WellFormed) (hr : s.Removes id r s' ev)

include hr

theorem Removes.timeoutsOf_eq : s'.timeoutsOf a = s.timeoutsOf a :=
  timeoutsOf_congr (by rw [hr.wheel_eq, HashedWheelTimer.cancel_size])
    fun r' => by rw [hr.wheel_eq, HashedWheelTimer.task_cancel]

theorem Removes.delayOf_eq (r' : ℕ) : s'.delayOf r' = s.delayOf r' := by
  rw [delayOf, hr.wheel_eq, HashedWheelTimer.task_cancel, delayOf]

include hwf

/-- The timeout that is cancelled belongs to the id. -/
theorem Removes.mem_timeoutsOf : r ∈ s.timeoutsOf id := by
  rcases hr.stored with ⟨hl, -⟩ | ⟨-, hl, -⟩
  · exact hwf.stored_mem (Or.inl hl)
  · exact hwf.stored_mem (Or.inr hl)

/-- The removal of another id is not seen. -/
theorem Removes.view_eq_of_ne (hid : id ≠ a) : s'.view a = s.view a := by
  have hne : ∀ r' ∈ s.timeoutsOf a, r' ≠ r := by
    rintro _ hmem rfl
    have hown := DispatchState.mem_timeoutsOf.mp (hr.mem_timeoutsOf hwf)
    rw [DispatchState.mem_timeoutsOf.mp hmem] at hown
    exact hid (Option.some.inj hown).symm
  have hlookup : s'.td.cyclicTasks.lookup a = s.td.cyclicTasks.lookup a ∧
      s'.td.tempTasks.lookup a = s.td.tempTasks.lookup a := by
    rcases hr.stored with ⟨-, hc, ht⟩ | ⟨-, -, hc, ht⟩
    · exact ⟨by rw [hc, AList.lookup_erase_ne hid.symm], by rw [ht]⟩
    · exact ⟨by rw [hc], by rw [ht, AList.lookup_erase_ne hid.symm]⟩
  refine view_congr ?_ hr.timeoutsOf_eq (fun r' hr' => ?_) (fun r' _ => ?_) hlookup.1 hlookup.2
  · rw [hr.wheel_eq]
    exact ⟨rfl, rfl, rfl⟩
  · rw [hr.wheel_eq, HashedWheelTimer.timer_cancel hwf.wheel, if_neg (hne r' hr')]
  · rw [hr.wheel_eq, HashedWheelTimer.task_cancel]

/-- The removal of the id itself cancels the timeout at one position. -/
theorem Removes.view_eq : s'.view id = { (s.view id).disarm (s.position id r) with
    cyclic := s.storedIn id s'.td.cyclicTasks, temp := s.storedIn id s'.td.tempTasks } := by
  have hpos : s'.position id = s.position id := funext fun r' => by
    rw [position, hr.timeoutsOf_eq, position]
  rw [view, JobView.disarm, JobView.mk.injEq]
  refine ⟨by rw [hr.wheel_eq]; rfl, by rw [hr.wheel_eq]; rfl, by rw [hr.wheel_eq]; rfl,
    ?_, ?_, ?_, ?_⟩
  · rw [hr.timeoutsOf_eq, hr.wheel_eq]
    refine map_eq_modify (s.nodup_timeoutsOf id) (hr.mem_timeoutsOf hwf) ?_ fun r' _ hne => ?_
    · rw [HashedWheelTimer.timer_cancel hwf.wheel, if_pos rfl]
    · rw [HashedWheelTimer.timer_cancel hwf.wheel, if_neg hne]
  · rw [hr.timeoutsOf_eq]
    exact List.map_congr_left fun r' _ => hr.delayOf_eq r'
  · rw [storedIn, storedIn, hpos]
  · rw [storedIn, storedIn, hpos]

end Removal

/-! ### Every step moves the view as the machine says -/

variable {b : DispatchAct}

theorem moves_of_view_eq (hin : input a s b = none) (hout : fired a s b = none)
    (hview : s'.view a = s.view a) : (observer a).Moves JobView.machine s b s' := by
  rw [Observer.Moves, show (observer a).input s b = none from hin]
  exact ⟨hview, hout⟩

theorem moves_of_input {i : JobInput} (hin : input a s b = some i)
    (hout : fired a s b = JobView.machine.output (s.view a) i)
    (hview : s'.view a = (s.view a).step i) : (observer a).Moves JobView.machine s b s' := by
  rw [Observer.Moves, show (observer a).input s b = some i from hin]
  exact ⟨hview, hout⟩

section Moves

variable (hwf : s.WellFormed) (hstopped : s.td.wheelTimer.stopped = false)

include hwf

theorem moves_tick (hs : s.step .tick = some (s', ev)) :
    (observer a).Moves JobView.machine s .tick s' := by
  have htd := (step_tick hs).1.td_eq
  have hof : s'.timeoutsOf a = s.timeoutsOf a :=
    timeoutsOf_congr (by rw [htd]; rfl) fun r => by rw [htd]; rfl
  have hstored : s'.storedIn a = s.storedIn a := by
    funext tasks
    rw [storedIn, storedIn, show s'.position a = s.position a from
      funext fun r => by rw [position, hof, position]]
  refine moves_of_input rfl (congrArg some ?_) ?_
  · rw [view, List.map_map]
    refine List.map_congr_left fun r _ => ?_
    rw [Bool.eq_iff_iff, decide_eq_true_eq, HashedWheelTimer.mem_tick_run_iff hwf.wheel]
    rfl
  · rw [view, JobView.step, JobView.mk.injEq]
    refine ⟨by rw [htd]; rfl, by rw [htd]; rfl, by rw [htd]; rfl, ?_, ?_, ?_, ?_⟩
    · rw [hof, htd, view, List.map_map]
      exact List.map_congr_left fun r _ => HashedWheelTimer.timer_tick hwf.wheel r
    · rw [hof]
      exact List.map_congr_left fun r _ => by rw [delayOf, htd]; rfl
    · rw [hstored, htd]
      rfl
    · rw [hstored, htd]
      rfl

theorem moves_removeJob {id : ℤ} (hs : s.step (.removeJob id) = some (s', ev)) :
    (observer a).Moves JobView.machine s (.removeJob id) s' := by
  by_cases hid : id = a
  · subst hid
    refine moves_of_input (if_pos rfl) rfl ?_
    rcases step_removeJob hs with ⟨hi, -, hc, ht⟩ | ⟨r, hr⟩
    · have hstored : (s.view id).cyclic = none ∧ (s.view id).temp = none := by
        simp [view, storedIn, hc, ht]
      rw [hi.view_eq, JobView.step, hstored.1, hstored.2]
    · rw [hr.view_eq hwf, JobView.step]
      -- the cyclic tasks are looked at first
      rcases hr.stored with ⟨hl, hc, ht⟩ | ⟨hnone, hl, hc, ht⟩
      · have hcyclic : (s.view id).cyclic = some (s.position id r) := by simp [view, storedIn, hl]
        rw [hcyclic, hc, ht]
        simp [storedIn, JobView.disarm, view]
      · have hcyclic : (s.view id).cyclic = none := by simp [view, storedIn, hnone]
        have htemp : (s.view id).temp = some (s.position id r) := by simp [view, storedIn, hl]
        rw [hcyclic, htemp, hc, ht]
        simp [storedIn, JobView.disarm, view, hnone]
  · refine moves_of_view_eq (if_neg hid) rfl ?_
    rcases step_removeJob hs with ⟨hi, -⟩ | ⟨r, hr⟩
    · exact hi.view_eq
    · exact hr.view_eq_of_ne hwf hid

include hstopped

theorem moves_addJob {j : Job} {now : ℤ} (hs : s.step (.addJob (some j) now) = some (s', ev)) :
    (observer a).Moves JobView.machine s (.addJob (some j) now) s' := by
  obtain ⟨w, o, hn, hs', -⟩ := step_addJob_eq hs
  obtain ⟨rfl, hsets⟩ := HashedWheelTimer.sets_of_newTimeout hwf.wheel hstopped hn
  have hsets' : s.td.wheelTimer.Sets ⟨j⟩ (firstDelay j) s'.td.wheelTimer := hs' ▸ hsets
  by_cases hid : j.id = a
  · refine moves_of_input (if_pos hid) rfl ?_
    rw [view_of_sets_self hsets' hid, JobView.step]
    have hold : s'.storedIn a s.td.cyclicTasks = (s.view a).cyclic ∧
        s'.storedIn a s.td.tempTasks = (s.view a).temp :=
      ⟨storedIn_of_sets hsets' fun r hl => hwf.stored_mem (Or.inl hl),
        storedIn_of_sets hsets' fun r hl => hwf.stored_mem (Or.inr hl)⟩
    have hnew := storedIn_insert_of_sets hsets' hid
    by_cases hcyclic : j.isCyclic
    · have hc : s'.td.cyclicTasks =
          s.td.cyclicTasks.insert a (some s.td.wheelTimer.timeouts.size) := by
        rw [hs', ← hid]
        exact if_pos hcyclic
      have ht : s'.td.tempTasks = s.td.tempTasks := by
        rw [hs']
        exact if_pos hcyclic
      rw [if_pos hcyclic, hc, ht, hnew, hold.2]
      rfl
    · have hc : s'.td.cyclicTasks = s.td.cyclicTasks := by
        rw [hs']
        exact if_neg hcyclic
      have ht : s'.td.tempTasks =
          s.td.tempTasks.insert a (some s.td.wheelTimer.timeouts.size) := by
        rw [hs', ← hid]
        exact if_neg hcyclic
      rw [if_neg hcyclic, hc, ht, hnew, hold.1]
      rfl
  · refine moves_of_view_eq (if_neg hid) rfl (view_of_sets_ne hsets' hid ?_ ?_)
    · rw [hs']
      by_cases hcyclic : j.isCyclic <;> simp [hcyclic, AList.lookup_insert_ne (Ne.symm hid)]
    · rw [hs']
      by_cases hcyclic : j.isCyclic <;> simp [hcyclic, AList.lookup_insert_ne (Ne.symm hid)]

theorem moves_reschedule {r : ℕ} {now : ℤ} (hs : s.step (.reschedule r now) = some (s', ev)) :
    (observer a).Moves JobView.machine s (.reschedule r now) s' := by
  obtain ⟨x, hx, rfl, -, hcases⟩ := step_reschedule_eq hwf hs
  have htask := hwf.run_task x hx
  have hjob : s.jobID x.timeout = some x.job.id := by rw [jobID, htask]; rfl
  by_cases hid : x.job.id = a
  · have hmem : x.timeout ∈ s.timeoutsOf a := mem_timeoutsOf.mpr (hjob.trans (congrArg some hid))
    have hdelay : (s.view a).delays.getD (s.position a x.timeout) 0 = nextDelay x.job := by
      have hlt := List.idxOf_lt_length_of_mem hmem
      simp [view, position, List.getD, hlt, delayOf, htask]
    refine moves_of_input (if_pos (hjob.trans (congrArg some hid))) rfl ?_
    simp only [JobView.step, hdelay]
    rcases hcases with ⟨p, hn, rfl, -⟩ | ⟨w, o, hn, hs', -⟩
    · have hnot : ¬0 ≤ ((s.view a).newTimer (nextDelay x.job)).bucketIndex :=
        HashedWheelTimer.not_fits_of_newTimeout hn
      rw [if_neg hnot]
      exact view_of_wheel_eq rfl rfl rfl
    · obtain ⟨rfl, hsets⟩ := HashedWheelTimer.sets_of_newTimeout hwf.wheel hstopped hn
      have hsets' : s.td.wheelTimer.Sets ⟨x.job⟩ (nextDelay x.job) s'.td.wheelTimer := hs' ▸ hsets
      have hc : s'.td.cyclicTasks =
          s.td.cyclicTasks.insert a (some s.td.wheelTimer.timeouts.size) := by
        rw [hs', ← hid]
      have ht : s'.td.tempTasks = s.td.tempTasks := by rw [hs']
      have hfits : 0 ≤ ((s.view a).newTimer (nextDelay x.job)).bucketIndex := hsets.fits
      rw [if_pos hfits, view_of_sets_self hsets' hid, hc, ht, storedIn_insert_of_sets hsets' hid,
        storedIn_of_sets hsets' fun r hl => hwf.stored_mem (Or.inr hl)]
      rfl
  · refine moves_of_view_eq (if_neg fun hc => hid (Option.some.inj (hjob.symm.trans hc))) rfl ?_
    rcases hcases with ⟨p, hn, rfl, -⟩ | ⟨w, o, hn, hs', -⟩
    · exact view_of_wheel_eq rfl rfl rfl
    · obtain ⟨rfl, hsets⟩ := HashedWheelTimer.sets_of_newTimeout hwf.wheel hstopped hn
      have hsets' : s.td.wheelTimer.Sets ⟨x.job⟩ (nextDelay x.job) s'.td.wheelTimer := hs' ▸ hsets
      refine view_of_sets_ne hsets' hid ?_ (by rw [hs'])
      rw [hs', AList.lookup_insert_ne (Ne.symm hid)]

/-- **Every step moves the view of a job id as its machine says**: only ticks and the steps of the
id do. -/
theorem moves_step (hstop : b ≠ .stop) (hs : s.step b = some (s', ev)) :
    (observer a).Moves JobView.machine s b s' := by
  cases b with
  | addJob job now =>
    rcases job with _ | j
    · obtain ⟨rfl, -⟩ := step_addJob_nil hs
      exact moves_of_view_eq rfl rfl rfl
    · exact moves_addJob hwf hstopped hs
  | removeJob id => exact moves_removeJob hwf hs
  | start => exact moves_of_view_eq rfl rfl (step_start hs).1.view_eq
  | stop => exact absurd rfl hstop
  | tick => exact moves_tick hwf hs
  | begin r now =>
    obtain ⟨x, hb⟩ := step_begin hs
    exact moves_of_view_eq rfl rfl
      (view_of_wheel_eq hb.wheel_eq (by rw [hb.cyclic_eq]) (by rw [hb.temp_eq]))
  | complete r outcome =>
    obtain ⟨x, hc, -⟩ := step_complete hs
    exact moves_of_view_eq rfl rfl
      (view_of_wheel_eq hc.wheel_eq (by rw [hc.cyclic_eq]) (by rw [hc.temp_eq]))
  | reschedule r now => exact moves_reschedule hwf hstopped hs

end Moves

/-! ### Runs -/

/-- The unwinding condition, for a dispatcher before its `Stop`. -/
theorem unwinds {s : DispatchState} {b : DispatchAct} {s' : DispatchState}
    {ev : List DispatchEvent} (h : s.WellFormed ∧ s.td.wheelTimer.stopped = false)
    (hb : b ≠ .stop) (hs : s.step b = some (s', ev)) :
    (s'.WellFormed ∧ s'.td.wheelTimer.stopped = false) ∧
      (observer a).Moves JobView.machine s b s' :=
  ⟨⟨h.1.step hs, (stopped_of_step h.1 hs hb).trans h.2⟩, moves_step h.1 h.2 hb hs⟩

/-- **Jobs do not influence each other's schedule**: in two runs with the same ticks and the same
steps for a job id, in the same order, the timeouts of the id are run by the same ticks, whatever
the steps for other ids are. -/
theorem firings_eq_of_inputs_eq {now₁ now₂ : ℤ} {as₁ as₂ : List DispatchAct}
    (hstop₁ : .stop ∉ as₁) (hstop₂ : .stop ∉ as₂)
    (hinputs : inputs a (init now₁) as₁ = inputs a (init now₂) as₂) :
    firings a (init now₁) as₁ = firings a (init now₂) as₂ :=
  Observer.outputs_eq_of_inputs_eq (fun _ _ _ _ h hb hs => unwinds h hb hs)
    ⟨wellFormed_init now₁, rfl⟩ ⟨wellFormed_init now₂, rfl⟩ rfl
    (fun _ hb hc => hstop₁ (hc ▸ hb)) (fun _ hb hc => hstop₂ (hc ▸ hb)) hinputs

/-- A job that is run and rescheduled. -/
def alone : List DispatchAct :=
  [.start, .addJob (some (Job.bare 7 true 200)) 0, .tick, .tick, .begin 0 0, .complete 0 .ok,
    .reschedule 0 0, .tick]

/-- The same job beside one that is added, run, added again and removed, and fails. -/
def beside : List DispatchAct :=
  [.addJob (some (Job.bare 8 true 100)) 0, .start, .addJob (some (Job.bare 7 true 200)) 5, .tick,
    .begin 0 5, .addJob (some (Job.bare 8 true 200)) 5, .removeJob 8, .tick, .complete 0 .error,
    .begin 1 6, .complete 1 .ok, .reschedule 1 6, .tick]

theorem firings_eq_alone_and_beside :
    firings 7 (init 0) alone = firings 7 (init 4) beside ∧
      firings 7 (init 0) alone = [[false], [true], [false, false]] := by
  have halone : inputs 7 (init 0) alone =
      [.add (Job.bare 7 true 200), .tick, .tick, .reschedule 0, .tick] := rfl
  have hbeside : inputs 7 (init 4) beside =
      [.add (Job.bare 7 true 200), .tick, .tick, .reschedule 0, .tick] := rfl
  refine ⟨firings_eq_of_inputs_eq ?_ ?_ (halone.trans hbeside.symm), rfl⟩
  · simp [alone]
  · simp [beside]

end DispatchState

end HertzBeat
