import HertzBeat.Dispatcher.DispatchRuns

/-!
# What each step of the dispatcher does

One statement per kind of step, with everything that later proofs need of it: what
becomes of the armed timeouts, of the runs in flight and of the two maps, and what
the step lets one see. No later proof unfolds a function of the dispatcher.

`HertzBeat.DispatchState.WellFormed.step` is the first use of them: every step keeps
states well-formed.
-/

namespace HertzBeat

open Runs

/-! ### Asking the wheel for a timeout -/

/-- **The wheel was asked for a timeout of a job**: it armed a new one, or it is stopped
and returned nil. -/
structure Asked (w : HashedWheelTimer WheelTimerTask) (j : Job) (o : Option ℕ)
    (w' : HashedWheelTimer WheelTimerTask) : Prop where
  wellFormed : w'.WellFormed
  armed_iff : ∀ j' r, w'.Armed ⟨j'⟩ r ↔ w.Armed ⟨j'⟩ r ∨ (j' = j ∧ o = some r)
  task_mono : ∀ r t, w.task r = some t → w'.task r = some t
  task_new : ∀ r, o = some r → w'.task r = some ⟨j⟩
  task_of : ∀ r t, w'.task r = some t → w.task r = some t ∨ t = ⟨j⟩
  fresh : ∀ r, o = some r → w.task r = none
  nil_iff : o = none ↔ w.stopped = true
  flags_eq : w'.flags = w.flags

theorem asked_of_newTimeout {w w' : HashedWheelTimer WheelTimerTask} (h : w.WellFormed) {j : Job}
    {delay now : ℤ} {o : Option ℕ} (hok : w.newTimeout ⟨j⟩ delay now = .ok (w', o)) :
    Asked w j o w' := by
  rcases HashedWheelTimer.newTimeout_eq_ok h hok with ⟨hs, rfl, rfl⟩ | ⟨hs, rfl, harms⟩
  · refine ⟨h, fun j' r => ?_, fun _ _ ht => ht, fun r hr => absurd hr (by simp),
      fun _ _ ht => Or.inl ht, fun r hr => absurd hr (by simp), by simp [hs], rfl⟩
    simp
  · have hfresh : w.task w.timeouts.size = none := by
      rw [HashedWheelTimer.task, Mem.read_eq_none_iff.mpr le_rfl]
      rfl
    refine ⟨harms.wellFormed, fun j' r => ?_, fun _ _ ht => harms.task_of_some ht, ?_, ?_, ?_,
      by simp [hs], harms.flags_eq⟩
    · rw [harms.armed_iff]
      simp [eq_comm]
    · rintro r hr
      obtain rfl := Option.some.inj hr
      rw [harms.task_eq, if_pos rfl]
    · intro r t ht
      rw [harms.task_eq] at ht
      split_ifs at ht
      · exact Or.inr (Option.some.inj ht).symm
      · exact Or.inl ht
    · rintro r hr
      obtain rfl := Option.some.inj hr
      exact hfresh

/-- A wheel that is not stopped arms a timeout. -/
theorem Asked.exists_armed {w w' : HashedWheelTimer WheelTimerTask} {j : Job} {o : Option ℕ}
    (h : Asked w j o w') (hstopped : w.stopped = false) : ∃ r, o = some r ∧ w'.Armed ⟨j⟩ r := by
  rcases o with _ | r
  · rw [h.nil_iff.mp rfl] at hstopped
    exact absurd hstopped (by simp)
  · exact ⟨r, rfl, (h.armed_iff j r).mpr (Or.inr ⟨rfl, rfl⟩)⟩

/-! ### Cancelling what is stored -/

/-- **The timeouts of a list were cancelled.** -/
structure CancelledAll (w : HashedWheelTimer WheelTimerTask) (l : List (Option ℕ))
    (w' : HashedWheelTimer WheelTimerTask) : Prop where
  wellFormed : w'.WellFormed
  armed_iff : ∀ t r, w'.Armed t r ↔ w.Armed t r ∧ some r ∉ l
  task_eq : ∀ r, w'.task r = w.task r
  flags_eq : w'.flags = w.flags

theorem cancelledAll_of_ok {w w' : HashedWheelTimer WheelTimerTask} (h : w.WellFormed)
    {l : List (Option ℕ)} (hok : TimeDispatch.cancelAll w l = .ok w') : CancelledAll w l w' := by
  induction l generalizing w with
  | nil =>
    obtain rfl := Except.ok.inj hok
    exact ⟨h, fun t r => by simp, fun r => rfl, rfl⟩
  | cons o l ih =>
    rcases o with _ | r₀
    · exact absurd hok (by simp [TimeDispatch.cancelAll, cancelStored, bind, Except.bind])
    · obtain ⟨hwf, harmed, htask, hflags⟩ :=
        ih (HashedWheelTimer.wellFormed_cancel h r₀)
          (show TimeDispatch.cancelAll (w.cancel r₀) l = .ok w' from hok)
      refine ⟨hwf, fun t r => ?_, fun r => (htask r).trans (w.task_cancel r₀), hflags⟩
      rw [harmed, HashedWheelTimer.armed_cancel h]
      simp [and_assoc]

/-- Nothing panics where no stored timeout is nil. -/
theorem exists_cancelAll {l : List (Option ℕ)} (hl : none ∉ l)
    (w : HashedWheelTimer WheelTimerTask) : ∃ w', TimeDispatch.cancelAll w l = .ok w' := by
  induction l generalizing w with
  | nil => exact ⟨w, rfl⟩
  | cons o l ih =>
    rcases o with _ | r₀
    · exact absurd List.mem_cons_self hl
    · obtain ⟨w', hw'⟩ := ih (fun hc => hl (List.mem_cons_of_mem _ hc)) (w.cancel r₀)
      exact ⟨w', hw'⟩

namespace DispatchState

variable {s s' : DispatchState} {ev : List DispatchEvent}

/-! ### Adding a job -/

/-- **`AddJob` of a job.** -/
structure Adds (s : DispatchState) (j : Job) (now : ℤ) (o : Option ℕ) (s' : DispatchState)
    (ev : List DispatchEvent) : Prop where
  asked : Asked s.td.wheelTimer j o s'.td.wheelTimer
  runs_eq : s'.runs = s.runs
  started_eq : s'.td.started = s.td.started
  cyclic_eq : s'.td.cyclicTasks =
    if j.isCyclic then s.td.cyclicTasks.insert j.id o else s.td.cyclicTasks
  temp_eq : s'.td.tempTasks =
    if j.isCyclic then s.td.tempTasks else s.td.tempTasks.insert j.id o
  infos_eq : s'.td.jobInfos = s.td.jobInfos.insert j.id
    { job := j, timeout := o, createdAt := now, nextExecutionAt := now + firstDelay j }
  ev_eq : ev = [.added j o (firstDelay j), .recorded j now (now + firstDelay j)]

/-- The dispatcher after `AddJob`, with what the wheel returned. -/
theorem step_addJob_eq {j : Job} {now : ℤ} (h : s.step (.addJob (some j) now) = some (s', ev)) :
    ∃ w o, s.td.wheelTimer.newTimeout ⟨j⟩ (firstDelay j) now = .ok (w, o) ∧
      s' = { s with td := { s.td with
        wheelTimer := w
        cyclicTasks := if j.isCyclic then s.td.cyclicTasks.insert j.id o else s.td.cyclicTasks
        tempTasks := if j.isCyclic then s.td.tempTasks else s.td.tempTasks.insert j.id o
        jobInfos := s.td.jobInfos.insert j.id
          { job := j, timeout := o, createdAt := now, nextExecutionAt := now + firstDelay j }
        stats := { s.td.stats with totalJobsAdded := s.td.stats.totalJobsAdded + 1 } } } ∧
      ev = addEvents s'.td j now := by
  rcases hn : s.td.wheelTimer.newTimeout ⟨j⟩ (firstDelay j) now with p | ⟨w, o⟩
  · simp [step, TimeDispatch.addJob, hn] at h
  · simp only [step, TimeDispatch.addJob, hn] at h
    obtain ⟨rfl, rfl⟩ := Prod.mk.inj (Option.some.inj h)
    exact ⟨w, o, rfl, rfl, rfl⟩

theorem step_addJob (hwf : s.WellFormed) {j : Job} {now : ℤ}
    (h : s.step (.addJob (some j) now) = some (s', ev)) : ∃ o, s.Adds j now o s' ev := by
  obtain ⟨w, o, hn, rfl, rfl⟩ := step_addJob_eq h
  refine ⟨o, asked_of_newTimeout hwf.wheel hn, rfl, rfl, rfl, rfl, rfl, ?_⟩
  simp [addEvents]

theorem step_addJob_nil {now : ℤ} (h : s.step (.addJob none now) = some (s', ev)) :
    s' = s ∧ ev = [] := by
  obtain ⟨rfl, rfl⟩ := Prod.mk.inj (Option.some.inj h)
  exact ⟨rfl, rfl⟩

/-! ### Removing a job -/

/-- **`RemoveJob` returned nil**: it cancelled this timeout, found among the cyclic tasks
or, if nothing is stored there, among the one-time tasks. -/
structure Removes (s : DispatchState) (id : ℤ) (r : ℕ) (s' : DispatchState)
    (ev : List DispatchEvent) : Prop where
  wheel_eq : s'.td.wheelTimer = s.td.wheelTimer.cancel r
  runs_eq : s'.runs = s.runs
  started_eq : s'.td.started = s.td.started
  stored : (s.td.cyclicTasks.lookup id = some (some r) ∧
      s'.td.cyclicTasks = s.td.cyclicTasks.erase id ∧ s'.td.tempTasks = s.td.tempTasks) ∨
    (s.td.cyclicTasks.lookup id = none ∧ s.td.tempTasks.lookup id = some (some r) ∧
      s'.td.cyclicTasks = s.td.cyclicTasks ∧ s'.td.tempTasks = s.td.tempTasks.erase id)
  infos_eq : s'.td.jobInfos = s.td.jobInfos.erase id
  ev_eq : ev = [.removed id]

section Stored

variable {id id' : ℤ} {r : ℕ} {o : Option ℕ}

/-- A removal stores nothing: what is stored after it was stored before. -/
theorem Removes.cyclic_of_lookup (h : s.Removes id r s' ev)
    (hl : s'.td.cyclicTasks.lookup id' = some o) : s.td.cyclicTasks.lookup id' = some o := by
  rcases h.stored with ⟨-, hc, -⟩ | ⟨-, -, hc, -⟩
  · exact Go.lookup_of_lookup_erase (hc ▸ hl)
  · exact hc ▸ hl

theorem Removes.temp_of_lookup (h : s.Removes id r s' ev)
    (hl : s'.td.tempTasks.lookup id' = some o) : s.td.tempTasks.lookup id' = some o := by
  rcases h.stored with ⟨-, -, ht⟩ | ⟨-, -, -, ht⟩
  · exact ht ▸ hl
  · exact Go.lookup_of_lookup_erase (ht ▸ hl)

end Stored

/-- Nothing but the statistics changed. -/
structure Idle (s s' : DispatchState) : Prop where
  wheel_eq : s'.td.wheelTimer = s.td.wheelTimer
  runs_eq : s'.runs = s.runs
  started_eq : s'.td.started = s.td.started
  cyclic_eq : s'.td.cyclicTasks = s.td.cyclicTasks
  temp_eq : s'.td.tempTasks = s.td.tempTasks
  infos_eq : s'.td.jobInfos = s.td.jobInfos

theorem step_removeJob {id : ℤ} (h : s.step (.removeJob id) = some (s', ev)) :
    (s.Idle s' ∧ ev = [] ∧ s.td.cyclicTasks.lookup id = none ∧
      s.td.tempTasks.lookup id = none) ∨ ∃ r, s.Removes id r s' ev := by
  rcases hc : s.td.cyclicTasks.lookup id with _ | o
  · rcases ht : s.td.tempTasks.lookup id with _ | o
    · simp only [step, TimeDispatch.removeJob, hc, ht] at h
      obtain ⟨rfl, rfl⟩ := Prod.mk.inj (Option.some.inj h)
      exact Or.inl ⟨⟨rfl, rfl, rfl, rfl, rfl, rfl⟩, rfl, rfl, rfl⟩
    · rcases o with _ | r
      · simp [step, TimeDispatch.removeJob, hc, ht, cancelStored] at h
      · simp only [step, TimeDispatch.removeJob, hc, ht, cancelStored] at h
        obtain ⟨rfl, rfl⟩ := Prod.mk.inj (Option.some.inj h)
        exact Or.inr ⟨r, rfl, rfl, rfl, Or.inr ⟨hc, ht, rfl, rfl⟩, rfl, rfl⟩
  · rcases o with _ | r
    · simp [step, TimeDispatch.removeJob, hc, cancelStored] at h
    · simp only [step, TimeDispatch.removeJob, hc, cancelStored] at h
      obtain ⟨rfl, rfl⟩ := Prod.mk.inj (Option.some.inj h)
      exact Or.inr ⟨r, rfl, rfl, rfl, Or.inl ⟨hc, rfl, rfl⟩, rfl, rfl⟩

/-! ### Starting and stopping -/

/-- **`Start`**: the wheel's timeouts stay as they are. -/
structure Starts (s s' : DispatchState) : Prop where
  wheel_wf : s.td.wheelTimer.WellFormed → s'.td.wheelTimer.WellFormed
  armed_iff : ∀ j r, s'.Armed j r ↔ s.Armed j r
  task_eq : ∀ r, s'.td.wheelTimer.task r = s.td.wheelTimer.task r
  runs_eq : s'.runs = s.runs
  cyclic_eq : s'.td.cyclicTasks = s.td.cyclicTasks
  temp_eq : s'.td.tempTasks = s.td.tempTasks
  infos_eq : s'.td.jobInfos = s.td.jobInfos
  started : s'.td.started = true
  wheel_eq : s'.td.wheelTimer =
    if s.td.started then s.td.wheelTimer else s.td.wheelTimer.start
  logging_eq : s'.td.statsLogging =
    if s.td.started then s.td.statsLogging else s.td.startStatsLogging.statsLogging

theorem step_start (h : s.step .start = some (s', ev)) : s.Starts s' ∧ ev = [] := by
  obtain ⟨rfl, rfl⟩ := Prod.mk.inj (Option.some.inj h)
  refine ⟨?_, rfl⟩
  rcases hs : s.td.started with _ | _
  · have htd : s.td.start.1 =
        { s.td.startStatsLogging with
          wheelTimer := s.td.wheelTimer.start, started := true } := by
      simp [TimeDispatch.start, TimeDispatch.startStatsLogging, hs]
    by_cases hws : s.td.wheelTimer.started
    · have hw : s.td.wheelTimer.start = s.td.wheelTimer := if_pos hws
      rw [htd]
      exact ⟨fun hwf => by rw [hw]; exact hwf, fun j r => by rw [Armed, hw]; rfl,
        fun r => by rw [hw], rfl, rfl, rfl, rfl, rfl, by simp [hs], by rw [hs]; rfl⟩
    · have hw : s.td.wheelTimer.start =
          { s.td.wheelTimer with started := true, running := true } := if_neg hws
      rw [htd]
      exact ⟨fun hwf => by rw [hw]; exact ⟨hwf.1, hwf.2, hwf.3, hwf.4⟩,
        fun j r => by rw [Armed, hw]; rfl,
        fun r => by rw [hw]; rfl, rfl, rfl, rfl, rfl, rfl, by simp [hs], by rw [hs]; rfl⟩
  · have htd : s.td.start.1 = s.td := by simp [TimeDispatch.start, hs]
    rw [htd]
    exact ⟨fun hwf => hwf, fun j r => Iff.rfl, fun r => rfl, rfl, rfl, rfl, rfl, hs, by simp [hs],
      by simp [hs]⟩

/-- **`Stop`** of a started dispatcher: what is stored is cancelled and forgotten. -/
structure Stops (s s' : DispatchState) : Prop where
  before : s.td.started = true
  wheel_wf : s'.td.wheelTimer.WellFormed
  armed_iff : ∀ j r, s'.Armed j r ↔ s.Armed j r ∧
    some r ∉ s.td.cyclicTasks.entries.map Sigma.snd ∧ some r ∉ s.td.tempTasks.entries.map Sigma.snd
  task_eq : ∀ r, s'.td.wheelTimer.task r = s.td.wheelTimer.task r
  runs_eq : s'.runs = s.runs
  cyclic_eq : s'.td.cyclicTasks = ∅
  temp_eq : s'.td.tempTasks = ∅
  infos_eq : s'.td.jobInfos = ∅
  started : s'.td.started = false
  stopped : s'.td.wheelTimer.stopped = true
  wheel_started : s'.td.wheelTimer.started = s.td.wheelTimer.started
  running : s.td.wheelTimer.stopped = false → s'.td.wheelTimer.running = false
  logging_eq : s'.td.statsLogging = s.td.stopStatsLogging.statsLogging

theorem step_stop (hwf : s.WellFormed) (h : s.step .stop = some (s', ev)) :
    ev = [] ∧ ((s.td.started = false ∧ s' = s) ∨ s.Stops s') := by
  rcases hs : s.td.started with _ | _
  · simp only [step, TimeDispatch.stop, hs] at h
    obtain ⟨rfl, rfl⟩ := Prod.mk.inj (Option.some.inj h)
    exact ⟨rfl, Or.inl ⟨rfl, rfl⟩⟩
  · rcases hstop : s.td.stop with p | td
    · simp [step, hstop] at h
    · simp only [step, hstop] at h
      obtain ⟨rfl, rfl⟩ := Prod.mk.inj (Option.some.inj h)
      -- the two loops and the `Stop` of the wheel, none of which panicked
      rw [TimeDispatch.stop, if_pos hs] at hstop
      obtain ⟨w₁, hc, hstop⟩ := Go.bind_eq_ok.mp hstop
      obtain ⟨w₂, ht, hstop⟩ := Go.bind_eq_ok.mp hstop
      obtain ⟨w₃, hw, hstop⟩ := Go.bind_eq_ok.mp hstop
      obtain rfl := Except.ok.inj hstop
      have h₁ := cancelledAll_of_ok hwf.wheel hc
      have h₂ := cancelledAll_of_ok h₁.wellFormed ht
      have hstopped : w₂.stopped = s.td.wheelTimer.stopped :=
        congrArg (fun f => f.2.1) (h₂.flags_eq.trans h₁.flags_eq)
      obtain ⟨running, rfl, hrunning⟩ := HashedWheelTimer.stop_eq_ok hw
      refine ⟨rfl, Or.inr ⟨hs, ⟨h₂.wellFormed.size_of_mem, h₂.wellFormed.index_of_mem,
        h₂.wellFormed.range_of_mem, h₂.wellFormed.nodup⟩, fun j r => ?_, fun r => ?_,
        rfl, rfl, rfl, rfl, rfl, rfl, congrArg Prod.fst (h₂.flags_eq.trans h₁.flags_eq),
        fun hoff => hrunning (hstopped.trans hoff), rfl⟩⟩
      · exact (h₂.armed_iff _ r).trans ((and_congr_left' (h₁.armed_iff _ r)).trans and_assoc)
      · exact (h₂.task_eq r).trans (h₁.task_eq r)

/-! ### Ticks and runs -/

/-- **A tick**: the timeouts it runs are no longer armed, and their runs are in
flight. -/
structure Ticks (s : DispatchState) (s' : DispatchState) : Prop where
  running : s.td.wheelTimer.running = true
  td_eq : s'.td = { s.td with wheelTimer := s.td.wheelTimer.tick.1 }
  runs_eq : s'.runs = s.runs ++ firedRuns s.td.wheelTimer.tick.1 s.td.wheelTimer.tick.2.run

theorem step_tick (h : s.step .tick = some (s', ev)) : s.Ticks s' ∧ ev = [] := by
  simp only [step] at h
  split_ifs at h with hr
  obtain ⟨rfl, rfl⟩ := Prod.mk.inj (Option.some.inj h)
  exact ⟨⟨hr, rfl, rfl⟩, rfl⟩

theorem Ticks.armed_iff (h : s.Ticks s') (hwf : s.WellFormed) {j : Job} {r : ℕ} :
    s'.Armed j r ↔ s.Armed j r ∧ r ∉ s.td.wheelTimer.tick.2.run := by
  rw [Armed, h.td_eq]
  exact HashedWheelTimer.armed_tick hwf.wheel

theorem Ticks.inFlight_iff (h : s.Ticks s') (hwf : s.WellFormed) {j : Job} {r : ℕ} :
    s'.InFlight j r ↔ s.InFlight j r ∨ (s.Armed j r ∧ r ∈ s.td.wheelTimer.tick.2.run) := by
  rw [InFlight, h.runs_eq]
  constructor
  · rintro ⟨x, hx, rfl, rfl⟩
    rcases List.mem_append.mp hx with hx | hx
    · exact Or.inl ⟨x, hx, rfl, rfl⟩
    · obtain ⟨hr, htask, -⟩ := mem_firedRuns.mp hx
      obtain ⟨t, hp, hc, ht⟩ := HashedWheelTimer.mem_tick_run hwf.wheel hr
      exact Or.inr ⟨⟨hp, hc, htask⟩, hr⟩
  · rintro (⟨x, hx, rfl, rfl⟩ | ⟨harmed, hr⟩)
    · exact ⟨x, List.mem_append_left _ hx, rfl, rfl⟩
    · exact ⟨⟨r, j, .fired⟩, List.mem_append_right _ (mem_firedRuns.mpr ⟨hr, harmed.2.2, rfl⟩),
        rfl, rfl⟩

/-- A tick starts what is due, and loses nothing. -/
theorem Ticks.live_iff (h : s.Ticks s') (hwf : s.WellFormed) {j : Job} {r : ℕ} :
    s'.Live j r ↔ s.Live j r := by
  rw [Live, Live, h.armed_iff hwf, h.inFlight_iff hwf]
  tauto

/-- **A goroutine begins `Run`.** -/
structure Begins (s : DispatchState) (r : ℕ) (now : ℤ) (x : TaskRun) (s' : DispatchState)
    (ev : List DispatchEvent) : Prop where
  run_mem : x ∈ s.runs
  timeout_eq : x.timeout = r
  stage_eq : x.stage = .fired
  runs_eq : s'.runs = s.advanceRun r .dispatching
  wheel_eq : s'.td.wheelTimer = s.td.wheelTimer
  started_eq : s'.td.started = s.td.started
  cyclic_eq : s'.td.cyclicTasks = s.td.cyclicTasks
  temp_eq : s'.td.tempTasks = s.td.tempTasks
  infos_job : ∀ id info', s'.td.jobInfos.lookup id = some info' →
    ∃ info, s.td.jobInfos.lookup id = some info ∧ info'.job = info.job
  ev_eq : ev = (match s.td.jobInfos.lookup x.job.id with
    | none => []
    | some info => if info.job.isCyclic ∧ 0 < info.job.defaultInterval then
        [.recorded info.job now (now + nextDelay info.job)] else []) ++ [.dispatched x.job]

/-- To update the entry of a job leaves the jobs of all entries as they are. -/
theorem exists_info_of_insert {infos : Go.Map ℤ JobInfo} {id id' : ℤ} {info new info' : JobInfo}
    (hl : infos.lookup id = some info) (h : (infos.insert id new).lookup id' = some info')
    (hjob : new.job = info.job) :
    ∃ old, infos.lookup id' = some old ∧ info'.job = old.job := by
  rcases Go.lookup_of_lookup_insert h with ⟨rfl, rfl⟩ | hold
  · exact ⟨info, hl, hjob⟩
  · exact ⟨info', hold, rfl⟩

/-- The report of a `Run` that begins changes statistics and job infos only. -/
theorem begin_frame (task : WheelTimerTask) (td : TimeDispatch) (now : ℤ) :
    (task.begin td now).wheelTimer = td.wheelTimer ∧
      (task.begin td now).cyclicTasks = td.cyclicTasks ∧
      (task.begin td now).tempTasks = td.tempTasks ∧ (task.begin td now).started = td.started := by
  simp only [WheelTimerTask.begin, TimeDispatch.updateJobExecution]
  split <;> exact ⟨rfl, rfl, rfl, rfl⟩

theorem step_begin {r : ℕ} {now : ℤ} (h : s.step (.begin r now) = some (s', ev)) :
    ∃ x, s.Begins r now x s' ev := by
  rcases hx : s.runAt r .fired with _ | x
  · simp [step, hx] at h
  · simp only [step, hx] at h
    obtain ⟨rfl, rfl⟩ := Prod.mk.inj (Option.some.inj h)
    obtain ⟨hmem, ht, hst⟩ := runAt_eq_some hx
    obtain ⟨hwheel, hcyclic, htemp, hstarted⟩ := begin_frame ⟨x.job⟩ s.td now
    refine ⟨x, hmem, ht, hst, rfl, hwheel, hstarted, hcyclic, htemp, fun id info' hinfo => ?_, ?_⟩
    · simp only [WheelTimerTask.begin, TimeDispatch.updateJobExecution,
        TimeDispatch.recordJobExecution] at hinfo
      rcases hl : s.td.jobInfos.lookup x.job.id with _ | info
      · simp only [hl] at hinfo
        exact ⟨info', hinfo, rfl⟩
      · simp only [hl] at hinfo
        exact exists_info_of_insert hl hinfo rfl
    · rcases hl : s.td.jobInfos.lookup x.job.id with _ | info
      · simp [beginEvents, WheelTimerTask.begin, TimeDispatch.updateJobExecution,
          TimeDispatch.recordJobExecution, hl]
      · simp only [beginEvents, WheelTimerTask.begin, TimeDispatch.updateJobExecution,
          TimeDispatch.recordJobExecution, hl, AList.lookup_insert]
        split_ifs <;> rfl

/-- **`DispatchMetricsTask` ends.** -/
structure Completes (s : DispatchState) (r : ℕ) (outcome : Outcome) (x : TaskRun)
    (s' : DispatchState) : Prop where
  run_mem : x ∈ s.runs
  timeout_eq : x.timeout = r
  stage_eq : x.stage = .dispatching
  runs_eq : s'.runs = if outcome = .ok ∧ x.job.isCyclic ∧ 0 < x.job.defaultInterval then
    s.advanceRun r .rescheduling else s.endRun r
  wheel_eq : s'.td.wheelTimer = s.td.wheelTimer
  started_eq : s'.td.started = s.td.started
  cyclic_eq : s'.td.cyclicTasks = s.td.cyclicTasks
  temp_eq : s'.td.tempTasks = s.td.tempTasks
  infos_eq : s'.td.jobInfos = s.td.jobInfos

theorem step_complete {r : ℕ} {outcome : Outcome}
    (h : s.step (.complete r outcome) = some (s', ev)) :
    ∃ x, s.Completes r outcome x s' ∧ ev = [] := by
  rcases hx : s.runAt r .dispatching with _ | x
  · simp [step, hx] at h
  · simp only [step, hx] at h
    obtain ⟨rfl, rfl⟩ := Prod.mk.inj (Option.some.inj h)
    obtain ⟨hmem, ht, hst⟩ := runAt_eq_some hx
    refine ⟨x, ⟨hmem, ht, hst, ?_, ?_, ?_, ?_, ?_, ?_⟩, rfl⟩
    · simp [WheelTimerTask.reschedules]
    all_goals cases outcome <;> rfl

/-- **`Run` reschedules its job**, or panics on the way and is recovered. -/
structure Reschedules (s : DispatchState) (r : ℕ) (now : ℤ) (x : TaskRun) (o : Option ℕ)
    (s' : DispatchState) (ev : List DispatchEvent) : Prop where
  runs_eq : s'.runs = s.endRun r
  asked : Asked s.td.wheelTimer x.job o s'.td.wheelTimer
  started_eq : s'.td.started = s.td.started
  cyclic_eq : s'.td.cyclicTasks = s.td.cyclicTasks.insert x.job.id o
  temp_eq : s'.td.tempTasks = s.td.tempTasks
  infos_job : ∀ id info', s'.td.jobInfos.lookup id = some info' →
    ∃ info, s.td.jobInfos.lookup id = some info ∧ info'.job = info.job
  ev_eq : ev = .rescheduled x.job o (nextDelay x.job) ::
    (match s.td.jobInfos.lookup x.job.id with
    | none => []
    | some _ => [.recorded x.job now (now + nextDelay x.job)])

/-- The dispatcher after a rescheduling, with what the wheel returned. -/
theorem step_reschedule_eq (hwf : s.WellFormed) {r : ℕ} {now : ℤ}
    (h : s.step (.reschedule r now) = some (s', ev)) :
    ∃ x ∈ s.runs, x.timeout = r ∧ x.stage = .rescheduling ∧
      ((∃ p, s.td.wheelTimer.newTimeout ⟨x.job⟩ (nextDelay x.job) now = .error p ∧
          s' = { s with runs := s.endRun r } ∧ ev = []) ∨
        ∃ w o, s.td.wheelTimer.newTimeout ⟨x.job⟩ (nextDelay x.job) now = .ok (w, o) ∧
          s' = ⟨{ s.td with
            wheelTimer := w
            cyclicTasks := s.td.cyclicTasks.insert x.job.id o
            jobInfos := match s.td.jobInfos.lookup x.job.id with
              | none => s.td.jobInfos
              | some info => s.td.jobInfos.insert x.job.id
                  { info with nextExecutionAt := now + nextDelay x.job, timeout := o } },
            s.endRun r⟩ ∧
          ev = rescheduleEvents s'.td x.job now) := by
  rcases hx : s.runAt r .rescheduling with _ | x
  · simp [step, hx] at h
  · obtain ⟨hmem, ht, hst⟩ := runAt_eq_some hx
    obtain ⟨hcyc, hpos⟩ := hwf.run_cyclic x hmem hst
    -- only cyclic jobs with an interval come this far, so the error branch is not taken
    have hcond : ¬(¬x.job.isCyclic ∨ x.job.defaultInterval ≤ 0) := by
      rintro (hc | hc)
      · exact hc hcyc
      · omega
    refine ⟨x, hmem, ht, hst, ?_⟩
    rcases hn : s.td.wheelTimer.newTimeout ⟨x.job⟩ (nextDelay x.job) now with p | ⟨w, o⟩
    · simp only [step, hx, WheelTimerTask.rescheduleJob, if_neg (not_le.mpr hpos),
        TimeDispatch.rescheduleJob, if_neg hcond, hn, Except.map] at h
      obtain ⟨rfl, rfl⟩ := Prod.mk.inj (Option.some.inj h)
      exact Or.inl ⟨p, rfl, rfl, rfl⟩
    · simp only [step, hx, WheelTimerTask.rescheduleJob, if_neg (not_le.mpr hpos),
        TimeDispatch.rescheduleJob, if_neg hcond, hn, Except.map] at h
      obtain ⟨rfl, rfl⟩ := Prod.mk.inj (Option.some.inj h)
      exact Or.inr ⟨w, o, rfl, rfl, rfl⟩

theorem step_reschedule (hwf : s.WellFormed) {r : ℕ} {now : ℤ}
    (h : s.step (.reschedule r now) = some (s', ev)) :
    ∃ x ∈ s.runs, x.timeout = r ∧ x.stage = .rescheduling ∧
      ((s' = { s with runs := s.endRun r } ∧ ev = [] ∧
          ∃ p, s.td.wheelTimer.newTimeout ⟨x.job⟩ (nextDelay x.job) now = .error p) ∨
        ∃ o, s.Reschedules r now x o s' ev) := by
  obtain ⟨x, hmem, ht, hst, ⟨p, hn, rfl, rfl⟩ | ⟨w, o, hn, rfl, rfl⟩⟩ := step_reschedule_eq hwf h
  · exact ⟨x, hmem, ht, hst, Or.inl ⟨rfl, rfl, p, hn⟩⟩
  · refine ⟨x, hmem, ht, hst,
      Or.inr ⟨o, rfl, asked_of_newTimeout hwf.wheel hn, rfl, rfl, rfl, ?_, ?_⟩⟩
    · intro id info' hinfo
      rcases hl : s.td.jobInfos.lookup x.job.id with _ | info
      · simp only [hl] at hinfo
        exact ⟨info', hinfo, rfl⟩
      · simp only [hl] at hinfo
        exact exists_info_of_insert hl hinfo rfl
    · rcases hl : s.td.jobInfos.lookup x.job.id with _ | info
      · simp [rescheduleEvents, hl]
      · simp [rescheduleEvents]

/-! ### What a step lets one see -/

/-- **The events of a step**, each with what the step does. -/
inductive Emits (s s' : DispatchState) (ev : List DispatchEvent) :
    DispatchAct → DispatchEvent → Prop
  | added {j now o} (h : s.Adds j now o s' ev) :
      Emits s s' ev (.addJob (some j) now) (.added j o (firstDelay j))
  | addRecorded {j now o} (h : s.Adds j now o s' ev) :
      Emits s s' ev (.addJob (some j) now) (.recorded j now (now + firstDelay j))
  | removed {id r} (h : s.Removes id r s' ev) : Emits s s' ev (.removeJob id) (.removed id)
  | beginRecorded {r now x info} (h : s.Begins r now x s' ev)
      (hinfo : s.td.jobInfos.lookup x.job.id = some info) :
      Emits s s' ev (.begin r now) (.recorded info.job now (now + nextDelay info.job))
  | dispatched {r now x} (h : s.Begins r now x s' ev) :
      Emits s s' ev (.begin r now) (.dispatched x.job)
  | rescheduled {r now x o} (hx : x ∈ s.runs) (hr : x.timeout = r)
      (h : s.Reschedules r now x o s' ev) :
      Emits s s' ev (.reschedule r now) (.rescheduled x.job o (nextDelay x.job))
  | rescheduleRecorded {r now x o} (hx : x ∈ s.runs) (hr : x.timeout = r)
      (h : s.Reschedules r now x o s' ev) :
      Emits s s' ev (.reschedule r now) (.recorded x.job now (now + nextDelay x.job))

theorem emits_of_mem (hwf : s.WellFormed) {a : DispatchAct} (hs : s.step a = some (s', ev))
    {e : DispatchEvent} (he : e ∈ ev) : Emits s s' ev a e := by
  cases a with
  | addJob job now =>
    rcases job with _ | j
    · obtain ⟨-, rfl⟩ := step_addJob_nil hs
      exact absurd he (by simp)
    · obtain ⟨o, ha⟩ := step_addJob hwf hs
      have hcases := he
      rw [ha.ev_eq, List.mem_cons, List.mem_singleton] at hcases
      rcases hcases with rfl | rfl
      · exact .added ha
      · exact .addRecorded ha
  | removeJob id =>
    rcases step_removeJob hs with ⟨-, rfl, -⟩ | ⟨r, hr⟩
    · exact absurd he (by simp)
    · have hcases := he
      rw [hr.ev_eq, List.mem_singleton] at hcases
      exact hcases ▸ .removed hr
  | start =>
    obtain ⟨-, rfl⟩ := step_start hs
    exact absurd he (by simp)
  | stop =>
    obtain ⟨rfl, -⟩ := step_stop hwf hs
    exact absurd he (by simp)
  | tick =>
    obtain ⟨-, rfl⟩ := step_tick hs
    exact absurd he (by simp)
  | begin r now =>
    obtain ⟨x, hb⟩ := step_begin hs
    have hcases := he
    rw [hb.ev_eq, List.mem_append, List.mem_singleton] at hcases
    rcases hcases with hrec | rfl
    · rcases hl : s.td.jobInfos.lookup x.job.id with _ | info
      · simp [hl] at hrec
      · simp only [hl] at hrec
        split_ifs at hrec
        · exact (List.mem_singleton.mp hrec) ▸ .beginRecorded hb hl
        · exact absurd hrec (by simp)
    · exact .dispatched hb
  | complete r outcome =>
    obtain ⟨x, -, rfl⟩ := step_complete hs
    exact absurd he (by simp)
  | reschedule r now =>
    obtain ⟨x, hx, hxr, -, ⟨-, rfl, -⟩ | ⟨o, hr⟩⟩ := step_reschedule hwf hs
    · exact absurd he (by simp)
    · have hcases := he
      rw [hr.ev_eq, List.mem_cons] at hcases
      rcases hcases with rfl | hrec
      · exact .rescheduled hx hxr hr
      · rcases hl : s.td.jobInfos.lookup x.job.id with _ | info
        · simp [hl] at hrec
        · simp only [hl] at hrec
          exact (List.mem_singleton.mp hrec) ▸ .rescheduleRecorded hx hxr hr

/-! ### Every step keeps states well-formed -/

theorem endRun_sublist (s : DispatchState) (r : ℕ) : (s.endRun r).Sublist s.runs :=
  List.filter_sublist

/-- A step that asks the wheel for a timeout and stores what it gets under the id of the
job. -/
theorem WellFormed.of_asked (h : s.WellFormed) {j : Job} {o : Option ℕ}
    (ha : Asked s.td.wheelTimer j o s'.td.wheelTimer)
    (hc : ∀ id r, s'.td.cyclicTasks.lookup id = some (some r) →
      s.td.cyclicTasks.lookup id = some (some r) ∨ (id = j.id ∧ o = some r))
    (ht : ∀ id r, s'.td.tempTasks.lookup id = some (some r) →
      s.td.tempTasks.lookup id = some (some r) ∨ (id = j.id ∧ o = some r))
    (hr : s'.runs.Sublist s.runs) : s'.WellFormed where
  wheel := ha.wellFormed
  cyclic_task := fun id r hl => by
    rcases hc id r hl with hl | ⟨rfl, hnew⟩
    · obtain ⟨j', htask, hid⟩ := h.cyclic_task id r hl
      exact ⟨j', ha.task_mono _ _ htask, hid⟩
    · exact ⟨j, ha.task_new r hnew, rfl⟩
  temp_task := fun id r hl => by
    rcases ht id r hl with hl | ⟨rfl, hnew⟩
    · obtain ⟨j', htask, hid⟩ := h.temp_task id r hl
      exact ⟨j', ha.task_mono _ _ htask, hid⟩
    · exact ⟨j, ha.task_new r hnew, rfl⟩
  runs_nodup := (hr.map _).nodup h.runs_nodup
  run_task := fun x hx => ha.task_mono _ _ (h.run_task x (hr.subset hx))
  run_disarmed := fun x hx j' harmed => by
    have hx' := hr.subset hx
    rcases (ha.armed_iff j' x.timeout).mp harmed with harmed | ⟨-, hnew⟩
    · exact h.run_disarmed x hx' j' harmed
    · -- the new timeout is fresh, and a run in flight has an old one
      have hnone := ha.fresh _ hnew
      rw [h.run_task x hx'] at hnone
      exact absurd hnone (by simp)
  run_cyclic := fun x hx => h.run_cyclic x (hr.subset hx)

/-- A step that arms nothing, stores nothing and starts no run. -/
theorem WellFormed.of_still (h : s.WellFormed) (hw : s'.td.wheelTimer.WellFormed)
    (harmed : ∀ j r, s'.Armed j r → s.Armed j r)
    (htask : ∀ r, s'.td.wheelTimer.task r = s.td.wheelTimer.task r)
    (hc : ∀ id r, s'.td.cyclicTasks.lookup id = some (some r) →
      s.td.cyclicTasks.lookup id = some (some r))
    (ht : ∀ id r, s'.td.tempTasks.lookup id = some (some r) →
      s.td.tempTasks.lookup id = some (some r))
    (hnodup : (s'.runs.map TaskRun.timeout).Nodup)
    (hr : ∀ x ∈ s'.runs, ∃ y ∈ s.runs, y.timeout = x.timeout ∧ y.job = x.job ∧
      (x.stage = .rescheduling →
        y.stage = .rescheduling ∨ (x.job.isCyclic ∧ 0 < x.job.defaultInterval))) :
    s'.WellFormed where
  wheel := hw
  cyclic_task := fun id r hl => by
    rw [htask]
    exact h.cyclic_task id r (hc id r hl)
  temp_task := fun id r hl => by
    rw [htask]
    exact h.temp_task id r (ht id r hl)
  runs_nodup := hnodup
  run_task := fun x hx => by
    obtain ⟨y, hy, hyt, hyj, -⟩ := hr x hx
    rw [htask, ← hyt, ← hyj]
    exact h.run_task y hy
  run_disarmed := fun x hx j hx' => by
    obtain ⟨y, hy, hyt, -⟩ := hr x hx
    exact h.run_disarmed y hy j (hyt ▸ harmed j _ hx')
  run_cyclic := fun x hx hst => by
    obtain ⟨y, hy, -, hyj, hys⟩ := hr x hx
    rcases hys hst with hys | hys
    · exact hyj ▸ h.run_cyclic y hy hys
    · exact hys

/-- Where the runs in flight are some of those before, unchanged. -/
theorem run_of_sublist (hr : s'.runs.Sublist s.runs) : ∀ x ∈ s'.runs, ∃ y ∈ s.runs,
    y.timeout = x.timeout ∧ y.job = x.job ∧ (x.stage = .rescheduling →
      y.stage = .rescheduling ∨ (x.job.isCyclic ∧ 0 < x.job.defaultInterval)) :=
  fun x hx => ⟨x, hr.subset hx, rfl, rfl, Or.inl⟩

theorem Adds.wellFormed (h : s.WellFormed) {j : Job} {now : ℤ} {o : Option ℕ}
    (ha : s.Adds j now o s' ev) : s'.WellFormed := by
  refine h.of_asked ha.asked (fun id r hl => ?_) (fun id r hl => ?_) (ha.runs_eq ▸ .refl _)
  · rw [ha.cyclic_eq] at hl
    split_ifs at hl
    · exact (Go.lookup_of_lookup_insert hl).symm
    · exact Or.inl hl
  · rw [ha.temp_eq] at hl
    split_ifs at hl
    · exact Or.inl hl
    · exact (Go.lookup_of_lookup_insert hl).symm

theorem Reschedules.wellFormed (h : s.WellFormed) {r : ℕ} {now : ℤ} {x : TaskRun} {o : Option ℕ}
    (hr : s.Reschedules r now x o s' ev) : s'.WellFormed := by
  refine h.of_asked hr.asked (fun id r hl => ?_) (fun id r hl => Or.inl (hr.temp_eq ▸ hl))
    (hr.runs_eq ▸ s.endRun_sublist r)
  rw [hr.cyclic_eq] at hl
  exact (Go.lookup_of_lookup_insert hl).symm

theorem Removes.armed_iff (h : s.WellFormed) {id : ℤ} {r : ℕ} (hr : s.Removes id r s' ev) {j : Job}
    {r' : ℕ} : s'.Armed j r' ↔ s.Armed j r' ∧ r' ≠ r := by
  rw [Armed, hr.wheel_eq]
  exact HashedWheelTimer.armed_cancel h.wheel

theorem Removes.wellFormed (h : s.WellFormed) {id : ℤ} {r : ℕ} (hr : s.Removes id r s' ev) :
    s'.WellFormed := by
  exact h.of_still (hr.wheel_eq ▸ HashedWheelTimer.wellFormed_cancel h.wheel r)
    (fun j r' ha => ((hr.armed_iff h).mp ha).1)
    (fun r' => by rw [hr.wheel_eq, HashedWheelTimer.task_cancel])
    (fun _ _ hl => hr.cyclic_of_lookup hl) (fun _ _ hl => hr.temp_of_lookup hl)
    (hr.runs_eq ▸ h.runs_nodup) (run_of_sublist (hr.runs_eq ▸ .refl _))

theorem Idle.armed_iff (h : s.Idle s') {j : Job} {r : ℕ} : s'.Armed j r ↔ s.Armed j r := by
  rw [Armed, h.wheel_eq, Armed]

theorem Idle.live_iff (h : s.Idle s') {j : Job} {r : ℕ} : s'.Live j r ↔ s.Live j r := by
  rw [Live, h.armed_iff, inFlight_of_eq h.runs_eq, Live]

theorem Idle.wellFormed (h : s.WellFormed) (hi : s.Idle s') : s'.WellFormed :=
  h.of_still (hi.wheel_eq ▸ h.wheel) (fun j r => hi.armed_iff.mp) (fun r => by rw [hi.wheel_eq])
    (fun _ _ hl => hi.cyclic_eq ▸ hl) (fun _ _ hl => hi.temp_eq ▸ hl) (hi.runs_eq ▸ h.runs_nodup)
    (run_of_sublist (hi.runs_eq ▸ .refl _))

theorem Starts.live_iff (h : s.Starts s') {j : Job} {r : ℕ} : s'.Live j r ↔ s.Live j r := by
  rw [Live, h.armed_iff, inFlight_of_eq h.runs_eq, Live]

theorem Starts.wellFormed (h : s.WellFormed) (hs : s.Starts s') : s'.WellFormed :=
  h.of_still (hs.wheel_wf h.wheel) (fun j r => (hs.armed_iff j r).mp) hs.task_eq
    (fun _ _ hl => hs.cyclic_eq ▸ hl) (fun _ _ hl => hs.temp_eq ▸ hl) (hs.runs_eq ▸ h.runs_nodup)
    (run_of_sublist (hs.runs_eq ▸ .refl _))

theorem Stops.wellFormed (h : s.WellFormed) (hs : s.Stops s') : s'.WellFormed := by
  refine h.of_still hs.wheel_wf (fun j r ha => ((hs.armed_iff j r).mp ha).1) hs.task_eq
    (fun id r hl => ?_) (fun id r hl => ?_) (hs.runs_eq ▸ h.runs_nodup)
    (run_of_sublist (hs.runs_eq ▸ .refl _))
  · rw [hs.cyclic_eq] at hl
    exact absurd hl (by simp)
  · rw [hs.temp_eq] at hl
    exact absurd hl (by simp)

theorem Ticks.wellFormed (h : s.WellFormed) (ht : s.Ticks s') : s'.WellFormed where
  wheel := by
    rw [ht.td_eq]
    exact HashedWheelTimer.wellFormed_tick h.wheel
  cyclic_task := by
    rw [ht.td_eq]
    exact h.cyclic_task
  temp_task := by
    rw [ht.td_eq]
    exact h.temp_task
  runs_nodup := by
    rw [ht.runs_eq, List.map_append]
    have hfired : ((firedRuns s.td.wheelTimer.tick.1 s.td.wheelTimer.tick.2.run).map
        TaskRun.timeout).Sublist s.td.wheelTimer.tick.2.run := by
      rw [timeout_firedRuns]
      exact List.filter_sublist
    refine List.nodup_append.mpr ⟨h.runs_nodup,
      hfired.nodup (HashedWheelTimer.nodup_tick_run h.wheel), ?_⟩
    rintro r hr r' hr' rfl
    -- what a tick runs was armed, and what is in flight is not
    obtain ⟨x, hx, rfl⟩ := List.mem_map.mp hr
    obtain ⟨t, harmed⟩ := HashedWheelTimer.mem_tick_run h.wheel (hfired.subset hr')
    exact h.run_disarmed x hx t.job harmed
  run_task := fun x hx => by
    rw [ht.runs_eq] at hx
    rw [ht.td_eq]
    rcases List.mem_append.mp hx with hx | hx
    · exact h.run_task x hx
    · exact (mem_firedRuns.mp hx).2.1
  run_disarmed := fun x hx j harmed => by
    obtain ⟨ha, hnot⟩ := (ht.armed_iff h).mp harmed
    rw [ht.runs_eq] at hx
    rcases List.mem_append.mp hx with hx | hx
    · exact h.run_disarmed x hx j ha
    · exact hnot (mem_firedRuns.mp hx).1
  run_cyclic := fun x hx hst => by
    rw [ht.runs_eq] at hx
    rcases List.mem_append.mp hx with hx | hx
    · exact h.run_cyclic x hx hst
    · rw [(mem_firedRuns.mp hx).2.2] at hst
      exact absurd hst (by simp)

theorem Begins.armed_iff {r : ℕ} {now : ℤ} {x : TaskRun} (hb : s.Begins r now x s' ev) {j : Job}
    {r' : ℕ} : s'.Armed j r' ↔ s.Armed j r' := by
  rw [Armed, hb.wheel_eq, Armed]

theorem Begins.wellFormed (h : s.WellFormed) {r : ℕ} {now : ℤ} {x : TaskRun}
    (hb : s.Begins r now x s' ev) : s'.WellFormed := by
  refine h.of_still (hb.wheel_eq ▸ h.wheel) (fun j r => hb.armed_iff.mp)
    (fun r => by rw [hb.wheel_eq]) (fun id r hl => hb.cyclic_eq ▸ hl)
    (fun id r hl => hb.temp_eq ▸ hl) ?_ fun y hy => ?_
  · rw [hb.runs_eq, timeout_advanceRun]
    exact h.runs_nodup
  · rw [hb.runs_eq] at hy
    obtain ⟨z, hz, hzt, hzj, ⟨-, hst⟩ | ⟨-, rfl⟩⟩ := mem_advanceRun hy
    · exact ⟨z, hz, hzt, hzj, fun hc => absurd (hst.symm.trans hc) (by simp)⟩
    · exact ⟨y, hz, rfl, rfl, Or.inl⟩

theorem Completes.armed_iff {r : ℕ} {outcome : Outcome} {x : TaskRun}
    (hc : s.Completes r outcome x s') {j : Job} {r' : ℕ} : s'.Armed j r' ↔ s.Armed j r' := by
  rw [Armed, hc.wheel_eq, Armed]

theorem Completes.inFlight_of {r : ℕ} {outcome : Outcome} {x : TaskRun}
    (hc : s.Completes r outcome x s') {j : Job} {r' : ℕ} (hf : s'.InFlight j r') :
    s.InFlight j r' := by
  have hruns := hc.runs_eq
  split_ifs at hruns
  · exact (inFlight_of_advanceRun hruns).mp hf
  · exact ((inFlight_of_endRun hruns).mp hf).1

theorem WellFormed.run_unique (h : s.WellFormed) {x y : TaskRun} (hx : x ∈ s.runs) (hy : y ∈ s.runs)
    (ht : x.timeout = y.timeout) : x = y :=
  List.inj_on_of_nodup_map h.runs_nodup hx hy ht

theorem Completes.wellFormed (h : s.WellFormed) {r : ℕ} {outcome : Outcome} {x : TaskRun}
    (hc : s.Completes r outcome x s') : s'.WellFormed := by
  have hruns := hc.runs_eq
  refine h.of_still (hc.wheel_eq ▸ h.wheel) (fun j r => hc.armed_iff.mp)
    (fun r => by rw [hc.wheel_eq]) (fun id r hl => hc.cyclic_eq ▸ hl)
    (fun id r hl => hc.temp_eq ▸ hl) ?_ ?_
  · split_ifs at hruns
    · rw [hruns, timeout_advanceRun]
      exact h.runs_nodup
    · rw [hruns]
      exact ((s.endRun_sublist r).map _).nodup h.runs_nodup
  · split_ifs at hruns with hcond
    · intro y hy
      rw [hruns] at hy
      obtain ⟨z, hz, hzt, hzj, ⟨hzr, -⟩ | ⟨-, rfl⟩⟩ := mem_advanceRun hy
      · obtain rfl := h.run_unique hz hc.run_mem (hzr.trans hc.timeout_eq.symm)
        exact ⟨z, hz, hzt, hzj, fun _ => Or.inr (hzj ▸ hcond.2)⟩
      · exact ⟨y, hz, rfl, rfl, Or.inl⟩
    · exact run_of_sublist (hruns ▸ s.endRun_sublist r)

theorem wellFormed_endRun (h : s.WellFormed) (r : ℕ) :
    WellFormed { s with runs := s.endRun r } :=
  h.of_still h.wheel (fun _ _ ha => ha) (fun _ => rfl) (fun _ _ hl => hl) (fun _ _ hl => hl)
    (((s.endRun_sublist r).map _).nodup h.runs_nodup) (run_of_sublist (s.endRun_sublist r))

/-- **Every step keeps states well-formed.** -/
theorem WellFormed.step (h : s.WellFormed) {a : DispatchAct} (hs : s.step a = some (s', ev)) :
    s'.WellFormed := by
  cases a with
  | addJob job now =>
    rcases job with _ | j
    · obtain ⟨rfl, -⟩ := step_addJob_nil hs
      exact h
    · obtain ⟨o, ha⟩ := step_addJob h hs
      exact ha.wellFormed h
  | removeJob id =>
    rcases step_removeJob hs with ⟨hi, -⟩ | ⟨r, hr⟩
    · exact hi.wellFormed h
    · exact hr.wellFormed h
  | start => exact (step_start hs).1.wellFormed h
  | stop =>
    rcases (step_stop h hs).2 with ⟨-, rfl⟩ | hst
    · exact h
    · exact hst.wellFormed h
  | tick => exact (step_tick hs).1.wellFormed h
  | begin r now =>
    obtain ⟨x, hb⟩ := step_begin hs
    exact hb.wellFormed h
  | complete r outcome =>
    obtain ⟨x, hc, -⟩ := step_complete hs
    exact hc.wellFormed h
  | reschedule r now =>
    obtain ⟨x, -, -, -, ⟨rfl, -⟩ | ⟨o, hr⟩⟩ := step_reschedule h hs
    · exact wellFormed_endRun h r
    · exact hr.wellFormed h

/-- Only `Start` and `Stop` touch the flags. -/
theorem flags_of_step (h : s.WellFormed) {a : DispatchAct} (hs : s.step a = some (s', ev))
    (hstart : a ≠ .start) (hstop : a ≠ .stop) :
    s'.td.wheelTimer.flags = s.td.wheelTimer.flags ∧ s'.td.started = s.td.started := by
  cases a with
  | addJob job now =>
    rcases job with _ | j
    · obtain ⟨rfl, -⟩ := step_addJob_nil hs
      exact ⟨rfl, rfl⟩
    · obtain ⟨o, ha⟩ := step_addJob h hs
      exact ⟨ha.asked.flags_eq, ha.started_eq⟩
  | removeJob id =>
    rcases step_removeJob hs with ⟨hi, -⟩ | ⟨r, hr⟩
    · exact ⟨by rw [hi.wheel_eq], hi.started_eq⟩
    · exact ⟨by rw [hr.wheel_eq]; rfl, hr.started_eq⟩
  | start => exact absurd rfl hstart
  | stop => exact absurd rfl hstop
  | tick =>
    obtain ⟨ht, -⟩ := step_tick hs
    rw [ht.td_eq]
    exact ⟨rfl, rfl⟩
  | begin r now =>
    obtain ⟨x, hb⟩ := step_begin hs
    exact ⟨by rw [hb.wheel_eq], hb.started_eq⟩
  | complete r outcome =>
    obtain ⟨x, hc, -⟩ := step_complete hs
    exact ⟨by rw [hc.wheel_eq], hc.started_eq⟩
  | reschedule r now =>
    obtain ⟨x, -, -, -, ⟨rfl, -⟩ | ⟨o, hr⟩⟩ := step_reschedule h hs
    · exact ⟨rfl, rfl⟩
    · exact ⟨hr.asked.flags_eq, hr.started_eq⟩

theorem statsLogging_removeJob {td : TimeDispatch} {id : ℤ} {p : TimeDispatch × Option Go.Str}
    (h : td.removeJob id = .ok p) : p.1.statsLogging = td.statsLogging := by
  simp only [TimeDispatch.removeJob] at h
  split at h
  · split at h
    · cases h
    · obtain rfl := Except.ok.inj h
      rfl
  · split at h
    · split at h
      · cases h
      · obtain rfl := Except.ok.inj h
        rfl
    · obtain rfl := Except.ok.inj h
      rfl

/-- Only `Start` and `Stop` have to do with the statistics goroutines. -/
theorem statsLogging_of_step (h : s.WellFormed) {a : DispatchAct} (hs : s.step a = some (s', ev))
    (hstart : a ≠ .start) (hstop : a ≠ .stop) : s'.td.statsLogging = s.td.statsLogging := by
  cases a with
  | addJob job now =>
    rcases job with _ | j
    · obtain ⟨rfl, -⟩ := step_addJob_nil hs
      rfl
    · obtain ⟨w, o, -, rfl, -⟩ := step_addJob_eq hs
      rfl
  | removeJob id =>
    rcases hr : s.td.removeJob id with p | p
    · simp [DispatchState.step, hr] at hs
    · simp only [DispatchState.step, hr] at hs
      obtain ⟨rfl, -⟩ := Prod.mk.inj (Option.some.inj hs)
      exact statsLogging_removeJob hr
  | start => exact absurd rfl hstart
  | stop => exact absurd rfl hstop
  | tick => rw [(step_tick hs).1.td_eq, TimeDispatch.statsLogging, TimeDispatch.statsLogging]
  | begin r now =>
    rcases hx : s.runAt r .fired with _ | x
    · simp [DispatchState.step, hx] at hs
    · simp only [DispatchState.step, hx] at hs
      obtain ⟨rfl, -⟩ := Prod.mk.inj (Option.some.inj hs)
      simp only [WheelTimerTask.begin, TimeDispatch.updateJobExecution]
      split <;> rfl
  | complete r outcome =>
    rcases hx : s.runAt r .dispatching with _ | x
    · simp [DispatchState.step, hx] at hs
    · simp only [DispatchState.step, hx] at hs
      obtain ⟨rfl, -⟩ := Prod.mk.inj (Option.some.inj hs)
      cases outcome <;> rfl
  | reschedule r now =>
    obtain ⟨x, -, -, -, ⟨p, -, rfl, -⟩ | ⟨w, o, -, rfl, -⟩⟩ := step_reschedule_eq h hs
    · rfl
    · rfl

theorem stopped_of_step (h : s.WellFormed) {a : DispatchAct} (hs : s.step a = some (s', ev))
    (hstop : a ≠ .stop) : s'.td.wheelTimer.stopped = s.td.wheelTimer.stopped := by
  by_cases hstart : a = .start
  · subst hstart
    rw [(step_start hs).1.wheel_eq, HashedWheelTimer.start]
    split_ifs <;> rfl
  · exact congrArg (fun f => f.2.1) (flags_of_step h hs hstart hstop).1

theorem wellFormed_of_exec {now : ℤ} {as : List DispatchAct} {tr : List DispatchEvent}
    (h : exec DispatchState.step (init now) as = some (s, tr)) : s.WellFormed :=
  exec_invariant (wellFormed_init now) (fun _ _ _ _ hwf hs => WellFormed.step hwf hs) h

end DispatchState

end HertzBeat
