import HertzBeat.Dispatcher.Registries
import HertzBeat.Transport.Runner
import Mathlib.Data.List.Dedup

/-!
# What is registered of a job that is over

The runner keeps the jobs it was given in a map of its own, beside the one-time tasks and the job
infos of the dispatcher. A job is entered in all of them when it is added. A job that is over –
no timeout of it is armed, and no `Run` of it is in flight – is meant to be in none of them, so
that they grow with the jobs that are still scheduled or running and not with all there ever were.

Nothing takes a job out when its `Run` ends, though: only `RemoveAsyncCollectJob` does, or the end
of the service. `HertzBeat.JobService.always_tidy_iff` says when no job is left behind: exactly
if every `Run` that is the last of its job ends when the job has been removed already.
-/

namespace HertzBeat

open Runs

namespace DispatchState

variable {s s' : DispatchState} {ev : List DispatchEvent}

/-! ### Jobs that are scheduled or running -/

/-- A job with the id is scheduled or running. -/
def Active (s : DispatchState) (id : ℤ) : Prop := ∃ j r, j.id = id ∧ s.Live j r

/-- A job with the id is scheduled or running, apart from one timeout. -/
def ActiveBut (s : DispatchState) (id : ℤ) (r : ℕ) : Prop :=
  ∃ j r', j.id = id ∧ s.Live j r' ∧ r' ≠ r

theorem WellFormed.active_iff (h : s.WellFormed) {id : ℤ} :
    s.Active id ↔ s.liveTimeouts id ≠ [] := by
  constructor
  · rintro ⟨j, r, hid, hlive⟩
    exact List.ne_nil_of_mem (h.mem_liveTimeouts.mpr ⟨j, hid, hlive⟩)
  · intro hne
    obtain ⟨r, hr⟩ := List.exists_mem_of_ne_nil _ hne
    obtain ⟨j, hid, hlive⟩ := h.mem_liveTimeouts.mp hr
    exact ⟨j, r, hid, hlive⟩

theorem active_congr (h : ∀ j r, s'.Live j r ↔ s.Live j r) (id : ℤ) :
    s'.Active id ↔ s.Active id :=
  exists_congr fun j => exists_congr fun r => and_congr_right fun _ => h j r

/-- A timeout has one job. -/
theorem WellFormed.live_unique (h : s.WellFormed) {j j' : Job} {r : ℕ} (hj : s.Live j r)
    (hj' : s.Live j' r) : j = j' := by
  have htask := (h.live_task hj).symm.trans (h.live_task hj')
  exact congrArg WheelTimerTask.job (Option.some.inj htask)

/-- Timeouts of other ids do not matter to an id. -/
theorem WellFormed.activeBut_iff (h : s.WellFormed) {j : Job} {r : ℕ} (hr : s.Live j r) {id : ℤ}
    (hne : id ≠ j.id) : s.ActiveBut id r ↔ s.Active id := by
  constructor
  · rintro ⟨j', r', hid, hlive, -⟩
    exact ⟨j', r', hid, hlive⟩
  · rintro ⟨j', r', rfl, hlive⟩
    refine ⟨j', r', rfl, hlive, ?_⟩
    rintro rfl
    exact hne (congrArg JobOf.id (h.live_unique hlive hr))

/-- A job that is added is scheduled, unless the wheel is stopped. -/
theorem Adds.active_iff {j : Job} {now : ℤ} {o : Option ℕ} (ha : s.Adds j now o s' ev) (id : ℤ) :
    s'.Active id ↔ s.Active id ∨ (id = j.id ∧ s.td.wheelTimer.stopped = false) := by
  have hlive : ∀ j' r, s'.Live j' r ↔ s.Live j' r ∨ (j' = j ∧ o = some r) := by
    intro j' r
    rw [Live, Armed, ha.asked.armed_iff, inFlight_of_eq ha.runs_eq, Live, Armed]
    tauto
  constructor
  · rintro ⟨j', r, rfl, hl⟩
    rcases (hlive j' r).mp hl with hold | ⟨rfl, ho⟩
    · exact .inl ⟨j', r, rfl, hold⟩
    · refine .inr ⟨rfl, Bool.eq_false_iff.mpr fun hstopped => ?_⟩
      rw [ha.asked.nil_iff.mpr hstopped] at ho
      exact absurd ho (by simp)
  · rintro (⟨j', r, hid, hold⟩ | ⟨rfl, hstopped⟩)
    · exact ⟨j', r, hid, (hlive j' r).mpr (.inl hold)⟩
    · obtain ⟨r, ho, -⟩ := ha.asked.exists_armed hstopped
      exact ⟨j, r, rfl, (hlive j r).mpr (.inr ⟨rfl, ho⟩)⟩

/-- What a removal leaves of a job: the timeouts but the one that is cancelled, unless its `Run`
is in flight. -/
theorem Removes.live_iff (h : s.WellFormed) {id : ℤ} {r : ℕ} (hr : s.Removes id r s' ev) {j : Job}
    {r' : ℕ} : s'.Live j r' ↔ s.Live j r' ∧ (r' ≠ r ∨ s.InFlight j r') := by
  rw [Live, hr.armed_iff h, inFlight_of_eq hr.runs_eq, Live]
  tauto

/-- A removal leaves other jobs as they are. -/
theorem Removes.active_iff_of_ne (h : s.WellFormed) {id : ℤ} {r : ℕ} (hr : s.Removes id r s' ev)
    {id' : ℤ} (hne : id' ≠ id) : s'.Active id' ↔ s.Active id' := by
  constructor
  · rintro ⟨j, r', hid, hl⟩
    exact ⟨j, r', hid, ((hr.live_iff h).mp hl).1⟩
  · rintro ⟨j, r', rfl, hl⟩
    refine ⟨j, r', rfl, (hr.live_iff h).mpr ⟨hl, .inl ?_⟩⟩
    rintro rfl
    -- what is stored under the id is a timeout of a job with that id
    obtain ⟨j', htask, hid⟩ : ∃ j', s.td.wheelTimer.task r' = some ⟨j'⟩ ∧ j'.id = id := by
      rcases hr.stored with ⟨hc, -⟩ | ⟨-, ht, -⟩
      · exact h.cyclic_task id r' hc
      · exact h.temp_task id r' ht
    have heq := (h.live_task hl).symm.trans htask
    exact hne ((congrArg (fun t => t.job.id) (Option.some.inj heq)).trans hid)

/-- A `Run` that ends is the last of its timeout. -/
theorem live_of_endRun (h : s.WellFormed) {x : TaskRun} (hx : x ∈ s.runs)
    (harmed : ∀ j r, s'.Armed j r ↔ s.Armed j r) (hruns : s'.runs = s.endRun x.timeout) {j : Job}
    {r : ℕ} : s'.Live j r ↔ s.Live j r ∧ r ≠ x.timeout := by
  rw [Live, harmed, inFlight_of_endRun hruns, Live]
  constructor
  · rintro (ha | ⟨hf, hne⟩)
    · refine ⟨.inl ha, ?_⟩
      rintro rfl
      exact h.run_disarmed x hx j ha
    · exact ⟨.inr hf, hne⟩
  · rintro ⟨ha | hf, hne⟩
    · exact .inl ha
    · exact .inr ⟨hf, hne⟩

theorem active_of_endRun (h : s.WellFormed) {x : TaskRun} (hx : x ∈ s.runs)
    (harmed : ∀ j r, s'.Armed j r ↔ s.Armed j r) (hruns : s'.runs = s.endRun x.timeout) (id : ℤ) :
    s'.Active id ↔ s.ActiveBut id x.timeout :=
  exists_congr fun _ => exists_congr fun _ =>
    and_congr_right fun _ => live_of_endRun h hx harmed hruns

/-- A `Run` that reschedules its job is followed by a new timeout, unless the wheel is stopped. -/
theorem Reschedules.active_iff (h : s.WellFormed) {x : TaskRun} (hx : x ∈ s.runs) {now : ℤ}
    {o : Option ℕ} (hr : s.Reschedules x.timeout now x o s' ev) (id : ℤ) :
    s'.Active id ↔ s.ActiveBut id x.timeout ∨
      (id = x.job.id ∧ s.td.wheelTimer.stopped = false) := by
  have hlive : ∀ j r, s'.Live j r ↔
      (s.Live j r ∧ r ≠ x.timeout) ∨ (j = x.job ∧ o = some r) := by
    intro j r
    have hend := @live_of_endRun s { s with runs := s.endRun x.timeout } h x hx
      (fun _ _ => Iff.rfl) rfl j r
    rw [← hend, Live, Armed, hr.asked.armed_iff, InFlight, hr.runs_eq]
    exact or_right_comm
  constructor
  · rintro ⟨j, r, rfl, hl⟩
    rcases (hlive j r).mp hl with ⟨hold, hne⟩ | ⟨rfl, ho⟩
    · exact .inl ⟨j, r, rfl, hold, hne⟩
    · refine .inr ⟨rfl, Bool.eq_false_iff.mpr fun hstopped => ?_⟩
      rw [hr.asked.nil_iff.mpr hstopped] at ho
      exact absurd ho (by simp)
  · rintro (⟨j, r, hid, hold⟩ | ⟨rfl, hstopped⟩)
    · exact ⟨j, r, hid, (hlive j r).mpr (.inl hold)⟩
    · obtain ⟨r, ho, -⟩ := hr.asked.exists_armed hstopped
      exact ⟨x.job, r, rfl, (hlive x.job r).mpr (.inr ⟨rfl, ho⟩)⟩

/-- **What `Stop` leaves**: the runs in flight, and timeouts that are stored nowhere. -/
def Outlasts (s : DispatchState) (id : ℤ) : Prop :=
  ∃ j r, j.id = id ∧ (s.InFlight j r ∨ (s.Armed j r ∧
    some r ∉ s.td.cyclicTasks.entries.map Sigma.snd ∧
    some r ∉ s.td.tempTasks.entries.map Sigma.snd))

theorem Stops.active_iff (hs : s.Stops s') (id : ℤ) : s'.Active id ↔ s.Outlasts id := by
  refine exists_congr fun j => exists_congr fun r => and_congr_right fun _ => ?_
  rw [Live, hs.armed_iff, inFlight_of_eq hs.runs_eq, or_comm]

/-! ### Job infos -/

theorem mem_jobInfos_iff (s : DispatchState) (id : ℤ) :
    id ∈ s.td.jobInfos ↔ (s.infoTimeout id).isSome := by
  rw [infoTimeout, Option.isSome_map, AList.lookup_isSome]

/-- The keys of the job infos after a rescheduling. -/
theorem Stores.mem_jobInfos_iff {id : ℤ} {o : Option ℕ} (h : s.Stores id o s') (id' : ℤ) :
    id' ∈ s'.td.jobInfos ↔ id' ∈ s.td.jobInfos := by
  rw [DispatchState.mem_jobInfos_iff, DispatchState.mem_jobInfos_iff]
  rcases eq_or_ne id' id with rfl | hne
  · rw [h.info_self, Option.isSome_map]
  · rw [h.info_of_ne id' hne]

end DispatchState

/-! ### The runner with its dispatcher -/

/-- The runner, its dispatcher and the runs in flight. -/
structure JobService where
  runningJobs : Go.Map ℤ Job
  dispatch : DispatchState

/-- A step of the service. -/
inductive ServiceAct where
  | addAsyncCollectJob (job : Option Job) (now : ℤ)
  | removeAsyncCollectJob (jobID : ℤ)
  | close
  /-- A step of the dispatcher other than a call of `AddJob` or `RemoveJob`. -/
  | dispatch (a : DispatchAct)

/-- A call that comes from the runner. -/
def DispatchAct.isCall : DispatchAct → Bool
  | .addJob _ _ => true
  | .removeJob _ => true
  | _ => false

namespace JobService

/-- A new service. -/
def init (now : ℤ) : JobService where
  runningJobs := ∅
  dispatch := .init now

/-- One step of the service. -/
def step (s : JobService) : ServiceAct → Option (JobService × List DispatchEvent)
  | .addAsyncCollectJob none _ => some (s, [])
  | .addAsyncCollectJob (some job) now =>
    (s.dispatch.step (.addJob (some job) now)).map fun p =>
      (⟨s.runningJobs.insert job.id job, p.1⟩, p.2)
  | .removeAsyncCollectJob jobID =>
    (s.dispatch.step (.removeJob jobID)).map fun p => (⟨s.runningJobs.erase jobID, p.1⟩, p.2)
  | .close => (s.dispatch.step .stop).map fun p => (⟨∅, p.1⟩, p.2)
  | .dispatch a =>
    if a.isCall then none else (s.dispatch.step a).map fun p => ({ s with dispatch := p.1 }, p.2)

/-- `AddJob` of a job has no error. -/
theorem addJob_error_eq_none {td td' : TimeDispatch} {job : Job} {now : ℤ} {err : Option Go.Str}
    (h : td.addJob (some job) now = .ok (td', err)) : err = none := by
  rw [TimeDispatch.addJob] at h
  split at h
  · exact absurd h (by simp)
  · cases h
    rfl

/-- **The steps of the runner are its methods.** -/
theorem step_of_addAsyncCollectJob {r r' : Runner} {job : Option Job} {now : ℤ}
    {err : Option Go.Str} (h : r.addAsyncCollectJob job now = .ok (r', err)) (runs : List TaskRun) :
    ∃ ev, step ⟨r.runningJobs, r.timeDispatch, runs⟩ (.addAsyncCollectJob job now) =
      some (⟨r'.runningJobs, r'.timeDispatch, runs⟩, ev) := by
  cases job with
  | none =>
    cases h
    exact ⟨_, rfl⟩
  | some job =>
    unfold Runner.addAsyncCollectJob at h
    simp only at h
    split at h
    · exact absurd h (by simp)
    · rename_i hadd
      cases h
      simp only [step, DispatchState.step, hadd]
      exact ⟨_, rfl⟩
    · rename_i hadd
      exact absurd (addJob_error_eq_none hadd) (by simp)

theorem step_of_removeAsyncCollectJob {r r' : Runner} {jobID : ℤ} {err : Option Go.Str}
    (h : r.removeAsyncCollectJob jobID = .ok (r', err)) (runs : List TaskRun) :
    ∃ ev, step ⟨r.runningJobs, r.timeDispatch, runs⟩ (.removeAsyncCollectJob jobID) =
      some (⟨r'.runningJobs, r'.timeDispatch, runs⟩, ev) := by
  unfold Runner.removeAsyncCollectJob at h
  simp only at h
  split at h
  · exact absurd h (by simp)
  · rename_i hremove
    cases h
    simp only [step, DispatchState.step, hremove]
    exact ⟨_, rfl⟩

/-! ### What is registered -/

variable {s s' : JobService} {ev : List DispatchEvent}

/-- The id is in one of the maps that only a removal takes it out of. -/
def Registered (s : JobService) (id : ℤ) : Prop :=
  id ∈ s.dispatch.td.tempTasks ∨ id ∈ s.dispatch.td.jobInfos ∨ id ∈ s.runningJobs

/-- **Nothing is left behind**: what is registered is scheduled or running. -/
def Forgets (s : JobService) : Prop := ∀ id, s.Registered id → s.dispatch.Active id

/-- **No job is left behind by a step.** A `Run` after which nothing is scheduled or running
under its id ends only when the id is registered no more; a job is added only while the wheel
runs; an id that is registered as both kinds, of which a removal takes the cyclic one, has
something left to wait for; and so has every running job when the dispatcher is stopped. -/
def Attended (s : JobService) : ServiceAct → Prop
  | .addAsyncCollectJob (some job) _ =>
    s.dispatch.Active job.id ∨ s.dispatch.td.wheelTimer.stopped = false
  | .removeAsyncCollectJob id => ∀ r, s.dispatch.td.cyclicTasks.lookup id = some (some r) →
    id ∈ s.dispatch.td.tempTasks →
      ∃ j r', j.id = id ∧ s.dispatch.Live j r' ∧ (r' ≠ r ∨ s.dispatch.InFlight j r')
  | .dispatch .stop => s.dispatch.td.started = true →
    ∀ id, id ∈ s.runningJobs → s.dispatch.Outlasts id
  | .dispatch (.complete r outcome) => ∀ x ∈ s.dispatch.runs, x.timeout = r →
    WheelTimerTask.reschedules ⟨x.job⟩ outcome = false → s.Registered x.job.id →
      s.dispatch.ActiveBut x.job.id r
  | .dispatch (.reschedule r now) => ∀ x ∈ s.dispatch.runs, x.timeout = r →
    s.Registered x.job.id → s.dispatch.ActiveBut x.job.id r ∨
      (s.dispatch.td.wheelTimer.stopped = false ∧
        ∃ q, s.dispatch.td.wheelTimer.newTimeout ⟨x.job⟩ (nextDelay x.job) now = .ok q)
  | _ => True

/-- A step that is about one id leaves behind no other. -/
theorem forgets_iff_at {id : ℤ} (h : s.Forgets)
    (hreg : ∀ id', id' ≠ id → s'.Registered id' → s.Registered id')
    (hact : ∀ id', id' ≠ id → s.dispatch.Active id' → s'.dispatch.Active id') :
    s'.Forgets ↔ (s'.Registered id → s'.dispatch.Active id) := by
  refine ⟨fun hall => hall id, fun hid id' hreg' => ?_⟩
  rcases eq_or_ne id' id with rfl | hne
  · exact hid hreg'
  · exact hact id' hne (h id' (hreg id' hne hreg'))

/-- A step that ends nothing and registers nothing. -/
theorem forgets_of_same (h : s.Forgets) (hreg : ∀ id, s'.Registered id → s.Registered id)
    (hact : ∀ id, s.dispatch.Active id → s'.dispatch.Active id) : s'.Forgets :=
  fun id hid => hact id (h id (hreg id hid))

/-- Where the keys of the three maps stay, so does what is registered. -/
theorem registered_congr (ht : s'.dispatch.td.tempTasks = s.dispatch.td.tempTasks)
    (hi : ∀ id, id ∈ s'.dispatch.td.jobInfos ↔ id ∈ s.dispatch.td.jobInfos)
    (hr : s'.runningJobs = s.runningJobs) (id : ℤ) : s'.Registered id ↔ s.Registered id := by
  rw [Registered, ht, hi, hr, Registered]

/-- A step of the dispatcher that arms, ends and registers nothing. -/
theorem forgets_of_live_iff (h : s.Forgets) {d : DispatchState}
    (ht : d.td.tempTasks = s.dispatch.td.tempTasks)
    (hi : ∀ id, id ∈ d.td.jobInfos ↔ id ∈ s.dispatch.td.jobInfos)
    (hlive : ∀ j r, d.Live j r ↔ s.dispatch.Live j r) : Forgets { s with dispatch := d } := by
  intro id hreg
  rw [Registered, ht, hi] at hreg
  exact (DispatchState.active_congr hlive id).mpr (h id hreg)

/-! ### The steps -/

/-- A job that is added is registered, and no other. -/
theorem forgets_add_iff (hwf : s.dispatch.WellFormed) (h : s.Forgets) {job : Job} {now : ℤ}
    (hs : s.step (.addAsyncCollectJob (some job) now) = some (s', ev)) :
    s'.Forgets ↔ s.Attended (.addAsyncCollectJob (some job) now) := by
  obtain ⟨⟨d, ev'⟩, hstep, heq⟩ := Option.map_eq_some_iff.mp hs
  cases heq
  obtain ⟨o, ha⟩ := DispatchState.step_addJob hwf hstep
  have hregistered : Registered ⟨s.runningJobs.insert job.id job, d⟩ job.id :=
    .inr (.inr (AList.mem_insert _ |>.mpr (.inl rfl)))
  have hiff : Forgets ⟨s.runningJobs.insert job.id job, d⟩ ↔
      (Registered ⟨s.runningJobs.insert job.id job, d⟩ job.id → d.Active job.id) := by
    refine forgets_iff_at h (fun id' hne hreg => ?_) fun id' _ hactive =>
      (ha.active_iff id').mpr (.inl hactive)
    rcases hreg with htemp | hinfo | hrunning
    · rw [ha.temp_eq] at htemp
      split_ifs at htemp
      · exact .inl htemp
      · exact .inl (((AList.mem_insert _).mp htemp).resolve_left hne)
    · rw [ha.infos_eq] at hinfo
      exact .inr (.inl (((AList.mem_insert _).mp hinfo).resolve_left hne))
    · exact .inr (.inr (((AList.mem_insert _).mp hrunning).resolve_left hne))
  rw [hiff, forall_prop_of_true hregistered, ha.active_iff, Attended]
  simp only [true_and]

/-- Of the id that is removed, only a one-time task may be left. -/
theorem forgets_iff_of_removes (hwf : s.dispatch.WellFormed) (h : s.Forgets) {id : ℤ} {r : ℕ}
    {d : DispatchState} (hr : s.dispatch.Removes id r d ev) :
    Forgets ⟨s.runningJobs.erase id, d⟩ ↔ (id ∈ d.td.tempTasks → d.Active id) := by
  have hinfos : id ∉ d.td.jobInfos := by
    rw [hr.infos_eq, AList.mem_erase]
    exact fun hc => hc.1 rfl
  have hat : Forgets ⟨s.runningJobs.erase id, d⟩ ↔
      (Registered ⟨s.runningJobs.erase id, d⟩ id → d.Active id) := by
    refine forgets_iff_at h (fun id' hne hreg => ?_) fun id' hne =>
      (hr.active_iff_of_ne hwf hne).mpr
    rcases hreg with htemp | hinfo | hrun
    · obtain ⟨o, ho⟩ := Option.isSome_iff_exists.mp (AList.lookup_isSome.mpr htemp)
      exact .inl (AList.lookup_isSome.mp (Option.isSome_iff_exists.mpr
        ⟨o, hr.temp_of_lookup ho⟩))
    · rw [hr.infos_eq] at hinfo
      exact .inr (.inl (AList.mem_erase.mp hinfo).2)
    · exact .inr (.inr (AList.mem_erase.mp hrun).2)
  rw [hat]
  refine ⟨fun hreg htemp => hreg (.inl htemp), fun htemp hreg => ?_⟩
  rcases hreg with ht | hinfo | hrun
  · exact htemp ht
  · exact absurd hinfo hinfos
  · exact absurd rfl (AList.mem_erase.mp hrun).1

/-- A job that is removed is registered no more, unless it was registered as both kinds. -/
theorem forgets_remove_iff (hwf : s.dispatch.WellFormed) (h : s.Forgets) {id : ℤ}
    (hs : s.step (.removeAsyncCollectJob id) = some (s', ev)) :
    s'.Forgets ↔ s.Attended (.removeAsyncCollectJob id) := by
  obtain ⟨⟨d, ev'⟩, hstep, heq⟩ := Option.map_eq_some_iff.mp hs
  cases heq
  rcases DispatchState.step_removeJob hstep with ⟨hi, -, hcyclic, -⟩ | ⟨r, hr⟩
  · refine iff_of_true (forgets_of_same h (fun id' hreg => ?_) fun id' => ?_) ?_
    · rw [Registered, hi.temp_eq, hi.infos_eq] at hreg
      exact hreg.imp_right (Or.imp_right fun hrun => (AList.mem_erase.mp hrun).2)
    · exact (DispatchState.active_congr (fun _ _ => hi.live_iff) id').mpr
    · intro r hstored'
      rw [hcyclic] at hstored'
      exact absurd hstored' (by simp)
  · rw [forgets_iff_of_removes hwf h hr]
    rcases hr.stored with ⟨hcyclic, -, htemp⟩ | ⟨hcyclic, -, -, htemp⟩
    · rw [htemp]
      constructor
      · intro hactive r' hr' hid
        obtain rfl : r = r' := by simpa [hcyclic] using hr'
        obtain ⟨j, r', hj, hlive⟩ := hactive hid
        exact ⟨j, r', hj, (hr.live_iff hwf).mp hlive⟩
      · intro hattended hid
        obtain ⟨j, r', hj, hlive⟩ := hattended r hcyclic hid
        exact ⟨j, r', hj, (hr.live_iff hwf).mpr hlive⟩
    · refine iff_of_true (fun hid => ?_) fun r' hr' => ?_
      · rw [htemp] at hid
        exact absurd rfl (AList.mem_erase.mp hid).1
      · rw [hcyclic] at hr'
        exact absurd hr' (by simp)

/-- The end of the service registers nothing and forgets all. -/
theorem forgets_close (hwf : s.dispatch.WellFormed) (h : s.Forgets)
    (hs : s.step .close = some (s', ev)) : s'.Forgets := by
  obtain ⟨⟨d, ev'⟩, hstep, heq⟩ := Option.map_eq_some_iff.mp hs
  cases heq
  have hempty : ∀ id : ℤ, id ∉ (∅ : Go.Map ℤ Job) := AList.notMem_empty
  rcases (DispatchState.step_stop hwf hstep).2 with ⟨-, rfl⟩ | hst
  · refine forgets_of_same h (fun id hreg => ?_) fun _ hactive => hactive
    exact hreg.imp_right (Or.imp_right fun hrun => absurd hrun (hempty id))
  · rintro id (htemp | hinfo | hrun)
    · rw [hst.temp_eq] at htemp
      exact absurd htemp (AList.notMem_empty id)
    · rw [hst.infos_eq] at hinfo
      exact absurd hinfo (AList.notMem_empty id)
    · exact absurd hrun (hempty id)

/-- A dispatcher that is stopped forgets its own registries, and not those of the runner. -/
theorem forgets_stop_iff (hwf : s.dispatch.WellFormed) (h : s.Forgets) {d : DispatchState}
    (hs : s.dispatch.step .stop = some (d, ev)) :
    Forgets { s with dispatch := d } ↔ s.Attended (.dispatch .stop) := by
  cases hstarted : s.dispatch.td.started with
  | false =>
    have hsame : d = s.dispatch := by
      simp only [DispatchState.step, TimeDispatch.stop, hstarted] at hs
      exact (congrArg Prod.fst (Option.some.inj hs)).symm
    rw [hsame]
    exact iff_of_true h fun hc => absurd (hstarted.symm.trans hc) (by simp)
  | true =>
    rcases (DispatchState.step_stop hwf hs).2 with ⟨hnot, -⟩ | hst
    · exact absurd (hnot.symm.trans hstarted) (by simp)
    · constructor
      · intro hforgets _ id hrun
        exact (hst.active_iff id).mp (hforgets id (.inr (.inr hrun)))
      · rintro hattended id (htemp | hinfo | hrun)
        · rw [hst.temp_eq] at htemp
          exact absurd htemp (AList.notMem_empty id)
        · rw [hst.infos_eq] at hinfo
          exact absurd hinfo (AList.notMem_empty id)
        · exact (hst.active_iff id).mpr (hattended hstarted id hrun)

/-- **A `Run` ends**: its id is left behind unless it is registered no more, or something else
is scheduled or running under it. -/
theorem forgets_endRun_iff (hwf : s.dispatch.WellFormed) (h : s.Forgets) {x : TaskRun}
    (hx : x ∈ s.dispatch.runs) {d : DispatchState} {P : Prop}
    (hreg : ∀ id, Registered { s with dispatch := d } id ↔ s.Registered id)
    (hact : ∀ id, d.Active id ↔
      s.dispatch.ActiveBut id x.timeout ∨ (id = x.job.id ∧ P)) :
    Forgets { s with dispatch := d } ↔
      (s.Registered x.job.id → s.dispatch.ActiveBut x.job.id x.timeout ∨ P) := by
  have hlive : s.dispatch.Live x.job x.timeout := .inr ⟨x, hx, rfl, rfl⟩
  have hat : Forgets { s with dispatch := d } ↔
      (Registered { s with dispatch := d } x.job.id → d.Active x.job.id) :=
    forgets_iff_at h (fun id _ => (hreg id).mp) fun id hne hactive =>
      (hact id).mpr (.inl ((hwf.activeBut_iff hlive hne).mpr hactive))
  rw [hat, hreg, hact]
  simp only [true_and]

theorem forgets_complete_iff (hwf : s.dispatch.WellFormed) (h : s.Forgets) {r : ℕ}
    {outcome : Outcome} {d : DispatchState}
    (hs : s.dispatch.step (.complete r outcome) = some (d, ev)) :
    Forgets { s with dispatch := d } ↔ s.Attended (.dispatch (.complete r outcome)) := by
  obtain ⟨x, hc, -⟩ := DispatchState.step_complete hs
  have hreg : ∀ id, Registered { s with dispatch := d } id ↔ s.Registered id :=
    registered_congr hc.temp_eq (fun id => by rw [hc.infos_eq]) rfl
  have hattended : s.Attended (.dispatch (.complete r outcome)) ↔
      (WheelTimerTask.reschedules ⟨x.job⟩ outcome = false → s.Registered x.job.id →
        s.dispatch.ActiveBut x.job.id r) := by
    refine ⟨fun hall => hall x hc.run_mem hc.timeout_eq, fun hx y hy hyr => ?_⟩
    obtain rfl := hwf.run_unique hc.run_mem hy (hc.timeout_eq.trans hyr.symm)
    exact hx
  have hruns := hc.runs_eq
  rw [hattended]
  split_ifs at hruns with hcond
  · have htrue : WheelTimerTask.reschedules ⟨x.job⟩ outcome = true := by
      simpa [WheelTimerTask.reschedules] using hcond
    refine iff_of_true (forgets_of_live_iff h hc.temp_eq (fun id => by rw [hc.infos_eq])
      fun j r' => ?_) fun hfalse => absurd (htrue.symm.trans hfalse) (by simp)
    rw [DispatchState.Live, hc.armed_iff, DispatchState.inFlight_of_advanceRun hruns,
      DispatchState.Live]
  · have hfalse : WheelTimerTask.reschedules ⟨x.job⟩ outcome = false := by
      simpa [WheelTimerTask.reschedules] using hcond
    obtain rfl := hc.timeout_eq
    have hact : ∀ id, d.Active id ↔
        s.dispatch.ActiveBut id x.timeout ∨ (id = x.job.id ∧ False) := fun id => by
      rw [DispatchState.active_of_endRun hwf hc.run_mem (fun _ _ => hc.armed_iff) hruns]
      simp
    rw [forgets_endRun_iff hwf h hc.run_mem hreg hact, forall_prop_of_true hfalse, or_false]

theorem forgets_reschedule_iff (hwf : s.dispatch.WellFormed) (h : s.Forgets) {r : ℕ} {now : ℤ}
    {d : DispatchState} (hs : s.dispatch.step (.reschedule r now) = some (d, ev)) :
    Forgets { s with dispatch := d } ↔ s.Attended (.dispatch (.reschedule r now)) := by
  obtain ⟨x, hx, hxr, -, hruns⟩ := DispatchState.step_reschedule hwf hs
  obtain ⟨y, hy, hyr, hstores⟩ := DispatchState.step_reschedule_stores hwf hs
  obtain rfl := hwf.run_unique hx hy (hxr.trans hyr.symm)
  obtain rfl := hxr
  have hattended : s.Attended (.dispatch (.reschedule x.timeout now)) ↔
      (s.Registered x.job.id → s.dispatch.ActiveBut x.job.id x.timeout ∨
        (s.dispatch.td.wheelTimer.stopped = false ∧
          ∃ q, s.dispatch.td.wheelTimer.newTimeout ⟨x.job⟩ (nextDelay x.job) now = .ok q)) := by
    refine ⟨fun hall => hall x hx rfl, fun hx' z hz hzr => ?_⟩
    obtain rfl := hwf.run_unique hx hz hzr.symm
    exact hx'
  rw [hattended]
  rcases hstores with ⟨htd, p, hp⟩ | ⟨⟨q, hq⟩, o, hst⟩
  · have hend : d.runs = s.dispatch.endRun x.timeout := by
      rcases hruns with ⟨rfl, -⟩ | ⟨o, hres⟩
      · rfl
      · exact hres.runs_eq
    refine forgets_endRun_iff hwf h hx
      (registered_congr (by rw [htd]) (fun id => by rw [htd]) rfl) fun id => ?_
    rw [DispatchState.active_of_endRun hwf hx
      (fun _ _ => by rw [DispatchState.Armed, htd, DispatchState.Armed]) hend]
    simp [hp]
  · rcases hruns with ⟨-, -, p, hp⟩ | ⟨o', hres⟩
    · exact absurd (hp.symm.trans hq) (by simp)
    · refine forgets_endRun_iff hwf h hx
        (registered_congr hst.temp_eq hst.mem_jobInfos_iff rfl) fun id => ?_
      rw [hres.active_iff hwf hx]
      simp [hq]

/-- **A step leaves no job behind exactly if it is attended.** -/
theorem forgets_step_iff (hwf : s.dispatch.WellFormed) (h : s.Forgets) {a : ServiceAct}
    (hs : s.step a = some (s', ev)) : s'.Forgets ↔ s.Attended a := by
  cases a with
  | addAsyncCollectJob job now =>
    cases job with
    | none =>
      cases hs
      exact iff_of_true h trivial
    | some job => exact forgets_add_iff hwf h hs
  | removeAsyncCollectJob id => exact forgets_remove_iff hwf h hs
  | close => exact iff_of_true (forgets_close hwf h hs) trivial
  | dispatch a =>
    rw [step] at hs
    split_ifs at hs with hcall
    obtain ⟨⟨d, ev'⟩, hstep, heq⟩ := Option.map_eq_some_iff.mp hs
    cases heq
    cases a with
    | addJob job now => exact absurd rfl hcall
    | removeJob id => exact absurd rfl hcall
    | start =>
      have hst := (DispatchState.step_start hstep).1
      exact iff_of_true (forgets_of_live_iff h hst.temp_eq (fun id => by rw [hst.infos_eq])
        fun _ _ => hst.live_iff) trivial
    | stop => exact forgets_stop_iff hwf h hstep
    | tick =>
      obtain ⟨ht, -⟩ := DispatchState.step_tick hstep
      exact iff_of_true (forgets_of_live_iff h (by rw [ht.td_eq]) (fun id => by rw [ht.td_eq])
        fun _ _ => ht.live_iff hwf) trivial
    | begin r now =>
      obtain ⟨x, hb⟩ := DispatchState.step_begin hstep
      refine iff_of_true (forgets_of_live_iff h hb.temp_eq (fun id => ?_) fun j r' => ?_) trivial
      · rw [DispatchState.mem_jobInfos_iff, DispatchState.infoTimeout_step_begin hstep,
          ← DispatchState.mem_jobInfos_iff]
      · rw [DispatchState.Live, hb.armed_iff, DispatchState.inFlight_of_advanceRun hb.runs_eq,
          DispatchState.Live]
    | complete r outcome => exact forgets_complete_iff hwf h hstep
    | reschedule r now => exact forgets_reschedule_iff hwf h hstep

/-! ### Runs -/

/-- Every step of the service is one of its dispatcher, or none. -/
theorem wellFormed_step (hwf : s.dispatch.WellFormed) {a : ServiceAct}
    (hs : s.step a = some (s', ev)) : s'.dispatch.WellFormed := by
  cases a with
  | addAsyncCollectJob job now =>
    cases job with
    | none =>
      cases hs
      exact hwf
    | some job =>
      obtain ⟨⟨d, ev'⟩, hstep, heq⟩ := Option.map_eq_some_iff.mp hs
      cases heq
      exact hwf.step hstep
  | removeAsyncCollectJob id =>
    obtain ⟨⟨d, ev'⟩, hstep, heq⟩ := Option.map_eq_some_iff.mp hs
    cases heq
    exact hwf.step hstep
  | close =>
    obtain ⟨⟨d, ev'⟩, hstep, heq⟩ := Option.map_eq_some_iff.mp hs
    cases heq
    exact hwf.step hstep
  | dispatch a =>
    rw [step] at hs
    split_ifs at hs
    obtain ⟨⟨d, ev'⟩, hstep, heq⟩ := Option.map_eq_some_iff.mp hs
    cases heq
    exact hwf.step hstep

/-- The ids under which a job is scheduled or running. -/
def activeIds (s : JobService) : List ℤ :=
  ((s.dispatch.td.wheelTimer.pending.filter fun r =>
    !s.dispatch.td.wheelTimer.isCancelled r).filterMap s.dispatch.jobID ++
      s.dispatch.runs.map fun x => x.job.id).dedup

theorem mem_activeIds (hwf : s.dispatch.WellFormed) {id : ℤ} (h : s.dispatch.Active id) :
    id ∈ s.activeIds := by
  obtain ⟨j, r, rfl, harmed | ⟨x, hx, -, rfl⟩⟩ := h
  · obtain ⟨hpending, hcancelled, htask⟩ := harmed
    refine List.mem_dedup.mpr (List.mem_append_left _ (List.mem_filterMap.mpr ⟨r, ?_, ?_⟩))
    · exact List.mem_filter.mpr ⟨hwf.wheel.mem_pending.mpr hpending, by simp [hcancelled]⟩
    · rw [DispatchState.jobID, htask]
      rfl
  · exact List.mem_dedup.mpr (List.mem_append_right _ (List.mem_map.mpr ⟨x, hx, rfl⟩))

/-- A map whose keys are all active has no more entries than there are active ids. -/
theorem size_le_activeIds {ν : Type} {m : Go.Map ℤ ν} (hwf : s.dispatch.WellFormed)
    (h : ∀ id, id ∈ m → s.dispatch.Active id) : m.entries.length ≤ s.activeIds.length := by
  have hkeys : m.keys.length ≤ s.activeIds.length :=
    (List.subperm_of_subset m.keys_nodup fun id hid => mem_activeIds hwf (h id hid)).length_le
  simpa [AList.keys, List.keys] using hkeys

/-- **What holds where nothing is left behind**: a job of which nothing is scheduled or running is
in none of the maps, and none of them has more entries than there are jobs scheduled or
running. -/
structure Tidy (s : JobService) : Prop where
  temp_over : ∀ id, s.dispatch.liveTimeouts id = [] → id ∉ s.dispatch.td.tempTasks
  infos_over : ∀ id, s.dispatch.liveTimeouts id = [] → id ∉ s.dispatch.td.jobInfos
  running_over : ∀ id, s.dispatch.liveTimeouts id = [] → id ∉ s.runningJobs
  temp_size : s.dispatch.td.tempTasks.entries.length ≤ s.activeIds.length
  infos_size : s.dispatch.td.jobInfos.entries.length ≤ s.activeIds.length
  running_size : s.runningJobs.entries.length ≤ s.activeIds.length

theorem Forgets.tidy (hwf : s.dispatch.WellFormed) (h : s.Forgets) : s.Tidy where
  temp_over := fun id hover hid => hwf.active_iff.mp (h id (.inl hid)) hover
  infos_over := fun id hover hid => hwf.active_iff.mp (h id (.inr (.inl hid))) hover
  running_over := fun id hover hid => hwf.active_iff.mp (h id (.inr (.inr hid))) hover
  temp_size := size_le_activeIds hwf fun id hid => h id (.inl hid)
  infos_size := size_le_activeIds hwf fun id hid => h id (.inr (.inl hid))
  running_size := size_le_activeIds hwf fun id hid => h id (.inr (.inr hid))

theorem Tidy.forgets (hwf : s.dispatch.WellFormed) (h : s.Tidy) : s.Forgets := by
  intro id hreg
  refine hwf.active_iff.mpr fun hover => ?_
  rcases hreg with htemp | hinfo | hrun
  · exact h.temp_over id hover htemp
  · exact h.infos_over id hover hinfo
  · exact h.running_over id hover hrun

theorem forgets_init (now : ℤ) : (init now).Forgets := by
  rintro id (h | h | h) <;> exact absurd h (AList.notMem_empty id)

/-- **Jobs that are over are registered nowhere, in every state of a run, exactly if every step of
it is attended.** -/
theorem always_tidy_iff {now : ℤ} {as : List ServiceAct} {tr : List DispatchEvent}
    (h : exec step (init now) as = some (s, tr)) :
    Always step (fun _ _ s' => s'.Tidy) (init now) as ↔ Meets step Attended (init now) as := by
  refine @always_iff_meets _ _ _ step Attended (fun s => s.dispatch.WellFormed ∧ s.Forgets) _ _
    ⟨DispatchState.wellFormed_init now, forgets_init now⟩ ?_ ?_ _ _ _ h
  · rintro s a s' ev ⟨hwf, hforgets⟩ hok hs
    exact ⟨wellFormed_step hwf hs, (forgets_step_iff hwf hforgets hs).mpr hok⟩
  · rintro s a s' ev ⟨hwf, hforgets⟩ hs
    have hwf' := wellFormed_step hwf hs
    rw [← forgets_step_iff hwf hforgets hs]
    exact ⟨fun htidy => htidy.forgets hwf', fun hforgets' => hforgets'.tidy hwf'⟩

/-- A job that is to run once, after a tenth of a second, and does. -/
def oneRun : List ServiceAct :=
  [.addAsyncCollectJob (some (Job.bare 7 false 100)) 0, .dispatch .start, .dispatch .tick,
    .dispatch .tick, .dispatch (.begin 0 200000000), .dispatch (.complete 0 .ok)]

theorem always_tidy_iff_one_run :
    ∃ s tr, exec step (init 0) oneRun = some (s, tr) ∧
      (Always step (fun _ _ s' => s'.Tidy) (init 0) oneRun ↔
        Meets step Attended (init 0) oneRun) := by
  have hrun : (exec step (init 0) oneRun).isSome = true := rfl
  obtain ⟨⟨s, tr⟩, hs⟩ := Option.isSome_iff_exists.mp hrun
  exact ⟨s, tr, hs, always_tidy_iff hs⟩

/-- **A job that is done is not forgotten**: it has run and is not scheduled again, and is in all
three maps. -/
theorem not_tidy_one_run :
    ∃ s tr, exec step (init 0) oneRun = some (s, tr) ∧ s.dispatch.liveTimeouts 7 = [] ∧
      7 ∈ s.dispatch.td.tempTasks ∧ 7 ∈ s.dispatch.td.jobInfos ∧ 7 ∈ s.runningJobs := by
  have hrun : (exec step (init 0) oneRun).map (fun p =>
      (p.1.dispatch.liveTimeouts 7, (p.1.dispatch.td.tempTasks.lookup 7).isSome,
        (p.1.dispatch.td.jobInfos.lookup 7).isSome, (p.1.runningJobs.lookup 7).isSome)) =
        some ([], true, true, true) := by
    decide +kernel
  obtain ⟨⟨s, tr⟩, hs, hend⟩ := Option.map_eq_some_iff.mp hrun
  simp only [Prod.mk.injEq, AList.lookup_isSome] at hend
  exact ⟨s, tr, hs, hend⟩

end JobService

end HertzBeat
