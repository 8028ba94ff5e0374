import HertzBeat.Dispatcher.OneTimeout

/-!
# Removal

Once `RemoveJob` has returned nil the job should be gone for good. Two steps can
bring it back. A goroutine that a tick has started looks at nothing before it calls
`DispatchMetricsTask`, so a removal between the tick and the beginning of the `Run`
comes too late. And `RescheduleJob` stores a new timeout without looking whether
the job is still registered, so a removal during a `Run` is undone at its end.

`HertzBeat.DispatchState.removalFinal_of_exec`: these are the only two.
-/

namespace HertzBeat

open Runs

namespace DispatchState

variable {s s' : DispatchState} {ev tr : List DispatchEvent} {id : ℤ}

/-! ### The property -/

/-- The event is the start of a dispatch for the id, or a new timeout for it. -/
def Revives (id : ℤ) : DispatchEvent → Prop
  | .dispatched j => j.id = id
  | .added j (some _) _ => j.id = id
  | .rescheduled j (some _) _ => j.id = id
  | _ => False

/-- **Removal is final**: after an id was removed no event revives it, and nothing is
armed for it. -/
structure RemovalFinal (s : DispatchState) (tr : List DispatchEvent) : Prop where
  never_revived : tr.Pairwise fun e e' => ∀ id, e = .removed id → ¬Revives id e'
  nothing_armed : ∀ id, .removed id ∈ tr → ∀ j r, j.id = id → ¬s.Armed j r

/-- The ids of the jobs that were added, in order. -/
def addedIDs (tr : List DispatchEvent) : List ℤ :=
  tr.filterMap fun e => match e with
    | .added j _ _ => some j.id
    | _ => none

/-- A job is removed only while no goroutine is about to begin a `Run` of it, and
rescheduled only while it is still registered. -/
def RemovesSettled (s : DispatchState) : DispatchAct → Prop
  | .removeJob id => ∀ x ∈ s.runs, x.job.id = id → x.stage ≠ .fired
  | .reschedule r _ => ∀ x ∈ s.runs, x.timeout = r →
      (s.td.cyclicTasks.lookup x.job.id).isSome
  | _ => True

instance (s : DispatchState) (a : DispatchAct) : Decidable (s.RemovesSettled a) :=
  match a with
  | .removeJob _ => inferInstanceAs (Decidable (∀ x ∈ _, _ → _))
  | .reschedule _ _ => inferInstanceAs (Decidable (∀ x ∈ _, _ → _))
  | .addJob _ _ | .start | .stop | .tick | .begin _ _ | .complete _ _ =>
    inferInstanceAs (Decidable True)

/-! ### A job that is gone -/

/-- **The job is gone**: nothing is armed for the id, no goroutine is about to begin a
`Run` of it, and it is not among the cyclic tasks. A `Run` may still be under way. -/
structure Gone (s : DispatchState) (id : ℤ) : Prop where
  disarmed : ∀ j r, j.id = id → ¬s.Armed j r
  begun : ∀ x ∈ s.runs, x.job.id = id → x.stage ≠ .fired
  unregistered : s.td.cyclicTasks.lookup id = none

theorem Registered.gone_of_removes (h : s.Registered) {r : ℕ} (hr : s.Removes id r s' ev)
    (hok : s.RemovesSettled (.removeJob id)) : s'.Gone id where
  disarmed := fun _ _ hid => h.disarmed_of_removes hr hid
  begun := hr.runs_eq ▸ hok
  unregistered := by
    rcases hr.stored with ⟨-, hc, -⟩ | ⟨hnone, -, hc, -⟩
    · rw [hc, AList.lookup_erase]
    · rw [hc, hnone]

/-- A step that arms nothing, starts no run and stores nothing. -/
theorem Gone.of_still (h : s.Gone id) (harmed : ∀ j r, s'.Armed j r → s.Armed j r)
    (hruns : ∀ x ∈ s'.runs, x.stage = .fired → x ∈ s.runs)
    (hc : ∀ o, s'.td.cyclicTasks.lookup id = some o → s.td.cyclicTasks.lookup id = some o) :
    s'.Gone id where
  disarmed := fun j r hid ha => h.disarmed j r hid (harmed j r ha)
  begun := fun x hx hid hst => h.begun x (hruns x hx hst) hid hst
  unregistered := by
    rcases hl : s'.td.cyclicTasks.lookup id with _ | o
    · rfl
    · have := hc o hl
      rw [h.unregistered] at this
      exact absurd this (by simp)

theorem fired_of_advanceRun {r : ℕ} {stage : RunStage} (hstage : stage ≠ .fired) {x : TaskRun}
    (hx : x ∈ s.advanceRun r stage) (hst : x.stage = .fired) : x ∈ s.runs := by
  obtain ⟨y, hy, -, -, ⟨-, hs⟩ | ⟨-, rfl⟩⟩ := mem_advanceRun hx
  · exact absurd (hs.symm.trans hst) hstage
  · exact hy

/-- A run that is rescheduled is one of another job, for its own is registered. -/
theorem Gone.id_ne_of_reschedule (h : s.Gone id) {r : ℕ} {now : ℤ}
    (hok : s.RemovesSettled (.reschedule r now)) {x : TaskRun} (hx : x ∈ s.runs)
    (hxr : x.timeout = r) : x.job.id ≠ id := by
  intro hid
  have hsome := hok x hx hxr
  rw [hid, h.unregistered] at hsome
  exact absurd hsome (by simp)

/-- No event of a step revives a job that is gone: a `Run` that begins, or is rescheduled,
is one of another job. -/
theorem Gone.not_revives (h : s.Gone id) (hwf : s.WellFormed) {a : DispatchAct}
    (hok : s.RemovesSettled a) (hadd : ∀ j now, a = .addJob (some j) now → j.id ≠ id)
    (hs : s.step a = some (s', ev)) {e : DispatchEvent} (he : e ∈ ev) : ¬Revives id e := by
  cases emits_of_mem hwf hs he with
  | @added _ _ o _ =>
    rcases o with _ | r
    · exact not_false
    · exact hadd _ _ rfl
  | dispatched hb => exact fun hid => h.begun _ hb.run_mem hid hb.stage_eq
  | @rescheduled _ _ x o hx hxr _ =>
    rcases o with _ | r
    · exact not_false
    · exact h.id_ne_of_reschedule hok hx hxr
  | _ => exact not_false

/-- Another job is added. -/
theorem Gone.adds (h : s.Gone id) {j : Job} {now : ℤ} {o : Option ℕ} (ha : s.Adds j now o s' ev)
    (hne : j.id ≠ id) : s'.Gone id where
  disarmed := by
    intro j' r hid harmed
    rcases (ha.asked.armed_iff j' r).mp harmed with harmed | ⟨rfl, -⟩
    · exact h.disarmed j' r hid harmed
    · exact hne hid
  begun := ha.runs_eq ▸ h.begun
  unregistered := by
    rw [ha.cyclic_eq]
    split_ifs
    · rw [AList.lookup_insert_ne hne.symm, h.unregistered]
    · exact h.unregistered

/-- The goroutines that a tick starts are for timeouts that were armed. -/
theorem Gone.ticks (h : s.Gone id) (hwf : s.WellFormed) (ht : s.Ticks s') : s'.Gone id where
  disarmed := fun j r hid ha => h.disarmed j r hid ((ht.armed_iff hwf).mp ha).1
  begun := by
    intro x hx hid hst
    rw [ht.runs_eq] at hx
    rcases List.mem_append.mp hx with hx | hx
    · exact h.begun x hx hid hst
    · obtain ⟨hr, htask, -⟩ := mem_firedRuns.mp hx
      obtain ⟨t, hp, hc, -⟩ := HashedWheelTimer.mem_tick_run hwf.wheel hr
      exact h.disarmed x.job x.timeout hid ⟨hp, hc, htask⟩
  unregistered := by
    rw [ht.td_eq]
    exact h.unregistered

/-- Another job is rescheduled. -/
theorem Gone.reschedules (h : s.Gone id) {r : ℕ} {now : ℤ} {x : TaskRun} {o : Option ℕ}
    (hr : s.Reschedules r now x o s' ev) (hne : x.job.id ≠ id) : s'.Gone id where
  disarmed := by
    intro j r' hid ha
    rcases (hr.asked.armed_iff j r').mp ha with ha | ⟨rfl, -⟩
    · exact h.disarmed j r' hid ha
    · exact hne hid
  begun := fun y hy => h.begun y ((s.endRun_sublist r).subset (hr.runs_eq ▸ hy))
  unregistered := by
    rw [hr.cyclic_eq, AList.lookup_insert_ne hne.symm, h.unregistered]

/-- **A job that is gone stays gone** under every step but its own `AddJob`. -/
theorem Gone.step (h : s.Gone id) (hwf : s.WellFormed) {a : DispatchAct}
    (hok : s.RemovesSettled a) (hadd : ∀ j now, a = .addJob (some j) now → j.id ≠ id)
    (hs : s.step a = some (s', ev)) : s'.Gone id := by
  cases a with
  | addJob job now =>
    rcases job with _ | j
    · obtain ⟨rfl, -⟩ := step_addJob_nil hs
      exact h
    · obtain ⟨o, ha⟩ := step_addJob hwf hs
      exact h.adds ha (hadd j now rfl)
  | removeJob id' =>
    rcases step_removeJob hs with ⟨hi, -⟩ | ⟨r, hr⟩
    · exact h.of_still (fun _ _ => hi.armed_iff.mp) (fun x hx _ => hi.runs_eq ▸ hx)
        (fun o hl => hi.cyclic_eq ▸ hl)
    · exact h.of_still (fun _ _ ha => ((hr.armed_iff hwf).mp ha).1)
        (fun x hx _ => hr.runs_eq ▸ hx) (fun _ hl => hr.cyclic_of_lookup hl)
  | start =>
    obtain ⟨hst, -⟩ := step_start hs
    exact h.of_still (fun j r => (hst.armed_iff j r).mp) (fun x hx _ => hst.runs_eq ▸ hx)
      (fun o hl => hst.cyclic_eq ▸ hl)
  | stop =>
    rcases (step_stop hwf hs).2 with ⟨-, rfl⟩ | hst
    · exact h
    · refine h.of_still (fun j r ha => ((hst.armed_iff j r).mp ha).1)
        (fun x hx _ => hst.runs_eq ▸ hx) (fun o hl => ?_)
      rw [hst.cyclic_eq] at hl
      exact absurd hl (by simp)
  | tick =>
    obtain ⟨ht, -⟩ := step_tick hs
    exact h.ticks hwf ht
  | begin r now =>
    obtain ⟨x, hb⟩ := step_begin hs
    exact h.of_still (fun _ _ => hb.armed_iff.mp)
      (fun y hy hst => fired_of_advanceRun (by simp) (hb.runs_eq ▸ hy) hst)
      (fun o hl => hb.cyclic_eq ▸ hl)
  | complete r outcome =>
    obtain ⟨x, hc, -⟩ := step_complete hs
    refine h.of_still (fun _ _ => hc.armed_iff.mp) (fun y hy hst => ?_)
      (fun o hl => hc.cyclic_eq ▸ hl)
    have hruns := hc.runs_eq
    split_ifs at hruns
    · exact fired_of_advanceRun (by simp) (hruns ▸ hy) hst
    · exact (s.endRun_sublist r).subset (hruns ▸ hy)
  | reschedule r now =>
    obtain ⟨x, hx, hxr, -, ⟨rfl, -⟩ | ⟨o, hr⟩⟩ := step_reschedule hwf hs
    · exact h.of_still (fun _ _ ha => ha) (fun y hy _ => (s.endRun_sublist r).subset hy)
        (fun o hl => hl)
    · exact h.reschedules hr (h.id_ne_of_reschedule hok hx hxr)

/-! ### Every job the dispatcher knows was added -/

@[simp] theorem addedIDs_append (tr tr' : List DispatchEvent) :
    addedIDs (tr ++ tr') = addedIDs tr ++ addedIDs tr' :=
  List.filterMap_append

/-- The ids of all timeouts and of all entries of the maps are among these. -/
structure Known (s : DispatchState) (ids : List ℤ) : Prop where
  task_mem : ∀ r j, s.td.wheelTimer.task r = some ⟨j⟩ → j.id ∈ ids
  cyclic_mem : ∀ id o, s.td.cyclicTasks.lookup id = some o → id ∈ ids
  temp_mem : ∀ id o, s.td.tempTasks.lookup id = some o → id ∈ ids

theorem known_init (now : ℤ) : (init now).Known [] where
  task_mem := fun r j h => absurd h (by
    simp [init, TimeDispatch.newTimeDispatch, HashedWheelTimer.newHashedWheelTimer,
      HashedWheelTimer.task])
  cyclic_mem := fun id o h => absurd h (by simp [init, TimeDispatch.newTimeDispatch])
  temp_mem := fun id o h => absurd h (by simp [init, TimeDispatch.newTimeDispatch])

theorem Known.of_still {ids : List ℤ} (h : s.Known ids)
    (htask : ∀ r, s'.td.wheelTimer.task r = s.td.wheelTimer.task r)
    (hc : ∀ id o, s'.td.cyclicTasks.lookup id = some o → s.td.cyclicTasks.lookup id = some o)
    (ht : ∀ id o, s'.td.tempTasks.lookup id = some o → s.td.tempTasks.lookup id = some o) :
    s'.Known ids where
  task_mem := fun r j hj => h.task_mem r j (htask r ▸ hj)
  cyclic_mem := fun id o hl => h.cyclic_mem id o (hc id o hl)
  temp_mem := fun id o hl => h.temp_mem id o (ht id o hl)

theorem Adds.known (hk : s.Known (addedIDs tr)) {j : Job} {now : ℤ} {o : Option ℕ}
    (ha : s.Adds j now o s' ev) : s'.Known (addedIDs (tr ++ ev)) := by
  have hids : ∀ id, id ∈ addedIDs (tr ++ ev) ↔ id ∈ addedIDs tr ∨ id = j.id := by
    intro id
    rw [addedIDs_append, List.mem_append, ha.ev_eq]
    simp [addedIDs]
  refine ⟨fun r j' hj => ?_, fun id o' hl => ?_, fun id o' hl => ?_⟩ <;> rw [hids]
  · rcases ha.asked.task_of r _ hj with hj | hj
    · exact Or.inl (hk.task_mem r j' hj)
    · exact Or.inr (congrArg (fun t => t.job.id) hj)
  · rw [ha.cyclic_eq] at hl
    split_ifs at hl
    · rcases Go.lookup_of_lookup_insert hl with ⟨rfl, -⟩ | hl
      · exact Or.inr rfl
      · exact Or.inl (hk.cyclic_mem id o' hl)
    · exact Or.inl (hk.cyclic_mem id o' hl)
  · rw [ha.temp_eq] at hl
    split_ifs at hl
    · exact Or.inl (hk.temp_mem id o' hl)
    · rcases Go.lookup_of_lookup_insert hl with ⟨rfl, -⟩ | hl
      · exact Or.inr rfl
      · exact Or.inl (hk.temp_mem id o' hl)

/-- A job that is rescheduled has a timeout already, so its id is known. -/
theorem Reschedules.known {ids : List ℤ} (hk : s.Known ids) (hwf : s.WellFormed) {r : ℕ} {now : ℤ}
    {x : TaskRun} {o : Option ℕ} (hx : x ∈ s.runs) (hr : s.Reschedules r now x o s' ev) :
    s'.Known ids := by
  have hxid : x.job.id ∈ ids := hk.task_mem _ _ (hwf.run_task x hx)
  refine ⟨fun r' j hj => ?_, fun id o' hl => ?_, fun id o' hl => ?_⟩
  · rcases hr.asked.task_of r' _ hj with hj | hj
    · exact hk.task_mem r' j hj
    · exact (congrArg (fun t => t.job.id) hj) ▸ hxid
  · rw [hr.cyclic_eq] at hl
    rcases Go.lookup_of_lookup_insert hl with ⟨rfl, -⟩ | hl
    · exact hxid
    · exact hk.cyclic_mem id o' hl
  · exact hk.temp_mem id o' (hr.temp_eq ▸ hl)

theorem Known.step (h : s.Known (addedIDs tr)) (hwf : s.WellFormed) {a : DispatchAct}
    (hs : s.step a = some (s', ev)) : s'.Known (addedIDs (tr ++ ev)) := by
  cases a with
  | addJob job now =>
    rcases job with _ | j
    · obtain ⟨rfl, rfl⟩ := step_addJob_nil hs
      simpa using h
    · obtain ⟨o, ha⟩ := step_addJob hwf hs
      exact ha.known h
  | removeJob id =>
    rcases step_removeJob hs with ⟨hi, rfl, -⟩ | ⟨r, hr⟩
    · rw [List.append_nil]
      exact h.of_still (fun r => by rw [hi.wheel_eq]) (fun _ _ hl => hi.cyclic_eq ▸ hl)
        (fun _ _ hl => hi.temp_eq ▸ hl)
    · have hids : addedIDs (tr ++ ev) = addedIDs tr := by
        rw [hr.ev_eq]
        simp [addedIDs]
      rw [hids]
      exact h.of_still (fun r => by rw [hr.wheel_eq, HashedWheelTimer.task_cancel])
        (fun _ _ hl => hr.cyclic_of_lookup hl) (fun _ _ hl => hr.temp_of_lookup hl)
  | start =>
    obtain ⟨hst, rfl⟩ := step_start hs
    rw [List.append_nil]
    exact h.of_still hst.task_eq (fun _ _ hl => hst.cyclic_eq ▸ hl)
      (fun _ _ hl => hst.temp_eq ▸ hl)
  | stop =>
    obtain ⟨rfl, ⟨-, rfl⟩ | hst⟩ := step_stop hwf hs
    · rw [List.append_nil]
      exact h
    · rw [List.append_nil]
      refine h.of_still hst.task_eq (fun id o hl => ?_) (fun id o hl => ?_)
      · rw [hst.cyclic_eq] at hl
        exact absurd hl (by simp)
      · rw [hst.temp_eq] at hl
        exact absurd hl (by simp)
  | tick =>
    obtain ⟨ht, rfl⟩ := step_tick hs
    rw [List.append_nil]
    exact h.of_still (fun r => by rw [ht.td_eq]; rfl) (fun _ _ hl => by rwa [ht.td_eq] at hl)
      (fun _ _ hl => by rwa [ht.td_eq] at hl)
  | begin r now =>
    obtain ⟨x, hb⟩ := step_begin hs
    have hids : addedIDs ev = [] := by
      rw [hb.ev_eq]
      split
      · rfl
      · split_ifs <;> rfl
    rw [addedIDs_append, hids, List.append_nil]
    exact h.of_still (fun r => by rw [hb.wheel_eq]) (fun _ _ hl => hb.cyclic_eq ▸ hl)
      (fun _ _ hl => hb.temp_eq ▸ hl)
  | complete r outcome =>
    obtain ⟨x, hc, rfl⟩ := step_complete hs
    rw [List.append_nil]
    exact h.of_still (fun r => by rw [hc.wheel_eq]) (fun _ _ hl => hc.cyclic_eq ▸ hl)
      (fun _ _ hl => hc.temp_eq ▸ hl)
  | reschedule r now =>
    obtain ⟨x, hx, -, -, ⟨rfl, rfl, -⟩ | ⟨o, hr⟩⟩ := step_reschedule hwf hs
    · rw [List.append_nil]
      exact ⟨h.task_mem, h.cyclic_mem, h.temp_mem⟩
    · have hids : addedIDs ev = [] := by
        rw [hr.ev_eq]
        split <;> rfl
      rw [addedIDs_append, hids, List.append_nil]
      exact hr.known h hwf hx

/-- A job under an id that was not added before is added anew. -/
theorem Known.addsAnew {ids : List ℤ} (h : s.Known ids) (hwf : s.WellFormed) {j : Job}
    (hj : j.id ∉ ids) (now : ℤ) : s.AddsAnew (.addJob (some j) now) := by
  refine ⟨List.eq_nil_iff_forall_not_mem.mpr fun r hr => ?_, fun _ _ => ?_⟩
  · obtain ⟨j', hid, hl⟩ := hwf.mem_liveTimeouts.mp hr
    exact hj (hid ▸ h.task_mem r j' (hwf.live_task hl))
  · rcases hl : s.td.cyclicTasks.lookup j.id with _ | o
    · rfl
    · exact absurd (h.cyclic_mem _ _ hl) hj

/-! ### Removal is final -/

theorem removes_of_mem (hwf : s.WellFormed) {a : DispatchAct} (hs : s.step a = some (s', ev))
    (hmem : .removed id ∈ ev) : a = .removeJob id ∧ ∃ r, s.Removes id r s' ev := by
  cases emits_of_mem hwf hs hmem with
  | removed h => exact ⟨rfl, _, h⟩

/-- What the steps keep, as long as no id is added twice. -/
structure Settled (s : DispatchState) (tr : List DispatchEvent) : Prop where
  registered : s.Registered
  known : s.Known (addedIDs tr)
  removed_gone : ∀ id, .removed id ∈ tr → id ∈ addedIDs tr ∧ s.Gone id
  never_revived : tr.Pairwise fun e e' => ∀ id, e = .removed id → ¬Revives id e'

theorem settled_init (now : ℤ) : (init now).Settled [] :=
  ⟨registered_init now, known_init now, fun _ h => absurd h (by simp), List.Pairwise.nil⟩

theorem Settled.step (h : s.Settled tr) {a : DispatchAct} (hok : s.RemovesSettled a)
    (hs : s.step a = some (s', ev)) (hnodup : (addedIDs (tr ++ ev)).Nodup) :
    s'.Settled (tr ++ ev) := by
  have hwf := h.registered.wellFormed
  have hanew : ∀ j now, a = .addJob (some j) now → j.id ∉ addedIDs tr := by
    rintro j now rfl hmem
    obtain ⟨o, ha⟩ := step_addJob hwf hs
    rw [addedIDs_append, ha.ev_eq] at hnodup
    exact (List.nodup_append.mp hnodup).2.2 _ hmem _ (by simp [addedIDs]) rfl
  have hadds : s.AddsAnew a := by
    cases a with
    | addJob job now =>
      rcases job with _ | j
      · trivial
      · exact h.known.addsAnew hwf (hanew j now rfl) now
    | _ => trivial
  have hgone : ∀ id, .removed id ∈ tr → s'.Gone id ∧ ∀ e ∈ ev, ¬Revives id e := by
    intro id hid
    obtain ⟨hmem, hg⟩ := h.removed_gone id hid
    have hadd : ∀ j now, a = .addJob (some j) now → j.id ≠ id := fun j now ha hj =>
      hanew j now ha (hj ▸ hmem)
    exact ⟨hg.step hwf hok hadd hs, fun e he => hg.not_revives hwf hok hadd hs he⟩
  refine ⟨h.registered.step hadds hs, h.known.step hwf hs, fun id hid => ?_, ?_⟩
  · rcases List.mem_append.mp hid with hid | hid
    · exact ⟨by simp [(h.removed_gone id hid).1], (hgone id hid).1⟩
    · -- only a removal emits this event
      obtain ⟨rfl, r, hr⟩ := removes_of_mem hwf hs hid
      refine ⟨?_, h.registered.gone_of_removes hr hok⟩
      rw [addedIDs_append]
      refine List.mem_append_left _ ?_
      rcases hr.stored with ⟨hc, -⟩ | ⟨-, ht, -⟩
      · exact h.known.cyclic_mem _ _ hc
      · exact h.known.temp_mem _ _ ht
  · refine List.pairwise_append.mpr ⟨h.never_revived, ?_, fun e he e' he' id heq =>
      (hgone id (heq ▸ he)).2 e' he'⟩
    -- within one step: a removal has no event beside its own
    refine List.pairwise_iff_forall_sublist.mpr fun {e e'} hsub id heq => ?_
    have hmem : .removed id ∈ ev := heq ▸ hsub.subset List.mem_cons_self
    obtain ⟨-, r, hr⟩ := removes_of_mem hwf hs hmem
    rw [hr.ev_eq] at hsub
    exact absurd hsub.length_le (by simp)

/-- **Removal is final**, in every run that adds no id twice and whose steps remove and
reschedule only settled jobs. -/
theorem removalFinal_of_exec {now : ℤ} {as : List DispatchAct}
    (h : exec DispatchState.step (init now) as = some (s, tr)) (honce : (addedIDs tr).Nodup)
    (hm : Meets DispatchState.step RemovesSettled (init now) as) : s.RemovalFinal tr := by
  have hsettled : (addedIDs tr).Nodup → s.Settled tr := by
    refine @exec_induction_meets _ _ _ _ _ (fun s tr => (addedIDs tr).Nodup → s.Settled tr) _
      ?_ ?_ _ _ _ hm h
    · exact fun _ => settled_init now
    · intro s tr a s' ev hinv hok hs hnodup
      have hpre : (addedIDs tr).Nodup := by
        rw [addedIDs_append] at hnodup
        exact (List.nodup_append.mp hnodup).1
      exact (hinv hpre).step hok hs hnodup
  have hset := hsettled honce
  exact ⟨hset.never_revived, fun id hid => (hset.removed_gone id hid).2.disarmed⟩

/-- A job that is removed while it waits for its next turn. -/
theorem removalFinal_waiting :
    ∃ s tr, exec DispatchState.step (init 0) [.addJob (some (Job.bare 7 true 100)) 0, .start, .tick,
        .begin 0 0, .complete 0 .ok, .reschedule 0 0, .removeJob 7, .tick] = some (s, tr) ∧
      .removed 7 ∈ tr ∧ s.RemovalFinal tr := by
  have hm : Meets DispatchState.step RemovesSettled (init 0)
      [.addJob (some (Job.bare 7 true 100)) 0, .start, .tick, .begin 0 0, .complete 0 .ok,
        .reschedule 0 0, .removeJob 7, .tick] :=
    meets_of_checks rfl
  exact ⟨_, _, rfl, by simp, removalFinal_of_exec rfl (by decide) hm⟩

/-- **A removal that comes between the tick and the `Run`** is followed by a dispatch of
the job and by a new timeout for it, which is stored. -/
theorem not_removalFinal_fired :
    ∃ s tr, exec DispatchState.step (init 0) [.addJob (some (Job.bare 7 true 100)) 0, .start, .tick,
        .removeJob 7, .begin 0 0, .complete 0 .ok, .reschedule 0 0] = some (s, tr) ∧
      addedIDs tr = [7] ∧ s.liveTimeouts 7 = [1] ∧ s.td.cyclicTasks.lookup 7 = some (some 1) ∧
      ¬s.RemovalFinal tr := by
  have hrun : exec DispatchState.step (init 0) [.addJob (some (Job.bare 7 true 100)) 0, .start,
      .tick, .removeJob 7, .begin 0 0, .complete 0 .ok, .reschedule 0 0] =
      some (_, [.added (Job.bare 7 true 100) (some 0) (firstDelay (Job.bare 7 true 100)),
        .recorded (Job.bare 7 true 100) 0 (0 + firstDelay (Job.bare 7 true 100)), .removed 7,
        .dispatched (Job.bare 7 true 100),
        .rescheduled (Job.bare 7 true 100) (some 1) (nextDelay (Job.bare 7 true 100))]) := rfl
  refine ⟨_, _, hrun, rfl, by decide +kernel, rfl, fun hfinal => ?_⟩
  have hpair := hfinal.never_revived
  simp [Revives, Job.bare] at hpair

end DispatchState

end HertzBeat
