import HertzBeat.Dispatcher.DispatchSteps

/-!
# The registries of the dispatcher

The dispatcher keeps three maps by the ids of the jobs: the cyclic tasks, the one-time tasks and
the job infos. They are meant to agree (`HertzBeat.DispatchState.Agree`): an id is registered as
one of the two kinds, it has a job info exactly then, and both lead to one timeout.

Two steps can separate them, and no other:

* `AddJob` looks at the map of the job's own kind only, so an id that is registered as the other
  kind ends up in both;
* `RescheduleJob` stores the new timeout among the cyclic tasks whether or not the job is still
  there, so a job that was removed while it ran comes back without a job info, and one that was
  registered as a one-time job meanwhile ends up in both.

So the registries agree in every state of a run exactly if neither happens in it
(`HertzBeat.DispatchState.always_agree_iff`).
-/

namespace HertzBeat

open Runs

namespace DispatchState

variable {s s' : DispatchState} {ev : List DispatchEvent}

/-! ### What is registered under an id -/

/-- The timeout in the job info of an id. -/
def infoTimeout (s : DispatchState) (id : ℤ) : Option (Option ℕ) :=
  (s.td.jobInfos.lookup id).map JobInfo.timeout

/-- **The registries agree.** -/
structure Agree (s : DispatchState) : Prop where
  /-- An id is a key of at most one of the two task maps. -/
  one_kind : ∀ id, ¬(id ∈ s.td.cyclicTasks ∧ id ∈ s.td.tempTasks)
  /-- The job infos have the keys of the two task maps. -/
  keys : ∀ id, id ∈ s.td.jobInfos ↔ id ∈ s.td.cyclicTasks ∨ id ∈ s.td.tempTasks
  /-- The job info of an id points to the timeout in its task map. -/
  timeout : ∀ id info o, s.td.jobInfos.lookup id = some info →
    s.td.cyclicTasks.lookup id = some o ∨ s.td.tempTasks.lookup id = some o → info.timeout = o

/-- What is registered under one id agrees: one of the tasks is missing, and the job info has the
timeout of the other. -/
def AgreeAt (cyclic temp info : Option (Option ℕ)) : Prop :=
  (cyclic = none ∨ temp = none) ∧ info = cyclic.or temp

theorem agreeAt_iff {cyclic temp info : Option (Option ℕ)} :
    AgreeAt cyclic temp info ↔
      ¬(cyclic.isSome ∧ temp.isSome) ∧ (info.isSome ↔ cyclic.isSome ∨ temp.isSome) ∧
        ∀ o' o, info = some o' → cyclic = some o ∨ temp = some o → o' = o := by
  cases cyclic <;> cases temp <;> cases info <;> simp [AgreeAt]

/-- The registries agree at an id. -/
def AgreeOn (s : DispatchState) (id : ℤ) : Prop :=
  AgreeAt (s.td.cyclicTasks.lookup id) (s.td.tempTasks.lookup id) (s.infoTimeout id)

/-- Agreement, id by id. -/
theorem agree_iff : s.Agree ↔ ∀ id, s.AgreeOn id := by
  simp only [AgreeOn, agreeAt_iff, infoTimeout, Option.isSome_map, AList.lookup_isSome]
  constructor
  · rintro ⟨hone, hkeys, htimeout⟩ id
    refine ⟨hone id, hkeys id, fun o' o hinfo ho => ?_⟩
    obtain ⟨info, hlookup, rfl⟩ := Option.map_eq_some_iff.mp hinfo
    exact htimeout id info o hlookup ho
  · intro h
    refine ⟨fun id => (h id).1, fun id => (h id).2.1, fun id info o hlookup ho => ?_⟩
    exact (h id).2.2 info.timeout o (Option.map_eq_some_iff.mpr ⟨info, hlookup, rfl⟩) ho

/-- A step that touches one id keeps the agreement of the others. -/
theorem agree_iff_agreeOn {id : ℤ} (hagree : s.Agree)
    (hc : ∀ id', id' ≠ id → s'.td.cyclicTasks.lookup id' = s.td.cyclicTasks.lookup id')
    (ht : ∀ id', id' ≠ id → s'.td.tempTasks.lookup id' = s.td.tempTasks.lookup id')
    (hi : ∀ id', id' ≠ id → s'.infoTimeout id' = s.infoTimeout id') :
    s'.Agree ↔ s'.AgreeOn id := by
  rw [agree_iff]
  refine ⟨fun h => h id, fun hid id' => ?_⟩
  rcases eq_or_ne id' id with rfl | hne
  · exact hid
  · rw [AgreeOn, hc id' hne, ht id' hne, hi id' hne]
    exact agree_iff.mp hagree id'

/-- A step that leaves the registries alone. -/
theorem agree_of_same (hagree : s.Agree) (hc : s'.td.cyclicTasks = s.td.cyclicTasks)
    (ht : s'.td.tempTasks = s.td.tempTasks) (hi : ∀ id, s'.infoTimeout id = s.infoTimeout id) :
    s'.Agree := by
  refine agree_iff.mpr fun id => ?_
  rw [AgreeOn, hc, ht, hi id]
  exact agree_iff.mp hagree id

theorem infoTimeout_of_eq (h : s'.td.jobInfos = s.td.jobInfos) (id : ℤ) :
    s'.infoTimeout id = s.infoTimeout id := by
  rw [infoTimeout, h, infoTimeout]

/-! ### The steps -/

/-- **Every id is registered once**: a job is added only if its id is not registered as the other
kind, and rescheduled only if it is registered as cyclic. A rescheduling that panics stores
nothing. -/
def RegistersOnce (s : DispatchState) : DispatchAct → Prop
  | .addJob (some j) _ =>
    if j.isCyclic then s.td.tempTasks.lookup j.id = none else s.td.cyclicTasks.lookup j.id = none
  | .reschedule r now => ∀ x ∈ s.runs, x.timeout = r →
    (∃ p, s.td.wheelTimer.newTimeout ⟨x.job⟩ (nextDelay x.job) now = .error p) ∨
      (s.td.cyclicTasks.lookup x.job.id).isSome
  | _ => True

/-- `UpdateJobExecution` keeps the timeouts. -/
theorem infoTimeout_step_begin {r : ℕ} {now : ℤ} (h : s.step (.begin r now) = some (s', ev))
    (id : ℤ) : s'.infoTimeout id = s.infoTimeout id := by
  rcases hx : s.runAt r .fired with _ | x
  · simp [step, hx] at h
  · simp only [step, hx] at h
    obtain ⟨rfl, -⟩ := Prod.mk.inj (Option.some.inj h)
    simp only [infoTimeout, WheelTimerTask.begin, TimeDispatch.updateJobExecution,
      TimeDispatch.recordJobExecution]
    cases hl : s.td.jobInfos.lookup x.job.id with
    | none => rfl
    | some info =>
      rcases eq_or_ne id x.job.id with rfl | hne
      · simp [hl]
      · simp [AList.lookup_insert_ne hne]

/-- **`RescheduleJob` on the registries**: the new timeout is stored among the cyclic tasks, and
in the job info if there is one. -/
structure Stores (s : DispatchState) (id : ℤ) (o : Option ℕ) (s' : DispatchState) : Prop where
  cyclic_eq : s'.td.cyclicTasks = s.td.cyclicTasks.insert id o
  temp_eq : s'.td.tempTasks = s.td.tempTasks
  info_self : s'.infoTimeout id = (s.infoTimeout id).map fun _ => o
  info_of_ne : ∀ id', id' ≠ id → s'.infoTimeout id' = s.infoTimeout id'

theorem step_reschedule_stores (hwf : s.WellFormed) {r : ℕ} {now : ℤ}
    (h : s.step (.reschedule r now) = some (s', ev)) :
    ∃ x ∈ s.runs, x.timeout = r ∧
      ((s'.td = s.td ∧ ∃ p, s.td.wheelTimer.newTimeout ⟨x.job⟩ (nextDelay x.job) now = .error p) ∨
        ((∃ q, s.td.wheelTimer.newTimeout ⟨x.job⟩ (nextDelay x.job) now = .ok q) ∧
          ∃ o, s.Stores x.job.id o s')) := by
  obtain ⟨x, hmem, ht, -, ⟨p, hn, rfl, -⟩ | ⟨w, o, hn, rfl, -⟩⟩ := step_reschedule_eq hwf h
  · exact ⟨x, hmem, ht, .inl ⟨rfl, p, hn⟩⟩
  · refine ⟨x, hmem, ht, .inr ⟨⟨_, hn⟩, o, rfl, rfl, ?_, fun id' hne => ?_⟩⟩
    · simp only [infoTimeout]
      cases hl : s.td.jobInfos.lookup x.job.id <;> simp [hl]
    · simp only [infoTimeout]
      cases hl : s.td.jobInfos.lookup x.job.id with
      | none => rfl
      | some info => simp [AList.lookup_insert_ne hne]

theorem Adds.infoTimeout_eq {j : Job} {now : ℤ} {o : Option ℕ} (ha : s.Adds j now o s' ev)
    (id : ℤ) : s'.infoTimeout id = if id = j.id then some o else s.infoTimeout id := by
  rw [infoTimeout, ha.infos_eq]
  split_ifs with hid
  · rw [hid, AList.lookup_insert]
    rfl
  · rw [AList.lookup_insert_ne hid, infoTimeout]

/-- `AddJob` keeps the agreement exactly if the id is not registered as the other kind. -/
theorem Adds.agree_iff {j : Job} {now : ℤ} {o : Option ℕ} (hagree : s.Agree)
    (ha : s.Adds j now o s' ev) :
    s'.Agree ↔ s.RegistersOnce (.addJob (some j) now) := by
  have hother : ∀ id', id' ≠ j.id → s'.infoTimeout id' = s.infoTimeout id' := fun id' hne => by
    rw [ha.infoTimeout_eq, if_neg hne]
  have hself : s'.infoTimeout j.id = some o := by rw [ha.infoTimeout_eq, if_pos rfl]
  by_cases hcyclic : j.isCyclic
  · have hc := ha.cyclic_eq.trans (if_pos hcyclic)
    have ht := ha.temp_eq.trans (if_pos hcyclic)
    rw [agree_iff_agreeOn hagree (fun id' hne => by rw [hc, AList.lookup_insert_ne hne])
      (fun id' _ => by rw [ht]) hother, AgreeOn, hc, ht, hself, AList.lookup_insert,
      RegistersOnce, if_pos hcyclic]
    simp [AgreeAt]
  · have hc := ha.cyclic_eq.trans (if_neg hcyclic)
    have ht := ha.temp_eq.trans (if_neg hcyclic)
    rw [agree_iff_agreeOn hagree (fun id' _ => by rw [hc])
      (fun id' hne => by rw [ht, AList.lookup_insert_ne hne]) hother, AgreeOn, hc, ht, hself,
      AList.lookup_insert, RegistersOnce, if_neg hcyclic]
    cases s.td.cyclicTasks.lookup j.id <;> simp [AgreeAt]

/-- `RemoveJob` keeps the agreement. -/
theorem Removes.agree {id : ℤ} {r : ℕ} (hagree : s.Agree) (hr : s.Removes id r s' ev) :
    s'.Agree := by
  have hother : ∀ id', id' ≠ id → s'.infoTimeout id' = s.infoTimeout id' := fun id' hne => by
    rw [infoTimeout, hr.infos_eq, AList.lookup_erase_ne hne, infoTimeout]
  have hself : s'.infoTimeout id = none := by
    rw [infoTimeout, hr.infos_eq, AList.lookup_erase]
    rfl
  rcases hr.stored with ⟨hstored, hc, ht⟩ | ⟨hnone, -, hc, ht⟩
  · -- the id was registered as cyclic, so it is not left behind as a one-time job
    have htemp : s.td.tempTasks.lookup id = none :=
      ((DispatchState.agree_iff.mp hagree id).1).resolve_left (by simp [hstored])
    rw [agree_iff_agreeOn hagree (fun id' hne => by rw [hc, AList.lookup_erase_ne hne])
      (fun id' _ => by rw [ht]) hother, AgreeOn, hc, ht, hself, AList.lookup_erase, htemp]
    exact ⟨.inl rfl, rfl⟩
  · rw [agree_iff_agreeOn hagree (fun id' _ => by rw [hc])
      (fun id' hne => by rw [ht, AList.lookup_erase_ne hne]) hother, AgreeOn, hc, ht, hself,
      AList.lookup_erase, hnone]
    exact ⟨.inl rfl, rfl⟩

theorem Stops.agree (hst : s.Stops s') : s'.Agree := by
  refine DispatchState.agree_iff.mpr fun id => ?_
  rw [AgreeOn, infoTimeout, hst.cyclic_eq, hst.temp_eq, hst.infos_eq]
  exact ⟨.inl rfl, rfl⟩

/-- `RescheduleJob` keeps the agreement exactly if the id is still registered as cyclic. -/
theorem Stores.agree_iff {id : ℤ} {o : Option ℕ} (hagree : s.Agree) (hst : s.Stores id o s') :
    s'.Agree ↔ (s.td.cyclicTasks.lookup id).isSome := by
  rw [agree_iff_agreeOn hagree
    (fun id' hne => by rw [hst.cyclic_eq, AList.lookup_insert_ne hne])
    (fun id' _ => by rw [hst.temp_eq]) hst.info_of_ne, AgreeOn, hst.cyclic_eq, hst.temp_eq,
    hst.info_self, AList.lookup_insert]
  obtain ⟨hone, hinfo⟩ := DispatchState.agree_iff.mp hagree id
  rw [hinfo]
  cases hl : s.td.cyclicTasks.lookup id with
  | none => cases s.td.tempTasks.lookup id <;> simp [AgreeAt]
  | some c =>
    have htemp := hone.resolve_left (by simp [hl])
    simp [AgreeAt, htemp]

theorem agree_reschedule_iff (hwf : s.WellFormed) (hagree : s.Agree) {r : ℕ} {now : ℤ}
    (hs : s.step (.reschedule r now) = some (s', ev)) :
    s'.Agree ↔ s.RegistersOnce (.reschedule r now) := by
  obtain ⟨x, hx, hxr, ⟨htd, hpanic⟩ | ⟨⟨q, hok⟩, o, hst⟩⟩ := step_reschedule_stores hwf hs
  · refine iff_of_true (agree_of_same hagree (by rw [htd]) (by rw [htd])
      (infoTimeout_of_eq (by rw [htd]))) fun y hy hyr => .inl ?_
    obtain rfl := hwf.run_unique hx hy (hxr.trans hyr.symm)
    exact hpanic
  · rw [hst.agree_iff hagree]
    constructor
    · intro hsome y hy hyr
      obtain rfl := hwf.run_unique hx hy (hxr.trans hyr.symm)
      exact .inr hsome
    · intro h
      rcases h x hx hxr with ⟨p, hp⟩ | hsome
      · exact absurd (hp.symm.trans hok) (by simp)
      · exact hsome

/-- **A step keeps the agreement exactly if it registers every id once.** -/
theorem agree_step_iff (hwf : s.WellFormed) (hagree : s.Agree) {a : DispatchAct}
    (hs : s.step a = some (s', ev)) : s'.Agree ↔ s.RegistersOnce a := by
  cases a with
  | addJob job now =>
    rcases job with _ | j
    · obtain ⟨rfl, -⟩ := step_addJob_nil hs
      exact iff_of_true hagree trivial
    · obtain ⟨o, ha⟩ := step_addJob hwf hs
      exact ha.agree_iff hagree
  | removeJob id =>
    refine iff_of_true ?_ trivial
    rcases step_removeJob hs with ⟨hi, -⟩ | ⟨r, hr⟩
    · exact agree_of_same hagree hi.cyclic_eq hi.temp_eq (infoTimeout_of_eq hi.infos_eq)
    · exact hr.agree hagree
  | start =>
    have hst := (step_start hs).1
    exact iff_of_true
      (agree_of_same hagree hst.cyclic_eq hst.temp_eq (infoTimeout_of_eq hst.infos_eq)) trivial
  | stop =>
    refine iff_of_true ?_ trivial
    rcases (step_stop hwf hs).2 with ⟨-, rfl⟩ | hst
    · exact hagree
    · exact hst.agree
  | tick =>
    obtain ⟨ht, -⟩ := step_tick hs
    refine iff_of_true (agree_of_same hagree ?_ ?_ (infoTimeout_of_eq ?_)) trivial <;> rw [ht.td_eq]
  | begin r now =>
    obtain ⟨x, hb⟩ := step_begin hs
    exact iff_of_true
      (agree_of_same hagree hb.cyclic_eq hb.temp_eq (infoTimeout_step_begin hs)) trivial
  | complete r outcome =>
    obtain ⟨x, hc, -⟩ := step_complete hs
    exact iff_of_true
      (agree_of_same hagree hc.cyclic_eq hc.temp_eq (infoTimeout_of_eq hc.infos_eq)) trivial
  | reschedule r now => exact agree_reschedule_iff hwf hagree hs

/-! ### Runs -/

theorem agree_init (now : ℤ) : (init now).Agree := by
  refine agree_iff.mpr fun id => ?_
  simp [AgreeOn, AgreeAt, infoTimeout, init, TimeDispatch.newTimeDispatch]

/-- **The registries agree in every state of a run exactly if every id is registered once in
it.** -/
theorem always_agree_iff {now : ℤ} {as : List DispatchAct} {tr : List DispatchEvent}
    (h : exec step (init now) as = some (s, tr)) :
    Always step (fun _ _ s' => s'.Agree) (init now) as ↔
      Meets step RegistersOnce (init now) as := by
  refine @always_iff_meets _ _ _ step RegistersOnce (fun s => s.WellFormed ∧ s.Agree) _ _
    ⟨wellFormed_init now, agree_init now⟩ ?_ ?_ _ _ _ h
  · rintro s a s' ev ⟨hwf, hagree⟩ hok hs
    exact ⟨hwf.step hs, (agree_step_iff hwf hagree hs).mpr hok⟩
  · rintro s a s' ev ⟨hwf, hagree⟩ hs
    exact agree_step_iff hwf hagree hs

/-- A job, and another one with its id that is to run once. -/
def oneIdTwice : List DispatchAct :=
  [.addJob (some (Job.bare 7 true 60)) 0, .addJob (some (Job.bare 7 false 60)) 0]

theorem always_agree_iff_one_id_twice :
    ∃ s tr, exec step (init 0) oneIdTwice = some (s, tr) ∧
      (Always step (fun _ _ s' => s'.Agree) (init 0) oneIdTwice ↔
        Meets step RegistersOnce (init 0) oneIdTwice) := by
  have hrun : (exec step (init 0) oneIdTwice).isSome = true := rfl
  obtain ⟨⟨s, tr⟩, hs⟩ := Option.isSome_iff_exists.mp hrun
  exact ⟨s, tr, hs, always_agree_iff hs⟩

/-- The id is a key of both task maps in the end. -/
theorem not_agree_one_id_twice :
    ∃ s tr, exec step (init 0) oneIdTwice = some (s, tr) ∧ ¬s.Agree := by
  have hrun : (exec step (init 0) oneIdTwice).map (fun p =>
      ((p.1.td.cyclicTasks.lookup 7).isSome, (p.1.td.tempTasks.lookup 7).isSome)) =
        some (true, true) := by
    rfl
  obtain ⟨⟨s, tr⟩, hs, hboth⟩ := Option.map_eq_some_iff.mp hrun
  obtain ⟨hcyclic, htemp⟩ := Prod.mk.inj hboth
  exact ⟨s, tr, hs, fun hagree =>
    hagree.one_kind 7 ⟨AList.lookup_isSome.mp hcyclic, AList.lookup_isSome.mp htemp⟩⟩

end DispatchState

end HertzBeat
