import HertzBeat.Dispatcher.DispatchSteps

/-!
# One live timeout per job

A job should have one live timeout: the one that is armed for it, or the one whose
run is in flight; and that timeout should be the one that is stored for the job, so
that `RemoveJob` finds it and stops the job for good. Three things break it. `AddJob`
overwrites what is stored under the id without cancelling it, so a job that is added
again while it is live has two timeouts. A one-time job that is added under an id for
which a cyclic timeout is still stored is hidden behind that, because `RemoveJob`
looks there first and stops. And `RemoveJob` and `Stop` forget the timeout of a run
that is in flight, which at its end arms another one.

`HertzBeat.DispatchState.oneTimeout_iff`: nothing else does.
-/

namespace HertzBeat

open Runs

namespace DispatchState

variable {s s' : DispatchState} {ev : List DispatchEvent}

theorem length_le_one_of_nodup {α : Type} {l : List α} (hn : l.Nodup)
    (h : ∀ a ∈ l, ∀ b ∈ l, a = b) : l.length ≤ 1 := by
  rcases l with _ | ⟨a, _ | ⟨b, l⟩⟩
  · simp
  · simp
  · have hab : a = b := h a (by simp) b (by simp)
    exact absurd hn (by simp [hab])

/-! ### The invariant -/

/-- **One live timeout per job**, and it is the one that is stored. So a `RemoveJob` of a
job that is not running stops it completely: whatever is done after it, nothing is
live under the id again unless a job is added under it. -/
structure OneTimeout (s : DispatchState) : Prop where
  atMostOne : ∀ id, (s.liveTimeouts id).length ≤ 1
  stored : ∀ j r, s.Live j r → s.td.cyclicTasks.lookup j.id = some (some r) ∨
    s.td.tempTasks.lookup j.id = some (some r)
  removable : ∀ id, (∀ x ∈ s.runs, x.job.id ≠ id) →
    ∀ s₁ ev, s.step (.removeJob id) = some (s₁, ev) →
    ∀ bs s₂ tr, exec DispatchState.step s₁ bs = some (s₂, tr) →
      (∀ j now, .addJob (some j) now ∈ bs → j.id ≠ id) → s₂.liveTimeouts id = []

/-- A job is added only while it is not live, and a one-time job only under an id for
which no cyclic timeout is stored. A wheel that is stopped arms nothing, so that the
second does not matter there. -/
def AddsAnew (s : DispatchState) : DispatchAct → Prop
  | .addJob (some j) _ => s.liveTimeouts j.id = [] ∧
      (j.isCyclic = false → s.td.wheelTimer.stopped = false →
        s.td.cyclicTasks.lookup j.id = none)
  | _ => True

/-- A job is removed only while no `Run` of it is in flight, and a dispatcher that is
started is stopped only while there is none at all. -/
def LeavesRuns (s : DispatchState) : DispatchAct → Prop
  | .removeJob id => ∀ x ∈ s.runs, x.job.id ≠ id
  | .stop => s.td.started = true → s.runs.isEmpty
  | _ => True

instance (s : DispatchState) (a : DispatchAct) : Decidable (s.AddsAnew a) :=
  match a with
  | .addJob (some _) _ => inferInstanceAs (Decidable (_ ∧ _))
  | .addJob none _ | .removeJob _ | .start | .stop | .tick | .begin _ _ | .complete _ _
  | .reschedule _ _ => inferInstanceAs (Decidable True)

instance (s : DispatchState) (a : DispatchAct) : Decidable (s.LeavesRuns a) :=
  match a with
  | .removeJob _ => inferInstanceAs (Decidable (∀ x ∈ _, _))
  | .stop => inferInstanceAs (Decidable (_ → _))
  | .addJob _ _ | .start | .tick | .begin _ _ | .complete _ _ | .reschedule _ _ =>
    inferInstanceAs (Decidable True)

/-- What the steps keep: the map in which a timeout is stored is that of its kind, and a
one-time timeout is not hidden behind a cyclic one. -/
structure Registered (s : DispatchState) : Prop where
  wellFormed : s.WellFormed
  unique : ∀ j r j' r', s.Live j r → s.Live j' r' → j.id = j'.id → r = r'
  cyclic : ∀ j r, s.Armed j r → j.isCyclic → s.td.cyclicTasks.lookup j.id = some (some r)
  oneTime : ∀ j r, s.Armed j r → j.isCyclic = false →
    s.td.tempTasks.lookup j.id = some (some r) ∧ s.td.cyclicTasks.lookup j.id = none

theorem registered_init (now : ℤ) : (init now).Registered := by
  have harmed : ∀ j r, ¬(init now).Armed j r := fun j r =>
    HashedWheelTimer.not_armed_new _ _ _ r
  have hlive : ∀ j r, ¬(init now).Live j r := by
    rintro j r (h | ⟨x, hx, -⟩)
    · exact harmed j r h
    · exact absurd hx (by simp [init])
  exact ⟨wellFormed_init now, fun j r _ _ h => absurd h (hlive j r),
    fun j r h => absurd h (harmed j r), fun j r h => absurd h (harmed j r)⟩

/-- Where nothing new is live and the maps are as before. -/
theorem Registered.of_still (h : s.Registered) (hwf : s'.WellFormed)
    (harmed : ∀ j r, s'.Armed j r → s.Armed j r) (hlive : ∀ j r, s'.Live j r → s.Live j r)
    (hc : s'.td.cyclicTasks = s.td.cyclicTasks) (ht : s'.td.tempTasks = s.td.tempTasks) :
    s'.Registered where
  wellFormed := hwf
  unique := fun j r j' r' h₁ h₂ => h.unique j r j' r' (hlive j r h₁) (hlive j' r' h₂)
  cyclic := fun j r ha hcyc => by
    rw [hc]
    exact h.cyclic j r (harmed j r ha) hcyc
  oneTime := fun j r ha hcyc => by
    rw [hc, ht]
    exact h.oneTime j r (harmed j r ha) hcyc

/-- Where the one timeout that is new is that of a job of which nothing else is live. -/
theorem Registered.unique_of_new (h : s.Registered) {j₀ : Job} {o : Option ℕ}
    (hlive : ∀ j r, s'.Live j r → (s.Live j r ∧ j.id ≠ j₀.id) ∨ (j = j₀ ∧ o = some r))
    (j : Job) (r : ℕ) (j' : Job) (r' : ℕ) (hl : s'.Live j r) (hl' : s'.Live j' r')
    (hid : j.id = j'.id) : r = r' := by
  rcases hlive _ _ hl with ⟨hold, hne⟩ | ⟨rfl, ho⟩
  · rcases hlive _ _ hl' with ⟨hold', -⟩ | ⟨rfl, -⟩
    · exact h.unique _ _ _ _ hold hold' hid
    · exact absurd hid hne
  · rcases hlive _ _ hl' with ⟨-, hne'⟩ | ⟨-, ho'⟩
    · exact absurd hid.symm hne'
    · exact Option.some.inj (ho.symm.trans ho')

theorem Registered.adds (h : s.Registered) {j : Job} {now : ℤ} {o : Option ℕ}
    (ha : s.Adds j now o s' ev) (hok : s.AddsAnew (.addJob (some j) now)) : s'.Registered := by
  obtain ⟨hempty, hcyc⟩ := hok
  have harms : ∀ r, o = some r → s.td.wheelTimer.stopped = false := by
    rintro r rfl
    refine Bool.eq_false_iff.mpr fun hstopped => ?_
    exact absurd (ha.asked.nil_iff.mpr hstopped) (by simp)
  -- nothing is live under the id, by assumption
  have hnone : ∀ j' r, s.Live j' r → j'.id ≠ j.id := by
    intro j' r hl hid
    have hmem := h.wellFormed.mem_liveTimeouts.mpr ⟨j', hid, hl⟩
    rw [hempty] at hmem
    exact absurd hmem (by simp)
  have hlive : ∀ j' r, s'.Live j' r →
      (s.Live j' r ∧ j'.id ≠ j.id) ∨ (j' = j ∧ o = some r) := by
    rintro j' r (harmed | hf)
    · rcases (ha.asked.armed_iff j' r).mp harmed with hold | hnew
      · exact Or.inl ⟨Or.inl hold, hnone j' r (Or.inl hold)⟩
      · exact Or.inr hnew
    · have hold : s.Live j' r := Or.inr ((inFlight_of_eq ha.runs_eq).mp hf)
      exact Or.inl ⟨hold, hnone j' r hold⟩
  refine ⟨ha.wellFormed h.wellFormed, h.unique_of_new hlive, ?_, ?_⟩
  · intro j' r harmed hj'
    rcases (ha.asked.armed_iff j' r).mp harmed with hold | ⟨rfl, rfl⟩
    · have hne := hnone j' r (Or.inl hold)
      rw [ha.cyclic_eq]
      split_ifs
      · rw [AList.lookup_insert_ne hne]
        exact h.cyclic j' r hold hj'
      · exact h.cyclic j' r hold hj'
    · rw [ha.cyclic_eq, if_pos hj', AList.lookup_insert]
  · intro j' r harmed hj'
    rcases (ha.asked.armed_iff j' r).mp harmed with hold | ⟨rfl, rfl⟩
    · have hne := hnone j' r (Or.inl hold)
      obtain ⟨htemp, hcycnone⟩ := h.oneTime j' r hold hj'
      rw [ha.cyclic_eq, ha.temp_eq]
      split_ifs
      · exact ⟨htemp, by rw [AList.lookup_insert_ne hne, hcycnone]⟩
      · exact ⟨by rw [AList.lookup_insert_ne hne, htemp], hcycnone⟩
    · rw [ha.cyclic_eq, ha.temp_eq, hj']
      exact ⟨AList.lookup_insert _, hcyc hj' (harms r rfl)⟩

/-- What `RemoveJob` cancels is what was armed. -/
theorem Registered.disarmed_of_removes (h : s.Registered) {id : ℤ} {r : ℕ}
    (hr : s.Removes id r s' ev) {j : Job} {r' : ℕ} (hid : j.id = id) : ¬s'.Armed j r' := by
  intro harmed
  obtain ⟨hold, hne⟩ := (hr.armed_iff h.wellFormed).mp harmed
  -- `RemoveJob` finds the map in which the job of the armed timeout is stored
  rcases hj : j.isCyclic with _ | _
  · obtain ⟨htemp, hcyc⟩ := h.oneTime j r' hold hj
    rw [hid] at htemp hcyc
    rcases hr.stored with ⟨hc, -⟩ | ⟨-, ht, -⟩
    · rw [hc] at hcyc
      exact absurd hcyc (by simp)
    · rw [ht] at htemp
      exact hne (Option.some.inj (Option.some.inj htemp)).symm
  · have hcyc := h.cyclic j r' hold hj
    rw [hid] at hcyc
    rcases hr.stored with ⟨hc, -⟩ | ⟨hc, -⟩
    · rw [hc] at hcyc
      exact hne (Option.some.inj (Option.some.inj hcyc)).symm
    · rw [hc] at hcyc
      exact absurd hcyc (by simp)

theorem Registered.removes (h : s.Registered) {id : ℤ} {r : ℕ} (hr : s.Removes id r s' ev) :
    s'.Registered := by
  have hsub : ∀ j r', s'.Armed j r' → s.Armed j r' ∧ j.id ≠ id := fun j r' ha =>
    ⟨((hr.armed_iff h.wellFormed).mp ha).1, fun hid => h.disarmed_of_removes hr hid ha⟩
  have hlive : ∀ j r', s'.Live j r' → s.Live j r' := by
    rintro j r' (ha | ha)
    · exact Or.inl (hsub j r' ha).1
    · exact Or.inr ((inFlight_of_eq hr.runs_eq).mp ha)
  have hcyclic : ∀ id', id' ≠ id →
      s'.td.cyclicTasks.lookup id' = s.td.cyclicTasks.lookup id' := by
    intro id' hne
    rcases hr.stored with ⟨-, hc, -⟩ | ⟨-, -, hc, -⟩
    · rw [hc, AList.lookup_erase_ne hne]
    · rw [hc]
  have htemp : ∀ id', id' ≠ id → s'.td.tempTasks.lookup id' = s.td.tempTasks.lookup id' := by
    intro id' hne
    rcases hr.stored with ⟨-, -, ht⟩ | ⟨-, -, -, ht⟩
    · rw [ht]
    · rw [ht, AList.lookup_erase_ne hne]
  refine ⟨hr.wellFormed h.wellFormed,
    fun j r₁ j' r₂ h₁ h₂ => h.unique _ _ _ _ (hlive _ _ h₁) (hlive _ _ h₂), ?_, ?_⟩
  · intro j r' ha hj
    obtain ⟨hold, hid⟩ := hsub j r' ha
    rw [hcyclic _ hid]
    exact h.cyclic j r' hold hj
  · intro j r' ha hj
    obtain ⟨hold, hid⟩ := hsub j r' ha
    rw [hcyclic _ hid, htemp _ hid]
    exact h.oneTime j r' hold hj

theorem mem_values_of_lookup {m : Go.Map ℤ (Option ℕ)} {id : ℤ} {o : Option ℕ}
    (h : m.lookup id = some o) : o ∈ m.entries.map Sigma.snd :=
  List.mem_map.mpr ⟨⟨id, o⟩, AList.mem_lookup_iff.mp h, rfl⟩

/-- After `Stop` nothing is armed: what was armed was stored. -/
theorem Registered.stops (h : s.Registered) (hs : s.Stops s') : s'.Registered := by
  have harmed : ∀ j r, ¬s'.Armed j r := by
    intro j r ha
    obtain ⟨hold, hc, ht⟩ := (hs.armed_iff j r).mp ha
    rcases hj : j.isCyclic with _ | _
    · exact ht (mem_values_of_lookup (h.oneTime j r hold hj).1)
    · exact hc (mem_values_of_lookup (h.cyclic j r hold hj))
  have hlive : ∀ j r, s'.Live j r → s.Live j r := by
    rintro j r (ha | ha)
    · exact absurd ha (harmed j r)
    · exact Or.inr ((inFlight_of_eq hs.runs_eq).mp ha)
  exact ⟨hs.wellFormed h.wellFormed,
    fun j r₁ j' r₂ h₁ h₂ => h.unique _ _ _ _ (hlive _ _ h₁) (hlive _ _ h₂),
    fun j r ha => absurd ha (harmed j r), fun j r ha => absurd ha (harmed j r)⟩

theorem Registered.reschedules (h : s.Registered) {r : ℕ} {now : ℤ} {x : TaskRun} {o : Option ℕ}
    (hx : x ∈ s.runs) (hxr : x.timeout = r) (hst : x.stage = .rescheduling)
    (hr : s.Reschedules r now x o s' ev) : s'.Registered := by
  have hxlive : s.Live x.job r := Or.inr ⟨x, hx, hxr, rfl⟩
  have hxcyc := (h.wellFormed.run_cyclic x hx hst).1
  -- the run in flight was the one live timeout of the job, so nothing else is armed for it
  have hnone : ∀ j r', s.Armed j r' → j.id ≠ x.job.id := by
    intro j r' ha hid
    obtain rfl := h.unique _ _ _ _ (Or.inl ha) hxlive hid
    exact h.wellFormed.run_disarmed x hx j (hxr ▸ ha)
  have hflight : ∀ j r', s'.InFlight j r' → s.InFlight j r' ∧ j.id ≠ x.job.id := by
    intro j r' hf
    obtain ⟨hf, hne⟩ := (inFlight_of_endRun hr.runs_eq).mp hf
    exact ⟨hf, fun hid => hne (h.unique _ _ _ _ (Or.inr hf) hxlive hid)⟩
  have hlive : ∀ j r', s'.Live j r' →
      (s.Live j r' ∧ j.id ≠ x.job.id) ∨ (j = x.job ∧ o = some r') := by
    rintro j r' (ha | hf)
    · rcases (hr.asked.armed_iff j r').mp ha with ha | hnew
      · exact Or.inl ⟨Or.inl ha, hnone j r' ha⟩
      · exact Or.inr hnew
    · obtain ⟨hf, hid⟩ := hflight j r' hf
      exact Or.inl ⟨Or.inr hf, hid⟩
  refine ⟨hr.wellFormed h.wellFormed, h.unique_of_new hlive, ?_, ?_⟩
  · intro j r' ha hj
    rw [hr.cyclic_eq]
    rcases (hr.asked.armed_iff j r').mp ha with hold | ⟨rfl, rfl⟩
    · rw [AList.lookup_insert_ne (hnone j r' hold)]
      exact h.cyclic j r' hold hj
    · exact AList.lookup_insert _
  · intro j r' ha hj
    rw [hr.cyclic_eq, hr.temp_eq]
    rcases (hr.asked.armed_iff j r').mp ha with hold | ⟨rfl, -⟩
    · rw [AList.lookup_insert_ne (hnone j r' hold)]
      exact h.oneTime j r' hold hj
    · rw [hj] at hxcyc
      exact absurd hxcyc (by simp)

/-- **Every step keeps the registry**, if jobs are added anew. -/
theorem Registered.step (h : s.Registered) {a : DispatchAct} (hok : s.AddsAnew a)
    (hs : s.step a = some (s', ev)) : s'.Registered := by
  have hwf' := h.wellFormed.step hs
  cases a with
  | addJob job now =>
    rcases job with _ | j
    · obtain ⟨rfl, -⟩ := step_addJob_nil hs
      exact h
    · obtain ⟨o, ha⟩ := step_addJob h.wellFormed hs
      exact h.adds ha hok
  | removeJob id =>
    rcases step_removeJob hs with ⟨hi, -⟩ | ⟨r, hr⟩
    · exact h.of_still hwf' (fun _ _ => hi.armed_iff.mp)
        (fun _ _ => hi.live_iff.mp) hi.cyclic_eq hi.temp_eq
    · exact h.removes hr
  | start =>
    obtain ⟨hst, -⟩ := step_start hs
    exact h.of_still hwf' (fun j r => (hst.armed_iff j r).mp)
      (fun _ _ => hst.live_iff.mp) hst.cyclic_eq hst.temp_eq
  | stop =>
    rcases (step_stop h.wellFormed hs).2 with ⟨-, rfl⟩ | hst
    · exact h
    · exact h.stops hst
  | tick =>
    obtain ⟨ht, -⟩ := step_tick hs
    exact h.of_still hwf' (fun _ _ ha => ((ht.armed_iff h.wellFormed).mp ha).1)
      (fun _ _ => (ht.live_iff h.wellFormed).mp) (by rw [ht.td_eq]) (by rw [ht.td_eq])
  | begin r now =>
    obtain ⟨x, hb⟩ := step_begin hs
    refine h.of_still hwf' (fun _ _ => hb.armed_iff.mp) (fun j r' hl => ?_) hb.cyclic_eq hb.temp_eq
    rcases hl with ha | hf
    · exact Or.inl (hb.armed_iff.mp ha)
    · exact Or.inr ((inFlight_of_advanceRun hb.runs_eq).mp hf)
  | complete r outcome =>
    obtain ⟨x, hc, -⟩ := step_complete hs
    refine h.of_still hwf' (fun _ _ => hc.armed_iff.mp) (fun j r' hl => ?_) hc.cyclic_eq hc.temp_eq
    rcases hl with ha | hf
    · exact Or.inl (hc.armed_iff.mp ha)
    · exact Or.inr (hc.inFlight_of hf)
  | reschedule r now =>
    obtain ⟨x, hx, hxr, hst, ⟨rfl, -⟩ | ⟨o, hr⟩⟩ := step_reschedule h.wellFormed hs
    · refine h.of_still hwf' (fun _ _ ha => ha) (fun j r' hl => ?_) rfl rfl
      rcases hl with ha | hf
      · exact Or.inl ha
      · exact Or.inr ((inFlight_of_endRun rfl).mp hf).1
    · exact h.reschedules hx hxr hst hr

/-! ### What becomes live -/

/-- **A timeout that becomes live is a new one**, of a job that is added or whose `Run` ends. -/
theorem live_of_step (hwf : s.WellFormed) {a : DispatchAct} (hs : s.step a = some (s', ev))
    {j : Job} {r : ℕ} (hlive : s'.Live j r) :
    s.Live j r ∨ s.td.wheelTimer.task r = none ∧
      ((∃ now, a = .addJob (some j) now) ∨ ∃ x ∈ s.runs, x.job = j) := by
  cases a with
  | addJob job now =>
    rcases job with _ | j'
    · obtain ⟨rfl, -⟩ := step_addJob_nil hs
      exact .inl hlive
    · obtain ⟨o, ha⟩ := step_addJob hwf hs
      rcases hlive with harmed | hflight
      · rcases (ha.asked.armed_iff j r).mp harmed with hold | ⟨rfl, ho⟩
        · exact .inl (.inl hold)
        · exact .inr ⟨ha.asked.fresh r ho, .inl ⟨now, rfl⟩⟩
      · exact .inl (.inr ((inFlight_of_eq ha.runs_eq).mp hflight))
  | removeJob id =>
    rcases step_removeJob hs with ⟨hi, -⟩ | ⟨r', hr⟩
    · exact .inl (hi.live_iff.mp hlive)
    · refine .inl (hlive.imp (fun harmed => ((hr.armed_iff hwf).mp harmed).1) fun hflight => ?_)
      exact (inFlight_of_eq hr.runs_eq).mp hflight
  | start => exact .inl ((step_start hs).1.live_iff.mp hlive)
  | stop =>
    rcases (step_stop hwf hs).2 with ⟨-, rfl⟩ | hst
    · exact .inl hlive
    · refine .inl (hlive.imp (fun harmed => ((hst.armed_iff j r).mp harmed).1) fun hflight => ?_)
      exact (inFlight_of_eq hst.runs_eq).mp hflight
  | tick => exact .inl (((step_tick hs).1.live_iff hwf).mp hlive)
  | begin r' now =>
    obtain ⟨x, hb⟩ := step_begin hs
    refine .inl (hlive.imp hb.armed_iff.mp fun hflight => ?_)
    exact (inFlight_of_advanceRun hb.runs_eq).mp hflight
  | complete r' outcome =>
    obtain ⟨x, hc, -⟩ := step_complete hs
    exact .inl (hlive.imp hc.armed_iff.mp hc.inFlight_of)
  | reschedule r' now =>
    obtain ⟨x, hx, -, -, ⟨rfl, -⟩ | ⟨o, hr⟩⟩ := step_reschedule hwf hs
    · exact .inl (hlive.imp_right fun hflight => ((inFlight_of_endRun rfl).mp hflight).1)
    · rcases hlive with harmed | hflight
      · rcases (hr.asked.armed_iff j r).mp harmed with hold | ⟨rfl, ho⟩
        · exact .inl (.inl hold)
        · exact .inr ⟨hr.asked.fresh r ho, .inr ⟨x, hx, rfl⟩⟩
      · exact .inl (.inr ((inFlight_of_endRun hr.runs_eq).mp hflight).1)

/-- Nothing is live under the id. -/
def Dead (s : DispatchState) (id : ℤ) : Prop := ∀ j r, j.id = id → ¬s.Live j r

/-- What is dead stays so, until a job is added under the id. -/
theorem Dead.step {id : ℤ} (h : s.Dead id) (hwf : s.WellFormed) {a : DispatchAct}
    (hadd : ∀ j now, a = .addJob (some j) now → j.id ≠ id) (hs : s.step a = some (s', ev)) :
    s'.Dead id := by
  intro j r hid hlive
  rcases live_of_step hwf hs hlive with hold | ⟨-, ⟨now, ha⟩ | ⟨x, hx, rfl⟩⟩
  · exact h j r hid hold
  · exact hadd j now ha hid
  · exact h x.job x.timeout hid (.inr ⟨x, hx, rfl, rfl⟩)

theorem Dead.exec {id : ℤ} (h : s.Dead id) (hwf : s.WellFormed) {bs : List DispatchAct}
    {tr : List DispatchEvent} (hrun : exec DispatchState.step s bs = some (s', tr))
    (hadd : ∀ j now, .addJob (some j) now ∈ bs → j.id ≠ id) : s'.Dead id := by
  induction bs generalizing s tr with
  | nil =>
    obtain ⟨rfl, -⟩ : s = s' ∧ [] = tr := by simpa using hrun
    exact h
  | cons b bs ih =>
    obtain ⟨s₁, ev, tr', hs, hrest, -⟩ := exec_cons.mp hrun
    have hfirst : ∀ j now, b = .addJob (some j) now → j.id ≠ id := by
      rintro j now rfl
      exact hadd j now List.mem_cons_self
    exact ih (h.step hwf hfirst hs) (hwf.step hs) hrest fun j now hmem =>
      hadd j now (List.mem_cons_of_mem b hmem)

theorem WellFormed.liveTimeouts_eq_nil_iff (h : s.WellFormed) {id : ℤ} :
    s.liveTimeouts id = [] ↔ s.Dead id := by
  rw [List.eq_nil_iff_forall_not_mem]
  constructor
  · exact fun hnil j r hid hlive => hnil r (h.mem_liveTimeouts.mpr ⟨j, hid, hlive⟩)
  · intro hdead r hr
    obtain ⟨j, hid, hlive⟩ := h.mem_liveTimeouts.mp hr
    exact hdead j r hid hlive

/-- `RemoveJob` leaves nothing of a job that is not running. -/
theorem Registered.dead_of_removeJob (h : s.Registered) {id : ℤ}
    (hidle : ∀ x ∈ s.runs, x.job.id ≠ id) (hs : s.step (.removeJob id) = some (s', ev)) :
    s'.Dead id := by
  intro j r hid
  rcases step_removeJob hs with ⟨hi, -, hcyclic, htemp⟩ | ⟨r', hr⟩
  · -- what is armed is stored, and nothing is stored
    rintro (harmed | ⟨x, hx, -, rfl⟩)
    · have hold := hi.armed_iff.mp harmed
      rcases hj : j.isCyclic with _ | _
      · rw [← hid, (h.oneTime j r hold hj).1] at htemp
        exact absurd htemp (by simp)
      · rw [← hid, h.cyclic j r hold hj] at hcyclic
        exact absurd hcyclic (by simp)
    · exact hidle x (hi.runs_eq ▸ hx) hid
  · rintro (harmed | ⟨x, hx, -, rfl⟩)
    · exact h.disarmed_of_removes hr hid harmed
    · exact hidle x (hr.runs_eq ▸ hx) hid

/-! ### The timeouts of the runs in flight -/

/-- The timeout is stored for the job, where `RemoveJob` finds it. -/
structure StoredFor (s : DispatchState) (j : Job) (r : ℕ) : Prop where
  cyclic : j.isCyclic = true → s.td.cyclicTasks.lookup j.id = some (some r)
  oneTime : j.isCyclic = false →
    s.td.tempTasks.lookup j.id = some (some r) ∧ s.td.cyclicTasks.lookup j.id = none

theorem Registered.storedFor (h : s.Registered) {j : Job} {r : ℕ} (harmed : s.Armed j r) :
    s.StoredFor j r :=
  ⟨h.cyclic j r harmed, h.oneTime j r harmed⟩

/-- Where nothing was stored or forgotten under the id. -/
theorem StoredFor.of_eq {j : Job} {r : ℕ} (h : s.StoredFor j r)
    (hc : s'.td.cyclicTasks.lookup j.id = s.td.cyclicTasks.lookup j.id)
    (ht : s'.td.tempTasks.lookup j.id = s.td.tempTasks.lookup j.id) : s'.StoredFor j r where
  cyclic := fun hj => hc.trans (h.cyclic hj)
  oneTime := fun hj => ⟨ht.trans (h.oneTime hj).1, hc.trans (h.oneTime hj).2⟩

/-- **What is live is stored.** The last three say what else the maps hold: the one-time
tasks are those of one-time jobs, and nil is stored only once the wheel is stopped,
when nothing is live. -/
structure Kept (s : DispatchState) : Prop where
  registered : s.Registered
  running : ∀ x ∈ s.runs, s.StoredFor x.job x.timeout
  temp_oneTime : ∀ id r j, s.td.tempTasks.lookup id = some (some r) →
    s.td.wheelTimer.task r = some ⟨j⟩ → j.isCyclic = false
  nil_stopped : ∀ id, s.td.cyclicTasks.lookup id = some none →
    s.td.wheelTimer.stopped = true
  quiet : s.td.wheelTimer.stopped = true → ∀ id, s.Dead id

theorem kept_init (now : ℤ) : (init now).Kept where
  registered := registered_init now
  running := fun x h => absurd h (by simp [init])
  temp_oneTime := fun id r j h => absurd h (by simp [init, TimeDispatch.newTimeDispatch])
  nil_stopped := fun id h => absurd h (by simp [init, TimeDispatch.newTimeDispatch])
  quiet := fun h => absurd h (by
    simp [init, TimeDispatch.newTimeDispatch, HashedWheelTimer.newHashedWheelTimer])

theorem Kept.storedFor (h : s.Kept) {j : Job} {r : ℕ} (hlive : s.Live j r) : s.StoredFor j r := by
  rcases hlive with harmed | ⟨x, hx, rfl, rfl⟩
  · exact h.registered.storedFor harmed
  · exact h.running x hx

section Kept

variable (h : s.Kept)

include h

/-- A step that stores nothing, and asks the wheel for nothing. -/
theorem Kept.of_still (hreg : s'.Registered)
    (hruns : ∀ x ∈ s'.runs, s.Live x.job x.timeout)
    (htask : ∀ r, s'.td.wheelTimer.task r = s.td.wheelTimer.task r)
    (hstopped : s'.td.wheelTimer.stopped = s.td.wheelTimer.stopped)
    (hlive : ∀ j r, s'.Live j r → s.Live j r)
    (hsame : ∀ x ∈ s'.runs,
      s'.td.cyclicTasks.lookup x.job.id = s.td.cyclicTasks.lookup x.job.id ∧
        s'.td.tempTasks.lookup x.job.id = s.td.tempTasks.lookup x.job.id)
    (hc : ∀ id o, s'.td.cyclicTasks.lookup id = some o → s.td.cyclicTasks.lookup id = some o)
    (ht : ∀ id o, s'.td.tempTasks.lookup id = some o → s.td.tempTasks.lookup id = some o) :
    s'.Kept where
  registered := hreg
  running := fun x hx => (h.storedFor (hruns x hx)).of_eq (hsame x hx).1 (hsame x hx).2
  temp_oneTime := fun id r j hl hr => h.temp_oneTime id r j (ht id _ hl) (htask r ▸ hr)
  nil_stopped := fun id hl => hstopped.trans (h.nil_stopped id (hc id _ hl))
  quiet := fun hs id j r hid hl => h.quiet (hstopped.symm.trans hs) id j r hid (hlive j r hl)

theorem Kept.adds {j : Job} {now : ℤ} {o : Option ℕ} (ha : s.Adds j now o s' ev)
    (hok : s.AddsAnew (.addJob (some j) now)) : s'.Kept := by
  have hwf := h.registered.wellFormed
  have hdead : s.Dead j.id := hwf.liveTimeouts_eq_nil_iff.mp hok.1
  have hstopped : s'.td.wheelTimer.stopped = s.td.wheelTimer.stopped :=
    congrArg (fun f => f.2.1) ha.asked.flags_eq
  refine ⟨h.registered.adds ha hok, fun x hx => ?_, fun id r j' hl htask => ?_, fun id hl => ?_,
    fun hs id j' r hid hlive => ?_⟩
  · -- the runs in flight are of other jobs
    rw [ha.runs_eq] at hx
    have hne : x.job.id ≠ j.id := fun hid => hdead x.job x.timeout hid (.inr ⟨x, hx, rfl, rfl⟩)
    refine (h.running x hx).of_eq ?_ ?_
    · rw [ha.cyclic_eq]
      split_ifs
      · exact AList.lookup_insert_ne hne
      · rfl
    · rw [ha.temp_eq]
      split_ifs
      · rfl
      · exact AList.lookup_insert_ne hne
  · have hold : ∀ {id : ℤ}, s.td.tempTasks.lookup id = some (some r) → j'.isCyclic = false := by
      intro id hl
      obtain ⟨j'', htask', -⟩ := hwf.temp_task id r hl
      obtain rfl : j'' = j' := by
        simpa using (ha.asked.task_mono r _ htask').symm.trans htask
      exact h.temp_oneTime id r j'' hl htask'
    rw [ha.temp_eq] at hl
    split_ifs at hl with hj
    · exact hold hl
    · rcases Go.lookup_of_lookup_insert hl with ⟨rfl, rfl⟩ | hl
      · obtain rfl : j = j' := by simpa using (ha.asked.task_new r rfl).symm.trans htask
        simpa using hj
      · exact hold hl
  · rw [hstopped]
    rw [ha.cyclic_eq] at hl
    split_ifs at hl
    · rcases Go.lookup_of_lookup_insert hl with ⟨-, rfl⟩ | hl
      · exact ha.asked.nil_iff.mp rfl
      · exact h.nil_stopped id hl
    · exact h.nil_stopped id hl
  · rw [hstopped] at hs
    obtain rfl := ha.asked.nil_iff.mpr hs
    refine h.quiet hs id j' r hid (hlive.imp (fun harmed => ?_) (inFlight_of_eq ha.runs_eq).mp)
    exact ((ha.asked.armed_iff j' r).mp harmed).resolve_right fun hnew => absurd hnew.2 (by simp)

theorem Kept.removes {id : ℤ} {r : ℕ} (hr : s.Removes id r s' ev)
    (hidle : ∀ x ∈ s.runs, x.job.id ≠ id) : s'.Kept := by
  have hruns := hr.runs_eq
  refine h.of_still (h.registered.removes hr) (fun x hx => .inr ⟨x, hruns ▸ hx, rfl, rfl⟩)
    (fun r' => by rw [hr.wheel_eq, HashedWheelTimer.task_cancel]) (by rw [hr.wheel_eq]; rfl)
    (fun j r' => Or.imp (fun ha => ((hr.armed_iff h.registered.wellFormed).mp ha).1)
      (inFlight_of_eq hruns).mp) (fun x hx => ?_) (fun _ _ hl => hr.cyclic_of_lookup hl)
    (fun _ _ hl => hr.temp_of_lookup hl)
  have hne := hidle x (hruns ▸ hx)
  rcases hr.stored with ⟨-, hc, ht⟩ | ⟨-, -, hc, ht⟩
  · rw [hc, ht, AList.lookup_erase_ne hne]
    exact ⟨rfl, rfl⟩
  · rw [hc, ht, AList.lookup_erase_ne hne]
    exact ⟨rfl, rfl⟩

theorem Kept.stops (hs : s.Stops s') (hidle : s.runs = []) : s'.Kept := by
  have hruns : s'.runs = [] := hs.runs_eq.trans hidle
  have hreg := h.registered.stops hs
  refine ⟨hreg, fun x hx => absurd hx (by simp [hruns]), fun id r j hl => ?_, fun id hl => ?_,
    fun _ id j r _ hlive => ?_⟩
  · rw [hs.temp_eq] at hl
    exact absurd hl (by simp)
  · exact hs.stopped
  · -- what was armed was stored, and so is cancelled
    have hflight : ¬s'.InFlight j r := by
      rintro ⟨x, hx, -⟩
      simp [hruns] at hx
    have hstored := hreg.storedFor (hlive.resolve_right hflight)
    rcases hj : j.isCyclic with _ | _
    · have hl := (hstored.oneTime hj).1
      rw [hs.temp_eq] at hl
      exact absurd hl (by simp)
    · have hl := hstored.cyclic hj
      rw [hs.cyclic_eq] at hl
      exact absurd hl (by simp)

theorem Kept.reschedules {r : ℕ} {now : ℤ} {x : TaskRun} {o : Option ℕ} (hx : x ∈ s.runs)
    (hxr : x.timeout = r) (hst : x.stage = .rescheduling) (hr : s.Reschedules r now x o s' ev) :
    s'.Kept := by
  have hwf := h.registered.wellFormed
  have hstopped : s'.td.wheelTimer.stopped = s.td.wheelTimer.stopped :=
    congrArg (fun f => f.2.1) hr.asked.flags_eq
  -- a wheel that is stopped has no run in flight
  have hrunning : s.td.wheelTimer.stopped ≠ true := fun hs =>
    h.quiet hs x.job.id x.job x.timeout rfl (.inr ⟨x, hx, rfl, rfl⟩)
  refine ⟨h.registered.reschedules hx hxr hst hr, fun y hy => ?_, fun id r' j hl htask => ?_,
    fun id hl => ?_, fun hs => absurd (hstopped.symm.trans hs) hrunning⟩
  · rw [hr.runs_eq] at hy
    obtain ⟨hy, hne⟩ := List.mem_filter.mp hy
    have hother : y.job.id ≠ x.job.id := by
      intro hid
      have hsame := h.registered.unique _ _ _ _ (.inr ⟨y, hy, rfl, rfl⟩)
        (.inr ⟨x, hx, rfl, rfl⟩) hid
      exact absurd (hsame.trans hxr) (by simpa using hne)
    refine (h.running y hy).of_eq ?_ (by rw [hr.temp_eq])
    rw [hr.cyclic_eq, AList.lookup_insert_ne hother]
  · rw [hr.temp_eq] at hl
    obtain ⟨j', htask', -⟩ := hwf.temp_task id r' hl
    obtain rfl : j' = j := by simpa using (hr.asked.task_mono r' _ htask').symm.trans htask
    exact h.temp_oneTime id r' j' hl htask'
  · rw [hr.cyclic_eq] at hl
    rcases Go.lookup_of_lookup_insert hl with ⟨-, rfl⟩ | hl
    · exact absurd (hr.asked.nil_iff.mp rfl) hrunning
    · exact absurd (h.nil_stopped id hl) hrunning

end Kept

/-- A step that leaves the runs in flight alone, and adds a job anew. -/
def KeepsOne (s : DispatchState) (a : DispatchAct) : Prop := s.AddsAnew a ∧ s.LeavesRuns a

instance (s : DispatchState) (a : DispatchAct) : Decidable (s.KeepsOne a) :=
  inferInstanceAs (Decidable (_ ∧ _))

/-- **Every step keeps it so** that leaves the runs in flight alone and adds jobs anew. -/
theorem Kept.step (h : s.Kept) {a : DispatchAct} (hok : s.KeepsOne a)
    (hs : s.step a = some (s', ev)) : s'.Kept := by
  have hwf := h.registered.wellFormed
  have hreg := h.registered.step hok.1 hs
  cases a with
  | addJob job now =>
    rcases job with _ | j
    · obtain ⟨rfl, -⟩ := step_addJob_nil hs
      exact h
    · obtain ⟨o, ha⟩ := step_addJob hwf hs
      exact h.adds ha hok.1
  | removeJob id =>
    rcases step_removeJob hs with ⟨hi, -⟩ | ⟨r, hr⟩
    · refine h.of_still hreg (fun x hx => .inr ⟨x, hi.runs_eq ▸ hx, rfl, rfl⟩)
        (fun r => by rw [hi.wheel_eq]) (by rw [hi.wheel_eq]) (fun _ _ => hi.live_iff.mp)
        (fun x _ => by rw [hi.cyclic_eq, hi.temp_eq]; exact ⟨rfl, rfl⟩)
        (fun _ _ hl => hi.cyclic_eq ▸ hl) (fun _ _ hl => hi.temp_eq ▸ hl)
    · exact h.removes hr hok.2
  | start =>
    have hst := (step_start hs).1
    exact h.of_still hreg (fun x hx => .inr ⟨x, hst.runs_eq ▸ hx, rfl, rfl⟩) hst.task_eq
      (stopped_of_step hwf hs (by simp)) (fun _ _ => hst.live_iff.mp)
      (fun x _ => by rw [hst.cyclic_eq, hst.temp_eq]; exact ⟨rfl, rfl⟩)
      (fun _ _ hl => hst.cyclic_eq ▸ hl) (fun _ _ hl => hst.temp_eq ▸ hl)
  | stop =>
    rcases (step_stop hwf hs).2 with ⟨-, rfl⟩ | hst
    · exact h
    · exact h.stops hst (List.isEmpty_iff.mp (hok.2 hst.before))
  | tick =>
    have ht := (step_tick hs).1
    refine h.of_still hreg (fun x hx => ?_) (fun r => by rw [ht.td_eq]; rfl)
      (stopped_of_step hwf hs (by simp)) (fun _ _ => (ht.live_iff hwf).mp)
      (fun x _ => by rw [ht.td_eq]; exact ⟨rfl, rfl⟩)
      (fun _ _ hl => by rwa [ht.td_eq] at hl) (fun _ _ hl => by rwa [ht.td_eq] at hl)
    exact (ht.live_iff hwf).mp (.inr ⟨x, hx, rfl, rfl⟩)
  | begin r now =>
    obtain ⟨x, hb⟩ := step_begin hs
    have hlive : ∀ j r', s'.Live j r' → s.Live j r' := fun j r' =>
      Or.imp hb.armed_iff.mp (inFlight_of_advanceRun hb.runs_eq).mp
    exact h.of_still hreg (fun y hy => hlive _ _ (.inr ⟨y, hy, rfl, rfl⟩))
      (fun r' => by rw [hb.wheel_eq]) (by rw [hb.wheel_eq]) hlive
      (fun x _ => by rw [hb.cyclic_eq, hb.temp_eq]; exact ⟨rfl, rfl⟩)
      (fun _ _ hl => hb.cyclic_eq ▸ hl) (fun _ _ hl => hb.temp_eq ▸ hl)
  | complete r outcome =>
    obtain ⟨x, hc, -⟩ := step_complete hs
    have hlive : ∀ j r', s'.Live j r' → s.Live j r' := fun j r' =>
      Or.imp hc.armed_iff.mp hc.inFlight_of
    exact h.of_still hreg (fun y hy => hlive _ _ (.inr ⟨y, hy, rfl, rfl⟩))
      (fun r' => by rw [hc.wheel_eq]) (by rw [hc.wheel_eq]) hlive
      (fun x _ => by rw [hc.cyclic_eq, hc.temp_eq]; exact ⟨rfl, rfl⟩)
      (fun _ _ hl => hc.cyclic_eq ▸ hl) (fun _ _ hl => hc.temp_eq ▸ hl)
  | reschedule r now =>
    obtain ⟨x, hx, hxr, hst, ⟨rfl, -⟩ | ⟨o, hr⟩⟩ := step_reschedule hwf hs
    · have hlive : ∀ j r', ({ s with runs := s.endRun r } : DispatchState).Live j r' →
          s.Live j r' := fun j r' =>
        Or.imp_right fun hflight => ((inFlight_of_endRun rfl).mp hflight).1
      exact h.of_still hreg (fun y hy => hlive _ _ (.inr ⟨y, hy, rfl, rfl⟩)) (fun _ => rfl) rfl
        hlive (fun _ _ => ⟨rfl, rfl⟩) (fun _ _ hl => hl) (fun _ _ hl => hl)
    · exact h.reschedules hx hxr hst hr

/-! ### Keeping one timeout is having one -/

theorem Registered.length_liveTimeouts_le (h : s.Registered) (id : ℤ) :
    (s.liveTimeouts id).length ≤ 1 := by
  refine length_le_one_of_nodup (h.wellFormed.nodup_liveTimeouts id) fun r hr r' hr' => ?_
  obtain ⟨j, rfl, hl⟩ := h.wellFormed.mem_liveTimeouts.mp hr
  obtain ⟨j', hid, hl'⟩ := h.wellFormed.mem_liveTimeouts.mp hr'
  exact h.unique _ _ _ _ hl hl' hid.symm

theorem Kept.oneTimeout (h : s.Kept) : s.OneTimeout where
  atMostOne := h.registered.length_liveTimeouts_le
  stored := fun j r hlive => by
    have hstored := h.storedFor hlive
    rcases hj : j.isCyclic with _ | _
    · exact Or.inr (hstored.oneTime hj).1
    · exact Or.inl (hstored.cyclic hj)
  removable := fun id hidle s₁ ev hs bs s₂ tr hrun hadd => by
    have hwf₁ := h.registered.wellFormed.step hs
    have hdead := (h.registered.dead_of_removeJob hidle hs).exec hwf₁ hrun hadd
    exact (exec_invariant hwf₁ (fun _ _ _ _ hwf hs => WellFormed.step hwf hs) hrun
      |>.liveTimeouts_eq_nil_iff).mpr hdead

theorem two_le_length {α : Type} {l : List α} {a b : α} (ha : a ∈ l) (hb : b ∈ l) (hne : a ≠ b) :
    2 ≤ l.length := by
  rcases l with _ | ⟨c, _ | ⟨d, l⟩⟩
  · exact absurd ha (by simp)
  · rw [List.mem_singleton] at ha hb
    exact absurd (ha.trans hb.symm) hne
  · simp

section Breaks

variable (h : s.Kept)

include h

/-- **A job that is added while it is live** has two timeouts, and a one-time job that is
added behind a cyclic timeout is not found. -/
theorem Kept.addsAnew_of_oneTimeout {j : Job} {now : ℤ} {o : Option ℕ} (ha : s.Adds j now o s' ev)
    (hone : s'.OneTimeout) : s.AddsAnew (.addJob (some j) now) := by
  have hwf := h.registered.wellFormed
  have hwf' := ha.wellFormed hwf
  have hdead : s.Dead j.id := by
    intro j' r hid hlive
    have hrunning : s.td.wheelTimer.stopped = false := Bool.eq_false_iff.mpr fun hs =>
      h.quiet hs j.id j' r hid hlive
    obtain ⟨r', rfl, harmed⟩ := ha.asked.exists_armed hrunning
    have hold : s'.Live j' r := hlive.imp (fun ha' => (ha.asked.armed_iff j' r).mpr (.inl ha'))
      (inFlight_of_eq ha.runs_eq).mpr
    -- the old timeout has a task already, and the new one is fresh
    have hne : r ≠ r' := by
      rintro rfl
      exact absurd ((hwf.live_task hlive).symm.trans (ha.asked.fresh r rfl)) (by simp)
    have htwo := two_le_length (hwf'.mem_liveTimeouts.mpr ⟨j', hid, hold⟩)
      (hwf'.mem_liveTimeouts.mpr ⟨j, rfl, .inl harmed⟩) hne
    exact absurd (hone.atMostOne j.id) (by omega)
  refine ⟨hwf.liveTimeouts_eq_nil_iff.mpr hdead, fun hj hrunning => ?_⟩
  rcases hl : s.td.cyclicTasks.lookup j.id with _ | _ | r₀
  · rfl
  · exact absurd (h.nil_stopped j.id hl) (by simp [hrunning])
  · exfalso
    obtain ⟨r, rfl, harmed⟩ := ha.asked.exists_armed hrunning
    have hidle : ∀ x ∈ s'.runs, x.job.id ≠ j.id := fun x hx hid =>
      hdead x.job x.timeout hid (.inr ⟨x, ha.runs_eq ▸ hx, rfl, rfl⟩)
    have hl' : s'.td.cyclicTasks.lookup j.id = some (some r₀) := by
      rw [ha.cyclic_eq, if_neg (by simp [hj]), hl]
    obtain ⟨p, hp⟩ : ∃ p, s'.step (.removeJob j.id) = some p := by
      simp [DispatchState.step, TimeDispatch.removeJob, hl', cancelStored]
    have hnone := hone.removable j.id hidle p.1 p.2 hp [] p.1 [] rfl (by simp)
    -- what is cancelled is the timeout that was stored before, and not the new one
    rcases step_removeJob hp with ⟨-, -, hc, -⟩ | ⟨r₁, hr⟩
    · exact absurd (hl'.symm.trans hc) (by simp)
    · have hr₁ : r₁ = r₀ := by
        rcases hr.stored with ⟨hc, -⟩ | ⟨hc, -⟩
        · simpa using hc.symm.trans hl'
        · exact absurd (hl'.symm.trans hc) (by simp)
      obtain ⟨j₀, htask, -⟩ := hwf.cyclic_task j.id r₀ hl
      have hne : r ≠ r₁ := by
        rintro rfl
        rw [← hr₁, ha.asked.fresh r rfl] at htask
        exact absurd htask (by simp)
      have hlive : p.1.Live j r := .inl ((hr.armed_iff hwf').mpr ⟨harmed, hne⟩)
      exact ((hr.wellFormed hwf').liveTimeouts_eq_nil_iff.mp hnone) j r rfl hlive

/-- **A job that is removed while it runs** is live and not stored. -/
theorem Kept.idle_of_oneTimeout {id : ℤ} (hs : s.step (.removeJob id) = some (s', ev))
    (hone : s'.OneTimeout) {x : TaskRun} (hx : x ∈ s.runs) : x.job.id ≠ id := by
  rintro rfl
  have hstored := h.running x hx
  have htask := h.registered.wellFormed.run_task x hx
  rcases step_removeJob hs with ⟨-, -, hc, ht⟩ | ⟨r, hr⟩
  · rcases hj : x.job.isCyclic with _ | _
    · exact absurd ((hstored.oneTime hj).1.symm.trans ht) (by simp)
    · exact absurd ((hstored.cyclic hj).symm.trans hc) (by simp)
  · have hafter := hone.stored x.job x.timeout (.inr ⟨x, hr.runs_eq ▸ hx, rfl, rfl⟩)
    rcases hj : x.job.isCyclic with _ | _
    · obtain ⟨-, hc⟩ := hstored.oneTime hj
      rcases hr.stored with ⟨hc', -⟩ | ⟨-, -, hc', ht'⟩
      · exact absurd (hc.symm.trans hc') (by simp)
      · rw [hc', ht', hc, AList.lookup_erase] at hafter
        simp at hafter
    · have hc := hstored.cyclic hj
      rcases hr.stored with ⟨-, hc', ht'⟩ | ⟨hc', -⟩
      · rw [hc', ht', AList.lookup_erase] at hafter
        have htemp := hafter.resolve_left (by simp)
        exact absurd (hj.symm.trans (h.temp_oneTime _ _ _ htemp htask)) (by simp)
      · exact absurd (hc.symm.trans hc') (by simp)

/-- **A step leaves one timeout for each job exactly if it is one of these.** -/
theorem Kept.keepsOne_iff {a : DispatchAct} (hs : s.step a = some (s', ev)) :
    s'.OneTimeout ↔ s.KeepsOne a := by
  refine ⟨fun hone => ?_, fun hok => (h.step hok hs).oneTimeout⟩
  have hwf := h.registered.wellFormed
  cases a with
  | addJob job now =>
    refine ⟨?_, trivial⟩
    rcases job with _ | j
    · trivial
    · obtain ⟨o, ha⟩ := step_addJob hwf hs
      exact h.addsAnew_of_oneTimeout ha hone
  | removeJob id => exact ⟨trivial, fun x hx => h.idle_of_oneTimeout hs hone hx⟩
  | stop =>
    refine ⟨trivial, fun hon => List.isEmpty_iff.mpr (List.eq_nil_iff_forall_not_mem.mpr ?_)⟩
    intro x hx
    rcases (step_stop hwf hs).2 with ⟨hoff, -⟩ | hst
    · exact absurd (hon.symm.trans hoff) (by simp)
    · -- the run goes on, and the maps are empty
      have hafter := hone.stored x.job x.timeout (.inr ⟨x, hst.runs_eq ▸ hx, rfl, rfl⟩)
      rw [hst.cyclic_eq, hst.temp_eq] at hafter
      simp at hafter
  | _ => exact ⟨trivial, trivial⟩

end Breaks

/-- **One live timeout per job**: it is so after every step of a run if and only if every
step leaves the runs in flight alone, and adds jobs anew. -/
theorem oneTimeout_iff {now : ℤ} {as : List DispatchAct} {tr : List DispatchEvent}
    (h : exec DispatchState.step (init now) as = some (s, tr)) :
    Always DispatchState.step (fun _ _ s' => s'.OneTimeout) (init now) as ↔
      Meets DispatchState.step KeepsOne (init now) as := by
  refine always_iff_meets (kept_init now) ?_ ?_ h
  · intro s a s' ev hkept hok hs
    exact hkept.step hok hs
  · intro s a s' ev hkept hs
    exact hkept.keepsOne_iff hs

/-- A cyclic job that is run once, and is then removed while it waits for its next turn. -/
theorem oneTimeout_after_run :
    ∃ s tr, exec DispatchState.step (init 0) [.addJob (some (Job.bare 7 true 100)) 0, .start, .tick,
        .begin 0 0, .complete 0 .ok, .reschedule 0 0, .removeJob 7, .stop] = some (s, tr) ∧
      Always DispatchState.step (fun _ _ s' => s'.OneTimeout) (init 0)
        [.addJob (some (Job.bare 7 true 100)) 0, .start, .tick, .begin 0 0, .complete 0 .ok,
          .reschedule 0 0, .removeJob 7, .stop] := by
  have hm : Meets DispatchState.step KeepsOne (init 0) [.addJob (some (Job.bare 7 true 100)) 0,
      .start, .tick, .begin 0 0, .complete 0 .ok, .reschedule 0 0, .removeJob 7, .stop] :=
    meets_of_checks (by decide +kernel)
  exact ⟨_, _, rfl, (oneTimeout_iff rfl).mpr hm⟩

/-- **A job that is issued again has two timeouts**, and a `RemoveJob` stops one of
them. -/
theorem not_oneTimeout_added_twice :
    ∃ s tr, exec DispatchState.step (init 0) [.addJob (some (Job.bare 7 true 60)) 0,
        .addJob (some (Job.bare 7 true 60)) 0] = some (s, tr) ∧
      s.liveTimeouts 7 = [0, 1] ∧
      (∃ s' ev, s.step (.removeJob 7) = some (s', ev) ∧ s'.liveTimeouts 7 = [0]) ∧
      ¬s.OneTimeout := by
  have hlive : ∀ s : DispatchState, s.liveTimeouts 7 = [0, 1] → ¬s.OneTimeout := by
    intro s hs h
    have := h.atMostOne 7
    rw [hs] at this
    exact absurd this (by decide)
  exact ⟨_, _, rfl, by decide +kernel, ⟨_, _, rfl, by decide +kernel⟩, hlive _ (by decide +kernel)⟩

end DispatchState

end HertzBeat
