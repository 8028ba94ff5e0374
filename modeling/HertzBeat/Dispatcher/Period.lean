import HertzBeat.Dispatcher.DispatchSteps

/-!
# The period of a cyclic job

The interval of a job becomes a delay in three places. `AddJob` reads it in
milliseconds; `RescheduleJob` and `UpdateJobExecution` read it in seconds. A period
is the same as another only if nothing but `AddJob` has produced one:
`HertzBeat.DispatchState.samePeriod_iff` says that all the delays and all the
recorded distances of a job agree exactly in the runs in which the job is never
executed.
-/

namespace HertzBeat

open Runs

namespace DispatchState

variable {s s' : DispatchState} {ev tr : List DispatchEvent} {j : Job}

/-! ### The property -/

/-- The period that an event shows, and of which job: a delay given to the wheel, or the
distance to a next execution that was recorded. -/
def periodOf : DispatchEvent → Option (Job × ℤ)
  | .added j _ delay => some (j, delay)
  | .rescheduled j _ delay => some (j, delay)
  | .recorded j now next => some (j, next - now)
  | _ => none

/-- A period of the job that the run shows. -/
def Period (j : Job) (tr : List DispatchEvent) (p : ℤ) : Prop :=
  ∃ e ∈ tr, periodOf e = some (j, p)

/-- **Every period of the job is the same.** -/
def SamePeriod (j : Job) (tr : List DispatchEvent) : Prop :=
  ∀ p p', Period j tr p → Period j tr p' → p = p'

/-- The step executes the job: it begins a `Run` under the id the job is registered
with, or it reschedules the job. -/
def Executes (j : Job) (s : DispatchState) : DispatchAct → Prop
  | .begin r _ => ∃ x ∈ s.runs, x.timeout = r ∧
      ∃ info, s.td.jobInfos.lookup x.job.id = some info ∧ info.job = j
  | .reschedule r _ => ∃ x ∈ s.runs, x.timeout = r ∧ x.job = j
  | _ => False

/-! ### What a step shows -/

/-- A step that does not execute the job shows no period of it but that of `AddJob`. -/
theorem period_of_not_executes (hwf : s.WellFormed) {a : DispatchAct} (hok : ¬Executes j s a)
    (hs : s.step a = some (s', ev)) {p : ℤ} (hp : Period j ev p) : p = firstDelay j := by
  obtain ⟨e, he, hp⟩ := hp
  cases emits_of_mem hwf hs he with
  | added h =>
    obtain ⟨rfl, rfl⟩ := Prod.mk.inj (Option.some.inj hp)
    rfl
  | addRecorded h =>
    obtain ⟨rfl, rfl⟩ := Prod.mk.inj (Option.some.inj hp)
    omega
  | removed h => exact absurd hp (by simp [periodOf])
  | beginRecorded h hinfo =>
    obtain ⟨rfl, -⟩ := Prod.mk.inj (Option.some.inj hp)
    exact absurd ⟨_, h.run_mem, h.timeout_eq, _, hinfo, rfl⟩ hok
  | dispatched h => exact absurd hp (by simp [periodOf])
  | rescheduled hx hr h =>
    obtain ⟨rfl, -⟩ := Prod.mk.inj (Option.some.inj hp)
    exact absurd ⟨_, hx, hr, rfl⟩ hok
  | rescheduleRecorded hx hr h =>
    obtain ⟨rfl, -⟩ := Prod.mk.inj (Option.some.inj hp)
    exact absurd ⟨_, hx, hr, rfl⟩ hok

/-- A step that executes the job shows the period of `RescheduleJob`. -/
theorem period_of_executes (hwf : s.WellFormed) (hcyc : j.isCyclic)
    (hpos : 0 < j.defaultInterval) (hnonneg : 0 ≤ nextDelay j) {a : DispatchAct}
    (hex : Executes j s a) (hs : s.step a = some (s', ev)) : Period j ev (nextDelay j) := by
  cases a with
  | begin r now =>
    obtain ⟨x, hx, hxr, info, hinfo, rfl⟩ := hex
    obtain ⟨y, hb⟩ := step_begin hs
    obtain rfl := hwf.run_unique hx hb.run_mem (hxr.trans hb.timeout_eq.symm)
    refine ⟨.recorded info.job now (now + nextDelay info.job), ?_, ?_⟩
    · rw [hb.ev_eq]
      simp [hinfo, hcyc, hpos]
    · simp [periodOf]
  | reschedule r now =>
    obtain ⟨x, hx, hxr, rfl⟩ := hex
    obtain ⟨y, hy, hyr, -, ⟨-, -, p, hp⟩ | ⟨o, hr⟩⟩ := step_reschedule hwf hs
    · -- the delay is not negative, so the wheel does not panic
      obtain rfl := hwf.run_unique hx hy (hxr.trans hyr.symm)
      have hindex : 0 ≤ (s.td.wheelTimer.currentTick +
          (nextDelay x.job).tdiv s.td.wheelTimer.tickDuration).tmod s.td.wheelTimer.wheelSize := by
        refine Int.tmod_nonneg _ (add_nonneg (Int.natCast_nonneg _) ?_)
        exact Int.tdiv_nonneg hnonneg s.td.wheelTimer.tickDuration_pos.le
      obtain ⟨w', o, hnew⟩ := HashedWheelTimer.exists_newTimeout ⟨x.job⟩ now hindex
      rw [hnew] at hp
      exact absurd hp (by simp)
    · obtain rfl := hwf.run_unique hx hy (hxr.trans hyr.symm)
      refine ⟨.rescheduled x.job o (nextDelay x.job), ?_, rfl⟩
      rw [hr.ev_eq]
      exact List.mem_cons_self
  | _ => exact absurd hex (by simp [Executes])

/-! ### Milliseconds and seconds -/

theorem firstDelay_eq (hpos : 0 < j.defaultInterval)
    (hbound : j.defaultInterval * Go.second < 2 ^ 63) :
    firstDelay j = j.defaultInterval * Go.millisecond := by
  unfold Go.second at hbound
  rw [firstDelay, if_pos hpos, Go.wrap64_of_range] <;> unfold Go.millisecond <;> omega

theorem nextDelay_eq (hpos : 0 < j.defaultInterval)
    (hbound : j.defaultInterval * Go.second < 2 ^ 63) :
    nextDelay j = j.defaultInterval * Go.second := by
  rw [nextDelay, Go.wrap64_of_range _ hbound]
  unfold Go.second
  omega

theorem added_delay_of_exec {now : ℤ} {as : List DispatchAct}
    (h : exec DispatchState.step (init now) as = some (s, tr)) {o : Option ℕ} {d : ℤ}
    (hadded : .added j o d ∈ tr) : d = firstDelay j := by
  have hall := forall_mem_of_exec (Q := fun e => ∀ j o d, e = .added j o d → d = firstDelay j)
    (wellFormed_init now) (fun s a s' ev hwf hs => ⟨WellFormed.step hwf hs, ?_⟩) h
  · exact hall _ hadded j o d rfl
  · rintro e he j o d rfl
    cases emits_of_mem hwf hs he with
    | added h => rfl

/-- **Every period of a job is the same exactly if the job is never executed**, for any
cyclic job with an interval that does not overflow. -/
theorem samePeriod_iff {now : ℤ} {as : List DispatchAct}
    (h : exec DispatchState.step (init now) as = some (s, tr)) (hcyc : j.isCyclic)
    (hpos : 0 < j.defaultInterval) (hbound : j.defaultInterval * Go.second < 2 ^ 63)
    {o : Option ℕ} {d : ℤ} (hadded : .added j o d ∈ tr) :
    SamePeriod j tr ↔
      Meets DispatchState.step (fun s a => ¬Executes j s a) (init now) as := by
  have hfirst := firstDelay_eq hpos hbound
  have hnext := nextDelay_eq hpos hbound
  have hne : firstDelay j ≠ nextDelay j := by
    rw [hfirst, hnext]
    unfold Go.millisecond Go.second
    omega
  constructor
  · intro hsame
    by_contra hm
    -- the first step that executes the job shows the other period
    obtain ⟨pre, a, post, s₁, tr₁, rfl, hpre, hex⟩ := exists_of_not_meets hm
    rw [not_not] at hex
    obtain ⟨s₁', tr₁', tr₂, hpre', hrest, rfl⟩ := exec_append.mp h
    obtain ⟨rfl, rfl⟩ := Prod.mk.inj (Option.some.inj (hpre'.symm.trans hpre))
    obtain ⟨s₂, ev, tr₃, hs, -, rfl⟩ := exec_cons.mp hrest
    have hwf := wellFormed_of_exec hpre
    obtain ⟨e, he, hp⟩ := period_of_executes hwf hcyc hpos (by rw [hnext]; unfold Go.second; omega)
      hex hs
    have hd : d = firstDelay j := added_delay_of_exec h hadded
    refine hne (hsame _ _ ⟨_, hadded, by rw [periodOf, hd]⟩ ⟨e, ?_, hp⟩)
    simp [he]
  · intro hm p p' hp hp'
    have hall := forall_mem_of_exec_meets (Q := fun e => ∀ p, periodOf e = some (j, p) →
      p = firstDelay j) (wellFormed_init now)
      (fun s a s' ev hwf hok hs => ⟨WellFormed.step hwf hs, fun e he p hp =>
        period_of_not_executes hwf hok hs ⟨e, he, hp⟩⟩) hm h
    obtain ⟨e, he, hp⟩ := hp
    obtain ⟨e', he', hp'⟩ := hp'
    rw [hall e he p hp, hall e' he' p' hp']

/-- A job that waits for its first turn. -/
theorem samePeriod_waiting :
    ∃ s tr, exec DispatchState.step (init 0)
        [.addJob (some (Job.bare 7 true 60)) 0, .start, .tick] = some (s, tr) ∧
      SamePeriod (Job.bare 7 true 60) tr := by
  have hm : Meets DispatchState.step (fun s a => ¬Executes (Job.bare 7 true 60) s a) (init 0)
      [.addJob (some (Job.bare 7 true 60)) 0, .start, .tick] :=
    ⟨not_false, fun _ _ _ => ⟨not_false, fun _ _ _ => ⟨not_false, fun _ _ _ => trivial⟩⟩⟩
  have hrun : exec DispatchState.step (init 0)
      [.addJob (some (Job.bare 7 true 60)) 0, .start, .tick] =
      some (_, [.added (Job.bare 7 true 60) (some 0) (firstDelay (Job.bare 7 true 60)),
        .recorded (Job.bare 7 true 60) 0 (0 + firstDelay (Job.bare 7 true 60))]) := rfl
  exact ⟨_, _, hrun, (samePeriod_iff hrun rfl (by decide) (by decide) List.mem_cons_self).mpr hm⟩

/-- **A job with an interval of 100**: it is first executed 100 milliseconds after it was
added, and then every 100 seconds. -/
theorem not_samePeriod_executed :
    ∃ s tr, exec DispatchState.step (init 0) [.addJob (some (Job.bare 7 true 100)) 0, .start, .tick,
        .begin 0 0, .complete 0 .ok, .reschedule 0 0] = some (s, tr) ∧
      .added (Job.bare 7 true 100) (some 0) (100 * Go.millisecond) ∈ tr ∧
      .rescheduled (Job.bare 7 true 100) (some 1) (100 * Go.second) ∈ tr ∧
      ¬SamePeriod (Job.bare 7 true 100) tr := by
  have hrun : exec DispatchState.step (init 0) [.addJob (some (Job.bare 7 true 100)) 0, .start,
      .tick, .begin 0 0, .complete 0 .ok, .reschedule 0 0] =
      some (_, [.added (Job.bare 7 true 100) (some 0) (100 * Go.millisecond),
        .recorded (Job.bare 7 true 100) 0 (0 + 100 * Go.millisecond),
        .recorded (Job.bare 7 true 100) 0 (0 + 100 * Go.second),
        .dispatched (Job.bare 7 true 100),
        .rescheduled (Job.bare 7 true 100) (some 1) (100 * Go.second),
        .recorded (Job.bare 7 true 100) 0 (0 + 100 * Go.second)]) := rfl
  refine ⟨_, _, hrun, by simp, by simp, fun hsame => ?_⟩
  have heq := hsame (100 * Go.millisecond) (100 * Go.second)
    ⟨.added (Job.bare 7 true 100) (some 0) (100 * Go.millisecond), by simp, rfl⟩
    ⟨.rescheduled (Job.bare 7 true 100) (some 1) (100 * Go.second), by simp, rfl⟩
  exact absurd heq (by decide)

end DispatchState

end HertzBeat
