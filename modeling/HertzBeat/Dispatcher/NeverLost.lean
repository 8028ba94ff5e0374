import HertzBeat.Dispatcher.DispatchSteps

/-!
# A cyclic job is not lost

A cyclic job that was added should always have a timeout armed or a `Run` in flight.
`Run` reschedules the job on one of its ways out only: if `DispatchMetricsTask`
returns an error, or panics, `Run` ends without it, and the job stays registered
with nothing that will ever run it again. The rescheduling can also panic itself,
when the interval is so long that the delay in nanoseconds overflows and the bucket
index comes out negative.

`HertzBeat.DispatchState.live_of_exec`: on any other way the job is kept.
-/

namespace HertzBeat

open Runs

namespace DispatchState

variable {s s' : DispatchState} {ev tr : List DispatchEvent} {j : Job}

/-- The job was added, and it was not removed since. -/
def Scheduled (j : Job) (tr : List DispatchEvent) : Prop :=
  ∃ pre o d post, tr = pre ++ .added j o d :: post ∧ .removed j.id ∉ post

/-- Every dispatch of the job returns nil, and the job is rescheduled only when the
bucket index this gives is not negative. -/
def Succeeds (j : Job) (s : DispatchState) : DispatchAct → Prop
  | .complete r outcome => ∀ x ∈ s.runs, x.timeout = r → x.job = j → outcome = .ok
  | .reschedule r _ => ∀ x ∈ s.runs, x.timeout = r → x.job = j →
      0 ≤ (s.td.wheelTimer.currentTick +
        (nextDelay j).tdiv s.td.wheelTimer.tickDuration).tmod s.td.wheelTimer.wheelSize
  | _ => True

theorem scheduled_append (h : Scheduled j (tr ++ ev)) :
    (Scheduled j tr ∧ .removed j.id ∉ ev) ∨ ∃ o d, .added j o d ∈ ev := by
  obtain ⟨pre, o, d, post, heq, hpost⟩ := h
  rcases List.append_eq_append_iff.mp heq with ⟨l, hpre, hev⟩ | ⟨l, htr, hl⟩
  · exact Or.inr ⟨o, d, by rw [hev]; simp⟩
  · rcases l with _ | ⟨e, l⟩
    · exact Or.inr ⟨o, d, by rw [List.nil_append] at hl; rw [← hl]; simp⟩
    · obtain ⟨rfl, rfl⟩ := List.cons.inj (by simpa using hl)
      rw [List.mem_append, not_or] at hpost
      exact Or.inl ⟨⟨pre, o, d, l, htr, hpost.1⟩, hpost.2⟩

theorem adds_of_mem (hwf : s.WellFormed) {a : DispatchAct} (hs : s.step a = some (s', ev))
    {o : Option ℕ} {d : ℤ} (hmem : .added j o d ∈ ev) :
    ∃ now, a = .addJob (some j) now ∧ s.Adds j now o s' ev := by
  cases emits_of_mem hwf hs hmem with
  | added h => exact ⟨_, rfl, h⟩

/-! ### Every step keeps a job live, or removes it -/

/-- A removal disarms no timeout of another job. -/
theorem Removes.live (h : s.WellFormed) {id : ℤ} {r r₀ : ℕ} (hr : s.Removes id r₀ s' ev)
    (hl : s.Live j r) : s'.Live j r ∨ .removed j.id ∈ ev := by
  rcases hl with ha | hf
  · rcases eq_or_ne r r₀ with rfl | hne
    · right
      -- what is stored under the id is a timeout of a job with that id
      obtain ⟨j', htask, rfl⟩ : ∃ j', s.td.wheelTimer.task r = some ⟨j'⟩ ∧ j'.id = id := by
        rcases hr.stored with ⟨hc, -⟩ | ⟨-, ht, -⟩
        · exact h.cyclic_task id r hc
        · exact h.temp_task id r ht
      have hj : j = j' := by
        have := ha.2.2.symm.trans htask
        simpa using this
      rw [hr.ev_eq, hj]
      exact List.mem_singleton_self _
    · exact Or.inl (Or.inl ((hr.armed_iff h).mpr ⟨ha, hne⟩))
  · exact Or.inl (Or.inr ((inFlight_of_eq hr.runs_eq).mpr hf))

theorem Completes.live (h : s.WellFormed) (hcyc : j.isCyclic) (hpos : 0 < j.defaultInterval)
    {r r₀ : ℕ} {outcome : Outcome} {x : TaskRun} (hc : s.Completes r₀ outcome x s')
    (hok : Succeeds j s (.complete r₀ outcome)) (hl : s.Live j r) : s'.Live j r := by
  rcases hl with ha | hf
  · exact Or.inl (hc.armed_iff.mpr ha)
  · right
    have hruns := hc.runs_eq
    split_ifs at hruns with hcond
    · exact (inFlight_of_advanceRun hruns).mpr hf
    · refine (inFlight_of_endRun hruns).mpr ⟨hf, ?_⟩
      -- the run that ends here is not one of the job: that would be rescheduled
      rintro rfl
      obtain ⟨y, hy, hyt, rfl⟩ := hf
      obtain rfl := h.run_unique hy hc.run_mem (hyt.trans hc.timeout_eq.symm)
      exact hcond ⟨hok y hy hyt rfl, hcyc, hpos⟩

theorem live_reschedule (h : s.WellFormed) (hstopped : s.td.wheelTimer.stopped = false)
    {r r₀ : ℕ} {now : ℤ} (hs : s.step (.reschedule r₀ now) = some (s', ev))
    (hok : Succeeds j s (.reschedule r₀ now)) (hl : s.Live j r) : ∃ r', s'.Live j r' := by
  obtain ⟨x, hx, hxt, -, hcase⟩ := step_reschedule h hs
  by_cases hxr : s.InFlight j r ∧ r = r₀
  · -- the run of the job itself: a new timeout is armed
    obtain ⟨⟨y, hy, hyt, rfl⟩, rfl⟩ := hxr
    obtain rfl := h.run_unique hy hx (hyt.trans hxt.symm)
    rcases hcase with ⟨-, -, p, hp⟩ | ⟨o, hr⟩
    · obtain ⟨w', o, hnew⟩ := HashedWheelTimer.exists_newTimeout ⟨y.job⟩ now (hok y hy hyt rfl)
      rw [hnew] at hp
      exact absurd hp (by simp)
    · obtain ⟨r', -, harmed⟩ := hr.asked.exists_armed hstopped
      exact ⟨r', Or.inl harmed⟩
  · have hflight : s.InFlight j r → s.InFlight j r ∧ r ≠ r₀ := fun hf =>
      ⟨hf, fun hr => hxr ⟨hf, hr⟩⟩
    rcases hcase with ⟨rfl, -, -⟩ | ⟨o, hr⟩
    · exact ⟨r, hl.imp id fun hf => (inFlight_of_endRun rfl).mpr (hflight hf)⟩
    · exact ⟨r, hl.imp (fun ha => (hr.asked.armed_iff _ _).mpr (Or.inl ha))
        fun hf => (inFlight_of_endRun hr.runs_eq).mpr (hflight hf)⟩

/-- **One step keeps the job live**, unless it removes it. -/
theorem Live.step (h : s.WellFormed) (hstopped : s.td.wheelTimer.stopped = false)
    (hcyc : j.isCyclic) (hpos : 0 < j.defaultInterval) {a : DispatchAct} (hok : Succeeds j s a)
    (hstop : a ≠ .stop) (hs : s.step a = some (s', ev)) {r : ℕ} (hl : s.Live j r) :
    (∃ r', s'.Live j r') ∨ .removed j.id ∈ ev := by
  cases a with
  | addJob job now =>
    left
    rcases job with _ | j'
    · obtain ⟨rfl, -⟩ := step_addJob_nil hs
      exact ⟨r, hl⟩
    · obtain ⟨o, ha⟩ := step_addJob h hs
      exact ⟨r, hl.imp (fun harmed => (ha.asked.armed_iff _ _).mpr (Or.inl harmed))
        (inFlight_of_eq ha.runs_eq).mpr⟩
  | removeJob id =>
    rcases step_removeJob hs with ⟨hi, -⟩ | ⟨r₀, hr⟩
    · exact Or.inl ⟨r, hi.live_iff.mpr hl⟩
    · exact (hr.live h hl).imp (fun hl' => ⟨r, hl'⟩) fun hrem => hrem
  | start => exact Or.inl ⟨r, (step_start hs).1.live_iff.mpr hl⟩
  | stop => exact absurd rfl hstop
  | tick => exact Or.inl ⟨r, ((step_tick hs).1.live_iff h).mpr hl⟩
  | begin r₀ now =>
    obtain ⟨x, hb⟩ := step_begin hs
    exact Or.inl ⟨r, hl.imp hb.armed_iff.mpr (inFlight_of_advanceRun hb.runs_eq).mpr⟩
  | complete r₀ outcome =>
    obtain ⟨x, hc, -⟩ := step_complete hs
    exact Or.inl ⟨r, hc.live h hcyc hpos hok hl⟩
  | reschedule r₀ now => exact Or.inl (live_reschedule h hstopped hs hok hl)

/-- **A cyclic job that was added and not removed is live**, in every run that does not
stop the dispatcher and in which the job's dispatches succeed. -/
theorem live_of_exec {now : ℤ} {as : List DispatchAct}
    (h : exec DispatchState.step (init now) as = some (s, tr)) (hstop : .stop ∉ as)
    (hcyc : j.isCyclic) (hpos : 0 < j.defaultInterval) (hsched : Scheduled j tr)
    (hm : Meets DispatchState.step (Succeeds j) (init now) as) :
    (∃ r, s.Armed j r) ∨ ∃ r, s.InFlight j r := by
  -- the invariant needs the wheel unstopped as well, which the acts alone decide
  have hm' : Meets DispatchState.step (fun s a => Succeeds j s a ∧ a ≠ .stop) (init now) as :=
    hm.and_forall fun a ha hc => hstop (hc ▸ ha)
  have hinv : s.WellFormed ∧ s.td.wheelTimer.stopped = false ∧
      (Scheduled j tr → ∃ r, s.Live j r) := by
    refine @exec_induction_meets _ _ _ _ _ (fun s tr => s.WellFormed ∧
      s.td.wheelTimer.stopped = false ∧ (Scheduled j tr → ∃ r, s.Live j r)) _ ?_ ?_ _ _ _ hm' h
    · refine ⟨wellFormed_init now, rfl, ?_⟩
      rintro ⟨pre, o, d, post, heq, -⟩
      exact absurd heq (by simp)
    · rintro s tr a s' ev ⟨hwf, hstopped, hlive⟩ ⟨hok, hne⟩ hs
      have hstopped' : s'.td.wheelTimer.stopped = false :=
        (stopped_of_step hwf hs hne).trans hstopped
      refine ⟨hwf.step hs, hstopped', fun hs' => ?_⟩
      rcases scheduled_append hs' with ⟨hold, hrem⟩ | ⟨o, d, hadded⟩
      · obtain ⟨r, hr⟩ := hlive hold
        rcases hr.step hwf hstopped hcyc hpos hok hne hs with hl | hc
        · exact hl
        · exact absurd hc hrem
      · -- this step adds the job: the wheel is not stopped, so it armed a timeout
        obtain ⟨now', rfl, ha⟩ := adds_of_mem hwf hs hadded
        obtain ⟨r, -, harmed⟩ := ha.asked.exists_armed hstopped
        exact ⟨r, Or.inl harmed⟩
  obtain ⟨r, hr⟩ := hinv.2.2 hsched
  exact hr.imp (fun ha => ⟨r, ha⟩) fun hf => ⟨r, hf⟩

/-- A job whose first dispatch succeeds. -/
theorem live_after_success :
    ∃ s tr, exec DispatchState.step (init 0) [.addJob (some (Job.bare 7 true 100)) 0, .start, .tick,
        .begin 0 0, .complete 0 .ok, .reschedule 0 0] = some (s, tr) ∧
      Scheduled (Job.bare 7 true 100) tr ∧
      ((∃ r, s.Armed (Job.bare 7 true 100) r) ∨ ∃ r, s.InFlight (Job.bare 7 true 100) r) := by
  have hm : Meets DispatchState.step (fun s a => (match a with
      | .complete _ outcome => decide (outcome = .ok)
      | .reschedule _ _ => s.runs.all fun x => decide (0 ≤ (s.td.wheelTimer.currentTick +
          (nextDelay x.job).tdiv s.td.wheelTimer.tickDuration).tmod s.td.wheelTimer.wheelSize)
      | _ => true) = true) (init 0) [.addJob (some (Job.bare 7 true 100)) 0, .start, .tick,
        .begin 0 0, .complete 0 .ok, .reschedule 0 0] :=
    meets_of_checks rfl
  have hok : Meets DispatchState.step (Succeeds (Job.bare 7 true 100)) (init 0)
      [.addJob (some (Job.bare 7 true 100)) 0, .start, .tick, .begin 0 0, .complete 0 .ok,
        .reschedule 0 0] := by
    refine hm.mono fun s a ha => ?_
    cases a with
    | complete r outcome => exact fun _ _ _ _ => by simpa using ha
    | reschedule r now =>
      rintro x hx - hj
      simpa [hj] using List.all_eq_true.mp ha x hx
    | _ => trivial
  have hrun : exec DispatchState.step (init 0) [.addJob (some (Job.bare 7 true 100)) 0, .start,
      .tick, .begin 0 0, .complete 0 .ok, .reschedule 0 0] =
      some (_, [.added (Job.bare 7 true 100) (some 0) (firstDelay (Job.bare 7 true 100)),
        .recorded (Job.bare 7 true 100) 0 (0 + firstDelay (Job.bare 7 true 100)),
        .recorded (Job.bare 7 true 100) 0 (0 + nextDelay (Job.bare 7 true 100)),
        .dispatched (Job.bare 7 true 100),
        .rescheduled (Job.bare 7 true 100) (some 1) (nextDelay (Job.bare 7 true 100)),
        .recorded (Job.bare 7 true 100) 0 (0 + nextDelay (Job.bare 7 true 100))]) := rfl
  refine ⟨_, _, hrun, ⟨[], _, _, _, rfl, by simp⟩, ?_⟩
  exact live_of_exec hrun (by simp) rfl (by decide) ⟨[], _, _, _, rfl, by simp⟩ hok

/-- **A job is lost with the first dispatch that fails.** It is still registered, and
nothing will run it again. -/
theorem not_live_after_error :
    ∃ s tr, exec DispatchState.step (init 0) [.addJob (some (Job.bare 7 true 100)) 0, .start, .tick,
        .begin 0 0, .complete 0 .error] = some (s, tr) ∧
      Scheduled (Job.bare 7 true 100) tr ∧ s.td.cyclicTasks.lookup 7 = some (some 0) ∧
      ¬((∃ r, s.Armed (Job.bare 7 true 100) r) ∨ ∃ r, s.InFlight (Job.bare 7 true 100) r) := by
  have hdead : ∀ s : DispatchState, s.WellFormed → s.liveTimeouts 7 = [] →
      ¬((∃ r, s.Armed (Job.bare 7 true 100) r) ∨ ∃ r, s.InFlight (Job.bare 7 true 100) r) := by
    rintro s hwf hnil hl
    obtain ⟨r, hr⟩ : ∃ r, s.Live (Job.bare 7 true 100) r :=
      hl.elim (fun ⟨r, ha⟩ => ⟨r, Or.inl ha⟩) fun ⟨r, hf⟩ => ⟨r, Or.inr hf⟩
    have hmem : r ∈ s.liveTimeouts 7 := hwf.mem_liveTimeouts.mpr ⟨_, rfl, hr⟩
    rw [hnil] at hmem
    exact absurd hmem (by simp)
  have hrun : exec DispatchState.step (init 0) [.addJob (some (Job.bare 7 true 100)) 0, .start,
      .tick, .begin 0 0, .complete 0 .error] =
      some (_, [.added (Job.bare 7 true 100) (some 0) (firstDelay (Job.bare 7 true 100)),
        .recorded (Job.bare 7 true 100) 0 (0 + firstDelay (Job.bare 7 true 100)),
        .recorded (Job.bare 7 true 100) 0 (0 + nextDelay (Job.bare 7 true 100)),
        .dispatched (Job.bare 7 true 100)]) := rfl
  exact ⟨_, _, hrun, ⟨[], _, _, _, rfl, by simp⟩, rfl,
    hdead _ (wellFormed_of_exec hrun) (by decide +kernel)⟩

end DispatchState

end HertzBeat
