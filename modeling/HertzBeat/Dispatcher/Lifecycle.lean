import HertzBeat.Dispatcher.DispatchSteps
import HertzBeat.Dispatcher.StatsLogging

/-!
# The life of the dispatcher

The dispatcher can be started and stopped any number of times, its wheel only once:
the wheel's flags are never cleared. After the first `Stop` the two are out of step.
A dispatcher that is started again has a wheel that neither ticks nor accepts a
timeout, and whatever asks that wheel for one is given nil, stores it, and reports
success; the next `RemoveJob` or `Stop` then panics over it.

`Start` also makes two goroutines, and neither is watched. The one that takes the
ticks ends when the context is done that `Start` was given, and the dispatcher goes on
to say that it is started. The one that logs the statistics
(`HertzBeat.Dispatcher.StatsLogging`) panics if a `Stop` finds it anywhere but in its
`select`.

A dispatcher with its goroutines is a `HertzBeat.Lifecycle`.
`HertzBeat.Lifecycle.lifecycle_iff`: it is safe to use exactly as long as nothing of
this happens.
-/

namespace HertzBeat

open Runs

namespace DispatchState

variable {s s' : DispatchState} {ev tr : List DispatchEvent}

/-! ### The property -/

/-- Nothing stored is nil, so that `RemoveJob` and `Stop` cannot panic, and a dispatcher
that is started has a wheel that accepts timeouts and ticks. -/
structure LifecycleSafe (s : DispatchState) : Prop where
  cyclic_stored : ∀ id o, s.td.cyclicTasks.lookup id = some o → o ≠ none
  temp_stored : ∀ id o, s.td.tempTasks.lookup id = some o → o ≠ none
  removeJob_ok : ∀ id, ∃ p, s.td.removeJob id = .ok p
  stop_ok : ∃ td, s.td.stop = .ok td
  ticking : s.td.started = true →
    s.td.wheelTimer.stopped = false ∧ s.td.wheelTimer.running = true

/-- **A safe step**: the state after it is safe, and a job that `AddJob` accepted has a
timeout in the wheel. -/
def SafeStep (_ : DispatchState) (a : DispatchAct) (s' : DispatchState) : Prop :=
  s'.LifecycleSafe ∧ ∀ j now, a = .addJob (some j) now → ∃ r, s'.Armed j r

/-- The steps that a stopped wheel does not bear. -/
def NeedsWheel : DispatchAct → Bool
  | .start | .addJob (some _) _ | .reschedule _ _ => true
  | _ => false

/-! ### The two state machines in step -/

/-- **The dispatcher and its wheel are in step**, and nothing stored is nil. -/
structure InStep (s : DispatchState) : Prop where
  wellFormed : s.WellFormed
  cyclic_stored : ∀ id o, s.td.cyclicTasks.lookup id = some o → o ≠ none
  temp_stored : ∀ id o, s.td.tempTasks.lookup id = some o → o ≠ none
  on : s.td.started = true → s.td.wheelTimer.flags = (true, false, true)
  off : s.td.started = false → s.td.wheelTimer.started = true → s.td.wheelTimer.stopped = true

theorem inStep_init (now : ℤ) : (init now).InStep where
  wellFormed := wellFormed_init now
  cyclic_stored := fun id o h => absurd h (by simp [init, TimeDispatch.newTimeDispatch])
  temp_stored := fun id o h => absurd h (by simp [init, TimeDispatch.newTimeDispatch])
  on := fun h => absurd h (by simp [init, TimeDispatch.newTimeDispatch])
  off := fun _ h => absurd h (by
    simp [init, TimeDispatch.newTimeDispatch, HashedWheelTimer.newHashedWheelTimer])

/-- A step that touches no flag and stores no nil. -/
theorem InStep.of_flags (h : s.InStep) (hwf : s'.WellFormed)
    (hflags : s'.td.wheelTimer.flags = s.td.wheelTimer.flags ∧ s'.td.started = s.td.started)
    (hc : ∀ id, s'.td.cyclicTasks.lookup id = some none →
      s.td.cyclicTasks.lookup id = some none)
    (ht : ∀ id, s'.td.tempTasks.lookup id = some none → s.td.tempTasks.lookup id = some none) :
    s'.InStep where
  wellFormed := hwf
  cyclic_stored := by
    rintro id o hl rfl
    exact h.cyclic_stored id none (hc id hl) rfl
  temp_stored := by
    rintro id o hl rfl
    exact h.temp_stored id none (ht id hl) rfl
  on := fun hon => hflags.1.trans (h.on (hflags.2 ▸ hon))
  off := fun hoff hst => by
    have hstarted := congrArg Prod.fst hflags.1
    have hstopped := congrArg (fun f => f.2.1) hflags.1
    exact hstopped.trans (h.off (hflags.2 ▸ hoff) (hstarted.symm.trans hst))

theorem lookup_insert_none {m : Go.Map ℤ (Option ℕ)} {id id' : ℤ} {r : ℕ}
    (h : (m.insert id (some r)).lookup id' = some none) : m.lookup id' = some none :=
  (Go.lookup_of_lookup_insert h).resolve_left fun hnew => absurd hnew.2 (by simp)

theorem InStep.starts (h : s.InStep) (hstopped : s.td.wheelTimer.stopped = false)
    (hs : s.Starts s') : s'.InStep where
  wellFormed := hs.wellFormed h.wellFormed
  cyclic_stored := hs.cyclic_eq ▸ h.cyclic_stored
  temp_stored := hs.temp_eq ▸ h.temp_stored
  on := fun _ => by
    rw [hs.wheel_eq]
    rcases hon : s.td.started with _ | _
    · -- a wheel that is not stopped was not started while the dispatcher was off
      have hws : s.td.wheelTimer.started = false := by
        rcases hws : s.td.wheelTimer.started with _ | _
        · rfl
        · rw [h.off hon hws] at hstopped
          exact absurd hstopped (by simp)
      simp [HashedWheelTimer.start, HashedWheelTimer.flags, hws, hstopped]
    · exact h.on hon
  off := fun hoff => absurd (hs.started.symm.trans hoff) (by simp)

theorem Stops.inStep (h : s.WellFormed) (hs : s.Stops s') : s'.InStep where
  wellFormed := hs.wellFormed h
  cyclic_stored := fun id o hl => by
    rw [hs.cyclic_eq] at hl
    exact absurd hl (by simp)
  temp_stored := fun id o hl => by
    rw [hs.temp_eq] at hl
    exact absurd hl (by simp)
  on := fun hon => absurd (hs.started.symm.trans hon) (by simp)
  off := fun _ _ => hs.stopped

/-- **The two stay in step**, as long as nothing asks anything of a stopped wheel. -/
theorem InStep.step (h : s.InStep) {a : DispatchAct}
    (hok : s.td.wheelTimer.stopped = true → NeedsWheel a = false)
    (hs : s.step a = some (s', ev)) : s'.InStep := by
  have hwf' := h.wellFormed.step hs
  -- the contrapositive of the hypothesis, for the steps that need the wheel
  have hrunning : NeedsWheel a = true → s.td.wheelTimer.stopped = false := fun hn => by
    by_contra hc
    rw [hok (by simpa using hc)] at hn
    exact absurd hn (by simp)
  cases a with
  | addJob job now =>
    rcases job with _ | j
    · obtain ⟨rfl, -⟩ := step_addJob_nil hs
      exact h
    · obtain ⟨o, ha⟩ := step_addJob h.wellFormed hs
      obtain ⟨r, rfl, -⟩ := ha.asked.exists_armed (hrunning rfl)
      refine h.of_flags hwf' (flags_of_step h.wellFormed hs (by simp) (by simp)) ?_ ?_
      · intro id hl
        rw [ha.cyclic_eq] at hl
        split_ifs at hl
        · exact lookup_insert_none hl
        · exact hl
      · intro id hl
        rw [ha.temp_eq] at hl
        split_ifs at hl
        · exact hl
        · exact lookup_insert_none hl
  | removeJob id =>
    have hflags := flags_of_step h.wellFormed hs (by simp) (by simp)
    rcases step_removeJob hs with ⟨hi, -⟩ | ⟨r, hr⟩
    · exact h.of_flags hwf' hflags (fun _ hl => hi.cyclic_eq ▸ hl) (fun _ hl => hi.temp_eq ▸ hl)
    · exact h.of_flags hwf' hflags (fun _ hl => hr.cyclic_of_lookup hl)
        (fun _ hl => hr.temp_of_lookup hl)
  | start => exact h.starts (hrunning rfl) (step_start hs).1
  | stop =>
    rcases (step_stop h.wellFormed hs).2 with ⟨-, rfl⟩ | hst
    · exact h
    · exact hst.inStep h.wellFormed
  | tick =>
    obtain ⟨ht, -⟩ := step_tick hs
    exact h.of_flags hwf' (flags_of_step h.wellFormed hs (by simp) (by simp))
      (fun _ hl => by rwa [ht.td_eq] at hl) (fun _ hl => by rwa [ht.td_eq] at hl)
  | begin r now =>
    obtain ⟨x, hb⟩ := step_begin hs
    exact h.of_flags hwf' (flags_of_step h.wellFormed hs (by simp) (by simp))
      (fun _ hl => hb.cyclic_eq ▸ hl) (fun _ hl => hb.temp_eq ▸ hl)
  | complete r outcome =>
    obtain ⟨x, hc, -⟩ := step_complete hs
    exact h.of_flags hwf' (flags_of_step h.wellFormed hs (by simp) (by simp))
      (fun _ hl => hc.cyclic_eq ▸ hl) (fun _ hl => hc.temp_eq ▸ hl)
  | reschedule r now =>
    have hflags := flags_of_step h.wellFormed hs (by simp) (by simp)
    obtain ⟨x, -, -, -, ⟨rfl, -⟩ | ⟨o, hr⟩⟩ := step_reschedule h.wellFormed hs
    · exact h.of_flags hwf' hflags (fun _ hl => hl) (fun _ hl => hl)
    · obtain ⟨r', rfl, -⟩ := hr.asked.exists_armed (hrunning rfl)
      exact h.of_flags hwf' hflags (fun _ hl => lookup_insert_none (hr.cyclic_eq ▸ hl))
        (fun _ hl => hr.temp_eq ▸ hl)

/-! ### Being in step is being safe -/

theorem none_not_mem_values {m : Go.Map ℤ (Option ℕ)}
    (h : ∀ id o, m.lookup id = some o → o ≠ none) : none ∉ m.entries.map Sigma.snd := by
  intro hmem
  obtain ⟨⟨id, o⟩, hid, rfl⟩ := List.mem_map.mp hmem
  exact h id none (AList.mem_lookup_iff.mpr hid) rfl

theorem InStep.removeJob_ok (h : s.InStep) (id : ℤ) : ∃ p, s.td.removeJob id = .ok p := by
  rcases hc : s.td.cyclicTasks.lookup id with _ | o
  · rcases ht : s.td.tempTasks.lookup id with _ | o
    · simp [TimeDispatch.removeJob, hc, ht]
    · obtain ⟨r, rfl⟩ := Option.ne_none_iff_exists'.mp (h.temp_stored id o ht)
      simp [TimeDispatch.removeJob, hc, ht, cancelStored]
  · obtain ⟨r, rfl⟩ := Option.ne_none_iff_exists'.mp (h.cyclic_stored id o hc)
    simp [TimeDispatch.removeJob, hc, cancelStored]

theorem InStep.stop_ok (h : s.InStep) : ∃ td, s.td.stop = .ok td := by
  rcases hon : s.td.started with _ | _
  · exact ⟨s.td, by simp [TimeDispatch.stop, hon, pure, Except.pure]⟩
  · -- no loop meets a nil, and a wheel that ticks has a context to cancel
    obtain ⟨w₁, h₁⟩ := exists_cancelAll (none_not_mem_values h.cyclic_stored) s.td.wheelTimer
    obtain ⟨w₂, h₂⟩ := exists_cancelAll (none_not_mem_values h.temp_stored) w₁
    have hc₁ := cancelledAll_of_ok h.wellFormed.wheel h₁
    have hflags : w₂.flags = (true, false, true) :=
      ((cancelledAll_of_ok hc₁.wellFormed h₂).flags_eq.trans hc₁.flags_eq).trans (h.on hon)
    have hstarted : w₂.started = true := congrArg Prod.fst hflags
    have hstopped : w₂.stopped = false := congrArg (fun f => f.2.1) hflags
    simp [TimeDispatch.stop, hon, h₁, h₂, HashedWheelTimer.stop, hstarted, hstopped, bind,
      Except.bind, pure, Except.pure]

theorem InStep.lifecycleSafe (h : s.InStep) : s.LifecycleSafe where
  cyclic_stored := h.cyclic_stored
  temp_stored := h.temp_stored
  removeJob_ok := h.removeJob_ok
  stop_ok := h.stop_ok
  ticking := fun hon => by
    have hflags := h.on hon
    exact ⟨congrArg (fun f => f.2.1) hflags, congrArg (fun f => f.2.2) hflags⟩

/-- What needs the wheel is not safe once the wheel is stopped. -/
theorem not_safeStep_of_stopped (h : s.WellFormed) (hstopped : s.td.wheelTimer.stopped = true)
    {a : DispatchAct} (hneeds : NeedsWheel a = true) (hs : s.step a = some (s', ev)) :
    ¬SafeStep s a s' := by
  rintro ⟨hsafe, -⟩
  cases a with
  | start =>
    -- the dispatcher reports that it is started, over a wheel that is not
    have hst := (step_start hs).1
    have hoff := (hsafe.ticking hst.started).1
    rw [stopped_of_step h hs (by simp), hstopped] at hoff
    exact absurd hoff (by simp)
  | addJob job now =>
    rcases job with _ | j
    · exact absurd hneeds (by simp [NeedsWheel])
    · obtain ⟨o, ha⟩ := step_addJob h hs
      obtain rfl := ha.asked.nil_iff.mpr hstopped
      rcases hj : j.isCyclic with _ | _
      · refine hsafe.temp_stored j.id none ?_ rfl
        rw [ha.temp_eq, hj]
        exact AList.lookup_insert _
      · refine hsafe.cyclic_stored j.id none ?_ rfl
        rw [ha.cyclic_eq, if_pos hj]
        exact AList.lookup_insert _
  | reschedule r now =>
    obtain ⟨x, -, -, -, ⟨-, -, p, hp⟩ | ⟨o, hr⟩⟩ := step_reschedule h hs
    · rw [HashedWheelTimer.newTimeout, if_pos hstopped] at hp
      exact absurd hp (by simp)
    · obtain rfl := hr.asked.nil_iff.mpr hstopped
      refine hsafe.cyclic_stored x.job.id none ?_ rfl
      rw [hr.cyclic_eq]
      exact AList.lookup_insert _
  | _ => exact absurd hneeds (by simp [NeedsWheel])

theorem InStep.safeStep_iff (h : s.InStep) {a : DispatchAct} (hs : s.step a = some (s', ev)) :
    SafeStep s a s' ↔ (s.td.wheelTimer.stopped = true → NeedsWheel a = false) := by
  constructor
  · intro hsafe hstopped
    by_contra hc
    exact not_safeStep_of_stopped h.wellFormed hstopped (by simpa using hc) hs hsafe
  · intro hok
    refine ⟨(h.step hok hs).lifecycleSafe, ?_⟩
    rintro j now rfl
    obtain ⟨o, ha⟩ := step_addJob h.wellFormed hs
    rcases o with _ | r
    · exact absurd (hok (ha.asked.nil_iff.mp rfl)) (by simp [NeedsWheel])
    · exact ⟨r, (ha.asked.armed_iff j r).mpr (Or.inr ⟨rfl, rfl⟩)⟩

end DispatchState

/-! ### The dispatcher with its goroutines -/

/-- A goroutine that logs the statistics: the context that `Start` was given, from which
its own is derived, and how far it has come. -/
structure StatsGoroutine where
  ctx : ℕ
  stage : StatsStage

/-- The dispatcher with the goroutines that `Start` makes. Contexts are numbers. -/
structure Lifecycle where
  dispatch : DispatchState
  /-- The contexts that are done. -/
  done : List ℕ
  /-- The context of the goroutine that takes the ticks of the wheel. -/
  wheelCtx : Option ℕ
  /-- The goroutines that log the statistics. -/
  loggers : List StatsGoroutine

/-- A step of the dispatcher or of its goroutines. -/
inductive LifecycleAct where
  /-- A step other than `Start`. -/
  | dispatch (a : DispatchAct)
  | start (ctx : ℕ)
  /-- A context is cancelled by the one who made it. -/
  | cancel (ctx : ℕ)
  /-- The goroutine that takes the ticks finds its context done. -/
  | leave
  /-- A goroutine that logs the statistics goes on. -/
  | stats (i : ℕ) (a : StatsAct)

/-- The step of the dispatcher in a step of the whole. -/
def LifecycleAct.onDispatcher : LifecycleAct → Option DispatchAct
  | .dispatch a => some a
  | .start _ => some .start
  | .cancel _ | .leave | .stats _ _ => none

namespace Lifecycle

/-- A new dispatcher. -/
def init (now : ℤ) : Lifecycle := ⟨DispatchState.init now, [], none, []⟩

/-- The dispatcher itself. -/
abbrev td (s : Lifecycle) : TimeDispatch := s.dispatch.td

/-- Whether the context of a goroutine that logs the statistics is done: it was cancelled,
or the one was from which it is derived. -/
def statsDone (s : Lifecycle) (i : ℕ) (g : StatsGoroutine) : Bool :=
  decide (g.ctx ∈ s.done) || (s.td.statsContexts.read i).getD false

/-- One step. A panic in a goroutine that logs the statistics is the end of the run, as
one in a call is. -/
def step (s : Lifecycle) : LifecycleAct → Option (Lifecycle × List DispatchEvent)
  | .dispatch .start => none
  | .dispatch a => (s.dispatch.step a).map fun p => ({ s with dispatch := p.1 }, p.2)
  | .start ctx =>
    (s.dispatch.step .start).map fun p =>
      ({ s with
        dispatch := p.1
        wheelCtx := if s.td.started || s.td.wheelTimer.started then s.wheelCtx else some ctx
        loggers := if s.td.started then s.loggers else s.loggers ++ [⟨ctx, .created⟩] }, p.2)
  | .cancel ctx => some ({ s with done := ctx :: s.done }, [])
  | .leave =>
    if s.td.wheelTimer.running ∧ ∃ ctx ∈ s.wheelCtx, ctx ∈ s.done then
      some ({ s with dispatch := { s.dispatch with
        td := { s.td with wheelTimer := s.td.wheelTimer.leave } } }, [])
    else none
  | .stats i a =>
    match s.loggers[i]? with
    | none => none
    | some g =>
      match g.stage.step s.td.statsLogger (s.statsDone i g) a with
      | some (.ok stage) =>
        some ({ s with loggers := s.loggers.set i { g with stage := stage } }, [])
      | some (.error _) | none => none

variable {s s' : Lifecycle} {ev tr : List DispatchEvent}

/-! ### What is to hold -/

/-- The dispatcher is safe to use; one that is started has a wheel that goes on ticking,
because the context of its goroutine is not done; and no goroutine that logs the
statistics can come to a panic. -/
structure Safe (s : Lifecycle) : Prop where
  dispatch : s.dispatch.LifecycleSafe
  alive : s.td.started = true → ∃ ctx, s.wheelCtx = some ctx ∧ ctx ∉ s.done
  stats_ok : ∀ (i : ℕ) (g : StatsGoroutine), s.loggers[i]? = some g →
    ∀ as, g.stage.panics s.td.statsLogger (s.statsDone i g) as = false

/-- **A safe step**: the state after it is safe, and a job that `AddJob` accepted has a
timeout in the wheel. -/
def SafeStep (_ : Lifecycle) (a : LifecycleAct) (s' : Lifecycle) : Prop :=
  s'.Safe ∧ ∀ j now, a = .dispatch (.addJob (some j) now) → ∃ r, s'.dispatch.Armed j r

/-- **The steps that are borne**: nothing needs the wheel once that is stopped, the
context that a dispatcher is started with is not done before it is stopped, and it is
stopped while the goroutine that logs the statistics waits in its `select` or has
returned. -/
def Bears (s : Lifecycle) : LifecycleAct → Prop
  | .dispatch .stop => s.td.started = true → ∀ g ∈ s.loggers, g.stage.blocked = true
  | .dispatch a => s.td.wheelTimer.stopped = true → DispatchState.NeedsWheel a = false
  | .start ctx => s.td.wheelTimer.stopped = false ∧ (s.td.started = false → ctx ∉ s.done)
  | .cancel ctx => s.td.started = true → s.wheelCtx ≠ some ctx
  | .leave | .stats _ _ => True

instance (s : Lifecycle) (a : LifecycleAct) : Decidable (s.Bears a) :=
  match a with
  | .dispatch .stop => inferInstanceAs (Decidable (_ → ∀ g ∈ _, _))
  | .dispatch (.addJob _ _) | .dispatch (.removeJob _) | .dispatch .start | .dispatch .tick
  | .dispatch (.begin _ _) | .dispatch (.complete _ _) | .dispatch (.reschedule _ _) =>
    inferInstanceAs (Decidable (_ → _))
  | .start _ => inferInstanceAs (Decidable (_ ∧ (_ → _)))
  | .cancel _ => inferInstanceAs (Decidable (_ → _))
  | .leave | .stats _ _ => inferInstanceAs (Decidable True)

/-! ### What the steps do -/

/-- A step of the dispatcher other than `Start`. -/
theorem step_dispatch {a : DispatchAct} (hs : s.step (.dispatch a) = some (s', ev)) :
    a ≠ .start ∧ ∃ d, s.dispatch.step a = some (d, ev) ∧ s' = { s with dispatch := d } := by
  have hne : a ≠ .start := by
    rintro rfl
    cases hs
  have hstep : s.step (.dispatch a) =
      (s.dispatch.step a).map fun p => ({ s with dispatch := p.1 }, p.2) := by
    cases a with
    | start => exact absurd rfl hne
    | _ => rfl
  obtain ⟨p, hp, hpair⟩ := Option.map_eq_some_iff.mp (hstep.symm.trans hs)
  obtain ⟨rfl, rfl⟩ := Prod.mk.inj hpair
  exact ⟨hne, p.1, hp, rfl⟩

theorem step_start {ctx : ℕ} (hs : s.step (.start ctx) = some (s', ev)) :
    ∃ d, s.dispatch.step .start = some (d, ev) ∧ s' = { s with
      dispatch := d
      wheelCtx := if s.td.started || s.td.wheelTimer.started then s.wheelCtx else some ctx
      loggers := if s.td.started then s.loggers else s.loggers ++ [⟨ctx, .created⟩] } := by
  simp only [Lifecycle.step] at hs
  obtain ⟨p, hp, hpair⟩ := Option.map_eq_some_iff.mp hs
  obtain ⟨rfl, rfl⟩ := Prod.mk.inj hpair
  exact ⟨p.1, hp, rfl⟩

theorem step_stats {i : ℕ} {a : StatsAct} (hs : s.step (.stats i a) = some (s', ev)) :
    ∃ g stage, s.loggers[i]? = some g ∧
      g.stage.step s.td.statsLogger (s.statsDone i g) a = some (.ok stage) ∧
      s' = { s with loggers := s.loggers.set i { g with stage := stage } } ∧ ev = [] := by
  rcases hg : s.loggers[i]? with _ | g
  · simp [Lifecycle.step, hg] at hs
  · rcases hr : g.stage.step s.td.statsLogger (s.statsDone i g) a with _ | _ | stage
    · simp [Lifecycle.step, hg, hr] at hs
    · simp [Lifecycle.step, hg, hr] at hs
    · simp only [Lifecycle.step, hg, hr] at hs
      obtain ⟨rfl, rfl⟩ := Prod.mk.inj (Option.some.inj hs)
      exact ⟨g, stage, rfl, hr, rfl, rfl⟩

theorem step_leave (hs : s.step .leave = some (s', ev)) :
    s.td.wheelTimer.running = true ∧ ∃ ctx, s.wheelCtx = some ctx ∧ ctx ∈ s.done := by
  simp only [Lifecycle.step] at hs
  split_ifs at hs with hleave
  obtain ⟨hrunning, ctx, hctx, hdone⟩ := hleave
  exact ⟨hrunning, ctx, hctx, hdone⟩

/-- **The goroutines do not get in the way of the dispatcher**: as long as the wheel's
does not end, a run of the whole is a run of the dispatcher. -/
theorem exec_dispatch {as : List LifecycleAct} (h : exec Lifecycle.step s as = some (s', tr))
    (hstays : .leave ∉ as) :
    exec DispatchState.step s.dispatch (as.filterMap LifecycleAct.onDispatcher) =
      some (s'.dispatch, tr) := by
  induction as generalizing s tr with
  | nil =>
    obtain ⟨rfl, rfl⟩ := Prod.mk.inj (Option.some.inj h)
    rfl
  | cons a as ih =>
    obtain ⟨s₁, ev₁, tr₁, hs, hrest, rfl⟩ := exec_cons.mp h
    have htail := ih hrest fun hmem => hstays (List.mem_cons_of_mem _ hmem)
    cases a with
    | dispatch a =>
      obtain ⟨-, d, hd, rfl⟩ := step_dispatch hs
      exact exec_cons.mpr ⟨_, _, _, hd, htail, rfl⟩
    | start ctx =>
      obtain ⟨d, hd, rfl⟩ := step_start hs
      exact exec_cons.mpr ⟨_, _, _, hd, htail, rfl⟩
    | cancel ctx =>
      obtain ⟨rfl, rfl⟩ := Prod.mk.inj (Option.some.inj hs)
      exact htail
    | leave => exact absurd List.mem_cons_self hstays
    | stats i a =>
      obtain ⟨g, stage, -, -, rfl, rfl⟩ := step_stats hs
      exact htail

/-! ### The goroutines and the dispatcher in step -/

/-- **The dispatcher, its wheel and its goroutines are in step.** As long as no dispatcher
is started after a `Stop`, there is one goroutine that logs the statistics. -/
structure InStep (s : Lifecycle) : Prop where
  dispatch : s.dispatch.InStep
  ticks : s.td.wheelTimer.running = true → s.td.started = true
  alive : s.td.started = true → ∃ ctx, s.wheelCtx = some ctx ∧ ctx ∉ s.done
  size : s.loggers.length = s.td.statsContexts.size
  fresh : s.td.wheelTimer.started = false → s.loggers = []
  on : s.td.started = true →
    s.loggers.length = 1 ∧ s.td.statsLogger = some 0 ∧ s.td.statsCancel = some 0
  sound : ∀ (i : ℕ) (g : StatsGoroutine), s.loggers[i]? = some g →
    g.stage.Sound s.td.statsLogger (s.statsDone i g)

theorem inStep_init (now : ℤ) : (init now).InStep where
  dispatch := DispatchState.inStep_init now
  ticks := fun h => absurd h Bool.false_ne_true
  alive := fun h => absurd h Bool.false_ne_true
  size := rfl
  fresh := fun _ => rfl
  on := fun h => absurd h Bool.false_ne_true
  sound := fun i g h => absurd h (by simp [init])

theorem InStep.safe (h : s.InStep) : s.Safe where
  dispatch := h.dispatch.lifecycleSafe
  alive := h.alive
  stats_ok := fun i g hg => StatsStage.never_panics_iff.mpr (h.sound i g hg)

/-- A step of the dispatcher that starts and stops nothing. -/
theorem InStep.of_frame (h : s.InStep) {d : DispatchState} (hd : d.InStep)
    (hflags : d.td.wheelTimer.flags = s.td.wheelTimer.flags ∧ d.td.started = s.td.started)
    (hlogging : d.td.statsLogging = s.td.statsLogging) : ({ s with dispatch := d }).InStep := by
  have hstarted : d.td.wheelTimer.started = s.td.wheelTimer.started := congrArg Prod.fst hflags.1
  have hrunning : d.td.wheelTimer.running = s.td.wheelTimer.running :=
    congrArg (fun f => f.2.2) hflags.1
  have hlogger : d.td.statsLogger = s.td.statsLogger := congrArg Prod.fst hlogging
  have hcancel : d.td.statsCancel = s.td.statsCancel := congrArg (fun f => f.2.1) hlogging
  have hcontexts : d.td.statsContexts = s.td.statsContexts := congrArg (fun f => f.2.2) hlogging
  refine ⟨hd, fun hr => ?_, fun hon => ?_, ?_, fun hst => ?_, fun hon => ?_, fun i g hg => ?_⟩
  · exact hflags.2.trans (h.ticks (hrunning.symm.trans hr))
  · exact h.alive (hflags.2.symm.trans hon)
  · exact h.size.trans (congrArg Mem.size hcontexts.symm)
  · exact h.fresh (hstarted.symm.trans hst)
  · obtain ⟨hlen, hl, hc⟩ := h.on (hflags.2.symm.trans hon)
    exact ⟨hlen, hlogger.trans hl, hcancel.trans hc⟩
  · have hsound := h.sound i g hg
    rw [statsDone, ← hlogger, ← hcontexts] at hsound
    exact hsound

/-- A dispatcher that is not started, over a wheel that is not stopped, is a new one. -/
theorem InStep.fresh_of_off (h : s.InStep) (hoff : s.td.started = false)
    (hstopped : s.td.wheelTimer.stopped = false) :
    s.td.wheelTimer.started = false ∧ s.loggers = [] ∧ s.td.statsContexts.size = 0 := by
  have hws : s.td.wheelTimer.started = false := by
    rcases hws : s.td.wheelTimer.started with _ | _
    · rfl
    · exact absurd (hstopped.symm.trans (h.dispatch.off hoff hws)) (by simp)
  have hnil := h.fresh hws
  exact ⟨hws, hnil, h.size.symm.trans (by rw [hnil]; rfl)⟩

theorem eq_of_start {s s' : DispatchState} {ev : List DispatchEvent} (hon : s.td.started = true)
    (hs : s.step .start = some (s', ev)) : s' = s := by
  simp only [DispatchState.step, TimeDispatch.start, hon] at hs
  exact (Prod.mk.inj (Option.some.inj hs)).1.symm

theorem InStep.starts (h : s.InStep) {ctx : ℕ} (hok : s.Bears (.start ctx))
    (hs : s.step (.start ctx) = some (s', ev)) : s'.InStep := by
  obtain ⟨d, hd, rfl⟩ := step_start hs
  rcases hon : s.td.started with _ | _
  · obtain ⟨hws, hnil, hsize⟩ := h.fresh_of_off hon hok.1
    have hst := (DispatchState.step_start hd).1
    have hd' : d.InStep := h.dispatch.step (fun hstopped => absurd (hok.1.symm.trans hstopped)
      (by simp)) hd
    have hflags := hd'.on hst.started
    have hlogging : d.td.statsLogging = s.td.startStatsLogging.statsLogging :=
      hst.logging_eq.trans (if_neg (by rw [show s.dispatch.td.started = false from hon]; simp))
    have hlogger : d.td.statsLogger = some 0 :=
      (congrArg Prod.fst hlogging).trans (congrArg some hsize)
    have hcancel : d.td.statsCancel = some 0 :=
      (congrArg (fun f => f.2.1) hlogging).trans (congrArg some hsize)
    have hcontexts : d.td.statsContexts.size = 1 :=
      (congrArg (fun f => f.2.2.size) hlogging).trans ((Mem.size_alloc _ _).trans (by rw [hsize]))
    simp only [hws, hnil, Bool.or_self, Bool.false_eq_true, if_false, List.nil_append]
    refine ⟨hd', fun _ => hst.started, fun _ => ⟨ctx, rfl, hok.2 hon⟩, hcontexts.symm, ?_,
      fun _ => ⟨rfl, hlogger, hcancel⟩, fun i g hg => ?_⟩
    · intro hoff
      exact absurd ((congrArg Prod.fst hflags).symm.trans hoff) (by simp)
    · obtain ⟨rfl, rfl⟩ : i = 0 ∧ g = ⟨ctx, .created⟩ := by
        rcases i with _ | i
        · exact ⟨rfl, (Option.some.inj hg).symm⟩
        · exact absurd hg (by simp)
      exact (Option.ne_none_iff_exists'.mpr ⟨0, hlogger⟩ : d.td.statsLogger ≠ none)
  · obtain rfl := eq_of_start hon hd
    simp only [Bool.true_or, if_true]
    exact h

/-- What the statistics goroutine finds after a `Stop`. -/
theorem logging_of_stops (h : s.InStep) {d : DispatchState} (hst : s.dispatch.Stops d) :
    d.td.statsLogger = none ∧ d.td.statsContexts = s.td.statsContexts.modify 0 fun _ => true := by
  have hcancel := (h.on hst.before).2.2
  refine ⟨congrArg Prod.fst hst.logging_eq, (congrArg (fun f => f.2.2) hst.logging_eq).trans ?_⟩
  simp only [TimeDispatch.statsLogging, TimeDispatch.stopStatsLogging, hcancel]

theorem InStep.stops (h : s.InStep) {d : DispatchState} (hd : s.dispatch.step .stop = some (d, ev))
    (hst : s.dispatch.Stops d) (hok : ∀ g ∈ s.loggers, g.stage.blocked = true) :
    ({ s with dispatch := d }).InStep := by
  obtain ⟨hlogger, hcontexts⟩ := logging_of_stops h hst
  have hlen := (h.on hst.before).1
  have hflags := h.dispatch.on hst.before
  have hd' : d.InStep := h.dispatch.step (fun _ => rfl) hd
  have hrunning := hst.running (congrArg (fun f => f.2.1) hflags)
  refine ⟨hd', fun hr => ?_, fun hon => ?_, ?_, fun hws => ?_, fun hon => ?_, fun i g hg => ?_⟩
  · exact absurd (hrunning.symm.trans hr) (by simp)
  · exact absurd (hst.started.symm.trans hon) (by simp)
  · exact h.size.trans (by rw [hcontexts, Mem.size_modify])
  · have hstarted : d.td.wheelTimer.started = true :=
      hst.wheel_started.trans (congrArg Prod.fst hflags)
    exact absurd (hstarted.symm.trans hws) (by simp)
  · exact absurd (hst.started.symm.trans hon) (by simp)
  · have hlt := (List.getElem?_eq_some_iff.mp hg).1
    obtain rfl : i = 0 := by
      change i < s.loggers.length at hlt
      omega
    -- its context is cancelled before the ticker is taken away
    have hdone : statsDone { s with dispatch := d } 0 g = true := by
      obtain ⟨b, hb⟩ := Mem.exists_read (show 0 < s.td.statsContexts.size by rw [← h.size]; omega)
      rw [statsDone, hcontexts, Mem.read_modify_self, hb]
      exact Bool.or_true _
    rw [hdone, hlogger]
    exact (h.sound 0 g hg).stopped (hok g (List.mem_of_getElem? hg))

theorem InStep.cancels (h : s.InStep) {ctx : ℕ} (hok : s.Bears (.cancel ctx)) :
    ({ s with done := ctx :: s.done }).InStep := by
  refine ⟨h.dispatch, h.ticks, fun hon => ?_, h.size, h.fresh, h.on, fun i g hg => ?_⟩
  · obtain ⟨c, hc, hdone⟩ := h.alive hon
    have hne : c ≠ ctx := fun heq => hok hon (heq ▸ hc)
    exact ⟨c, hc, fun hmem => (List.mem_cons.mp hmem).elim hne hdone⟩
  · rcases hd : statsDone { s with done := ctx :: s.done } i g with _ | _
    · -- what is not done now was not before
      have hbefore : s.statsDone i g = false := by
        simp only [statsDone, Bool.or_eq_false_iff, decide_eq_false_iff_not,
          List.mem_cons, not_or] at hd ⊢
        exact ⟨hd.1.2, hd.2⟩
      exact hbefore ▸ h.sound i g hg
    · exact (h.sound i g hg).cancelled

theorem InStep.stats (h : s.InStep) {i : ℕ} {g : StatsGoroutine} {a : StatsAct} {stage : StatsStage}
    (hg : s.loggers[i]? = some g)
    (hstep : g.stage.step s.td.statsLogger (s.statsDone i g) a = some (.ok stage)) :
    ({ s with loggers := s.loggers.set i { g with stage := stage } }).InStep := by
  have hlt := (List.getElem?_eq_some_iff.mp hg).1
  refine ⟨h.dispatch, h.ticks, h.alive, ?_, fun hws => ?_, fun hon => ?_, fun k g' hg' => ?_⟩
  · exact (List.length_set).trans h.size
  · rw [h.fresh hws] at hlt
    exact absurd hlt (by simp)
  · obtain ⟨hlen, hrest⟩ := h.on hon
    exact ⟨(List.length_set).trans hlen, hrest⟩
  · rcases eq_or_ne k i with rfl | hne
    · obtain rfl : g' = { g with stage := stage } := by
        rw [List.getElem?_set_self hlt] at hg'
        exact (Option.some.inj hg').symm
      obtain ⟨stage', heq, hsound⟩ := (h.sound k g hg).step hstep
      obtain rfl := Except.ok.inj heq
      exact hsound
    · rw [List.getElem?_set_ne (Ne.symm hne)] at hg'
      exact h.sound k g' hg'

/-- **They stay in step**, as long as only what is borne is done. -/
theorem InStep.step (h : s.InStep) {a : LifecycleAct} (hok : s.Bears a)
    (hs : s.step a = some (s', ev)) : s'.InStep := by
  cases a with
  | dispatch a =>
    obtain ⟨hstart, d, hd, rfl⟩ := step_dispatch hs
    by_cases hstop : a = .stop
    · subst hstop
      rcases (DispatchState.step_stop h.dispatch.wellFormed hd).2 with ⟨-, rfl⟩ | hst
      · exact h
      · exact h.stops hd hst (hok hst.before)
    · have hneeds : s.td.wheelTimer.stopped = true → DispatchState.NeedsWheel a = false := by
        cases a with
        | stop => exact absurd rfl hstop
        | _ => exact hok
      exact h.of_frame (h.dispatch.step hneeds hd)
        (DispatchState.flags_of_step h.dispatch.wellFormed hd hstart hstop)
        (DispatchState.statsLogging_of_step h.dispatch.wellFormed hd hstart hstop)
  | start ctx => exact h.starts hok hs
  | cancel ctx =>
    obtain ⟨rfl, -⟩ := Prod.mk.inj (Option.some.inj hs)
    exact h.cancels hok
  | leave =>
    -- the context of a wheel that ticks is not done
    obtain ⟨hrunning, ctx, hctx, hdone⟩ := step_leave hs
    obtain ⟨c, hc, hnot⟩ := h.alive (h.ticks hrunning)
    obtain rfl := Option.some.inj (hctx.symm.trans hc)
    exact absurd hdone hnot
  | stats i a =>
    obtain ⟨g, stage, hg, hstep, rfl, -⟩ := step_stats hs
    exact h.stats hg hstep

/-! ### What is not borne is not safe -/

theorem InStep.bears_of_safeStep (h : s.InStep) {a : LifecycleAct} (hsafe : SafeStep s a s')
    (hs : s.step a = some (s', ev)) : s.Bears a := by
  have hwf := h.dispatch.wellFormed
  cases a with
  | dispatch a =>
    obtain ⟨-, d, hd, rfl⟩ := step_dispatch hs
    by_cases hstop : a = .stop
    · subst hstop
      intro hon g hg
      rcases (DispatchState.step_stop hwf hd).2 with ⟨hoff, -⟩ | hst
      · exact absurd (hon.symm.trans hoff) (by simp)
      · obtain ⟨i, hi⟩ := List.mem_iff_getElem?.mp hg
        have hsound := StatsStage.never_panics_iff.mp (hsafe.1.stats_ok i g hi)
        rw [(logging_of_stops h hst).1] at hsound
        exact StatsStage.blocked_of_sound hsound
    · have hdispatch : DispatchState.SafeStep s.dispatch a d :=
        ⟨hsafe.1.dispatch, fun j now ha => hsafe.2 j now (congrArg LifecycleAct.dispatch ha)⟩
      have hneeds := (h.dispatch.safeStep_iff hd).mp hdispatch
      cases a with
      | stop => exact absurd rfl hstop
      | _ => exact hneeds
  | start ctx =>
    obtain ⟨d, hd, rfl⟩ := step_start hs
    have hst := (DispatchState.step_start hd).1
    have hstopped : s.td.wheelTimer.stopped = false := by
      rw [← DispatchState.stopped_of_step hwf hd (by simp)]
      exact (hsafe.1.dispatch.ticking hst.started).1
    refine ⟨hstopped, fun hoff => ?_⟩
    obtain ⟨hws, -⟩ := h.fresh_of_off hoff hstopped
    obtain ⟨c, hc, hnot⟩ := hsafe.1.alive hst.started
    simp only [hoff, hws, Bool.or_self, Bool.false_eq_true, if_false] at hc
    exact Option.some.inj hc ▸ hnot
  | cancel ctx =>
    obtain ⟨rfl, -⟩ := Prod.mk.inj (Option.some.inj hs)
    intro hon heq
    obtain ⟨c, hc, hnot⟩ := hsafe.1.alive hon
    obtain rfl := Option.some.inj (heq.symm.trans hc)
    exact hnot List.mem_cons_self
  | leave => trivial
  | stats i a => trivial

theorem InStep.safeStep_iff (h : s.InStep) {a : LifecycleAct} (hs : s.step a = some (s', ev)) :
    SafeStep s a s' ↔ s.Bears a := by
  refine ⟨fun hsafe => h.bears_of_safeStep hsafe hs, fun hok => ⟨(h.step hok hs).safe, ?_⟩⟩
  rintro j now rfl
  obtain ⟨-, d, hd, rfl⟩ := step_dispatch hs
  exact ((h.dispatch.safeStep_iff hd).mpr hok).2 j now rfl

/-- **When the dispatcher is safe to use**: every step of a run is safe if and only if
none that needs the wheel is taken after a `Stop`, the context that it is started with
is not done before it is stopped, and it is stopped while the goroutine that logs the
statistics waits in its `select` or has returned. -/
theorem lifecycle_iff {now : ℤ} {as : List LifecycleAct}
    (h : exec Lifecycle.step (init now) as = some (s, tr)) :
    Always Lifecycle.step SafeStep (init now) as ↔ Meets Lifecycle.step Bears (init now) as := by
  refine always_iff_meets (inStep_init now) ?_ ?_ h
  · intro s a s' ev hinv hok hs
    exact hinv.step hok hs
  · intro s a s' ev hinv hs
    exact hinv.safeStep_iff hs

/-- A dispatcher that is started, used and stopped, after which its context is
cancelled. -/
theorem lifecycle_start_stop :
    (exec Lifecycle.step (init 0) [.start 0, .stats 0 .enter, .stats 0 (.select false),
        .dispatch (.addJob (some (Job.bare 7 true 60)) 0), .dispatch (.removeJob 7),
        .dispatch .stop, .stats 0 .done, .cancel 0]).isSome ∧
      Always Lifecycle.step SafeStep (init 0) [.start 0, .stats 0 .enter, .stats 0 (.select false),
        .dispatch (.addJob (some (Job.bare 7 true 60)) 0), .dispatch (.removeJob 7),
        .dispatch .stop, .stats 0 .done, .cancel 0] := by
  have hm : Meets Lifecycle.step Bears (init 0) [.start 0, .stats 0 .enter,
      .stats 0 (.select false), .dispatch (.addJob (some (Job.bare 7 true 60)) 0),
      .dispatch (.removeJob 7), .dispatch .stop, .stats 0 .done, .cancel 0] :=
    meets_of_checks (by decide +kernel)
  exact ⟨rfl, (lifecycle_iff rfl).mpr hm⟩

/-- **Three runs that are not safe.** A job that is added after a `Stop` is accepted and
stored as nil, and `RemoveJob` panics over it. A context that is cancelled ends the
ticks, and the dispatcher is still started. And a dispatcher that is stopped before the
goroutine that logs the statistics has begun lets that panic at its `select`. -/
theorem not_lifecycle_three_runs :
    (∃ s tr, exec Lifecycle.step (init 0) [.start 0, .stats 0 .enter, .stats 0 (.select false),
          .dispatch .stop, .dispatch (.addJob (some (Job.bare 7 true 60)) 0)] = some (s, tr) ∧
        s.td.cyclicTasks.lookup 7 = some none ∧ s.td.removeJob 7 = .error .nilDereference ∧
        ¬s.Safe) ∧
      (∃ s tr, exec Lifecycle.step (init 0) [.start 0, .cancel 0, .leave] = some (s, tr) ∧
        s.td.started = true ∧ s.td.wheelTimer.running = false ∧ ¬s.Safe) ∧
      ∃ s tr g, exec Lifecycle.step (init 0) [.start 0, .dispatch .stop, .stats 0 .enter] =
          some (s, tr) ∧ s.loggers = [g] ∧
        g.stage.step s.td.statsLogger (s.statsDone 0 g) (.select false) =
          some (.error .nilDereference) ∧ ¬s.Safe := by
  refine ⟨⟨_, _, rfl, rfl, rfl, fun h => ?_⟩, ⟨_, _, rfl, rfl, rfl, fun h => ?_⟩,
    ⟨_, _, _, rfl, rfl, rfl, fun h => ?_⟩⟩
  · exact h.dispatch.cyclic_stored 7 none rfl rfl
  · exact absurd (h.dispatch.ticking rfl).2 (by decide)
  · exact absurd (h.stats_ok 0 _ rfl [some (.select false)]) (by decide)

end Lifecycle

end HertzBeat
