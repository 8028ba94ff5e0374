import HertzBeat.Service.AtMostOnce

/-!
# A round comes to its end

A collection may hang for as long as its target keeps it waiting. The dispatcher of a round waits
for it, and only for so long: the deadline of the round lets it give up, one metric after the other.
What that needs is that the dispatcher is never blocked once the deadline has passed, and that it
has only so much to do, `HertzBeat.MetricsTask.rank`: its own steps take from that, and no step of
anybody else adds to it. So no target, and nothing else that goes on in the collector, keeps a job
from being scheduled again: `HertzBeat.Service.round_comes_to_end`.
-/

namespace HertzBeat

open Go (Str BlockCipher)
open Runs

/-! ### What a task has to do -/

namespace MetricsTask

variable {R : Type} {s s' : MetricsTask R} {ev : List (TaskEvent R)}

/-- A bound on the steps that the dispatcher has before it: two for each channel, one for each
result, and one between the phases. -/
def rank (s : MetricsTask R) : ℕ :=
  match s.phase with
  | .starting todo =>
    todo.length + 3 * (s.channels.length + todo.length) + s.results.length + 3
  | .reading n false => 3 * (s.channels.length - n) + s.results.length + 2
  | .reading n true => 3 * (s.channels.length - n) + s.results.length + 1
  | .handling rest => rest.length + 1
  | .returned => 0

theorem rank_new (job processedJob : Job) :
    (new job processedJob : MetricsTask R).rank = 4 * (job.metrics.getD []).length + 3 := by
  simp only [rank, new, List.length_map, List.length_nil]
  omega

/-- The dispatcher is blocked only on a channel that there is, and only before the deadline. -/
def Waits (s : MetricsTask R) : Prop :=
  ∀ n, s.phase = .reading n true → n < s.channels.length ∧ s.expired = false

theorem waits_of_phase (h : ∀ n, s.phase ≠ .reading n true) : s.Waits :=
  fun n hphase => absurd hphase (h n)

/-- The dispatcher has read a result. -/
theorem rank_receive {n : ℕ} (hn : n < s.channels.length) (result : Option R) :
    (s.receive n result).rank + 1 ≤ 3 * (s.channels.length - n) + s.results.length + 1 := by
  have hone : (result.map fun r => (n, r)).toList.length ≤ 1 := by cases result <;> simp
  simp only [rank, receive, List.length_set, List.length_append]
  omega

theorem rank_giveUp {n : ℕ} (hn : n < s.channels.length) :
    (s.giveUp n).rank + 1 ≤ 3 * (s.channels.length - n) + s.results.length + 1 := by
  simp only [rank, giveUp]
  omega

theorem rank_select {n : ℕ} (hn : n < s.channels.length) (prefersDone : Bool)
    (c : ResultChannel R) :
    (s.select n prefersDone c).rank + 1 ≤ 3 * (s.channels.length - n) + s.results.length + 2 ∧
      (s.select n prefersDone c).Waits := by
  have hreceive := fun result => (rank_receive hn result).trans (Nat.le_succ _)
  have hgiveUp := (rank_giveUp hn).trans (Nat.le_succ _)
  have hblocks : ∀ (s₁ : MetricsTask R), s₁ = (if s.expired then s.giveUp n
      else { s with phase := .reading n true }) →
      s₁.rank + 1 ≤ 3 * (s.channels.length - n) + s.results.length + 2 ∧ s₁.Waits := by
    rintro s₁ rfl
    split_ifs with hexpired
    · exact ⟨hgiveUp, waits_of_phase (by simp [giveUp])⟩
    · refine ⟨le_rfl, fun m hm => ?_⟩
      obtain ⟨rfl, -⟩ := TaskPhase.reading.inj hm
      exact ⟨hn, Bool.eq_false_iff.mpr hexpired⟩
  cases c with
  | holds result =>
    rw [select]
    split_ifs
    · exact ⟨hgiveUp, waits_of_phase (by simp [giveUp])⟩
    · exact ⟨hreceive result, waits_of_phase (by simp [receive])⟩
  | _ => exact hblocks _ rfl

/-- **The dispatcher gets on with every step.** -/
theorem rank_loop {prefersDone : Bool} (hs : s.loop prefersDone = some (s', ev)) :
    s'.rank + 1 ≤ s.rank ∧ s'.Waits := by
  rw [loop] at hs
  split at hs
  case h_1 found todo hphase =>
    obtain ⟨rfl, -⟩ := Prod.mk.inj (Option.some.inj hs)
    refine ⟨?_, waits_of_phase (by simp)⟩
    simp only [rank, hphase, List.length_append, List.length_cons, List.length_nil]
    omega
  case h_2 hphase =>
    obtain ⟨rfl, -⟩ := Prod.mk.inj (Option.some.inj hs)
    refine ⟨?_, waits_of_phase (by simp)⟩
    simp only [rank, hphase, List.length_nil]
    omega
  case h_3 => contradiction
  case h_4 n hphase =>
    split at hs
    · next c hc =>
      obtain ⟨rfl, -⟩ := Prod.mk.inj (Option.some.inj hs)
      have hn : n < s.channels.length := (List.getElem?_eq_some_iff.mp hc).1
      have hrank : s.rank = 3 * (s.channels.length - n) + s.results.length + 2 := by
        rw [rank, hphase]
      rw [hrank]
      exact rank_select hn prefersDone c
    · obtain ⟨rfl, -⟩ := Prod.mk.inj (Option.some.inj hs)
      refine ⟨?_, waits_of_phase (by simp)⟩
      simp only [rank, hphase]
      omega
  case h_5 hphase =>
    obtain ⟨rfl, -⟩ := Prod.mk.inj (Option.some.inj hs)
    refine ⟨?_, waits_of_phase (by simp)⟩
    simp only [rank, hphase, List.length_cons, le_refl]
  case h_6 hphase =>
    obtain ⟨rfl, -⟩ := Prod.mk.inj (Option.some.inj hs)
    refine ⟨?_, waits_of_phase (by simp)⟩
    simp only [rank, hphase, List.length_nil, le_refl]
  case h_7 => contradiction

/-- A result that is put adds nothing to do. -/
theorem rank_put (h : s.Waits) {i : ℕ} {c : ResultChannel R} (hi : s.channels[i]? = some c)
    (result : Option R) : (s.put i result).rank ≤ s.rank ∧ (s.put i result).Waits := by
  have hlt : i < s.channels.length := (List.getElem?_eq_some_iff.mp hi).1
  rw [put]
  split_ifs with hwaits
  · refine ⟨?_, waits_of_phase (by simp [receive])⟩
    have hrank : s.rank = 3 * (s.channels.length - i) + s.results.length + 1 := by
      rw [rank, phase_of_waitsFor hwaits]
    rw [hrank]
    exact (Nat.le_succ _).trans (rank_receive hlt result)
  · refine ⟨le_of_eq ?_, fun n hn => ?_⟩
    · simp only [rank, List.length_set]
    · rw [List.length_set]
      exact h n hn

/-- When the deadline has passed the dispatcher is not blocked. -/
theorem rank_expire (h : s.Waits) : s.expire.rank ≤ s.rank ∧ s.expire.Waits := by
  rw [expire]
  split
  · next n hphase =>
    obtain ⟨hn, -⟩ := h n hphase
    have hrank : s.rank = 3 * (s.channels.length - n) + s.results.length + 1 := by
      rw [rank, hphase]
    rw [hrank]
    refine ⟨(Nat.le_succ _).trans (rank_giveUp (s := s) hn), waits_of_phase (by simp [giveUp])⟩
  · next hphase => exact ⟨le_rfl, waits_of_phase hphase⟩

/-- The dispatcher itself takes a step. -/
def Action.isLoop : Action R → Bool
  | .loop _ => true
  | _ => false

/-- **Nobody adds to what the dispatcher has to do.** -/
theorem rank_step (h : s.Waits) {a : Action R} (hs : s.step a = some (s', ev)) :
    (if a.isLoop then 1 else 0) + s'.rank ≤ s.rank ∧ s'.Waits := by
  cases a with
  | loop prefersDone =>
    obtain ⟨hle, hwaits⟩ := rank_loop hs
    exact ⟨by rw [Action.isLoop, if_pos rfl]; omega, hwaits⟩
  | put i result =>
    simp only [step] at hs
    split at hs
    · next hi =>
      obtain ⟨rfl, -⟩ := Prod.mk.inj (Option.some.inj hs)
      simpa [Action.isLoop] using rank_put h hi result
    · contradiction
  | expire =>
    obtain ⟨rfl, -⟩ := Prod.mk.inj (Option.some.inj hs)
    simpa [Action.isLoop] using rank_expire h

/-- **Past the deadline there is always a next step.** -/
theorem isSome_loop (h : s.Waits) (hexpired : s.expired = true) (hphase : s.phase ≠ .returned)
    (prefersDone : Bool) : (s.step (.loop prefersDone)).isSome := by
  simp only [step, loop]
  split
  case h_3 n hn =>
    rw [(h n hn).2] at hexpired
    contradiction
  case h_4 => split <;> rfl
  case h_7 hreturned => exact absurd hreturned hphase
  all_goals rfl

theorem expired_select (s : MetricsTask R) (n : ℕ) (prefersDone : Bool) (c : ResultChannel R) :
    (s.select n prefersDone c).expired = s.expired := by
  cases c with
  | holds result =>
    rw [select]
    split_ifs <;> rfl
  | _ =>
    simp only [select]
    split_ifs <;> rfl

theorem expired_loop {prefersDone : Bool} (hs : s.loop prefersDone = some (s', ev)) :
    s'.expired = s.expired := by
  rw [loop] at hs
  split at hs
  case h_3 => contradiction
  case h_7 => contradiction
  case h_4 =>
    split at hs
    · obtain ⟨rfl, -⟩ := Prod.mk.inj (Option.some.inj hs)
      exact expired_select s _ _ _
    · obtain ⟨rfl, -⟩ := Prod.mk.inj (Option.some.inj hs)
      rfl
  all_goals
    obtain ⟨rfl, -⟩ := Prod.mk.inj (Option.some.inj hs)
    rfl

/-- A deadline that has passed stays so. -/
theorem expired_of_step {a : Action R} (hs : s.step a = some (s', ev))
    (hexpired : s.expired = true) : s'.expired = true := by
  cases a with
  | loop prefersDone => exact (expired_loop hs).trans hexpired
  | put i result =>
    simp only [step] at hs
    split at hs
    · obtain ⟨rfl, -⟩ := Prod.mk.inj (Option.some.inj hs)
      rw [put]
      split_ifs <;> exact hexpired
    · contradiction
  | expire =>
    obtain ⟨rfl, -⟩ := Prod.mk.inj (Option.some.inj hs)
    rw [expire]
    split <;> rfl

end MetricsTask

/-! ### The `Run` of a round -/

namespace DispatchState

variable {s s' : DispatchState} {ev : List DispatchEvent}

theorem mem_advanceRun_of_ne {r : ℕ} {stage : RunStage} {x : TaskRun} (hx : x ∈ s.runs)
    (hne : x.timeout ≠ r) : x ∈ s.advanceRun r stage :=
  List.mem_map.mpr ⟨x, hx, if_neg hne⟩

theorem mem_endRun_of_ne {r : ℕ} {x : TaskRun} (hx : x ∈ s.runs) (hne : x.timeout ≠ r) :
    x ∈ s.endRun r :=
  List.mem_filter.mpr ⟨hx, decide_eq_true hne⟩

/-- **A call of `DispatchMetricsTask` goes on until it returns**, whatever else happens. -/
theorem dispatching_of_step (hwf : s.WellFormed) {a : DispatchAct} (hs : s.step a = some (s', ev))
    {x : TaskRun} (hx : x ∈ s.runs) (hstage : x.stage = .dispatching)
    (ha : ∀ outcome, a ≠ .complete x.timeout outcome) : x ∈ s'.runs := by
  -- a `Run` at another stage is one for another timeout
  have hother : ∀ {y : TaskRun}, y ∈ s.runs → y.stage ≠ .dispatching → x.timeout ≠ y.timeout := by
    intro y hy hne heq
    exact hne (hwf.run_unique hx hy heq ▸ hstage)
  cases a with
  | addJob job now =>
    rcases job with _ | j
    · obtain ⟨rfl, -⟩ := step_addJob_nil hs
      exact hx
    · obtain ⟨o, hadds⟩ := step_addJob hwf hs
      exact hadds.runs_eq ▸ hx
  | removeJob id =>
    rcases step_removeJob hs with ⟨hidle, -⟩ | ⟨r, hr⟩
    · exact hidle.runs_eq ▸ hx
    · exact hr.runs_eq ▸ hx
  | start => exact (step_start hs).1.runs_eq ▸ hx
  | stop =>
    rcases (step_stop hwf hs).2 with ⟨-, rfl⟩ | hst
    · exact hx
    · exact hst.runs_eq ▸ hx
  | tick =>
    rw [(step_tick hs).1.runs_eq]
    exact List.mem_append_left _ hx
  | begin r now =>
    obtain ⟨y, hb⟩ := step_begin hs
    rw [hb.runs_eq, ← hb.timeout_eq]
    exact mem_advanceRun_of_ne hx (hother hb.run_mem (by simp [hb.stage_eq]))
  | complete r outcome =>
    obtain ⟨y, hc, -⟩ := step_complete hs
    have hne : x.timeout ≠ r := fun heq => ha outcome (heq ▸ rfl)
    rw [hc.runs_eq]
    split_ifs
    · exact mem_advanceRun_of_ne hx hne
    · exact mem_endRun_of_ne hx hne
  | reschedule r now =>
    obtain ⟨y, hy, rfl, hyst, ⟨rfl, -⟩ | ⟨o, hr⟩⟩ := step_reschedule hwf hs
    · exact mem_endRun_of_ne hx (hother hy (by simp [hyst]))
    · exact hr.runs_eq ▸ mem_endRun_of_ne hx (hother hy (by simp [hyst]))

/-- A call of `DispatchMetricsTask` may return. -/
theorem isSome_complete {x : TaskRun} (hx : x ∈ s.runs) (hstage : x.stage = .dispatching)
    (outcome : Outcome) : (s.step (.complete x.timeout outcome)).isSome := by
  have hfound : (s.runAt x.timeout .dispatching).isSome :=
    List.find?_isSome.mpr ⟨x, hx, by simp [hstage]⟩
  obtain ⟨y, hy⟩ := Option.isSome_iff_exists.mp hfound
  simp only [step, hy]
  rfl

end DispatchState

/-- The same of the service. -/
theorem JobService.dispatching_of_step {s s' : JobService} {ev : List DispatchEvent}
    (hwf : s.dispatch.WellFormed) {a : ServiceAct} (hs : s.step a = some (s', ev)) {x : TaskRun}
    (hx : x ∈ s.dispatch.runs) (hstage : x.stage = .dispatching)
    (ha : ∀ outcome, a ≠ .dispatch (.complete x.timeout outcome)) : x ∈ s'.dispatch.runs := by
  cases a with
  | addAsyncCollectJob job now =>
    cases job with
    | none =>
      obtain ⟨rfl, -⟩ := Prod.mk.inj (Option.some.inj hs)
      exact hx
    | some job =>
      obtain ⟨p, hp, hpair⟩ := Option.map_eq_some_iff.mp hs
      obtain ⟨rfl, -⟩ := Prod.mk.inj hpair
      exact DispatchState.dispatching_of_step hwf hp hx hstage fun _ heq => nomatch heq
  | removeAsyncCollectJob id =>
    obtain ⟨p, hp, hpair⟩ := Option.map_eq_some_iff.mp hs
    obtain ⟨rfl, -⟩ := Prod.mk.inj hpair
    exact DispatchState.dispatching_of_step hwf hp hx hstage fun _ heq => nomatch heq
  | close =>
    obtain ⟨p, hp, hpair⟩ := Option.map_eq_some_iff.mp hs
    obtain ⟨rfl, -⟩ := Prod.mk.inj hpair
    exact DispatchState.dispatching_of_step hwf hp hx hstage fun _ heq => nomatch heq
  | dispatch b =>
    rw [step] at hs
    split_ifs at hs
    obtain ⟨p, hp, hpair⟩ := Option.map_eq_some_iff.mp hs
    obtain ⟨rfl, -⟩ := Prod.mk.inj hpair
    exact DispatchState.dispatching_of_step hwf hp hx hstage fun outcome heq =>
      ha outcome (heq ▸ rfl)

/-- The dispatcher of a round takes a step, or its call returns. -/
def ServiceStep.isOf {URL F Program : Type} (r : ℕ) : ServiceStep URL F Program → Bool
  | .loop r' _ _ => r' = r
  | .finish r' => r' = r
  | _ => false

namespace Service

variable {URL F Program : Type} [NatCast F] [Mul F] [Div F]
variable {aes : BlockCipher} {json : Json} {identity : Str} {ipc : IPC}
variable {s s' : Service} {tr ev : List ServiceEvent}

/-! ### What a step does to a round -/

/-- **What a step does to the round of a timeout.** -/
inductive RoundStep (s : Service) (a : ServiceStep URL F Program) (s' : Service) (r : ℕ) : Prop
  | idle (hrounds : s'.rounds r = s.rounds r) (ha : a.isOf r = false)
  | task {round : Round} {b : MetricsTask.Action CollectRepMetricsData}
      {task : MetricsTask CollectRepMetricsData} {tev : List (TaskEvent CollectRepMetricsData)}
      (hround : s.rounds r = some round) (hb : round.task.step b = some (task, tev))
      (hrounds : s'.rounds r = some { round with task := task }) (ha : a.isOf r = b.isLoop)
      (hgoes : a ≠ .finish r)
  | finish {round : Round} (hround : s.rounds r = some round)
      (hphase : round.task.phase = .returned) (ha : a = .finish r) (hrounds : s'.rounds r = none)
  | begin {x : TaskRun} {now : ℤ} {jev : List DispatchEvent} (w : Written) (o : GroupOrder)
      (order : Go.RangeOrder) (slice : ℕ) (ha : a.isOf r = false)
      (hx : s.jobs.dispatch.runAt r .fired = some x)
      (hnames : (x.job.written w).metricsNames = x.job.metricsNames)
      (hjobs : s.jobs.step (.dispatch (.begin r now)) = some (s'.jobs, jev))
      (hrounds : s'.rounds r = some (newRound x.job now w o order slice))

theorem rounds_setRound (s : Service) (r r' : ℕ) (round : Option Round) :
    (s.setRound r round).rounds r' = if r' = r then round else s.rounds r' :=
  Function.update_apply _ _ _ _

/-- A processor leaves the rounds alone, and ends none. -/
theorem frame_of_handle {i : ℕ} {now : ℤ} (hs : s.handle aes i now = some s') :
    s'.rounds = s.rounds ∧ (s'.jobs = s.jobs ∨ ∃ b jev, s.jobs.step b = some (s'.jobs, jev) ∧
      ∀ r outcome, b ≠ .dispatch (.complete r outcome)) := by
  rw [handle] at hs
  split at hs
  · contradiction
  · obtain rfl := Option.some.inj hs
    exact ⟨rfl, .inl rfl⟩
  · obtain ⟨p, hp, rfl⟩ := Option.map_eq_some_iff.mp hs
    exact ⟨rfl, .inr ⟨_, _, hp, by simp⟩⟩
  · obtain ⟨p, hp, rfl⟩ := Option.map_eq_some_iff.mp hs
    exact ⟨rfl, .inr ⟨_, _, hp, by simp⟩⟩
  · obtain rfl := Option.some.inj hs
    exact ⟨rfl, .inl rfl⟩

omit [NatCast F] [Mul F] [Div F] in
/-- A step of the task of one round, as any round sees it. -/
theorem RoundStep.of_task {a : ServiceStep URL F Program} {r' : ℕ} {round : Round}
    {b : MetricsTask.Action CollectRepMetricsData} {p : MetricsTask CollectRepMetricsData × _}
    (hround : s.rounds r' = some round) (hb : round.task.step b = some p)
    (ha : ∀ r, a.isOf r = (b.isLoop && decide (r' = r))) (hgoes : ∀ r, a ≠ .finish r) (r : ℕ) :
    RoundStep s a (s.setRound r' (some { round with task := p.1 })) r := by
  rcases eq_or_ne r r' with rfl | hne
  · exact .task hround hb (by rw [rounds_setRound, if_pos rfl]) (by simp [ha]) (hgoes r)
  · exact .idle (by rw [rounds_setRound, if_neg hne]) (by simp [ha, hne.symm])

theorem roundStep_of_step {a : ServiceStep URL F Program}
    (hs : step aes json identity ipc s a = some (s', ev)) (r : ℕ) : RoundStep s a s' r := by
  cases a with
  | receive m =>
    obtain ⟨rfl, -⟩ := Prod.mk.inj (Option.some.inj hs)
    exact .idle (congrFun (receive_frame s m).2 r) rfl
  | handle i now =>
    obtain ⟨q, hq, hpair⟩ := Option.map_eq_some_iff.mp hs
    obtain ⟨rfl, -⟩ := Prod.mk.inj hpair
    exact .idle (congrFun (frame_of_handle hq).1 r) rfl
  | schedule b =>
    rw [step] at hs
    split_ifs at hs
    obtain ⟨p, -, hpair⟩ := Option.map_eq_some_iff.mp hs
    obtain ⟨rfl, -⟩ := Prod.mk.inj hpair
    exact .idle rfl rfl
  | dispatch r' now w o order slice =>
    rw [step] at hs
    split at hs
    · contradiction
    · next x hx =>
      split_ifs at hs with hnames
      obtain ⟨p, hp, hpair⟩ := Option.map_eq_some_iff.mp hs
      obtain ⟨rfl, -⟩ := Prod.mk.inj hpair
      rcases eq_or_ne r r' with rfl | hne
      · exact .begin w o order slice rfl hx hnames hp (by rw [rounds_setRound, if_pos rfl])
      · exact .idle (by rw [rounds_setRound, if_neg hne]) rfl
  | collect r' i env =>
    rw [step] at hs
    split at hs
    · contradiction
    · next round hround =>
      split at hs
      · obtain ⟨p, hp, hpair⟩ := Option.map_eq_some_iff.mp hs
        obtain ⟨rfl, -⟩ := Prod.mk.inj hpair
        exact .of_task hround hp (fun _ => rfl) (by simp) r
      · contradiction
  | loop r' prefersDone client =>
    rw [step] at hs
    split at hs
    · contradiction
    · next round hround =>
      obtain ⟨p, hp, hpair⟩ := Option.map_eq_some_iff.mp hs
      obtain ⟨rfl, -⟩ := Prod.mk.inj hpair
      exact .of_task hround hp (fun _ => rfl) (by simp) r
  | expire r' =>
    rw [step] at hs
    split at hs
    · contradiction
    · next round hround =>
      obtain ⟨p, hp, hpair⟩ := Option.map_eq_some_iff.mp hs
      obtain ⟨rfl, -⟩ := Prod.mk.inj hpair
      exact .of_task hround hp (fun _ => rfl) (by simp) r
  | finish r' =>
    rw [step] at hs
    split at hs
    · next hround =>
      obtain ⟨p, -, hpair⟩ := Option.map_eq_some_iff.mp hs
      obtain ⟨rfl, -⟩ := Prod.mk.inj hpair
      rcases eq_or_ne r r' with rfl | hne
      · exact .finish hround rfl rfl (by rw [rounds_setRound, if_pos rfl])
      · exact .idle (by rw [rounds_setRound, if_neg hne]) (decide_eq_false hne.symm)
    · contradiction

/-- What a step does to the scheduler. A call of `DispatchMetricsTask` returns only as its round
does. -/
theorem jobs_of_step {a : ServiceStep URL F Program}
    (hs : step aes json identity ipc s a = some (s', ev)) :
    s'.jobs = s.jobs ∨ ∃ b jev, s.jobs.step b = some (s'.jobs, jev) ∧
      ∀ r outcome, b = .dispatch (.complete r outcome) → a = .finish r := by
  cases a with
  | receive m =>
    obtain ⟨rfl, -⟩ := Prod.mk.inj (Option.some.inj hs)
    exact .inl (receive_frame s m).1
  | handle i now =>
    obtain ⟨q, hq, hpair⟩ := Option.map_eq_some_iff.mp hs
    obtain ⟨rfl, -⟩ := Prod.mk.inj hpair
    refine (frame_of_handle hq).2.imp id ?_
    rintro ⟨b, jev, hb, hne⟩
    exact ⟨b, jev, hb, fun r outcome heq => absurd heq (hne r outcome)⟩
  | schedule b =>
    rw [step] at hs
    split_ifs at hs with hown
    obtain ⟨p, hp, hpair⟩ := Option.map_eq_some_iff.mp hs
    obtain ⟨rfl, -⟩ := Prod.mk.inj hpair
    refine .inr ⟨_, _, hp, ?_⟩
    rintro r outcome rfl
    contradiction
  | dispatch r' now w o order slice =>
    rw [step] at hs
    split at hs
    · contradiction
    · split_ifs at hs
      obtain ⟨p, hp, hpair⟩ := Option.map_eq_some_iff.mp hs
      obtain ⟨rfl, -⟩ := Prod.mk.inj hpair
      exact .inr ⟨_, _, hp, by simp⟩
  | collect r' i env =>
    rw [step] at hs
    split at hs
    · contradiction
    · split at hs
      · obtain ⟨p, -, hpair⟩ := Option.map_eq_some_iff.mp hs
        obtain ⟨rfl, -⟩ := Prod.mk.inj hpair
        exact .inl rfl
      · contradiction
  | loop r' prefersDone client =>
    rw [step] at hs
    split at hs
    · contradiction
    · obtain ⟨p, -, hpair⟩ := Option.map_eq_some_iff.mp hs
      obtain ⟨rfl, -⟩ := Prod.mk.inj hpair
      exact .inl rfl
  | expire r' =>
    rw [step] at hs
    split at hs
    · contradiction
    · obtain ⟨p, -, hpair⟩ := Option.map_eq_some_iff.mp hs
      obtain ⟨rfl, -⟩ := Prod.mk.inj hpair
      exact .inl rfl
  | finish r' =>
    rw [step] at hs
    split at hs
    · obtain ⟨p, hp, hpair⟩ := Option.map_eq_some_iff.mp hs
      obtain ⟨rfl, -⟩ := Prod.mk.inj hpair
      refine .inr ⟨_, _, hp, fun r outcome heq => ?_⟩
      obtain ⟨rfl, -⟩ := DispatchAct.complete.inj (ServiceAct.dispatch.inj heq)
      rfl
    · contradiction

/-! ### What every round can rely on -/

/-- Every round is that of a `Run` that waits for it, and has only so much to do. -/
structure Timely (s : Service) : Prop where
  running : ∀ r round, s.rounds r = some round →
    ∃ x ∈ s.jobs.dispatch.runs, x.timeout = r ∧ x.stage = .dispatching
  waits : ∀ r round, s.rounds r = some round → round.task.Waits
  rank_le : ∀ r round t, s.rounds r = some round →
    s.jobs.dispatch.td.wheelTimer.task r = some t →
    round.task.rank ≤ 4 * t.job.metricsNames.length + 3

theorem timely_init (now : ℤ) : (init now).Timely where
  running := fun _ _ h => nomatch h
  waits := fun _ _ h => nomatch h
  rank_le := fun _ _ _ h => nomatch h

theorem rank_newRound {job : Job} {w : Written}
    (hnames : (job.written w).metricsNames = job.metricsNames) (now : ℤ) (o : GroupOrder)
    (order : Go.RangeOrder) (slice : ℕ) :
    (newRound job now w o order slice).task.rank = 4 * job.metricsNames.length + 3 := by
  have hlength := congrArg List.length
    (((job.written w).metricsNames_constructPriorMetrics o slice now).trans hnames)
  rw [Job.metricsNames, List.length_map] at hlength
  rw [newRound, MetricsTask.rank_new, ← hlength]
  rfl

/-- The `Run` of a round that goes on, and the task of its timeout. -/
theorem Timely.goes_on (h : s.Timely) (hwf : s.jobs.dispatch.WellFormed)
    {a : ServiceStep URL F Program} (hs : Service.step aes json identity ipc s a = some (s', ev))
    {r : ℕ} {round : Round} (hround : s.rounds r = some round) (ha : a ≠ .finish r) :
    (∃ x ∈ s'.jobs.dispatch.runs, x.timeout = r ∧ x.stage = .dispatching) ∧
      ∀ t, s'.jobs.dispatch.td.wheelTimer.task r = some t →
        s.jobs.dispatch.td.wheelTimer.task r = some t := by
  obtain ⟨x, hx, rfl, hstage⟩ := h.running r round hround
  have htask := hwf.run_task x hx
  have hkeeps : ∀ t, s'.jobs.dispatch.td.wheelTimer.task x.timeout = some t →
      s.jobs.dispatch.td.wheelTimer.task x.timeout = some t := by
    intro t ht
    have hkept := task_of_takes hwf (takes_of_step aes json identity ipc hs) htask
    rwa [← Option.some.inj (hkept.symm.trans ht)]
  refine ⟨⟨x, ?_, rfl, hstage⟩, hkeeps⟩
  rcases jobs_of_step hs with hsame | ⟨b, jev, hb, hcomplete⟩
  · rwa [hsame]
  · exact JobService.dispatching_of_step hwf hb hx hstage fun outcome heq =>
      ha (hcomplete _ outcome heq)

theorem Timely.step (h : s.Timely) (hwf : s.jobs.dispatch.WellFormed)
    {a : ServiceStep URL F Program}
    (hs : Service.step aes json identity ipc s a = some (s', ev)) : s'.Timely := by
  have hall : ∀ r round, s'.rounds r = some round →
      (∃ x ∈ s'.jobs.dispatch.runs, x.timeout = r ∧ x.stage = .dispatching) ∧ round.task.Waits ∧
        ∀ t, s'.jobs.dispatch.td.wheelTimer.task r = some t →
          round.task.rank ≤ 4 * t.job.metricsNames.length + 3 := by
    intro r round hround
    cases roundStep_of_step hs r with
    | idle hrounds ha =>
      rw [hrounds] at hround
      have hgoes : a ≠ .finish r := by
        rintro rfl
        exact absurd ha (by simp [ServiceStep.isOf])
      obtain ⟨hrunning, htask⟩ := h.goes_on hwf hs hround hgoes
      exact ⟨hrunning, h.waits r round hround,
        fun t ht => h.rank_le r round t hround (htask t ht)⟩
    | @task before b task tev hbefore hb hrounds ha hgoes =>
      obtain rfl := Option.some.inj (hrounds.symm.trans hround)
      obtain ⟨hrunning, htask⟩ := h.goes_on hwf hs hbefore hgoes
      obtain ⟨hle, hwaits⟩ := MetricsTask.rank_step (h.waits r before hbefore) hb
      refine ⟨hrunning, hwaits, fun t ht => ?_⟩
      exact (Nat.le_add_left _ _).trans (hle.trans (h.rank_le r before t hbefore (htask t ht)))
    | finish hbefore hphase ha hrounds => exact nomatch hrounds.symm.trans hround
    | @begin x now jev w o order slice ha hx hnames hjobs hrounds =>
      obtain rfl := Option.some.inj (hrounds.symm.trans hround)
      obtain ⟨hmem, hr, -⟩ := DispatchState.runAt_eq_some hx
      have htask : s.jobs.dispatch.td.wheelTimer.task r = some ⟨x.job⟩ := hr ▸ hwf.run_task x hmem
      refine ⟨?_, MetricsTask.waits_of_phase (by simp [newRound, MetricsTask.new]), fun t ht => ?_⟩
      · obtain ⟨p, hp, hpair⟩ := Option.map_eq_some_iff.mp hjobs
        obtain ⟨y, hb⟩ := DispatchState.step_begin hp
        rw [← (Prod.mk.inj hpair).1]
        refine ⟨{ y with stage := .dispatching }, ?_, hb.timeout_eq, rfl⟩
        rw [hb.runs_eq]
        exact List.mem_map.mpr ⟨y, hb.run_mem, if_pos hb.timeout_eq⟩
      · have hkept := task_of_takes hwf (takes_of_step aes json identity ipc hs) htask
        obtain rfl := Option.some.inj (hkept.symm.trans ht)
        exact (rank_newRound hnames now o order slice).le
  exact ⟨fun r round hround => (hall r round hround).1,
    fun r round hround => (hall r round hround).2.1,
    fun r round t hround => (hall r round hround).2.2 t⟩

/-! ### How a round comes to its end -/

/-- What the dispatcher of a round has before it, the return included. -/
def pace (s : Service) (r : ℕ) : ℕ :=
  match s.rounds r with
  | some round => round.task.rank + 1
  | none => 0

/-- A timeout that is used up gets no other round. -/
theorem pace_step (h : s.Timely) {r : ℕ} (hspent : s.jobs.dispatch.Spent r)
    {a : ServiceStep URL F Program} (hs : Service.step aes json identity ipc s a = some (s', ev)) :
    (if a.isOf r then 1 else 0) + s'.pace r ≤ s.pace r := by
  cases roundStep_of_step hs r with
  | idle hrounds ha =>
    rw [ha, pace, pace, hrounds]
    simp
  | @task round b task tev hround hb hrounds ha hgoes =>
    have hle := (MetricsTask.rank_step (h.waits r round hround) hb).1
    simp only [ha, pace, hrounds, hround]
    omega
  | finish hround hphase ha hrounds =>
    simp only [ha, ServiceStep.isOf, pace, hrounds, hround]
    simp
  | begin w o order slice ha hx => exact absurd hspent (DispatchState.not_spent_of_runAt hx)

/-- A round whose deadline has passed. -/
def Expired (s : Service) (r : ℕ) : Prop :=
  ∀ round, s.rounds r = some round → round.task.expired = true

theorem Expired.step {r : ℕ} (h : s.Expired r) (hspent : s.jobs.dispatch.Spent r)
    {a : ServiceStep URL F Program} (hs : Service.step aes json identity ipc s a = some (s', ev)) :
    s'.Expired r := by
  intro round hround
  cases roundStep_of_step hs r with
  | idle hrounds ha => exact h round (hrounds ▸ hround)
  | @task before b task tev hbefore hb hrounds ha hgoes =>
    obtain rfl := Option.some.inj (hrounds.symm.trans hround)
    exact MetricsTask.expired_of_step hb (h before hbefore)
  | finish hbefore hphase ha hrounds => exact nomatch hrounds.symm.trans hround
  | begin w o order slice ha hx => exact absurd hspent (DispatchState.not_spent_of_runAt hx)

/-- **Past its deadline a round can go on**: its dispatcher takes a step, or returns. -/
theorem isSome_step (h : s.Timely) {r : ℕ} (hexpired : s.Expired r) :
    s.rounds r = none ∨
      (step aes json identity ipc s (.finish r : ServiceStep URL F Program)).isSome ∨
      ∀ prefersDone client,
        (step aes json identity ipc s
          (.loop r prefersDone client : ServiceStep URL F Program)).isSome := by
  cases hround : s.rounds r with
  | none => exact .inl rfl
  | some round =>
    right
    by_cases hphase : round.task.phase = .returned
    · left
      obtain ⟨x, hx, rfl, hstage⟩ := h.running r round hround
      obtain ⟨called, channels, phase, expired, results, errors⟩ := round
      obtain rfl : phase = .returned := hphase
      simp only [step, hround, Option.isSome_map, JobService.step, DispatchAct.isCall,
        Bool.false_eq_true, if_false]
      exact DispatchState.isSome_complete hx hstage .ok
    · right
      intro prefersDone client
      simp only [step, hround, Option.isSome_map]
      exact MetricsTask.isSome_loop (h.waits r round hround) (hexpired round hround) hphase
        prefersDone

/-- What holds from the deadline of a round on: its timeout is used up. -/
structure Ending (s : Service) (r : ℕ) : Prop where
  wellFormed : s.jobs.dispatch.WellFormed
  timely : s.Timely
  spent : s.jobs.dispatch.Spent r
  expired : s.Expired r

theorem Ending.step {r : ℕ} (h : s.Ending r) {a : ServiceStep URL F Program}
    (hs : Service.step aes json identity ipc s a = some (s', ev)) :
    s'.Ending r ∧ (if a.isOf r then 1 else 0) + s'.pace r ≤ s.pace r := by
  have hdispatch : s'.jobs.dispatch.WellFormed ∧ s'.jobs.dispatch.Spent r := by
    rcases jobs_of_step hs with hsame | ⟨b, jev, hb, -⟩
    · rw [hsame]
      exact ⟨h.wellFormed, h.spent⟩
    · rcases JobService.dispatch_of_step hb with hsame | ⟨c, hc, -⟩
      · rw [hsame]
        exact ⟨h.wellFormed, h.spent⟩
      · exact ⟨h.wellFormed.step hc, h.spent.step h.wellFormed hc⟩
  exact ⟨⟨hdispatch.1, h.timely.step h.wellFormed hs, hdispatch.2, h.expired.step h.spent hs⟩,
    pace_step h.timely h.spent hs⟩

/-- **A round comes to its end.** Once its deadline has passed, in whatever run goes on from there,
its dispatcher takes at most four steps for each metric of the job and four more, and until it has
returned there is always one that it can take: it is neither blocked by a collection that hangs, nor
by anything else in the collector. -/
theorem round_comes_to_end {now : ℤ} {as : List (ServiceStep URL F Program)}
    (h : exec (step aes json identity ipc) (init now) as = some (s, tr)) {r : ℕ} {round : Round}
    (hround : s.rounds r = some round) (hexpired : round.task.expired = true) {t : WheelTimerTask}
    (ht : s.jobs.dispatch.td.wheelTimer.task r = some t) {bs : List (ServiceStep URL F Program)}
    {tr' : List ServiceEvent}
    (hrun : exec (step aes json identity ipc) s bs = some (s', tr')) :
    bs.countP (·.isOf r) ≤ 4 * t.job.metricsNames.length + 4 ∧
      (s'.rounds r = none ∨
        (step aes json identity ipc s' (.finish r : ServiceStep URL F Program)).isSome ∨
        ∀ prefersDone client,
          (step aes json identity ipc s'
            (.loop r prefersDone client : ServiceStep URL F Program)).isSome) := by
  have hinv : s.Sound aes json URL F Program tr ∧ s.Once tr ∧ s.Timely := by
    refine @exec_induction _ _ _ _ (fun s tr => s.Sound aes json URL F Program tr ∧ s.Once tr ∧
      s.Timely) _ ⟨sound_init now, once_init now, timely_init now⟩ ?_ _ _ _ h
    rintro s tr a s' ev ⟨hsound, honce, htimely⟩ hs
    have htakes := takes_of_step aes json identity ipc hs
    exact ⟨hsound.step htakes, honce.step hsound.wellFormed htakes,
      htimely.step hsound.wellFormed hs⟩
  obtain ⟨hsound, honce, htimely⟩ := hinv
  have hpace : s.pace r ≤ 4 * t.job.metricsNames.length + 4 := by
    simpa only [pace, hround] using Nat.succ_le_succ (htimely.rank_le r round t hround ht)
  have hending : s.Ending r := by
    refine ⟨hsound.wellFormed, htimely, (honce.rounds r round hround).1, fun round' hround' => ?_⟩
    rwa [← Option.some.inj (hround.symm.trans hround')]
  obtain ⟨hending', hcount⟩ := @countP_add_rank_le _ _ _ _ (fun s : Service => s.Ending r) _
    (fun s => s.pace r) (fun _ _ _ _ hs₀ hs => hs₀.step hs) _ _ _ _ hending hrun
  exact ⟨(Nat.le_add_right _ _).trans (hcount.trans hpace),
    isSome_step hending'.timely hending'.expired⟩

/-- The target of the only metric of a task never answers: the deadline passes, and the round
returns. -/
theorem round_comes_to_end_hanging :
    ∃ (ipc : IPC) (s s' : Service) (tr tr' : List ServiceEvent) (round : Round) (t : WheelTimerTask)
      (bs : List (ServiceStep Unit ℕ Unit)),
      exec (step ⟨fun _ block => block⟩ oneTask [] ipc) (init 0)
        (askAndReport.take 6 ++ [.expire 0]) = some (s, tr) ∧
      s.rounds 0 = some round ∧ round.task.expired = true ∧
      s.jobs.dispatch.td.wheelTimer.task 0 = some t ∧
      exec (step ⟨fun _ block => block⟩ oneTask [] ipc) s bs = some (s', tr') ∧
      s'.rounds 0 = none ∧ bs.countP (·.isOf 0) ≤ 4 * t.job.metricsNames.length + 4 := by
  obtain ⟨write, hwrite⟩ := exists_injective_write
  let ipc : IPC := ⟨.ofLists, write, hwrite⟩
  have hrun : ∃ s tr round t s' tr', exec (step ⟨fun _ block => block⟩ oneTask [] ipc) (init 0)
        (askAndReport.take 6 ++ [.expire 0]) = some (s, tr) ∧ s.rounds 0 = some round ∧
      round.task.expired = true ∧ s.jobs.dispatch.td.wheelTimer.task 0 = some t ∧
      exec (step ⟨fun _ block => block⟩ oneTask [] ipc) s (List.replicate 5 (.loop 0 true none) ++
        [.finish 0] : List (ServiceStep Unit ℕ Unit)) = some (s', tr') ∧ s'.rounds 0 = none :=
    ⟨_, _, _, _, _, _, rfl, rfl, rfl, rfl, rfl, rfl⟩
  obtain ⟨s, tr, round, t, s', tr', hs, hround, hexpired, ht, hs', hnone⟩ := hrun
  exact ⟨ipc, s, s', tr, tr', round, t, _, hs, hround, hexpired, ht, hs', hnone,
    (round_comes_to_end hs hround hexpired ht hs').1⟩

end Service

end HertzBeat
