import HertzBeat.Dispatcher.WheelRuns

/-!
# Which tick runs a timeout

What every run of the wheel does to each of its timeouts.

`HertzBeat.WheelState.keepsTimeout_of_exec` is the contract the wheel does keep: a
timeout stays in the one bucket its target names until it is run or dropped, and
the tick that runs it is the first one due after the append – at least the target
and congruent to it modulo the number of buckets.

That is not the same as being on time. A bucket is processed once a revolution, so
a timeout whose target is no longer ahead when it is appended is not run by the
next tick: `HertzBeat.WheelState.onTime_iff` says exactly when it is.
-/

namespace HertzBeat

open Runs

variable {T : Type}

/-! ### Marked timeouts are not run -/

section Marked

variable {W target : ℤ} {r : ℕ}

theorem isRan_next_of_not_due {p : Phase} {e : WheelEvent} (hp : p.isRan = false)
    (he : ∀ t ∈ ticks [e], ¬Due W target t) : (p.next W target r e).isRan = false := by
  cases e with
  | processed t run swept =>
    rw [Bool.eq_false_iff]
    intro hran
    rcases next_processed_isRan.mp hran with h | ⟨-, hdue⟩
    · rw [hp] at h
      exact absurd h (by simp)
    · exact he t (by simp [ticks]) hdue
  | appended r' =>
    cases p with
    | unborn =>
      simp only [Phase.next]
      split_ifs <;> rfl
    | _ => exact hp
  | cancelled r' =>
    cases p with
    | waiting c =>
      simp only [Phase.next]
      split_ifs <;> rfl
    | _ => exact hp
  | read r' c d => cases p <;> exact hp

theorem isRan_foldl_of_not_due {l : List WheelEvent} {p : Phase} (hp : p.isRan = false)
    (hl : ∀ t ∈ ticks l, ¬Due W target t) :
    (l.foldl (Phase.next W target r) p).isRan = false := by
  induction l generalizing p with
  | nil => exact hp
  | cons e l ih =>
    have hsplit : ∀ t, t ∈ ticks (e :: l) ↔ t ∈ ticks [e] ∨ t ∈ ticks l := by
      intro t
      rw [show e :: l = [e] ++ l from rfl, ticks_append, List.mem_append]
    exact ih (isRan_next_of_not_due hp fun t ht => hl t ((hsplit t).mpr (Or.inl ht)))
      fun t ht => hl t ((hsplit t).mpr (Or.inr ht))

theorem next_cancelled_marked {p : Phase} (hborn : p ≠ .unborn) (hran : p.isRan = false) :
    p.next W target r (.cancelled r) = .waiting true ∨
      p.next W target r (.cancelled r) = .swept := by
  cases p with
  | unborn => exact absurd rfl hborn
  | waiting c => exact Or.inl (if_pos rfl)
  | ran t => exact absurd hran (by simp [Phase.isRan])
  | swept => exact Or.inr rfl

/-- Once marked, a timeout can only be dropped. -/
theorem marked_next {p : Phase} (h : p = .waiting true ∨ p = .swept) (e : WheelEvent) :
    p.next W target r e = .waiting true ∨ p.next W target r e = .swept := by
  rcases h with rfl | rfl
  · cases e with
    | cancelled r' =>
      simp only [Phase.next]
      split_ifs <;> simp
    | processed t run swept =>
      by_cases hmod : (t : ℤ) ≡ target [ZMOD W] <;> simp [Phase.next, hmod]
    | _ => exact Or.inl rfl
  · cases e <;> exact Or.inr rfl

theorem marked_foldl {l : List WheelEvent} {p : Phase} (h : p = .waiting true ∨ p = .swept) :
    (l.foldl (Phase.next W target r) p).isRan = false := by
  induction l generalizing p with
  | nil => rcases h with rfl | rfl <;> rfl
  | cons e l ih => exact ih (marked_next h e)

/-- Only a cancelled timeout is marked or dropped. -/
theorem cancelled_of_marked {tr : List WheelEvent}
    (h : phase W target r tr = .waiting true ∨ phase W target r tr = .swept) :
    .cancelled r ∈ tr := by
  induction tr using List.reverseRecOn with
  | nil => simp at h
  | append_singleton tr e ih =>
    -- no other event marks the automaton, or drops it unmarked
    by_cases he : e = .cancelled r
    · simp [he]
    · refine List.mem_append_left _ (ih ?_)
      rw [phase_snoc] at h
      cases e with
      | processed t run swept =>
        rcases h with h | h
        · exact Or.inl (eq_waiting_of_next_processed h)
        · rcases next_processed_eq_swept.mp h with h | h
          · exact Or.inr h
          · exact Or.inl h.1
      | cancelled r' =>
        have hr : r' ≠ r := fun hr => he (by rw [hr])
        cases hp : phase W target r tr <;> simp_all [Phase.next]
      | appended r' =>
        cases hp : phase W target r tr <;> simp_all [Phase.next]
        split_ifs at h <;> simp at h
      | read r' c d => cases hp : phase W target r tr <;> simp_all [Phase.next]

end Marked

/-! ### The contract of the wheel -/

/-- **What the wheel owes one timeout**, said of the trace of a run and of the buckets
at its end. -/
structure KeepsTimeout (W target : ℤ) (r : ℕ) (wheel : ℤ → List ℕ) (tr : List WheelEvent) :
    Prop where
  /-- Between its append and its end the timeout is in one bucket, once. -/
  in_bucket : .appended r ∈ tr → r ∉ runs tr → r ∉ drops tr →
    ∀ i, (wheel i).count r = if i = target % W then 1 else 0
  /-- After it was run or dropped it is in none. -/
  gone : r ∈ runs tr ∨ r ∈ drops tr → ∀ i, r ∉ wheel i
  /-- It is run at most once. -/
  once : (runs tr).count r ≤ 1
  /-- It is dropped only if it was cancelled. -/
  dropped : r ∈ drops tr → .cancelled r ∈ tr
  /-- A tick runs it exactly if it is the first due tick processed since the append and
  the timeout was not cancelled before. -/
  fires : ∀ pre t run swept post, tr = pre ++ .processed t run swept :: post →
    (r ∈ run ↔ Waits W target r pre ∧ Due W target t)
  /-- Cancelled before a due tick is processed, it is never run. -/
  cancelled : ∀ before since post, tr = before ++ .appended r :: since ++ .cancelled r :: post →
    (∀ t ∈ ticks since, ¬Due W target t) → r ∉ runs tr

namespace WheelState

/-- **Every run keeps every timeout.** The target is the counter value `NewTimeout`
read plus the whole ticks in the delay. -/
theorem keepsTimeout_of_exec {ws td : ℤ} {as : List (WheelAct T)} {s : WheelState T}
    {tr : List WheelEvent} (h : exec step (init T ws td) as = some (s, tr))
    {r c d : ℕ} (hread : .read r c d ∈ tr) :
    KeepsTimeout (init T ws td).timer.wheelSize (c + d / (init T ws td).timer.tickDuration) r
      s.timer.wheel tr := by
  have href := refines_of_exec h
  set W := (init T ws td).timer.wheelSize
  obtain ⟨-, htarget⟩ := href.read_eq r c d hread
  have hran : r ∈ runs tr ↔ (s.phaseOf W r tr).isRan := by
    rw [← List.count_pos_iff, href.runs_count r]
    split_ifs with hr <;> simp [hr]
  rw [← htarget]
  refine
    { in_bucket := ?_, gone := ?_, once := ?_, dropped := ?_, fires := ?_, cancelled := ?_ }
  · intro happ hnr hnd i
    have hw : (s.phaseOf W r tr).isWaiting := by
      rcases hp : s.phaseOf W r tr with _ | c' | t | _
      · exact absurd hp (phase_ne_unborn happ)
      · rfl
      · exact absurd (hran.mpr (by rw [hp]; rfl)) hnr
      · exact absurd ((href.mem_drops r).mpr hp) hnd
    rw [href.bucket r i]
    exact if_congr (and_iff_right hw) rfl rfl
  · intro hend i hmem
    obtain ⟨hw, -⟩ := href.mem_wheel_iff.mp hmem
    rcases hend with hr | hd
    · have hr' := hran.mp hr
      cases hp : s.phaseOf W r tr <;> simp_all [Phase.isWaiting, Phase.isRan]
    · rw [(href.mem_drops r).mp hd] at hw
      exact absurd hw (by simp [Phase.isWaiting])
  · rw [href.runs_count r]
    split_ifs <;> omega
  · intro hd
    exact cancelled_of_marked (Or.inr ((href.mem_drops r).mp hd))
  · intro pre t run swept post heq
    have hord : Orderly r pre := (heq ▸ href.orderly r).of_append
    rw [href.fires pre t run swept post r heq, phaseOf, phase_eq_waiting_iff hord]
  · intro before since post heq hdue hr
    -- run the automaton up to the cancellation: it has not run, so it is marked there
    have hbefore : phase W (s.timer.wheelIndex r) r before = .unborn :=
      phase_eq_unborn ((href.orderly r).appended_once before (since ++ .cancelled r :: post)
        (by rw [heq]; simp))
    set p := since.foldl (Phase.next W (s.timer.wheelIndex r) r) (.waiting false) with hp
    have hmid : phase W (s.timer.wheelIndex r) r (before ++ .appended r :: since) = p := by
      rw [phase_append, hbefore, List.foldl_cons,
        show Phase.next W (s.timer.wheelIndex r) r .unborn (.appended r) = .waiting false
          from if_pos rfl]
    have hborn : p ≠ .unborn := hmid ▸ phase_ne_unborn (by simp)
    have hnotran : p.isRan = false := isRan_foldl_of_not_due rfl hdue
    have hend : (s.phaseOf W r tr).isRan = false := by
      rw [phaseOf, heq, phase_append, hmid, List.foldl_cons]
      exact marked_foldl (next_cancelled_marked hborn hnotran)
    rw [hran.mp hr] at hend
    exact absurd hend (by simp)

/-- A timeout of one tick on a wheel of two buckets, run by the first tick. -/
theorem keepsTimeout_one_tick :
    ∃ s tr, exec step (init Unit 2 1) [.read () 1 0, .append 0, .advance, .process] = some (s, tr) ∧
      WheelEvent.read 0 0 1 ∈ tr ∧ KeepsTimeout 2 1 0 s.timer.wheel tr := by
  obtain ⟨⟨s, tr⟩, h⟩ := Option.isSome_iff_exists.mp (show
    (exec step (init Unit 2 1) [.read () 1 0, .append 0, .advance, .process]).isSome from rfl)
  have htr : [.read 0 0 1, .appended 0, .processed 1 [0] []] = tr :=
    Option.some.inj (congrArg (Option.map Prod.snd) h)
  have hread : WheelEvent.read 0 0 1 ∈ tr := by simp [← htr]
  exact ⟨s, tr, h, hread, keepsTimeout_of_exec h hread⟩

/-! ### The clock -/

/-- The number of the next tick to be processed. -/
def nextTick (s : WheelState T) : ℕ :=
  match s.ticking with
  | some t => t
  | none => s.timer.currentTick + 1

/-- The ticks were processed in order and none was left out. -/
structure Clocked (s : WheelState T) (tr : List WheelEvent) : Prop where
  ticks_eq : ticks tr = List.range' 1 (s.nextTick - 1)
  nextTick_pos : 0 < s.nextTick
  ticking_eq : ∀ t, s.ticking = some t → t = s.timer.currentTick

/-- A step that neither advances the counter nor processes a bucket. -/
theorem Clocked.of_still {s s' : WheelState T} {tr : List WheelEvent} (h : Clocked s tr)
    {e : WheelEvent} (he : ticks [e] = []) (htick : s'.ticking = s.ticking)
    (hcur : s'.timer.currentTick = s.timer.currentTick) : Clocked s' (tr ++ [e]) := by
  have hnext : s'.nextTick = s.nextTick := by rw [nextTick, nextTick, htick, hcur]
  refine ⟨?_, hnext ▸ h.nextTick_pos, fun t ht => ?_⟩
  · rw [ticks_append, he, List.append_nil, hnext, h.ticks_eq]
  · rw [hcur]
    exact h.ticking_eq t (htick ▸ ht)

theorem Clocked.step {s s' : WheelState T} {tr ev : List WheelEvent} {a : WheelAct T}
    (h : Clocked s tr) (hstep : s.step a = some (s', ev)) : Clocked s' (tr ++ ev) := by
  cases a with
  | read task delay now =>
    simp only [WheelState.step] at hstep
    split_ifs at hstep
    obtain ⟨rfl, rfl⟩ := Prod.mk.inj (Option.some.inj hstep)
    exact h.of_still rfl rfl rfl
  | append r =>
    simp only [WheelState.step, HashedWheelTimer.addToBucket] at hstep
    split_ifs at hstep
    obtain ⟨rfl, rfl⟩ := Prod.mk.inj (Option.some.inj hstep)
    exact h.of_still rfl rfl rfl
  | cancel r =>
    simp only [WheelState.step] at hstep
    split_ifs at hstep
    obtain ⟨rfl, rfl⟩ := Prod.mk.inj (Option.some.inj hstep)
    exact h.of_still rfl rfl rfl
  | advance =>
    rcases ht : s.ticking with _ | t
    · simp only [WheelState.step, ht] at hstep
      obtain ⟨rfl, rfl⟩ := Prod.mk.inj (Option.some.inj hstep)
      have hticks := h.ticks_eq
      rw [nextTick, ht] at hticks
      exact ⟨by rw [List.append_nil]; exact hticks, Nat.succ_pos _, by
        rintro t ⟨⟩
        rfl⟩
    · simp [WheelState.step, ht] at hstep
  | process =>
    rcases ht : s.ticking with _ | t
    · simp [WheelState.step, ht] at hstep
    · simp only [WheelState.step, ht] at hstep
      obtain ⟨rfl, rfl⟩ := Prod.mk.inj (Option.some.inj hstep)
      have hticks := h.ticks_eq
      have hpos := h.nextTick_pos
      rw [nextTick, ht] at hticks hpos
      refine ⟨?_, Nat.succ_pos _, fun t ht => absurd ht (by simp)⟩
      -- the counter is the number of the tick, which was the next one
      change ticks (tr ++ [_]) = List.range' 1 s.timer.currentTick
      rw [ticks_append, hticks, ← h.ticking_eq t ht]
      obtain ⟨n, rfl⟩ : ∃ n, t = n + 1 := ⟨t - 1, by simp at hpos; omega⟩
      simp [ticks, List.range'_concat, Nat.add_comm]

theorem clocked_of_exec {ws td : ℤ} {as : List (WheelAct T)} {s : WheelState T}
    {tr : List WheelEvent} (h : exec WheelState.step (WheelState.init T ws td) as = some (s, tr)) :
    Clocked s tr :=
  exec_induction ⟨rfl, by simp [nextTick, init], fun t ht => absurd ht (by simp [init])⟩
    (fun _ _ _ _ _ hinv hstep => hinv.step hstep) h

/-! ### Being on time -/

/-- **The timeout whose append is next is on time**: however the run goes on, the first
tick processed after the append that is not before the target has run it, unless it
was cancelled by then. -/
def OnTime (s : WheelState T) (r : ℕ) (target : ℤ) : Prop :=
  ∀ bs s' tr since (t : ℕ) run swept post, exec step s (.append r :: bs) = some (s', tr) →
    tr = .appended r :: since ++ .processed t run swept :: post →
    (∀ t' ∈ ticks since, (t' : ℤ) < target) → target ≤ t → .cancelled r ∉ since →
    r ∈ runs (since ++ [.processed t run swept])

theorem step_process {s : WheelState T} {t : ℕ} (ht : s.ticking = some t) :
    s.step .process = some ({ s with timer := (s.timer.processTick t).1, ticking := none },
      [.processed t (s.timer.processTick t).2.run (s.timer.processTick t).2.swept]) := by
  simp only [WheelState.step, ht]

/-- The next tick can be processed whatever state the run is in. -/
theorem exists_process (s : WheelState T) :
    ∃ as s' run swept, exec step s as = some (s', [.processed s.nextTick run swept]) := by
  rcases ht : s.ticking with _ | t
  · have hadv : s.step .advance =
        some ({ s with
          timer := s.timer.advance
          ticking := some (s.timer.currentTick + 1) }, []) := by
      simp only [WheelState.step, ht, HashedWheelTimer.advance]
    have hnext : s.nextTick = s.timer.currentTick + 1 := by rw [nextTick, ht]
    rw [hnext]
    exact ⟨[.advance, .process], _, _, _,
      exec_cons.mpr ⟨_, _, _, hadv, exec_singleton.mpr (step_process rfl), rfl⟩⟩
  · have hnext : s.nextTick = t := by rw [nextTick, ht]
    rw [hnext]
    exact ⟨[.process], _, _, _, exec_singleton.mpr (step_process ht)⟩

theorem Refines.exists_append {W td : ℤ} {s : WheelState T} {tr : List WheelEvent}
    (h : Refines W td s tr) {r : ℕ} (hr : r ∈ s.calls) :
    ∃ s', s.step (.append r) = some (s', [.appended r]) ∧ s'.nextTick = s.nextTick := by
  have hW : 0 < W := h.wheelSize_eq ▸ s.timer.wheelSize_pos
  have hidx : 0 ≤ s.timer.bucketIndex r ∧ s.timer.bucketIndex r < s.timer.wheelSize := by
    rw [h.bucketIndex_eq r (h.calls_fresh r hr).1, h.wheelSize_eq]
    exact ⟨Int.emod_nonneg _ hW.ne', Int.emod_lt_of_pos _ hW⟩
  have hstep : s.step (.append r) = some ({ s with
      timer := s.timer.push (s.timer.bucketIndex r) r, calls := s.calls.filter (· ≠ r) },
      [.appended r]) := by
    simp only [WheelState.step, if_pos hr, HashedWheelTimer.addToBucket, if_pos hidx]
  exact ⟨_, hstep, rfl⟩

/-- The ticks processed since a state was reached are numbered from its next one on. -/
theorem Clocked.ticks_since {s s' : WheelState T} {tr since : List WheelEvent}
    (h : Clocked s tr) (h' : Clocked s' (tr ++ since)) :
    ticks since = List.range' s.nextTick (ticks since).length := by
  have hpos := h.nextTick_pos
  have hlen : s'.nextTick - 1 = (s.nextTick - 1) + (ticks since).length := by
    have := congrArg List.length h'.ticks_eq
    rw [ticks_append, List.length_append, h.ticks_eq, List.length_range',
      List.length_range'] at this
    exact this.symm
  have heq := h'.ticks_eq
  rw [ticks_append, h.ticks_eq, hlen, ← List.range'_append_1, List.append_cancel_left_eq] at heq
  rw [show 1 + (s.nextTick - 1) = s.nextTick by omega] at heq
  exact heq

/-- A tick and those before it, where the ticks are numbered from `n` on. -/
theorem eq_add_length_of_range' {n len t : ℕ} {l l' : List ℕ}
    (h : l ++ t :: l' = List.range' n len) :
    t = n + l.length ∧ ∀ i < l.length, n + i ∈ l := by
  have hget : ∀ i, i ≤ l.length → (l ++ t :: l')[i]? = some (n + i) := by
    intro i hi
    have hlen := congrArg List.length h
    rw [List.length_append, List.length_cons, List.length_range'] at hlen
    rw [h, List.getElem?_range' (by omega), Nat.one_mul]
  constructor
  · have hlast := hget l.length le_rfl
    rw [List.getElem?_append_right le_rfl] at hlast
    simpa using hlast
  · intro i hi
    have hmid := hget i hi.le
    rw [List.getElem?_append_left hi] at hmid
    exact List.mem_of_getElem? hmid

/-- The ticks are numbered without a gap, so the first one that is not before the target
is the target itself, or else the very next tick. -/
theorem due_of_first {W target : ℤ} {n len t : ℕ} {l l' : List ℕ}
    (h : l ++ t :: l' = List.range' n len) (hbefore : ∀ t' ∈ l, (t' : ℤ) < target)
    (hle : target ≤ t) (hcond : (n : ℤ) ≤ target ∨ (n : ℤ) ≡ target [ZMOD W]) :
    Due W target t := by
  obtain ⟨ht, hall⟩ := eq_add_length_of_range' h
  rcases Nat.eq_zero_or_pos l.length with hzero | hpos
  · obtain rfl : t = n := by omega
    rcases hcond with hlt | hmod
    · have heq : (t : ℤ) = target := by omega
      exact ⟨hle, heq ▸ Int.ModEq.refl _⟩
    · exact ⟨hle, hmod⟩
  · have hlast := hbefore _ (hall (l.length - 1) (by omega))
    have heq : (t : ℤ) = target := by omega
    exact ⟨hle, heq ▸ Int.ModEq.refl _⟩

/-- **When a timeout is on time.** At the append its target must still be ahead, or the
next tick must happen to process its bucket; otherwise the bucket has been passed and
the timeout waits for the rest of the revolution. -/
theorem onTime_iff {ws td : ℤ} {as : List (WheelAct T)} {s : WheelState T}
    {tr : List WheelEvent} (h : exec step (init T ws td) as = some (s, tr))
    {r c d : ℕ} (hread : .read r c d ∈ tr) (hr : r ∈ s.calls) :
    OnTime s r (c + d / (init T ws td).timer.tickDuration) ↔
      (s.nextTick : ℤ) ≤ c + d / (init T ws td).timer.tickDuration ∨
        (s.nextTick : ℤ) ≡ c + d / (init T ws td).timer.tickDuration
          [ZMOD (init T ws td).timer.wheelSize] := by
  have href := refines_of_exec h
  have hclock := clocked_of_exec h
  set W := (init T ws td).timer.wheelSize
  set td' := (init T ws td).timer.tickDuration
  -- whatever is appended to the run, its ticks run what is due
  have hfires : ∀ bs s' tr', exec step s bs = some (s', tr') →
      ∀ pre t run swept post, tr ++ tr' = pre ++ .processed t run swept :: post →
        (r ∈ run ↔ Waits W (c + d / td') r pre ∧ Due W (c + d / td') t) := by
    intro bs s' tr' hbs pre t run swept post heq
    have hall := refines_of_exec (exec_append.mpr ⟨s, tr, tr', h, hbs, rfl⟩)
    have htarget := (hall.read_eq r c d (List.mem_append_left _ hread)).2
    have hord : Orderly r pre := (heq ▸ hall.orderly r).of_append
    rw [hall.fires pre t run swept post r heq, phaseOf, phase_eq_waiting_iff hord, htarget]
  constructor
  · intro hon
    by_contra hc
    rw [not_or] at hc
    obtain ⟨s₁, happ, hnext⟩ := href.exists_append hr
    obtain ⟨bs, s₂, run, swept, hproc⟩ := s₁.exists_process
    have hrun : exec step s (.append r :: bs) =
        some (s₂, [.appended r] ++ [.processed s.nextTick run swept]) :=
      exec_cons.mpr ⟨s₁, _, _, happ, hnext ▸ hproc, rfl⟩
    have hmem := hon bs s₂ _ [] s.nextTick run swept [] hrun rfl (by simp [ticks]) (by omega)
      (by simp)
    have hdue := ((hfires _ _ _ hrun (tr ++ [.appended r]) s.nextTick run swept []
      (by simp)).mp (by simpa [runs] using hmem)).2
    exact hc.2 hdue.2
  · intro hcond bs s' tr' since t run swept post hrun heq hbefore hle hcan
    have hpre : tr ++ tr' = (tr ++ .appended r :: since) ++ .processed t run swept :: post := by
      rw [heq]
      simp
    have hord := (refines_of_exec (exec_append.mpr ⟨s, tr, tr', h, hrun, rfl⟩)).orderly r
    have hnone : .cancelled r ∉ tr ++ .appended r :: since := by
      intro hmem
      rcases List.mem_append.mp hmem with hm | hm
      · obtain ⟨pre, post', hcut⟩ := List.append_of_mem hm
        have happ := hord.of_append.cancelled_after pre post' hcut
        exact (href.calls_fresh r hr).2.1 (by rw [hcut]; exact List.mem_append_left _ happ)
      · exact hcan (by simpa using hm)
    have hdue : Due W (c + d / td') t := by
      have hclock' := clocked_of_exec (exec_append.mpr ⟨s, tr, tr', h, hrun, rfl⟩)
      have hcut := hclock.ticks_since hclock'
      have hsplit : ticks tr' = ticks since ++ t :: ticks post := by
        rw [heq, List.cons_append, ← List.singleton_append, ticks_append, ticks_append,
          ← List.singleton_append (l := post), ticks_append]
        simp [ticks]
      exact due_of_first (hsplit.symm.trans hcut) hbefore hle hcond
    have hwaits : Waits W (c + d / td') r (tr ++ .appended r :: since) :=
      ⟨tr, since, rfl, fun t' ht' hd => absurd (hbefore t' ht') (not_lt.mpr hd.1), hnone⟩
    have hmem := (hfires _ _ _ hrun _ t run swept post hpre).mpr ⟨hwaits, hdue⟩
    rw [runs_snoc]
    exact List.mem_append_right _ (by simpa [runs] using hmem)

/-- A delay of one tick on the dispatcher's wheel. -/
theorem onTime_one_tick :
    ∃ s tr, exec step (init Unit 512 (100 * Go.millisecond)) [.read () 100000000 0] = some (s, tr) ∧
      WheelEvent.read 0 0 100000000 ∈ tr ∧ 0 ∈ s.calls ∧ OnTime s 0 1 := by
  have h : exec step (init Unit 512 (100 * Go.millisecond)) [.read () 100000000 0] = some _ := rfl
  have hread : WheelEvent.read 0 0 100000000 ∈ [WheelEvent.read 0 0 100000000] := by simp
  exact ⟨_, _, h, hread, by decide, (onTime_iff h hread (by decide)).mpr (Or.inl (by decide))⟩

/-- **A delay shorter than a tick costs a revolution.** The timeout is due at once, and
the next tick, the first one after the append, does not run it. -/
theorem not_onTime_short_delay :
    ∃ s tr, exec step (init Unit 512 (100 * Go.millisecond)) [.read () 99999999 0] = some (s, tr) ∧
      WheelEvent.read 0 0 99999999 ∈ tr ∧ 0 ∈ s.calls ∧ ¬OnTime s 0 0 := by
  refine ⟨_, _, rfl, by decide, by decide, fun hon => ?_⟩
  have hmem := hon [.advance, .process] _ _ [] 1 [] [] [] rfl rfl (by decide) (by decide)
    (by decide)
  exact absurd hmem (by decide)

end WheelState

end HertzBeat
