import HertzBeat.Dispatcher.HashedWheelTimer
import HertzBeat.Dispatcher.TimeoutPhase
import HertzBeat.Lib.Run
import Mathlib.Data.List.Count

/-!
# Runs of the timer wheel

The wheel on its own, with any number of goroutines calling `NewTimeout` and
`Cancel` while the ticks go on. Every call and every tick is split where the
source touches shared state, and a run is any interleaving of the pieces; only the
two halves of a tick are kept in sequence, one goroutine taking them all.

`HertzBeat.WheelState.Refines` ties every timeout of the wheel to its own automaton
(`HertzBeat.Phase`): it is in the bucket `target % W` and nowhere else exactly while
the automaton waits. One step keeps this (`HertzBeat.WheelState.Refines.step`), so
every run does, and what the wheel does to a timeout can be read off the
automaton – no timeout sees another.
-/

namespace HertzBeat

open Runs

/-! ### The system -/

/-- The wheel, the `NewTimeout` calls that have read the counter but not yet
appended, and the tick whose bucket is still to be processed. -/
structure WheelState (T : Type) where
  /-- The timer. -/
  timer : HashedWheelTimer T
  /-- The timeouts of the `NewTimeout` calls under way. -/
  calls : List ℕ
  /-- The number of the tick under way, if one is. -/
  ticking : Option ℕ

/-- One piece of a call, or of a tick. -/
inductive WheelAct (T : Type) where
  /-- `NewTimeout` reads the counter. A delay is not negative here. -/
  | read (task : T) (delay : ℕ) (now : ℤ)
  /-- The `NewTimeout` call that created this timeout appends it to its bucket. -/
  | append (r : ℕ)
  /-- `Cancel`, through a pointer that `NewTimeout` has returned. -/
  | cancel (r : ℕ)
  /-- A tick advances the counter. -/
  | advance
  /-- The tick under way processes its bucket. -/
  | process

namespace WheelState

variable {T : Type}

/-- A new timer, with no call and no tick under way. -/
def init (T : Type) (wheelSize tickDuration : ℤ) : WheelState T where
  timer := HashedWheelTimer.newHashedWheelTimer T wheelSize tickDuration
  calls := []
  ticking := none

/-- One step of the system. -/
def step (s : WheelState T) : WheelAct T → Option (WheelState T × List WheelEvent)
  | .read task delay now =>
    if s.timer.stopped then none
    else
      let r := s.timer.timeouts.size
      some ({ s with timer := s.timer.prepareTimeout task delay now, calls := r :: s.calls },
        [.read r s.timer.currentTick delay])
  | .append r =>
    if r ∈ s.calls then
      -- the bucket is the one worked out by `read`, wherever the counter is now
      match s.timer.addToBucket r with
      | .ok timer =>
        some ({ s with timer := timer, calls := s.calls.filter (· ≠ r) }, [.appended r])
      | .error _ => none
    else none
  | .cancel r =>
    if r < s.timer.timeouts.size ∧ r ∉ s.calls then
      some ({ s with timer := s.timer.cancel r }, [.cancelled r])
    else none
  | .advance =>
    match s.ticking with
    | some _ => none
    | none =>
      some ({ s with timer := s.timer.advance, ticking := some s.timer.advance.currentTick }, [])
  | .process =>
    match s.ticking with
    | none => none
    | some t =>
      let p := s.timer.processTick t
      some ({ s with timer := p.1, ticking := none }, [.processed t p.2.run p.2.swept])

end WheelState

/-! ### The wheel keeps every timeout to its automaton -/

namespace WheelState

variable {T : Type}

/-- The automaton of the timeout at an address, with the target the timeout
holds. -/
def phaseOf (W : ℤ) (s : WheelState T) (r : ℕ) (tr : List WheelEvent) : Phase :=
  phase W (s.timer.wheelIndex r) r tr

/-- **The wheel refines its timeouts' automata.** The fields are what holds of the
state and of the trace that led to it. -/
structure Refines (W td : ℤ) (s : WheelState T) (tr : List WheelEvent) : Prop where
  wheelSize_eq : s.timer.wheelSize = W
  tickDuration_eq : s.timer.tickDuration = td
  /-- The target is the one the counter value and the delay give. -/
  read_eq : ∀ r c d : ℕ, .read r c d ∈ tr →
    r < s.timer.timeouts.size ∧ s.timer.wheelIndex r = c + d / td
  bucketIndex_eq : ∀ r < s.timer.timeouts.size, s.timer.bucketIndex r = s.timer.wheelIndex r % W
  calls_fresh : ∀ r ∈ s.calls,
    r < s.timer.timeouts.size ∧ .appended r ∉ tr ∧ s.timer.isCancelled r = false
  born : ∀ r < s.timer.timeouts.size, r ∈ s.calls ∨ .appended r ∈ tr
  appended_lt : ∀ r, .appended r ∈ tr → r < s.timer.timeouts.size
  orderly : ∀ r, Orderly r tr
  /-- A timeout is in one bucket, that of its target, while its automaton waits, and
  in none otherwise. -/
  bucket : ∀ r i, (s.timer.wheel i).count r =
    if (s.phaseOf W r tr).isWaiting ∧ i = s.timer.wheelIndex r % W then 1 else 0
  marked : ∀ r c, s.phaseOf W r tr = .waiting c → s.timer.isCancelled r = c
  runs_count : ∀ r, (runs tr).count r = if (s.phaseOf W r tr).isRan then 1 else 0
  mem_drops : ∀ r, r ∈ drops tr ↔ s.phaseOf W r tr = .swept
  /-- A tick ran a timeout exactly when the automaton before it waited unmarked and
  the tick was due. -/
  fires : ∀ pre t run swept post r, tr = pre ++ .processed t run swept :: post →
    (r ∈ run ↔ s.phaseOf W r pre = .waiting false ∧ Due W (s.timer.wheelIndex r) t)

theorem Refines.init (ws td : ℤ) :
    Refines (init T ws td).timer.wheelSize (init T ws td).timer.tickDuration
      (init T ws td) [] where
  wheelSize_eq := rfl
  tickDuration_eq := rfl
  read_eq := fun r c d h => absurd h (by simp)
  bucketIndex_eq := fun r h => absurd h (by
    simp [WheelState.init, HashedWheelTimer.newHashedWheelTimer])
  calls_fresh := fun r h => absurd h (by simp [WheelState.init])
  born := fun r h => absurd h (by simp [WheelState.init, HashedWheelTimer.newHashedWheelTimer])
  appended_lt := fun r h => absurd h (by simp)
  orderly := fun r => Orderly.nil
  bucket := fun r i => by
    simp [WheelState.init, HashedWheelTimer.newHashedWheelTimer, phaseOf, Phase.isWaiting]
  marked := fun r c h => absurd h (by simp [phaseOf])
  runs_count := fun r => by simp [runs, phaseOf, Phase.isRan]
  mem_drops := fun r => by simp [drops, phaseOf]
  fires := fun pre t run swept post r h => absurd h (by simp)

variable {W td : ℤ} {s : WheelState T} {tr : List WheelEvent}

theorem Refines.lt_of_waiting (h : Refines W td s tr) {r : ℕ}
    (hw : (s.phaseOf W r tr).isWaiting) : r < s.timer.timeouts.size := by
  have hborn : phase W (s.timer.wheelIndex r) r tr ≠ .unborn := fun hc => by
    rw [phaseOf, hc] at hw
    exact absurd hw (by simp [Phase.isWaiting])
  exact h.appended_lt r (appended_of_phase hborn)

theorem Refines.mem_wheel_iff (h : Refines W td s tr) {r : ℕ} {i : ℤ} :
    r ∈ s.timer.wheel i ↔
      (s.phaseOf W r tr).isWaiting ∧ i = s.timer.wheelIndex r % W := by
  rw [← List.count_pos_iff, h.bucket r i]
  split_ifs with hc
  · exact iff_of_true Nat.one_pos hc
  · exact iff_of_false (by omega) hc

/-- What the trace says of the ticks before, after a step that processes none. -/
theorem Refines.fires_snoc (h : Refines W td s tr) {s' : WheelState T} {e : WheelEvent}
    (he : ∀ t run swept, e ≠ .processed t run swept)
    (hidx : ∀ r, .appended r ∈ tr → s'.timer.wheelIndex r = s.timer.wheelIndex r)
    {pre post : List WheelEvent} {t : ℕ} {run swept : List ℕ} {r : ℕ}
    (heq : tr ++ [e] = pre ++ .processed t run swept :: post) :
    r ∈ run ↔ s'.phaseOf W r pre = .waiting false ∧ Due W (s'.timer.wheelIndex r) t := by
  rcases snoc_eq_append_cons.mp heq with ⟨-, -, hx⟩ | ⟨post', -, htr⟩
  · exact absurd hx.symm (he t run swept)
  · rw [h.fires pre t run swept post' r htr]
    by_cases hr : .appended r ∈ pre
    · rw [phaseOf, phaseOf, hidx r (by rw [htr]; exact List.mem_append_left _ hr)]
    · rw [phaseOf, phaseOf, phase_eq_unborn hr, phase_eq_unborn hr]
      simp

/-- The automaton depends on the target of a timeout only once it was appended. -/
theorem phaseOf_congr {s s' : WheelState T} {r : ℕ}
    (hidx : .appended r ∈ tr → s'.timer.wheelIndex r = s.timer.wheelIndex r) :
    s'.phaseOf W r tr = s.phaseOf W r tr := by
  by_cases hr : .appended r ∈ tr
  · rw [phaseOf, phaseOf, hidx hr]
  · rw [phaseOf, phaseOf, phase_eq_unborn hr, phase_eq_unborn hr]

/-- What the trace says of the runs, after a step that processes no tick. -/
theorem Refines.runs_count_snoc (h : Refines W td s tr) {s' : WheelState T} {e : WheelEvent}
    (he : ∀ t run swept, e ≠ .processed t run swept)
    (hidx : ∀ r, .appended r ∈ tr → s'.timer.wheelIndex r = s.timer.wheelIndex r) (r : ℕ) :
    (runs (tr ++ [e])).count r = if (s'.phaseOf W r (tr ++ [e])).isRan then 1 else 0 := by
  rw [runs_snoc_of_other he, h.runs_count r, ← phaseOf_congr (hidx r)]
  rw [phaseOf, phaseOf, phase_snoc, (next_of_not_processed he).1]

/-- What it says of the drops. -/
theorem Refines.mem_drops_snoc (h : Refines W td s tr) {s' : WheelState T} {e : WheelEvent}
    (he : ∀ t run swept, e ≠ .processed t run swept)
    (hidx : ∀ r, .appended r ∈ tr → s'.timer.wheelIndex r = s.timer.wheelIndex r) (r : ℕ) :
    r ∈ drops (tr ++ [e]) ↔ s'.phaseOf W r (tr ++ [e]) = .swept := by
  rw [drops_snoc_of_other he, h.mem_drops r, ← phaseOf_congr (hidx r)]
  rw [phaseOf, phaseOf, phase_snoc, (next_of_not_processed he).2]

/-! Every field of the relation is shown to survive each kind of step. The fields about
buckets, marks, runs and drops go by what the step does to the automata, which is
settled first. -/

section Read

variable (task : T) (delay : ℕ) (now : ℤ)

theorem Refines.wheelIndex_read (h : Refines W td s tr) :
    (s.timer.prepareTimeout task delay now).wheelIndex s.timer.timeouts.size =
      s.timer.currentTick + delay / td := by
  rw [s.timer.wheelIndex_prepareTimeout_new task delay now, h.tickDuration_eq,
    Int.tdiv_eq_ediv_of_nonneg (by omega)]

/-- A timeout that is in the trace is not the new one. -/
theorem Refines.wheelIndex_read_of_appended (h : Refines W td s tr) (r : ℕ)
    (hr : .appended r ∈ tr) :
    (s.timer.prepareTimeout task delay now).wheelIndex r = s.timer.wheelIndex r :=
  s.timer.wheelIndex_prepareTimeout task delay now (h.appended_lt r hr).ne

theorem Refines.bucketIndex_read (h : Refines W td s tr) {r : ℕ}
    (hlt : r < s.timer.timeouts.size + 1) :
    (s.timer.prepareTimeout task delay now).bucketIndex r =
      (s.timer.prepareTimeout task delay now).wheelIndex r % W := by
  rcases eq_or_ne r s.timer.timeouts.size with rfl | hr
  · have hnonneg : 0 ≤ (s.timer.currentTick : ℤ) + delay / td := by
      have htd : 0 < td := h.tickDuration_eq ▸ s.timer.tickDuration_pos
      have := Int.ediv_nonneg (Int.natCast_nonneg delay) htd.le
      omega
    rw [s.timer.bucketIndex_prepareTimeout_new task delay now, h.tickDuration_eq, h.wheelSize_eq,
      Int.tdiv_eq_ediv_of_nonneg (by omega), Int.tmod_eq_emod_of_nonneg hnonneg,
      h.wheelIndex_read task delay now]
  · rw [s.timer.bucketIndex_prepareTimeout task delay now hr,
      s.timer.wheelIndex_prepareTimeout task delay now hr]
    exact h.bucketIndex_eq r (by omega)

/-- The new timeout has no automaton yet, and the others have not moved. -/
theorem Refines.phase_read (h : Refines W td s tr) (c r : ℕ) :
    phase W ((s.timer.prepareTimeout task delay now).wheelIndex r) r
        (tr ++ [.read s.timer.timeouts.size c delay]) = s.phaseOf W r tr := by
  rw [phase_snoc_of_other (by simp) (by simp) (by simp)]
  change phaseOf W { s with timer := s.timer.prepareTimeout task delay now } r tr = _
  exact phaseOf_congr (h.wheelIndex_read_of_appended task delay now r)

theorem Refines.step_read (h : Refines W td s tr) :
    Refines W td
      { s with timer := s.timer.prepareTimeout task delay now,
               calls := s.timer.timeouts.size :: s.calls }
      (tr ++ [.read s.timer.timeouts.size s.timer.currentTick delay]) := by
  have hfresh : .appended s.timer.timeouts.size ∉ tr := fun hc =>
    (h.appended_lt _ hc).ne rfl
  have hidx := h.wheelIndex_read_of_appended task delay now
  refine
    { wheelSize_eq := h.wheelSize_eq
      tickDuration_eq := h.tickDuration_eq
      read_eq := ?_, bucketIndex_eq := ?_, calls_fresh := ?_, born := ?_, appended_lt := ?_
      orderly := fun r => (h.orderly r).snoc (by simp) (by simp)
      bucket := ?_, marked := ?_
      runs_count := h.runs_count_snoc (by simp) hidx
      mem_drops := h.mem_drops_snoc (by simp) hidx
      fires := fun pre t run swept post r heq => h.fires_snoc (by simp) hidx heq }
  -- the target of the new timeout is the one its own event gives
  · intro r c d hmem
    rw [HashedWheelTimer.prepareTimeout_size]
    rcases List.mem_append.mp hmem with hm | hm
    · obtain ⟨hlt, heq⟩ := h.read_eq r c d hm
      exact ⟨by omega, by rw [s.timer.wheelIndex_prepareTimeout task delay now hlt.ne, heq]⟩
    · obtain ⟨rfl, rfl, rfl⟩ : r = s.timer.timeouts.size ∧ c = s.timer.currentTick ∧ d = delay := by
        simpa using hm
      exact ⟨by omega, h.wheelIndex_read task d now⟩
  · intro r hlt
    rw [HashedWheelTimer.prepareTimeout_size] at hlt
    exact h.bucketIndex_read task delay now hlt
  · intro r hr
    rw [HashedWheelTimer.prepareTimeout_size]
    rcases List.mem_cons.mp hr with rfl | hr
    · exact ⟨by omega, by simpa using hfresh, by
        rw [s.timer.isCancelled_prepareTimeout task delay now]
        exact s.timer.isCancelled_of_size_le le_rfl⟩
    · obtain ⟨hlt, hna, hnc⟩ := h.calls_fresh r hr
      exact ⟨by omega, by simpa using hna, by
        rw [s.timer.isCancelled_prepareTimeout task delay now]
        exact hnc⟩
  · intro r hlt
    rw [HashedWheelTimer.prepareTimeout_size] at hlt
    rcases eq_or_ne r s.timer.timeouts.size with rfl | hr
    · exact Or.inl (List.mem_cons_self)
    · rcases h.born r (by omega) with hb | hb
      · exact Or.inl (List.mem_cons_of_mem _ hb)
      · exact Or.inr (List.mem_append_left _ hb)
  · intro r hmem
    rw [HashedWheelTimer.prepareTimeout_size]
    have hm : .appended r ∈ tr := by simpa using hmem
    have := h.appended_lt r hm
    omega
  · intro r i
    rw [phaseOf, h.phase_read task delay now, s.timer.prepareTimeout_wheel task delay now,
      h.bucket r i]
    by_cases hw : (s.phaseOf W r tr).isWaiting
    · rw [s.timer.wheelIndex_prepareTimeout task delay now (h.lt_of_waiting hw).ne]
    · simp [hw]
  · intro r c hc
    rw [phaseOf, h.phase_read task delay now] at hc
    rw [s.timer.isCancelled_prepareTimeout task delay now]
    exact h.marked r c hc

end Read

/-- The automaton of a timeout that is appended begins to wait. -/
theorem Refines.phase_append_self (h : Refines W td s tr) {r₀ : ℕ} (hr₀ : r₀ ∈ s.calls) :
    phase W (s.timer.wheelIndex r₀) r₀ (tr ++ [.appended r₀]) = .waiting false := by
  rw [phase_snoc, phase_eq_unborn (h.calls_fresh r₀ hr₀).2.1]
  exact if_pos rfl

/-- The automata of the others stay where they are. -/
theorem phase_append_of_ne {r r₀ : ℕ} (hne : r ≠ r₀) :
    phase W (s.timer.wheelIndex r) r (tr ++ [.appended r₀]) = s.phaseOf W r tr := by
  rw [phase_snoc_of_other (by simpa using Ne.symm hne) (by simp) (by simp), phaseOf]

/-- How often a timeout is in a bucket after one was appended. -/
theorem Refines.count_push (h : Refines W td s tr) {r₀ : ℕ} (hr₀ : r₀ ∈ s.calls) (r : ℕ) (i : ℤ) :
    ((s.timer.push (s.timer.bucketIndex r₀) r₀).wheel i).count r =
      if (phase W (s.timer.wheelIndex r) r (tr ++ [.appended r₀])).isWaiting ∧
        i = s.timer.wheelIndex r % W then 1 else 0 := by
  obtain ⟨hlt₀, hfresh, -⟩ := h.calls_fresh r₀ hr₀
  simp only [HashedWheelTimer.push, h.bucketIndex_eq r₀ hlt₀]
  rcases eq_or_ne r r₀ with rfl | hne
  · -- it was in no bucket, its automaton being unborn
    have hzero (i : ℤ) : (s.timer.wheel i).count r = 0 := by
      rw [h.bucket r i, phaseOf, phase_eq_unborn hfresh]
      rfl
    rw [h.phase_append_self hr₀]
    rcases eq_or_ne i (s.timer.wheelIndex r % W) with rfl | hi
    · rw [Function.update_self, List.count_append, hzero]
      simp [Phase.isWaiting]
    · rw [Function.update_of_ne hi, hzero]
      simp [hi]
  · rw [phase_append_of_ne hne, ← h.bucket r i]
    rcases eq_or_ne i (s.timer.wheelIndex r₀ % W) with rfl | hi
    · rw [Function.update_self, List.count_append]
      simp [Ne.symm hne]
    · rw [Function.update_of_ne hi]

theorem Refines.step_append (h : Refines W td s tr) {r₀ : ℕ} (hr₀ : r₀ ∈ s.calls) :
    Refines W td
      { s with timer := s.timer.push (s.timer.bucketIndex r₀) r₀,
               calls := s.calls.filter (· ≠ r₀) }
      (tr ++ [.appended r₀]) := by
  obtain ⟨hlt₀, hfresh, hnc⟩ := h.calls_fresh r₀ hr₀
  refine
    { wheelSize_eq := h.wheelSize_eq
      tickDuration_eq := h.tickDuration_eq
      read_eq := fun r c d hm => h.read_eq r c d (by simpa using hm)
      bucketIndex_eq := h.bucketIndex_eq
      calls_fresh := ?_, born := ?_, appended_lt := ?_
      orderly := fun r => (h.orderly r).snoc ?_ (by simp)
      bucket := fun r i => h.count_push hr₀ r i
      marked := ?_
      runs_count := h.runs_count_snoc (by simp) fun _ _ => rfl
      mem_drops := h.mem_drops_snoc (by simp) fun _ _ => rfl
      fires := fun pre t run swept post r heq => h.fires_snoc (by simp) (fun _ _ => rfl) heq }
  · intro r hr
    obtain ⟨hmem, hne⟩ : r ∈ s.calls ∧ r ≠ r₀ := by simpa using hr
    obtain ⟨hlt, hna, hc⟩ := h.calls_fresh r hmem
    exact ⟨hlt, by simpa [hne] using hna, hc⟩
  · intro r hlt
    rcases eq_or_ne r r₀ with rfl | hne
    · exact Or.inr (by simp)
    · rcases h.born r hlt with hb | hb
      · exact Or.inl (by simpa [hne] using hb)
      · exact Or.inr (List.mem_append_left _ hb)
  · intro r hmem
    rcases List.mem_append.mp hmem with hm | hm
    · exact h.appended_lt r hm
    · obtain rfl : r = r₀ := by simpa using hm
      exact hlt₀
  · intro hr
    obtain rfl : r₀ = r := by simpa using hr
    exact hfresh
  · intro r c hc
    rcases eq_or_ne r r₀ with rfl | hne
    · have hcw : phase W (s.timer.wheelIndex r) r (tr ++ [.appended r]) = .waiting c := hc
      rw [h.phase_append_self hr₀] at hcw
      obtain rfl : false = c := by simpa using hcw
      exact hnc
    · have hcw : phase W (s.timer.wheelIndex r) r (tr ++ [.appended r₀]) = .waiting c := hc
      rw [phase_append_of_ne hne] at hcw
      exact h.marked r c hcw

theorem phase_cancel_of_ne {r r₀ : ℕ} (hne : r ≠ r₀) :
    phase W (s.timer.wheelIndex r) r (tr ++ [.cancelled r₀]) = s.phaseOf W r tr := by
  rw [phase_snoc_of_other (by simp) (by simpa using Ne.symm hne) (by simp), phaseOf]

/-- The automaton of a timeout that is cancelled is marked if it still waits, and past caring
otherwise. -/
theorem phase_cancel_self (r : ℕ) :
    phase W (s.timer.wheelIndex r) r (tr ++ [.cancelled r]) =
      if (s.phaseOf W r tr).isWaiting then .waiting true else s.phaseOf W r tr := by
  rw [phase_snoc, phaseOf]
  cases phase W (s.timer.wheelIndex r) r tr <;> simp [Phase.next, Phase.isWaiting]

theorem isWaiting_phase_cancel (r r₀ : ℕ) :
    (phase W (s.timer.wheelIndex r) r (tr ++ [.cancelled r₀])).isWaiting =
      (s.phaseOf W r tr).isWaiting := by
  rcases eq_or_ne r r₀ with rfl | hne
  · rw [phase_cancel_self]
    cases s.phaseOf W r tr <;> simp [Phase.isWaiting]
  · rw [phase_cancel_of_ne hne]

theorem Refines.step_cancel (h : Refines W td s tr) {r₀ : ℕ}
    (hlt₀ : r₀ < s.timer.timeouts.size) (hr₀ : r₀ ∉ s.calls) :
    Refines W td { s with timer := s.timer.cancel r₀ } (tr ++ [.cancelled r₀]) := by
  have happ : .appended r₀ ∈ tr := (h.born r₀ hlt₀).resolve_left hr₀
  have hidx : ∀ r, (s.timer.cancel r₀).wheelIndex r = s.timer.wheelIndex r :=
    fun r => s.timer.wheelIndex_cancel r₀
  refine
    { wheelSize_eq := h.wheelSize_eq
      tickDuration_eq := h.tickDuration_eq
      read_eq := ?_, bucketIndex_eq := ?_, calls_fresh := ?_, born := ?_, appended_lt := ?_
      orderly := fun r => (h.orderly r).snoc (by simp) ?_
      bucket := ?_, marked := ?_
      runs_count := h.runs_count_snoc (by simp) fun r _ => hidx r
      mem_drops := h.mem_drops_snoc (by simp) fun r _ => hidx r
      fires := fun pre t run swept post r heq => h.fires_snoc (by simp) (fun r _ => hidx r) heq }
  · intro r c d hm
    rw [HashedWheelTimer.cancel_size, hidx]
    exact h.read_eq r c d (by simpa using hm)
  · intro r hlt
    rw [HashedWheelTimer.cancel_size] at hlt
    rw [hidx, s.timer.bucketIndex_cancel r₀]
    exact h.bucketIndex_eq r hlt
  · intro r hr
    obtain ⟨hlt, hna, hc⟩ := h.calls_fresh r hr
    have hne : r ≠ r₀ := fun hc => hr₀ (hc ▸ hr)
    refine ⟨by simpa using hlt, by simpa using hna, ?_⟩
    rw [s.timer.isCancelled_cancel_of_ne r₀ hne]
    exact hc
  · intro r hlt
    rw [HashedWheelTimer.cancel_size] at hlt
    rcases h.born r hlt with hb | hb
    · exact Or.inl hb
    · exact Or.inr (List.mem_append_left _ hb)
  · intro r hmem
    rw [HashedWheelTimer.cancel_size]
    exact h.appended_lt r (by simpa using hmem)
  · intro hr
    obtain rfl : r₀ = r := by simpa using hr
    exact happ
  · intro r i
    rw [phaseOf, hidx, isWaiting_phase_cancel]
    exact h.bucket r i
  · intro r c hc
    rw [phaseOf, hidx] at hc
    rcases eq_or_ne r r₀ with rfl | hne
    · rw [s.timer.isCancelled_cancel_self r hlt₀]
      rw [phase_cancel_self] at hc
      split_ifs at hc with hw
      · simpa using hc
      · rw [hc] at hw
        exact absurd rfl hw
    · rw [s.timer.isCancelled_cancel_of_ne r₀ hne]
      rw [phase_cancel_of_ne hne] at hc
      exact h.marked r c hc

theorem Refines.exists_waiting (h : Refines W td s tr) {r : ℕ}
    (hw : (s.phaseOf W r tr).isWaiting) :
    s.phaseOf W r tr = .waiting (s.timer.isCancelled r) := by
  rcases hp : s.phaseOf W r tr with _ | c | t | _
  · simp [hp, Phase.isWaiting] at hw
  · rw [h.marked r c hp]
  · simp [hp, Phase.isWaiting] at hw
  · simp [hp, Phase.isWaiting] at hw

/-- The bucket a tick processes is the timeout's own exactly when the tick is
congruent to its target. -/
theorem Refines.mem_tickBucket (h : Refines W td s tr) {r t : ℕ} :
    r ∈ s.timer.wheel (s.timer.tickBucket t) ↔
      (s.phaseOf W r tr).isWaiting ∧ (t : ℤ) ≡ s.timer.wheelIndex r [ZMOD W] := by
  rw [h.mem_wheel_iff, s.timer.tickBucket_eq_emod, h.wheelSize_eq]
  rfl

theorem Refines.mem_run (h : Refines W td s tr) {r t : ℕ} :
    r ∈ (s.timer.processTick t).2.run ↔
      s.phaseOf W r tr = .waiting false ∧ Due W (s.timer.wheelIndex r) t := by
  rw [HashedWheelTimer.mem_processTick_run, h.mem_tickBucket]
  constructor
  · rintro ⟨⟨hw, hmod⟩, hc, hle⟩
    exact ⟨hc ▸ h.exists_waiting hw, hle, hmod⟩
  · rintro ⟨hp, hle, hmod⟩
    exact ⟨⟨by rw [hp]; rfl, hmod⟩, h.marked r false hp, hle⟩

theorem Refines.mem_swept (h : Refines W td s tr) {r t : ℕ} :
    r ∈ (s.timer.processTick t).2.swept ↔
      s.phaseOf W r tr = .waiting true ∧ (t : ℤ) ≡ s.timer.wheelIndex r [ZMOD W] := by
  rw [HashedWheelTimer.mem_processTick_swept, h.mem_tickBucket]
  constructor
  · rintro ⟨⟨hw, hmod⟩, hc⟩
    exact ⟨hc ▸ h.exists_waiting hw, hmod⟩
  · rintro ⟨hp, hmod⟩
    exact ⟨⟨by rw [hp]; rfl, hmod⟩, h.marked r true hp⟩

/-- A bucket holds no timeout twice, so neither does what is run out of it. -/
theorem Refines.run_nodup (h : Refines W td s tr) (t : ℕ) :
    (s.timer.processTick t).2.run.Nodup := by
  simp only [HashedWheelTimer.processTick, HashedWheelTimer.sweep_run]
  refine List.Nodup.filter _ (List.nodup_iff_count_le_one.mpr fun r => ?_)
  rw [h.bucket r]
  split_ifs <;> omega

/-- How often a timeout is in a bucket after a tick was processed. -/
theorem Refines.count_processTick (h : Refines W td s tr) (t r : ℕ) (i : ℤ) {run swept : List ℕ} :
    ((s.timer.processTick t).1.wheel i).count r =
      if ((s.phaseOf W r tr).next W (s.timer.wheelIndex r) r (.processed t run swept)).isWaiting ∧
        i = s.timer.wheelIndex r % W then 1 else 0 := by
  have hbucket : s.timer.tickBucket t = t % W := by
    rw [s.timer.tickBucket_eq_emod, h.wheelSize_eq]
  simp only [HashedWheelTimer.processTick_wheel, next_processed_isWaiting]
  split_ifs with hi hnew hnew
  · -- kept in the bucket that was processed
    obtain ⟨⟨hw, hkeep⟩, hres⟩ := hnew
    have hmod : (t : ℤ) ≡ s.timer.wheelIndex r [ZMOD W] := by
      rw [Int.ModEq, ← hbucket, ← hi, hres]
    have hp := h.exists_waiting hw
    have hc : s.timer.isCancelled r = false := by
      by_contra hc
      exact hkeep ⟨hmod, Or.inl (by rw [hp]; simpa using hc)⟩
    have hlt : (t : ℤ) < s.timer.wheelIndex r := by
      by_contra hge
      exact hkeep ⟨hmod, Or.inr (by omega)⟩
    rw [List.count_filter (by simp [hc, hlt]), h.bucket r i, if_pos ⟨hw, hres⟩]
  · -- run, dropped, or never there
    refine List.count_eq_zero_of_not_mem fun hmem => hnew ?_
    obtain ⟨hin, hk⟩ := List.mem_filter.mp hmem
    obtain ⟨hc, hlt⟩ : s.timer.isCancelled r = false ∧ (t : ℤ) < s.timer.wheelIndex r := by
      simpa using hk
    obtain ⟨hw, hres⟩ := h.mem_wheel_iff.mp hin
    refine ⟨⟨hw, fun hcon => ?_⟩, hres⟩
    rcases hcon.2 with hp | hle
    · rw [h.marked r true hp] at hc
      exact absurd hc (by simp)
    · omega
  · rw [h.bucket r i, if_pos ⟨hnew.1.1, hnew.2⟩]
  · rw [h.bucket r i]
    refine if_neg fun hcon => hnew ⟨⟨hcon.1, fun hmod => hi ?_⟩, hcon.2⟩
    rw [hbucket, hcon.2]
    exact hmod.1.symm

theorem Refines.step_process (h : Refines W td s tr) (t : ℕ) :
    Refines W td { s with timer := (s.timer.processTick t).1, ticking := none }
      (tr ++ [.processed t (s.timer.processTick t).2.run (s.timer.processTick t).2.swept]) := by
  set run := (s.timer.processTick t).2.run with hrun
  set swept := (s.timer.processTick t).2.swept with hswept
  set e := WheelEvent.processed t run swept with he
  have hphase : ∀ r, phase W (s.timer.wheelIndex r) r (tr ++ [e]) =
      (s.phaseOf W r tr).next W (s.timer.wheelIndex r) r e := fun r => phase_snoc tr e
  refine
    { wheelSize_eq := h.wheelSize_eq
      tickDuration_eq := h.tickDuration_eq
      read_eq := fun r c d hm => h.read_eq r c d (by simpa [he] using hm)
      bucketIndex_eq := h.bucketIndex_eq
      calls_fresh := ?_
      born := fun r hlt => (h.born r hlt).imp_right (List.mem_append_left _)
      appended_lt := fun r hm => h.appended_lt r (by simpa [he] using hm)
      orderly := fun r => (h.orderly r).snoc (by simp [he]) (by simp [he])
      bucket := ?_, marked := ?_, runs_count := ?_, mem_drops := ?_, fires := ?_ }
  · intro r hr
    obtain ⟨hlt, hna, hc⟩ := h.calls_fresh r hr
    exact ⟨hlt, by simpa [he] using hna, hc⟩
  · intro r i
    change _ = if (phase W (s.timer.wheelIndex r) r (tr ++ [e])).isWaiting ∧
      i = s.timer.wheelIndex r % W then 1 else 0
    rw [hphase]
    exact h.count_processTick t r i
  · intro r c hc
    change phase W (s.timer.wheelIndex r) r (tr ++ [e]) = .waiting c at hc
    rw [hphase] at hc
    exact h.marked r c (eq_waiting_of_next_processed hc)
  · intro r
    change _ = if (phase W (s.timer.wheelIndex r) r (tr ++ [e])).isRan then 1 else 0
    rw [hphase, runs_snoc, List.count_append, h.runs_count r,
      show runs [e] = run by simp [runs, he]]
    -- a tick runs a timeout at most once, and one it runs has not run before
    by_cases hr : r ∈ run
    · have hp := (h.mem_run.mp hr)
      rw [List.count_eq_one_of_mem (h.run_nodup t) hr,
        if_pos (next_processed_isRan.mpr (Or.inr hp)), hp.1]
      rfl
    · rw [List.count_eq_zero_of_not_mem hr, Nat.add_zero]
      refine if_congr ?_ rfl rfl
      rw [he, next_processed_isRan]
      exact ⟨Or.inl, fun hcon => hcon.resolve_right fun hp => hr (h.mem_run.mpr hp)⟩
  · intro r
    change _ ↔ phase W (s.timer.wheelIndex r) r (tr ++ [e]) = .swept
    rw [hphase, drops_snoc, List.mem_append, h.mem_drops r, he, next_processed_eq_swept,
      show drops [WheelEvent.processed t run swept] = swept by simp [drops], hswept, h.mem_swept]
  · intro pre t' run' swept' post r heq
    rcases snoc_eq_append_cons.mp heq with ⟨-, rfl, hx⟩ | ⟨post', -, htr⟩
    · obtain ⟨rfl, rfl, -⟩ : t' = t ∧ run' = run ∧ swept' = swept := by simpa [he] using hx
      exact h.mem_run
    · exact h.fires pre t' run' swept' post' r htr

/-- **One step keeps every timeout to its automaton.** -/
theorem Refines.step (h : Refines W td s tr) {a : WheelAct T} {s' : WheelState T}
    {ev : List WheelEvent} (hstep : s.step a = some (s', ev)) : Refines W td s' (tr ++ ev) := by
  cases a with
  | read task delay now =>
    simp only [WheelState.step] at hstep
    split_ifs at hstep
    obtain ⟨rfl, rfl⟩ := Prod.mk.inj (Option.some.inj hstep)
    exact h.step_read task delay now
  | append r =>
    simp only [WheelState.step] at hstep
    split_ifs at hstep with hr
    have hW : 0 < W := h.wheelSize_eq ▸ s.timer.wheelSize_pos
    have hin : 0 ≤ s.timer.bucketIndex r ∧ s.timer.bucketIndex r < s.timer.wheelSize := by
      rw [h.bucketIndex_eq r (h.calls_fresh r hr).1, h.wheelSize_eq]
      exact ⟨Int.emod_nonneg _ hW.ne', Int.emod_lt_of_pos _ hW⟩
    rw [HashedWheelTimer.addToBucket, if_pos hin] at hstep
    obtain ⟨rfl, rfl⟩ := Prod.mk.inj (Option.some.inj hstep)
    exact h.step_append hr
  | cancel r =>
    simp only [WheelState.step] at hstep
    split_ifs at hstep with hr
    obtain ⟨rfl, rfl⟩ := Prod.mk.inj (Option.some.inj hstep)
    exact h.step_cancel hr.1 hr.2
  | advance =>
    simp only [WheelState.step] at hstep
    split at hstep
    · exact absurd hstep (by simp)
    · obtain ⟨rfl, rfl⟩ := Prod.mk.inj (Option.some.inj hstep)
      rw [List.append_nil]
      exact { h with }
  | process =>
    simp only [WheelState.step] at hstep
    split at hstep
    · exact absurd hstep (by simp)
    · rename_i t ht
      obtain ⟨rfl, rfl⟩ := Prod.mk.inj (Option.some.inj hstep)
      exact h.step_process t

/-- **So does every run.** -/
theorem refines_of_exec {ws td : ℤ} {as : List (WheelAct T)} {s : WheelState T}
    {tr : List WheelEvent} (h : exec step (WheelState.init T ws td) as = some (s, tr)) :
    Refines (WheelState.init T ws td).timer.wheelSize (WheelState.init T ws td).timer.tickDuration
      s tr :=
  exec_induction (Refines.init ws td) (fun _ _ _ _ _ hinv hstep => hinv.step hstep) h

end WheelState

end HertzBeat
