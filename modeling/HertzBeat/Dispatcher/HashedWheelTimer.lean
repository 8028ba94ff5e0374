import HertzBeat.Lib.Go
import HertzBeat.Lib.Mem
import Mathlib.Logic.Function.Basic

/-!
# The hashed wheel timer

`hashedWheelTimer` of `internal/job/dispatcher/hashed_wheel_timer.go` and the
`Timeout` of `internal/types/job/timeout_types.go`. A timeout is shared by
pointer – the wheel's bucket, the scheduler's maps and the goroutine that runs it
all hold the same one, and `Cancel` through any of them is seen by the others –
so the timeouts live in a memory, and a bucket is a list of addresses.

`NewTimeout` reads the tick counter and appends to the bucket later, and a tick
advances the counter and processes its bucket later; other goroutines run in
between. Both are therefore split where the source touches shared state
(`HashedWheelTimer.prepareTimeout` and `HashedWheelTimer.addToBucket`;
`HashedWheelTimer.advance` and `HashedWheelTimer.processTick`), and the source's
functions are their compositions.

The tick counter is a natural number, and the tick a timeout is due at is the exact
sum of the counter and its delay in ticks, where the source adds two `int64`: the
two agree as long as the sum stays below `2 ^ 63`, which at ten ticks a second takes
billions of years to reach. Left out are the logger, the ticker and its start time,
and the deadline's comparison with the clock, which the source only logs.

The goroutine that takes the ticks has a context of its own, derived from the one
that `Start` was given. It is an argument of `run` and no part of the timer; who
cancels it, and when, is the subject of `HertzBeat.Dispatcher.Lifecycle`.
-/

namespace HertzBeat

/-- A scheduled task in the timer wheel. -/
structure Timeout (T : Type) where
  /-- The task to run. -/
  task : T
  /-- When the timeout was meant to fire. -/
  deadline : ℤ
  /-- Whether it was cancelled. -/
  cancelled : Bool := false
  /-- The tick it is due at. -/
  wheelIndex : ℤ := 0
  /-- The bucket it was put in. -/
  bucketIndex : ℤ := 0
  deriving DecidableEq, Repr

/-- `Cancel`: `false` if the timeout was cancelled before. -/
def Timeout.cancel {T : Type} (t : Timeout T) : Timeout T × Bool :=
  if t.cancelled then (t, false) else ({ t with cancelled := true }, true)

/-- The timer wheel. A bucket holds the addresses of its timeouts. -/
structure HashedWheelTimer (T : Type) where
  /-- The length of a tick, in nanoseconds. -/
  tickDuration : ℤ
  /-- The number of buckets. -/
  wheelSize : ℤ
  /-- The buckets, at the indices from `0` to `wheelSize - 1`. -/
  wheel : ℤ → List ℕ
  /-- The tick counter. -/
  currentTick : ℕ
  /-- Set by the first `Start`, and never cleared. -/
  started : Bool
  /-- Set by the first `Stop`, and never cleared. -/
  stopped : Bool
  /-- Whether the goroutine that takes the ticks is alive. -/
  running : Bool
  /-- The timeouts created so far. -/
  timeouts : Mem (Timeout T)
  /-- The constructor replaces a length that is not positive. -/
  tickDuration_pos : 0 < tickDuration
  /-- The constructor replaces a size that is not positive. -/
  wheelSize_pos : 0 < wheelSize

namespace HashedWheelTimer

variable {T : Type}

/-- `NewHashedWheelTimer`. -/
def newHashedWheelTimer (T : Type) (wheelSize tickDuration : ℤ) : HashedWheelTimer T where
  wheelSize := if wheelSize ≤ 0 then 512 else wheelSize
  tickDuration := if tickDuration ≤ 0 then 100 * Go.millisecond else tickDuration
  wheel := fun _ => []
  currentTick := 0
  started := false
  stopped := false
  running := false
  timeouts := Mem.empty
  tickDuration_pos := by
    split_ifs with h
    · decide
    · omega
  wheelSize_pos := by
    split_ifs with h
    · decide
    · omega

/-! ### The timeouts as the wheel reads them -/

/-- `IsCancelled` of the timeout at an address. -/
def isCancelled (w : HashedWheelTimer T) (r : ℕ) : Bool :=
  ((w.timeouts.read r).map (·.cancelled)).getD false

/-- `WheelIndex` of the timeout at an address. -/
def wheelIndex (w : HashedWheelTimer T) (r : ℕ) : ℤ :=
  ((w.timeouts.read r).map (·.wheelIndex)).getD 0

/-- `BucketIndex` of the timeout at an address. -/
def bucketIndex (w : HashedWheelTimer T) (r : ℕ) : ℤ :=
  ((w.timeouts.read r).map (·.bucketIndex)).getD 0

/-- The task of the timeout at an address. -/
def task (w : HashedWheelTimer T) (r : ℕ) : Option T :=
  (w.timeouts.read r).map (·.task)

/-! ### Creating a timeout -/

/-- The first half of `NewTimeout`: create the timeout and work out, from the tick
counter as it is now, the tick and the bucket it belongs to. The sum is exact, where
the source's is one of `int64`. The timeout's address is the size of the memory
before. -/
def prepareTimeout (w : HashedWheelTimer T) (task : T) (delay now : ℤ) : HashedWheelTimer T :=
  let totalTicks := delay.tdiv w.tickDuration
  let targetTick := w.currentTick + totalTicks
  let bucketIndex := targetTick.tmod w.wheelSize
  let timeout : Timeout T :=
    { task := task, deadline := now + delay, wheelIndex := targetTick, bucketIndex := bucketIndex }
  { w with timeouts := w.timeouts.alloc timeout }

/-- Append a timeout to a bucket. -/
def push (w : HashedWheelTimer T) (i : ℤ) (r : ℕ) : HashedWheelTimer T :=
  { w with wheel := Function.update w.wheel i (w.wheel i ++ [r]) }

/-- The second half of `NewTimeout`: append the timeout to its bucket. Indexing the
wheel panics where the index is not that of a bucket. -/
def addToBucket (w : HashedWheelTimer T) (r : ℕ) : Except Go.Panic (HashedWheelTimer T) :=
  let i := w.bucketIndex r
  if 0 ≤ i ∧ i < w.wheelSize then
    .ok (w.push i r)
  else
    .error .indexOutOfRange

/-- `NewTimeout`: `none` is the nil a stopped timer returns. -/
def newTimeout (w : HashedWheelTimer T) (task : T) (delay now : ℤ) :
    Except Go.Panic (HashedWheelTimer T × Option ℕ) :=
  if w.stopped then
    .ok (w, none)
  else
    match (w.prepareTimeout task delay now).addToBucket w.timeouts.size with
    | .ok w' => .ok (w', some w.timeouts.size)
    | .error p => .error p

/-- `Cancel` of the timeout at an address. -/
def cancel (w : HashedWheelTimer T) (r : ℕ) : HashedWheelTimer T :=
  { w with timeouts := w.timeouts.modify r fun t => t.cancel.1 }

/-! ### A tick -/

/-- What a tick does with the timeouts of its bucket. -/
structure Sweep where
  /-- Those whose task is started, in bucket order. -/
  run : List ℕ
  /-- Those dropped because they were cancelled. -/
  swept : List ℕ
  /-- Those kept for a later revolution. -/
  remaining : List ℕ
  deriving DecidableEq, Repr

/-- The loop of `tick` over the timeouts of a bucket: a cancelled one is skipped, one
whose tick has come is run, any other is kept. -/
def sweep (w : HashedWheelTimer T) (currentTick : ℕ) : List ℕ → Sweep
  | [] => ⟨[], [], []⟩
  | r :: rs =>
    let rest := w.sweep currentTick rs
    if w.isCancelled r then
      { rest with swept := r :: rest.swept }
    else if w.wheelIndex r ≤ currentTick then
      { rest with run := r :: rest.run }
    else
      { rest with remaining := r :: rest.remaining }

/-- The first half of `tick`: advance the counter. -/
def advance (w : HashedWheelTimer T) : HashedWheelTimer T :=
  { w with currentTick := w.currentTick + 1 }

/-- The index of the bucket a tick processes. -/
def tickBucket (w : HashedWheelTimer T) (currentTick : ℕ) : ℤ :=
  (currentTick : ℤ).tmod w.wheelSize

/-- The second half of `tick`: process the bucket of the tick. -/
def processTick (w : HashedWheelTimer T) (currentTick : ℕ) : HashedWheelTimer T × Sweep :=
  let i := w.tickBucket currentTick
  let result := w.sweep currentTick (w.wheel i)
  ({ w with wheel := Function.update w.wheel i result.remaining }, result)

/-- `tick`: one tick of the wheel. -/
def tick (w : HashedWheelTimer T) : HashedWheelTimer T × Sweep :=
  w.advance.processTick w.advance.currentTick

/-! ### Starting and stopping -/

/-- `Start`: only the first one has an effect, and it never fails. The context is that of
the goroutine that it starts. -/
def start (w : HashedWheelTimer T) : HashedWheelTimer T :=
  if w.started then w else { w with started := true, running := true }

/-- `Stop`: only the first one has an effect. It calls the function that cancels the
timer's context, which is nil if the timer was never started, and waits for the
goroutine that takes the ticks. -/
def stop (w : HashedWheelTimer T) : Except Go.Panic (HashedWheelTimer T) :=
  if w.stopped then
    .ok w
  else if w.started then
    .ok { w with stopped := true, running := false }
  else
    .error .nilDereference

/-- The way out of `run`, the loop of that goroutine: its context is done. -/
def leave (w : HashedWheelTimer T) : HashedWheelTimer T := { w with running := false }

/-! ### What the operations leave alone

The wheel's parameters never change, a new timeout moves no older one, and `Cancel`
changes nothing but the one flag. -/

section Frame

variable (w : HashedWheelTimer T) (task : T) (delay now : ℤ) (r r' : ℕ)

@[simp] theorem prepareTimeout_wheel : (w.prepareTimeout task delay now).wheel = w.wheel := rfl

@[simp] theorem prepareTimeout_size :
    (w.prepareTimeout task delay now).timeouts.size = w.timeouts.size + 1 :=
  Mem.size_alloc _ _

@[simp] theorem cancel_size : (w.cancel r).timeouts.size = w.timeouts.size :=
  Mem.size_modify _ _ _

variable {r'}

theorem read_prepareTimeout (hr : r' ≠ w.timeouts.size) :
    (w.prepareTimeout task delay now).timeouts.read r' = w.timeouts.read r' :=
  Mem.read_alloc_of_ne hr _

theorem isCancelled_prepareTimeout :
    (w.prepareTimeout task delay now).isCancelled r' = w.isCancelled r' := by
  rcases eq_or_ne r' w.timeouts.size with rfl | hne
  · have hnone : w.timeouts.read w.timeouts.size = none := Mem.read_eq_none_iff.mpr le_rfl
    simp [isCancelled, hnone, prepareTimeout]
  · simp [isCancelled, prepareTimeout, Mem.read_alloc_of_ne hne]

theorem isCancelled_of_size_le (hr : w.timeouts.size ≤ r') : w.isCancelled r' = false := by
  rw [isCancelled, Mem.read_eq_none_iff.mpr hr]
  rfl

theorem wheelIndex_prepareTimeout (hr : r' ≠ w.timeouts.size) :
    (w.prepareTimeout task delay now).wheelIndex r' = w.wheelIndex r' := by
  rw [wheelIndex, read_prepareTimeout w task delay now hr, wheelIndex]

theorem bucketIndex_prepareTimeout (hr : r' ≠ w.timeouts.size) :
    (w.prepareTimeout task delay now).bucketIndex r' = w.bucketIndex r' := by
  rw [bucketIndex, read_prepareTimeout w task delay now hr, bucketIndex]

theorem wheelIndex_prepareTimeout_new :
    (w.prepareTimeout task delay now).wheelIndex w.timeouts.size =
      w.currentTick + delay.tdiv w.tickDuration := by
  simp [wheelIndex, prepareTimeout]

theorem bucketIndex_prepareTimeout_new :
    (w.prepareTimeout task delay now).bucketIndex w.timeouts.size =
      (w.currentTick + delay.tdiv w.tickDuration).tmod w.wheelSize := by
  simp [bucketIndex, prepareTimeout]

theorem wheelIndex_cancel : (w.cancel r).wheelIndex r' = w.wheelIndex r' := by
  rw [wheelIndex, wheelIndex, cancel, Mem.read_modify]
  split_ifs with h
  · rcases w.timeouts.read r' with _ | t
    · rfl
    · by_cases hc : t.cancelled <;> simp [Timeout.cancel, hc]
  · rfl

theorem bucketIndex_cancel : (w.cancel r).bucketIndex r' = w.bucketIndex r' := by
  rw [bucketIndex, bucketIndex, cancel, Mem.read_modify]
  split_ifs with h
  · rcases w.timeouts.read r' with _ | t
    · rfl
    · by_cases hc : t.cancelled <;> simp [Timeout.cancel, hc]
  · rfl

theorem task_cancel : (w.cancel r).task r' = w.task r' := by
  rw [HashedWheelTimer.task, HashedWheelTimer.task, cancel, Mem.read_modify]
  split_ifs with h
  · rcases w.timeouts.read r' with _ | t
    · rfl
    · by_cases hc : t.cancelled <;> simp [Timeout.cancel, hc]
  · rfl

theorem isCancelled_cancel_self (hr : r < w.timeouts.size) : (w.cancel r).isCancelled r = true := by
  obtain ⟨t, ht⟩ := Mem.exists_read hr
  rw [isCancelled, cancel, Mem.read_modify_self, ht]
  by_cases hc : t.cancelled <;> simp [Timeout.cancel, hc]

theorem isCancelled_cancel_of_ne (h : r' ≠ r) :
    (w.cancel r).isCancelled r' = w.isCancelled r' := by
  rw [isCancelled, cancel, Mem.read_modify_of_ne h, isCancelled]

end Frame

/-! ### What a sweep does -/

theorem sweep_run (w : HashedWheelTimer T) (t : ℕ) (l : List ℕ) :
    (w.sweep t l).run = l.filter fun r => !w.isCancelled r && decide (w.wheelIndex r ≤ t) := by
  induction l with
  | nil => rfl
  | cons r rs ih =>
    rw [sweep]
    cases hc : w.isCancelled r
    · by_cases hd : w.wheelIndex r ≤ t <;> simp [hc, hd, ih]
    · simp [hc, ih]

theorem sweep_swept (w : HashedWheelTimer T) (t : ℕ) (l : List ℕ) :
    (w.sweep t l).swept = l.filter fun r => w.isCancelled r := by
  induction l with
  | nil => rfl
  | cons r rs ih =>
    rw [sweep]
    cases hc : w.isCancelled r
    · by_cases hd : w.wheelIndex r ≤ t <;> simp [hc, hd, ih]
    · simp [hc, ih]

theorem sweep_remaining (w : HashedWheelTimer T) (t : ℕ) (l : List ℕ) :
    (w.sweep t l).remaining =
      l.filter fun r => !w.isCancelled r && decide ((t : ℤ) < w.wheelIndex r) := by
  induction l with
  | nil => rfl
  | cons r rs ih =>
    rw [sweep]
    cases hc : w.isCancelled r
    · by_cases hd : w.wheelIndex r ≤ t
      · simp [hc, hd, ih]
      · have hlt : (t : ℤ) < w.wheelIndex r := by omega
        simp [hc, hd, hlt, ih]
    · simp [hc, ih]

/-- The buckets after a tick was processed: one of them has lost what was run or
dropped. -/
theorem processTick_wheel (w : HashedWheelTimer T) (t : ℕ) (i : ℤ) :
    (w.processTick t).1.wheel i =
      if i = w.tickBucket t then
        (w.wheel i).filter fun r => !w.isCancelled r && decide ((t : ℤ) < w.wheelIndex r)
      else w.wheel i := by
  change Function.update w.wheel (w.tickBucket t) (w.sweep t (w.wheel (w.tickBucket t))).remaining i
    = _
  split_ifs with h
  · rw [h, Function.update_self, sweep_remaining]
  · exact Function.update_of_ne h _ _

theorem mem_processTick_run {w : HashedWheelTimer T} {t r : ℕ} :
    r ∈ (w.processTick t).2.run ↔
      r ∈ w.wheel (w.tickBucket t) ∧ w.isCancelled r = false ∧ w.wheelIndex r ≤ t := by
  simp [processTick, sweep_run]

theorem mem_processTick_swept {w : HashedWheelTimer T} {t r : ℕ} :
    r ∈ (w.processTick t).2.swept ↔ r ∈ w.wheel (w.tickBucket t) ∧ w.isCancelled r = true := by
  simp [processTick, sweep_swept]

theorem tickBucket_eq_emod (w : HashedWheelTimer T) (t : ℕ) : w.tickBucket t = t % w.wheelSize :=
  Int.tmod_eq_emod_of_nonneg (by omega)

/-! ### What `NewTimeout` returns -/

/-- What a new timeout and a cancellation leave alone: the wheel's parameters, its
counter and its stop flag, and the tasks of the timeouts there are. -/
structure Still (w w' : HashedWheelTimer T) : Prop where
  stopped : w'.stopped = w.stopped
  currentTick : w'.currentTick = w.currentTick
  tickDuration : w'.tickDuration = w.tickDuration
  wheelSize : w'.wheelSize = w.wheelSize
  size_le : w.timeouts.size ≤ w'.timeouts.size
  task : ∀ r, r < w.timeouts.size → w'.task r = w.task r

theorem Still.refl (w : HashedWheelTimer T) : w.Still w :=
  ⟨rfl, rfl, rfl, rfl, le_rfl, fun _ _ => rfl⟩

theorem Still.trans {w₁ w₂ w₃ : HashedWheelTimer T} (h₁ : w₁.Still w₂) (h₂ : w₂.Still w₃) :
    w₁.Still w₃ where
  stopped := h₂.stopped.trans h₁.stopped
  currentTick := h₂.currentTick.trans h₁.currentTick
  tickDuration := h₂.tickDuration.trans h₁.tickDuration
  wheelSize := h₂.wheelSize.trans h₁.wheelSize
  size_le := h₁.size_le.trans h₂.size_le
  task := fun r hr => (h₂.task r (hr.trans_le h₁.size_le)).trans (h₁.task r hr)

theorem still_cancel (w : HashedWheelTimer T) (r : ℕ) : w.Still (w.cancel r) :=
  ⟨rfl, rfl, rfl, rfl, (w.cancel_size r).ge, fun _ _ => w.task_cancel r⟩

/-- Whether the bucket of a timeout with this delay exists. -/
def Fits (w : HashedWheelTimer T) (delay : ℤ) : Prop :=
  0 ≤ (w.currentTick + delay.tdiv w.tickDuration).tmod w.wheelSize

instance (w : HashedWheelTimer T) (delay : ℤ) : Decidable (w.Fits delay) :=
  inferInstanceAs (Decidable (0 ≤ _))

/-- What `NewTimeout` returns: nil from a stopped timer, a new timeout of the task if its
bucket exists, and else it panics. -/
theorem newTimeout_cases (w : HashedWheelTimer T) (task : T) (delay now : ℤ) :
    (w.stopped = true ∧ w.newTimeout task delay now = .ok (w, none)) ∨
      (w.stopped = false ∧ w.Fits delay ∧ ∃ w', w.Still w' ∧
        w'.task w.timeouts.size = some task ∧ w.timeouts.size < w'.timeouts.size ∧
        w.newTimeout task delay now = .ok (w', some w.timeouts.size)) ∨
      (w.stopped = false ∧ ¬w.Fits delay ∧
        w.newTimeout task delay now = .error .indexOutOfRange) := by
  rw [newTimeout]
  by_cases hstopped : w.stopped = true
  · exact .inl ⟨hstopped, if_pos hstopped⟩
  · have hrunning : w.stopped = false := by simpa using hstopped
    rw [if_neg hstopped, addToBucket, w.bucketIndex_prepareTimeout_new task delay now]
    by_cases hfits : w.Fits delay
    · have hrange := Int.tmod_lt_of_pos (w.currentTick + delay.tdiv w.tickDuration) w.wheelSize_pos
      have hsize := w.prepareTimeout_size task delay now
      rw [if_pos ⟨hfits, hrange⟩]
      refine .inr (.inl ⟨hrunning, hfits, (w.prepareTimeout task delay now).push
        ((w.currentTick + delay.tdiv w.tickDuration).tmod w.wheelSize) w.timeouts.size,
        ⟨rfl, rfl, rfl, rfl, ?_, ?_⟩, ?_, ?_, rfl⟩)
      · exact (Nat.le_succ _).trans hsize.ge
      · intro r hr
        exact congrArg (Option.map _) (w.read_prepareTimeout task delay now hr.ne)
      · exact congrArg (Option.map _) (Mem.read_alloc_self _ _)
      · exact (Nat.lt_succ_self _).trans_eq hsize.symm
    · rw [if_neg fun h => hfits h.1]
      exact .inr (.inr ⟨hrunning, hfits, rfl⟩)

end HashedWheelTimer

end HertzBeat
