import HertzBeat.Dispatcher.TimeDispatch

/-!
# How long an interval may be

The interval of a job comes from the manager as any `int64`, and is multiplied in three places:
`AddJob` takes it for milliseconds, `RescheduleJob` for seconds, and `getCollectionTimeout` takes
80 percent of it, multiplying by 80 before it divides by 100. Nothing looks whether a product fits.
One that does not comes out negative, just beyond the largest interval that fits: a negative delay
is a negative remainder, and so no index of a bucket.

`HertzBeat.intervals_le_iff` has the three bounds. Up to them everything is as it should be, and
with the next interval it is not.
-/

namespace HertzBeat

/-- `getCollectionTimeout`. -/
def getCollectionTimeout (job : Job) : ℤ :=
  let defaultTimeout := 30 * Go.second
  if 0 < job.defaultInterval then
    let jobTimeout := (Go.wrap64 (Go.wrap64 (job.defaultInterval * Go.second) * 80)).tdiv 100
    if defaultTimeout < jobTimeout then jobTimeout else defaultTimeout
  else defaultTimeout

/-! ### The bucket of a delay -/

namespace HashedWheelTimer

variable {T : Type} {w : HashedWheelTimer T} {delay : ℤ}

/-- The tick that `NewTimeout` works out for a delay, in the arithmetic of `int64`. -/
def targetTick (w : HashedWheelTimer T) (delay : ℤ) : ℤ :=
  Go.wrap64 (w.currentTick + delay.tdiv w.tickDuration)

/-- The index that `NewTimeout` works out for a delay is that of a bucket. -/
def HasBucket (w : HashedWheelTimer T) (delay : ℤ) : Prop :=
  0 ≤ (w.targetTick delay).tmod w.wheelSize ∧ (w.targetTick delay).tmod w.wheelSize < w.wheelSize

/-- The tick counter is not so near its end that the longest delay would take it there. -/
def HasRoom (w : HashedWheelTimer T) : Prop :=
  w.currentTick + (2 ^ 63 - 1 : ℤ).tdiv w.tickDuration < 2 ^ 63

/-- Where there is room, nothing wraps around. -/
theorem HasRoom.targetTick_eq (h : w.HasRoom) (hdelay : Go.IsInt64 delay) :
    w.targetTick delay = w.currentTick + delay.tdiv w.tickDuration := by
  have hpos := w.tickDuration_pos
  have hlow : (-2 ^ 63 : ℤ).tdiv w.tickDuration ≤ delay.tdiv w.tickDuration :=
    Int.tdiv_le_tdiv hpos hdelay.1
  have hhigh : delay.tdiv w.tickDuration ≤ (2 ^ 63 - 1 : ℤ).tdiv w.tickDuration :=
    Int.tdiv_le_tdiv hpos (Int.le_sub_one_of_lt hdelay.2)
  have hlong : (2 ^ 63 : ℤ).tdiv w.tickDuration ≤ 2 ^ 63 := Int.tdiv_le_self _ (by decide)
  rw [Int.neg_tdiv] at hlow
  unfold HasRoom at h
  exact Go.wrap64_of_range (by omega) (by omega)

/-- **A running wheel panics exactly if the delay has no bucket**, where there is room. -/
theorem HasRoom.newTimeout_error_iff (h : w.HasRoom) (hdelay : Go.IsInt64 delay)
    (hrunning : w.stopped = false) (task : T) (now : ℤ) :
    w.newTimeout task delay now = .error .indexOutOfRange ↔ ¬w.HasBucket delay := by
  have hfits : w.Fits delay ↔ w.HasBucket delay := by
    rw [HasBucket, h.targetTick_eq hdelay]
    exact (and_iff_left (Int.tmod_lt_of_pos _ w.wheelSize_pos)).symm
  rw [← hfits]
  rcases w.newTimeout_cases task delay now with ⟨hstopped, -⟩ | ⟨-, hyes, w', -, -, -, hok⟩ |
    ⟨-, hno, herror⟩
  · exact absurd (hrunning.symm.trans hstopped) (by simp)
  · rw [hok]
    exact iff_of_false (by simp) (not_not.mpr hyes)
  · exact iff_of_true herror hno

/-- A delay that is not negative has a bucket. -/
theorem HasRoom.hasBucket (h : w.HasRoom) (hlo : 0 ≤ delay) (hhi : delay < 2 ^ 63) :
    w.HasBucket delay := by
  rw [HasBucket, h.targetTick_eq ⟨by omega, hhi⟩]
  have hticks : 0 ≤ delay.tdiv w.tickDuration := Int.tdiv_nonneg hlo w.tickDuration_pos.le
  exact ⟨Int.tmod_nonneg _ (by omega), Int.tmod_lt_of_pos _ w.wheelSize_pos⟩

end HashedWheelTimer

/-- **A delay that a wheel can take**: it is not negative, and has a bucket whatever the tick is. -/
def Schedulable (delay : ℤ) : Prop :=
  0 ≤ delay ∧ ∀ w : HashedWheelTimer WheelTimerTask, w.HasRoom → w.HasBucket delay

theorem schedulable_of_range {delay : ℤ} (hlo : 0 ≤ delay) (hhi : delay < 2 ^ 63) :
    Schedulable delay :=
  ⟨hlo, fun _ hroom => hroom.hasBucket hlo hhi⟩

/-! ### The three products -/

/-- A job with a given interval, which is to be repeated. -/
def Job.every (interval : ℤ) : Job := .bare 1 true interval

theorem schedulable_firstDelay {job : Job} (h : job.defaultInterval ≤ 9223372036854) :
    Schedulable (firstDelay job) := by
  unfold firstDelay
  split_ifs with hpos
  · have hfits : Go.wrap64 (job.defaultInterval * Go.millisecond) =
        job.defaultInterval * Go.millisecond :=
      Go.wrap64_of_range (by unfold Go.millisecond; omega) (by unfold Go.millisecond; omega)
    rw [hfits]
    exact schedulable_of_range (by unfold Go.millisecond; omega) (by unfold Go.millisecond; omega)
  · exact schedulable_of_range (by decide) (by decide)

theorem schedulable_nextDelay {job : Job} (hpos : 0 < job.defaultInterval)
    (h : job.defaultInterval ≤ 9223372036) : Schedulable (nextDelay job) := by
  unfold nextDelay
  have hfits : Go.wrap64 (job.defaultInterval * Go.second) = job.defaultInterval * Go.second :=
    Go.wrap64_of_range (by unfold Go.second; omega) (by unfold Go.second; omega)
  rw [hfits]
  exact schedulable_of_range (by unfold Go.second; omega) (by unfold Go.second; omega)

/-- The timeout where both products fit. -/
theorem getCollectionTimeout_eq {job : Job} (h : job.defaultInterval ≤ 115292150) :
    getCollectionTimeout job = max (30 * Go.second) (job.defaultInterval * 800000000) := by
  unfold getCollectionTimeout Go.second
  by_cases hpos : 0 < job.defaultInterval
  · have hfits : Go.wrap64 (job.defaultInterval * 1000000000) = job.defaultInterval * 1000000000 :=
      Go.wrap64_of_range (by omega) (by omega)
    have hfits' : Go.wrap64 (job.defaultInterval * 1000000000 * 80) =
        job.defaultInterval * 800000000 * 100 := by
      rw [Go.wrap64_of_range (by omega) (by omega)]
      omega
    simp only [hpos, if_true, hfits, hfits', Int.mul_tdiv_cancel _ (by decide : (100 : ℤ) ≠ 0)]
    split_ifs <;> omega
  · simp only [hpos, if_false]
    omega

/-- **How long an interval may be**, for each of the three products. Up to some bound all delays of
`AddJob` can be scheduled exactly if it is at most 9223372036854, all delays of `RescheduleJob` if
it is at most 9223372036, and the timeout of a collection grows with the interval if it is at most
115292150. -/
theorem intervals_le_iff (bound : ℤ) :
    ((∀ job : Job, Go.IsInt64 job.defaultInterval → job.defaultInterval ≤ bound →
        Schedulable (firstDelay job)) ↔ bound ≤ 9223372036854) ∧
      ((∀ job : Job, Go.IsInt64 job.defaultInterval → job.defaultInterval ≤ bound →
        job.isCyclic → 0 < job.defaultInterval → Schedulable (nextDelay job)) ↔
          bound ≤ 9223372036) ∧
      ((∀ job job' : Job, Go.IsInt64 job.defaultInterval → Go.IsInt64 job'.defaultInterval →
        job.defaultInterval ≤ job'.defaultInterval → job'.defaultInterval ≤ bound →
          getCollectionTimeout job ≤ getCollectionTimeout job') ↔ bound ≤ 115292150) := by
  refine ⟨⟨fun h => ?_, fun hb job _ hle => schedulable_firstDelay (hle.trans hb)⟩,
    ⟨fun h => ?_, fun hb job _ hle _ hpos => schedulable_nextDelay hpos (hle.trans hb)⟩,
    ⟨fun h => ?_, fun hb job job' _ _ hle hle' => ?_⟩⟩
  -- in each case the next interval is a counterexample
  · by_contra hlt
    have hneg := (h (.every 9223372036855) (by decide) (by simp [Job.every, Job.bare]; omega)).1
    exact absurd hneg (by decide)
  · by_contra hlt
    have hneg := (h (.every 9223372037) (by decide) (by simp [Job.every, Job.bare]; omega) rfl
      (by decide)).1
    exact absurd hneg (by decide)
  · by_contra hlt
    have hle := h (.every 115292150) (.every 115292151) (by decide) (by decide) (by decide)
      (by simp [Job.every, Job.bare]; omega)
    exact absurd hle (by decide)
  · rw [getCollectionTimeout_eq (hle'.trans hb),
      getCollectionTimeout_eq (hle.trans (hle'.trans hb))]
    omega

/-- **An interval that is too long by one**: `AddJob` and `RescheduleJob` panic on a new dispatcher,
and the timeout of the collection falls to the default. -/
theorem interval_too_long :
    (TimeDispatch.newTimeDispatch 0).addJob (some (.every 9223372036855)) 0 =
        .error .indexOutOfRange ∧
      (TimeDispatch.newTimeDispatch 0).rescheduleJob (.every 9223372037) 0 =
        .error .indexOutOfRange ∧
      getCollectionTimeout (.every 115292151) < getCollectionTimeout (.every 115292150) := by
  -- the products are negative, and the wheel has no bucket for them
  have hroom : (TimeDispatch.newTimeDispatch 0).wheelTimer.HasRoom := by
    unfold HashedWheelTimer.HasRoom
    decide
  refine ⟨?_, ?_, by decide⟩
  · have hno : ¬(TimeDispatch.newTimeDispatch 0).wheelTimer.HasBucket
        (firstDelay (.every 9223372036855)) := fun h => absurd h.1 (by decide)
    have hpanic := (hroom.newTimeout_error_iff (by decide) rfl ⟨.every 9223372036855⟩ 0).mpr hno
    simp only [TimeDispatch.addJob, hpanic]
  · have hno : ¬(TimeDispatch.newTimeDispatch 0).wheelTimer.HasBucket
        (nextDelay (.every 9223372037)) := fun h => absurd h.1 (by decide)
    have hpanic := (hroom.newTimeout_error_iff (by decide) rfl ⟨.every 9223372037⟩ 0).mpr hno
    rw [TimeDispatch.rescheduleJob, if_neg (by decide)]
    simp only [hpanic]

end HertzBeat
