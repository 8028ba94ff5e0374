import HertzBeat.Lib.Go

/-!
# The goroutine that logs the statistics

`startStatsLogging` of `internal/job/dispatcher/time_wheel.go` starts a goroutine that
logs the statistics of the dispatcher at every tick of a ticker, until its context is
done. The ticker is no variable of the goroutine. It is read from the dispatcher, once
for the deferred `Stop` and again each time the goroutine comes to its `select`, and
`stopStatsLogging` sets it to nil after it has cancelled the context. A goroutine that
is blocked in its `select` at that moment returns; any other finds nil there, and
nothing recovers its panic.

`HertzBeat.StatsStage.never_panics_iff` says which goroutines are safe from that, as
things are with the dispatcher.
-/

namespace HertzBeat

/-- How far a goroutine of `startStatsLogging` has come. `deferred` is the ticker whose
`Stop` it has deferred. -/
inductive StatsStage where
  /-- It has not begun. -/
  | created
  /-- It logs the statistics, and will come to its `select`. -/
  | logging (deferred : Option ℕ)
  /-- It is blocked in its `select`. -/
  | waiting (deferred : Option ℕ)
  /-- It has returned. -/
  | returned
  deriving DecidableEq, Repr

/-- A step of such a goroutine. -/
inductive StatsAct where
  /-- It begins, and evaluates the receiver of the call that it defers. -/
  | enter
  /-- It comes to its `select`, and takes a tick that is there already or not. -/
  | select (ticked : Bool)
  /-- The ticker wakes it. -/
  | tick
  /-- Its context wakes it. -/
  | done
  deriving DecidableEq, Repr

namespace StatsStage

/-- The deferred `Stop` of the ticker. -/
def stopTicker : Option ℕ → Except Go.Panic StatsStage
  | some _ => .ok .returned
  | none => .error .nilDereference

/-- One step, if it can be taken: `statsLogger` is the field of the dispatcher as it is
then, and `done` says whether the goroutine's context is done. -/
def step (statsLogger : Option ℕ) (done : Bool) :
    StatsStage → StatsAct → Option (Except Go.Panic StatsStage)
  | .created, .enter => some (.ok (.logging statsLogger))
  | .logging deferred, .select ticked =>
    match statsLogger with
    -- the channel of the ticks is a field of the ticker
    | none => some (.error .nilDereference)
    | some _ =>
      if ticked then some (.ok (.logging deferred))
      else if done then some (stopTicker deferred)
      else some (.ok (.waiting deferred))
  -- a goroutine that is blocked is woken once, by what comes first
  | .waiting deferred, .tick => if done then none else some (.ok (.logging deferred))
  | .waiting deferred, .done => if done then some (stopTicker deferred) else none
  | _, _ => none

/-- Whether the goroutine panics on its way, as things are with the dispatcher: `none`
stands for the moment at which its context is cancelled. -/
def panics (statsLogger : Option ℕ) : Bool → StatsStage → List (Option StatsAct) → Bool
  | _, _, [] => false
  | _, g, none :: as => panics statsLogger true g as
  | done, g, some a :: as =>
    match g.step statsLogger done a with
    | none => false
    | some (.error _) => true
    | some (.ok g') => panics statsLogger done g' as

/-! ### Goroutines that do not panic -/

/-- The goroutine has nothing nil to come to. -/
def Sound (statsLogger : Option ℕ) (done : Bool) : StatsStage → Prop
  | .created => statsLogger ≠ none
  | .logging deferred => statsLogger ≠ none ∧ deferred ≠ none
  | .waiting deferred => deferred ≠ none ∧ (done = true ∨ statsLogger ≠ none)
  | .returned => True

/-- It is blocked in its `select`, or has returned. -/
def blocked : StatsStage → Bool
  | .waiting _ | .returned => true
  | .created | .logging _ => false

variable {statsLogger : Option ℕ} {done : Bool} {g : StatsStage}

theorem Sound.cancelled (h : g.Sound statsLogger done) : g.Sound statsLogger true := by
  cases g with
  | waiting deferred => exact ⟨h.1, .inl rfl⟩
  | _ => exact h

theorem sound_of_stopTicker {deferred : Option ℕ} (h : deferred ≠ none) :
    stopTicker deferred = .ok .returned := by
  obtain ⟨i, rfl⟩ := Option.ne_none_iff_exists'.mp h
  rfl

/-- No step of a sound goroutine panics. -/
theorem Sound.step (h : g.Sound statsLogger done) {a : StatsAct} {r : Except Go.Panic StatsStage}
    (hs : g.step statsLogger done a = some r) : ∃ g', r = .ok g' ∧ g'.Sound statsLogger done := by
  cases g with
  | created =>
    cases a with
    | enter => exact ⟨_, (Option.some.inj hs).symm, h, h⟩
    | _ => cases hs
  | logging deferred =>
    cases a with
    | select ticked =>
      obtain ⟨i, rfl⟩ := Option.ne_none_iff_exists'.mp h.1
      simp only [StatsStage.step] at hs
      split_ifs at hs
      · exact ⟨_, (Option.some.inj hs).symm, h⟩
      · exact ⟨.returned, (Option.some.inj hs).symm.trans (sound_of_stopTicker h.2), trivial⟩
      · exact ⟨_, (Option.some.inj hs).symm, h.2, .inr h.1⟩
    | _ => cases hs
  | waiting deferred =>
    cases a with
    | tick =>
      simp only [StatsStage.step] at hs
      split_ifs at hs with hdone
      exact ⟨_, (Option.some.inj hs).symm, h.2.resolve_left hdone, h.1⟩
    | done =>
      simp only [StatsStage.step] at hs
      split_ifs at hs
      exact ⟨.returned, (Option.some.inj hs).symm.trans (sound_of_stopTicker h.1), trivial⟩
    | _ => cases hs
  | returned => cases a <;> cases hs

/-- **A goroutine never panics exactly if it is sound.** -/
theorem never_panics_iff :
    (∀ as, g.panics statsLogger done as = false) ↔ g.Sound statsLogger done := by
  constructor
  · intro h
    -- a goroutine that is not sound panics within two steps
    cases g with
    | created =>
      rintro rfl
      exact absurd (h [some .enter, some (.select false)]) (by simp [panics, step])
    | logging deferred =>
      constructor
      · rintro rfl
        exact absurd (h [some (.select false)]) (by simp [panics, step])
      · rintro rfl
        refine absurd (h [none, some (.select false)]) ?_
        cases statsLogger <;> simp [panics, step, stopTicker]
    | waiting deferred =>
      constructor
      · rintro rfl
        exact absurd (h [none, some .done]) (by simp [panics, step, stopTicker])
      · by_contra hnot
        obtain ⟨hdone, hnone⟩ := not_or.mp hnot
        obtain rfl : done = false := by simpa using hdone
        obtain rfl : statsLogger = none := by simpa using hnone
        exact absurd (h [some .tick, some (.select false)]) (by simp [panics, step])
    | returned => trivial
  · intro h as
    induction as generalizing g done with
    | nil => rfl
    | cons a as ih =>
      rcases a with _ | a
      · exact ih h.cancelled
      · rw [panics]
        rcases hs : g.step statsLogger done a with _ | r
        · rfl
        · obtain ⟨g', rfl, hg'⟩ := h.step hs
          exact ih hg'

/-- `Stop` leaves nothing for a goroutine to come to that is not blocked. -/
theorem blocked_of_sound (h : g.Sound none done) : g.blocked = true := by
  cases g with
  | created => exact absurd rfl h
  | logging deferred => exact absurd rfl h.1
  | _ => rfl

theorem Sound.stopped (h : g.Sound statsLogger done) (hb : g.blocked = true) :
    g.Sound none true := by
  cases g with
  | waiting deferred => exact ⟨h.1, .inl rfl⟩
  | returned => trivial
  | _ => cases hb

end StatsStage

end HertzBeat
