import HertzBeat.Dispatcher.HashedWheelTimer

/-!
# The armed timeouts of the wheel

What the users of the wheel need to know of it: which timeouts are *armed* – in the
wheel, not cancelled – and with which task. Each operation of the wheel is
described once by what it does to them, over wheels whose buckets are
`HertzBeat.HashedWheelTimer.WellFormed`:

* `NewTimeout` arms one new timeout, or does nothing if the timer is stopped;
* `Cancel` disarms the one it is given;
* a tick disarms exactly those it runs.
-/

namespace HertzBeat

namespace HashedWheelTimer

variable {T : Type} {w : HashedWheelTimer T}

/-- Every timeout in a bucket exists and belongs there, and it is there once. -/
structure WellFormed (w : HashedWheelTimer T) : Prop where
  size_of_mem : ∀ i r, r ∈ w.wheel i → r < w.timeouts.size
  index_of_mem : ∀ i r, r ∈ w.wheel i → w.bucketIndex r = i
  range_of_mem : ∀ i r, r ∈ w.wheel i → 0 ≤ i ∧ i < w.wheelSize
  nodup : ∀ i, (w.wheel i).Nodup

/-- The timeout is in the wheel. -/
def Pending (w : HashedWheelTimer T) (r : ℕ) : Prop := r ∈ w.wheel (w.bucketIndex r)

instance (w : HashedWheelTimer T) (r : ℕ) : Decidable (w.Pending r) :=
  inferInstanceAs (Decidable (_ ∈ _))

/-- The timeout is in the wheel, not cancelled, and this is its task. -/
def Armed (w : HashedWheelTimer T) (task : T) (r : ℕ) : Prop :=
  w.Pending r ∧ w.isCancelled r = false ∧ w.task r = some task

/-- The timeouts in the wheel, bucket by bucket. -/
def pending (w : HashedWheelTimer T) : List ℕ :=
  (List.range w.wheelSize.toNat).flatMap fun i : ℕ => w.wheel i

theorem WellFormed.mem_iff (h : w.WellFormed) {i : ℤ} {r : ℕ} :
    r ∈ w.wheel i ↔ w.Pending r ∧ w.bucketIndex r = i := by
  constructor
  · intro hr
    have hi := h.index_of_mem i r hr
    exact ⟨by rw [Pending, hi]; exact hr, hi⟩
  · rintro ⟨hr, rfl⟩
    exact hr

theorem WellFormed.mem_pending (h : w.WellFormed) {r : ℕ} : r ∈ w.pending ↔ w.Pending r := by
  rw [pending, List.mem_flatMap]
  constructor
  · rintro ⟨i, -, hr⟩
    exact (h.mem_iff.mp hr).1
  · intro hr
    obtain ⟨hlo, hhi⟩ := h.range_of_mem _ r hr
    refine ⟨(w.bucketIndex r).toNat, List.mem_range.mpr (by omega), ?_⟩
    rw [Int.toNat_of_nonneg hlo]
    exact hr

theorem WellFormed.nodup_pending (h : w.WellFormed) : w.pending.Nodup := by
  refine List.nodup_flatMap.mpr ⟨fun i _ => h.nodup i, ?_⟩
  refine List.Pairwise.imp ?_ List.nodup_range
  intro i j hij r hi hj
  have := (h.index_of_mem _ r hi).symm.trans (h.index_of_mem _ r hj)
  exact hij (by exact_mod_cast this)

theorem WellFormed.size_of_pending (h : w.WellFormed) {r : ℕ} (hr : w.Pending r) :
    r < w.timeouts.size :=
  h.size_of_mem _ r hr

theorem task_eq_some_of_lt {r : ℕ} (hr : r < w.timeouts.size) : ∃ t, w.task r = some t := by
  obtain ⟨x, hx⟩ := Mem.exists_read hr
  exact ⟨x.task, by rw [task, hx]; rfl⟩

theorem task_lt {r : ℕ} {t : T} (h : w.task r = some t) : r < w.timeouts.size := by
  by_contra hge
  rw [task, Mem.read_eq_none_iff.mpr (by omega)] at h
  exact absurd h (by simp)

theorem wellFormed_new (ws td : ℤ) : (newHashedWheelTimer T ws td).WellFormed where
  size_of_mem := fun i r h => absurd h (by simp [newHashedWheelTimer])
  index_of_mem := fun i r h => absurd h (by simp [newHashedWheelTimer])
  range_of_mem := fun i r h => absurd h (by simp [newHashedWheelTimer])
  nodup := fun i => by simp [newHashedWheelTimer]

theorem not_armed_new (ws td : ℤ) (t : T) (r : ℕ) : ¬(newHashedWheelTimer T ws td).Armed t r := by
  rintro ⟨h, -⟩
  simp [Pending, newHashedWheelTimer] at h

/-! ### A new timeout -/

/-- The flags of the timer: whether it was started, whether it was stopped, and whether
it ticks. -/
def flags (w : HashedWheelTimer T) : Bool × Bool × Bool := (w.started, w.stopped, w.running)

/-- **What `NewTimeout` does to a timer that is not stopped**: it arms one timeout, and
changes nothing else. -/
structure Arms (w : HashedWheelTimer T) (task : T) (w' : HashedWheelTimer T) : Prop where
  wellFormed : w'.WellFormed
  armed_iff : ∀ t r, w'.Armed t r ↔ w.Armed t r ∨ (t = task ∧ r = w.timeouts.size)
  task_eq : ∀ r, w'.task r = if r = w.timeouts.size then some task else w.task r
  size_eq : w'.timeouts.size = w.timeouts.size + 1
  flags_eq : w'.flags = w.flags

/-- A task does not change once its timeout exists. -/
theorem Arms.task_of_some {task : T} {w' : HashedWheelTimer T} (h : w.Arms task w') {r : ℕ} {t : T}
    (ht : w.task r = some t) : w'.task r = some t := by
  rw [h.task_eq, if_neg (task_lt ht).ne, ht]

theorem mem_wheel_push (w : HashedWheelTimer T) (b i : ℤ) (n r : ℕ) :
    r ∈ (w.push b n).wheel i ↔ r ∈ w.wheel i ∨ (r = n ∧ i = b) := by
  change r ∈ Function.update w.wheel b (w.wheel b ++ [n]) i ↔ _
  by_cases hib : i = b
  · rw [hib, Function.update_self, List.mem_append, List.mem_singleton]
    simp
  · rw [Function.update_of_ne hib]
    simp [hib]

/-- A timeout that is in no bucket yet is in one bucket once after it is appended. -/
theorem nodup_push {b : ℤ} {n : ℕ} (hnodup : ∀ i, (w.wheel i).Nodup) (hn : n ∉ w.wheel b) (i : ℤ) :
    ((w.push b n).wheel i).Nodup := by
  change (Function.update w.wheel b (w.wheel b ++ [n]) i).Nodup
  by_cases hib : i = b
  · rw [hib, Function.update_self]
    refine List.nodup_append.mpr ⟨hnodup b, List.nodup_singleton n, ?_⟩
    rintro r hr _ hmem rfl
    exact hn (List.mem_singleton.mp hmem ▸ hr)
  · rw [Function.update_of_ne hib]
    exact hnodup i

theorem task_prepareTimeout (w : HashedWheelTimer T) (task : T) (delay now : ℤ) (r : ℕ) :
    (w.prepareTimeout task delay now).task r =
      if r = w.timeouts.size then some task else w.task r := by
  rw [HashedWheelTimer.task]
  split_ifs with hr
  · subst hr
    simp [prepareTimeout]
  · rw [w.read_prepareTimeout task delay now hr, HashedWheelTimer.task]

theorem arms_push (h : w.WellFormed) (task : T) (delay now : ℤ)
    (hi : 0 ≤ (w.prepareTimeout task delay now).bucketIndex w.timeouts.size ∧
      (w.prepareTimeout task delay now).bucketIndex w.timeouts.size < w.wheelSize) :
    w.Arms task ((w.prepareTimeout task delay now).push
      ((w.prepareTimeout task delay now).bucketIndex w.timeouts.size) w.timeouts.size) := by
  set n := w.timeouts.size with hn
  set p := w.prepareTimeout task delay now with hp
  set b := p.bucketIndex n with hb
  have hfresh : ∀ i, n ∉ w.wheel i := fun i hc => absurd (h.size_of_mem i n hc) (by omega)
  have hbucket : ∀ r, r ≠ n → p.bucketIndex r = w.bucketIndex r := fun r hr =>
    w.bucketIndex_prepareTimeout task delay now hr
  have htask : ∀ r, (p.push b n).task r = if r = n then some task else w.task r :=
    w.task_prepareTimeout task delay now
  -- what the buckets hold: to create the timeout touches none of them
  have hmem : ∀ i r, r ∈ (p.push b n).wheel i ↔ r ∈ w.wheel i ∨ (r = n ∧ i = b) :=
    fun i r => p.mem_wheel_push b i n r
  have hpending : ∀ r, (p.push b n).Pending r ↔ w.Pending r ∨ r = n := by
    intro r
    rw [Pending, hmem]
    change r ∈ w.wheel (p.bucketIndex r) ∨ (r = n ∧ p.bucketIndex r = b) ↔ _
    rcases eq_or_ne r n with rfl | hr
    · simp [← hb]
    · rw [hbucket r hr]
      simp [hr, Pending]
  refine ⟨⟨?_, ?_, ?_, ?_⟩, ?_, htask, w.prepareTimeout_size task delay now, rfl⟩
  · intro i r hr
    have hsize : (p.push b n).timeouts.size = n + 1 := w.prepareTimeout_size task delay now
    rcases (hmem i r).mp hr with hr | ⟨rfl, -⟩
    · exact hsize ▸ Nat.lt_succ_of_lt (h.size_of_mem i r hr)
    · exact hsize ▸ Nat.lt_succ_self _
  · intro i r hr
    change p.bucketIndex r = i
    rcases (hmem i r).mp hr with hr | ⟨rfl, rfl⟩
    · rw [hbucket r (fun hc => hfresh i (hc ▸ hr)), h.index_of_mem i r hr]
    · rfl
  · intro i r hr
    change 0 ≤ i ∧ i < w.wheelSize
    rcases (hmem i r).mp hr with hr | ⟨-, rfl⟩
    · exact h.range_of_mem i r hr
    · exact hi
  · exact nodup_push h.nodup (hfresh b)
  · intro t r
    rw [Armed, hpending, htask]
    change _ ∧ p.isCancelled r = false ∧ _ ↔ _
    rw [w.isCancelled_prepareTimeout task delay now]
    by_cases hr : r = n
    · -- the new timeout was not armed before, and is not cancelled
      have hnot : ¬w.Armed t r := fun hc => absurd (h.size_of_pending hc.1) (by omega)
      rw [if_pos hr, w.isCancelled_of_size_le (hn.symm.trans hr.symm).le]
      constructor
      · rintro ⟨-, -, ht⟩
        exact Or.inr ⟨(Option.some.inj ht).symm, hr.trans hn⟩
      · rintro (hc | ⟨rfl, -⟩)
        · exact absurd hc hnot
        · exact ⟨Or.inr hr, rfl, rfl⟩
    · rw [if_neg hr]
      simp [Armed, hr, ← hn]

/-- **What `NewTimeout` does.** -/
theorem newTimeout_eq_ok (h : w.WellFormed) {task : T} {delay now : ℤ} {w' : HashedWheelTimer T}
    {o : Option ℕ} (hok : w.newTimeout task delay now = .ok (w', o)) :
    (w.stopped = true ∧ w' = w ∧ o = none) ∨
      (w.stopped = false ∧ o = some w.timeouts.size ∧ w.Arms task w') := by
  rw [newTimeout] at hok
  split_ifs at hok with hs
  · obtain ⟨rfl, rfl⟩ := Prod.mk.inj (Except.ok.inj hok)
    exact Or.inl ⟨hs, rfl, rfl⟩
  · rw [addToBucket] at hok
    split_ifs at hok with hi
    · obtain ⟨rfl, rfl⟩ := Prod.mk.inj (Except.ok.inj hok)
      exact Or.inr ⟨by simpa using hs, rfl, arms_push h task delay now hi⟩

/-- It panics only over a negative bucket index. -/
theorem exists_newTimeout (task : T) {delay : ℤ} (now : ℤ)
    (hi : 0 ≤ (w.currentTick + delay.tdiv w.tickDuration).tmod w.wheelSize) :
    ∃ w' o, w.newTimeout task delay now = .ok (w', o) := by
  rw [newTimeout]
  split_ifs
  · exact ⟨w, none, rfl⟩
  · have hidx : 0 ≤ (w.prepareTimeout task delay now).bucketIndex w.timeouts.size ∧
        (w.prepareTimeout task delay now).bucketIndex w.timeouts.size <
          (w.prepareTimeout task delay now).wheelSize := by
      rw [w.bucketIndex_prepareTimeout_new task delay now]
      exact ⟨hi, Int.tmod_lt_of_pos _ w.wheelSize_pos⟩
    rw [addToBucket, if_pos hidx]
    exact ⟨_, _, rfl⟩

/-! ### Cancelling -/

theorem wellFormed_cancel (h : w.WellFormed) (r : ℕ) : (w.cancel r).WellFormed where
  size_of_mem := fun i r' hr => by
    rw [w.cancel_size]
    exact h.size_of_mem i r' hr
  index_of_mem := fun i r' hr => by
    rw [w.bucketIndex_cancel]
    exact h.index_of_mem i r' hr
  range_of_mem := h.range_of_mem
  nodup := h.nodup

theorem armed_cancel (h : w.WellFormed) {r r' : ℕ} {t : T} :
    (w.cancel r).Armed t r' ↔ w.Armed t r' ∧ r' ≠ r := by
  rw [Armed, Armed, Pending, w.bucketIndex_cancel, w.task_cancel]
  change w.Pending r' ∧ _ ↔ _
  rcases eq_or_ne r' r with rfl | hne
  · refine iff_of_false ?_ fun hc => hc.2 rfl
    rintro ⟨hp, hc, -⟩
    rw [w.isCancelled_cancel_self r' (h.size_of_pending hp)] at hc
    exact absurd hc (by simp)
  · rw [w.isCancelled_cancel_of_ne r hne]
    simp [hne]

/-! ### A tick -/

theorem mem_tick_run (h : w.WellFormed) {r : ℕ} (hr : r ∈ w.tick.2.run) :
    ∃ t, w.Armed t r := by
  obtain ⟨hmem, hc, -⟩ := mem_processTick_run.mp hr
  have hp := (h.mem_iff.mp hmem).1
  obtain ⟨t, ht⟩ := task_eq_some_of_lt (h.size_of_pending hp)
  exact ⟨t, hp, hc, ht⟩

theorem nodup_tick_run (h : w.WellFormed) : w.tick.2.run.Nodup := by
  change (w.advance.sweep w.advance.currentTick (w.wheel (w.advance.tickBucket _))).run.Nodup
  rw [sweep_run]
  exact (h.nodup _).filter _

theorem wheel_tick_sublist (w : HashedWheelTimer T) (i : ℤ) :
    (w.tick.1.wheel i).Sublist (w.wheel i) := by
  change ((w.advance.processTick _).1.wheel i).Sublist (w.advance.wheel i)
  rw [processTick_wheel]
  split_ifs
  · exact List.filter_sublist
  · exact List.Sublist.refl _

theorem wellFormed_tick (h : w.WellFormed) : w.tick.1.WellFormed where
  size_of_mem := fun i r hr => h.size_of_mem i r ((wheel_tick_sublist w i).subset hr)
  index_of_mem := fun i r hr => h.index_of_mem i r ((wheel_tick_sublist w i).subset hr)
  range_of_mem := fun i r hr => h.range_of_mem i r ((wheel_tick_sublist w i).subset hr)
  nodup := fun i => (wheel_tick_sublist w i).nodup (h.nodup i)

theorem armed_tick (h : w.WellFormed) {r : ℕ} {t : T} :
    w.tick.1.Armed t r ↔ w.Armed t r ∧ r ∉ w.tick.2.run := by
  change r ∈ (w.advance.processTick w.advance.currentTick).1.wheel (w.bucketIndex r) ∧
    w.isCancelled r = false ∧ w.task r = some t ↔ _
  rw [processTick_wheel]
  change _ ↔ (r ∈ w.wheel (w.bucketIndex r) ∧ w.isCancelled r = false ∧ w.task r = some t) ∧
    r ∉ (w.advance.processTick w.advance.currentTick).2.run
  rw [mem_processTick_run]
  set c := w.advance.currentTick with hc
  change _ ↔ _ ∧ ¬(r ∈ w.wheel (w.advance.tickBucket c) ∧ w.isCancelled r = false ∧
    w.wheelIndex r ≤ c)
  -- an uncancelled timeout of the bucket stays exactly if its tick has not come
  split_ifs with hb
  · rw [← hb, List.mem_filter]
    change (r ∈ w.wheel (w.bucketIndex r) ∧
      (!w.isCancelled r && decide ((c : ℤ) < w.wheelIndex r)) = true) ∧ _ ↔ _
    constructor
    · rintro ⟨⟨hr, hf⟩, hcan, ht⟩
      rw [hcan] at hf
      have hlt : (c : ℤ) < w.wheelIndex r := by simpa using hf
      exact ⟨⟨hr, hcan, ht⟩, fun hrun => absurd hrun.2.2 (by omega)⟩
    · rintro ⟨⟨hr, hcan, ht⟩, hrun⟩
      have hlt : (c : ℤ) < w.wheelIndex r := by
        by_contra hge
        exact hrun ⟨hr, hcan, by omega⟩
      exact ⟨⟨hr, by simp [hcan, hlt]⟩, hcan, ht⟩
  · refine ⟨fun ha => ⟨ha, fun hrun => hb ?_⟩, fun ha => ha.1⟩
    exact h.index_of_mem _ r hrun.1

/-! ### Starting and stopping -/

/-- `Stop` touches nothing but flags. -/
theorem stop_eq_ok {w' : HashedWheelTimer T} (hok : w.stop = .ok w') :
    ∃ running, w' = { w with stopped := true, running := running } ∧
      (w.stopped = false → running = false) := by
  rw [stop] at hok
  split_ifs at hok with hs
  · obtain rfl := Except.ok.inj hok
    exact ⟨w.running, by rw [← hs], fun hoff => absurd (hs.symm.trans hoff) (by simp)⟩
  · obtain rfl := Except.ok.inj hok
    exact ⟨false, rfl, fun _ => rfl⟩

end HashedWheelTimer

end HertzBeat
