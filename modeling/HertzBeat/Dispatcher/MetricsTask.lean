import HertzBeat.Lib.Run
import HertzBeat.Types.Job

/-!
# The results of a metrics task

`DispatchMetricsTask` and `handleResults` of `internal/job/dispatcher/common_dispatcher.go`,
from the point on where the job's parameters are replaced. One goroutine for each metric
collects, and puts its result into a channel of its own; the dispatcher reads the channels
one after the other, each together with the deadline that they all share, and then hands the
results that it has read to the result handler.

A `select` that finds neither case ready blocks, and the first of the two that comes then
ends it. One that finds both ready takes either. So when the deadline passes while the
dispatcher waits for one metric, the results of all those after it are at the mercy of the
`select`: `HertzBeat.MetricsTask.delivered_of_exec` says that nothing else can be lost.

A collection puts exactly one result, perhaps nil, and then closes its channel. A channel is
read at most once, and so the closing has no effect.
-/

namespace HertzBeat

variable {R : Type}

/-- The channel of a metric. -/
inductive ResultChannel (R : Type) where
  /-- The nil channel, of a metric that is not among the processed ones. -/
  | nil
  | empty
  /-- A result was put, and not read yet. -/
  | holds (result : Option R)
  /-- The result was read. -/
  | spent

/-- A result that is not nil was put, and not read yet. -/
def ResultChannel.isUnread : ResultChannel R → Bool
  | .holds (some _) => true
  | _ => false

/-- How far the dispatcher has come. -/
inductive TaskPhase (R : Type) where
  /-- It starts the collections. Those that are left are known by whether their metric is
  among the processed ones. -/
  | starting (todo : List Bool)
  /-- It reads the channels, this one next. It may be blocked in the `select`. -/
  | reading (next : ℕ) (blocked : Bool)
  /-- It hands these results to the result handler. -/
  | handling (rest : List (ℕ × R))
  | returned

/-- A call of `DispatchMetricsTask`. A result is known by the position of its metric. -/
structure MetricsTask (R : Type) where
  channels : List (ResultChannel R)
  phase : TaskPhase R
  /-- Whether `collectCtx` is done. -/
  expired : Bool
  results : List (ℕ × R)
  /-- The metrics whose results were not waited for. -/
  errors : List ℕ

/-- What is seen of the results of a task. -/
inductive TaskEvent (R : Type) where
  /-- A collection has put a result, not nil, before the deadline. -/
  | collected (i : ℕ) (result : R)
  /-- `HandleCollectData` is called. -/
  | handled (i : ℕ) (result : R)

namespace MetricsTask

/-- The task of a job whose parameters were replaced. Every metric of the job is to be
collected, and is looked for by its name among the processed ones. -/
def new (job processedJob : Job) : MetricsTask R where
  channels := []
  phase := .starting ((job.metrics.getD []).map fun m =>
    (processedJob.metrics.getD []).any fun p => p.name = m.name)
  expired := false
  results := []
  errors := []

/-- The steps of a task. -/
inductive Action (R : Type) where
  /-- The dispatcher goes on. A `select` that finds both cases ready may prefer the
  deadline. -/
  | loop (prefersDone : Bool)
  /-- A collection puts its result. -/
  | put (i : ℕ) (result : Option R)
  /-- The deadline passes. -/
  | expire

/-- The dispatcher reads a result, and keeps it if it is not nil. -/
def receive (s : MetricsTask R) (n : ℕ) (result : Option R) : MetricsTask R :=
  { s with
    channels := s.channels.set n .spent
    phase := .reading (n + 1) false
    results := s.results ++ (result.map fun r => (n, r)).toList }

/-- The dispatcher does not wait for a result any longer. -/
def giveUp (s : MetricsTask R) (n : ℕ) : MetricsTask R :=
  { s with
    phase := .reading (n + 1) false
    errors := s.errors ++ [n] }

/-- The `select` on a channel and the deadline. -/
def select (s : MetricsTask R) (n : ℕ) (prefersDone : Bool) : ResultChannel R → MetricsTask R
  | .holds result => if s.expired && prefersDone then s.giveUp n else s.receive n result
  | _ => if s.expired then s.giveUp n else { s with phase := .reading n true }

/-- The dispatcher goes on, if it is not blocked. -/
def loop (s : MetricsTask R) (prefersDone : Bool) : Option (MetricsTask R × List (TaskEvent R)) :=
  match s.phase with
  | .starting (found :: todo) =>
    some ({ s with
      channels := s.channels ++ [if found then .empty else .nil]
      phase := .starting todo }, [])
  | .starting [] => some ({ s with phase := .reading 0 false }, [])
  | .reading _ true => none
  | .reading n false =>
    match s.channels[n]? with
    | some c => some (s.select n prefersDone c, [])
    | none => some ({ s with phase := .handling s.results }, [])
  | .handling ((i, r) :: rest) => some ({ s with phase := .handling rest }, [.handled i r])
  | .handling [] => some ({ s with phase := .returned }, [])
  | .returned => none

/-- The dispatcher is blocked on the channel. -/
def waitsFor (s : MetricsTask R) (i : ℕ) : Bool :=
  match s.phase with
  | .reading n true => n = i
  | _ => false

/-- A collection puts its result. If the dispatcher waits for it, it has read it. -/
def put (s : MetricsTask R) (i : ℕ) (result : Option R) : MetricsTask R :=
  if s.waitsFor i then s.receive i result
  else { s with channels := s.channels.set i (.holds result) }

/-- The deadline passes. If the dispatcher is blocked, it gives up. -/
def expire (s : MetricsTask R) : MetricsTask R :=
  match s.phase with
  | .reading n true => { s.giveUp n with expired := true }
  | _ => { s with expired := true }

/-- The task takes a step. -/
def step : Runs.StepFn (MetricsTask R) (Action R) (TaskEvent R)
  | s, .loop prefersDone => s.loop prefersDone
  | s, .put i result =>
    match s.channels[i]? with
    | some .empty =>
      some (s.put i result, if s.expired then [] else (result.map (.collected i)).toList)
    | _ => none
  | s, .expire => some (s.expire, [])

/-! ### What is asked of a task -/

/-- The results that were handed to the result handler. -/
def handledOf (tr : List (TaskEvent R)) : List (ℕ × R) :=
  tr.filterMap fun
    | .handled i r => some (i, r)
    | _ => none

/-- **No result is dropped**: when the task has returned, each result that was put before the
deadline has been handed to the result handler, once, and no other of its metric. -/
def Delivered (s : MetricsTask R) (tr : List (TaskEvent R)) : Prop :=
  s.phase = .returned → ∀ i r, .collected i r ∈ tr →
    (handledOf tr).filter (fun x => x.1 = i) = [(i, r)]

/-- The first channel that is not read yet. -/
def next (s : MetricsTask R) : ℕ :=
  match s.phase with
  | .starting _ => 0
  | .reading n _ => n
  | _ => s.channels.length

/-- **The deadline passes while no result is unread**: the dispatcher has read every result
that was put so far, other than nil. -/
def NoneUnread (s : MetricsTask R) : Action R → Prop
  | .expire => s.expired = false → ∀ c ∈ s.channels.drop s.next, c.isUnread = false
  | _ => True

instance (s : MetricsTask R) (a : Action R) : Decidable (NoneUnread s a) := by
  unfold NoneUnread
  split <;> infer_instance

/-! ### Every result is accounted for -/

/-- The results that are still to be handed on. -/
def pending (s : MetricsTask R) : List (ℕ × R) :=
  match s.phase with
  | .handling rest => rest
  | .returned => []
  | _ => s.results

/-- A result that was put before the deadline was read, or can still be. -/
structure Accounted (s : MetricsTask R) (tr : List (TaskEvent R)) : Prop where
  collected : ∀ i r, .collected i r ∈ tr → (i, r) ∈ s.results ∨
    s.expired = false ∧ s.next ≤ i ∧ s.channels[i]? = some (.holds (some r))
  read : s.expired = false → ∀ i < s.next, s.channels[i]? ≠ some .empty
  nodup : (s.results.map Prod.fst).Nodup
  lt_next : ∀ n blocked, s.phase = .reading n blocked → ∀ x ∈ s.results, x.1 < n
  fresh : ∀ todo, s.phase = .starting todo → s.results = []
  handled : handledOf tr ++ s.pending = s.results
  awake : s.expired = true → ∀ i, s.waitsFor i = false

variable {s s' : MetricsTask R} {tr ev : List (TaskEvent R)}

theorem accounted_new (job processedJob : Job) :
    Accounted (new job processedJob : MetricsTask R) [] where
  collected := by simp
  read := by simp [new, next]
  nodup := by simp [new]
  lt_next := by simp [new]
  fresh := by simp [new]
  handled := by simp [new, handledOf, pending]
  awake := by simp [new]

theorem handledOf_append (tr tr' : List (TaskEvent R)) :
    handledOf (tr ++ tr') = handledOf tr ++ handledOf tr' :=
  List.filterMap_append

/-- The event of a result that has been read already. -/
theorem Accounted.collect (h : Accounted s tr) {i : ℕ} {result : Option R}
    (hresult : ∀ r, result = some r → (i, r) ∈ s.results ∨
      s.expired = false ∧ s.next ≤ i ∧ s.channels[i]? = some (.holds (some r))) :
    Accounted s (tr ++ (result.map (.collected i)).toList) := by
  have hnone : handledOf (result.map (TaskEvent.collected i)).toList = [] := by
    cases result <;> rfl
  refine ⟨fun j r hmem => ?_, h.read, h.nodup, h.lt_next, h.fresh, ?_, h.awake⟩
  · rcases List.mem_append.mp hmem with hold | hnew
    · exact h.collected j r hold
    · obtain ⟨r', hr', heq⟩ := Option.map_eq_some_iff.mp (Option.mem_toList.mp hnew)
      obtain ⟨rfl, rfl⟩ := TaskEvent.collected.inj heq
      exact hresult r' hr'
  · rw [handledOf_append, hnone, List.append_nil]
    exact h.handled

/-- Nothing is handed on before all channels are read. -/
theorem Accounted.handledOf_eq_nil (h : Accounted s tr) {n : ℕ} {blocked : Bool}
    (hphase : s.phase = .reading n blocked) : handledOf tr = [] := by
  simpa [pending, hphase] using h.handled

/-- The dispatcher reads what is in the channel. -/
theorem Accounted.receive (h : Accounted s tr) {n : ℕ} {blocked : Bool}
    (hphase : s.phase = .reading n blocked) {result : Option R}
    (hresult : ∀ r, s.channels[n]? = some (.holds (some r)) → result = some r) :
    Accounted (s.receive n result) tr where
  collected := by
    intro i r hmem
    rcases h.collected i r hmem with hold | ⟨hexpired, hle, hholds⟩
    · exact .inl (List.mem_append_left _ hold)
    · have hle' : n ≤ i := by simpa [next, hphase] using hle
      rcases eq_or_lt_of_le hle' with rfl | hlt
      · refine .inl (List.mem_append_right _ ?_)
        rw [hresult r hholds]
        exact List.mem_singleton_self _
      · refine .inr ⟨hexpired, hlt, ?_⟩
        rw [MetricsTask.receive, List.getElem?_set_ne hlt.ne, hholds]
  read := by
    intro hexpired i hi
    have hi' : i < n + 1 := hi
    rcases eq_or_ne i n with rfl | hne
    · rw [MetricsTask.receive, List.getElem?_set_self']
      cases s.channels[i]? <;> simp
    · rw [MetricsTask.receive, List.getElem?_set_ne hne.symm]
      refine h.read hexpired i ?_
      simp only [next, hphase]
      omega
  nodup := by
    have hfresh : n ∉ s.results.map Prod.fst := by
      intro hmem
      obtain ⟨x, hx, rfl⟩ := List.mem_map.mp hmem
      exact (h.lt_next _ _ hphase x hx).false
    cases result with
    | none => simpa [MetricsTask.receive] using h.nodup
    | some r =>
      simp only [MetricsTask.receive, Option.map_some, Option.toList_some, List.map_append,
        List.map_cons, List.map_nil]
      exact List.nodup_append_comm.mp (by simpa using ⟨by simpa using hfresh, h.nodup⟩)
  lt_next := by
    intro m blocked' hm x hx
    obtain rfl : n + 1 = m := (TaskPhase.reading.inj hm).1
    rcases List.mem_append.mp hx with hold | hnew
    · exact Nat.lt_succ_of_lt (h.lt_next _ _ hphase x hold)
    · obtain ⟨r, -, rfl⟩ := Option.map_eq_some_iff.mp (Option.mem_toList.mp hnew)
      exact Nat.lt_succ_self n
  fresh := fun _ hstarting => absurd hstarting (by simp [MetricsTask.receive])
  handled := by
    rw [h.handledOf_eq_nil hphase]
    rfl
  awake := fun _ _ => rfl

/-- The deadline has passed, and the dispatcher does not wait for the next result. -/
theorem Accounted.giveUp (h : Accounted s tr) {n : ℕ} {blocked : Bool}
    (hphase : s.phase = .reading n blocked) (hexpired : s.expired = true) :
    Accounted (s.giveUp n) tr where
  collected := by
    intro i r hmem
    rcases h.collected i r hmem with hold | ⟨hnot, -⟩
    · exact .inl hold
    · exact absurd hexpired (by simp [hnot])
  read := fun hnot => absurd hexpired (by simp [show s.expired = false from hnot])
  nodup := h.nodup
  lt_next := by
    intro m blocked' hm x hx
    obtain rfl : n + 1 = m := (TaskPhase.reading.inj hm).1
    exact Nat.lt_succ_of_lt (h.lt_next _ _ hphase x hx)
  fresh := fun _ hstarting => absurd hstarting (by simp [MetricsTask.giveUp])
  handled := by
    rw [h.handledOf_eq_nil hphase]
    rfl
  awake := fun _ _ => rfl

/-- Neither case is ready, and the dispatcher is blocked. -/
theorem Accounted.block (h : Accounted s tr) {n : ℕ} (hphase : s.phase = .reading n false)
    (hexpired : s.expired = false) : Accounted { s with phase := .reading n true } tr where
  collected := by
    have hnext : s.next = n := by simp [next, hphase]
    intro i r hmem
    rcases h.collected i r hmem with hold | ⟨-, hle, hholds⟩
    · exact .inl hold
    · exact .inr ⟨hexpired, hnext ▸ hle, hholds⟩
  read := by
    have hnext : s.next = n := by simp [next, hphase]
    exact fun _ i hi => h.read hexpired i (hnext ▸ hi)
  nodup := h.nodup
  lt_next := by
    intro m blocked hm
    obtain rfl : n = m := (TaskPhase.reading.inj hm).1
    exact h.lt_next _ _ hphase
  fresh := fun _ hstarting => absurd hstarting (by simp)
  handled := by
    rw [h.handledOf_eq_nil hphase]
    rfl
  awake := fun h => absurd h (by simp [hexpired])

theorem Accounted.select (h : Accounted s tr) {n : ℕ} (hphase : s.phase = .reading n false)
    {c : ResultChannel R} (hc : s.channels[n]? = some c) (prefersDone : Bool) :
    Accounted (s.select n prefersDone c) tr := by
  have hother : Accounted (if s.expired then s.giveUp n
      else { s with phase := .reading n true }) tr := by
    split_ifs with hexpired
    · exact h.giveUp hphase hexpired
    · exact h.block hphase (Bool.eq_false_iff.mpr hexpired)
  cases c with
  | holds result =>
    rw [MetricsTask.select]
    split_ifs with hdone
    · exact h.giveUp hphase (Bool.and_eq_true_iff.mp hdone).1
    · refine h.receive hphase fun r hr => ?_
      exact (ResultChannel.holds.inj (Option.some.inj (hc.symm.trans hr)))
  | nil => exact hother
  | empty => exact hother
  | spent => exact hother

section Loop

variable {channels : List (ResultChannel R)} {expired : Bool} {results : List (ℕ × R)}
  {errors : List ℕ}

/-- The dispatcher makes a channel, or finds no metric to collect. -/
theorem Accounted.startNext {found : Bool} {todo : List Bool}
    (h : Accounted ⟨channels, .starting (found :: todo), expired, results, errors⟩ tr)
    (c : ResultChannel R) :
    Accounted ⟨channels ++ [c], .starting todo, expired, results, errors⟩ tr := by
  refine ⟨fun i r hmem => ?_, fun _ i hi => absurd hi (Nat.not_lt_zero i), h.nodup,
    fun _ _ hreading => absurd hreading (by simp), fun _ _ => h.fresh _ rfl, h.handled,
    fun _ _ => rfl⟩
  rcases h.collected i r hmem with hold | ⟨hexpired, hle, hholds⟩
  · exact .inl hold
  · refine .inr ⟨hexpired, hle, ?_⟩
    rw [List.getElem?_append_left (List.getElem?_eq_some_iff.mp hholds).1]
    exact hholds

/-- All collections are started. -/
theorem Accounted.startReading
    (h : Accounted ⟨channels, .starting [], expired, results, errors⟩ tr) :
    Accounted ⟨channels, .reading 0 false, expired, results, errors⟩ tr := by
  refine ⟨h.collected, fun _ i hi => absurd hi (Nat.not_lt_zero i), h.nodup, ?_,
    fun _ hstarting => absurd hstarting (by simp), h.handled, fun _ _ => rfl⟩
  intro n blocked _ x hx
  have hnil : results = [] := h.fresh _ rfl
  simp [hnil] at hx

/-- All channels are read. -/
theorem Accounted.endReading {n : ℕ} {blocked : Bool}
    (h : Accounted ⟨channels, .reading n blocked, expired, results, errors⟩ tr)
    (hlen : channels.length ≤ n) :
    Accounted ⟨channels, .handling results, expired, results, errors⟩ tr := by
  refine ⟨fun i r hmem => ?_, fun hexpired i hi => h.read hexpired i (lt_of_lt_of_le hi hlen),
    h.nodup, fun _ _ hreading => absurd hreading (by simp),
    fun _ hstarting => absurd hstarting (by simp), h.handled, fun _ _ => rfl⟩
  rcases h.collected i r hmem with hold | ⟨-, hle, hholds⟩
  · exact .inl hold
  · have hlt : i < channels.length := (List.getElem?_eq_some_iff.mp hholds).1
    have hle' : n ≤ i := hle
    omega

/-- A result is handed on. -/
theorem Accounted.handleNext {i : ℕ} {r : R} {rest : List (ℕ × R)}
    (h : Accounted ⟨channels, .handling ((i, r) :: rest), expired, results, errors⟩ tr) :
    Accounted ⟨channels, .handling rest, expired, results, errors⟩ (tr ++ [.handled i r]) := by
  refine ⟨fun j r' hmem => h.collected j r' (by simpa using hmem), h.read, h.nodup,
    fun _ _ hreading => absurd hreading (by simp),
    fun _ hstarting => absurd hstarting (by simp), ?_, fun _ _ => rfl⟩
  have hpending : handledOf tr ++ (i, r) :: rest = results := h.handled
  rw [handledOf_append, List.append_assoc]
  exact hpending

/-- All results are handed on. -/
theorem Accounted.endHandling
    (h : Accounted ⟨channels, .handling [], expired, results, errors⟩ tr) :
    Accounted ⟨channels, .returned, expired, results, errors⟩ tr :=
  ⟨h.collected, h.read, h.nodup, fun _ _ hreading => absurd hreading (by simp),
    fun _ hstarting => absurd hstarting (by simp), h.handled, fun _ _ => rfl⟩

end Loop

/-- The dispatcher goes on. -/
theorem Accounted.loop (h : Accounted s tr) {prefersDone : Bool}
    (hs : s.loop prefersDone = some (s', ev)) : Accounted s' (tr ++ ev) := by
  obtain ⟨channels, phase, expired, results, errors⟩ := s
  cases phase with
  | starting todo =>
    cases todo with
    | cons found todo =>
      obtain ⟨rfl, rfl⟩ := Prod.mk.inj (Option.some.inj hs)
      rw [List.append_nil]
      exact h.startNext _
    | nil =>
      obtain ⟨rfl, rfl⟩ := Prod.mk.inj (Option.some.inj hs)
      rw [List.append_nil]
      exact h.startReading
  | reading n blocked =>
    cases blocked with
    | true => exact absurd hs (by simp [MetricsTask.loop])
    | false =>
      simp only [MetricsTask.loop] at hs
      split at hs
      · next c hc =>
        obtain ⟨rfl, rfl⟩ := Prod.mk.inj (Option.some.inj hs)
        rw [List.append_nil]
        exact h.select rfl hc prefersDone
      · next hnone =>
        obtain ⟨rfl, rfl⟩ := Prod.mk.inj (Option.some.inj hs)
        rw [List.append_nil]
        exact h.endReading (List.getElem?_eq_none_iff.mp hnone)
  | handling rest =>
    cases rest with
    | cons x rest =>
      obtain ⟨rfl, rfl⟩ := Prod.mk.inj (Option.some.inj hs)
      exact h.handleNext
    | nil =>
      obtain ⟨rfl, rfl⟩ := Prod.mk.inj (Option.some.inj hs)
      rw [List.append_nil]
      exact h.endHandling
  | returned => exact absurd hs (by simp [MetricsTask.loop])

theorem phase_of_waitsFor {i : ℕ} (h : s.waitsFor i = true) : s.phase = .reading i true := by
  unfold waitsFor at h
  split at h
  · next n hphase =>
    obtain rfl : n = i := of_decide_eq_true h
    exact hphase
  · exact absurd h (by simp)

theorem next_set (s : MetricsTask R) (i : ℕ) (c : ResultChannel R) :
    next { s with channels := s.channels.set i c } = s.next := by
  simp only [next]
  split <;> simp

/-- The result is left in the channel. -/
theorem Accounted.hold (h : Accounted s tr) {i : ℕ} (hempty : s.channels[i]? = some .empty)
    (result : Option R) : Accounted { s with channels := s.channels.set i (.holds result) } tr := by
  have hnext := next_set s i (.holds result)
  refine ⟨fun j r hmem => ?_, fun hexpired j hj => ?_, h.nodup, h.lt_next, h.fresh, h.handled,
    h.awake⟩
  · rcases h.collected j r hmem with hold | ⟨hexpired, hle, hholds⟩
    · exact .inl hold
    · have hne : i ≠ j := by
        rintro rfl
        exact absurd (hempty.symm.trans hholds) (by simp)
      exact .inr ⟨hexpired, hnext ▸ hle, by rw [List.getElem?_set_ne hne, hholds]⟩
  · have hread := h.read hexpired j (hnext ▸ hj)
    rcases eq_or_ne i j with rfl | hne
    · exact absurd hempty hread
    · rwa [List.getElem?_set_ne hne]

/-- A collection puts its result. -/
theorem Accounted.put (h : Accounted s tr) {i : ℕ} (hempty : s.channels[i]? = some .empty)
    (result : Option R) :
    Accounted (s.put i result)
      (tr ++ if s.expired then [] else (result.map (.collected i)).toList) := by
  rw [MetricsTask.put]
  by_cases hwaits : s.waitsFor i = true
  · -- the dispatcher was blocked, so the deadline has not passed
    have hexpired : s.expired = false := by
      by_contra hexpired
      have := h.awake (by simpa using hexpired) i
      simp [hwaits] at this
    rw [if_pos hwaits, hexpired]
    refine (h.receive (phase_of_waitsFor hwaits) fun r hr => ?_).collect fun r hr => ?_
    · exact absurd (hempty.symm.trans hr) (by simp)
    · refine .inl (List.mem_append_right _ ?_)
      rw [hr]
      exact List.mem_singleton_self _
  · rw [if_neg hwaits]
    have hheld := h.hold hempty result
    by_cases hexpired : s.expired = true
    · rw [if_pos hexpired, List.append_nil]
      exact hheld
    · rw [if_neg hexpired]
      have hnot : s.expired = false := Bool.eq_false_iff.mpr hexpired
      refine hheld.collect fun r hr => .inr ⟨hnot, ?_, ?_⟩
      · rw [next_set]
        by_contra hlt
        exact h.read hnot i (Nat.lt_of_not_le hlt) hempty
      · rw [hr, List.getElem?_set_self (List.getElem?_eq_some_iff.mp hempty).1]

/-- **The deadline passes**, while no result is unread. -/
theorem Accounted.expire (h : Accounted s tr) (hunread : NoneUnread s .expire) :
    Accounted s.expire tr := by
  -- whatever was put before has been read, so the deadline does no harm
  have hresults : ∀ i r, .collected i r ∈ tr → (i, r) ∈ s.results := by
    intro i r hmem
    rcases h.collected i r hmem with hold | ⟨hexpired, hle, hholds⟩
    · exact hold
    · have hdrop : .holds (some r) ∈ s.channels.drop s.next := by
        refine List.mem_of_getElem? (i := i - s.next) ?_
        rw [List.getElem?_drop, Nat.add_sub_cancel' hle, hholds]
      exact absurd (hunread hexpired _ hdrop) (by simp [ResultChannel.isUnread])
  have hexpired : (∀ i, s.waitsFor i = false) → Accounted { s with expired := true } tr := fun hw =>
    ⟨fun i r hmem => .inl (hresults i r hmem), fun hnot => absurd hnot (by simp), h.nodup,
      h.lt_next, h.fresh, h.handled, fun _ => hw⟩
  unfold MetricsTask.expire
  split
  · next n hphase =>
    refine ⟨fun i r hmem => .inl (hresults i r hmem), fun hnot => absurd hnot (by simp), h.nodup,
      ?_, fun _ hstarting => absurd hstarting (by simp [MetricsTask.giveUp]), ?_, fun _ _ => rfl⟩
    · intro m blocked hm x hx
      obtain rfl : n + 1 = m := (TaskPhase.reading.inj hm).1
      exact Nat.lt_succ_of_lt (h.lt_next _ _ hphase x hx)
    · rw [h.handledOf_eq_nil hphase]
      rfl
  · next hphase =>
    refine hexpired fun i => Bool.eq_false_iff.mpr fun hwaits => ?_
    exact hphase i (phase_of_waitsFor hwaits)

/-- One step keeps the account, if it meets the condition. -/
theorem Accounted.step {a : Action R} (h : Accounted s tr) (hunread : NoneUnread s a)
    (hs : MetricsTask.step s a = some (s', ev)) : Accounted s' (tr ++ ev) := by
  cases a with
  | loop prefersDone => exact h.loop hs
  | put i result =>
    rw [MetricsTask.step] at hs
    split at hs
    · next hempty =>
      obtain ⟨rfl, rfl⟩ := Prod.mk.inj (Option.some.inj hs)
      exact h.put hempty result
    · exact absurd hs (by simp)
  | expire =>
    obtain ⟨rfl, rfl⟩ := Prod.mk.inj (Option.some.inj hs)
    rw [List.append_nil]
    exact h.expire hunread

/-- Of the results with different positions, one is the only one at its position. -/
theorem filter_eq_singleton {xs : List (ℕ × R)} (hnodup : (xs.map Prod.fst).Nodup) {i : ℕ} {r : R}
    (hmem : (i, r) ∈ xs) : xs.filter (fun x => x.1 = i) = [(i, r)] := by
  induction xs with
  | nil => simp at hmem
  | cons x xs ih =>
    obtain ⟨hx, hrest⟩ := List.nodup_cons.mp hnodup
    rcases List.mem_cons.mp hmem with rfl | htail
    · have hnone : xs.filter (fun x => x.1 = i) = [] := by
        rw [List.filter_eq_nil_iff]
        intro y hy hyi
        exact hx (List.mem_map.mpr ⟨y, hy, of_decide_eq_true hyi⟩)
      simp [hnone]
    · have hne : x.1 ≠ i := by
        rintro rfl
        exact hx (List.mem_map.mpr ⟨_, htail, rfl⟩)
      rw [List.filter_cons_of_neg (by simpa using hne)]
      exact ih hrest htail

theorem Accounted.delivered (h : Accounted s tr) : s.Delivered tr := by
  intro hreturned i r hmem
  have hhandled : handledOf tr = s.results := by
    have hpending := h.handled
    rwa [show s.pending = [] by simp [pending, hreturned], List.append_nil] at hpending
  rw [hhandled]
  rcases h.collected i r hmem with hread | ⟨-, hle, hholds⟩
  · exact filter_eq_singleton h.nodup hread
  · have hlt := (List.getElem?_eq_some_iff.mp hholds).1
    simp only [next, hreturned] at hle
    omega

/-! ### The task returns -/

/-- How many steps the dispatcher still has to take, at most. -/
def stepsLeft (s : MetricsTask R) : ℕ :=
  match s.phase with
  | .starting todo => 3 * todo.length + 2 * s.channels.length + s.results.length + 3
  | .reading n _ => 2 * (s.channels.length - n) + s.results.length + 2
  | .handling rest => rest.length + 1
  | .returned => 0

/-- After the deadline the dispatcher goes on, and has fewer steps left. -/
theorem loop_of_expired (hexpired : s.expired = true) (hawake : ∀ i, s.waitsFor i = false)
    (hphase : s.phase ≠ .returned) :
    ∃ s' ev, s.loop true = some (s', ev) ∧ (s'.expired = true ∧ ∀ i, s'.waitsFor i = false) ∧
      s'.stepsLeft < s.stepsLeft := by
  obtain ⟨channels, phase, expired, results, errors⟩ := s
  obtain rfl : expired = true := hexpired
  cases phase with
  | starting todo =>
    cases todo with
    | cons found todo =>
      refine ⟨_, _, rfl, ⟨rfl, fun _ => rfl⟩, ?_⟩
      simp only [stepsLeft, List.length_append, List.length_cons, List.length_nil]
      omega
    | nil =>
      refine ⟨_, _, rfl, ⟨rfl, fun _ => rfl⟩, ?_⟩
      simp only [stepsLeft, List.length_nil]
      omega
  | reading n blocked =>
    cases blocked with
    | true => exact absurd (hawake n) (by simp [waitsFor])
    | false =>
      simp only [loop]
      split
      · next c hc =>
        have hlt : n < channels.length := (List.getElem?_eq_some_iff.mp hc).1
        refine ⟨_, _, rfl, ?_⟩
        cases c with
        | nil | empty | spent | holds result =>
          refine ⟨⟨rfl, fun _ => rfl⟩, ?_⟩
          simp only [select, giveUp, Bool.and_self, if_true, stepsLeft]
          omega
      · refine ⟨_, _, rfl, ⟨rfl, fun _ => rfl⟩, ?_⟩
        simp only [stepsLeft]
        omega
  | handling rest =>
    cases rest with
    | cons x rest =>
      refine ⟨_, _, rfl, ⟨rfl, fun _ => rfl⟩, ?_⟩
      simp only [stepsLeft, List.length_cons]
      omega
    | nil => exact ⟨_, _, rfl, ⟨rfl, fun _ => rfl⟩, by simp [stepsLeft]⟩
  | returned => exact absurd rfl hphase

/-- **In every run in which the deadline passes while no result is unread, no result is
dropped**; and the task returns once it has passed. -/
theorem delivered_of_exec (job processedJob : Job) {as : List (Action R)}
    (hunread : Runs.Meets step NoneUnread (new job processedJob) as)
    (h : Runs.exec step (new job processedJob) as = some (s, tr)) :
    s.Delivered tr ∧ (s.expired = true → ∃ k s' tr',
      Runs.exec step s (List.replicate k (.loop true)) = some (s', tr') ∧
        s'.phase = .returned) := by
  have hacc : Accounted s tr := Runs.exec_induction_meets (accounted_new job processedJob)
    (fun _ _ _ _ _ hacc hok hs => hacc.step hok hs) hunread h
  refine ⟨hacc.delivered, fun hexpired => ?_⟩
  refine @Runs.exists_exec_of_rank _ _ _ step
    (fun s => s.expired = true ∧ ∀ i, s.waitsFor i = false) (fun s => s.phase = .returned)
    (.loop true) stepsLeft ?_ s ⟨hexpired, hacc.awake hexpired⟩
  rintro s ⟨hexpired, hawake⟩ hphase
  exact loop_of_expired hexpired hawake hphase

/-- A job whose metrics are the processor and the disk of a host. -/
def cpuAndDisk : Job :=
  { Job.bare 7 true 60 with
    metrics := some [.bare (Go.str "cpu") (Go.str "ssh"), .bare (Go.str "disk") (Go.str "ssh")] }

/-- The second metric is ready before the first, and both before the deadline. -/
def bothInTime : List (Action ℕ) :=
  [.loop true, .loop true, .loop true, .put 1 (some 20), .loop true, .put 0 (some 10), .loop true,
    .expire, .loop true, .loop true, .loop true, .loop true]

theorem delivered_both_in_time :
    ∃ s tr, Runs.exec step (new cpuAndDisk cpuAndDisk) bothInTime = some (s, tr) ∧
      s.Delivered tr ∧ handledOf tr = [(0, 10), (1, 20)] := by
  have hrun : (Runs.exec step (new cpuAndDisk cpuAndDisk) bothInTime).map
      (fun p => handledOf p.2) = some [(0, 10), (1, 20)] := by
    rfl
  obtain ⟨⟨s, tr⟩, hs, hhandled⟩ := Option.map_eq_some_iff.mp hrun
  refine ⟨s, tr, hs, (delivered_of_exec cpuAndDisk cpuAndDisk ?_ hs).1, hhandled⟩
  exact Runs.meets_of_checks rfl

/-- The first metric hangs. The second is ready in time, and is read after the deadline. -/
def firstHangs : List (Action ℕ) :=
  [.loop true, .loop true, .loop true, .loop true, .put 1 (some 20), .expire, .loop true,
    .loop true, .loop true]

/-- **A result is dropped**: it was put before the deadline, and the task has returned without
handing it to the result handler. -/
theorem not_delivered_first_hangs :
    ∃ s tr, Runs.exec step (new cpuAndDisk cpuAndDisk) firstHangs = some (s, tr) ∧
      s.phase = .returned ∧ tr = [.collected 1 20] ∧ ¬s.Delivered tr := by
  refine ⟨⟨[.empty, .holds (some 20)], .returned, true, [], [0, 1]⟩, [.collected 1 20], rfl, rfl,
    rfl, fun hdelivered => ?_⟩
  have hhandled := hdelivered rfl 1 20 (List.mem_singleton_self _)
  exact absurd hhandled (by simp [handledOf])

end MetricsTask

end HertzBeat
