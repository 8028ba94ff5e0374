import HertzBeat.Dispatcher.OneTimeJobs
import HertzBeat.Transport.Processors
import HertzBeat.Transport.Tasks

/-!
# Batches of removals

A `DELETE_CYCLIC_TASK` message lists ids, some of them perhaps unknown and some more than once. They
are removed one after the other. What a removal does depends on its id alone: it cancels the timeout
that it finds for the id, the cyclic one first, and takes out what is stored. So the state
afterwards is known from how often each id is listed, `HertzBeat.Runner.Leaves`, and the order is of
no importance.

A timeout that is nil, as `AddJob` stores it once the wheel is stopped, cannot be cancelled. A
removal that finds one panics, and the removals after it are not made. The main result,
`HertzBeat.Collector.deleteCyclicTask_leaves_iff`, has both: when the message is answered, and what
is so then.
-/

namespace HertzBeat

open Runs

namespace Runner

/-! ### What is found, and what is left -/

/-- What the removals of an id find, in this order. -/
def stored (r : Runner) (id : ℤ) : List (Option ℕ) :=
  (r.timeDispatch.cyclicTasks.lookup id).toList ++ (r.timeDispatch.tempTasks.lookup id).toList

/-- What the removals of a list find under an id. -/
def found (r : Runner) (ids : List ℤ) (id : ℤ) : List (Option ℕ) :=
  (r.stored id).take (ids.count id)

/-- The removals of a list cancel the timeout. -/
def Cancels (r : Runner) (ids : List ℤ) (a : ℕ) : Prop := ∃ id ∈ ids, some a ∈ r.found ids id

instance (r : Runner) (ids : List ℤ) (a : ℕ) : Decidable (r.Cancels ids a) :=
  inferInstanceAs (Decidable (∃ id ∈ ids, some a ∈ r.found ids id))

/-- **What the removal of the ids leaves**, id by id and timeout by timeout. -/
structure Leaves (r : Runner) (ids : List ℤ) (r' : Runner) : Prop where
  runningJobs : ∀ id, r'.runningJobs.lookup id =
    if id ∈ ids then none else r.runningJobs.lookup id
  cyclicTasks : ∀ id, r'.timeDispatch.cyclicTasks.lookup id =
    if id ∈ ids then none else r.timeDispatch.cyclicTasks.lookup id
  /-- One removal takes the cyclic task, if there is one. -/
  tempTasks : ∀ id, r'.timeDispatch.tempTasks.lookup id =
    if ids.count id ≤ (r.timeDispatch.cyclicTasks.lookup id).toList.length then
      r.timeDispatch.tempTasks.lookup id
    else none
  jobInfos : ∀ id, r'.timeDispatch.jobInfos.lookup id =
    if r.found ids id = [] then r.timeDispatch.jobInfos.lookup id else none
  timeouts : ∀ a, r'.wheel.timeouts.read a = (r.wheel.timeouts.read a).map fun t =>
    if r.Cancels ids a then t.cancel.1 else t

/-- The two states agree on everything that a removal can change. -/
structure Agrees (r r' : Runner) : Prop where
  runningJobs : r.runningJobs.lookup = r'.runningJobs.lookup
  cyclicTasks : r.timeDispatch.cyclicTasks.lookup = r'.timeDispatch.cyclicTasks.lookup
  tempTasks : r.timeDispatch.tempTasks.lookup = r'.timeDispatch.tempTasks.lookup
  jobInfos : r.timeDispatch.jobInfos.lookup = r'.timeDispatch.jobInfos.lookup
  timeouts : r.wheel.timeouts.read = r'.wheel.timeouts.read

/-- The two states agree on an id: on the entries and on the timeouts of its jobs. -/
structure AgreesOn (id : ℤ) (r r' : Runner) : Prop where
  runningJobs : r.runningJobs.lookup id = r'.runningJobs.lookup id
  cyclicTasks : r.timeDispatch.cyclicTasks.lookup id = r'.timeDispatch.cyclicTasks.lookup id
  tempTasks : r.timeDispatch.tempTasks.lookup id = r'.timeDispatch.tempTasks.lookup id
  jobInfos : r.timeDispatch.jobInfos.lookup id = r'.timeDispatch.jobInfos.lookup id
  timeouts : ∀ a, (r'.wheel.task a).map (·.job.id) = some id →
    r.wheel.timeouts.read a = r'.wheel.timeouts.read a

section

variable {r r₁ r' : Runner} {ids ids' : List ℤ}

theorem found_of_notMem {id : ℤ} (h : id ∉ ids) : r.found ids id = [] := by
  rw [found, List.count_eq_zero_of_not_mem h, List.take_zero]

/-- A removal takes what it finds. -/
theorem Leaves.stored_eq (h : r.Leaves ids r') (id : ℤ) :
    r'.stored id = (r.stored id).drop (ids.count id) := by
  rw [stored, h.cyclicTasks, h.tempTasks, stored]
  by_cases hmem : id ∈ ids
  · obtain ⟨n, hn⟩ : ∃ n, ids.count id = n + 1 :=
      Nat.exists_eq_succ_of_ne_zero (List.count_pos_iff.mpr hmem).ne'
    rw [if_pos hmem, hn]
    rcases r.timeDispatch.cyclicTasks.lookup id with _ | c <;>
      rcases r.timeDispatch.tempTasks.lookup id with _ | t <;> cases n <;> simp
  · rw [if_neg hmem, List.count_eq_zero_of_not_mem hmem, if_pos (Nat.zero_le _), List.drop_zero]

theorem Leaves.found_append (h : r.Leaves ids r₁) (id : ℤ) :
    r.found (ids ++ ids') id = r.found ids id ++ r₁.found ids' id := by
  rw [found, List.count_append, List.take_add, found, found, h.stored_eq]

theorem Leaves.cancels_append (h : r.Leaves ids r₁) {a : ℕ} :
    r.Cancels (ids ++ ids') a ↔ r.Cancels ids a ∨ r₁.Cancels ids' a := by
  have hmem : ∀ {r : Runner} {ids : List ℤ} {id : ℤ}, some a ∈ r.found ids id → id ∈ ids := by
    intro r ids id hid
    by_contra hmem
    rw [found_of_notMem hmem] at hid
    exact List.not_mem_nil hid
  constructor
  · rintro ⟨id, -, hid⟩
    rw [h.found_append, List.mem_append] at hid
    exact hid.imp (fun hid => ⟨id, hmem hid, hid⟩) fun hid => ⟨id, hmem hid, hid⟩
  · rintro (⟨id, hid, hfound⟩ | ⟨id, hid, hfound⟩)
    · refine ⟨id, List.mem_append_left _ hid, ?_⟩
      rw [h.found_append]
      exact List.mem_append_left _ hfound
    · refine ⟨id, List.mem_append_right _ hid, ?_⟩
      rw [h.found_append]
      exact List.mem_append_right _ hfound

theorem Leaves.refl (r : Runner) : r.Leaves [] r where
  runningJobs := fun _ => rfl
  cyclicTasks := fun _ => rfl
  tempTasks := fun _ => (if_pos (Nat.zero_le _)).symm
  jobInfos := fun _ => rfl
  timeouts := fun a => by simp [Cancels]

theorem cancel_cancel {T : Type} (t : Timeout T) : t.cancel.1.cancel.1 = t.cancel.1 := by
  cases h : t.cancelled <;> simp [Timeout.cancel, h]

/-- **Removals one after the other.** -/
theorem Leaves.trans (h : r.Leaves ids r₁) (h' : r₁.Leaves ids' r') :
    r.Leaves (ids ++ ids') r' where
  runningJobs := fun id => by
    rw [h'.runningJobs, h.runningJobs]
    by_cases hmem : id ∈ ids <;> by_cases hmem' : id ∈ ids' <;> simp [hmem, hmem']
  cyclicTasks := fun id => by
    rw [h'.cyclicTasks, h.cyclicTasks]
    by_cases hmem : id ∈ ids <;> by_cases hmem' : id ∈ ids' <;> simp [hmem, hmem']
  tempTasks := fun id => by
    rw [h'.tempTasks, h.tempTasks, h.cyclicTasks, List.count_append]
    by_cases hmem : id ∈ ids
    · have hpos : 0 < ids.count id := List.count_pos_iff.mpr hmem
      rw [if_pos hmem]
      cases r.timeDispatch.cyclicTasks.lookup id with
      | none => simp [hpos.ne']
      | some c =>
        change (if ids'.count id ≤ 0 then (if ids.count id ≤ 1 then _ else none) else none) =
          if ids.count id + ids'.count id ≤ 1 then _ else none
        split_ifs <;> first | rfl | omega
    · rw [if_neg hmem, List.count_eq_zero_of_not_mem hmem, Nat.zero_add, if_pos (Nat.zero_le _)]
  jobInfos := fun id => by
    rw [h'.jobInfos, h.jobInfos, h.found_append]
    by_cases hfound : r.found ids id = [] <;> by_cases hfound' : r₁.found ids' id = [] <;>
      simp [hfound, hfound']
  timeouts := fun a => by
    rw [h'.timeouts, h.timeouts, Option.map_map]
    congr 1
    funext t
    rw [Function.comp_apply]
    by_cases hcancel : r.Cancels ids a <;> by_cases hcancel' : r₁.Cancels ids' a <;>
      simp [h.cancels_append, hcancel, hcancel', cancel_cancel]

/-- No nil is found where none is stored. -/
theorem none_notMem_found (h : ∀ id ∈ ids, none ∉ r.stored id) (id : ℤ) :
    none ∉ r.found ids id := by
  by_cases hmem : id ∈ ids
  · exact fun hfound => h id hmem (List.mem_of_mem_take hfound)
  · rw [found_of_notMem hmem]
    exact List.not_mem_nil

/-! ### One removal -/

theorem found_singleton (r : Runner) (id : ℤ) : r.found [id] id = (r.stored id).take 1 := by
  rw [found, List.count_singleton_self]

theorem lookup_erase_eq_ite {α : Type} (m : Go.Map ℤ α) (id id' : ℤ) :
    (m.erase id).lookup id' = if id' ∈ [id] then none else m.lookup id' := by
  by_cases hid : id' = id
  · rw [hid, AList.lookup_erase, if_pos (List.mem_singleton_self _)]
  · rw [AList.lookup_erase_ne hid, if_neg (by simpa using hid)]

theorem lookup_erase_of_none {α : Type} {m : Go.Map ℤ α} {id : ℤ} (h : m.lookup id = none)
    (id' : ℤ) : (m.erase id).lookup id' = m.lookup id' := by
  rw [lookup_erase_eq_ite]
  split_ifs with hid
  · rw [List.mem_singleton.mp hid, h]
  · rfl

theorem read_cancel (w : HashedWheelTimer WheelTimerTask) (a b : ℕ) (rest : List (Option ℕ)) :
    (w.cancel a).timeouts.read b = (w.timeouts.read b).map fun t =>
      if some b ∈ (some a :: rest).take 1 then t.cancel.1 else t := by
  change (w.timeouts.modify a _).read b = _
  rw [Mem.read_modify]
  by_cases hb : b = a <;> simp [hb]

/-- The removal of an id leaves what is to be left, if its dispatcher takes out what is found. -/
theorem leaves_singleton {id : ℤ} (hrunning : r'.runningJobs = r.runningJobs.erase id)
    (hcyclic : ∀ id', r'.timeDispatch.cyclicTasks.lookup id' =
      (r.timeDispatch.cyclicTasks.erase id).lookup id')
    (htemp : ∀ id', r'.timeDispatch.tempTasks.lookup id' =
      if r.timeDispatch.cyclicTasks.lookup id = none then
        (r.timeDispatch.tempTasks.erase id).lookup id'
      else r.timeDispatch.tempTasks.lookup id')
    (hinfos : r'.timeDispatch.jobInfos =
      if r.stored id = [] then r.timeDispatch.jobInfos else r.timeDispatch.jobInfos.erase id)
    (htimeouts : ∀ a, r'.wheel.timeouts.read a = (r.wheel.timeouts.read a).map fun t =>
      if some a ∈ (r.stored id).take 1 then t.cancel.1 else t) : r.Leaves [id] r' where
  runningJobs := fun id' => by
    rw [hrunning]
    exact lookup_erase_eq_ite _ id id'
  cyclicTasks := fun id' => by
    rw [hcyclic]
    exact lookup_erase_eq_ite _ id id'
  tempTasks := fun id' => by
    rw [htemp]
    by_cases hid : id' = id
    · subst hid
      cases r.timeDispatch.cyclicTasks.lookup id' <;> simp [AList.lookup_erase]
    · rw [List.count_eq_zero_of_not_mem (by simpa using hid), if_pos (Nat.zero_le _)]
      split_ifs
      · rw [AList.lookup_erase_ne hid]
      · rfl
  jobInfos := fun id' => by
    rw [hinfos]
    by_cases hid : id' = id
    · subst hid
      rw [found_singleton]
      by_cases hnil : r.stored id' = [] <;> simp [hnil, AList.lookup_erase]
    · rw [found_of_notMem (by simpa using hid), if_pos rfl]
      split_ifs
      · rfl
      · rw [AList.lookup_erase_ne hid]
  timeouts := fun a => by
    have hiff : r.Cancels [id] a ↔ some a ∈ (r.stored id).take 1 := by
      rw [Cancels, ← found_singleton]
      simp
    simp only [htimeouts, hiff]

/-- The removal of an id, from what its dispatcher does. -/
theorem removeAsyncCollectJob_ok {id : ℤ} {td : TimeDispatch} {err : Option Go.Str}
    (h : r.timeDispatch.removeJob id = .ok (td, err)) :
    ∃ r', r.removeAsyncCollectJob id = .ok (r', err.map
        (Go.str "failed to remove job from time dispatcher: " ++ ·)) ∧
      r'.runningJobs = r.runningJobs.erase id ∧ r'.timeDispatch = td := by
  unfold removeAsyncCollectJob
  dsimp only
  split
  · rename_i hrem
    exact absurd (h.symm.trans hrem) (by simp)
  · rename_i hrem
    cases h.symm.trans hrem
    exact ⟨_, rfl, rfl, rfl⟩

/-- **`RemoveAsyncCollectJob`** panics if what it finds is nil. It has an error if it finds
nothing. -/
theorem removeAsyncCollectJob_leaves (r : Runner) (id : ℤ) :
    (none ∈ r.found [id] id ∧ ∃ p, r.removeAsyncCollectJob id = .error p) ∨
      ∃ r' err, r.removeAsyncCollectJob id = .ok (r', err) ∧ none ∉ r.found [id] id ∧
        r.Leaves [id] r' ∧ (err = none ↔ r.stored id ≠ []) := by
  rw [found_singleton]
  rcases hc : r.timeDispatch.cyclicTasks.lookup id with _ | _ | a
  · rcases ht : r.timeDispatch.tempTasks.lookup id with _ | _ | a
    · have hstored : r.stored id = [] := by rw [stored, hc, ht]; rfl
      obtain ⟨r', hr', hrunning, htd⟩ := @removeAsyncCollectJob_ok r id _ _
        (by simp only [TimeDispatch.removeJob, hc, ht]; rfl)
      refine .inr ⟨r', _, hr', by simp [hstored], ?_, by simp [hstored]⟩
      refine leaves_singleton hrunning (fun id' => ?_) (fun id' => ?_) ?_ fun a => ?_
      · rw [htd, lookup_erase_of_none hc]
      · rw [htd, lookup_erase_of_none ht, if_pos hc]
      · rw [htd, if_pos hstored]
      · rw [wheel, htd]
        simp [hstored, wheel]
    · have hstored : r.stored id = [none] := by rw [stored, hc, ht]; rfl
      refine .inl ⟨by simp [hstored], .nilDereference, r.removeAsyncCollectJob_error ?_⟩
      simp only [TimeDispatch.removeJob, hc, ht, cancelStored]
    · have hstored : r.stored id = [some a] := by rw [stored, hc, ht]; rfl
      obtain ⟨r', hr', hrunning, htd⟩ := @removeAsyncCollectJob_ok r id _ _
        (by simp only [TimeDispatch.removeJob, hc, ht, cancelStored]; rfl)
      refine .inr ⟨r', _, hr', by simp [hstored], ?_, by simp [hstored]⟩
      refine leaves_singleton hrunning (fun id' => ?_) (fun id' => ?_) ?_ fun b => ?_
      · rw [htd, lookup_erase_of_none hc]
      · rw [htd, if_pos hc]
      · rw [htd, if_neg (by simp [hstored])]
      · rw [wheel, htd, hstored]
        exact read_cancel _ a b []
  · obtain ⟨rest, hstored⟩ : ∃ rest, r.stored id = none :: rest := ⟨_, by rw [stored, hc]; rfl⟩
    refine .inl ⟨by simp [hstored], .nilDereference, r.removeAsyncCollectJob_error ?_⟩
    simp only [TimeDispatch.removeJob, hc, cancelStored]
  · obtain ⟨rest, hstored⟩ : ∃ rest, r.stored id = some a :: rest :=
      ⟨_, by rw [stored, hc]; rfl⟩
    obtain ⟨r', hr', hrunning, htd⟩ := @removeAsyncCollectJob_ok r id _ _
      (by simp only [TimeDispatch.removeJob, hc, cancelStored]; rfl)
    refine .inr ⟨r', _, hr', by simp [hstored], ?_, by simp [hstored]⟩
    refine leaves_singleton hrunning (fun id' => ?_) (fun id' => ?_) ?_ fun b => ?_
    · rw [htd]
    · rw [htd, if_neg (by simp [hc])]
    · rw [htd, if_neg (by simp [hstored])]
    · rw [wheel, htd, hstored]
      exact read_cancel _ a b rest

/-! ### A batch -/

/-- The first removal needs one of what is stored, and the others the rest. -/
theorem forall_count_cons_le_iff {stored : ℤ → ℕ} {id : ℤ} {ids : List ℤ} :
    (∀ id', (id :: ids).count id' ≤ stored id') ↔
      0 < stored id ∧ ∀ id', ids.count id' ≤ stored id' - [id].count id' := by
  have hcount (id' : ℤ) : (id :: ids).count id' = [id].count id' + ids.count id' := by
    rw [← List.count_append, List.singleton_append]
  simp only [hcount]
  constructor
  · intro hall
    have hself := hall id
    rw [List.count_singleton_self] at hself
    exact ⟨by omega, fun id' => by have := hall id'; omega⟩
  · rintro ⟨hpos, hrest⟩ id'
    have hrest' := hrest id'
    rcases eq_or_ne id' id with rfl | hne
    · rw [List.count_singleton_self] at hrest' ⊢
      omega
    · have hzero : [id].count id' = 0 := List.count_eq_zero_of_not_mem (by simpa using hne)
      omega

/-- **The removals of a list** go through exactly if none of them finds nil. There is no error
exactly if each of them finds something. -/
theorem removeJobs_leaves (r : Runner) (ids : List ℤ) :
    ((∃ id, none ∈ r.found ids id) ∧ ∃ p, Collector.removeJobs r ids = .error p) ∨
      ∃ r' errors, Collector.removeJobs r ids = .ok (r', errors) ∧
        (∀ id, none ∉ r.found ids id) ∧ r.Leaves ids r' ∧
        (errors = [] ↔ ∀ id, ids.count id ≤ (r.stored id).length) := by
  induction ids generalizing r with
  | nil => exact .inr ⟨r, [], rfl, by simp [found], .refl r, by simp⟩
  | cons id ids ih =>
    rcases r.removeAsyncCollectJob_leaves id with
      ⟨hnil, p, hp⟩ | ⟨r₁, err, hr₁, hnil, hleaves, herr⟩
    · refine .inl ⟨⟨id, ?_⟩, p, by simp [Collector.removeJobs, hp]⟩
      refine List.take_subset_take_left _ ?_ hnil
      rw [List.count_singleton_self, List.count_cons_self]
      omega
    · have hfound (id' : ℤ) : r.found (id :: ids) id' = r.found [id] id' ++ r₁.found ids id' :=
        hleaves.found_append id'
      rcases ih r₁ with ⟨⟨id', hnil'⟩, p, hp⟩ | ⟨r', errors, hr', hnil', hleaves', herrors⟩
      · refine .inl ⟨⟨id', ?_⟩, p, by simp [Collector.removeJobs, hr₁, hp]⟩
        rw [hfound]
        exact List.mem_append_right _ hnil'
      · have hok : Collector.removeJobs r (id :: ids) = .ok (r', (err.map fun err =>
            Go.str "job " ++ Go.itoa id ++ Go.str ": " ++ err).toList ++ errors) := by
          simp only [Collector.removeJobs, hr₁, hr']
        refine .inr ⟨r', _, hok, fun id' => ?_, hleaves.trans hleaves', ?_⟩
        · rw [hfound, List.mem_append]
          rintro (hmem | hmem)
          · rcases eq_or_ne id' id with rfl | hne
            · exact hnil hmem
            · rw [found_of_notMem (by simpa using hne)] at hmem
              exact List.not_mem_nil hmem
          · exact hnil' id' hmem
        · have hhead : err = none ↔ 0 < (r.stored id).length := by
            rw [herr, List.length_pos_iff]
          rw [forall_count_cons_le_iff]
          simp only [List.append_eq_nil_iff, Option.toList_eq_nil_iff, Option.map_eq_none_iff,
            herrors, hleaves.stored_eq, List.length_drop, hhead]

/-! ### The order of a batch, and what it does not touch -/

/-- What is left depends on how often each id is listed. -/
theorem Leaves.agrees_of_perm {r'' : Runner} (h : r.Leaves ids r') (h' : r.Leaves ids' r'')
    (hperm : ids'.Perm ids) : r''.Agrees r' := by
  have hfound (id : ℤ) : r.found ids' id = r.found ids id := by
    rw [found, found, hperm.count_eq]
  have hcancels (a : ℕ) : r.Cancels ids' a ↔ r.Cancels ids a := by
    simp only [Cancels, hfound, hperm.mem_iff]
  refine ⟨?_, ?_, ?_, ?_, ?_⟩
  · funext id
    simp only [h.runningJobs, h'.runningJobs, hperm.mem_iff]
  · funext id
    simp only [h.cyclicTasks, h'.cyclicTasks, hperm.mem_iff]
  · funext id
    simp only [h.tempTasks, h'.tempTasks, hperm.count_eq]
  · funext id
    simp only [h.jobInfos, h'.jobInfos, hfound]
  · funext a
    simp only [h.timeouts, h'.timeouts, hcancels]

/-- **Other ids are left alone**, if what is stored under an id are timeouts of its jobs. -/
theorem Leaves.agreesOn (h : r.Leaves ids r')
    (htask : ∀ id a, some a ∈ r.stored id → (r.wheel.task a).map (·.job.id) = some id) {id : ℤ}
    (hid : id ∉ ids) : r'.AgreesOn id r := by
  refine ⟨?_, ?_, ?_, ?_, fun a ha => ?_⟩
  · rw [h.runningJobs, if_neg hid]
  · rw [h.cyclicTasks, if_neg hid]
  · rw [h.tempTasks, List.count_eq_zero_of_not_mem hid, if_pos (Nat.zero_le _)]
  · rw [h.jobInfos, found_of_notMem hid, if_pos rfl]
  · have hcancel : ¬r.Cancels ids a := by
      rintro ⟨id', hmem, hfound⟩
      have hid' := htask id' a (List.mem_of_mem_take hfound)
      rw [ha] at hid'
      exact hid (Option.some.inj hid' ▸ hmem)
    rw [h.timeouts]
    simp [hcancel]

end

end Runner

/-! ### The states of the service -/

theorem DispatchState.WellFormed.allocated {s : DispatchState} (h : s.WellFormed) :
    s.td.Allocated := by
  have hlt : ∀ {a : ℕ} {task : WheelTimerTask}, s.td.wheelTimer.task a = some task →
      a < s.td.wheelTimer.timeouts.size := by
    intro a task htask
    obtain ⟨t, ht, -⟩ := Option.map_eq_some_iff.mp htask
    exact Mem.lt_size_of_read ht
  refine ⟨fun id a ha => ?_, fun id a ha => ?_⟩
  · obtain ⟨j, hj, -⟩ := h.cyclic_task id a ha
    exact hlt hj
  · obtain ⟨j, hj, -⟩ := h.temp_task id a ha
    exact hlt hj

namespace JobService

variable {s : JobService} {now : ℤ} {as : List ServiceAct} {tr : List DispatchEvent}

/-- The runner of a service. -/
def runner (s : JobService) (h : s.dispatch.WellFormed) : Runner where
  runningJobs := s.runningJobs
  timeDispatch := s.dispatch.td
  allocated := h.allocated

theorem wellFormed_of_exec (h : exec step (init now) as = some (s, tr)) :
    s.dispatch.WellFormed := by
  have hinit : (init now).dispatch.WellFormed := DispatchState.wellFormed_init now
  exact @exec_invariant _ _ _ step (fun s => s.dispatch.WellFormed) _ hinit
    (fun _ _ _ _ hwf hs => wellFormed_step hwf hs) _ _ _ h

theorem stored_task (h : s.dispatch.WellFormed) {id : ℤ} {a : ℕ}
    (ha : some a ∈ (s.runner h).stored id) :
    ((s.runner h).wheel.task a).map (·.job.id) = some id := by
  have htask : ∃ j, s.dispatch.td.wheelTimer.task a = some ⟨j⟩ ∧ j.id = id := by
    rcases List.mem_append.mp ha with hc | ht
    · exact h.cyclic_task id a (Option.mem_toList.mp hc)
    · exact h.temp_task id a (Option.mem_toList.mp ht)
  obtain ⟨j, hj, rfl⟩ := htask
  exact congrArg (Option.map (·.job.id)) hj

end JobService

namespace Collector

variable (json : Json)

/-- The answer to a message that lists ids is that of the loop. -/
theorem deleteCyclicTask_eq {c : Collector} {r : Runner} {m : Message} {ids : List ℤ}
    (hscheduler : c.scheduler = some r) (hids : deletedIDs json m = .ok ids) :
    deleteCyclicTask json c m = (removeJobs r ids).map fun out =>
      ({ c with scheduler := some out.1 }, m.answer .deleteCyclicTask
        (if out.2 = [] then Go.str "all cyclic tasks removed successfully"
        else Go.str "partially completed, errors: [" ++ Go.spaced out.2 ++ Go.str "]")) := by
  rw [deleteCyclicTask, hscheduler]
  simp only [hids]
  cases removeJobs r ids <;> rfl

/-- The answer reports success exactly if there are no errors. -/
theorem deleteAnswer_eq_iff {errors : List Go.Str} :
    (if errors = [] then Go.str "all cyclic tasks removed successfully"
      else Go.str "partially completed, errors: [" ++ Go.spaced errors ++ Go.str "]") =
        Go.str "all cyclic tasks removed successfully" ↔ errors = [] := by
  split_ifs with hnone
  · exact iff_of_true rfl hnone
  · refine iff_of_false (fun h => ?_) hnone
    have hhead := congrArg List.head? h
    rw [List.append_assoc, List.head?_append_of_ne_nil _ (by decide)] at hhead
    exact absurd hhead (by decide)

/-- **The removal of a list of ids**, in any state of the service. The message is answered exactly
if no removal finds nil. Then what is left is known id by id; it is the same for the ids in any
other order; other ids are left alone; and the answer reports success exactly if each removal found
something. -/
theorem deleteCyclicTask_leaves_iff {now : ℤ} {as : List ServiceAct} {s : JobService}
    {tr : List DispatchEvent} (hrun : exec JobService.step (.init now) as = some (s, tr))
    {c : Collector} {r : Runner} (hr : r = s.runner (JobService.wellFormed_of_exec hrun))
    (hscheduler : c.scheduler = some r) {m : Message} {ids : List ℤ}
    (hids : deletedIDs json m = .ok ids) :
    ((∃ c' answer, deleteCyclicTask json c m = .ok (c', answer)) ↔ ∀ id, none ∉ r.found ids id) ∧
      ∀ c' answer, deleteCyclicTask json c m = .ok (c', answer) → ∃ r', c'.scheduler = some r' ∧
        r.Leaves ids r' ∧
        (∀ m' ids', deletedIDs json m' = .ok ids' → ids'.Perm ids →
          ∃ c'' answer' r'', deleteCyclicTask json c m' = .ok (c'', answer') ∧
            c''.scheduler = some r'' ∧ r''.Agrees r') ∧
        (∀ id, id ∉ ids → r'.AgreesOn id r) ∧
        (answer.msg = Go.str "all cyclic tasks removed successfully" ↔
          ∀ id, ids.count id ≤ (r.stored id).length) := by
  have hdelete {m ids} := @deleteCyclicTask_eq json c r m ids hscheduler
  have htask : ∀ id a, some a ∈ r.stored id → (r.wheel.task a).map (·.job.id) = some id := by
    rw [hr]
    exact fun id a => JobService.stored_task _
  rcases r.removeJobs_leaves ids with
    ⟨⟨id, hnil⟩, p, hp⟩ | ⟨r', errors, hok, hnil, hleaves, herrors⟩
  · have herror : deleteCyclicTask json c m = .error p := by
      rw [hdelete hids, hp]
      rfl
    refine ⟨⟨?_, fun h => absurd hnil (h id)⟩, ?_⟩
    · rintro ⟨c', answer, hc'⟩
      exact absurd (herror.symm.trans hc') (by simp)
    · intro c' answer hc'
      exact absurd (herror.symm.trans hc') (by simp)
  · have hanswer := hdelete hids
    rw [hok] at hanswer
    refine ⟨⟨fun _ => hnil, fun _ => ⟨_, _, hanswer⟩⟩, fun c' answer hc' => ?_⟩
    cases hanswer.symm.trans hc'
    refine ⟨r', rfl, hleaves, fun m' ids' hids' hperm => ?_,
      fun id hid => hleaves.agreesOn htask hid, deleteAnswer_eq_iff.trans herrors⟩
    · rcases r.removeJobs_leaves ids' with
        ⟨⟨id, hnil'⟩, -⟩ | ⟨r'', errors', hok', -, hleaves', -⟩
      · rw [Runner.found, hperm.count_eq] at hnil'
        exact absurd hnil' (hnil id)
      · have hanswer' := hdelete hids'
        rw [hok'] at hanswer'
        exact ⟨_, _, r'', hanswer', rfl, hleaves.agrees_of_perm hleaves' hperm⟩

/-- Decodes two lists of ids. -/
def listJson : Json where
  aesSecret := fun _ => .error []
  job := fun _ => .error []
  jobIDs := fun s => if s = Go.str "[7,5]" then .ok [7, 5] else if s = Go.str "[5]" then .ok [5]
    else .error []
  jobID := fun _ => .error []

/-- A message that lists ids. -/
def deleteMessage (msg : String) : Message := ⟨.deleteCyclicTask, .request, [], Go.str msg⟩

/-- Of the two ids that are removed, one is that of a job. -/
theorem deleteCyclicTask_leaves_one_job :
    ∃ s tr, ∃ hrun : exec JobService.step (.init 0)
        [.addAsyncCollectJob (some (Job.bare 7 true 60)) 0] = some (s, tr),
      ∃ c' answer, deleteCyclicTask listJson
          ⟨[], some (s.runner (JobService.wellFormed_of_exec hrun))⟩ (deleteMessage "[7,5]") =
        .ok (c', answer) ∧ answer.msg ≠ Go.str "all cyclic tasks removed successfully" := by
  have hend : (exec JobService.step (.init 0)
      [.addAsyncCollectJob (some (Job.bare 7 true 60)) 0]).map (fun p =>
        (p.1.dispatch.td.cyclicTasks.lookup 7, p.1.dispatch.td.cyclicTasks.lookup 5,
          p.1.dispatch.td.tempTasks.lookup 7, p.1.dispatch.td.tempTasks.lookup 5)) =
      some (some (some 0), none, none, none) := by
    decide
  obtain ⟨⟨s, tr⟩, hrun, hs⟩ := Option.map_eq_some_iff.mp hend
  simp only [Prod.mk.injEq] at hs
  obtain ⟨hc, hc', ht, ht'⟩ := hs
  have hids : deletedIDs listJson (deleteMessage "[7,5]") = .ok [7, 5] := by decide
  have hleaves := @deleteCyclicTask_leaves_iff listJson 0 _ s tr hrun
    ⟨[], some (s.runner (JobService.wellFormed_of_exec hrun))⟩ _ rfl rfl _ _ hids
  have hseven : (s.runner (JobService.wellFormed_of_exec hrun)).stored 7 = [some 0] := by
    rw [Runner.stored, JobService.runner, hc, ht]
    rfl
  have hfive : (s.runner (JobService.wellFormed_of_exec hrun)).stored 5 = [] := by
    rw [Runner.stored, JobService.runner, hc', ht']
    rfl
  have hnil : ∀ id ∈ [7, 5], none ∉ (s.runner (JobService.wellFormed_of_exec hrun)).stored id := by
    simp [hseven, hfive]
  obtain ⟨c', answer, hanswer⟩ := hleaves.1.mpr (Runner.none_notMem_found hnil)
  obtain ⟨r', -, -, -, -, hmsg⟩ := hleaves.2 c' answer hanswer
  refine ⟨s, tr, hrun, c', answer, hanswer, fun hsuccess => ?_⟩
  have hcount := hmsg.mp hsuccess 5
  rw [hfive] at hcount
  exact absurd hcount (by decide)

/-- A job is added before the service is stopped, and another one after that. -/
def lateJob : List ServiceAct :=
  [.addAsyncCollectJob (some (Job.bare 5 true 60)) 0, .dispatch .start, .dispatch .stop,
    .addAsyncCollectJob (some (Job.bare 7 true 60)) 0]

/-- **An id that cannot be removed prevents the removal of another one**: the removal of the job
that was added late panics. The other id, which would be removed, is still registered then. -/
theorem not_deleteCyclicTask_leaves_late :
    ∃ s tr, ∃ hrun : exec JobService.step (.init 0) lateJob = some (s, tr),
      (s.runningJobs.lookup 5).isSome ∧
        deleteCyclicTask listJson ⟨[], some (s.runner (JobService.wellFormed_of_exec hrun))⟩
          (deleteMessage "[7,5]") = .error .nilDereference ∧
        ∃ c' answer r', deleteCyclicTask listJson
            ⟨[], some (s.runner (JobService.wellFormed_of_exec hrun))⟩ (deleteMessage "[5]") =
          .ok (c', answer) ∧ c'.scheduler = some r' ∧ r'.runningJobs.lookup 5 = none := by
  have hend : (exec JobService.step (.init 0) lateJob).map (fun p =>
        (p.1.dispatch.td.cyclicTasks.lookup 7, p.1.dispatch.td.cyclicTasks.lookup 5,
          p.1.dispatch.td.tempTasks.lookup 5, (p.1.runningJobs.lookup 5).isSome)) =
      some (some none, none, none, true) := by
    decide
  obtain ⟨⟨s, tr⟩, hrun, hs⟩ := Option.map_eq_some_iff.mp hend
  simp only [Prod.mk.injEq] at hs
  obtain ⟨hc, hc', ht', hrunning⟩ := hs
  have hids : deletedIDs listJson (deleteMessage "[7,5]") = .ok [7, 5] := by decide
  have hids' : deletedIDs listJson (deleteMessage "[5]") = .ok [5] := by decide
  refine ⟨s, tr, hrun, hrunning, ?_, ?_⟩
  · rw [deleteCyclicTask_eq listJson rfl hids, removeJobs, Runner.removeAsyncCollectJob_error]
    · rfl
    · simp only [TimeDispatch.removeJob, JobService.runner, hc, cancelStored]
  · have hfive : (s.runner (JobService.wellFormed_of_exec hrun)).stored 5 = [] := by
      rw [Runner.stored, JobService.runner, hc', ht']
      rfl
    rw [deleteCyclicTask_eq listJson rfl hids']
    rcases (s.runner (JobService.wellFormed_of_exec hrun)).removeJobs_leaves [5] with
      ⟨⟨id, hnil⟩, -⟩ | ⟨r', errors, hok, -, hleaves, -⟩
    · exact absurd hnil (Runner.none_notMem_found (by simp [hfive]) id)
    · rw [hok]
      refine ⟨_, _, r', rfl, rfl, ?_⟩
      rw [hleaves.runningJobs, if_pos (List.mem_singleton_self 5)]

end Collector

end HertzBeat
