import HertzBeat.Transport.Processors
import HertzBeat.Transport.Tasks

/-!
# Does the order of arrival count?

The comment over the branch of `processReceivedMessage` that handles requests says
that they are processed synchronously. They are not: every message gets a goroutine of
its own, and goroutines run in any order. This module asks which sequences of messages
come out alike in all of these orders.

A message asks for one of three things (`HertzBeat.Intent`): to set the secret, to
schedule a job, or to remove some ids. What the collector holds in the end, as far as
the manager is concerned, is its `HertzBeat.Collector.view`, and the processors act on
it by carrying out the intents (`HertzBeat.Collector.view_runHandlers`); neither the
times at which they run nor the addresses of timeouts matter.

On the views the answer is exact. Two intents conflict when they set different
secrets, when one sets a secret that decrypts the other's passwords differently, when
they schedule different jobs under one id, or when one schedules an id and the other
removes it. Without a conflict the intents split into operations any two of which
commute; with one there are two orders whose outcomes differ
(`HertzBeat.Collector.inArrivalOrder_conflictFree`).
-/

namespace HertzBeat

open Go (Str BlockCipher)

open Runs

/-! ### What messages ask for -/

/-- What a message asks the collector to do. -/
inductive Intent where
  /-- Set the secret. -/
  | announce (secretKey : Str)
  /-- Schedule a job. -/
  | issue (isCyclic : Bool) (job : Job)
  /-- Remove jobs. -/
  | delete (ids : List ℤ)
  | nothing

/-- The intent of a task message; without a scheduler it comes to nothing. -/
def Message.issued (json : Json) (scheduled isCyclic : Bool) (m : Message) : Intent :=
  match scheduled, json.job m.msg with
  | true, .ok job => .issue isCyclic job
  | _, _ => .nothing

/-- The intent of a message. -/
def Message.intent (json : Json) (scheduled : Bool) (m : Message) : Intent :=
  match m.type with
  | .goOnline => (Collector.announcedSecret json m).elim .nothing .announce
  | .issueCyclicTask => m.issued json scheduled true
  | .issueOneTimeTask => m.issued json scheduled false
  | .deleteCyclicTask =>
    match scheduled, Collector.deletedIDs json m with
    | true, .ok ids => .delete ids
    | _, _ => .nothing
  | _ => .nothing

/-- What the manager can tell of a collector: its secret, and its tasks. -/
@[ext]
structure View where
  secretKey : Str
  tasks : Tasks

/-- Carry out an intent, where `timeoutFor` is what the wheel gives for a job. `none`
when the processor panics. -/
def View.carryOut (aes : BlockCipher) (timeoutFor : Job → Option (Option Job)) (v : View) :
    Intent → Option View
  | .announce secretKey => some { v with secretKey := secretKey }
  | .issue isCyclic job =>
    let job := Collector.prepareJob aes v.secretKey isCyclic job
    (timeoutFor job).map fun timeout => { v with tasks := v.tasks.put job timeout }
  | .delete ids => (ids.foldlM Tasks.remove v.tasks).map fun tasks => { v with tasks := tasks }
  | .nothing => some v

namespace Collector

variable (aes : BlockCipher) (json : Json)

/-- The view of a collector. -/
def view (c : Collector) : View where
  secretKey := c.secretKey
  tasks := (c.scheduler.map Runner.tasks).getD .empty

/-- Whether there is a scheduler. -/
def scheduled (c : Collector) : Bool := c.scheduler.isSome

/-- What the wheel of the scheduler gives for a job. -/
def timeoutFor (c : Collector) (job : Job) : Option (Option Job) :=
  c.scheduler.elim none fun r => r.wheel.timeoutFor job

/-! ### The processors carry out the intents -/

/-- **The collector after a step does what the view does**, or both fail. -/
def Does (c : Collector) (c' : Option Collector) (v' : Option View) : Prop :=
  (c' = none ∧ v' = none) ∨ ∃ d, c' = some d ∧ v' = some d.view ∧
    d.timeoutFor = c.timeoutFor ∧ d.scheduled = c.scheduled

theorem Does.idle (c : Collector) : c.Does (some c) (some c.view) :=
  .inr ⟨c, rfl, rfl, rfl, rfl⟩

/-- A step that replaces the runner by one with a wheel that gives the same. -/
theorem Does.of_runner {c : Collector} {r r' : Runner} (hr : c.scheduler = some r)
    (hw : r.wheel.Still r'.wheel) :
    c.Does (some { c with scheduler := some r' }) (some { c.view with tasks := r'.tasks }) := by
  refine .inr ⟨_, rfl, rfl, ?_, ?_⟩
  · funext job
    simp only [timeoutFor, hr, Option.elim_some, hw.timeoutFor]
  · simp [scheduled, hr]

theorem does_issueTask (type : MessageType) (isCyclic : Bool) (text : Str) (c : Collector)
    (m : Message) (now : ℤ) :
    c.Does (((issueTask aes json type isCyclic text c m now).toOption).map Prod.fst)
      (c.view.carryOut aes c.timeoutFor (m.issued json c.scheduled isCyclic)) := by
  rcases hr : c.scheduler with _ | r
  · have hnone : c.scheduled = false := by simp [scheduled, hr]
    simp only [issueTask, hr, Message.issued, hnone]
    exact .idle c
  · have hsome : c.scheduled = true := by simp [scheduled, hr]
    have htasks : c.view.tasks = r.tasks := by simp [view, hr]
    have hwheel : c.timeoutFor = r.wheel.timeoutFor := by
      funext job
      simp [timeoutFor, hr]
    rcases hj : json.job m.msg with err | job
    · simp only [issueTask, hr, hj, Message.issued, hsome]
      exact .idle c
    · simp only [issueTask, hr, hj, Message.issued, hsome, View.carryOut, hwheel, htasks]
      rcases r.tasks_addAsyncCollectJob (prepareJob aes c.secretKey isCyclic job) now with
        ⟨hto, p, hadd⟩ | ⟨timeout, r', hto, hadd, hput, hstill⟩
      · rw [hadd, show r.wheel.timeoutFor (prepareJob aes c.view.secretKey isCyclic job) = none
          from hto]
        exact .inl ⟨rfl, rfl⟩
      · rw [hadd, show r.wheel.timeoutFor (prepareJob aes c.view.secretKey isCyclic job) =
          some timeout from hto]
        have hdoes := Does.of_runner hr hstill
        rw [hput] at hdoes
        exact hdoes

theorem tasks_removeJobs (r : Runner) (ids : List ℤ) :
    (ids.foldlM Tasks.remove r.tasks = none ∧ ∃ p, removeJobs r ids = .error p) ∨
      ∃ r' errors, removeJobs r ids = .ok (r', errors) ∧
        ids.foldlM Tasks.remove r.tasks = some r'.tasks ∧ r.wheel.Still r'.wheel := by
  induction ids generalizing r with
  | nil => exact .inr ⟨r, [], rfl, rfl, .refl _⟩
  | cons id ids ih =>
    rw [List.foldlM_cons, removeJobs]
    rcases r.tasks_removeAsyncCollectJob id with ⟨hnone, p, hrem⟩ | ⟨r₁, err, hrem, hsome, hstill⟩
    · rw [hnone, hrem]
      exact .inl ⟨rfl, p, rfl⟩
    · rw [hsome, hrem]
      rcases ih r₁ with ⟨hnone, p, hrest⟩ | ⟨r₂, errors, hrest, hsome', hstill'⟩
      · simp only [hrest]
        exact .inl ⟨hnone, p, rfl⟩
      · simp only [hrest]
        exact .inr ⟨r₂, _, rfl, hsome', hstill.trans hstill'⟩

theorem does_deleteCyclicTask (c : Collector) (m : Message)
    (htype : m.type = .deleteCyclicTask) :
    c.Does (((deleteCyclicTask json c m).toOption).map Prod.fst)
      (c.view.carryOut aes c.timeoutFor (m.intent json c.scheduled)) := by
  rcases hr : c.scheduler with _ | r
  · have hnone : c.scheduled = false := by simp [scheduled, hr]
    simp only [deleteCyclicTask, hr, Message.intent, htype, hnone]
    exact .idle c
  · have hsome : c.scheduled = true := by simp [scheduled, hr]
    have htasks : c.view.tasks = r.tasks := by simp [view, hr]
    rcases hids : deletedIDs json m with err | ids
    · simp only [deleteCyclicTask, hr, hids, Message.intent, htype, hsome]
      exact .idle c
    · simp only [deleteCyclicTask, hr, hids, Message.intent, htype, hsome, View.carryOut, htasks]
      rcases tasks_removeJobs r ids with ⟨hfold, p, hrem⟩ | ⟨r', errors, hrem, hfold, hstill⟩
      · rw [hrem, hfold]
        exact .inl ⟨rfl, rfl⟩
      · rw [hrem, hfold]
        exact Does.of_runner hr hstill

/-- The answer of a processor does not matter to the state. -/
theorem map_fst_answered (x : Except Go.Panic (Collector × Message)) :
    ((x.map fun p => (p.1, some p.2)).toOption).map Prod.fst = (x.toOption).map Prod.fst := by
  cases x <;> rfl

/-- **Each processor carries out the intent of its message.** -/
theorem does_handle (c : Collector) (m : Message) (now : ℤ) :
    c.Does (c.handle aes json m now)
      (c.view.carryOut aes c.timeoutFor (m.intent json c.scheduled)) := by
  unfold handle process
  -- the intent of a message goes by its type, as its processor does
  rcases htype : m.type <;> dsimp only <;> try rw [map_fst_answered]
  case goOnline =>
    simp only [Message.intent, htype, goOnline]
    rcases announcedSecret json m with _ | secret
    · exact .idle c
    · exact .inr ⟨_, rfl, rfl, rfl, rfl⟩
  case issueCyclicTask =>
    simp only [Message.intent, htype]
    exact does_issueTask aes json _ true _ c m now
  case issueOneTimeTask =>
    simp only [Message.intent, htype]
    exact does_issueTask aes json _ false _ c m now
  case deleteCyclicTask => exact does_deleteCyclicTask aes json c m htype
  all_goals
    simp only [Message.intent, htype]
    exact .idle c

/-- **The goroutines carry out the intents**, in the order in which they run and
whatever the times. -/
theorem view_runHandlers (c : Collector) (hs : List (Message × ℤ)) :
    (c.runHandlers aes json hs).map view =
      (hs.map fun h => h.1.intent json c.scheduled).foldlM
        (View.carryOut aes c.timeoutFor) c.view := by
  induction hs generalizing c with
  | nil => rfl
  | cons h hs ih =>
    rw [runHandlers, List.foldlM_cons, List.map_cons, List.foldlM_cons]
    rcases does_handle aes json c h.1 h.2 with ⟨hc, hv⟩ | ⟨d, hc, hv, htimeout, hscheduled⟩
    · rw [hc, hv]
      rfl
    · rw [hc, hv]
      have hrest := ih d
      rw [htimeout, hscheduled] at hrest
      exact hrest

end Collector

/-! ### Conflicts -/

namespace Intent

variable (aes : BlockCipher) (secretKey : Str)

/-- **Two intents do not conflict**, for a collector that starts with this secret. -/
def Compatible : Intent → Intent → Prop
  | .announce k, .announce k' => k = k'
  | .announce k, .issue isCyclic job =>
    Collector.prepareJob aes secretKey isCyclic job = Collector.prepareJob aes k isCyclic job
  | .issue isCyclic job, .announce k =>
    Collector.prepareJob aes secretKey isCyclic job = Collector.prepareJob aes k isCyclic job
  | .issue isCyclic job, .issue isCyclic' job' => job.id = job'.id →
    Collector.prepareJob aes secretKey isCyclic job =
      Collector.prepareJob aes secretKey isCyclic' job'
  | .issue _ job, .delete ids => job.id ∉ ids
  | .delete ids, .issue _ job => job.id ∉ ids
  | _, _ => True

variable {aes secretKey}

theorem Compatible.symm {i i' : Intent} (h : Compatible aes secretKey i i') :
    Compatible aes secretKey i' i := by
  cases i <;> cases i' <;> try exact h
  · exact Eq.symm h
  · exact fun hid => Eq.symm (h hid.symm)

instance : Std.Symm (Compatible aes secretKey) := ⟨fun _ _ => Compatible.symm⟩

end Intent

/-! ### Without a conflict -/

/-- The operations that intents are made of, once the passwords are decrypted. -/
inductive Op where
  | set (secretKey : Str)
  | put (job : Job)
  | remove (id : ℤ)

/-- The operations of an intent, with the passwords decrypted under a secret. -/
def Intent.ops (aes : BlockCipher) (secretKey : Str) : Intent → List Op
  | .announce k => [.set k]
  | .issue isCyclic job => [.put (Collector.prepareJob aes secretKey isCyclic job)]
  | .delete ids => ids.map .remove
  | .nothing => []

namespace View

/-- One operation. -/
def apply (timeoutFor : Job → Option (Option Job)) (v : View) : Op → Option View
  | .set secretKey => some { v with secretKey := secretKey }
  | .put job => (timeoutFor job).map fun timeout => { v with tasks := v.tasks.put job timeout }
  | .remove id => (v.tasks.remove id).map fun tasks => { v with tasks := tasks }

variable {aes : BlockCipher} {timeoutFor : Job → Option (Option Job)} {secretKey : Str}

theorem foldlM_apply_remove (v : View) (ids : List ℤ) :
    (ids.map Op.remove).foldlM (apply timeoutFor) v =
      (ids.foldlM Tasks.remove v.tasks).map fun tasks => { v with tasks := tasks } := by
  induction ids generalizing v with
  | nil => rfl
  | cons id ids ih =>
    rw [List.map_cons, List.foldlM_cons, List.foldlM_cons, apply]
    rcases v.tasks.remove id with _ | t
    · rfl
    · exact ih { v with tasks := t }

/-- An intent is carried out by its operations, if the passwords of the job it issues
decrypt alike under the two secrets. -/
theorem carryOut_eq_ops {v : View} {i : Intent}
    (h : ∀ isCyclic job, i = .issue isCyclic job →
      Collector.prepareJob aes v.secretKey isCyclic job =
        Collector.prepareJob aes secretKey isCyclic job) :
    v.carryOut aes timeoutFor i = (i.ops aes secretKey).foldlM (apply timeoutFor) v := by
  cases i with
  | announce k => rfl
  | issue isCyclic job =>
    simp only [carryOut, h isCyclic job rfl, Intent.ops, List.foldlM_cons, List.foldlM_nil, apply]
    exact (bind_pure _).symm
  | delete ids => exact (foldlM_apply_remove v ids).symm
  | nothing => rfl

/-- The secret after an intent is the one before or the one it announces. -/
theorem secretKey_carryOut {v v' : View} {i : Intent} (h : v.carryOut aes timeoutFor i = some v') :
    v'.secretKey = v.secretKey ∨ i = .announce v'.secretKey := by
  cases i with
  | announce k =>
    cases h
    exact .inr rfl
  | issue isCyclic job =>
    obtain ⟨timeout, -, rfl⟩ := Option.map_eq_some_iff.mp h
    exact .inl rfl
  | delete ids =>
    obtain ⟨tasks, -, rfl⟩ := Option.map_eq_some_iff.mp h
    exact .inl rfl
  | nothing =>
    cases h
    exact .inl rfl

/-- **All secrets there are decrypt alike**: the one at the beginning and those announced
decrypt the passwords of the jobs issued as the given one does. -/
def DecryptAlike (aes : BlockCipher) (secretKey first : Str) (is : List Intent) : Prop :=
  ∀ isCyclic job, .issue isCyclic job ∈ is → ∀ k, k = first ∨ .announce k ∈ is →
    Collector.prepareJob aes k isCyclic job = Collector.prepareJob aes secretKey isCyclic job

theorem DecryptAlike.perm {first : Str} {is is' : List Intent}
    (h : DecryptAlike aes secretKey first is) (hperm : is.Perm is') :
    DecryptAlike aes secretKey first is' := by
  intro isCyclic job hjob k hk
  exact h isCyclic job (hperm.mem_iff.mpr hjob) k (hk.imp_right hperm.mem_iff.mpr)

/-- **Whole runs**: the intents are carried out by their operations, if all secrets there
are decrypt the passwords alike. -/
theorem foldlM_carryOut_eq_ops {v : View} {is : List Intent}
    (h : DecryptAlike aes secretKey v.secretKey is) :
    is.foldlM (carryOut aes timeoutFor) v =
      (is.flatMap (Intent.ops aes secretKey)).foldlM (apply timeoutFor) v := by
  induction is generalizing v with
  | nil => rfl
  | cons i is ih =>
    have hfirst : v.carryOut aes timeoutFor i =
        (i.ops aes secretKey).foldlM (apply timeoutFor) v := by
      refine carryOut_eq_ops fun isCyclic job hi => ?_
      exact h isCyclic job (hi ▸ List.mem_cons_self) v.secretKey (.inl rfl)
    rw [List.foldlM_cons, List.flatMap_cons, List.foldlM_append, ← hfirst]
    rcases hv : v.carryOut aes timeoutFor i with _ | v'
    · rfl
    · refine ih fun isCyclic job hmem k hk => ?_
      refine h isCyclic job (List.mem_cons_of_mem i hmem) k ?_
      -- the secret the rest starts with is the first one, or was announced just now
      rcases hk with rfl | hk
      · rcases secretKey_carryOut hv with hsame | rfl
        · exact .inl hsame
        · exact .inr List.mem_cons_self
      · exact .inr (List.mem_cons_of_mem i hk)

/-! Which operations commute: those that do not concern the same thing, and any two
removals. -/

theorem commute_set_put (k : Str) (job : Job) :
    Commute (apply timeoutFor) (.set k) (.put job) := by
  intro v
  simp only [apply]
  rcases timeoutFor job with _ | timeout <;> rfl

theorem commute_set_remove (k : Str) (id : ℤ) :
    Commute (apply timeoutFor) (.set k) (.remove id) := by
  intro v
  simp only [apply, Option.bind_some]
  rcases v.tasks.remove id with _ | tasks <;> rfl

theorem commute_put_put {job job' : Job} (hne : job.id ≠ job'.id) :
    Commute (apply timeoutFor) (.put job) (.put job') := by
  intro v
  simp only [apply]
  rcases timeoutFor job with _ | a <;> rcases timeoutFor job' with _ | b <;> try rfl
  simp [v.tasks.put_comm hne a b]

theorem commute_put_remove {job : Job} {id : ℤ} (hne : job.id ≠ id) :
    Commute (apply timeoutFor) (.put job) (.remove id) := by
  intro v
  simp only [apply]
  rcases timeoutFor job with _ | a
  · rcases v.tasks.remove id with _ | tasks <;> rfl
  · simp only [Option.map_some, Option.bind_some, v.tasks.put_remove_comm hne a]
    rcases v.tasks.remove id with _ | tasks <;> rfl

theorem commute_remove_remove (id id' : ℤ) :
    Commute (apply timeoutFor) (.remove id) (.remove id') := by
  intro v
  have hcomm := congrArg (Option.map fun tasks => { v with tasks := tasks })
    (v.tasks.remove_comm id id')
  simp only [apply, Option.map_bind] at hcomm ⊢
  rcases h : v.tasks.remove id with _ | t <;> rcases h' : v.tasks.remove id' with _ | t' <;>
    simp_all

/-- **The operations of intents that do not conflict commute.** -/
theorem commute_ops {i i' : Intent} (h : i = i' ∨ Intent.Compatible aes secretKey i i') {x y : Op}
    (hx : x ∈ i.ops aes secretKey) (hy : y ∈ i'.ops aes secretKey) :
    Commute (apply timeoutFor) x y := by
  cases i with
  | announce k =>
    obtain rfl := List.mem_singleton.mp hx
    cases i' with
    | announce k' =>
      obtain rfl := List.mem_singleton.mp hy
      obtain rfl : k = k' := by
        rcases h with h | h
        · exact Intent.announce.inj h
        · exact h
      exact .refl _ _
    | issue isCyclic job =>
      obtain rfl := List.mem_singleton.mp hy
      exact commute_set_put k _
    | delete ids =>
      obtain ⟨id, -, rfl⟩ := List.mem_map.mp hy
      exact commute_set_remove k id
    | nothing => exact absurd hy (by simp [Intent.ops])
  | issue isCyclic job =>
    obtain rfl := List.mem_singleton.mp hx
    cases i' with
    | announce k' =>
      obtain rfl := List.mem_singleton.mp hy
      exact (commute_set_put k' _).symm
    | issue isCyclic' job' =>
      obtain rfl := List.mem_singleton.mp hy
      rcases h with h | h
      · obtain ⟨rfl, rfl⟩ := Intent.issue.inj h
        exact .refl _ _
      · -- under one id the operations are the same, under two they commute
        by_cases hid : job.id = job'.id
        · rw [show Collector.prepareJob aes secretKey isCyclic job = _ from h hid]
          exact .refl _ _
        · exact commute_put_put hid
    | delete ids =>
      obtain ⟨id, hid, rfl⟩ := List.mem_map.mp hy
      have hnot : job.id ∉ ids := h.resolve_left (by simp)
      refine commute_put_remove fun he => hnot ?_
      exact (show job.id = id from he) ▸ hid
    | nothing => exact absurd hy (by simp [Intent.ops])
  | delete ids =>
    obtain ⟨id, hid, rfl⟩ := List.mem_map.mp hx
    cases i' with
    | announce k' =>
      obtain rfl := List.mem_singleton.mp hy
      exact (commute_set_remove k' id).symm
    | issue isCyclic job =>
      obtain rfl := List.mem_singleton.mp hy
      have hnot : job.id ∉ ids := h.resolve_left (by simp)
      refine (commute_put_remove fun he => hnot ?_).symm
      exact (show job.id = id from he) ▸ hid
    | delete ids' =>
      obtain ⟨id', -, rfl⟩ := List.mem_map.mp hy
      exact commute_remove_remove id id'
    | nothing => exact absurd hy (by simp [Intent.ops])
  | nothing => exact absurd hx (by simp [Intent.ops])

/-- **Without a conflict the order does not matter.** -/
theorem foldlM_carryOut_perm {v : View} {is is' : List Intent}
    (h : is.Pairwise (Intent.Compatible aes v.secretKey)) (hperm : is.Perm is') :
    is.foldlM (carryOut aes timeoutFor) v = is'.foldlM (carryOut aes timeoutFor) v := by
  have hall : ∀ i ∈ is, ∀ i' ∈ is, i = i' ∨ Intent.Compatible aes v.secretKey i i' :=
    fun i hi i' hi' => or_iff_not_imp_left.mpr (h.forall hi hi')
  have hsecrets : DecryptAlike aes v.secretKey v.secretKey is := by
    rintro isCyclic job hjob k (rfl | hk)
    · rfl
    · exact Eq.symm ((hall _ hk _ hjob).resolve_left (by simp))
  rw [foldlM_carryOut_eq_ops hsecrets, foldlM_carryOut_eq_ops (hsecrets.perm hperm)]
  refine foldlM_perm (hperm.flatMap_right _) (fun x hx y hy => ?_) v
  obtain ⟨i, hi, hx⟩ := List.mem_flatMap.mp hx
  obtain ⟨i', hi', hy⟩ := List.mem_flatMap.mp hy
  exact commute_ops (hall i hi i' hi') hx hy

/-! ### With a conflict -/

theorem tasks_of_announces {v v' : View} {is : List Intent} (his : ∀ i ∈ is, ∃ k, i = .announce k)
    (h : is.foldlM (carryOut aes timeoutFor) v = some v') : v'.tasks = v.tasks := by
  induction is generalizing v with
  | nil =>
    cases h
    rfl
  | cons i is ih =>
    obtain ⟨k, rfl⟩ := his i List.mem_cons_self
    have hrest : is.foldlM (carryOut aes timeoutFor) { v with secretKey := k } = some v' := h
    have htasks := ih (fun i' hi' => his i' (List.mem_cons_of_mem _ hi')) hrest
    exact htasks

theorem secretKey_of_others {v v' : View} {is : List Intent} (his : ∀ i ∈ is, ∀ k, i ≠ .announce k)
    (h : is.foldlM (carryOut aes timeoutFor) v = some v') : v'.secretKey = v.secretKey := by
  induction is generalizing v with
  | nil =>
    cases h
    rfl
  | cons i is ih =>
    obtain ⟨u, hu, hrest⟩ := Option.bind_eq_some_iff.mp h
    rw [ih (fun i' hi' => his i' (List.mem_cons_of_mem _ hi')) hrest]
    exact (secretKey_carryOut hu).resolve_right (his i List.mem_cons_self _)

theorem running_of_issue {v v' : View} {isCyclic : Bool} {job : Job}
    (h : v.carryOut aes timeoutFor (.issue isCyclic job) = some v') :
    v'.tasks.running job.id = some (Collector.prepareJob aes v.secretKey isCyclic job) := by
  obtain ⟨timeout, -, rfl⟩ := Option.map_eq_some_iff.mp h
  exact Function.update_self _ _ _

/-- The job that is running when a job is issued last, before all secrets. -/
theorem running_of_last_issue {v w : View} {isCyclic : Bool} {job : Job} {is as : List Intent}
    (his : ∀ i ∈ is, ∀ k, i ≠ .announce k) (has : ∀ i ∈ as, ∃ k, i = .announce k)
    (h : (is ++ .issue isCyclic job :: as).foldlM (carryOut aes timeoutFor) v = some w) :
    w.tasks.running job.id = some (Collector.prepareJob aes v.secretKey isCyclic job) := by
  rw [List.foldlM_append] at h
  obtain ⟨u, hu, hrest⟩ := Option.bind_eq_some_iff.mp h
  obtain ⟨u', hu', hlast⟩ := Option.bind_eq_some_iff.mp hrest
  rw [tasks_of_announces has hlast, running_of_issue hu', secretKey_of_others his hu]

theorem perm_append_pair (is : List Intent) (i i' : Intent) :
    (is ++ [i', i]).Perm (i :: i' :: is) := by
  have hback : (is ++ [i', i]).Perm ([i', i] ++ is) := List.perm_append_comm
  exact hback.trans (List.Perm.swap i i' is)

/-- What two intents have done when they come last. -/
theorem exists_of_last_two {v w : View} {i i' : Intent} {is : List Intent}
    (h : (is ++ [i, i']).foldlM (carryOut aes timeoutFor) v = some w) :
    ∃ u u' : View, u.carryOut aes timeoutFor i = some u' ∧
      u'.carryOut aes timeoutFor i' = some w := by
  rw [List.foldlM_append] at h
  obtain ⟨u, -, hrest⟩ := Option.bind_eq_some_iff.mp h
  obtain ⟨u', hu', hlast⟩ := Option.bind_eq_some_iff.mp hrest
  obtain ⟨u'', hu'', hend⟩ := Option.bind_eq_some_iff.mp hlast
  cases hend
  exact ⟨u, u', hu', hu''⟩

/-- The intents that announce a secret. -/
def isAnnounce : Intent → Bool
  | .announce _ => true
  | _ => false

theorem exists_split (is : List Intent) : ∃ xs as, is.Perm (xs ++ as) ∧
    (∀ i ∈ xs, ∀ k, i ≠ .announce k) ∧ ∀ i ∈ as, ∃ k, i = .announce k := by
  refine ⟨is.filter (!isAnnounce ·), is.filter isAnnounce, ?_, ?_, ?_⟩
  · exact ((List.filter_append_perm isAnnounce is).symm.trans List.perm_append_comm)
  · rintro i hi k rfl
    exact absurd (List.mem_filter.mp hi).2 (by simp [isAnnounce])
  · intro i hi
    have hann := (List.mem_filter.mp hi).2
    cases i with
    | announce k => exact ⟨k, rfl⟩
    | _ => exact absurd hann (by simp [isAnnounce])

/-- A secret and a job that come out alike in all orders do not conflict: issue the job
before all secrets, or after all of them with this one last. -/
theorem compatible_announce_issue {v w : View} {k : Str} {isCyclic : Bool} {job : Job}
    {is : List Intent}
    (h : ∀ l : List Intent, l.Perm (.announce k :: .issue isCyclic job :: is) →
      l.foldlM (carryOut aes timeoutFor) v = some w) :
    Intent.Compatible aes v.secretKey (.announce k) (.issue isCyclic job) := by
  obtain ⟨xs, as, hsplit, hxs, has⟩ := exists_split is
  -- the first order decrypts under the old secret, the second under `k`
  have hfirst := h (xs ++ .issue isCyclic job :: (as ++ [.announce k])) ?_
  have hlast := h ((xs ++ as) ++ [.announce k, .issue isCyclic job]) ?_
  · have hrun := running_of_last_issue hxs (fun i hi => ?_) hfirst
    · obtain ⟨u, u', hu, hu'⟩ := exists_of_last_two hlast
      cases hu
      exact Option.some.inj (hrun.symm.trans (running_of_issue hu'))
    · rcases List.mem_append.mp hi with hi | hi
      · exact has i hi
      · exact ⟨k, List.mem_singleton.mp hi⟩
  · refine List.perm_append_comm.trans ?_
    exact ((hsplit.symm.cons _).cons _)
  · refine List.perm_middle.trans ?_
    refine (List.Perm.cons _ ?_).trans (List.Perm.swap _ _ _)
    rw [← List.append_assoc]
    exact List.perm_append_comm.trans (hsplit.symm.cons _)

/-- Two jobs of one id that come out alike in all orders are the same: issue the one or
the other last, before all secrets. -/
theorem compatible_issue_issue {v w : View} {isCyclic isCyclic' : Bool} {job job' : Job}
    {is : List Intent}
    (h : ∀ l : List Intent, l.Perm (.issue isCyclic job :: .issue isCyclic' job' :: is) →
      l.foldlM (carryOut aes timeoutFor) v = some w) :
    Intent.Compatible aes v.secretKey (.issue isCyclic job) (.issue isCyclic' job') := by
  intro hid
  obtain ⟨xs, as, hsplit, hxs, has⟩ := exists_split is
  have hothers : ∀ (c : Bool) (j : Job), ∀ i ∈ xs ++ [.issue c j], ∀ k, i ≠ .announce k := by
    intro c j i hi k
    rcases List.mem_append.mp hi with hi | hi
    · exact hxs i hi k
    · rw [List.mem_singleton.mp hi]
      simp
  have hend : ∀ a b : Intent, ((xs ++ [a]) ++ b :: as).Perm (b :: a :: is) := by
    intro a b
    refine List.perm_middle.trans (List.Perm.cons b ?_)
    rw [List.append_assoc]
    exact List.perm_middle.trans (hsplit.symm.cons a)
  have hlast := running_of_last_issue (hothers isCyclic' job') has (h _ (hend _ _))
  have hlast' := running_of_last_issue (hothers isCyclic job) has
    (h _ ((hend _ _).trans (List.Perm.swap _ _ _)))
  rw [hid] at hlast
  exact Option.some.inj (hlast.symm.trans hlast')

/-- A job and a removal that come out alike in all orders do not concern one id. -/
theorem compatible_issue_delete {v w : View} {isCyclic : Bool} {job : Job} {ids : List ℤ}
    {is : List Intent}
    (h : ∀ l : List Intent, l.Perm (.issue isCyclic job :: .delete ids :: is) →
      l.foldlM (carryOut aes timeoutFor) v = some w) :
    Intent.Compatible aes v.secretKey (.issue isCyclic job) (.delete ids) := by
  intro hmem
  obtain ⟨u, u', -, hdelete⟩ := exists_of_last_two
    (h (is ++ [.issue isCyclic job, .delete ids]) List.perm_append_comm)
  obtain ⟨t, t', -, hissue⟩ := exists_of_last_two
    (h (is ++ [.delete ids, .issue isCyclic job]) (perm_append_pair is _ _))
  obtain ⟨tasks, hfold, rfl⟩ := Option.map_eq_some_iff.mp hdelete
  -- the job is gone when the removal comes last, and there when the job does
  have hnone := Tasks.running_foldlM_remove hfold (.inl hmem)
  have hsome := running_of_issue hissue
  exact absurd (hnone.symm.trans hsome) (by simp)

theorem compatible_announce_announce {v w : View} {k k' : Str} {is : List Intent}
    (h : ∀ l : List Intent, l.Perm (.announce k :: .announce k' :: is) →
      l.foldlM (carryOut aes timeoutFor) v = some w) :
    Intent.Compatible aes v.secretKey (.announce k) (.announce k') := by
  obtain ⟨u, u', -, hlast⟩ := exists_of_last_two
    (h (is ++ [.announce k, .announce k']) List.perm_append_comm)
  obtain ⟨t, t', -, hlast'⟩ := exists_of_last_two
    (h (is ++ [.announce k', .announce k]) (perm_append_pair is _ _))
  cases hlast
  exact congrArg View.secretKey (Option.some.inj hlast')

/-- **Where all orders come out alike, and none fails, there is no conflict.** -/
theorem pairwise_compatible_of_orders {v w : View} {is : List Intent}
    (h : ∀ l : List Intent, l.Perm is → l.foldlM (carryOut aes timeoutFor) v = some w) :
    is.Pairwise (Intent.Compatible aes v.secretKey) := by
  refine List.pairwise_iff_forall_sublist.mpr fun {i i'} hsub => ?_
  obtain ⟨rest, hrest⟩ := hsub.exists_perm_append
  have hpair : ∀ l : List Intent, l.Perm (i :: i' :: rest) →
      l.foldlM (carryOut aes timeoutFor) v = some w := fun l hl => h l (hl.trans hrest.symm)
  have hpair' : ∀ l : List Intent, l.Perm (i' :: i :: rest) →
      l.foldlM (carryOut aes timeoutFor) v = some w :=
    fun l hl => hpair l (hl.trans (List.Perm.swap _ _ _))
  cases i with
  | announce k =>
    cases i' with
    | announce k' => exact compatible_announce_announce hpair
    | issue isCyclic job => exact compatible_announce_issue hpair
    | delete ids => trivial
    | nothing => trivial
  | issue isCyclic job =>
    cases i' with
    | announce k' => exact (compatible_announce_issue hpair').symm
    | issue isCyclic' job' => exact compatible_issue_issue hpair
    | delete ids => exact compatible_issue_delete hpair
    | nothing => trivial
  | delete ids =>
    cases i' with
    | issue isCyclic job => exact (compatible_issue_delete hpair').symm
    | _ => trivial
  | nothing => trivial

end View

namespace Collector

variable (aes : BlockCipher) (json : Json)

/-! ### The messages of a connection -/

/-- **The messages take effect in arrival order**: in whatever order their goroutines
run, the collector ends up with the view it has when they run in the order in which
the messages came. -/
def InArrivalOrder (c : Collector) (arrivals : List Arrival) : Prop :=
  ∀ hs hs' : List (Message × ℤ), hs.map Prod.fst = handled arrivals →
    (hs'.map Prod.fst).Perm (handled arrivals) →
    (c.runHandlers aes json hs').map view = (c.runHandlers aes json hs).map view

/-- **No two of the messages conflict.** -/
def ConflictFree (c : Collector) (arrivals : List Arrival) : Prop :=
  (handled arrivals).Pairwise fun m m' =>
    Intent.Compatible aes c.secretKey (m.intent json c.scheduled) (m'.intent json c.scheduled)

/-- In arrival order, no processor panics. -/
def Completes (c : Collector) (arrivals : List Arrival) : Prop :=
  ∃ hs, hs.map Prod.fst = handled arrivals ∧ c.runHandlers aes json hs ≠ none

/-- The intents of messages, run in an order, depend on the messages only. -/
theorem view_runHandlers_of_map {c : Collector} {hs : List (Message × ℤ)} {ms : List Message}
    (h : hs.map Prod.fst = ms) :
    (c.runHandlers aes json hs).map view =
      (ms.map fun m => m.intent json c.scheduled).foldlM
        (View.carryOut aes c.timeoutFor) c.view := by
  subst h
  rw [view_runHandlers, List.map_map]
  rfl

/-- **When messages take effect in arrival order**: if no two of them conflict; and, as
long as processing them in arrival order does not panic, only then. -/
theorem inArrivalOrder_conflictFree (c : Collector) (arrivals : List Arrival) :
    (ConflictFree aes json c arrivals → InArrivalOrder aes json c arrivals) ∧
      (Completes aes json c arrivals → InArrivalOrder aes json c arrivals →
        ConflictFree aes json c arrivals) := by
  constructor
  · intro hfree hs hs' hhs hperm
    rw [view_runHandlers_of_map aes json rfl, view_runHandlers_of_map aes json hhs]
    have hpairs : ((handled arrivals).map fun m => m.intent json c.scheduled).Pairwise
        (Intent.Compatible aes c.view.secretKey) := List.pairwise_map.mpr hfree
    exact (View.foldlM_carryOut_perm hpairs (hperm.symm.map _)).symm
  · rintro ⟨hs, hhs, hok⟩ horder
    obtain ⟨d, hd⟩ := Option.ne_none_iff_exists'.mp hok
    have horders : ∀ l : List Intent,
        l.Perm ((handled arrivals).map fun m => m.intent json c.scheduled) →
        l.foldlM (View.carryOut aes c.timeoutFor) c.view = some d.view := by
      intro l hl
      -- an order of the intents is one of the messages, which may run at any times
      obtain ⟨ms, hms, rfl⟩ := exists_perm_map_eq _ hl
      have hmap : (ms.map fun m => (m, (0 : ℤ))).map Prod.fst = ms := by
        rw [List.map_map]
        exact List.map_id ms
      have hview := horder hs (ms.map fun m => (m, 0)) hhs (by rw [hmap]; exact hms)
      rw [view_runHandlers_of_map aes json hmap, hd] at hview
      exact hview
    exact List.pairwise_map.mp (View.pairwise_compatible_of_orders horders)

/-! Two short sequences of messages. -/

/-- A collector that nothing was sent to yet. -/
def fresh : Collector where
  secretKey := []
  scheduler := some
    ⟨∅, TimeDispatch.newTimeDispatch 0, TimeDispatch.allocated_newTimeDispatch 0⟩

/-- The payload of a message that announces a secret. -/
def secretPayload : Str := Go.str "\x7b\"aesSecret\":\"0123456789abcdef\"\x7d"

/-- The payload of a message that issues the job with id 1. -/
def jobPayload : Str := Go.str "\x7b\"id\":1\x7d"

/-- The decoder, as far as it decodes the payloads used here. -/
def payloads : Json where
  aesSecret := fun s => if s = secretPayload then .ok (Go.str "0123456789abcdef")
    else .error (Go.str "invalid character")
  job := fun s => if s = jobPayload then .ok (Job.bare 1 false 0)
    else .error (Go.str "invalid character")
  jobIDs := fun s => if s = Go.str "[1]" then .ok [1] else if s = Go.str "[2]" then .ok [2]
    else .error (Go.str "invalid character")
  jobID := fun _ => .error (Go.str "invalid character")

/-- A request of the manager. -/
def request (type : MessageType) (msg : Str) : Arrival where
  message := { type := type, direction := .request, identity := Go.str "collector", msg := msg }
  responseTable := []

/-- A cipher; the job of these messages has no passwords. -/
def cipher : BlockCipher := ⟨fun _ block => block⟩

/-- A secret, a job, and the deletion of another job. -/
def secretJobDeletion : List Arrival :=
  [request .goOnline secretPayload, request .issueCyclicTask jobPayload,
    request .deleteCyclicTask (Go.str "[2]")]

/-- A secret, a job without passwords, and the deletion of another job do not
conflict. -/
theorem inArrivalOrder_secretJobDeletion :
    InArrivalOrder cipher payloads fresh secretJobDeletion ∧
      ConflictFree cipher payloads fresh secretJobDeletion := by
  have hintents : (handled secretJobDeletion).map (fun m => m.intent payloads fresh.scheduled) =
      [.announce (Go.str "0123456789abcdef"), .issue true (Job.bare 1 false 0), .delete [2]] := rfl
  have hpairs : ((handled secretJobDeletion).map fun m =>
      m.intent payloads fresh.scheduled).Pairwise (Intent.Compatible cipher fresh.secretKey) := by
    rw [hintents]
    simp only [List.pairwise_cons, List.forall_mem_cons, Intent.Compatible]
    exact ⟨⟨rfl, trivial, by simp⟩, ⟨show (1 : ℤ) ∉ [2] by decide, by simp⟩, by simp, .nil⟩
  have hcompletes : Completes cipher payloads fresh secretJobDeletion :=
    ⟨(handled secretJobDeletion).map fun m => (m, 0), rfl,
      Option.isSome_iff_ne_none.mp rfl⟩
  have horder :=
    (inArrivalOrder_conflictFree cipher payloads fresh secretJobDeletion).1
      (List.pairwise_map.mp hpairs)
  exact ⟨horder, (inArrivalOrder_conflictFree _ _ _ _).2 hcompletes horder⟩

/-- **A job that is deleted after it was issued may stay scheduled**: the goroutine of the
deletion may run first. -/
theorem not_inArrivalOrder_issue_delete :
    ¬InArrivalOrder cipher payloads fresh
      [request .issueCyclicTask jobPayload, request .deleteCyclicTask (Go.str "[1]")] := by
  intro h
  have horder := h [((request .issueCyclicTask jobPayload).message, 0),
      ((request .deleteCyclicTask (Go.str "[1]")).message, 0)]
    [((request .deleteCyclicTask (Go.str "[1]")).message, 0),
      ((request .issueCyclicTask jobPayload).message, 0)] rfl (by decide)
  have hrunning := congrArg (Option.map fun v => (v.tasks.running 1).isSome) horder
  exact absurd hrunning (by decide)

end Collector

end HertzBeat
