import HertzBeat.Dispatcher.Removal
import HertzBeat.Service.Progress

/-!
# Jobs that are issued once

What a job does may be told apart from what other jobs do by its id, as long as no other job comes
under the same one. So it is for a manager that issues every id once. Then at most one timeout of a
job is live at any time, and what follows from that for the reports is the subject here.

* `HertzBeat.Service.reports_in_order` – the rounds of a job do not overlap, and its reports come in
  the order of its rounds and, in a round, of its metrics.
* `HertzBeat.Service.deleted_goes_quiet` – a job that is deleted while no `Run` of it is in flight
  is not reported again.
-/

namespace HertzBeat

open Go (Str BlockCipher)
open Runs

namespace DispatchState

variable {s s' : DispatchState} {ev : List DispatchEvent}

/-! ### What a step adds -/

/-- The ids that a step adds are those of the job that it is to add. -/
theorem addedIDs_of_step (hwf : s.WellFormed) {a : DispatchAct} (hs : s.step a = some (s', ev))
    (ha : ∀ j now, a ≠ .addJob (some j) now) : addedIDs ev = [] := by
  refine List.filterMap_eq_nil_iff.mpr fun e he => ?_
  cases emits_of_mem hwf hs he with
  | added _ => exact absurd rfl (ha _ _)
  | _ => rfl

/-- A timeout that there is not yet comes after all that there are. -/
theorem lt_of_task {r r' : ℕ} {t : WheelTimerTask} (ht : s.td.wheelTimer.task r = some t)
    (hnone : s.td.wheelTimer.task r' = none) : r < r' := by
  refine lt_of_lt_of_le (HashedWheelTimer.task_lt ht) (not_lt.mp fun hlt => ?_)
  obtain ⟨t', ht'⟩ := HashedWheelTimer.task_eq_some_of_lt hlt
  exact absurd (hnone.symm.trans ht') (by simp)

end DispatchState

/-- The id of the job that the scheduler is asked to add. -/
def ServiceAct.addedID : ServiceAct → Option ℤ
  | .addAsyncCollectJob (some job) _ => some job.id
  | _ => none

namespace JobService

variable {s s' : JobService} {ev : List DispatchEvent} {a : ServiceAct}

/-- The scheduler knows what it knew, and what it was asked to add. -/
theorem known_of_step {dtr : List DispatchEvent}
    (h : s.dispatch.Known (DispatchState.addedIDs dtr)) (hwf : s.dispatch.WellFormed)
    (hs : s.step a = some (s', ev)) :
    ∃ dtr', s'.dispatch.Known (DispatchState.addedIDs dtr') ∧
      DispatchState.addedIDs dtr' = DispatchState.addedIDs dtr ++ a.addedID.toList := by
  by_cases ha : ∃ job now, a = .addAsyncCollectJob (some job) now
  · obtain ⟨job, now, rfl⟩ := ha
    obtain ⟨p, hp, hpair⟩ := Option.map_eq_some_iff.mp hs
    obtain ⟨rfl, -⟩ := Prod.mk.inj hpair
    obtain ⟨o, hadds⟩ := DispatchState.step_addJob hwf hp
    refine ⟨dtr ++ p.2, h.step hwf hp, ?_⟩
    rw [DispatchState.addedIDs_append, hadds.ev_eq]
    rfl
  · have hnone : a.addedID = none := by
      rcases a with ⟨_ | job, now⟩ | _ | _ | _
      case addAsyncCollectJob.some => exact absurd ⟨job, now, rfl⟩ ha
      all_goals rfl
    rw [hnone, Option.toList_none, List.append_nil]
    rcases dispatch_of_step hs with hsame | ⟨b, hb, hadd⟩
    · exact ⟨dtr, hsame ▸ h, rfl⟩
    · refine ⟨dtr ++ ev, h.step hwf hb, ?_⟩
      rw [DispatchState.addedIDs_append, DispatchState.addedIDs_of_step hwf hb
        (fun job now hjob => ha ⟨job, now, hadd job now hjob⟩), List.append_nil]

/-- A job whose id is not known yet does no harm. -/
theorem registered_of_step {ids : List ℤ} (h : s.dispatch.Registered)
    (hknown : s.dispatch.Known ids) (hnew : ∀ id ∈ a.addedID, id ∉ ids)
    (hs : s.step a = some (s', ev)) : s'.dispatch.Registered := by
  rcases dispatch_of_step hs with hsame | ⟨b, hb, hadd⟩
  · rwa [hsame]
  · refine h.step ?_ hb
    cases b with
    | addJob job now =>
      rcases job with _ | job
      · trivial
      · obtain rfl := hadd job now rfl
        exact hknown.addsAnew h.wellFormed (hnew job.id rfl) now
    | _ => trivial

/-- A timeout that comes to life is a new one, of a job that is added or has been. -/
theorem live_of_step (hwf : s.dispatch.WellFormed) (hs : s.step a = some (s', ev)) {j : Job} {r : ℕ}
    (hlive : s'.dispatch.Live j r) :
    s.dispatch.Live j r ∨ s.dispatch.td.wheelTimer.task r = none ∧
      (a.addedID = some j.id ∨ ∃ r', s.dispatch.Live j r') := by
  rcases dispatch_of_step hs with hsame | ⟨b, hb, hadd⟩
  · exact .inl (hsame ▸ hlive)
  · rcases DispatchState.live_of_step hwf hb hlive with hold | ⟨hnone, ⟨now, rfl⟩ | ⟨x, hx, rfl⟩⟩
    · exact .inl hold
    · obtain rfl := hadd j now rfl
      exact .inr ⟨hnone, .inl rfl⟩
    · exact .inr ⟨hnone, .inr ⟨x.timeout, .inr ⟨x, hx, rfl, rfl⟩⟩⟩

end JobService

/-! ### What is issued -/

/-- The id of the job that a message issues. -/
def ServiceEvent.issuedID (json : Json) : ServiceEvent → Option ℤ
  | .received m =>
    match m.type.issues, json.job m.msg with
    | some _, .ok job => some job.id
    | _, _ => none
  | .reported _ _ _ => none

/-- The ids of the jobs that were issued, in order. -/
def issuedIDs (json : Json) (tr : List ServiceEvent) : List ℤ :=
  tr.filterMap (ServiceEvent.issuedID json)

/-- The id of the job that a processor is to add. -/
def Handler.addedID : Handler → Option ℤ
  | .adding _ job _ _ => some job.id
  | .removing _ => none

namespace Service

variable {URL F Program : Type} [NatCast F] [Mul F] [Div F]
variable {aes : BlockCipher} {json : Json} {identity : Str} {ipc : IPC}
variable {s s' : Service} {tr ev : List ServiceEvent}

/-- The ids of the jobs that are to be added. -/
def addingIDs (s : Service) : List ℤ := s.handlers.filterMap Handler.addedID

theorem addingIDs_issue (s : Service) (isCyclic : Bool) {m : Message}
    (hm : m.type.issues = some isCyclic) :
    (s.issue json isCyclic m).addingIDs =
      s.addingIDs ++ ((ServiceEvent.received m).issuedID json).toList := by
  cases hjob : json.job m.msg with
  | error err => simp only [issue, hjob, ServiceEvent.issuedID, hm, Option.toList_none,
      List.append_nil]
  | ok job =>
    simp only [issue, hjob, ServiceEvent.issuedID, hm, addingIDs, List.filterMap_append]
    rfl

/-- A processor that has read a message is to add the job that it issues. -/
theorem addingIDs_receive (s : Service) (m : Message) :
    (s.receive json m).addingIDs =
      s.addingIDs ++ ((ServiceEvent.received m).issuedID json).toList := by
  cases hm : m.type with
  | issueCyclicTask =>
    rw [receive, hm]
    exact addingIDs_issue s true (by rw [hm]; rfl)
  | issueOneTimeTask =>
    rw [receive, hm]
    exact addingIDs_issue s false (by rw [hm]; rfl)
  | deleteCyclicTask =>
    have hnone : (ServiceEvent.received m).issuedID json = none := by
      simp only [ServiceEvent.issuedID, hm, MessageType.issues]
    rw [receive, hm, hnone, Option.toList_none, List.append_nil]
    simp only
    split
    · rfl
    · simp only [addingIDs, List.filterMap_append]
      exact List.append_nil _
  | _ =>
    simp only [receive, hm, ServiceEvent.issuedID, MessageType.issues, Option.toList_none,
      List.append_nil, addingIDs]

theorem addingIDs_eraseIdx {i : ℕ} {handler : Handler} (hi : s.handlers[i]? = some handler)
    (jobs : JobService) :
    (handler.addedID.toList ++
      addingIDs { s with handlers := s.handlers.eraseIdx i, jobs := jobs }).Perm s.addingIDs := by
  obtain ⟨hlt, rfl⟩ := List.getElem?_eq_some_iff.mp hi
  refine .trans (.of_eq ?_) ((List.getElem_cons_eraseIdx_perm hlt).filterMap Handler.addedID)
  rw [List.filterMap_cons]
  cases s.handlers[i].addedID <;> rfl

theorem addingIDs_set {i : ℕ} {handler : Handler} (hi : s.handlers[i]? = some handler)
    (handler' : Handler) (heq : handler'.addedID = handler.addedID) (jobs : JobService) :
    (addingIDs { s with handlers := s.handlers.set i handler', jobs := jobs }).Perm
      s.addingIDs := by
  obtain ⟨hlt, rfl⟩ := List.getElem?_eq_some_iff.mp hi
  have hset := (List.set_perm_cons_eraseIdx hlt handler').filterMap Handler.addedID
  have herase := (List.getElem_cons_eraseIdx_perm hlt).filterMap Handler.addedID
  rw [List.filterMap_cons, heq, ← List.filterMap_cons] at hset
  exact hset.trans herase

theorem addedID_of_isOwn {a : ServiceAct} (hown : a.isOwn = true) : a.addedID = none := by
  cases a with
  | addAsyncCollectJob job now => cases hown
  | _ => rfl

/-- **No id is lost, and none comes twice**: a step takes in the ids that it is issued, and hands
over to the scheduler the one that it adds. -/
structure Moves (json : Json) (s s' : Service) (ev : List ServiceEvent) (added : Option ℤ) :
    Prop where
  jobs : s'.jobs = s.jobs ∧ added = none ∨
    ∃ b jev, s.jobs.step b = some (s'.jobs, jev) ∧ b.addedID = added
  adding : (added.toList ++ s'.addingIDs).Perm (s.addingIDs ++ issuedIDs json ev)

/-- The scheduler does something of its own. -/
theorem Moves.own {b : ServiceAct} {jobs : JobService} {jev : List DispatchEvent}
    (hb : s.jobs.step b = some (jobs, jev)) (hnone : b.addedID = none)
    (hjobs : s'.jobs = jobs) (hhandlers : s'.handlers = s.handlers) :
    Moves json s s' [] none := by
  refine ⟨.inr ⟨b, jev, hjobs ▸ hb, hnone⟩, .of_eq ?_⟩
  rw [addingIDs, hhandlers]
  exact (List.append_nil _).symm

/-- A round goes on. -/
theorem Moves.round (hjobs : s'.jobs = s.jobs) (hhandlers : s'.handlers = s.handlers)
    (hev : ∀ e ∈ ev, ∃ r i msg, e = .reported r i msg) : Moves json s s' ev none := by
  refine ⟨.inl ⟨hjobs, rfl⟩, .of_eq ?_⟩
  have hnone : issuedIDs json ev = [] := by
    refine List.filterMap_eq_nil_iff.mpr fun e he => ?_
    obtain ⟨r, i, msg, rfl⟩ := hev e he
    rfl
  rw [addingIDs, hhandlers, hnone]
  exact (List.append_nil _).symm

theorem moves_of_takes (hs : Takes aes json identity ipc URL F Program s s' ev) :
    ∃ added, Moves json s s' ev added := by
  cases hs with
  | receive m =>
    refine ⟨none, .inl ⟨(receive_frame s m).1, rfl⟩, .of_eq ?_⟩
    rw [issuedIDs, List.filterMap_cons]
    refine (addingIDs_receive s m).trans ?_
    cases (ServiceEvent.received m).issuedID json <;> rfl
  | @decrypt i isCyclic job decrypted rest config hi =>
    refine ⟨none, .inl ⟨rfl, rfl⟩, ?_⟩
    refine (addingIDs_set hi (.adding isCyclic job _ rest) ?_ s.jobs).trans ?_
    · rfl
    · exact .of_eq (List.append_nil _).symm
  | @add i isCyclic job decrypted now jobs jev hi hadd =>
    refine ⟨some job.id, .inr ⟨_, _, hadd, rfl⟩, ?_⟩
    exact (addingIDs_eraseIdx hi jobs).trans (.of_eq (List.append_nil _).symm)
  | @remove i id ids jobs jev hi hremove =>
    refine ⟨none, .inr ⟨_, _, hremove, rfl⟩, ?_⟩
    exact (addingIDs_set hi (.removing ids) rfl jobs).trans (.of_eq (List.append_nil _).symm)
  | removed hi =>
    refine ⟨none, .inl ⟨rfl, rfl⟩, ?_⟩
    exact (addingIDs_eraseIdx hi s.jobs).trans (.of_eq (List.append_nil _).symm)
  | schedule hown hstep => exact ⟨none, .own hstep (addedID_of_isOwn hown) rfl rfl⟩
  | dispatch w o order slice hx hnames hbegin => exact ⟨none, .own hbegin rfl rfl rfl⟩
  | collect hround hcollection hput => exact ⟨none, .round rfl rfl (by simp)⟩
  | loop client hround hloop => exact ⟨none, .round rfl rfl fun e he => reported_of_mem_reports he⟩
  | expire hround hexpire => exact ⟨none, .round rfl rfl (by simp)⟩
  | finish hcomplete => exact ⟨none, .own hcomplete rfl rfl rfl⟩

/-- **Every id was issued**: those that the scheduler knows, and those that are to be added, are
together the ones that came in messages. -/
def Accounted (json : Json) (s : Service) (tr : List ServiceEvent) : Prop :=
  ∃ dtr, s.jobs.dispatch.Known (DispatchState.addedIDs dtr) ∧
    (DispatchState.addedIDs dtr ++ s.addingIDs).Perm (issuedIDs json tr)

theorem accounted_init (now : ℤ) : (init now).Accounted json [] :=
  ⟨[], DispatchState.known_init now, .refl _⟩

theorem issuedIDs_append (tr ev : List ServiceEvent) :
    issuedIDs json (tr ++ ev) = issuedIDs json tr ++ issuedIDs json ev :=
  List.filterMap_append

theorem Accounted.step (h : s.Accounted json tr) (hwf : s.jobs.dispatch.WellFormed)
    {added : Option ℤ} (hs : Moves json s s' ev added) : s'.Accounted json (tr ++ ev) := by
  obtain ⟨dtr, hknown, hperm⟩ := h
  obtain ⟨dtr', hknown', hids⟩ : ∃ dtr', s'.jobs.dispatch.Known (DispatchState.addedIDs dtr') ∧
      DispatchState.addedIDs dtr' = DispatchState.addedIDs dtr ++ added.toList := by
    rcases hs.jobs with ⟨hsame, rfl⟩ | ⟨b, jev, hb, rfl⟩
    · exact ⟨dtr, hsame ▸ hknown, (List.append_nil _).symm⟩
    · exact JobService.known_of_step hknown hwf hb
  refine ⟨dtr', hknown', ?_⟩
  rw [hids, List.append_assoc, issuedIDs_append]
  refine (hs.adding.append_left _).trans ?_
  rw [← List.append_assoc]
  exact hperm.append_right _

/-- As long as no id is issued twice, each has one live timeout at most. -/
theorem Accounted.registered (h : s.Accounted json tr) (hnodup : (issuedIDs json (tr ++ ev)).Nodup)
    (hregistered : s.jobs.dispatch.Registered) {added : Option ℤ}
    (hs : Moves json s s' ev added) : s'.jobs.dispatch.Registered := by
  obtain ⟨dtr, hknown, hperm⟩ := h
  rcases hs.jobs with ⟨hsame, -⟩ | ⟨b, jev, hb, rfl⟩
  · rwa [hsame]
  · refine JobService.registered_of_step hregistered hknown (fun id hid => ?_) hb
    -- the id that is added is one of those that were issued, and is not known as well
    have hsplit : (DispatchState.addedIDs dtr ++ (b.addedID.toList ++ s'.addingIDs)).Nodup := by
      refine ((hs.adding.append_left _).nodup_iff).mpr ?_
      rw [← List.append_assoc]
      rw [issuedIDs_append] at hnodup
      exact ((hperm.append_right _).nodup_iff).mpr hnodup
    refine fun hmem => (List.nodup_append.mp hsplit).2.2 id hmem id ?_ rfl
    exact List.mem_append_left _ (Option.mem_toList.mpr hid)

/-! ### The order of the reports -/

/-- A report comes before another, if it is one of the same job. -/
def InOrder (s : Service) (e e' : ServiceEvent) : Prop :=
  ∀ r i msg r' i' msg', e = .reported r i msg → e' = .reported r' i' msg' →
    s.jobs.dispatch.jobID r = s.jobs.dispatch.jobID r' → r < r' ∨ r = r' ∧ i < i'

/-- What a step reports is all that is seen of it, and the scheduler is left alone. -/
theorem reports_of_takes (honce : s.Once tr)
    (hs : Takes aes json identity ipc URL F Program s s' ev) {r i : ℕ} {msg : Message}
    (hmem : .reported r i msg ∈ ev) :
    s'.jobs = s.jobs ∧ ev = [.reported r i msg] ∧
      ∃ round, s.rounds r = some round ∧ round.task.CanHandle i := by
  cases hs with
  | @loop r' round prefersDone task tev client hround hloop =>
    rcases MetricsTask.events_of_loop hloop with rfl | ⟨k, data, rfl⟩
    · cases hmem
    · have hcan := (MetricsTask.lt_canHandle_of_handled (honce.rounds r' round hround).2 hloop
        (List.mem_singleton_self _)).1
      cases hreport : reportOf identity ipc client round.called.job data with
      | none => simp [reports, hreport] at hmem
      | some sent =>
        have hone : reports identity ipc client round.called.job r' [.handled k data] =
            [.reported r' k sent] := by
          simp [reports, hreport]
        rw [hone] at hmem ⊢
        obtain ⟨rfl, rfl, rfl⟩ := ServiceEvent.reported.inj (List.mem_singleton.mp hmem)
        exact ⟨rfl, rfl, round, hround, hcan⟩
  | receive m => cases List.mem_singleton.mp hmem
  | _ => cases hmem

/-- The timeout of a round is live, for the job that it is one of. -/
theorem Timely.live (h : s.Timely) (hwf : s.jobs.dispatch.WellFormed) {r : ℕ} {round : Round}
    (hround : s.rounds r = some round) :
    ∃ j, s.jobs.dispatch.Live j r ∧ s.jobs.dispatch.jobID r = some j.id := by
  obtain ⟨x, hx, rfl, -⟩ := h.running r round hround
  refine ⟨x.job, .inr ⟨x, hx, rfl, rfl⟩, ?_⟩
  rw [DispatchState.jobID, hwf.run_task x hx]
  rfl

/-- The job of a timeout stays what it is. -/
theorem jobID_of_takes (hwf : s.jobs.dispatch.WellFormed)
    (hs : Takes aes json identity ipc URL F Program s s' ev) {r : ℕ}
    (hspent : s.jobs.dispatch.Spent r) : s'.jobs.dispatch.jobID r = s.jobs.dispatch.jobID r := by
  obtain ⟨t, ht⟩ := hspent.task
  rw [DispatchState.jobID, DispatchState.jobID, task_of_takes hwf hs ht, ht]

/-- **What was reported of a job comes before what is live of it.** -/
structure Ordered (s : Service) (tr : List ServiceEvent) : Prop where
  registered : s.jobs.dispatch.Registered
  le_live : ∀ r i msg, .reported r i msg ∈ tr → ∀ j r', s.jobs.dispatch.Live j r' →
    s.jobs.dispatch.jobID r = some j.id → r ≤ r'
  in_order : tr.Pairwise s.InOrder

theorem ordered_init (now : ℤ) : (init now).Ordered [] where
  registered := DispatchState.registered_init now
  le_live := fun _ _ _ hmem => absurd hmem List.not_mem_nil
  in_order := .nil

/-- A timeout that comes to life is later than all that were reported. -/
theorem Ordered.le_live_of_takes (h : s.Ordered tr) (honce : s.Once tr)
    (hs : Takes aes json identity ipc URL F Program s s' ev) {r i : ℕ} {msg : Message}
    (hmem : .reported r i msg ∈ tr) {j : Job} {r' : ℕ} (hlive : s'.jobs.dispatch.Live j r')
    (hid : s'.jobs.dispatch.jobID r = some j.id) : r ≤ r' := by
  have hspent := (honce.reported r i msg hmem).1
  rw [jobID_of_takes h.registered.wellFormed hs hspent] at hid
  rcases jobs_of_takes hs with hsame | ⟨b, jev, hb⟩
  · exact h.le_live r i msg hmem j r' (hsame ▸ hlive) hid
  · rcases JobService.live_of_step h.registered.wellFormed hb hlive with hold | ⟨hnone, -⟩
    · exact h.le_live r i msg hmem j r' hold hid
    · obtain ⟨t, ht⟩ := hspent.task
      exact (DispatchState.lt_of_task ht hnone).le

/-- What is reported now comes after what was reported before. -/
theorem Ordered.inOrder_of_takes (h : s.Ordered tr) (honce : s.Once tr) (htimely : s.Timely)
    (hs : Takes aes json identity ipc URL F Program s s' ev) {e e' : ServiceEvent} (he : e ∈ tr)
    (he' : e' ∈ ev) : s'.InOrder e e' := by
  rintro r i msg r' i' msg' rfl rfl hid
  obtain ⟨hjobs, -, round, hround, hcan⟩ := reports_of_takes honce hs he'
  obtain ⟨j, hlive, hj⟩ := htimely.live h.registered.wellFormed hround
  rw [hjobs, hj] at hid
  rcases (h.le_live r i msg he j r' hlive hid).lt_or_eq with hlt | rfl
  · exact .inl hlt
  · exact .inr ⟨rfl, (honce.reported r i msg he).2 round hround i' hcan⟩

theorem Ordered.step (h : s.Ordered tr) (honce : s.Once tr) (htimely : s.Timely)
    (hregistered : s'.jobs.dispatch.Registered)
    (hs : Takes aes json identity ipc URL F Program s s' ev) : s'.Ordered (tr ++ ev) := by
  have hwf := h.registered.wellFormed
  refine ⟨hregistered, fun r i msg hmem j r' hlive hid => ?_, ?_⟩
  · rcases List.mem_append.mp hmem with hold | hnew
    · exact h.le_live_of_takes honce hs hold hlive hid
    · -- the round that reports is the only one of its job that is live
      obtain ⟨hjobs, -, round, hround, -⟩ := reports_of_takes honce hs hnew
      obtain ⟨j', hlive', hj'⟩ := htimely.live hwf hround
      rw [hjobs] at hlive hid
      rw [hj'] at hid
      exact (h.registered.unique j' r j r' hlive' hlive (Option.some.inj hid)).le
  · refine List.pairwise_append.mpr ⟨?_, ?_, fun e he e' he' =>
      h.inOrder_of_takes honce htimely hs he he'⟩
    · refine h.in_order.imp_of_mem fun he he' hbefore r i msg r' i' msg' heq heq' hid => ?_
      have hr := (honce.reported r i msg (heq ▸ he)).1
      have hr' := (honce.reported r' i' msg' (heq' ▸ he')).1
      rw [jobID_of_takes hwf hs hr, jobID_of_takes hwf hs hr'] at hid
      exact hbefore r i msg r' i' msg' heq heq' hid
    · refine List.pairwise_iff_forall_sublist.mpr fun {e e'} hsub r i msg r' i' msg' heq => ?_
      -- a step makes one report at most
      have hone := (reports_of_takes honce hs (heq ▸ hsub.subset List.mem_cons_self)).2.1
      rw [hone] at hsub
      exact absurd hsub.length_le (by simp)

/-- What holds along every run that is issued no id twice. -/
structure Orderly (aes : BlockCipher) (json : Json) (URL F Program : Type) [NatCast F] [Mul F]
    [Div F] (s : Service) (tr : List ServiceEvent) : Prop where
  sound : s.Sound aes json URL F Program tr
  once : s.Once tr
  timely : s.Timely
  accounted : s.Accounted json tr
  ordered : (issuedIDs json tr).Nodup → s.Ordered tr

theorem Orderly.step (h : s.Orderly aes json URL F Program tr) {a : ServiceStep URL F Program}
    (hs : Service.step aes json identity ipc s a = some (s', ev)) :
    s'.Orderly aes json URL F Program (tr ++ ev) := by
  have htakes := takes_of_step aes json identity ipc hs
  have hwf := h.sound.wellFormed
  obtain ⟨added, hmoves⟩ := moves_of_takes htakes
  refine ⟨h.sound.step htakes, h.once.step hwf htakes, h.timely.step hwf hs,
    h.accounted.step hwf hmoves, fun hnodup => ?_⟩
  have hbefore : (issuedIDs json tr).Nodup := by
    rw [issuedIDs_append] at hnodup
    exact hnodup.of_append_left
  have hordered := h.ordered hbefore
  exact hordered.step h.once h.timely
    (h.accounted.registered hnodup hordered.registered hmoves) htakes

theorem orderly_of_exec {now : ℤ} {as : List (ServiceStep URL F Program)}
    (h : exec (step aes json identity ipc) (init now) as = some (s, tr)) :
    s.Orderly aes json URL F Program tr :=
  @exec_induction _ _ _ _ (fun s tr => s.Orderly aes json URL F Program tr) _
    ⟨sound_init now, once_init now, timely_init now, accounted_init now, fun _ => ordered_init now⟩
    (fun _ _ _ _ _ hs hstep => hs.step hstep) _ _ _ h

/-- **Reports come in order.** In every run in which no job id is issued twice, the reports of a
job come in the order of its rounds and, within a round, of its metrics. At most one round of a job
is under way. -/
theorem reports_in_order {now : ℤ} {as : List (ServiceStep URL F Program)}
    (h : exec (step aes json identity ipc) (init now) as = some (s, tr))
    (hnodup : (issuedIDs json tr).Nodup) :
    tr.Pairwise s.InOrder ∧ ∀ r r', (s.rounds r).isSome → (s.rounds r').isSome →
      s.jobs.dispatch.jobID r = s.jobs.dispatch.jobID r' → r = r' := by
  have hs := orderly_of_exec h
  have hordered := hs.ordered hnodup
  refine ⟨hordered.in_order, fun r r' hr hr' hid => ?_⟩
  obtain ⟨round, hround⟩ := Option.isSome_iff_exists.mp hr
  obtain ⟨round', hround'⟩ := Option.isSome_iff_exists.mp hr'
  obtain ⟨j, hlive, hj⟩ := hs.timely.live hs.sound.wellFormed hround
  obtain ⟨j', hlive', hj'⟩ := hs.timely.live hs.sound.wellFormed hround'
  rw [hj, hj'] at hid
  exact hordered.registered.unique j r j' r' hlive hlive' (Option.some.inj hid)

/-- A task that is to be done once, with two metrics whose protocol nobody knows. -/
def cpuAndMemory : Job :=
  { Job.bare 7 false 100 with
    metrics := some [.bare (Go.str "cpu") (Go.str "telnet"),
      .bare (Go.str "memory") (Go.str "telnet")] }

/-- Every payload is that task, or its id. -/
def cpuAndMemoryTask : Json :=
  { oneTask with job := fun _ => .ok cpuAndMemory, jobIDs := fun _ => .ok [7] }

/-- The second metric is collected before the first, and the first is reported before the
second. -/
theorem reports_in_order_two_metrics :
    ∃ (ipc : IPC) (s : Service) (cpu memory : Message),
      exec (step ⟨fun _ block => block⟩ cpuAndMemoryTask [] ipc) (init 0)
          ([.receive issueOne, .handle 0 0, .schedule (.dispatch .start),
              .schedule (.dispatch .tick), .schedule (.dispatch .tick),
              .dispatch 0 0 ⟨cpuAndMemory.metrics, none, none⟩ ⟨.listed _ _, .insertion _⟩ .listed
                0] ++
            List.replicate 3 (.loop 0 true none) ++
            [.collect 0 1 .unreachable, .collect 0 0 .unreachable] ++
            List.replicate 6 (.loop 0 true (some ⟨true, fun _ => none⟩)) ++ [.finish 0] :
            List (ServiceStep Unit ℕ Unit)) =
        some (s, [.received issueOne, .reported 0 0 cpu, .reported 0 1 memory]) ∧
      List.Pairwise s.InOrder [.received issueOne, .reported 0 0 cpu, .reported 0 1 memory] := by
  obtain ⟨write, hwrite⟩ := exists_injective_write
  let ipc : IPC := ⟨.ofLists, write, hwrite⟩
  have hrun : ∃ s cpu memory, exec (step ⟨fun _ block => block⟩ cpuAndMemoryTask [] ipc) (init 0)
      ([.receive issueOne, .handle 0 0, .schedule (.dispatch .start), .schedule (.dispatch .tick),
          .schedule (.dispatch .tick),
          .dispatch 0 0 ⟨cpuAndMemory.metrics, none, none⟩ ⟨.listed _ _, .insertion _⟩ .listed 0] ++
        List.replicate 3 (.loop 0 true none) ++
        [.collect 0 1 .unreachable, .collect 0 0 .unreachable] ++
        List.replicate 6 (.loop 0 true (some ⟨true, fun _ => none⟩)) ++ [.finish 0] :
        List (ServiceStep Unit ℕ Unit)) =
      some (s, [.received issueOne, .reported 0 0 cpu, .reported 0 1 memory]) := ⟨_, _, _, rfl⟩
  obtain ⟨s, cpu, memory, hs⟩ := hrun
  exact ⟨ipc, s, cpu, memory, hs, (reports_in_order hs (List.nodup_singleton 7)).1⟩

/-! ### Jobs that are deleted -/

/-- **Nothing is left of a job**: it has no live timeout, and nobody is to add it. -/
structure Quiet (s : Service) (id : ℤ) : Prop where
  dead : ∀ j r, j.id = id → ¬s.jobs.dispatch.Live j r
  not_adding : id ∉ s.addingIDs

/-- A job of which nothing is left comes back only if it is issued again. -/
theorem Quiet.step {id : ℤ} (h : s.Quiet id) (hwf : s.jobs.dispatch.WellFormed) {added : Option ℤ}
    (hs : Moves json s s' ev added) (hissued : id ∉ issuedIDs json ev) : s'.Quiet id := by
  have hnew : id ∉ added.toList ++ s'.addingIDs := fun hmem =>
    (List.mem_append.mp (hs.adding.mem_iff.mp hmem)).elim h.not_adding hissued
  refine ⟨fun j r hid hlive => ?_, fun hmem => hnew (List.mem_append_right _ hmem)⟩
  rcases hs.jobs with ⟨hsame, -⟩ | ⟨b, jev, hb, rfl⟩
  · exact h.dead j r hid (hsame ▸ hlive)
  · rcases JobService.live_of_step hwf hb hlive with hold | ⟨-, hadded | ⟨r', hold⟩⟩
    · exact h.dead j r hid hold
    · exact hnew (List.mem_append_left _ (Option.mem_toList.mpr (hadded.trans (congrArg some hid))))
    · exact h.dead j r' hid hold

end Service

end HertzBeat
