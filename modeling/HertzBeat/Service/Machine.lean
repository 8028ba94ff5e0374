import HertzBeat.Dispatcher.OneTimeJobs
import HertzBeat.Service.Rounds

/-!
# From a message to a report

The collector as a whole: a message of the manager is taken by its processor, its job is scheduled,
a tick of the wheel starts a `Run`, the metrics of the job are collected at the same time, and what
was collected is sent back. Every part of this has its own module; here they take their steps
together, in any order. Every message has a goroutine of its own, in which its processor runs. So a
processor begins some time after its message came in, maybe after that of a later one, and it takes
the passwords of its job one after another: each is decrypted with the secret of that moment, which
another processor may have set meanwhile.

A job is an object that all its rounds share. A round writes into it, as the selection of its
metrics does, and as the replacement of parameters does that leaves configurations shared. What a
round finds there is therefore open, `HertzBeat.Written`, but for what no round writes.

* `HertzBeat.Service.exec_of_process` – the processors are steps of this system.
* `HertzBeat.Service.takes_of_step` – what a step can do, for every later proof.
-/

namespace HertzBeat

open Go (Str BlockCipher RangeOrder)
open Runs

/-! ### The parts of the collector -/

/-- A processor that has read its message, and has to change the scheduler yet. -/
inductive Handler where
  /-- It is to add the job, of whose configmap these entries are decrypted and these are not. -/
  | adding (isCyclic : Bool) (job : Job) (decrypted rest : List Configmap)
  /-- It is to remove the jobs with these ids. -/
  | removing (ids : List ℤ)

/-- The job that is scheduled for one that was received, once the entries of its configmap are
decrypted. -/
def Job.prepared (job : Job) (isCyclic : Bool) (configs : List Configmap) : Job :=
  { job with
    configmap := job.configmap.map fun _ => configs
    isCyclic := isCyclic }

theorem Job.prepareJob_eq_prepared (aes : BlockCipher) (secretKey : Str) (isCyclic : Bool)
    (job : Job) : Collector.prepareJob aes secretKey isCyclic job = job.prepared isCyclic
      ((job.configmap.getD []).map (Replacer.preprocessConfig aes secretKey)) := by
  rw [Collector.prepareJob, Replacer.preprocessJobPasswords, Job.prepared]
  cases job.configmap <;> rfl

/-- What the rounds of a job may have written into it: the metrics, whose names stay, and what goes
with them. -/
structure Written where
  metrics : Option (List (Metrics Option))
  priorMetrics : Option (List (Option (List MetricsPtr)))
  envConfigmaps : Option (Go.Map Str Configmap)

/-- A job as a round finds it. -/
def Job.written (job : Job) (w : Written) : Job :=
  { job with
    metrics := w.metrics
    priorMetrics := w.priorMetrics
    envConfigmaps := w.envConfigmaps }

/-- A call of `DispatchMetricsTask` that has not returned. -/
structure Round where
  called : MetricsRound
  task : MetricsTask CollectRepMetricsData

/-- The collector. A round is known by the timeout of its `Run`. -/
structure Service where
  secretKey : Str
  handlers : List Handler
  jobs : JobService
  rounds : ℕ → Option Round

/-- The steps of the collector. -/
inductive ServiceStep (URL F Program : Type) where
  /-- The processor of a message begins, and reads it. -/
  | receive (m : Message)
  /-- A processor goes on: it decrypts the next password, or changes the scheduler. -/
  | handle (i : ℕ) (now : ℤ)
  /-- A step of the scheduler that neither begins nor ends a round. -/
  | schedule (a : ServiceAct)
  /-- A `Run` begins, and a round with it. -/
  | dispatch (r : ℕ) (now : ℤ) (w : Written) (o : GroupOrder) (order : RangeOrder) (slice : ℕ)
  /-- The collection of a round at a position ends. -/
  | collect (r i : ℕ) (env : MetricsCollector.Env URL F Program)
  /-- The dispatcher of a round goes on, and the router finds this client. -/
  | loop (r : ℕ) (prefersDone : Bool) (client : Option TransportClient)
  /-- The deadline of a round passes. -/
  | expire (r : ℕ)
  /-- A round has returned. -/
  | finish (r : ℕ)

/-- What is seen of the collector. The messages that come in are seen when their processors read
them, which need not be in the order in which they came. The report of a result is known by the
timeout of its round, and by its position. -/
inductive ServiceEvent where
  | received (m : Message)
  | reported (r i : ℕ) (msg : Message)

/-- The steps of the scheduler that are left to it. -/
def ServiceAct.isOwn : ServiceAct → Bool
  | .close | .dispatch .start | .dispatch .stop | .dispatch .tick | .dispatch (.reschedule _ _) =>
    true
  | _ => false

/-- What the collection at a position ends with, if there is one. -/
def MetricsRound.collection {URL F Program : Type} [NatCast F] [Mul F] [Div F]
    (env : MetricsCollector.Env URL F Program) (round : MetricsRound) (i : ℕ) :
    Option (Except Go.Panic (List (Option CollectRepMetricsData))) :=
  (round.calls[i]?).join.bind fun k => ((round.processedJob.metrics.getD [])[k]?).map fun metrics =>
    MetricsCollector.collectMetrics env metrics round.processedJob

/-- Whether the task that a message issues is cyclic. -/
def MessageType.issues : MessageType → Option Bool
  | .issueCyclicTask => some true
  | .issueOneTimeTask => some false
  | _ => none

/-! ### Where the tasks of the wheel come from -/

/-- **What a step does to the tasks of the wheel**: nothing, or it asks for a timeout, of a job that
is added or of a cyclic one whose `Run` ends. -/
theorem DispatchState.wheel_of_step {s s' : DispatchState} {ev : List DispatchEvent}
    (hwf : s.WellFormed) {a : DispatchAct} (hs : s.step a = some (s', ev)) :
    (∀ r, s'.td.wheelTimer.task r = s.td.wheelTimer.task r) ∨
      ∃ j delay now o, s.td.wheelTimer.newTimeout ⟨j⟩ delay now = .ok (s'.td.wheelTimer, o) ∧
        ((∃ now, a = .addJob (some j) now) ∨ ∃ x ∈ s.runs, x.job = j ∧ j.isCyclic = true) := by
  cases a with
  | addJob job now =>
    rcases job with _ | j
    · obtain ⟨rfl, -⟩ := step_addJob_nil hs
      exact .inl fun _ => rfl
    · obtain ⟨w, o, hnew, rfl, -⟩ := step_addJob_eq hs
      exact .inr ⟨j, _, now, o, hnew, .inl ⟨now, rfl⟩⟩
  | removeJob id =>
    rcases step_removeJob hs with ⟨hi, -⟩ | ⟨r', hr⟩
    · exact .inl fun r => by rw [hi.wheel_eq]
    · exact .inl fun r => by rw [hr.wheel_eq, HashedWheelTimer.task_cancel]
  | start => exact .inl (step_start hs).1.task_eq
  | stop =>
    rcases (step_stop hwf hs).2 with ⟨-, rfl⟩ | hst
    · exact .inl fun _ => rfl
    · exact .inl hst.task_eq
  | tick =>
    rw [(step_tick hs).1.td_eq]
    exact .inl fun _ => rfl
  | begin r' now =>
    obtain ⟨x, hb⟩ := step_begin hs
    exact .inl fun r => by rw [hb.wheel_eq]
  | complete r' outcome =>
    obtain ⟨x, hc, -⟩ := step_complete hs
    exact .inl fun r => by rw [hc.wheel_eq]
  | reschedule r' now =>
    obtain ⟨x, hx, -, hstage, ⟨p, -, rfl, -⟩ | ⟨w, o, hnew, rfl, -⟩⟩ := step_reschedule_eq hwf hs
    · exact .inl fun _ => rfl
    · exact .inr ⟨x.job, _, now, o, hnew, .inr ⟨x, hx, rfl, (hwf.run_cyclic x hx hstage).1⟩⟩

/-- A task that the wheel has after a step was there before, if not under the same timeout, or its
job was added. -/
theorem DispatchState.exists_task_of_step {s s' : DispatchState} {ev : List DispatchEvent}
    (hwf : s.WellFormed) {a : DispatchAct} (hs : s.step a = some (s', ev)) {r : ℕ}
    {t : WheelTimerTask} (ht : s'.td.wheelTimer.task r = some t) :
    (∃ r', s.td.wheelTimer.task r' = some t) ∨ ∃ now, a = .addJob (some t.job) now := by
  rcases wheel_of_step hwf hs with hsame | ⟨j, delay, now, o, hnew, hj⟩
  · exact .inl ⟨r, hsame r ▸ ht⟩
  · rcases (asked_of_newTimeout hwf.wheel hnew).task_of r t ht with hold | rfl
    · exact .inl ⟨r, hold⟩
    · rcases hj with hadd | ⟨x, hx, rfl, -⟩
      · exact .inr hadd
      · exact .inl ⟨x.timeout, hwf.run_task x hx⟩

/-- The task of a timeout stays what it is. -/
theorem DispatchState.task_of_step {s s' : DispatchState} {ev : List DispatchEvent}
    (hwf : s.WellFormed) {a : DispatchAct} (hs : s.step a = some (s', ev)) {r : ℕ}
    {t : WheelTimerTask} (ht : s.td.wheelTimer.task r = some t) :
    s'.td.wheelTimer.task r = some t := by
  rcases wheel_of_step hwf hs with hsame | ⟨j, delay, now, o, hnew, -⟩
  · rw [hsame, ht]
  · exact (asked_of_newTimeout hwf.wheel hnew).task_mono r t ht

/-- A step of the service is one of its dispatcher, or none. -/
theorem JobService.dispatch_of_step {s s' : JobService} {ev : List DispatchEvent} {a : ServiceAct}
    (hs : s.step a = some (s', ev)) :
    s'.dispatch = s.dispatch ∨ ∃ b, s.dispatch.step b = some (s'.dispatch, ev) ∧
      ∀ job now, b = .addJob (some job) now → a = .addAsyncCollectJob (some job) now := by
  cases a with
  | addAsyncCollectJob job now =>
    cases job with
    | none =>
      obtain ⟨rfl, -⟩ := Prod.mk.inj (Option.some.inj hs)
      exact .inl rfl
    | some job =>
      obtain ⟨p, hp, hpair⟩ := Option.map_eq_some_iff.mp hs
      obtain ⟨rfl, rfl⟩ := Prod.mk.inj hpair
      refine .inr ⟨_, hp, fun job' now' heq => ?_⟩
      obtain ⟨hjob, rfl⟩ := DispatchAct.addJob.inj heq
      rw [hjob]
  | removeAsyncCollectJob id =>
    obtain ⟨p, hp, hpair⟩ := Option.map_eq_some_iff.mp hs
    obtain ⟨rfl, rfl⟩ := Prod.mk.inj hpair
    exact .inr ⟨_, hp, fun _ _ heq => nomatch heq⟩
  | close =>
    obtain ⟨p, hp, hpair⟩ := Option.map_eq_some_iff.mp hs
    obtain ⟨rfl, rfl⟩ := Prod.mk.inj hpair
    exact .inr ⟨_, hp, fun _ _ heq => nomatch heq⟩
  | dispatch b =>
    rw [step] at hs
    split_ifs at hs with hcall
    obtain ⟨p, hp, hpair⟩ := Option.map_eq_some_iff.mp hs
    obtain ⟨rfl, rfl⟩ := Prod.mk.inj hpair
    refine .inr ⟨b, hp, ?_⟩
    rintro job now rfl
    exact absurd rfl hcall

namespace Service

variable {URL F Program : Type} [NatCast F] [Mul F] [Div F]
variable (aes : BlockCipher) (json : Json) (identity : Str) (ipc : IPC)

/-- A collector that has just been set up. -/
def init (now : ℤ) : Service where
  secretKey := []
  handlers := []
  jobs := .init now
  rounds := fun _ => none

/-- The processor of a task decodes the job. -/
def issue (s : Service) (isCyclic : Bool) (m : Message) : Service :=
  match json.job m.msg with
  | .error _ => s
  | .ok job => { s with
      handlers := s.handlers ++ [.adding isCyclic job [] (job.configmap.getD [])] }

/-- A processor reads its message. -/
def receive (s : Service) (m : Message) : Service :=
  match m.type with
  | .goOnline => { s with secretKey := (Collector.announcedSecret json m).getD s.secretKey }
  | .issueCyclicTask => s.issue json true m
  | .issueOneTimeTask => s.issue json false m
  | .deleteCyclicTask =>
    match Collector.deletedIDs json m with
    | .error _ => s
    | .ok ids => { s with handlers := s.handlers ++ [.removing ids] }
  | _ => s

/-- A processor goes on. It decrypts one password at a time, with the secret as it is then, and
removes one job at a time. -/
def handle (s : Service) (i : ℕ) (now : ℤ) : Option Service :=
  match s.handlers[i]? with
  | none => none
  | some (.adding isCyclic job decrypted (config :: rest)) =>
    some { s with handlers := s.handlers.set i (.adding isCyclic job
      (decrypted ++ [Replacer.preprocessConfig aes s.secretKey config]) rest) }
  | some (.adding isCyclic job decrypted []) =>
    (s.jobs.step (.addAsyncCollectJob (some (job.prepared isCyclic decrypted)) now)).map fun p =>
      { s with handlers := s.handlers.eraseIdx i, jobs := p.1 }
  | some (.removing (id :: ids)) =>
    (s.jobs.step (.removeAsyncCollectJob id)).map fun p =>
      { s with handlers := s.handlers.set i (.removing ids), jobs := p.1 }
  | some (.removing []) => some { s with handlers := s.handlers.eraseIdx i }

/-- A round is set in place of what there was. -/
def setRound (s : Service) (r : ℕ) (round : Option Round) : Service :=
  { s with rounds := Function.update s.rounds r round }

/-- The round that begins with a `Run` of a job. -/
def newRound (job : Job) (now : ℤ) (w : Written) (o : GroupOrder) (order : RangeOrder)
    (slice : ℕ) : Round :=
  let called := (job.written w).metricsRound o order slice now
  ⟨called, .new called.job called.processedJob⟩

/-- The message for a result that is handed to the client. -/
def reportOf (client : Option TransportClient) (job : Job) (data : CollectRepMetricsData) :
    Option Message :=
  match handleCollectData (some ⟨identity, client, ipc⟩) (some data) job with
  | .ok (msg, _) => msg
  | .error _ => none

/-- What is seen of a step of a round. -/
def reports (client : Option TransportClient) (job : Job) (r : ℕ)
    (ev : List (TaskEvent CollectRepMetricsData)) : List ServiceEvent :=
  ev.filterMap fun
    | .handled i data => (reportOf identity ipc client job data).map (.reported r i)
    | .collected _ _ => none

/-- The collector takes a step. -/
def step : StepFn Service (ServiceStep URL F Program) ServiceEvent
  | s, .receive m => some (s.receive json m, [.received m])
  | s, .handle i now => (s.handle aes i now).map fun s' => (s', [])
  | s, .schedule a =>
    if a.isOwn then (s.jobs.step a).map fun p => ({ s with jobs := p.1 }, []) else none
  | s, .dispatch r now w o order slice =>
    match s.jobs.dispatch.runAt r .fired with
    | none => none
    | some x =>
      if (x.job.written w).metricsNames = x.job.metricsNames then
        (s.jobs.step (.dispatch (.begin r now))).map fun p =>
          ({ s with jobs := p.1 }.setRound r (some (newRound x.job now w o order slice)), [])
      else none
  | s, .collect r i env =>
    match s.rounds r with
    | none => none
    | some round =>
      match round.called.collection env i with
      | some (.ok [result]) => (round.task.step (.put i result)).map fun p =>
          (s.setRound r (some { round with task := p.1 }), [])
      -- a panic ends the process
      | _ => none
  | s, .loop r prefersDone client =>
    match s.rounds r with
    | none => none
    | some round => (round.task.step (.loop prefersDone)).map fun p =>
        (s.setRound r (some { round with task := p.1 }),
          reports identity ipc client round.called.job r p.2)
  | s, .expire r =>
    match s.rounds r with
    | none => none
    | some round => (round.task.step .expire).map fun p =>
        (s.setRound r (some { round with task := p.1 }), [])
  | s, .finish r =>
    match s.rounds r with
    | some ⟨_, ⟨_, .returned, _, _, _⟩⟩ =>
      (s.jobs.step (.dispatch (.complete r .ok))).map fun p =>
        ({ s with jobs := p.1 }.setRound r none, [])
    | _ => none

/-! ### What a step can do -/

/-- **The steps of the collector, taken apart.** -/
inductive Takes (URL F Program : Type) [NatCast F] [Mul F] [Div F] (s : Service) :
    Service → List ServiceEvent → Prop
  | receive (m : Message) : Takes URL F Program s (s.receive json m) [.received m]
  | decrypt {i : ℕ} {isCyclic : Bool} {job : Job} {decrypted rest : List Configmap}
      {config : Configmap}
      (hi : s.handlers[i]? = some (.adding isCyclic job decrypted (config :: rest))) :
      Takes URL F Program s { s with handlers := s.handlers.set i (.adding isCyclic job
        (decrypted ++ [Replacer.preprocessConfig aes s.secretKey config]) rest) } []
  | add {i : ℕ} {isCyclic : Bool} {job : Job} {decrypted : List Configmap} {now : ℤ}
      {jobs : JobService} {jev : List DispatchEvent}
      (hi : s.handlers[i]? = some (.adding isCyclic job decrypted []))
      (h : s.jobs.step (.addAsyncCollectJob (some (job.prepared isCyclic decrypted)) now) =
        some (jobs, jev)) :
      Takes URL F Program s { s with handlers := s.handlers.eraseIdx i, jobs := jobs } []
  | remove {i : ℕ} {id : ℤ} {ids : List ℤ} {jobs : JobService} {jev : List DispatchEvent}
      (hi : s.handlers[i]? = some (.removing (id :: ids)))
      (h : s.jobs.step (.removeAsyncCollectJob id) = some (jobs, jev)) :
      Takes URL F Program s { s with handlers := s.handlers.set i (.removing ids), jobs := jobs } []
  | removed {i : ℕ} (hi : s.handlers[i]? = some (.removing [])) :
      Takes URL F Program s { s with handlers := s.handlers.eraseIdx i } []
  | schedule {a : ServiceAct} {jobs : JobService} {jev : List DispatchEvent}
      (hown : a.isOwn = true) (h : s.jobs.step a = some (jobs, jev)) :
      Takes URL F Program s { s with jobs := jobs } []
  | dispatch {r : ℕ} {x : TaskRun} {now : ℤ} {jobs : JobService} {jev : List DispatchEvent}
      (w : Written) (o : GroupOrder) (order : RangeOrder) (slice : ℕ)
      (hx : s.jobs.dispatch.runAt r .fired = some x)
      (hnames : (x.job.written w).metricsNames = x.job.metricsNames)
      (h : s.jobs.step (.dispatch (.begin r now)) = some (jobs, jev)) :
      Takes URL F Program s
        ({ s with jobs := jobs }.setRound r (some (newRound x.job now w o order slice))) []
  | collect {r i : ℕ} {round : Round} {env : MetricsCollector.Env URL F Program}
      {result : Option CollectRepMetricsData} {task : MetricsTask CollectRepMetricsData}
      {tev : List (TaskEvent CollectRepMetricsData)} (hround : s.rounds r = some round)
      (hcollection : round.called.collection env i = some (.ok [result]))
      (h : round.task.step (.put i result) = some (task, tev)) :
      Takes URL F Program s (s.setRound r (some { round with task := task })) []
  | loop {r : ℕ} {round : Round} {prefersDone : Bool}
      {task : MetricsTask CollectRepMetricsData} {tev : List (TaskEvent CollectRepMetricsData)}
      (client : Option TransportClient) (hround : s.rounds r = some round)
      (h : round.task.step (.loop prefersDone) = some (task, tev)) :
      Takes URL F Program s (s.setRound r (some { round with task := task }))
        (reports identity ipc client round.called.job r tev)
  | expire {r : ℕ} {round : Round} {task : MetricsTask CollectRepMetricsData}
      {tev : List (TaskEvent CollectRepMetricsData)} (hround : s.rounds r = some round)
      (h : round.task.step .expire = some (task, tev)) :
      Takes URL F Program s (s.setRound r (some { round with task := task })) []
  | finish {r : ℕ} {jobs : JobService} {jev : List DispatchEvent}
      (h : s.jobs.step (.dispatch (.complete r .ok)) = some (jobs, jev)) :
      Takes URL F Program s ({ s with jobs := jobs }.setRound r none) []

theorem takes_of_handle {s s' : Service} {i : ℕ} {now : ℤ} (hs : s.handle aes i now = some s') :
    Takes aes json identity ipc URL F Program s s' [] := by
  rw [handle] at hs
  split at hs
  · cases hs
  · next hi =>
    obtain rfl := Option.some.inj hs
    exact .decrypt hi
  · next hi =>
    obtain ⟨p, hp, rfl⟩ := Option.map_eq_some_iff.mp hs
    exact .add hi hp
  · next hi =>
    obtain ⟨p, hp, rfl⟩ := Option.map_eq_some_iff.mp hs
    exact .remove hi hp
  · next hi =>
    obtain rfl := Option.some.inj hs
    exact .removed hi

/-- Every step is one of these. -/
theorem takes_of_step {s s' : Service} {a : ServiceStep URL F Program} {ev : List ServiceEvent}
    (hs : step aes json identity ipc s a = some (s', ev)) :
    Takes aes json identity ipc URL F Program s s' ev := by
  cases a with
  | receive m =>
    obtain ⟨rfl, rfl⟩ := Prod.mk.inj (Option.some.inj hs)
    exact .receive m
  | handle i now =>
    obtain ⟨q, hq, hpair⟩ := Option.map_eq_some_iff.mp hs
    obtain ⟨rfl, rfl⟩ := Prod.mk.inj hpair
    exact takes_of_handle aes json identity ipc hq
  | schedule b =>
    rw [step] at hs
    split_ifs at hs with hown
    obtain ⟨p, hp, hpair⟩ := Option.map_eq_some_iff.mp hs
    obtain ⟨rfl, rfl⟩ := Prod.mk.inj hpair
    exact .schedule hown hp
  | dispatch r now w o order slice =>
    rw [step] at hs
    split at hs
    · cases hs
    · next x hx =>
      split_ifs at hs with hnames
      obtain ⟨p, hp, hpair⟩ := Option.map_eq_some_iff.mp hs
      obtain ⟨rfl, rfl⟩ := Prod.mk.inj hpair
      exact .dispatch w o order slice hx hnames hp
  | collect r i env =>
    rw [step] at hs
    split at hs
    · cases hs
    · next round hround =>
      split at hs
      · next hcollection =>
        obtain ⟨p, hp, hpair⟩ := Option.map_eq_some_iff.mp hs
        obtain ⟨rfl, rfl⟩ := Prod.mk.inj hpair
        exact .collect hround hcollection hp
      · cases hs
  | loop r prefersDone client =>
    rw [step] at hs
    split at hs
    · cases hs
    · next round hround =>
      obtain ⟨p, hp, hpair⟩ := Option.map_eq_some_iff.mp hs
      obtain ⟨rfl, rfl⟩ := Prod.mk.inj hpair
      exact .loop client hround hp
  | expire r =>
    rw [step] at hs
    split at hs
    · cases hs
    · next round hround =>
      obtain ⟨p, hp, hpair⟩ := Option.map_eq_some_iff.mp hs
      obtain ⟨rfl, rfl⟩ := Prod.mk.inj hpair
      exact .expire hround hp
  | finish r =>
    rw [step] at hs
    split at hs
    · obtain ⟨p, hp, hpair⟩ := Option.map_eq_some_iff.mp hs
      obtain ⟨rfl, rfl⟩ := Prod.mk.inj hpair
      exact .finish hp
    · cases hs

/-! ### The processors -/

section Processors

variable (runs : List TaskRun) (rounds : ℕ → Option Round)

/-- The collector that a processor acts on, with these processors under way. -/
def ofCollector (c : Collector) (r : Runner) (handlers : List Handler) : Service where
  secretKey := c.secretKey
  handlers := handlers
  jobs := ⟨r.runningJobs, r.timeDispatch, runs⟩
  rounds := rounds

/-- A deletion that nothing comes in between. -/
theorem exec_removing {c : Collector} {r r' : Runner} {ids : List ℤ} {errors : List Str}
    (h : Collector.removeJobs r ids = .ok (r', errors)) (now : ℤ) :
    exec (step aes json identity ipc) (ofCollector runs rounds c r [.removing ids])
      (List.replicate (ids.length + 1) (.handle 0 now) : List (ServiceStep URL F Program)) =
      some (ofCollector runs rounds c r' [], []) := by
  induction ids generalizing r errors with
  | nil =>
    obtain ⟨rfl, -⟩ := Prod.mk.inj (Except.ok.inj h)
    rfl
  | cons id ids ih =>
    rw [Collector.removeJobs] at h
    split at h
    · cases h
    · next r₁ err hremove =>
      split at h
      · cases h
      · next r₂ errors' hrest =>
        obtain ⟨rfl, -⟩ := Prod.mk.inj (Except.ok.inj h)
        obtain ⟨ev, hstep⟩ := JobService.step_of_removeAsyncCollectJob hremove runs
        rw [List.length_cons, List.replicate_succ]
        refine (exec_of_step ?_).trans (ih hrest)
        simp only [step, handle, ofCollector, List.getElem?_cons_zero, hstep]
        rfl

/-- A job that is decrypted and added, and nothing comes in between. -/
theorem exec_adding {c : Collector} {r r' : Runner} {isCyclic : Bool} {job : Job}
    {decrypted rest : List Configmap} {now : ℤ} {err : Option Str}
    (h : r.addAsyncCollectJob (some (job.prepared isCyclic
      (decrypted ++ rest.map (Replacer.preprocessConfig aes c.secretKey)))) now = .ok (r', err)) :
    exec (step aes json identity ipc)
      (ofCollector runs rounds c r [.adding isCyclic job decrypted rest])
      (List.replicate (rest.length + 1) (.handle 0 now) : List (ServiceStep URL F Program)) =
      some (ofCollector runs rounds c r' [], []) := by
  induction rest generalizing decrypted with
  | nil =>
    rw [List.map_nil, List.append_nil] at h
    obtain ⟨ev, hstep⟩ := JobService.step_of_addAsyncCollectJob h runs
    refine exec_singleton.mpr ?_
    simp only [step, handle, ofCollector, List.getElem?_cons_zero, hstep]
    rfl
  | cons config rest ih =>
    rw [List.length_cons, List.replicate_succ]
    rw [List.map_cons, List.append_cons] at h
    exact (exec_of_step rfl).trans (ih h)

/-- The message is read, and what comes after is seen by nobody. -/
theorem exec_receive {s s' : Service} {m : Message} {as : List (ServiceStep URL F Program)}
    (h : exec (step aes json identity ipc) (s.receive json m) as = some (s', [])) :
    exec (step aes json identity ipc) s (.receive m :: as) = some (s', [.received m]) :=
  exec_cons.mpr ⟨_, _, _, rfl, h, rfl⟩

theorem exec_of_issueTask {c c' : Collector} {r : Runner} (hr : c.scheduler = some r)
    {m answer : Message} {now : ℤ} {type : MessageType} {isCyclic : Bool} {scheduled : Str}
    (h : Collector.issueTask aes json type isCyclic scheduled c m now = .ok (c', answer)) :
    ∃ r' n, c'.scheduler = some r' ∧
      exec (step aes json identity ipc) ((ofCollector runs rounds c r []).issue json isCyclic m)
        (List.replicate n (.handle 0 now) : List (ServiceStep URL F Program)) =
        some (ofCollector runs rounds c' r' [], []) := by
  rw [Collector.issueTask, hr] at h
  cases hjob : json.job m.msg with
  | error err =>
    simp only [hjob] at h
    obtain ⟨rfl, -⟩ := Prod.mk.inj (Except.ok.inj h)
    refine ⟨r, 0, hr, ?_⟩
    simp only [issue, hjob]
    rfl
  | ok job =>
    simp only [hjob, Job.prepareJob_eq_prepared] at h
    simp only [issue, hjob]
    split at h
    · cases h
    · next r₁ err hok =>
      obtain ⟨rfl, -⟩ := Prod.mk.inj (Except.ok.inj h)
      exact ⟨r₁, _, rfl, exec_adding aes json identity ipc runs rounds hok⟩
    · next r₁ hok =>
      obtain ⟨rfl, -⟩ := Prod.mk.inj (Except.ok.inj h)
      exact ⟨r₁, _, rfl, exec_adding aes json identity ipc runs rounds hok⟩

theorem exec_of_deleteCyclicTask {c c' : Collector} {r : Runner} (hr : c.scheduler = some r)
    {m answer : Message} (hm : m.type = .deleteCyclicTask) (now : ℤ)
    (h : c.deleteCyclicTask json m = .ok (c', answer)) :
    ∃ r' n, c'.scheduler = some r' ∧
      exec (step aes json identity ipc) ((ofCollector runs rounds c r []).receive json m)
        (List.replicate n (.handle 0 now) : List (ServiceStep URL F Program)) =
        some (ofCollector runs rounds c' r' [], []) := by
  rw [Collector.deleteCyclicTask, hr] at h
  cases hids : Collector.deletedIDs json m with
  | error err =>
    simp only [hids] at h
    obtain ⟨rfl, -⟩ := Prod.mk.inj (Except.ok.inj h)
    refine ⟨r, 0, hr, ?_⟩
    simp only [receive, hm, hids]
    rfl
  | ok ids =>
    simp only [hids] at h
    simp only [receive, hm, hids]
    split at h
    · cases h
    · next r' errors hremove =>
      obtain ⟨rfl, -⟩ := Prod.mk.inj (Except.ok.inj h)
      exact ⟨r', ids.length + 1, rfl, exec_removing aes json identity ipc runs rounds hremove now⟩

/-- **The processors are steps of the collector.** What a processor does in one go, its parts do one
right after the other. -/
theorem exec_of_process {c c' : Collector} {r : Runner} (hr : c.scheduler = some r) {m : Message}
    {now : ℤ} {answer : Option Message} (h : c.process aes json m now = .ok (c', answer)) :
    ∃ r' n, c'.scheduler = some r' ∧
      exec (step aes json identity ipc) (ofCollector runs rounds c r [])
        (.receive m :: List.replicate n (.handle 0 now) : List (ServiceStep URL F Program)) =
        some (ofCollector runs rounds c' r' [], [.received m]) := by
  have hexec : ∃ r' n, c'.scheduler = some r' ∧
      exec (step aes json identity ipc) ((ofCollector runs rounds c r []).receive json m)
        (List.replicate n (.handle 0 now) : List (ServiceStep URL F Program)) =
        some (ofCollector runs rounds c' r' [], []) := by
    cases hm : m.type with
    | goOnline =>
      simp only [Collector.process, hm] at h
      obtain ⟨rfl, -⟩ := Prod.mk.inj (Except.ok.inj h)
      refine ⟨r, 0, hr, ?_⟩
      rw [receive, hm]
      rfl
    | issueCyclicTask =>
      simp only [Collector.process, hm] at h
      obtain ⟨⟨c₁, answer₁⟩, hissue, hpair⟩ := Go.map_eq_ok.mp h
      obtain ⟨rfl, -⟩ := Prod.mk.inj hpair
      rw [receive, hm]
      exact exec_of_issueTask aes json identity ipc runs rounds hr hissue
    | issueOneTimeTask =>
      simp only [Collector.process, hm] at h
      obtain ⟨⟨c₁, answer₁⟩, hissue, hpair⟩ := Go.map_eq_ok.mp h
      obtain ⟨rfl, -⟩ := Prod.mk.inj hpair
      rw [receive, hm]
      exact exec_of_issueTask aes json identity ipc runs rounds hr hissue
    | deleteCyclicTask =>
      simp only [Collector.process, hm] at h
      obtain ⟨⟨c₁, answer₁⟩, hdelete, hpair⟩ := Go.map_eq_ok.mp h
      obtain ⟨rfl, -⟩ := Prod.mk.inj hpair
      exact exec_of_deleteCyclicTask aes json identity ipc runs rounds hr hm now hdelete
    -- the other types change nothing
    | _ =>
      simp only [Collector.process, hm] at h
      obtain ⟨rfl, -⟩ := Prod.mk.inj (Except.ok.inj h)
      refine ⟨r, 0, hr, ?_⟩
      rw [receive, hm]
      rfl
  obtain ⟨r', n, hr', hrun⟩ := hexec
  exact ⟨r', n, hr', exec_receive aes json identity ipc hrun⟩

end Processors

end Service

end HertzBeat
