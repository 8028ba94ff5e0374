import HertzBeat.Service.Machine

/-!
# Nothing is reported that was not asked for

A report that the manager gets is filed under the ids and the name that it carries. Between the
message that issued a job and the report of one of its metrics there are a decryption, the maps and
the wheel of the scheduler, a copy of the job whose parameters were replaced, a collection by any of
the protocols and an Arrow record; and at each of these places there are other jobs.

`HertzBeat.Service.reported_asked_for` follows a report all the way back. Its invariant,
`HertzBeat.Service.Sound`, says of everything in the collector – the processors under way, the tasks
of the wheel, the rounds and the results in their channels – whose it is.
-/

namespace HertzBeat

open Go (Str BlockCipher RangeOrder)
open Runs

namespace Service

variable {URL F Program : Type} [NatCast F] [Mul F] [Div F]
variable (aes : BlockCipher) (json : Json) (identity : Str) (ipc : IPC)

/-! ### What was asked for -/

/-- The secret after what was seen: the one that was announced last. -/
def secretAfter (tr : List ServiceEvent) : Str :=
  tr.foldl (fun secret e => match e with
    | .received m =>
      if m.type = .goOnline then (Collector.announcedSecret json m).getD secret else secret
    | .reported _ _ _ => secret) []

/-- **A message has issued a job**: its processor has read it, and that was the last of the first
`n` events. -/
def IssuedBy (tr : List ServiceEvent) (n : ℕ) (isCyclic : Bool) (decoded : Job) : Prop :=
  ∃ before m after, tr = before ++ .received m :: after ∧ n = before.length + 1 ∧
    m.type.issues = some isCyclic ∧ json.job m.msg = .ok decoded

/-- **The entries of a configmap were decrypted one after another** once there were `n` events: each
with the secret that was announced last at its own moment, and no moment before that of the entry
before it. -/
def DecryptedSince (tr : List ServiceEvent) (n : ℕ) (configs decrypted : List Configmap) : Prop :=
  ∃ moments : List ℕ, moments.length = configs.length ∧ moments.Pairwise (· ≤ ·) ∧
    (∀ k ∈ moments, n ≤ k ∧ k ≤ tr.length) ∧
    decrypted = (moments.zip configs).map fun p =>
      Replacer.preprocessConfig aes (secretAfter json (tr.take p.1)) p.2

/-- **A job was asked for**: a message has issued it, and its passwords were decrypted with the
secrets of the time since then. -/
def AskedFor (tr : List ServiceEvent) (job : Job) : Prop :=
  ∃ n isCyclic decoded configs, IssuedBy json tr n isCyclic decoded ∧
    DecryptedSince aes json tr n (decoded.configmap.getD []) configs ∧
    job = decoded.prepared isCyclic configs

/-- **A result was collected for a job**: it is about the metric at the position, and was collected
with the configuration that the job came with. -/
def CollectedFor (URL F Program : Type) [NatCast F] [Mul F] [Div F] (job : Job) (i : ℕ)
    (data : CollectRepMetricsData) : Prop :=
  ∃ (env : MetricsCollector.Env URL F Program) (metrics : Metrics Option) (processed : Job),
    job.metricsNames[i]? = some metrics.name ∧ data.About job metrics.name ∧
    processed.configmap = job.configmap ∧
    MetricsCollector.collectMetrics env metrics processed = .ok [some data]

/-- **A message reports a result** of a job: its type is that of the job, and it carries the record
of the result. -/
def Reports (job : Job) (data : CollectRepMetricsData) (msg : Message) : Prop :=
  ∃ record, createArrowRecordBatch ipc.toArrow data = .ok record ∧
    msg = { type := if job.isCyclic then .responseCyclicTaskData else .responseOneTimeTaskData
            direction := .response
            identity := identity
            msg := writeInt32 1 ++ ipc.write record }

variable {aes json identity ipc}

theorem IssuedBy.append {tr : List ServiceEvent} {n : ℕ} {isCyclic : Bool} {decoded : Job}
    (h : IssuedBy json tr n isCyclic decoded) (ev : List ServiceEvent) :
    IssuedBy json (tr ++ ev) n isCyclic decoded := by
  obtain ⟨before, m, after, rfl, hn, hm, hjob⟩ := h
  exact ⟨before, m, after ++ ev, by simp, hn, hm, hjob⟩

theorem IssuedBy.le_length {tr : List ServiceEvent} {n : ℕ} {isCyclic : Bool} {decoded : Job}
    (h : IssuedBy json tr n isCyclic decoded) : n ≤ tr.length := by
  obtain ⟨before, m, after, rfl, rfl, -⟩ := h
  simp

section DecryptedSince

variable {tr : List ServiceEvent} {n : ℕ} {configs decrypted : List Configmap}

theorem decryptedSince_nil : DecryptedSince aes json tr n [] [] :=
  ⟨[], rfl, .nil, by simp, rfl⟩

/-- What was decrypted stays so: a moment of the past does not move. -/
theorem DecryptedSince.append (h : DecryptedSince aes json tr n configs decrypted)
    (ev : List ServiceEvent) : DecryptedSince aes json (tr ++ ev) n configs decrypted := by
  obtain ⟨moments, hlength, hordered, hduring, rfl⟩ := h
  refine ⟨moments, hlength, hordered, fun k hk => ?_, ?_⟩
  · obtain ⟨hn, hle⟩ := hduring k hk
    exact ⟨hn, by rw [List.length_append]; omega⟩
  · refine List.map_congr_left fun p hp => ?_
    rw [List.take_append_of_le_length (hduring p.1 (List.of_mem_zip hp).1).2]

/-- One more entry is decrypted, with the secret as it is now. -/
theorem DecryptedSince.snoc (h : DecryptedSince aes json tr n configs decrypted)
    (hn : n ≤ tr.length) (config : Configmap) :
    DecryptedSince aes json tr n (configs ++ [config])
      (decrypted ++ [Replacer.preprocessConfig aes (secretAfter json tr) config]) := by
  obtain ⟨moments, hlength, hordered, hduring, rfl⟩ := h
  refine ⟨moments ++ [tr.length], by simp [hlength], ?_, fun k hk => ?_, ?_⟩
  · refine List.pairwise_append.mpr ⟨hordered, List.pairwise_singleton _ _, fun k hk k' hk' => ?_⟩
    rw [List.mem_singleton.mp hk']
    exact (hduring k hk).2
  · rcases List.mem_append.mp hk with hold | hnew
    · exact hduring k hold
    · rw [List.mem_singleton.mp hnew]
      exact ⟨hn, le_rfl⟩
  · simp [List.zip_append hlength]

end DecryptedSince

theorem AskedFor.append {tr : List ServiceEvent} {job : Job} (h : AskedFor aes json tr job)
    (ev : List ServiceEvent) : AskedFor aes json (tr ++ ev) job := by
  obtain ⟨n, isCyclic, decoded, configs, hissued, hdecrypted, rfl⟩ := h
  exact ⟨n, isCyclic, decoded, configs, hissued.append ev, hdecrypted.append ev, rfl⟩

/-- **A processor is to add a job that was asked for**: what it has decrypted are the first entries
of the configmap. -/
def AddingFor (aes : BlockCipher) (json : Json) (tr : List ServiceEvent) (isCyclic : Bool)
    (job : Job) (decrypted rest : List Configmap) : Prop :=
  ∃ n configs, IssuedBy json tr n isCyclic job ∧ job.configmap.getD [] = configs ++ rest ∧
    DecryptedSince aes json tr n configs decrypted

theorem AddingFor.append {tr : List ServiceEvent} {isCyclic : Bool} {job : Job}
    {decrypted rest : List Configmap} (h : AddingFor aes json tr isCyclic job decrypted rest)
    (ev : List ServiceEvent) : AddingFor aes json (tr ++ ev) isCyclic job decrypted rest := by
  obtain ⟨n, configs, hissued, hconfigs, hdecrypted⟩ := h
  exact ⟨n, configs, hissued.append ev, hconfigs, hdecrypted.append ev⟩

theorem AddingFor.decrypt {tr : List ServiceEvent} {isCyclic : Bool} {job : Job}
    {decrypted rest : List Configmap} {config : Configmap}
    (h : AddingFor aes json tr isCyclic job decrypted (config :: rest)) :
    AddingFor aes json tr isCyclic job
      (decrypted ++ [Replacer.preprocessConfig aes (secretAfter json tr) config]) rest := by
  obtain ⟨n, configs, hissued, hconfigs, hdecrypted⟩ := h
  exact ⟨n, configs ++ [config], hissued, by rw [hconfigs, List.append_cons],
    hdecrypted.snoc hissued.le_length config⟩

theorem AddingFor.askedFor {tr : List ServiceEvent} {isCyclic : Bool} {job : Job}
    {decrypted : List Configmap} (h : AddingFor aes json tr isCyclic job decrypted []) :
    AskedFor aes json tr (job.prepared isCyclic decrypted) := by
  obtain ⟨n, configs, hissued, hconfigs, hdecrypted⟩ := h
  rw [List.append_nil] at hconfigs
  exact ⟨n, isCyclic, job, decrypted, hissued, hconfigs ▸ hdecrypted, rfl⟩

/-- Reports do not announce a secret. -/
theorem secretAfter_append (tr : List ServiceEvent) {ev : List ServiceEvent}
    (hev : ∀ e ∈ ev, ∃ r i msg, e = .reported r i msg) :
    secretAfter json (tr ++ ev) = secretAfter json tr := by
  induction ev using List.reverseRecOn with
  | nil => rw [List.append_nil]
  | append_singleton ev e ih =>
    obtain ⟨r, i, msg, rfl⟩ := hev e (by simp)
    rw [← ih fun e he => hev e (List.mem_append_left _ he), ← List.append_assoc, secretAfter,
      List.foldl_append]
    rfl

/-- What the router hands to the client. -/
theorem reports_of_reportOf {client : Option TransportClient} {job : Job}
    {data : CollectRepMetricsData} {msg : Message}
    (h : reportOf identity ipc client job data = some msg) :
    Reports identity ipc job data msg := by
  rw [reportOf] at h
  split at h
  · next msg' err hok =>
    obtain ⟨⟨sent, serr⟩, hsend, hpair⟩ := Go.bind_eq_ok.mp hok
    obtain ⟨rfl, -⟩ := Prod.mk.inj (Except.ok.inj hpair)
    rw [LazyMessageRouter.sendResult] at hsend
    split at hsend
    · cases hsend
      cases h
    · split_ifs at hsend
      · obtain ⟨⟨m, merr⟩, hdirect, hpair'⟩ := Go.bind_eq_ok.mp hsend
        obtain ⟨rfl, -⟩ := Prod.mk.inj (Except.ok.inj hpair')
        obtain rfl := Option.some.inj h
        obtain ⟨bytes, hbytes, hmsg⟩ := Go.bind_eq_ok.mp hdirect
        rw [serializeToArrow_singleton] at hbytes
        obtain ⟨record, hrecord, rfl⟩ := Go.map_eq_ok.mp hbytes
        obtain ⟨rfl, -⟩ := Prod.mk.inj (Except.ok.inj hmsg)
        exact ⟨record, hrecord, rfl⟩
      · cases hsend
        cases h
  · cases h

/-! ### Whose results a round has -/

/-- **A round is one of a job**: it was called with the job, and what it holds was collected for
it. -/
structure RoundFor (URL F Program : Type) [NatCast F] [Mul F] [Div F]
    (round : Round) (job : Job) : Prop where
  called : ∃ w o order slice now, (job.written w).metricsNames = job.metricsNames ∧
    round.called = (job.written w).metricsRound o order slice now
  task : round.task.Keeps (CollectedFor URL F Program job)

theorem roundFor_new {job : Job} {now : ℤ} {w : Written} {o : GroupOrder} {order : RangeOrder}
    {slice : ℕ} (hnames : (job.written w).metricsNames = job.metricsNames) :
    RoundFor URL F Program (newRound job now w o order slice) job where
  called := ⟨w, o, order, slice, now, hnames, rfl⟩
  task := MetricsTask.keeps_new _ _

/-- **What a collection puts was collected for the job of its round.** -/
theorem RoundFor.collected {round : Round} {job : Job} (h : RoundFor URL F Program round job)
    {env : MetricsCollector.Env URL F Program} {i : ℕ} {data : CollectRepMetricsData}
    (hput : round.called.collection env i = some (.ok [some data])) :
    CollectedFor URL F Program job i data := by
  obtain ⟨w, o, order, slice, now, hnames, hcalled⟩ := h.called
  rw [hcalled, MetricsRound.collection] at hput
  obtain ⟨k, hk, hmap⟩ := Option.bind_eq_some_iff.mp hput
  obtain ⟨metrics, hmetrics, hcollect⟩ := Option.map_eq_some_iff.mp hmap
  have hcall := Option.join_eq_some_iff.mp hk
  rw [Job.calls_metricsRound, hnames, List.getElem?_map] at hcall
  obtain ⟨name, hname, hidx⟩ := Option.map_eq_some_iff.mp hcall
  obtain rfl := Option.some.inj hidx
  -- the metric that is found under the name has the name
  have hfound := Job.metricsNames_getElem? hmetrics
  have hprocessed : ((job.written w).metricsRound o order slice now).processedJob.metricsNames =
      job.metricsNames :=
    (Replacer.metricsNames_replaceJobParams order _).trans
      (((job.written w).metricsNames_constructPriorMetrics o slice now).trans hnames)
  rw [hprocessed, List.getElem?_idxOf (List.mem_of_getElem? hname)] at hfound
  obtain ⟨data', hsingle, habout⟩ := MetricsCollector.about_of_collectMetrics hcollect
  obtain rfl := Option.some.inj (List.singleton_inj.mp hsingle)
  have hmetricsName : job.metricsNames[i]? = some metrics.name := by
    rw [hname, Option.some.inj hfound]
  refine ⟨env, metrics, ((job.written w).metricsRound o order slice now).processedJob,
    hmetricsName, ?_, rfl, hcollect⟩
  exact ⟨habout.id, habout.monitorId, habout.tenantId, habout.app, habout.metrics⟩

/-! ### Everything in the collector was asked for -/

/-- **Everything in the collector was asked for.** -/
structure Sound (aes : BlockCipher) (json : Json) (URL F Program : Type) [NatCast F] [Mul F] [Div F]
    (s : Service) (tr : List ServiceEvent) : Prop where
  wellFormed : s.jobs.dispatch.WellFormed
  secret : s.secretKey = secretAfter json tr
  handlers : ∀ isCyclic job decrypted rest, .adding isCyclic job decrypted rest ∈ s.handlers →
    AddingFor aes json tr isCyclic job decrypted rest
  tasks : ∀ r t, s.jobs.dispatch.td.wheelTimer.task r = some t → AskedFor aes json tr t.job
  rounds : ∀ r round, s.rounds r = some round →
    ∃ t, s.jobs.dispatch.td.wheelTimer.task r = some t ∧ RoundFor URL F Program round t.job

theorem sound_init (now : ℤ) : (init now).Sound aes json URL F Program [] where
  wellFormed := DispatchState.wellFormed_init now
  secret := rfl
  handlers := by simp [init]
  tasks := by
    intro r t ht
    have hlt := HashedWheelTimer.task_lt ht
    exact absurd hlt (Nat.not_lt_zero r)
  rounds := by simp [init]

variable {s s' : Service} {tr : List ServiceEvent}

theorem issue_frame (s : Service) (isCyclic : Bool) (m : Message) :
    (s.issue json isCyclic m).secretKey = s.secretKey ∧
      (s.issue json isCyclic m).jobs = s.jobs ∧
      (s.issue json isCyclic m).rounds = s.rounds := by
  rw [issue]
  split <;> exact ⟨rfl, rfl, rfl⟩

/-- Reading a message touches neither the scheduler nor a round. -/
theorem receive_frame (s : Service) (m : Message) :
    (s.receive json m).jobs = s.jobs ∧ (s.receive json m).rounds = s.rounds := by
  rw [receive]
  split
  · exact ⟨rfl, rfl⟩
  · exact (issue_frame s true m).2
  · exact (issue_frame s false m).2
  · split <;> exact ⟨rfl, rfl⟩
  · exact ⟨rfl, rfl⟩

theorem secretKey_receive (s : Service) (m : Message) :
    (s.receive json m).secretKey =
      if m.type = .goOnline then (Collector.announcedSecret json m).getD s.secretKey
      else s.secretKey := by
  by_cases hm : m.type = .goOnline
  · simp only [receive, hm, if_true]
  · rw [if_neg hm, receive]
    split
    · next htype => exact absurd htype hm
    · exact (issue_frame s true m).1
    · exact (issue_frame s false m).1
    · split <;> rfl
    · rfl

/-- A processor that is to add a job was there before, or has just read a message that issues
it. -/
theorem adding_of_receive {m : Message} {isCyclic : Bool} {job : Job}
    {decrypted rest : List Configmap}
    (hjob : .adding isCyclic job decrypted rest ∈ (s.receive json m).handlers) :
    .adding isCyclic job decrypted rest ∈ s.handlers ∨
      m.type.issues = some isCyclic ∧ json.job m.msg = .ok job ∧ decrypted = [] ∧
        rest = job.configmap.getD [] := by
  have hissue : ∀ {b}, m.type.issues = some b →
      .adding isCyclic job decrypted rest ∈ (s.issue json b m).handlers →
      .adding isCyclic job decrypted rest ∈ s.handlers ∨
        m.type.issues = some isCyclic ∧ json.job m.msg = .ok job ∧ decrypted = [] ∧
          rest = job.configmap.getD [] := by
    intro b hissues hmem
    rw [issue] at hmem
    split at hmem
    · exact .inl hmem
    · next decoded hdecoded =>
      rcases List.mem_append.mp hmem with hold | hnew
      · exact .inl hold
      · obtain ⟨rfl, rfl, rfl, rfl⟩ := Handler.adding.inj (List.mem_singleton.mp hnew)
        exact .inr ⟨hissues, hdecoded, rfl, rfl⟩
  rw [receive] at hjob
  split at hjob
  · exact .inl hjob
  · next htype => exact hissue (by rw [htype]; rfl) hjob
  · next htype => exact hissue (by rw [htype]; rfl) hjob
  · split at hjob
    · exact .inl hjob
    · rcases List.mem_append.mp hjob with hold | hnew
      · exact .inl hold
      · cases List.mem_singleton.mp hnew
  · exact .inl hjob

/-- **What a step reports** is handed on by a round, whose dispatcher goes on. -/
theorem reported_of_takes {ev : List ServiceEvent}
    (hs : Takes aes json identity ipc URL F Program s s' ev) {r i : ℕ} {msg : Message}
    (hmem : .reported r i msg ∈ ev) :
    ∃ round prefersDone task tev data client, s.rounds r = some round ∧
      round.task.step (.loop prefersDone) = some (task, tev) ∧ .handled i data ∈ tev ∧
      reportOf identity ipc client round.called.job data = some msg := by
  cases hs with
  | loop client hround h =>
    obtain ⟨te, hte, hmap⟩ := List.mem_filterMap.mp hmem
    cases te with
    | collected j data => cases hmap
    | handled j data =>
      obtain ⟨msg', hmsg, heq⟩ := Option.map_eq_some_iff.mp hmap
      obtain ⟨rfl, rfl, rfl⟩ := ServiceEvent.reported.inj heq
      exact ⟨_, _, _, _, data, client, hround, h, hte, hmsg⟩
  | receive m => cases List.mem_singleton.mp hmem
  | _ => cases hmem

/-- The events of a round are reports. -/
theorem reported_of_mem_reports {client : Option TransportClient} {job : Job} {r : ℕ}
    {tev : List (TaskEvent CollectRepMetricsData)} {e : ServiceEvent}
    (he : e ∈ reports identity ipc client job r tev) : ∃ r i msg, e = .reported r i msg := by
  obtain ⟨te, -, hmap⟩ := List.mem_filterMap.mp he
  cases te with
  | collected i data => cases hmap
  | handled i data =>
    obtain ⟨msg, -, rfl⟩ := Option.map_eq_some_iff.mp hmap
    exact ⟨r, i, msg, rfl⟩

section Sound

variable (h : s.Sound aes json URL F Program tr)

include h

/-- Reports take nothing back. -/
theorem Sound.report {ev : List ServiceEvent} (hev : ∀ e ∈ ev, ∃ r i msg, e = .reported r i msg) :
    s.Sound aes json URL F Program (tr ++ ev) where
  wellFormed := h.wellFormed
  secret := h.secret.trans (secretAfter_append tr hev).symm
  handlers := fun isCyclic job decrypted rest hmem =>
    (h.handlers isCyclic job decrypted rest hmem).append _
  tasks := fun r t ht => (h.tasks r t ht).append _
  rounds := h.rounds

/-- The processors that are left are some of those before. -/
theorem Sound.setHandlers {handlers : List Handler}
    (hsub : ∀ isCyclic job decrypted rest, .adding isCyclic job decrypted rest ∈ handlers →
      .adding isCyclic job decrypted rest ∈ s.handlers) :
    { s with handlers := handlers }.Sound aes json URL F Program tr :=
  ⟨h.wellFormed, h.secret, fun isCyclic job decrypted rest hmem =>
    h.handlers isCyclic job decrypted rest (hsub isCyclic job decrypted rest hmem), h.tasks,
    h.rounds⟩

/-- A processor decrypts one more password. -/
theorem Sound.decrypt {i : ℕ} {isCyclic : Bool} {job : Job} {decrypted rest : List Configmap}
    {config : Configmap}
    (hi : s.handlers[i]? = some (.adding isCyclic job decrypted (config :: rest))) :
    { s with handlers := s.handlers.set i (.adding isCyclic job
      (decrypted ++ [Replacer.preprocessConfig aes s.secretKey config]) rest) }.Sound
        aes json URL F Program tr := by
  refine ⟨h.wellFormed, h.secret, fun b job' decrypted' rest' hmem => ?_, h.tasks, h.rounds⟩
  rcases List.mem_or_eq_of_mem_set hmem with hold | hnew
  · exact h.handlers b job' decrypted' rest' hold
  · obtain ⟨rfl, rfl, rfl, rfl⟩ := Handler.adding.inj hnew
    rw [h.secret]
    exact (h.handlers _ _ _ _ (List.mem_of_getElem? hi)).decrypt

/-- The scheduler takes a step. -/
theorem Sound.setJobs {a : ServiceAct} {jobs : JobService} {ev : List DispatchEvent}
    (hs : s.jobs.step a = some (jobs, ev))
    (hadd : ∀ job now, a = .addAsyncCollectJob (some job) now → AskedFor aes json tr job) :
    { s with jobs := jobs }.Sound aes json URL F Program tr := by
  rcases JobService.dispatch_of_step hs with hsame | ⟨b, hb, hcall⟩
  · exact ⟨hsame ▸ h.wellFormed, h.secret, h.handlers, hsame ▸ h.tasks, hsame ▸ h.rounds⟩
  · refine ⟨h.wellFormed.step hb, h.secret, h.handlers, fun r t ht => ?_, fun r round hr => ?_⟩
    · rcases DispatchState.exists_task_of_step h.wellFormed hb ht with ⟨r', hold⟩ | ⟨now, rfl⟩
      · exact h.tasks r' t hold
      · exact hadd t.job now (hcall t.job now rfl)
    · obtain ⟨t, ht, hfor⟩ := h.rounds r round hr
      exact ⟨t, DispatchState.task_of_step h.wellFormed hb ht, hfor⟩

/-- A round is set. -/
theorem Sound.setRound {r : ℕ} {o : Option Round}
    (hround : ∀ round, o = some round → ∃ t, s.jobs.dispatch.td.wheelTimer.task r = some t ∧
      RoundFor URL F Program round t.job) :
    (s.setRound r o).Sound aes json URL F Program tr := by
  refine ⟨h.wellFormed, h.secret, h.handlers, h.tasks, fun r' round hr' => ?_⟩
  rw [Service.setRound] at hr'
  dsimp only at hr'
  rw [Function.update_apply] at hr'
  split_ifs at hr' with heq
  · rw [heq]
    exact hround round hr'
  · exact h.rounds r' round hr'

/-- A round takes a step, with results that were collected for its job. -/
theorem Sound.stepRound {r : ℕ} {round : Round} (hr : s.rounds r = some round)
    {a : MetricsTask.Action CollectRepMetricsData} {task : MetricsTask CollectRepMetricsData}
    {ev : List (TaskEvent CollectRepMetricsData)}
    (hput : ∀ i data, a = .put i (some data) →
      ∃ env : MetricsCollector.Env URL F Program,
        round.called.collection env i = some (.ok [some data]))
    (hs : round.task.step a = some (task, ev)) :
    (s.setRound r (some { round with task := task })).Sound aes json URL F Program tr ∧
      ∃ t, s.jobs.dispatch.td.wheelTimer.task r = some t ∧ RoundFor URL F Program round t.job ∧
        ∀ i data, .handled i data ∈ ev → CollectedFor URL F Program t.job i data := by
  obtain ⟨t, ht, hfor⟩ := h.rounds r round hr
  obtain ⟨hkeeps, hhandled⟩ := hfor.task.step (fun i data ha => by
    obtain ⟨env, hcollected⟩ := hput i data ha
    exact hfor.collected hcollected) hs
  refine ⟨h.setRound fun round' hround' => ?_, t, ht, hfor, hhandled⟩
  obtain rfl := Option.some.inj hround'
  exact ⟨t, ht, hfor.called, hkeeps⟩

/-- A processor reads its message. -/
theorem Sound.receive (m : Message) :
    (s.receive json m).Sound aes json URL F Program (tr ++ [.received m]) where
  wellFormed := by
    rw [(receive_frame s m).1]
    exact h.wellFormed
  secret := by
    rw [secretKey_receive, secretAfter, List.foldl_append, h.secret]
    rfl
  handlers := by
    intro isCyclic job decrypted rest hmem
    rcases adding_of_receive hmem with hold | ⟨hissues, hdecoded, rfl, rfl⟩
    · exact (h.handlers isCyclic job decrypted rest hold).append _
    · exact ⟨tr.length + 1, [], ⟨tr, m, [], rfl, rfl, hissues, hdecoded⟩, rfl, decryptedSince_nil⟩
  tasks := by
    rw [(receive_frame s m).1]
    exact fun r t ht => (h.tasks r t ht).append _
  rounds := by
    rw [(receive_frame s m).1, (receive_frame s m).2]
    exact h.rounds

/-- **A step keeps everything in the collector asked for.** -/
theorem Sound.step {ev : List ServiceEvent}
    (hs : Takes aes json identity ipc URL F Program s s' ev) :
    s'.Sound aes json URL F Program (tr ++ ev) := by
  cases hs with
  | receive m => exact h.receive m
  | decrypt hi =>
    rw [List.append_nil]
    exact h.decrypt hi
  | @add i isCyclic job decrypted now jobs jev hi hadd =>
    rw [List.append_nil]
    have hsub := h.setHandlers fun _ _ _ _ hmem => List.mem_of_mem_eraseIdx (i := i) hmem
    refine hsub.setJobs hadd fun job' now' heq => ?_
    obtain ⟨hjob, -⟩ := ServiceAct.addAsyncCollectJob.inj heq
    rw [← Option.some.inj hjob]
    exact (h.handlers _ _ _ _ (List.mem_of_getElem? hi)).askedFor
  | @remove i id ids jobs jev hi hremove =>
    rw [List.append_nil]
    have hsub : ∀ isCyclic job decrypted rest,
        .adding isCyclic job decrypted rest ∈ s.handlers.set i (.removing ids) →
        .adding isCyclic job decrypted rest ∈ s.handlers := by
      intro isCyclic job decrypted rest hmem
      rcases List.mem_or_eq_of_mem_set hmem with hold | hnew
      · exact hold
      · cases hnew
    exact (h.setHandlers hsub).setJobs hremove fun _ _ heq => nomatch heq
  | removed hi =>
    rw [List.append_nil]
    exact h.setHandlers fun _ _ _ _ hmem => List.mem_of_mem_eraseIdx hmem
  | schedule hown hstep =>
    rw [List.append_nil]
    refine h.setJobs hstep ?_
    rintro job now rfl
    cases hown
  | @dispatch r x now jobs jev w o order slice hx hnames hbegin =>
    rw [List.append_nil]
    have hjobs := h.setJobs hbegin fun _ _ heq => nomatch heq
    refine hjobs.setRound fun round hround => ?_
    obtain rfl := Option.some.inj hround
    obtain ⟨hmem, rfl, -⟩ := DispatchState.runAt_eq_some hx
    refine ⟨⟨x.job⟩, ?_, roundFor_new hnames⟩
    rcases JobService.dispatch_of_step hbegin with hsame | ⟨b, hb, -⟩
    · exact hsame ▸ h.wellFormed.run_task x hmem
    · exact DispatchState.task_of_step h.wellFormed hb (h.wellFormed.run_task x hmem)
  | @collect r i round env result task tev hround hcollection hput =>
    rw [List.append_nil]
    refine (h.stepRound hround (fun j data heq => ?_) hput).1
    obtain ⟨rfl, rfl⟩ := MetricsTask.Action.put.inj heq
    exact ⟨env, hcollection⟩
  | loop client hround hloop =>
    have hsound := (h.stepRound hround (fun j data heq => by cases heq) hloop).1
    exact hsound.report fun e he => reported_of_mem_reports he
  | expire hround hexpire =>
    rw [List.append_nil]
    exact (h.stepRound hround (fun j data heq => by cases heq) hexpire).1
  | finish hcomplete =>
    rw [List.append_nil]
    have hjobs := h.setJobs hcomplete fun _ _ heq => nomatch heq
    exact hjobs.setRound fun round hround => nomatch hround

/-- **What a step reports was asked for.** -/
theorem Sound.reported {ev : List ServiceEvent}
    (hs : Takes aes json identity ipc URL F Program s s' ev) {r i : ℕ} {msg : Message}
    (hmem : .reported r i msg ∈ ev) :
    ∃ t data, s.jobs.dispatch.td.wheelTimer.task r = some t ∧
      CollectedFor URL F Program t.job i data ∧ Reports identity ipc t.job data msg := by
  obtain ⟨round, prefersDone, task, tev, data, client, hround, hloop, hhandled, hmsg⟩ :=
    reported_of_takes hs hmem
  obtain ⟨-, t, ht, hfor, hcollected⟩ := h.stepRound hround (fun j data heq => by cases heq) hloop
  refine ⟨t, data, ht, hcollected i data hhandled, ?_⟩
  obtain ⟨w, o, order, slice, now, -, hcalled⟩ := hfor.called
  rw [hcalled] at hmsg
  exact reports_of_reportOf hmsg

end Sound

/-- A task that is to be done once, with a metric whose protocol nobody knows. -/
def unknownProtocol : Job :=
  { Job.bare 7 false 100 with metrics := some [.bare (Go.str "cpu") (Go.str "telnet")] }

/-- Every payload is that task. -/
def oneTask : Json where
  aesSecret := fun _ => .error []
  job := fun _ => .ok unknownProtocol
  jobIDs := fun _ => .error []
  jobID := fun _ => .error []

/-- The message that issues it. -/
def issueOne : Message where
  type := .issueOneTimeTask
  direction := .request
  identity := []
  msg := Go.str "{}"

/-- The task is issued, scheduled, run and reported. -/
def askAndReport : List (ServiceStep Unit ℕ Unit) :=
  [.receive issueOne, .handle 0 0, .schedule (.dispatch .start), .schedule (.dispatch .tick),
    .schedule (.dispatch .tick),
    .dispatch 0 0 ⟨unknownProtocol.metrics, none, none⟩ ⟨.listed _ _, .insertion _⟩ .listed 0,
    .loop 0 true none, .loop 0 true none, .collect 0 0 .unreachable, .loop 0 true none,
    .loop 0 true none, .loop 0 true (some ⟨true, fun _ => none⟩), .loop 0 true none, .finish 0]

end Service

end HertzBeat
