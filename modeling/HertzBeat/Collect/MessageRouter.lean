import HertzBeat.Collect.ArrowRecord
import HertzBeat.Transport.Processors
import Mathlib.Data.Countable.Basic
import Mathlib.Logic.Equiv.List

/-!
# What reaches the manager

The result handler and the message router of `internal/job/collect`: a result is written as one
Arrow stream behind a count, and sent as the body of a message. The writer of the streams belongs
to the Arrow library and is a parameter too, `HertzBeat.IPC`, of which nothing is used but that it
is injective.

## What the wire does not carry

The body tells two results apart exactly where they differ in what `createArrowRecordBatch` puts
into the record (`HertzBeat.createArrowRecordBatch_eq_iff`), and neither the code nor the message
of a result is among it. So a body determines them exactly for results that differ elsewhere
whenever they differ there (`HertzBeat.status_of_body_iff`); a collection that failed looks like
one that succeeded and found nothing.
-/

namespace HertzBeat

open Go (Str)

/-! ### The writer of Arrow streams -/

/-- The Arrow library with its writer of streams: an injective encoding of records. -/
structure IPC extends Arrow where
  write : ArrowRecord → Str
  injective : Function.Injective write

/-- There are such writers: the records are countable. -/
theorem exists_injective_write : ∃ write : ArrowRecord → Str, Function.Injective write := by
  have htoNat : Function.Injective UInt8.toNat := fun _ _ h => UInt8.toNat_inj.mp h
  have hbytes : Countable UInt8 := htoNat.countable
  have hrecords : Function.Injective fun record : ArrowRecord =>
      (record.schema.fields.map fun f => (f.name, f.nullable, f.metadata),
        record.schema.metadata, record.columns, record.rows) := by
    rintro ⟨⟨fields, metadata⟩, columns, rows, hfits⟩
      ⟨⟨fields', metadata'⟩, columns', rows', hfits'⟩
    simp only [Prod.mk.injEq]
    rintro ⟨hfields, rfl, rfl, rfl⟩
    have hinj : Function.Injective fun f : ArrowField => (f.name, f.nullable, f.metadata) := by
      rintro ⟨n, b, m⟩ ⟨n', b', m'⟩ heq
      simpa only [Prod.mk.injEq, ArrowField.mk.injEq] using heq
    obtain rfl := List.map_injective_iff.mpr hinj hfields
    rfl
  have hcountable : Countable ArrowRecord := hrecords.countable
  obtain ⟨code, hcode⟩ := exists_injective_nat ArrowRecord
  refine ⟨fun record => List.replicate (code record) 0, fun r r' h => hcode ?_⟩
  simpa using congrArg List.length h

/-! ### The router -/

/-- `binary.Write` of an `int32` in big-endian order. -/
def writeInt32 (n : ℤ) : Str :=
  let bits := (n % 2 ^ 32).toNat
  [UInt8.ofNat (bits / 2 ^ 24), UInt8.ofNat (bits / 2 ^ 16), UInt8.ofNat (bits / 2 ^ 8),
    UInt8.ofNat bits]

/-- `serializeToArrow`: the number of results, and one stream for each. -/
def serializeToArrow (ipc : IPC) (dataList : List CollectRepMetricsData) :
    Except RecordPanic Str := do
  let streams ← dataList.mapM fun data => do
    let recordBatch ← createArrowRecordBatch ipc.toArrow data
    return ipc.write recordBatch
  return writeInt32 dataList.length ++ streams.flatten

/-- A transport client: whether it is started, and the error of `SendMsg`, if it has one. -/
structure TransportClient where
  isStarted : Bool
  sendMsg : Message → Option Str

/-- The router, with the client that its transport runner has at the moment. -/
structure LazyMessageRouter where
  identity : Str
  getClient : Option TransportClient
  ipc : IPC

namespace LazyMessageRouter

/-- `NewLazyMessageRouter`. -/
def new (identity : Str) (getClient : Option TransportClient) (ipc : IPC) : LazyMessageRouter where
  identity := if identity = [] then Go.str "collector-go" else identity
  getClient := getClient
  ipc := ipc

/-- `sendResultDirectly`: the message that is handed to the client, and the error that comes
back. -/
def sendResultDirectly (router : LazyMessageRouter) (data : CollectRepMetricsData) (job : Job)
    (client : TransportClient) : Except RecordPanic (Message × Option Str) := do
  let msgType : MessageType :=
    if job.isCyclic then .responseCyclicTaskData else .responseOneTimeTaskData
  let dataBytes ← serializeToArrow router.ipc [data]
  let msg : Message :=
    { type := msgType, direction := .response, identity := router.identity, msg := dataBytes }
  return (msg, (client.sendMsg msg).map (Go.str "failed to send metrics data: " ++ ·))

/-- `SendResult`: the message that is sent, if one is, and the error. -/
def sendResult (router : LazyMessageRouter) (data : CollectRepMetricsData) (job : Job) :
    Except RecordPanic (Option Message × Option Str) :=
  match router.getClient with
  | none => .ok (none, some (Go.str "transport client not ready"))
  | some client =>
    if client.isStarted then do
      let (msg, err) ← router.sendResultDirectly data job client
      return (some msg, err)
    else .ok (none, some (Go.str "transport client not ready"))

end LazyMessageRouter

/-- `HandleCollectData`. -/
def handleCollectData (messageRouter : Option LazyMessageRouter)
    (data : Option CollectRepMetricsData) (job : Job) :
    Except RecordPanic (Option Message × Option Str) :=
  match data with
  | none => .ok (none, some (Go.str "collect data is nil"))
  | some data =>
    match messageRouter with
    | none => .ok (none, some (Go.str "messageRouter is nil"))
    | some router => do
      let (msg, err) ← router.sendResult data job
      return (msg, err.map (Go.str "failed to send result to Manager: " ++ ·))

/-! ### What the wire carries -/

/-- **Two results that the wire does not tell apart**: they agree on all that goes into the
record. A cell that is not there counts as empty, and no rows count as one. -/
structure SameOnWire (d e : CollectRepMetricsData) : Prop where
  id : d.id = e.id
  tenantId : d.tenantId = e.tenantId
  app : d.app = e.app
  metrics : d.metrics = e.metrics
  priority : d.priority = e.priority
  time : d.time = e.time
  fields : d.fields.map (fun f => (f.field, f.type, f.label, f.unit)) =
    e.fields.map (fun f => (f.field, f.type, f.label, f.unit))
  rows : max 1 d.values.length = max 1 e.values.length
  cells : ∀ r i, r < max 1 d.values.length → i < d.fields.length → d.cell r i = e.cell r i

theorem formatBool_injective : Function.Injective formatBool := by decide

section Schema

variable {arrow : Arrow}

/-- What a field of a schema keeps of a field of a result. -/
theorem dynamicField_eq_iff {f g : Field} :
    dynamicField arrow f = dynamicField arrow g ↔
      (f.field, f.type, f.label, f.unit) = (g.field, g.type, g.label, g.unit) := by
  constructor
  · intro h
    have hname : f.field = g.field := congrArg ArrowField.name h
    have hkeys : ∀ f, (fieldEntries f).map Prod.fst =
        [Go.str "type", Go.str "label", Go.str "unit"] := fun _ => rfl
    have hentries : fieldEntries f = fieldEntries g :=
      arrow.eq_of_metadataFrom_eq ((hkeys f).trans (hkeys g).symm) (by rw [hkeys]; decide)
        (congrArg ArrowField.metadata h)
    simp only [fieldEntries, List.cons.injEq, Prod.mk.injEq, true_and, and_true] at hentries
    obtain ⟨htype, hlabel, hunit⟩ := hentries
    rw [hname, Go.itoa_injective htype, formatBool_injective hlabel, hunit]
  · intro h
    simp only [Prod.mk.injEq] at h
    obtain ⟨hname, htype, hlabel, hunit⟩ := h
    rw [dynamicField, dynamicField, fieldEntries, hname, htype, hlabel, hunit]
    rfl

/-- What the schema keeps of the fields. -/
theorem map_dynamicField_eq_iff {fs gs : List Field} :
    fs.map (dynamicField arrow) = gs.map (dynamicField arrow) ↔
      fs.map (fun f => (f.field, f.type, f.label, f.unit)) =
        gs.map (fun f => (f.field, f.type, f.label, f.unit)) := by
  induction fs generalizing gs with
  | nil => cases gs <;> simp
  | cons f fs ih =>
    cases gs with
    | nil => simp
    | cons g gs => rw [List.map_cons, List.map_cons, List.cons.injEq, dynamicField_eq_iff, ih,
        List.map_cons, List.map_cons, List.cons.injEq]

/-- What the metadata of the schema keeps. -/
theorem metadataFrom_schemaEntries_eq_iff {d e : CollectRepMetricsData} :
    arrow.metadataFrom (schemaEntries d) = arrow.metadataFrom (schemaEntries e) ↔
      d.id = e.id ∧ d.tenantId = e.tenantId ∧ d.app = e.app ∧ d.metrics = e.metrics ∧
        d.priority = e.priority ∧ d.time = e.time := by
  have hentries : schemaEntries d = schemaEntries e ↔
      d.id = e.id ∧ d.tenantId = e.tenantId ∧ d.app = e.app ∧ d.metrics = e.metrics ∧
        d.priority = e.priority ∧ d.time = e.time := by
    simp only [schemaEntries, List.cons.injEq, Prod.mk.injEq, true_and, and_true,
      Go.itoa_injective.eq_iff]
  rw [← hentries]
  have hkeys : ∀ d, (schemaEntries d).map Prod.fst =
      [Go.str "id", Go.str "tenantId", Go.str "app", Go.str "metrics", Go.str "priority",
        Go.str "time", Go.str "labels", Go.str "annotations"] := fun _ => rfl
  refine ⟨arrow.eq_of_metadataFrom_eq ((hkeys d).trans (hkeys e).symm) ?_,
    congrArg arrow.metadataFrom⟩
  rw [hkeys]
  decide

end Schema

/-- What the columns keep of the values. -/
theorem columnsUpTo_eq_iff {d e : CollectRepMetricsData}
    (hfields : d.fields.length = e.fields.length) (n : ℕ) :
    columnsUpTo d n = columnsUpTo e n ↔
      ∀ r i, r < n → i < d.fields.length → d.cell r i = e.cell r i := by
  rw [columnsUpTo, columnsUpTo, ← hfields, List.map_inj_left]
  simp only [List.map_inj_left, List.mem_range]
  exact ⟨fun h r i hr hi => h i hi r hr, fun h i hi r hr => h r i hr hi⟩

/-- **What a record keeps of a result**: two results have one record exactly if the wire does not
tell them apart. -/
theorem createArrowRecordBatch_eq_iff {arrow : Arrow} {d e : CollectRepMetricsData} :
    createArrowRecordBatch arrow d = createArrowRecordBatch arrow e ↔ SameOnWire d e := by
  rw [createArrowRecordBatch_eq, createArrowRecordBatch_eq, Except.ok.injEq, ArrowRecord.mk.injEq,
    arrowSchema, arrowSchema, ArrowSchema.mk.injEq, map_dynamicField_eq_iff,
    metadataFrom_schemaEntries_eq_iff, rowCount_eq_max, rowCount_eq_max]
  constructor
  · rintro ⟨⟨hfields, hid, htenantId, happ, hmetrics, hpriority, htime⟩, hcolumns, hrows⟩
    have hlen : d.fields.length = e.fields.length := by simpa using congrArg List.length hfields
    rw [← hrows, columnsUpTo_eq_iff hlen] at hcolumns
    exact ⟨hid, htenantId, happ, hmetrics, hpriority, htime, hfields, hrows, hcolumns⟩
  · intro h
    have hlen : d.fields.length = e.fields.length := by simpa using congrArg List.length h.fields
    refine ⟨⟨h.fields, h.id, h.tenantId, h.app, h.metrics, h.priority, h.time⟩, ?_, h.rows⟩
    rw [← h.rows, columnsUpTo_eq_iff hlen]
    exact h.cells

/-! ### The status of a result -/

/-- The body of the message for a result. -/
def LazyMessageRouter.body (router : LazyMessageRouter) (data : CollectRepMetricsData) (job : Job)
    (client : TransportClient) : Except RecordPanic Str :=
  (router.sendResultDirectly data job client).map fun sent => sent.1.msg

/-- One result is written as the count of one, and the stream of its record. -/
theorem serializeToArrow_singleton (ipc : IPC) (data : CollectRepMetricsData) :
    serializeToArrow ipc [data] =
      (createArrowRecordBatch ipc.toArrow data).map fun record =>
        writeInt32 1 ++ ipc.write record := by
  simp only [serializeToArrow, List.mapM_cons, List.mapM_nil]
  cases createArrowRecordBatch ipc.toArrow data with
  | error p => rfl
  | ok record => simp [bind, Except.bind, pure, Except.pure, Except.map]

theorem body_eq (router : LazyMessageRouter) (data : CollectRepMetricsData) (job : Job)
    (client : TransportClient) :
    router.body data job client =
      (createArrowRecordBatch router.ipc.toArrow data).map fun record =>
        writeInt32 1 ++ router.ipc.write record := by
  simp only [LazyMessageRouter.body, LazyMessageRouter.sendResultDirectly,
    serializeToArrow_singleton]
  cases createArrowRecordBatch router.ipc.toArrow data <;> rfl

/-- Two bodies are equal exactly if the wire does not tell the results apart. -/
theorem body_eq_body_iff (router : LazyMessageRouter) (d e : CollectRepMetricsData) (job : Job)
    (client : TransportClient) :
    router.body d job client = router.body e job client ↔ SameOnWire d e := by
  rw [← @createArrowRecordBatch_eq_iff router.ipc.toArrow, body_eq, body_eq,
    createArrowRecordBatch_eq, createArrowRecordBatch_eq]
  simp only [Except.map, Except.ok.injEq, List.append_cancel_left_eq, router.ipc.injective.eq_iff]

/-- The status of a result can be anything, for all its body tells. -/
theorem body_with_status (router : LazyMessageRouter) (data : CollectRepMetricsData) (job : Job)
    (client : TransportClient) (code : CollectCode) (msg : Str) :
    router.body { data with code := code, msg := msg } job client = router.body data job client :=
  (body_eq_body_iff _ _ _ _ _).mpr ⟨rfl, rfl, rfl, rfl, rfl, rfl, rfl, rfl, fun _ _ _ _ => rfl⟩

/-- **A body determines the status of a result exactly where no other result is encoded like
it**: neither the code nor the message is encoded. For two results it does exactly if they have
one status or differ elsewhere; among all results that there may be, no body does. -/
theorem status_of_body_iff (router : LazyMessageRouter) (d e : CollectRepMetricsData) (job : Job)
    (client : TransportClient) :
    ((router.body d job client = router.body e job client → d.code = e.code ∧ d.msg = e.msg) ↔
      (SameOnWire d e → d.code = e.code ∧ d.msg = e.msg)) ∧
    ¬∀ data, router.body data job client = router.body d job client →
      data.code = d.code ∧ data.msg = d.msg := by
  refine ⟨by rw [body_eq_body_iff], fun hall => ?_⟩
  have hmsg := (hall _ (body_with_status router d job client d.code (0 :: d.msg))).2
  exact absurd (congrArg List.length hmsg) (by simp)

/-- A collection that failed. -/
def refused : CollectRepMetricsData :=
  createFailResponse (.bare (Go.str "cpu") (Go.str "ssh")) 1700000000000 .unConnectable
    (Go.str "connection refused")

/-- A collection of the same metric at the same time that found nothing. -/
def foundNothing : CollectRepMetricsData :=
  createSuccessResponse (.bare (Go.str "cpu") (Go.str "ssh")) 1700000000000

/-- The manager is sent the same for both. -/
theorem body_refused_eq_body_foundNothing :
    refused.code ≠ foundNothing.code ∧ refused.msg ≠ foundNothing.msg ∧
      ∀ (router : LazyMessageRouter) (job : Job) (client : TransportClient),
        router.body refused job client = router.body foundNothing job client := by
  refine ⟨by decide, by decide, fun router job client => ?_⟩
  exact (body_eq_body_iff _ _ _ _ _).mpr
    ⟨rfl, rfl, rfl, rfl, rfl, rfl, rfl, rfl, fun _ _ _ _ => rfl⟩

end HertzBeat
