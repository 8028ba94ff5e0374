import HertzBeat.Transport.Wire

/-!
# What the clients send back

The two implementations of `processReceivedMessage`, `internal/transport/grpc_client.go` and
`internal/transport/netty_client.go`, as far as they send something to the manager. Both look
the type of a message up in the same kind of registry and run the processor they find; what
differs is what becomes of its response.

A processor returns a value of an interface type, and so a nil message is not a nil response.
The processor of heartbeats returns one.
-/

namespace HertzBeat

open Go (Str BlockCipher)

/-- A response as an interface value: nil, a pointer to a message, or something else. -/
inductive Response where
  | nil
  | message (m : Option Message)
  | other
  deriving DecidableEq

/-- Nil, or a nil pointer to a message. -/
def Response.isNil : Response → Bool
  | .nil => true
  | .message none => true
  | _ => false

/-- `ProcessorFunc`: the response and the error that a processor returns on a message. A
processor that panics returns nothing. -/
abbrev ProcessorFunc := Message → Option (Response × Option Str)

/-- `ProcessorRegistry`: the processors under the numbers of their types. -/
abbrev ProcessorRegistry := Go.Map ℤ ProcessorFunc

/-- The processor of a message, unless the message is the response to a call that waits. -/
def Arrival.processor (registry : ProcessorRegistry) (a : Arrival) : Option ProcessorFunc :=
  if a.message.direction = .response ∧ a.responseTable.contains a.message.identity then none
  else registry.lookup a.message.type.number

/-- What a client does with a message. -/
structure Handling where
  /-- What the processor returned, if one was run: nothing, if it panicked. -/
  ran : Option (Option (Response × Option Str))
  /-- The messages that are sent to the manager. -/
  sent : List Message
  deriving DecidableEq

/-- `GrpcClient.processReceivedMessage`: the processor is run for its effects, and what it
returns is dropped. -/
def GrpcClient.processReceivedMessage (registry : ProcessorRegistry) (a : Arrival) : Handling where
  ran := (a.processor registry).map fun fn => fn a.message
  sent := []

/-- `NettyClient.processReceivedMessage`. -/
def NettyClient.processReceivedMessage (registry : ProcessorRegistry) (a : Arrival) : Handling :=
  match a.processor registry with
  | none => ⟨none, []⟩
  | some fn =>
    ⟨some (fn a.message),
      if a.message.direction = .request then
        match fn a.message with
        | none => []
        | some (_, some _) => []
        | some (.message (some m), none) => [m]
        | some (_, none) => []
      else []⟩

/-! ### What is to be sent -/

/-- A message is to be answered with a response: it is a request, and the processor of its
type returns the response, which is not nil, without an error. -/
def ToBeAnswered (registry : ProcessorRegistry) (m : Message) (r : Response) : Prop :=
  m.direction = .request ∧ r.isNil = false ∧
    ∃ fn, registry.lookup m.type.number = some fn ∧ fn m = some (r, none)

/-- **A client answers as it should**: with exactly the response, where there is one to be
sent, and with nothing otherwise. -/
def AnswersRight (registry : ProcessorRegistry) (m : Message) (sent : List Message) : Prop :=
  (∀ r, ToBeAnswered registry m r → sent.map (fun m => .message (some m)) = [r]) ∧
    ((∀ r, ¬ToBeAnswered registry m r) → sent = [])

/-- **Both clients answer alike**, and as they should. -/
def AnswerAlike (registry : ProcessorRegistry) (a : Arrival) : Prop :=
  GrpcClient.processReceivedMessage registry a = NettyClient.processReceivedMessage registry a ∧
    AnswersRight registry a.message (GrpcClient.processReceivedMessage registry a).sent ∧
    AnswersRight registry a.message (NettyClient.processReceivedMessage registry a).sent

/-! ### What is sent -/

variable {registry : ProcessorRegistry} {a : Arrival}

/-- A request is never taken for the response to a call. -/
theorem processor_of_request (h : a.message.direction = .request) :
    a.processor registry = registry.lookup a.message.type.number := by
  simp [Arrival.processor, h]

/-- **Both clients run the same processor**, so they can differ in what they send only. -/
theorem processReceivedMessage_eq_iff :
    GrpcClient.processReceivedMessage registry a = NettyClient.processReceivedMessage registry a ↔
      (NettyClient.processReceivedMessage registry a).sent = [] := by
  simp only [GrpcClient.processReceivedMessage, NettyClient.processReceivedMessage]
  cases a.processor registry with
  | none => simp
  | some fn =>
    rw [Option.map_some, Handling.mk.injEq]
    exact (and_iff_right rfl).trans eq_comm

/-- The Netty client sends the message that answers a request. -/
theorem NettyClient.sent_eq_singleton_iff {m : Message} :
    (NettyClient.processReceivedMessage registry a).sent = [m] ↔
      ToBeAnswered registry a.message (.message (some m)) := by
  by_cases hrequest : a.message.direction = .request
  · simp only [NettyClient.processReceivedMessage, processor_of_request hrequest, ToBeAnswered,
      hrequest, Response.isNil, true_and, if_true]
    cases registry.lookup a.message.type.number with
    | none => simp
    | some fn =>
      simp only [Option.some.injEq, exists_eq_left']
      split <;> simp_all
  · have hnil : (NettyClient.processReceivedMessage registry a).sent = [] := by
      rw [NettyClient.processReceivedMessage]
      split
      · rfl
      · exact if_neg hrequest
    simp [hnil, ToBeAnswered, hrequest]

/-- The Netty client sends at most one message. -/
theorem NettyClient.sent_cases (registry : ProcessorRegistry) (a : Arrival) :
    (NettyClient.processReceivedMessage registry a).sent = [] ∨
      ∃ m, (NettyClient.processReceivedMessage registry a).sent = [m] := by
  simp only [NettyClient.processReceivedMessage]
  repeat' split
  all_goals simp

/-- Where the response is a message, **the Netty client answers as it should**. -/
theorem NettyClient.answersRight
    (hmessage : ∀ r, ToBeAnswered registry a.message r → ∃ m, r = .message (some m)) :
    AnswersRight registry a.message (NettyClient.processReceivedMessage registry a).sent := by
  refine ⟨fun r hr => ?_, fun hnone => ?_⟩
  · obtain ⟨m, rfl⟩ := hmessage r hr
    rw [NettyClient.sent_eq_singleton_iff.mpr hr, List.map_singleton]
  · rcases NettyClient.sent_cases registry a with hnil | ⟨m, hm⟩
    · exact hnil
    · exact absurd (NettyClient.sent_eq_singleton_iff.mp hm) (hnone _)

/-- The gRPC client never answers as it should where there is something to be answered. -/
theorem GrpcClient.not_answersRight {r : Response} (hr : ToBeAnswered registry a.message r) :
    ¬AnswersRight registry a.message (GrpcClient.processReceivedMessage registry a).sent := by
  intro hright
  have hsent : [] = [r] := hright.1 r hr
  exact absurd hsent (by simp)

/-- **The clients answer alike exactly where there is nothing to be answered.** -/
theorem answerAlike_iff (registry : ProcessorRegistry) (a : Arrival) :
    AnswerAlike registry a ↔ ∀ r, ¬ToBeAnswered registry a.message r := by
  constructor
  · rintro ⟨-, hgrpc, -⟩ r hr
    exact GrpcClient.not_answersRight hr hgrpc
  · intro hnone
    have hnetty := NettyClient.answersRight fun r hr => absurd hr (hnone r)
    exact ⟨processReceivedMessage_eq_iff.mpr (hnetty.2 hnone),
      ⟨fun r hr => absurd hr (hnone r), fun _ => rfl⟩, hnetty⟩

/-! ### The default processors -/

namespace Collector

variable (aes : BlockCipher) (json : Json)

/-- A processor of `Collector.process` as it is registered: the pointer that it returns is put
into an interface value. -/
def processorFunc (c : Collector) (now : ℤ) : ProcessorFunc := fun m =>
  (c.process aes json m now).toOption.map fun p => (.message p.2, none)

/-- The types with a default processor. -/
def defaultTypes : List MessageType :=
  [.heartbeat, .goOnline, .goOffline, .goClose, .issueCyclicTask, .deleteCyclicTask,
    .issueOneTimeTask]

/-- `RegisterDefaultProcessors`, and `RegisterDefaultNettyProcessors`. -/
def registerDefaultProcessors (c : Collector) (now : ℤ) : ProcessorRegistry :=
  defaultTypes.foldl (fun registry t => registry.insert t.number (c.processorFunc aes json now)) ∅

variable {aes json} {c : Collector} {now : ℤ}

theorem mem_defaultTypes_iff {t : MessageType} : t ∈ defaultTypes ↔ t.registered = true := by
  cases t <;> simp [defaultTypes, MessageType.registered]

theorem lookup_registerDefaultProcessors {t : MessageType} (h : t.registered = true) :
    (c.registerDefaultProcessors aes json now).lookup t.number =
      some (c.processorFunc aes json now) :=
  Go.lookup_foldl_insert_of_mem (by decide) (mem_defaultTypes_iff.mpr h) _

theorem lookup_registerDefaultProcessors_eq_none {t : MessageType} (hvalid : t.Valid)
    (h : t.registered = false) :
    (c.registerDefaultProcessors aes json now).lookup t.number = none := by
  refine Go.lookup_foldl_insert_of_notMem (fun hmem => ?_) _
  obtain ⟨t', ht', hnumber⟩ := List.mem_map.mp hmem
  -- a type is known from its number
  have hof : ∀ t' ∈ defaultTypes, MessageType.ofNumber t'.number = t' := by decide
  have ht : t' = t := by rw [← hof t' ht', hnumber, hvalid.1]
  rw [← ht, mem_defaultTypes_iff.mp ht'] at h
  contradiction

/-- **The clients with the default processors start what the reader hands on**: a goroutine runs
the processor of the message, if there is one. -/
theorem processor_registerDefaultProcessors {a : Arrival} (hvalid : a.message.type.Valid) :
    a.processor (c.registerDefaultProcessors aes json now) =
      (processReceivedMessage a).map fun _ => c.processorFunc aes json now := by
  simp only [Arrival.processor, processReceivedMessage]
  split_ifs with hanswer hregistered
  · rfl
  · exact lookup_registerDefaultProcessors hregistered
  · exact lookup_registerDefaultProcessors_eq_none hvalid (by simpa using hregistered)

/-- A request is to be answered with what its default processor returns, unless that is
nil. -/
theorem toBeAnswered_of_process {m answer : Message} {c' : Collector}
    (hrequest : m.direction = .request) (htype : m.type.registered = true)
    (hprocess : c.process aes json m now = .ok (c', some answer)) :
    ToBeAnswered (c.registerDefaultProcessors aes json now) m (.message (some answer)) := by
  refine ⟨hrequest, rfl, _, lookup_registerDefaultProcessors htype, ?_⟩
  simp [processorFunc, hprocess, Except.toOption]

/-- **The default processors are enough for the clients to differ**, whatever the collector
has done before: a manager that asks for `GO_ONLINE` is answered by the Netty client only. -/
theorem answers_differ_goOnline (aes : BlockCipher) (json : Json) (c : Collector) (now : ℤ) :
    ¬AnswerAlike (c.registerDefaultProcessors aes json now)
      ⟨⟨.goOnline, .request, Go.str "collector-go", []⟩, []⟩ := by
  intro hall
  have hanswer := @toBeAnswered_of_process aes json c now
    ⟨.goOnline, .request, Go.str "collector-go", []⟩ _ _ rfl rfl rfl
  exact GrpcClient.not_answersRight hanswer hall.2.1

/-- So they differ for a collector that has just started. -/
theorem not_answerAlike_goOnline :
    ¬AnswerAlike (registerDefaultProcessors ⟨fun _ block => block⟩
        ⟨fun _ => .error [], fun _ => .error [], fun _ => .error [], fun _ => .error []⟩
        ⟨[], none⟩ 0)
      ⟨⟨.goOnline, .request, Go.str "collector-go", []⟩, []⟩ :=
  answers_differ_goOnline _ _ _ _

end Collector

end HertzBeat
