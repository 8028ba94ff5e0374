import HertzBeat.Param.Passwords
import HertzBeat.Transport.Runner

/-!
# Messages from the manager and their processors

`internal/transport/processors.go`, and the part of the Netty client that hands a
message to its processor: what the collector does on a message from the manager. The
state it acts on is the secret that passwords are decrypted with, and the scheduler.

The decoding of the payloads is a parameter, `HertzBeat.Json`, and so is the block
cipher; the results hold whatever they do. A processor that panics takes the whole
collector down, since nothing recovers in the goroutine it runs in.

The processors of `GO_OFFLINE` and `GO_CLOSE` act on the connection only, which is
not part of the state here.
-/

namespace HertzBeat

open Go (Str BlockCipher)

/-! ### Messages -/

/-- The types of messages, with those the protocol does not know. -/
inductive MessageType where
  | heartbeat
  | goOnline
  | goOffline
  | goClose
  | issueCyclicTask
  | deleteCyclicTask
  | issueOneTimeTask
  | responseOneTimeTaskData
  | responseCyclicTaskData
  | responseCyclicTaskSdData
  | unknown (n : ℤ)
  deriving DecidableEq, Repr

/-- Whether a message asks or answers, with the directions the protocol does not know. -/
inductive Direction where
  | request
  | response
  | unknown (n : ℤ)
  deriving DecidableEq, Repr

/-- A message. -/
structure Message where
  type : MessageType
  direction : Direction
  identity : Str
  msg : Str
  deriving DecidableEq, Repr

/-- The answer of a processor to a message. -/
def Message.answer (m : Message) (type : MessageType) (msg : Str) : Message where
  type := type
  direction := .response
  identity := m.identity
  msg := msg

/-- `json.Unmarshal` into the types the processors decode into. An error is its
text. -/
structure Json where
  /-- The `aesSecret` of a server's information. -/
  aesSecret : Str → Except Str Str
  job : Str → Except Str Job
  jobIDs : Str → Except Str (List ℤ)
  jobID : Str → Except Str ℤ

/-! ### The processors -/

/-- What the processors act on. -/
structure Collector where
  /-- The AES secret; empty while none is set. -/
  secretKey : Str
  /-- The job scheduler, or nil. -/
  scheduler : Option Runner

namespace Collector

variable (aes : BlockCipher) (json : Json)

/-- The secret that a `GO_ONLINE` message sets, if it sets one. -/
def announcedSecret (m : Message) : Option Str :=
  if m.msg = [] then none
  else match json.aesSecret m.msg with
    | .error _ => none
    | .ok secret => if secret = [] then none else some secret

/-- `GoOnlineProcessor.Process`. -/
def goOnline (c : Collector) (m : Message) : Collector × Message :=
  ({ c with secretKey := (announcedSecret json m).getD c.secretKey },
    m.answer .goOnline (Go.str "online ack"))

/-- The job that is scheduled for one that was received, decrypted and marked as cyclic
or not. -/
def prepareJob (secretKey : Str) (isCyclic : Bool) (job : Job) : Job :=
  { Replacer.preprocessJobPasswords aes secretKey job with isCyclic := isCyclic }

/-- The processors of the two kinds of tasks: what differs is the type of the answer,
the mark of the job, and the text that reports success. -/
def issueTask (type : MessageType) (isCyclic : Bool) (scheduled : Str) (c : Collector)
    (m : Message) (now : ℤ) : Except Go.Panic (Collector × Message) :=
  match c.scheduler with
  | none => .ok (c, m.answer type (Go.str "no job scheduler available"))
  | some r =>
    match json.job m.msg with
    | .error err => .ok (c, m.answer type (Go.str "failed to parse job: " ++ err))
    | .ok job =>
      match r.addAsyncCollectJob (some (prepareJob aes c.secretKey isCyclic job)) now with
      | .error p => .error p
      | .ok (r, some err) =>
        .ok ({ c with scheduler := some r },
          m.answer type (Go.str "failed to schedule job: " ++ err))
      | .ok (r, none) => .ok ({ c with scheduler := some r }, m.answer type scheduled)

/-- `CollectCyclicDataProcessor.Process`. -/
def issueCyclicTask := issueTask aes json .issueCyclicTask true
  (Go.str "cyclic task scheduled successfully")

/-- `CollectOneTimeDataProcessor.Process`. -/
def issueOneTimeTask := issueTask aes json .issueOneTimeTask false
  (Go.str "one-time task scheduled successfully")

/-- The ids of a `DELETE_CYCLIC_TASK` message: an array, or else a single one. -/
def deletedIDs (m : Message) : Except Str (List ℤ) :=
  match json.jobIDs m.msg with
  | .ok ids => .ok ids
  | .error err =>
    match json.jobID m.msg with
    | .ok id => .ok [id]
    -- the error reported is that of the first attempt
    | .error _ => .error err

/-- The loop of `DeleteCyclicTaskProcessor.Process`: an id that cannot be removed is
noted and the loop goes on. -/
def removeJobs : Runner → List ℤ → Except Go.Panic (Runner × List Str)
  | r, [] => .ok (r, [])
  | r, id :: ids =>
    match r.removeAsyncCollectJob id with
    | .error p => .error p
    | .ok (r, err) =>
      match removeJobs r ids with
      | .error p => .error p
      | .ok (r, errors) =>
        .ok (r, (err.map fun err => Go.str "job " ++ Go.itoa id ++ Go.str ": " ++ err).toList ++
          errors)

/-- `DeleteCyclicTaskProcessor.Process`. -/
def deleteCyclicTask (c : Collector) (m : Message) : Except Go.Panic (Collector × Message) :=
  match c.scheduler with
  | none => .ok (c, m.answer .deleteCyclicTask (Go.str "no job scheduler available"))
  | some r =>
    match deletedIDs json m with
    | .error err =>
      .ok (c, m.answer .deleteCyclicTask (Go.str "failed to parse job IDs: " ++ err))
    | .ok ids =>
      match removeJobs r ids with
      | .error p => .error p
      | .ok (r, errors) =>
        .ok ({ c with scheduler := some r }, m.answer .deleteCyclicTask
          (if errors = [] then Go.str "all cyclic tasks removed successfully"
          else Go.str "partially completed, errors: [" ++ Go.spaced errors ++ Go.str "]"))

/-- The processor registered for the type of a message, run at a time. `none` in place of
the answer is nil, and a type without a processor has no effect. -/
def process (c : Collector) (m : Message) (now : ℤ) :
    Except Go.Panic (Collector × Option Message) :=
  match m.type with
  | .heartbeat => .ok (c, none)
  | .goOnline =>
    let (c, answer) := goOnline json c m
    .ok (c, some answer)
  | .goOffline => .ok (c, some (m.answer .goOffline (Go.str "offline ack")))
  | .goClose => .ok (c, some (m.answer .goClose (Go.str "close ack")))
  | .issueCyclicTask => (issueCyclicTask aes json c m now).map fun p => (p.1, some p.2)
  | .issueOneTimeTask => (issueOneTimeTask aes json c m now).map fun p => (p.1, some p.2)
  | .deleteCyclicTask => (deleteCyclicTask json c m).map fun p => (p.1, some p.2)
  | _ => .ok (c, none)

end Collector

/-! ### The reader of a connection -/

/-- Whether `RegisterDefaultNettyProcessors` registers a processor for a type. -/
def MessageType.registered : MessageType → Bool
  | .heartbeat | .goOnline | .goOffline | .goClose | .issueCyclicTask | .deleteCyclicTask
  | .issueOneTimeTask => true
  | _ => false

/-- A message as the reader takes it: with the identities that calls are waiting for an
answer to at this moment. -/
structure Arrival where
  message : Message
  responseTable : List Str

/-- `processReceivedMessage`: the message that a goroutine is started for, if it is
neither the answer to a waiting call nor of a type without a processor. -/
def processReceivedMessage (a : Arrival) : Option Message :=
  -- an answer nobody waits for goes to the processor of its type
  if a.message.direction = .response ∧ a.responseTable.contains a.message.identity then none
  else if a.message.type.registered then some a.message
  else none

/-- The messages that goroutines are started for, in arrival order. -/
def handled (arrivals : List Arrival) : List Message := arrivals.filterMap processReceivedMessage

namespace Collector

variable (aes : BlockCipher) (json : Json)

/-- A goroutine runs the processor of its message. `none` when it panics. -/
def handle (c : Collector) (m : Message) (now : ℤ) : Option Collector :=
  ((c.process aes json m now).toOption).map Prod.fst

/-- **The goroutines run**, one after the other in the order in which they get to, each
at its time. -/
def runHandlers (c : Collector) (hs : List (Message × ℤ)) : Option Collector :=
  hs.foldlM (fun c h => c.handle aes json h.1 h.2) c

end Collector

end HertzBeat
