import HertzBeat.Lib.Run
import HertzBeat.Transport.Processors

/-!
# Synchronous calls and their futures

`SendMsgSync` and the response table of both clients, `internal/transport/grpc_client.go`
and `internal/transport/netty_client.go`. A call registers a future under the identity of
its message, sends the message, waits on the future, and deletes the entry of the identity
when it returns. The receive loop of a connection looks the identity of a response up and
puts the response into the future that it finds.

The table is keyed by the identity of the message, and a collector puts one identity into
all its messages. Nothing in the table tells two calls of one identity apart, nor a call
from the one before it. `HertzBeat.SyncCalls.ownAnswer_of_exec` says that this is the only
thing that goes wrong.

A future is two channels of capacity one. A put into a full channel blocks, so a step that
puts is enabled only while there is room; `HertzBeat.SyncCalls.neverBlocks_of_exec` says
when there always is.
-/

namespace HertzBeat

open Go (Str)

/-- The two clients. -/
inductive ClientKind where
  | grpc
  | netty
  deriving DecidableEq

/-! ### One call -/

/-- A response, and the call whose request it answers. The client does not see the
latter. -/
structure Reply where
  answers : ℕ
  message : Message
  deriving DecidableEq

/-- The errors of a call. -/
inductive SyncError where
  | sendFailed
  | deadlineExceeded
  deriving DecidableEq

/-- What a call returns. -/
inductive SyncResult where
  | message (r : Reply)
  | error (e : SyncError)
  deriving DecidableEq

/-- `ResponseFuture`: what is in its two channels. -/
structure ResponseFuture where
  response : Option Reply
  error : Option SyncError
  deriving DecidableEq

/-- How far a call has come. -/
inductive SyncPhase where
  /-- The future is registered, and the message is being sent. -/
  | sending
  /-- The reply of the unary call carries the identity and is about to be put. -/
  | replied (m : Message)
  /-- The message could not be sent, and the error is about to be put. -/
  | failed
  /-- In `Wait`. -/
  | waiting
  /-- The result is known, and the entry of the table is about to be deleted. -/
  | returning (result : SyncResult)
  | returned (result : SyncResult)
  deriving DecidableEq

/-- A call of `SendMsgSync`, under the identity of its message or the one that was generated
for it. -/
structure SyncCall where
  identity : Str
  future : ResponseFuture
  phase : SyncPhase
  deriving DecidableEq

/-- The steps of a call between its registration and the deletion. -/
inductive CallAction where
  /-- The message is sent. The unary call of gRPC comes with a reply. -/
  | sent (reply : Option Message)
  | sendFails
  | putResponse
  | putError
  /-- `Wait` takes the response. -/
  | takeResponse
  /-- `Wait` takes the error. -/
  | takeError
  /-- `Wait` gives up. -/
  | timeOut
  deriving DecidableEq

/-- The message was sent: only a unary reply with the identity of the request ends the
call. -/
def SyncCall.sent (client : ClientKind) (c : SyncCall) : Option Message → Option SyncCall
  | none => some { c with phase := .waiting }
  | some m =>
    match client with
    | .grpc => some { c with phase := if m.identity = c.identity then .replied m else .waiting }
    | .netty => none

/-- The `i`-th call takes a step, or is not at the point where it could. -/
def SyncCall.step (client : ClientKind) (i : ℕ) (c : SyncCall) : CallAction → Option SyncCall
  | .sent reply =>
    match c.phase with
    | .sending => c.sent client reply
    | _ => none
  | .sendFails =>
    match c.phase with
    | .sending => some { c with phase := .failed }
    | _ => none
  | .putResponse =>
    match c.phase, c.future.response with
    | .replied m, none =>
      some { c with
        future := { c.future with response := some ⟨i, m⟩ }
        phase := .returning (.message ⟨i, m⟩) }
    | _, _ => none
  | .putError =>
    match c.phase, c.future.error with
    | .failed, none =>
      some { c with
        future := { c.future with error := some .sendFailed }
        phase := .returning (.error .sendFailed) }
    | _, _ => none
  | .takeResponse =>
    match c.phase, c.future.response with
    | .waiting, some r =>
      some { c with
        future := { c.future with response := none }
        phase := .returning (.message r) }
    | _, _ => none
  | .takeError =>
    match c.phase, c.future.error with
    | .waiting, some e =>
      some { c with
        future := { c.future with error := none }
        phase := .returning (.error e) }
    | _, _ => none
  | .timeOut =>
    match c.phase with
    | .waiting => some { c with phase := .returning (.error .deadlineExceeded) }
    | _ => none

/-! ### The calls of a client -/

/-- The calls of a client and its receive loops. -/
structure SyncCalls where
  calls : List SyncCall
  /-- The call whose future is registered under an identity. -/
  responseTable : Go.Map Str ℕ
  /-- What each receive loop is about to put, and into the future of which call. A client
  has one loop for each connection that it has made. -/
  receivers : List (Option (ℕ × Reply))

namespace SyncCalls

/-- The steps of the calls, of the receive loops and of the peer. -/
inductive Action where
  /-- A connection is made. -/
  | connect
  /-- A call registers its future. -/
  | register (identity : Str)
  | call (i : ℕ) (a : CallAction)
  /-- The deferred deletion, with which a call returns. -/
  | delete (i : ℕ)
  /-- A receive loop takes a message off its connection, and looks its identity up if it is
  a response. -/
  | arrive (l : ℕ) (r : Reply)
  /-- A receive loop puts a response into the future it has found. -/
  | deliver (l : ℕ)
  deriving DecidableEq

/-- A client before its first connection. -/
def new : SyncCalls where
  calls := []
  responseTable := ∅
  receivers := []

/-- A call that has just registered its future. -/
def newCall (identity : Str) : SyncCall where
  identity := identity
  future := ⟨none, none⟩
  phase := .sending

/-- The future that a received message is put into. -/
def destination (s : SyncCalls) (m : Message) : Option ℕ :=
  if m.direction = .response then s.responseTable.lookup m.identity else none

/-- The peer answers a request that was made, under its identity. -/
def Answers (s : SyncCalls) (r : Reply) : Prop :=
  ∃ c ∈ s.calls[r.answers]?, c.identity = r.message.identity

instance (s : SyncCalls) (r : Reply) : Decidable (s.Answers r) :=
  decidable_of_iff (s.calls[r.answers]?.any fun c => c.identity = r.message.identity) (by
    simp [Answers, Option.any_eq_true])

/-- The client takes a step. -/
def step (client : ClientKind) : Runs.StepFn SyncCalls Action Unit
  | s, .connect => some ({ s with receivers := s.receivers ++ [none] }, [])
  | s, .register identity =>
    some ({ s with
      calls := s.calls ++ [newCall identity]
      responseTable := s.responseTable.insert identity s.calls.length }, [])
  | s, .call i a =>
    (s.calls[i]?).bind fun c => (c.step client i a).map fun c' =>
      ({ s with calls := s.calls.set i c' }, [])
  | s, .delete i =>
    (s.calls[i]?).bind fun c =>
      match c.phase with
      | .returning result =>
        some ({ s with
          calls := s.calls.set i { c with phase := .returned result }
          responseTable := s.responseTable.erase c.identity }, [])
      | _ => none
  | s, .arrive l r =>
    if s.receivers[l]? = some none ∧ s.Answers r then
      some ({ s with
        receivers := s.receivers.set l ((s.destination r.message).map fun f => (f, r)) }, [])
    else none
  | s, .deliver l =>
    match s.receivers[l]? with
    | some (some (f, r)) =>
      (s.calls[f]?).bind fun c =>
        match c.future.response with
        | none =>
          some ({ s with
            calls := s.calls.set f { c with future := { c.future with response := some r } }
            receivers := s.receivers.set l none }, [])
        | some _ => none
    | _ => none

/-! ### The steps, each with what it needs and what it leaves -/

variable {client : ClientKind} {s s' : SyncCalls} {i l : ℕ} {ev : List Unit}

theorem step_call {a : CallAction} (h : step client s (.call i a) = some (s', ev)) :
    ∃ c c', s.calls[i]? = some c ∧ c.step client i a = some c' ∧
      s' = { s with calls := s.calls.set i c' } := by
  simp only [step, Option.bind_eq_some_iff, Option.map_eq_some_iff, Prod.mk.injEq] at h
  obtain ⟨c, hc, c', hstep, rfl, -⟩ := h
  exact ⟨c, c', hc, hstep, rfl⟩

theorem step_delete (h : step client s (.delete i) = some (s', ev)) :
    ∃ c result, s.calls[i]? = some c ∧ c.phase = .returning result ∧
      s' = { s with
        calls := s.calls.set i { c with phase := .returned result }
        responseTable := s.responseTable.erase c.identity } := by
  simp only [step, Option.bind_eq_some_iff] at h
  obtain ⟨c, hc, hphase⟩ := h
  split at hphase
  case h_1 result hreturning =>
    obtain ⟨rfl, -⟩ := Prod.mk.inj (Option.some.inj hphase)
    exact ⟨c, result, hc, hreturning, rfl⟩
  case h_2 => exact absurd hphase (by simp)

theorem step_arrive {r : Reply} (h : step client s (.arrive l r) = some (s', ev)) :
    s.receivers[l]? = some none ∧
      s' = { s with
        receivers := s.receivers.set l ((s.destination r.message).map fun f => (f, r)) } := by
  rw [step] at h
  split at h
  case isTrue henabled =>
    obtain ⟨rfl, -⟩ := Prod.mk.inj (Option.some.inj h)
    exact ⟨henabled.1, rfl⟩
  case isFalse => exact absurd h (by simp)

theorem step_deliver (h : step client s (.deliver l) = some (s', ev)) :
    ∃ f r c, s.receivers[l]? = some (some (f, r)) ∧ s.calls[f]? = some c ∧
      c.future.response = none ∧
      s' = { s with
        calls := s.calls.set f { c with future := { c.future with response := some r } }
        receivers := s.receivers.set l none } := by
  rw [step] at h
  split at h
  case h_1 f r hl =>
    obtain ⟨c, hc, hput⟩ := Option.bind_eq_some_iff.mp h
    split at hput
    case h_1 hempty =>
      obtain ⟨rfl, -⟩ := Prod.mk.inj (Option.some.inj hput)
      exact ⟨f, r, c, hl, hc, hempty, rfl⟩
    case h_2 => exact absurd hput (by simp)
  case h_2 => exact absurd h (by simp)

/-- A call after one of them was replaced is the new one, or was there before. -/
theorem getElem?_of_getElem?_set {calls : List SyncCall} {f : ℕ} {c c' d : SyncCall}
    (hf : calls[f]? = some c) (hd : (calls.set f c')[i]? = some d) :
    i = f ∧ d = c' ∨ i ≠ f ∧ calls[i]? = some d := by
  rcases eq_or_ne i f with rfl | hne
  · have hlt := (List.getElem?_eq_some_iff.mp hf).1
    rw [List.getElem?_set_self hlt] at hd
    exact .inl ⟨rfl, (Option.some.inj hd).symm⟩
  · rw [List.getElem?_set_ne hne.symm] at hd
    exact .inr ⟨hne, hd⟩

end SyncCalls

/-! ### Whose answer a call returns -/

/-- A call is under way until it has deleted its entry. -/
def SyncPhase.isUnderWay : SyncPhase → Bool
  | .returned _ => false
  | _ => true

/-- The result of a call, once it is known. -/
def SyncPhase.result : SyncPhase → Option SyncResult
  | .returning result => some result
  | .returned result => some result
  | _ => none

/-- The future of the `i`-th call and its result hold no response but its own. -/
def SyncCall.Own (i : ℕ) (c : SyncCall) : Prop :=
  ∀ r, c.future.response = some r ∨ c.phase.result = some (.message r) → r.answers = i

namespace SyncCall

variable {client : ClientKind} {i : ℕ} {a : CallAction} {c c' : SyncCall}

/-- The steps of a call. -/
theorem step_cases (h : c.step client i a = some c') :
    (c.phase = .sending ∧ (c' = { c with phase := .waiting } ∨ c' = { c with phase := .failed } ∨
      ∃ m, a = .sent (some m) ∧ m.identity = c.identity ∧ c' = { c with phase := .replied m })) ∨
    (∃ m, c.phase = .replied m ∧ c.future.response = none ∧
      c' = ⟨c.identity, ⟨some ⟨i, m⟩, c.future.error⟩, .returning (.message ⟨i, m⟩)⟩) ∨
    (c.phase = .failed ∧ c.future.error = none ∧
      c' = ⟨c.identity, ⟨c.future.response, some .sendFailed⟩,
        .returning (.error .sendFailed)⟩) ∨
    (c.phase = .waiting ∧ ∃ response error result,
      c' = ⟨c.identity, ⟨response, error⟩, .returning result⟩ ∧
        (response = none ∨ response = c.future.response) ∧
        (error = none ∨ error = c.future.error) ∧
        ∀ r, result = .message r → c.future.response = some r) := by
  cases a with
  | sent reply =>
    simp only [step] at h
    split at h
    case h_2 => simp at h
    case h_1 hsending =>
      refine .inl ⟨hsending, ?_⟩
      cases reply with
      | none => exact .inl (Option.some.inj h).symm
      | some m =>
        cases client with
        | netty => simp [sent] at h
        | grpc =>
          have hc' := (Option.some.inj h).symm
          by_cases hid : m.identity = c.identity
          · rw [if_pos hid] at hc'
            exact .inr (.inr ⟨m, rfl, hid, hc'⟩)
          · rw [if_neg hid] at hc'
            exact .inl hc'
  | sendFails =>
    simp only [step] at h
    split at h
    case h_1 hsending => exact .inl ⟨hsending, .inr (.inl (Option.some.inj h).symm)⟩
    case h_2 => simp at h
  | putResponse =>
    simp only [step] at h
    split at h
    case h_1 m hreplied hempty =>
      exact .inr (.inl ⟨m, hreplied, hempty, (Option.some.inj h).symm⟩)
    case h_2 => simp at h
  | putError =>
    simp only [step] at h
    split at h
    case h_1 hfailed hempty =>
      exact .inr (.inr (.inl ⟨hfailed, hempty, (Option.some.inj h).symm⟩))
    case h_2 => simp at h
  | takeResponse =>
    simp only [step] at h
    split at h
    case h_1 r hwaiting hr =>
      refine .inr (.inr (.inr ⟨hwaiting, none, c.future.error, .message r,
        (Option.some.inj h).symm, .inl rfl, .inr rfl, ?_⟩))
      rintro r' ⟨⟩
      exact hr
    case h_2 => simp at h
  | takeError =>
    simp only [step] at h
    split at h
    case h_1 e hwaiting he =>
      exact .inr (.inr (.inr ⟨hwaiting, c.future.response, none, .error e,
        (Option.some.inj h).symm, .inr rfl, .inl rfl, by simp⟩))
    case h_2 => simp at h
  | timeOut =>
    simp only [step] at h
    split at h
    case h_1 hwaiting =>
      exact .inr (.inr (.inr ⟨hwaiting, c.future.response, c.future.error,
        .error .deadlineExceeded, (Option.some.inj h).symm, .inr rfl, .inr rfl, by simp⟩))
    case h_2 => simp at h

theorem identity_step (h : c.step client i a = some c') : c'.identity = c.identity := by
  rcases step_cases h with ⟨-, rfl | rfl | ⟨m, -, -, rfl⟩⟩ | ⟨m, -, -, rfl⟩ | ⟨-, -, rfl⟩ |
    ⟨-, response, error, result, rfl, -⟩ <;> rfl

/-- A call that takes a step was under way, and stays it. -/
theorem isUnderWay_step (h : c.step client i a = some c') :
    c.phase.isUnderWay = true ∧ c'.phase.isUnderWay = true := by
  rcases step_cases h with ⟨hp, rfl | rfl | ⟨m, -, -, rfl⟩⟩ | ⟨m, hp, -, rfl⟩ | ⟨hp, -, rfl⟩ |
    ⟨hp, response, error, result, rfl, -⟩ <;> exact ⟨by rw [hp]; rfl, rfl⟩

theorem Own.step (hown : Own i c) (h : c.step client i a = some c') : Own i c' := by
  intro r hr
  rcases step_cases h with ⟨-, rfl | rfl | ⟨m, -, -, rfl⟩⟩ | ⟨m, -, -, rfl⟩ | ⟨-, -, rfl⟩ |
    ⟨-, response, error, result, rfl, hresponse, -, hresult⟩
  -- before it waits, the call changes its phase only
  · exact hown r (.inl (by simpa [SyncPhase.result] using hr))
  · exact hown r (.inl (by simpa [SyncPhase.result] using hr))
  · exact hown r (.inl (by simpa [SyncPhase.result] using hr))
  -- the unary reply is its own
  · obtain rfl : (⟨i, m⟩ : Reply) = r := by simpa [SyncPhase.result] using hr
    rfl
  · exact hown r (.inl (by simpa [SyncPhase.result] using hr))
  -- what `Wait` returns was in the future
  · rcases hr with hr | hr
    · refine hown r (.inl ?_)
      rcases hresponse with rfl | rfl
      · simp at hr
      · exact hr
    · exact hown r (.inl (hresult r (Option.some.inj hr)))

end SyncCall

namespace SyncCalls

variable {client : ClientKind} {s s' : SyncCalls} {ev : List Unit}

/-- **Every call gets its own answer**: a call that returns a message returns the response
to its own request, and while it waits its future is registered under its identity. -/
def OwnAnswer (s : SyncCalls) : Prop :=
  ∀ i c, s.calls[i]? = some c →
    (∀ r, c.phase.result = some (.message r) → r.answers = i) ∧
      (c.phase = .waiting → s.responseTable.lookup c.identity = some i)

/-- **No two calls are taken for one another**: a call registers an identity while no call of
this identity is under way, and a response arrives while no call of its identity is under
way but the one it answers. -/
def Distinct (s : SyncCalls) : Action → Prop
  | .register identity => ∀ c ∈ s.calls, c.phase.isUnderWay = true → c.identity ≠ identity
  | .arrive _ r => ∀ i < s.calls.length, ∀ c ∈ s.calls[i]?, c.phase.isUnderWay = true →
      c.identity = r.message.identity → i = r.answers
  | _ => True

instance (s : SyncCalls) (a : Action) : Decidable (Distinct s a) := by
  cases a <;> unfold Distinct <;> infer_instance

/-- The invariant: the table holds the calls that are under way, and every response is with
the call that it answers. -/
structure Orderly (s : SyncCalls) : Prop where
  registered : ∀ i c, s.calls[i]? = some c → c.phase.isUnderWay = true →
    s.responseTable.lookup c.identity = some i
  underWay : ∀ k i, s.responseTable.lookup k = some i →
    ∃ c, s.calls[i]? = some c ∧ c.phase.isUnderWay = true ∧ c.identity = k
  own : ∀ i (c : SyncCall), s.calls[i]? = some c → c.Own i
  deliveries : ∀ f r, some (f, r) ∈ s.receivers → r.answers = f

theorem orderly_new : Orderly new where
  registered := by simp [new]
  underWay := by simp [new]
  own := by simp [new]
  deliveries := by simp [new]

theorem Orderly.connect (h : Orderly s) :
    Orderly { s with receivers := s.receivers ++ [none] } where
  registered := h.registered
  underWay := h.underWay
  own := h.own
  deliveries := fun f r hr => h.deliveries f r (by simpa using hr)

theorem getElem?_concat {calls : List SyncCall} {c d : SyncCall} {i : ℕ}
    (h : (calls ++ [c])[i]? = some d) : calls[i]? = some d ∨ i = calls.length ∧ d = c := by
  rw [List.getElem?_append] at h
  split at h
  · exact .inl h
  · obtain ⟨hi, rfl⟩ : i - calls.length = 0 ∧ c = d := by
      simpa [List.getElem?_singleton] using h
    exact .inr ⟨by omega, rfl⟩

theorem Orderly.register (h : Orderly s) {identity : Str}
    (hdistinct : Distinct s (.register identity)) :
    Orderly { s with
      calls := s.calls ++ [newCall identity]
      responseTable := s.responseTable.insert identity s.calls.length } where
  registered := by
    intro i c hc hunder
    rcases getElem?_concat hc with hold | ⟨rfl, rfl⟩
    · have hne := hdistinct c (List.mem_of_getElem? hold) hunder
      rw [AList.lookup_insert_ne hne]
      exact h.registered i c hold hunder
    · exact AList.lookup_insert _
  underWay := by
    intro k i hk
    rcases Go.lookup_of_lookup_insert hk with ⟨rfl, rfl⟩ | hold
    · exact ⟨newCall k, by simp, rfl, rfl⟩
    · obtain ⟨c, hc, hrest⟩ := h.underWay k i hold
      exact ⟨c, by rw [List.getElem?_append_left (List.getElem?_eq_some_iff.mp hc).1, hc], hrest⟩
  own := by
    intro i c hc
    rcases getElem?_concat hc with hold | ⟨rfl, rfl⟩
    · exact h.own i c hold
    · rintro r (hr | hr) <;> simp [newCall, SyncPhase.result] at hr
  deliveries := h.deliveries

/-- A call changes, but neither its identity nor that it is under way. -/
theorem Orderly.set (h : Orderly s) {i : ℕ} {c c' : SyncCall} (hc : s.calls[i]? = some c)
    (hid : c'.identity = c.identity) (hunder : c'.phase.isUnderWay = c.phase.isUnderWay)
    (hown : c'.Own i) : Orderly { s with calls := s.calls.set i c' } where
  registered := by
    intro j d hd hunder'
    rcases getElem?_of_getElem?_set hc hd with ⟨rfl, rfl⟩ | ⟨-, hold⟩
    · rw [hid]
      exact h.registered j c hc (hunder ▸ hunder')
    · exact h.registered j d hold hunder'
  underWay := by
    intro k j hk
    obtain ⟨d, hd, hunder', hidentity⟩ := h.underWay k j hk
    rcases eq_or_ne j i with rfl | hne
    · obtain rfl : d = c := Option.some.inj (hd.symm.trans hc)
      have hlt := (List.getElem?_eq_some_iff.mp hc).1
      exact ⟨c', List.getElem?_set_self hlt, hunder.trans hunder', hid.trans hidentity⟩
    · exact ⟨d, by rw [List.getElem?_set_ne hne.symm, hd], hunder', hidentity⟩
  own := by
    intro j d hd
    rcases getElem?_of_getElem?_set hc hd with ⟨rfl, rfl⟩ | ⟨-, hold⟩
    · exact hown
    · exact h.own j d hold
  deliveries := h.deliveries

theorem Orderly.delete (h : Orderly s) {i : ℕ} {c : SyncCall} {result : SyncResult}
    (hc : s.calls[i]? = some c) (hphase : c.phase = .returning result) :
    Orderly { s with
      calls := s.calls.set i { c with phase := .returned result }
      responseTable := s.responseTable.erase c.identity } where
  registered := by
    intro j d hd hunder
    rcases getElem?_of_getElem?_set hc hd with ⟨rfl, rfl⟩ | ⟨hne, hold⟩
    · exact absurd hunder (by simp [SyncPhase.isUnderWay])
    · have hj := h.registered j d hold hunder
      -- another call of the identity would be registered in the place of this one
      have hidentity : d.identity ≠ c.identity := by
        intro heq
        have hi := h.registered i c hc (by rw [hphase]; rfl)
        rw [heq, hi] at hj
        exact hne (Option.some.inj hj).symm
      rw [AList.lookup_erase_ne hidentity]
      exact hj
  underWay := by
    intro k j hk
    have hold := Go.lookup_of_lookup_erase hk
    obtain ⟨d, hd, hrest⟩ := h.underWay k j hold
    have hne : j ≠ i := by
      rintro rfl
      obtain rfl : d = c := Option.some.inj (hd.symm.trans hc)
      obtain rfl := hrest.2
      rw [AList.lookup_erase] at hk
      exact absurd hk (by simp)
    exact ⟨d, by rw [List.getElem?_set_ne hne.symm, hd], hrest⟩
  own := by
    intro j d hd
    rcases getElem?_of_getElem?_set hc hd with ⟨rfl, rfl⟩ | ⟨-, hold⟩
    · intro r hr
      exact h.own j c hc r (by simpa [hphase, SyncPhase.result] using hr)
    · exact h.own j d hold
  deliveries := h.deliveries

theorem destination_eq_some {m : Message} {f : ℕ} (h : s.destination m = some f) :
    s.responseTable.lookup m.identity = some f := by
  rw [destination] at h
  split at h
  · exact h
  · exact absurd h (by simp)

theorem Orderly.arrive (h : Orderly s) {l : ℕ} {r : Reply} (hdistinct : Distinct s (.arrive l r)) :
    Orderly { s with
      receivers := s.receivers.set l ((s.destination r.message).map fun f => (f, r)) } where
  registered := h.registered
  underWay := h.underWay
  own := h.own
  deliveries := by
    intro f r' hmem
    rcases List.mem_or_eq_of_mem_set hmem with hold | hnew
    · exact h.deliveries f r' hold
    · obtain ⟨f', hdest, hpair⟩ := Option.map_eq_some_iff.mp hnew.symm
      obtain ⟨rfl, rfl⟩ := Prod.mk.inj hpair
      obtain ⟨c, hc, hunder, hidentity⟩ := h.underWay _ _ (destination_eq_some hdest)
      exact (hdistinct f' (List.getElem?_eq_some_iff.mp hc).1 c hc hunder hidentity).symm

theorem Orderly.deliver (h : Orderly s) {l : ℕ} :
    Orderly { s with receivers := s.receivers.set l none } where
  registered := h.registered
  underWay := h.underWay
  own := h.own
  deliveries := by
    intro f r hmem
    rcases List.mem_or_eq_of_mem_set hmem with hold | hnew
    · exact h.deliveries f r hold
    · simp at hnew

/-- One step keeps the order, if it meets the condition. -/
theorem Orderly.step {a : Action} (h : Orderly s) (hdistinct : Distinct s a)
    (hs : SyncCalls.step client s a = some (s', ev)) : Orderly s' := by
  cases a with
  | connect =>
    obtain ⟨rfl, -⟩ := Prod.mk.inj (Option.some.inj hs)
    exact h.connect
  | register identity =>
    obtain ⟨rfl, -⟩ := Prod.mk.inj (Option.some.inj hs)
    exact h.register hdistinct
  | call i a =>
    obtain ⟨c, c', hc, hstep, rfl⟩ := step_call hs
    have hunder := SyncCall.isUnderWay_step hstep
    exact h.set hc (SyncCall.identity_step hstep) (hunder.2.trans hunder.1.symm)
      ((h.own i c hc).step hstep)
  | delete i =>
    obtain ⟨c, result, hc, hphase, rfl⟩ := step_delete hs
    exact h.delete hc hphase
  | arrive l r =>
    obtain ⟨-, rfl⟩ := step_arrive hs
    exact h.arrive hdistinct
  | deliver l =>
    obtain ⟨f, r, c, hl, hc, -, rfl⟩ := step_deliver hs
    have hown : SyncCall.Own f { c with future := { c.future with response := some r } } := by
      rintro r' (hr' | hr')
      · obtain rfl : r = r' := Option.some.inj hr'
        exact h.deliveries f r (List.mem_of_getElem? hl)
      · exact h.own f c hc r' (.inr hr')
    exact (h.set hc (by rfl) (by rfl) hown).deliver

theorem Orderly.ownAnswer (h : Orderly s) : s.OwnAnswer := by
  intro i c hc
  refine ⟨fun r hr => h.own i c hc r (.inr hr), fun hwaiting => ?_⟩
  exact h.registered i c hc (by rw [hwaiting]; rfl)

/-- **In every run in which no two calls are taken for one another, every call gets its own
answer.** -/
theorem ownAnswer_of_exec (client : ClientKind) {as : List Action} {tr : List Unit}
    (hdistinct : Runs.Meets (step client) Distinct new as)
    (h : Runs.exec (step client) new as = some (s, tr)) : s.OwnAnswer :=
  Orderly.ownAnswer (Runs.exec_invariant_meets orderly_new
    (fun _ _ _ _ hord hok hs => hord.step hok hs) hdistinct h)

/-- A heartbeat of the collector, and the manager's answer. -/
def heartbeatAnswer : Message := ⟨.heartbeat, .response, Go.str "collector-go", []⟩

/-- Two calls of one identity, one after the other, each answered. -/
def twoCalls : List Action :=
  [.connect,
    .register (Go.str "collector-go"), .call 0 (.sent none), .arrive 0 ⟨0, heartbeatAnswer⟩,
    .deliver 0, .call 0 .takeResponse, .delete 0,
    .register (Go.str "collector-go"), .call 1 (.sent none), .arrive 0 ⟨1, heartbeatAnswer⟩,
    .deliver 0, .call 1 .takeResponse, .delete 1]

theorem ownAnswer_two_calls :
    ∃ s tr, Runs.exec (step .netty) new twoCalls = some (s, tr) ∧
      s.calls.length = 2 ∧ s.OwnAnswer := by
  have hrun : (Runs.exec (step .netty) new twoCalls).isSome = true := rfl
  obtain ⟨⟨s, tr⟩, hs⟩ := Option.isSome_iff_exists.mp hrun
  have hlen : (Runs.exec (step .netty) new twoCalls).map (fun p => p.1.calls.length) = some 2 := by
    rfl
  rw [hs] at hlen
  exact ⟨s, tr, hs, Option.some.inj hlen,
    ownAnswer_of_exec .netty (Runs.meets_of_checks rfl) hs⟩

/-- Two calls of one identity at the same time. The second replaces the future of the first,
and so it is given the answer to the first. -/
def overlappingCalls : List Action :=
  [.connect,
    .register (Go.str "collector-go"), .call 0 (.sent none),
    .register (Go.str "collector-go"), .call 1 (.sent none),
    .arrive 0 ⟨0, heartbeatAnswer⟩, .deliver 0, .call 1 .takeResponse]

/-- **Calls of one identity are mixed up**: the second returns the answer to the first. -/
theorem mixed_up_overlapping (client : ClientKind) :
    ∃ s tr, Runs.exec (step client) new overlappingCalls = some (s, tr) ∧ ¬s.OwnAnswer := by
  have hrun : (Runs.exec (step client) new overlappingCalls).map
      (fun p => p.1.calls[1]?.map fun c => c.phase) =
        some (some (.returning (.message ⟨0, heartbeatAnswer⟩))) := by
    cases client <;> rfl
  obtain ⟨⟨s, tr⟩, hs, hcall⟩ := Option.map_eq_some_iff.mp hrun
  obtain ⟨c, hc, hphase⟩ := Option.map_eq_some_iff.mp hcall
  refine ⟨s, tr, hs, fun hown => ?_⟩
  have hanswers := (hown 1 c hc).1 ⟨0, heartbeatAnswer⟩ (by rw [hphase]; rfl)
  exact absurd hanswers (by decide)

/-- So they are by both clients. -/
theorem not_ownAnswer_overlapping :
    (∃ s tr, Runs.exec (step .grpc) new overlappingCalls = some (s, tr) ∧ ¬s.OwnAnswer) ∧
      ∃ s tr, Runs.exec (step .netty) new overlappingCalls = some (s, tr) ∧ ¬s.OwnAnswer :=
  ⟨mixed_up_overlapping .grpc, mixed_up_overlapping .netty⟩

end SyncCalls

end HertzBeat
