import HertzBeat.Config.Loader
import HertzBeat.Transport.ShutdownFinal

/-!
# The transport runner

`Runner` of `internal/transport/transport.go`, which makes a client out of the configuration, starts
it, tries again in the background while that fails, announces the collector to the manager once it
is connected, and shuts the client down at the end. The clients are those of
`HertzBeat.NettyLoops` and `HertzBeat.GrpcLoops`, with their own loops; every call of the runner,
every turn of a loop and every goroutine that announces the collector is a step of its own, and a
run is any interleaving of them with the calls of `Close` and the cancellation of the context.

There are three places that start a client: the first attempt of `Start`, the loop of attempts that
is begun only if this fails and ends with the first success, and the monitor of the client. The
monitor of a Netty client never does. So a collector that speaks the protocol of Netty connects at
most once in its life, and announces itself at most once:
`HertzBeat.TransportRunner.netty_connects_at_most_once`.

The default that `LoadConfig` fills in for the protocol is not one that there is a client for, and
leaves the runner's own default and the variable `MANAGER_PROTOCOL` without effect.
-/

namespace HertzBeat

open Go (Str)
open Runs

/-! ### The clients -/

/-- A `TransportClient` of the runner, with its loops. -/
inductive RunnerClient where
  | netty (c : NettyLoops)
  | grpc (c : GrpcLoops)

namespace RunnerClient

/-- `CreateClient`. -/
def createClient (protocol : Str) : Except Str RunnerClient :=
  if protocol = Go.str "grpc" then .ok (.grpc .new)
  else if protocol = Go.str "netty" then .ok (.netty .new)
  else .error (Go.str "unsupported protocol: " ++ protocol)

/-- `IsStarted`. -/
def isStarted : RunnerClient → Bool
  | netty c => c.started
  | grpc c => c.started

/-- `Start`, with what comes of dialing. It returns nil if the client is started after it. -/
def start (dials : Bool) : RunnerClient → RunnerClient
  | netty c => netty (c.start dials).1
  | grpc c => grpc (c.start dials)

/-- `Shutdown`. -/
def shutdown : RunnerClient → RunnerClient
  | netty c => netty { c.shutdown with shutdownRequested := true }
  | grpc c => grpc c.shutdown

/-- `SendMsg` gets as far as to write the message: the Netty client looks whether it is started. -/
def canSend : RunnerClient → Bool
  | netty c => c.started
  | grpc _ => true

/-- A step of a loop of the client. -/
inductive LoopAct where
  | netty (a : NettyLoops.Action)
  | grpc (a : GrpcLoops.Action)

/-- A loop takes a step. Calls from outside are not steps of a loop. -/
def loopStep : RunnerClient → LoopAct → Option RunnerClient
  | netty c, .netty a =>
    match a with
    | .reader _ _ | .monitor _ _ => (NettyLoops.step c a).map fun p => netty p.1
    | _ => none
  | grpc c, .grpc a =>
    match a with
    | .monitor _ _ _ | .heartbeat _ => (GrpcLoops.step c a).map fun p => grpc p.1
    | _ => none
  | _, _ => none

end RunnerClient

/-! ### The runner -/

/-- The variables of the environment that `Start` reads. -/
structure Environ where
  managerAddr : Str
  managerProtocol : Str

/-- How far `Start` of the runner has come. -/
inductive RunnerStage where
  | created
  /-- The client is made, and about to be started for the first time. -/
  | starting
  /-- Waiting for the end of the context. -/
  | waiting
  | returned
  deriving DecidableEq

/-- Where the loop of attempts is. -/
inductive RetryStage where
  /-- Asleep for three seconds, and about to look whether the context has ended. -/
  | asleep
  /-- About to start the client. -/
  | attempt
  deriving DecidableEq

/-- What the collector says of itself when it goes online. -/
structure OnlineInfo where
  name : Str
  ip : Str
  version : Str
  mode : Str
  deriving DecidableEq

/-- The runner, with its goroutines. -/
structure TransportRunner where
  cfg : CollectorConfig
  environ : Environ
  stage : RunnerStage
  client : Option RunnerClient
  /-- The loop of attempts, if it is alive. -/
  retry : Option RetryStage
  /-- Whether the goroutine that shuts the client down is alive. -/
  closing : Bool
  /-- Whether the context has ended. -/
  cancelled : Bool
  /-- The goroutines of `sendOnlineMessage` that have not looked at the client yet. -/
  online : ℕ
  /-- Those that are about to send. -/
  sending : ℕ

/-- A step of the runner. -/
inductive RunnerAct where
  /-- `Start` makes the client. -/
  | makeClient
  /-- `Start` starts the client. -/
  | firstStart (dials : Bool)
  /-- The loop of attempts wakes up. -/
  | wake
  /-- The loop of attempts starts the client. -/
  | retryStart (dials : Bool)
  /-- The context ends. -/
  | cancel
  /-- `Start` returns. -/
  | finish
  /-- The goroutine for it shuts the client down. -/
  | shutdown
  /-- `Close`. -/
  | close
  /-- A loop of the client takes a step. -/
  | loop (a : RunnerClient.LoopAct)
  /-- A goroutine of `sendOnlineMessage` looks whether the client is started. -/
  | look
  /-- A goroutine of `sendOnlineMessage` sends; writing succeeds or fails. -/
  | send (writes : Bool)

/-- What the manager sees. -/
inductive RunnerEvent where
  /-- A connection is made to an address. -/
  | connected (addr : Str)
  /-- `GO_ONLINE` is sent. -/
  | online (identity : Str) (info : OnlineInfo)
  deriving DecidableEq

namespace TransportRunner

/-- `New`. -/
def new (cfg : CollectorConfig) (environ : Environ) : TransportRunner where
  cfg := cfg
  environ := environ
  stage := .created
  client := none
  retry := none
  closing := false
  cancelled := false
  online := 0
  sending := 0

variable (r : TransportRunner)

/-- The address of the manager. The environment is asked only where there is neither a host nor a
port. -/
def addr : Str :=
  let addr := r.cfg.manager.host ++ Go.str ":" ++ r.cfg.manager.port
  if addr = Go.str ":" then Loader.orDefault r.environ.managerAddr (Go.str "127.0.0.1:1158")
  else addr

/-- The protocol. -/
def protocol : Str :=
  Loader.orDefault r.cfg.manager.protocol
    (Loader.orDefault r.environ.managerProtocol (Go.str "netty"))

/-- The identity that the collector goes by. -/
def identity : Str := Loader.orDefault r.cfg.identity (Go.str "collector-go")

/-- The message that `sendOnlineMessage` makes. -/
def onlineEvent : RunnerEvent :=
  .online r.identity
    { name := r.identity, ip := [], version := Go.str "1.0.0"
      mode := Loader.orDefault r.cfg.mode (Go.str "public") }

/-- The client has become another one. If it was started by that, the handler of its events sees
that it is connected and starts a goroutine. -/
def setClient (before after : RunnerClient) : TransportRunner × List RunnerEvent :=
  if !before.isStarted && after.isStarted then
    ({ r with client := some after, online := r.online + 1 }, [.connected r.addr])
  else ({ r with client := some after }, [])

/-- The client is started. Where that fails the loop of attempts goes on, or begins. -/
def startClient (c : RunnerClient) (dials : Bool) : TransportRunner × List RunnerEvent :=
  { r with retry := if (c.start dials).isStarted then none else some .asleep }.setClient c
    (c.start dials)

/-- The client is shut down, if there is one. -/
def shutdownClient : TransportRunner × List RunnerEvent :=
  match r.client with
  | none => (r, [])
  | some c => r.setClient c c.shutdown

/-- One step of the runner. -/
def step : StepFn TransportRunner RunnerAct RunnerEvent
  | r, .makeClient =>
    if r.stage = .created then
      match RunnerClient.createClient r.protocol with
      | .error _ => some ({ r with stage := .waiting, closing := true }, [])
      | .ok c => some ({ r with stage := .starting, client := some c }, [])
    else none
  | r, .firstStart dials =>
    match r.stage, r.client with
    | .starting, some c => some ({ r with stage := .waiting, closing := true }.startClient c dials)
    | _, _ => none
  | r, .wake =>
    if r.retry = some .asleep then
      some ({ r with retry := if r.cancelled then none else some .attempt }, [])
    else none
  | r, .retryStart dials =>
    match r.retry, r.client with
    | some .attempt, some c => some (r.startClient c dials)
    | _, _ => none
  | r, .cancel => some ({ r with cancelled := true }, [])
  | r, .finish =>
    if r.stage = .waiting ∧ r.cancelled then some ({ r with stage := .returned }, []) else none
  | r, .shutdown =>
    if r.closing ∧ r.cancelled then some ({ r with closing := false }.shutdownClient) else none
  | r, .close => some r.shutdownClient
  | r, .loop a =>
    match r.client with
    | none => none
    | some c => (c.loopStep a).map fun c' => r.setClient c c'
  | r, .look =>
    if r.online = 0 then none
    else some ({ r with
      online := r.online - 1
      sending := r.sending + if (r.client.map (·.isStarted)).getD false then 1 else 0 }, [])
  | r, .send writes =>
    if r.sending = 0 then none
    else some ({ r with sending := r.sending - 1 },
      if (r.client.map (·.canSend)).getD false && writes then [r.onlineEvent] else [])

/-! ### What may still start the client -/

/-- The number of connections in a trace. -/
def connects (tr : List RunnerEvent) : ℕ := tr.countP fun e => match e with
  | .connected _ => true
  | .online _ _ => false

/-- The number of announcements in a trace. -/
def onlines (tr : List RunnerEvent) : ℕ := tr.countP fun e => match e with
  | .connected _ => false
  | .online _ _ => true

/-- The places of the runner that may still start the client: the first attempt, and the loop. -/
def sources : ℕ :=
  (if r.stage = .created ∨ r.stage = .starting then 1 else 0) + if r.retry.isSome then 1 else 0

/-- **A client of Netty is started once.** Every connection takes away the place that it was made
from, and every announcement belongs to a connection. -/
structure Once (r : TransportRunner) (tr : List RunnerEvent) : Prop where
  client : ∀ c, r.client = some c → r.protocol = Go.str "netty" ∧ ∃ n, c = .netty n ∧
    n.Connected ∧ (n.started = true → 0 < connects tr)
  unconnected : r.client = none → connects tr = 0
  sources_le : connects tr + r.sources ≤ 1
  online_le : onlines tr + r.online + r.sending ≤ connects tr

variable {r r' : TransportRunner} {tr ev : List RunnerEvent} {a : RunnerAct}

theorem connects_append (tr ev : List RunnerEvent) :
    connects (tr ++ ev) = connects tr + connects ev := List.countP_append

theorem onlines_append (tr ev : List RunnerEvent) :
    onlines (tr ++ ev) = onlines tr + onlines ev := List.countP_append

/-- A step of a loop of a Netty client leaves the client as it is, but for the loops. -/
theorem loopStep_netty {n : NettyLoops} {la : RunnerClient.LoopAct} {c' : RunnerClient}
    (hn : n.Connected) (h : RunnerClient.loopStep (.netty n) la = some c') :
    ∃ n', c' = .netty n' ∧ n'.Connected ∧ (n'.started = true → n.started = true) := by
  cases la with
  | grpc a => exact nomatch h
  | netty a =>
    have hloop : a.isStart = false ∧ ∃ ev n', NettyLoops.step n a = some (n', ev) ∧
        c' = .netty n' := by
      cases a with
      | reader i succeeds =>
        obtain ⟨p, hs, rfl⟩ := Option.map_eq_some_iff.mp h
        exact ⟨rfl, p.2, p.1, hs, rfl⟩
      | monitor i dials =>
        obtain ⟨p, hs, rfl⟩ := Option.map_eq_some_iff.mp h
        exact ⟨rfl, p.2, p.1, hs, rfl⟩
      | _ => exact nomatch h
    obtain ⟨ha, ev, n', hs, rfl⟩ := hloop
    refine ⟨n', rfl, hn.step hs, fun hup => ?_⟩
    by_contra hdown
    have := NettyLoops.started_step hn ha hs (Bool.eq_false_iff.mpr hdown)
    rw [hup] at this
    exact absurd this (by simp)

/-- A client that is only shut down, or whose loops go on, is not connected by that. -/
theorem Once.keepClient {c c' : RunnerClient} (h : r.Once tr) (hc : r.client = some c)
    (hkeep : ∀ n, c = .netty n → n.Connected →
      ∃ n', c' = .netty n' ∧ n'.Connected ∧ (n'.started = true → n.started = true)) :
    (r.setClient c c').1.Once (tr ++ (r.setClient c c').2) := by
  obtain ⟨hprotocol, n, rfl, hn, hstarted⟩ := h.client c hc
  obtain ⟨n', rfl, hn', hle⟩ := hkeep n rfl hn
  have hquiet : r.setClient (.netty n) (.netty n') =
      ({ r with client := some (.netty n') }, []) := by
    unfold setClient
    rw [if_neg]
    simp only [RunnerClient.isStarted, Bool.and_eq_true, Bool.not_eq_true', not_and]
    intro hdown hup
    rw [hle hup] at hdown
    exact absurd hdown (by simp)
  rw [hquiet, List.append_nil]
  refine ⟨fun c hc' => ?_, (fun hnone => nomatch hnone), h.sources_le, h.online_le⟩
  obtain rfl := Option.some.inj hc'
  exact ⟨hprotocol, n', rfl, hn', fun hup => hstarted (hle hup)⟩

/-- As long as there is a place that may start the client, it has not been started. -/
theorem Once.unstarted {c : RunnerClient} (h : r.Once tr) (hsource : 0 < r.sources)
    (hc : r.client = some c) : r.protocol = Go.str "netty" ∧ connects tr = 0 ∧
      ∃ n, c = .netty n ∧ n.Connected ∧ n.started = false := by
  obtain ⟨hprotocol, n, rfl, hn, hstarted⟩ := h.client c hc
  have hsources := h.sources_le
  refine ⟨hprotocol, by omega, n, rfl, hn, ?_⟩
  by_contra hup
  have := hstarted (by simpa using hup)
  omega

/-- **A call of `Start` takes its place away, or leaves another one for it.** -/
theorem once_startClient {n : NettyLoops} (hprotocol : r.protocol = Go.str "netty")
    (hzero : connects tr = 0) (hn : n.Connected) (hdown : n.started = false)
    (hstage : r.stage = .waiting ∨ r.stage = .returned)
    (honline : onlines tr + r.online + r.sending ≤ connects tr) (dials : Bool) :
    (r.startClient (.netty n) dials).1.Once (tr ++ (r.startClient (.netty n) dials).2) := by
  have hstage' : ¬(r.stage = .created ∨ r.stage = .starting) := by
    rcases hstage with h | h <;> simp [h]
  have hn' := hn.start dials
  cases dials with
  | false =>
    -- it fails, and the loop of attempts goes on
    have hstart : RunnerClient.start false (.netty n) = .netty n := by
      simp [RunnerClient.start, NettyLoops.start, hdown]
    simp only [startClient, hstart, setClient, RunnerClient.isStarted, hdown, Bool.not_false,
      Bool.and_false, Bool.false_eq_true, if_false, List.append_nil]
    refine ⟨fun c hc => ?_, (fun hnone => nomatch hnone), ?_, honline⟩
    · obtain rfl := Option.some.inj hc
      exact ⟨hprotocol, n, rfl, hn, fun hup => absurd hup (by simp [hdown])⟩
    · simp [sources, hstage', hzero]
  | true =>
    obtain ⟨n', hstart, hup⟩ : ∃ n', n.start true = (n', true) ∧ n'.started = true := by
      simp [NettyLoops.start, hdown]
    have hstart' : RunnerClient.start true (.netty n) = .netty n' := by
      rw [RunnerClient.start, hstart]
    rw [hstart] at hn'
    simp only [startClient, hstart', setClient, RunnerClient.isStarted, hdown, hup,
      Bool.not_false, Bool.and_true, if_true]
    have hconnects : connects (tr ++ [.connected { r with retry := none }.addr]) = 1 := by
      rw [connects_append, hzero]
      rfl
    refine ⟨fun c hc => ?_, (fun hnone => nomatch hnone), ?_, ?_⟩
    · obtain rfl := Option.some.inj hc
      exact ⟨hprotocol, n', rfl, hn', fun _ => hconnects.ge⟩
    · rw [hconnects]
      simp [sources, hstage']
    · rw [hconnects, onlines_append]
      change onlines tr + 0 + (r.online + 1) + r.sending ≤ 1
      omega

theorem Once.shutdownClient (h : r.Once tr) :
    r.shutdownClient.1.Once (tr ++ r.shutdownClient.2) := by
  unfold TransportRunner.shutdownClient
  cases hc : r.client with
  | none =>
    rw [List.append_nil]
    exact h
  | some c =>
    refine h.keepClient hc ?_
    rintro n rfl hn
    exact ⟨_, rfl, ⟨by simp [NettyLoops.shutdown], hn.of_monitor, hn.idle⟩,
      fun hup => absurd hup (by simp [NettyLoops.shutdown])⟩

theorem Once.step (h : r.Once tr) (hgrpc : r.protocol ≠ Go.str "grpc")
    (hs : TransportRunner.step r a = some (r', ev)) : r'.Once (tr ++ ev) := by
  have hsources := h.sources_le
  cases a with
  | makeClient =>
    simp only [TransportRunner.step] at hs
    split_ifs at hs with hstage
    unfold RunnerClient.createClient at hs
    rw [if_neg hgrpc] at hs
    split_ifs at hs with hnetty
    · obtain ⟨rfl, rfl⟩ := Prod.mk.inj (Option.some.inj hs)
      rw [List.append_nil]
      refine ⟨fun c hc => ?_, (fun hnone => nomatch hnone), ?_, h.online_le⟩
      · obtain rfl := Option.some.inj hc
        exact ⟨hnetty, .new, rfl, NettyLoops.connected_new, fun hup => absurd hup (by decide)⟩
      · simpa [sources, hstage] using hsources
    · obtain ⟨rfl, rfl⟩ := Prod.mk.inj (Option.some.inj hs)
      rw [List.append_nil]
      refine ⟨h.client, h.unconnected, ?_, h.online_le⟩
      simp only [sources, hstage] at hsources ⊢
      simp at hsources ⊢
      omega
  | firstStart dials =>
    simp only [TransportRunner.step] at hs
    split at hs
    next c hstage hc =>
      have hsource : 0 < r.sources := by
        simp only [sources, hstage, or_true, if_true]
        omega
      obtain ⟨hprotocol, hzero, n, rfl, hn, hdown⟩ := h.unstarted hsource hc
      obtain ⟨rfl, rfl⟩ := Prod.mk.inj (Option.some.inj hs)
      exact @once_startClient { r with stage := .waiting, closing := true } tr n hprotocol hzero hn
        hdown (.inl rfl) h.online_le dials
    next => exact nomatch hs
  | wake =>
    simp only [TransportRunner.step] at hs
    split_ifs at hs with hretry hcancelled
    all_goals
      obtain ⟨rfl, rfl⟩ := Prod.mk.inj (Option.some.inj hs)
      rw [List.append_nil]
      refine ⟨h.client, h.unconnected, ?_, h.online_le⟩
      simp only [sources, hretry, Option.isSome_some, Option.isSome_none, if_true] at hsources ⊢
      first | exact hsources | exact le_trans (by simp) hsources
  | retryStart dials =>
    simp only [TransportRunner.step] at hs
    split at hs
    next c hretry hc =>
      have hsource : 0 < r.sources := by simp [sources, hretry]
      obtain ⟨hprotocol, hzero, n, rfl, hn, hdown⟩ := h.unstarted hsource hc
      obtain ⟨rfl, rfl⟩ := Prod.mk.inj (Option.some.inj hs)
      refine once_startClient hprotocol hzero hn hdown ?_ h.online_le dials
      simp only [sources, hretry, Option.isSome_some, if_true] at hsources
      cases hstage : r.stage <;> simp_all
    next => exact nomatch hs
  | cancel =>
    obtain ⟨rfl, rfl⟩ := Prod.mk.inj (Option.some.inj hs)
    rw [List.append_nil]
    exact ⟨h.client, h.unconnected, hsources, h.online_le⟩
  | finish =>
    simp only [TransportRunner.step] at hs
    split_ifs at hs with hstage
    obtain ⟨rfl, rfl⟩ := Prod.mk.inj (Option.some.inj hs)
    rw [List.append_nil]
    refine ⟨h.client, h.unconnected, ?_, h.online_le⟩
    simpa [sources, hstage.1] using hsources
  | shutdown =>
    simp only [TransportRunner.step] at hs
    split_ifs at hs with hclosing
    obtain ⟨rfl, rfl⟩ := Prod.mk.inj (Option.some.inj hs)
    exact Once.shutdownClient ⟨h.client, h.unconnected, hsources, h.online_le⟩
  | close =>
    obtain ⟨rfl, rfl⟩ := Prod.mk.inj (Option.some.inj hs)
    exact h.shutdownClient
  | loop la =>
    simp only [TransportRunner.step] at hs
    split at hs
    next => exact nomatch hs
    next c hc =>
      obtain ⟨c', hloop, hpair⟩ := Option.map_eq_some_iff.mp hs
      obtain ⟨rfl, rfl⟩ := Prod.mk.inj hpair
      refine h.keepClient hc ?_
      rintro n rfl hn
      exact loopStep_netty hn hloop
  | look =>
    have honline := h.online_le
    simp only [TransportRunner.step] at hs
    split_ifs at hs with hpending hstarted
    all_goals
      obtain ⟨rfl, rfl⟩ := Prod.mk.inj (Option.some.inj hs)
      rw [List.append_nil]
      refine ⟨h.client, h.unconnected, hsources, ?_⟩
      simp only
      omega
  | send writes =>
    have honline := h.online_le
    simp only [TransportRunner.step] at hs
    split_ifs at hs with hpending hsent
    · obtain ⟨rfl, rfl⟩ := Prod.mk.inj (Option.some.inj hs)
      have hconnects : connects (tr ++ [r.onlineEvent]) = connects tr := by
        rw [connects_append]
        rfl
      refine ⟨by rw [hconnects]; exact h.client, by rw [hconnects]; exact h.unconnected,
        by rw [hconnects]; exact hsources, ?_⟩
      rw [hconnects, onlines_append]
      change onlines tr + 1 + r.online + (r.sending - 1) ≤ connects tr
      omega
    · obtain ⟨rfl, rfl⟩ := Prod.mk.inj (Option.some.inj hs)
      rw [List.append_nil]
      refine ⟨h.client, h.unconnected, hsources, ?_⟩
      simp only
      omega

/-! ### The life of a runner -/

/-- The configuration has not changed, and all that was seen is what it says. -/
def Says (r : TransportRunner) (p : TransportRunner × List RunnerEvent) : Prop :=
  (p.1.cfg = r.cfg ∧ p.1.environ = r.environ) ∧
    ∀ e ∈ p.2, e = .connected r.addr ∨ e = r.onlineEvent

theorem Says.protocol_eq (h : r.Says (r', tr)) : r'.protocol = r.protocol := by
  rw [protocol, protocol, h.1.1, h.1.2]

theorem Says.trans {r₀ : TransportRunner} (h : r₀.Says (r, tr)) (h' : r.Says (r', ev)) :
    r₀.Says (r', tr ++ ev) := by
  obtain ⟨⟨hcfg, henviron⟩, htr⟩ := h
  obtain ⟨⟨hcfg', henviron'⟩, hev⟩ := h'
  have haddr : r.addr = r₀.addr := by rw [addr, addr, hcfg, henviron]
  have honline : r.onlineEvent = r₀.onlineEvent := by
    rw [onlineEvent, onlineEvent, identity, identity, hcfg]
  refine ⟨⟨hcfg'.trans hcfg, henviron'.trans henviron⟩, fun e he => ?_⟩
  rcases List.mem_append.mp he with he | he
  · exact htr e he
  · exact haddr ▸ honline ▸ hev e he

theorem says_nil {r₁ : TransportRunner} (h : r₁.cfg = r.cfg ∧ r₁.environ = r.environ) :
    r.Says (r₁, []) :=
  ⟨h, by simp⟩

theorem says_setClient {r₁ : TransportRunner} (h : r₁.cfg = r.cfg ∧ r₁.environ = r.environ)
    (c c' : RunnerClient) : r.Says (r₁.setClient c c') := by
  unfold setClient
  split_ifs with hconnects
  · refine ⟨h, fun e he => .inl ?_⟩
    rw [List.mem_singleton.mp he, addr, addr, h.1, h.2]
  · exact says_nil h

theorem says_shutdownClient {r₁ : TransportRunner}
    (h : r₁.cfg = r.cfg ∧ r₁.environ = r.environ) : r.Says r₁.shutdownClient := by
  unfold shutdownClient
  split
  · exact says_nil h
  · exact says_setClient h _ _

theorem says_of_step {p : TransportRunner × List RunnerEvent}
    (hs : TransportRunner.step r a = some p) : r.Says p := by
  cases a with
  | makeClient =>
    simp only [TransportRunner.step] at hs
    split_ifs at hs
    split at hs <;> exact Option.some.inj hs ▸ says_nil ⟨rfl, rfl⟩
  | firstStart dials =>
    simp only [TransportRunner.step] at hs
    split at hs
    · exact Option.some.inj hs ▸ says_setClient ⟨rfl, rfl⟩ _ _
    · exact nomatch hs
  | retryStart dials =>
    simp only [TransportRunner.step] at hs
    split at hs
    · exact Option.some.inj hs ▸ says_setClient ⟨rfl, rfl⟩ _ _
    · exact nomatch hs
  | cancel => exact Option.some.inj hs ▸ says_nil ⟨rfl, rfl⟩
  | shutdown =>
    simp only [TransportRunner.step] at hs
    split_ifs at hs
    exact Option.some.inj hs ▸ says_shutdownClient ⟨rfl, rfl⟩
  | close => exact Option.some.inj hs ▸ says_shutdownClient ⟨rfl, rfl⟩
  | loop la =>
    simp only [TransportRunner.step] at hs
    split at hs
    · exact nomatch hs
    · obtain ⟨c', -, hp⟩ := Option.map_eq_some_iff.mp hs
      exact hp ▸ says_setClient ⟨rfl, rfl⟩ _ _
  | send writes =>
    simp only [TransportRunner.step] at hs
    split_ifs at hs with hpending hsent
    · exact Option.some.inj hs ▸ ⟨⟨rfl, rfl⟩, fun e he => .inr (List.mem_singleton.mp he)⟩
    · exact Option.some.inj hs ▸ says_nil ⟨rfl, rfl⟩
  | _ =>
    simp only [TransportRunner.step] at hs
    split_ifs at hs <;> exact Option.some.inj hs ▸ says_nil ⟨rfl, rfl⟩

theorem once_new (cfg : CollectorConfig) (environ : Environ) : (new cfg environ).Once [] where
  client := fun _ h => nomatch h
  unconnected := fun _ => rfl
  sources_le := le_rfl
  online_le := le_rfl

/-- **A collector of Netty connects at most once.** With a configuration that was loaded from a
file, and unless it asks for gRPC, the runner makes at most one connection in any run, and none at
all if the file does not ask for Netty, whatever stands in the environment. It announces the
collector at most once for each connection. All connections are to the one address, and all
announcements are alike. -/
theorem netty_connects_at_most_once {parse : Str → Except Str CollectorConfig} {cfgPath : Str}
    {file cfg : CollectorConfig} {environ : Environ} (hfile : parse cfgPath = .ok file)
    (hcfg : Loader.getConfigByPath parse cfgPath = .ok cfg)
    (hgrpc : file.manager.protocol ≠ Go.str "grpc") {acts : List RunnerAct}
    (h : exec TransportRunner.step (new cfg environ) acts = some (r, tr)) :
    connects tr ≤ (if file.manager.protocol = Go.str "netty" then 1 else 0) ∧
      onlines tr ≤ connects tr ∧
      ∀ e ∈ tr, e = .connected (new cfg environ).addr ∨ e = (new cfg environ).onlineEvent := by
  obtain ⟨file', hfile', rfl⟩ := Loader.getConfigByPath_eq_ok hcfg
  obtain rfl := Except.ok.inj (hfile.symm.trans hfile')
  -- the protocol is that of the file, or the default of the loader
  have hprotocol : (new (Loader.applyDefaults file) environ).protocol =
      Loader.orDefault file.manager.protocol (Go.str "http") := by
    simp only [protocol, new, Loader.applyDefaults, Loader.orDefault]
    split_ifs <;> first | rfl | contradiction
  have hgrpc' : (new (Loader.applyDefaults file) environ).protocol ≠ Go.str "grpc" := by
    rw [hprotocol, Loader.orDefault]
    split_ifs
    · decide
    · exact hgrpc
  obtain ⟨honce, hseen⟩ : r.Once tr ∧ (new (Loader.applyDefaults file) environ).Says (r, tr) := by
    refine @exec_induction _ _ _ _ (fun r tr => r.Once tr ∧ Says _ (r, tr)) _
      ⟨once_new _ _, says_nil ⟨rfl, rfl⟩⟩ ?_ _ _ _ h
    rintro r tr a r' ev ⟨honce, hseen⟩ hs
    exact ⟨honce.step (hseen.protocol_eq ▸ hgrpc') hs, hseen.trans (says_of_step hs)⟩
  refine ⟨?_, by have := honce.online_le; omega, hseen.2⟩
  split_ifs with hnetty
  · exact (Nat.le_add_right _ _).trans honce.sources_le
  · refine (honce.unconnected (Option.eq_none_iff_forall_ne_some.mpr fun c hc => ?_)).le
    -- there is a client only for the protocol of the file
    have hname := (honce.client c hc).1
    rw [hseen.protocol_eq, hprotocol, Loader.orDefault] at hname
    split_ifs at hname
    · exact absurd hname (by decide)
    · exact hnetty hname

/-- The first attempt fails, the loop of attempts connects, and the collector is announced. -/
theorem netty_connects_at_most_once_retry :
    ∃ (parse : Str → Except Str CollectorConfig) (file cfg : CollectorConfig) (environ : Environ)
      (r : TransportRunner) (tr : List RunnerEvent),
      Loader.getConfigByPath parse (Go.str "etc/hertzbeat-collector.yaml") = .ok cfg ∧
      exec TransportRunner.step (new cfg environ) [.makeClient, .firstStart false, .wake,
        .retryStart true, .look, .send true, .close] = some (r, tr) ∧
      connects tr = 1 ∧ onlines tr = 1 ∧
      connects tr ≤ (if file.manager.protocol = Go.str "netty" then 1 else 0) ∧
      onlines tr ≤ connects tr ∧
      ∀ e ∈ tr, e = .connected (new cfg environ).addr ∨ e = (new cfg environ).onlineEvent := by
  let file : CollectorConfig :=
    { info := ⟨Go.str "10.0.0.7", [], Go.str "1157"⟩
      manager := ⟨Go.str "10.0.0.1", Go.str "1158", Go.str "netty"⟩ }
  have hloaded : Loader.getConfigByPath (fun _ => .ok file)
      (Go.str "etc/hertzbeat-collector.yaml") = .ok (Loader.applyDefaults file) := rfl
  have hrun : (exec TransportRunner.step (new (Loader.applyDefaults file) ⟨[], []⟩) [.makeClient,
      .firstStart false, .wake, .retryStart true, .look, .send true, .close]).map
        (fun p => (connects p.2, onlines p.2)) = some (1, 1) := rfl
  obtain ⟨⟨r, tr⟩, hexec, hcounts⟩ := Option.map_eq_some_iff.mp hrun
  obtain ⟨hconnects, honlines⟩ := Prod.mk.inj hcounts
  exact ⟨fun _ => .ok file, file, Loader.applyDefaults file, ⟨[], []⟩, r, tr, hloaded, hexec,
    hconnects, honlines, netty_connects_at_most_once rfl hloaded (by decide) hexec⟩

end TransportRunner

end HertzBeat
