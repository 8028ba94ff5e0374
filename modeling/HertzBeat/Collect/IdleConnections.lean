import HertzBeat.Collect.Connections
import HertzBeat.Lib.Run

/-!
# What collections leave open

The connections of the HTTP collector, and those of all the collections that a process makes.

An HTTP client has a transport, which sends a request over the connection that it keeps idle for
the server – the scheme and the address – or else over a new one. Once the body of the response
was read to its end, it keeps the connection, unless the target has closed it. `client.Do` is more
than one request where the target redirects it, and a connection whose dial outlives the request
is kept as well. Every collection makes a transport of its own, without a limit for idle
connections, and never closes what it keeps.

`HertzBeat.Sockets.sockets_left_open` adds up what any sequence of collections has left open.
-/

namespace HertzBeat.Sockets

open Go (Str)
open Handles

/-! ### The HTTP collector -/

namespace HTTPCollector

open HertzBeat.HTTPCollector (Env Request handleDigestAuth targetURL createRequest clientTimeout
  parseResponse fillCommonFields)

variable {URL : Type} (env : Env URL)

/-- A connection that the transport has used: to which server, and whether it was kept. -/
structure Hop where
  server : Str
  kept : Bool

/-- What an exchange meets: the connections that it uses before the one that the response comes
with – one for each redirection, and one that was lost or comes too late if it fails –, the server
that the response comes from, and whether that leaves the connection open. -/
structure Route where
  hops : List Hop
  server : Str
  reusable : Bool

section

variable (route : ℕ → Route)

/-- The connection to a server: the idle one, or a new one. -/
def getConn {ε : Type} (server : Str) (idle : Go.Map Str ℕ) : Prog ε (ℕ × Go.Map Str ℕ) :=
  match idle.lookup server with
  | some conn => pure (conn, idle.erase server)
  | none => do
    let (_, conn) ← acquire (.ok ())
    return (conn, idle)

/-- A connection is kept, or closed. -/
def putConn {ε : Type} (server : Str) (kept : Bool) (conn : ℕ) (idle : Go.Map Str ℕ) :
    Prog ε (Go.Map Str ℕ) :=
  if kept then pure (idle.insert server conn)
  else do
    close {conn}
    return idle

/-- The connections that an exchange uses before the one that the response comes with. -/
def followHops {ε : Type} : List Hop → Go.Map Str ℕ → Prog ε (Go.Map Str ℕ)
  | [], idle => pure idle
  | hop :: hops, idle => do
    let (conn, idle) ← getConn hop.server idle
    let idle ← putConn hop.server hop.kept conn idle
    followHops hops idle

/-- `client.Do`: the response with its connection, and what the transport keeps then. -/
def exchange {ε : Type} (timeout : ℤ) (i : ℕ) (req : Request URL) (idle : Go.Map Str ℕ) :
    Prog ε (Except Str (HTTPCollector.Response × ℕ) × Go.Map Str ℕ) := do
  let idle ← followHops (route i).hops idle
  match env.exchange timeout i req with
  | .error err => return (.error err, idle)
  | .ok resp =>
    let (conn, idle) ← getConn (route i).server idle
    return (.ok (resp, conn), idle)

/-- What becomes of the connection of a response whose body was read and is closed. -/
def answered (i : ℕ) (resp : HTTPCollector.Response) : Hop :=
  ⟨(route i).server, (route i).reusable && resp.body.isOk⟩

/-- The body of a response was read and is closed. -/
def closeBody {ε : Type} (i : ℕ) (resp : HTTPCollector.Response) (conn : ℕ)
    (idle : Go.Map Str ℕ) : Prog ε (Go.Map Str ℕ) :=
  putConn (answered route i resp).server (answered route i resp).kept conn idle

/-- The request is sent, and once more to answer a digest challenge: the response and, unless its
body is already closed, the exchange and the connection that it came with; and what the transport
keeps. -/
def exchangeAll (config : HTTPProtocol Option) (timeout : ℤ) (req : Request URL) :
    Prog Go.Panic (Except Str (HTTPCollector.Response × Option (ℕ × ℕ)) × Go.Map Str ℕ) := do
  let (answer, idle) ← exchange env route timeout 0 req ∅
  match answer, config.authorization with
  | .ok (resp, conn), some auth =>
    if resp.statusCode = 401 ∧ env.text.equalFold auth.type (Go.str "Digest Auth") then
      let idle ← closeBody route 0 resp conn idle
      let closed : HTTPCollector.Response := { resp with body := resp.closedBody }
      let authHeader := resp.header (Go.str "WWW-Authenticate")
      if authHeader = [] then return (.ok (closed, none), idle)
      else match handleDigestAuth env req authHeader auth with
        | .error p => lift (.error p)
        | .ok (.error _) => return (.ok (closed, none), idle)
        | .ok (.ok digestReq) =>
          let (answer, idle) ← exchange env route timeout 1 digestReq idle
          match answer with
          | .error err => return (.error err, idle)
          | .ok (resp, conn) => return (.ok (resp, some (1, conn)), idle)
    else return (.ok (resp, some (0, conn)), idle)
  | .ok (resp, conn), none => return (.ok (resp, some (0, conn)), idle)
  | .error err, _ => return (.error err, idle)

/-- What is made of the response. -/
def respond (metrics : Metrics Option) (config : HTTPProtocol Option)
    (resp : HTTPCollector.Response) : Except Go.Panic CollectRepMetricsData :=
  match resp.body with
  | .error err => .ok (createFailResponse metrics env.now .fail
      (Go.str "failed to read body: " ++ err))
  | .ok body =>
    match parseResponse env resp body metrics config with
    | .error err => .ok (createFailResponse metrics env.now .fail (Go.str "parse error: " ++ err))
    | .ok response => fillCommonFields env response metrics.aliases resp.statusCode

/-- `Collect`. The transport of its client is not closed. -/
def collect (metrics : Metrics Option) : Prog Go.Panic CollectRepMetricsData :=
  match metrics.http with
  | none => lift (.error .nilDereference)
  | some config =>
    let fail (code : CollectCode) (msg : Str) : Prog Go.Panic CollectRepMetricsData :=
      pure (createFailResponse metrics env.now code msg)
    let url := targetURL metrics config
    if url = [] then fail .fail (Go.str "target URL is empty")
    else match createRequest env config url with
      | .error err => fail .fail (Go.str "failed to create request: " ++ err)
      | .ok req => do
        let (answer, idle) ← exchangeAll env route config (clientTimeout metrics config) req
        match answer with
        | .error err => fail .unReachable (Go.str "request failed: " ++ err)
        | .ok (resp, none) => lift (respond env metrics config resp)
        | .ok (resp, some (i, conn)) => do
          let _ ← closeBody route i resp conn idle
          lift (respond env metrics config resp)

/-- The request that answers a digest challenge, if one is made. -/
def secondRequest (config : HTTPProtocol Option) (req : Request URL)
    (resp : HTTPCollector.Response) : Option (Request URL) :=
  match config.authorization with
  | none => none
  | some auth =>
    if resp.statusCode = 401 ∧ env.text.equalFold auth.type (Go.str "Digest Auth") then
      let authHeader := resp.header (Go.str "WWW-Authenticate")
      if authHeader = [] then none
      else match handleDigestAuth env req authHeader auth with
        | .ok (.ok digestReq) => some digestReq
        | _ => none
    else none

/-- The connections that a collection uses, one after another. -/
def uses (config : HTTPProtocol Option) (timeout : ℤ) (req : Request URL) : List Hop :=
  (route 0).hops ++
    match env.exchange timeout 0 req with
    | .error _ => []
    | .ok resp => answered route 0 resp ::
      match secondRequest env config req resp with
      | none => []
      | some digestReq => (route 1).hops ++
        match env.exchange timeout 1 digestReq with
        | .error _ => []
        | .ok resp => [answered route 1 resp]

/-- The servers to which there is an idle connection after one more was used. -/
def idleAfter (servers : Finset Str) (hop : Hop) : Finset Str :=
  if hop.kept then insert hop.server servers else servers.erase hop.server

/-- The number of sockets that a collection leaves open: one for each server to which the last
connection was kept. -/
def leaves (metrics : Metrics Option) : ℕ :=
  match metrics.http with
  | none => 0
  | some config =>
    let url := targetURL metrics config
    if url = [] then 0
    else match createRequest env config url with
      | .error _ => 0
      | .ok req =>
        ((uses env route config (clientTimeout metrics config) req).foldl idleAfter ∅).card

end

variable {env} {route : ℕ → Route}

/-! #### What the transport keeps -/

/-- The transport keeps a connection to each of the servers, and these are what is open. -/
structure Idle (servers : Finset Str) (idle : Go.Map Str ℕ) (H : Finset ℕ) : Prop where
  server_iff : ∀ k, k ∈ servers ↔ ∃ n, idle.lookup k = some n
  open_iff : ∀ n, n ∈ H ↔ ∃ k, idle.lookup k = some n
  inj : ∀ k k' n, idle.lookup k = some n → idle.lookup k' = some n → k = k'

theorem idle_empty {H : Finset ℕ} (h : H = ∅) : Idle ∅ ∅ H := by
  subst h
  exact ⟨fun k => by simp, fun n => by simp, fun k k' n hk => absurd hk (by simp)⟩

theorem Idle.card_eq {servers : Finset Str} {idle : Go.Map Str ℕ} {H : Finset ℕ}
    (h : Idle servers idle H) : H.card = servers.card := by
  refine (Finset.card_bij (fun k _ => (idle.lookup k).getD 0) ?_ ?_ ?_).symm
  · intro k hk
    obtain ⟨n, hn⟩ := (h.server_iff k).mp hk
    rw [hn]
    exact (h.open_iff n).mpr ⟨k, hn⟩
  · intro k hk k' hk' heq
    obtain ⟨n, hn⟩ := (h.server_iff k).mp hk
    obtain ⟨n', hn'⟩ := (h.server_iff k').mp hk'
    rw [hn, hn'] at heq
    obtain rfl : n = n' := heq
    exact h.inj k k' n hn hn'
  · intro n hn
    obtain ⟨k, hk⟩ := (h.open_iff n).mp hn
    exact ⟨k, (h.server_iff k).mpr ⟨n, hk⟩, by rw [hk]; rfl⟩

/-- A connection in use, besides those that the transport keeps. -/
def InUse (servers : Finset Str) (conn : ℕ) (idle : Go.Map Str ℕ) (H : Finset ℕ) : Prop :=
  ∃ H', H = insert conn H' ∧ conn ∉ H' ∧ Idle servers idle H'

theorem InUse.mem {servers : Finset Str} {conn : ℕ} {idle : Go.Map Str ℕ} {H : Finset ℕ}
    (h : InUse servers conn idle H) : {conn} ⊆ H := by
  obtain ⟨H', rfl, -, -⟩ := h
  exact Finset.singleton_subset_iff.mpr (Finset.mem_insert_self conn H')

/-- A connection that is taken is no longer kept. -/
theorem Idle.take {servers : Finset Str} {idle : Go.Map Str ℕ} {H : Finset ℕ} {server : Str}
    {conn : ℕ} (h : Idle servers idle H) (hl : idle.lookup server = some conn) :
    InUse (servers.erase server) conn (idle.erase server) H := by
  have hother : ∀ k n, (idle.erase server).lookup k = some n ↔
      k ≠ server ∧ idle.lookup k = some n := by
    intro k n
    rcases eq_or_ne k server with rfl | hne
    · simp [AList.lookup_erase]
    · simp [AList.lookup_erase_ne hne, hne]
  refine ⟨H.erase conn, ?_, Finset.notMem_erase conn H, fun k => ?_, fun n => ?_,
    fun k k' n hk hk' => ?_⟩
  · exact (Finset.insert_erase ((h.open_iff conn).mpr ⟨server, hl⟩)).symm
  · simp only [Finset.mem_erase, h.server_iff, hother, exists_and_left]
  · rw [Finset.mem_erase, h.open_iff]
    simp only [hother]
    constructor
    · rintro ⟨hne, k, hk⟩
      refine ⟨k, ?_, hk⟩
      rintro rfl
      exact hne (Option.some.inj (hk.symm.trans hl))
    · rintro ⟨k, hne, hk⟩
      refine ⟨?_, k, hk⟩
      rintro rfl
      exact hne (h.inj k server n hk hl)
  · exact h.inj k k' n ((hother k n).mp hk).2 ((hother k' n).mp hk').2

/-- A connection that is put back is kept. -/
theorem InUse.put {servers : Finset Str} {idle : Go.Map Str ℕ} {H : Finset ℕ} {server : Str}
    {conn : ℕ} (h : InUse servers conn idle H) (hserver : server ∉ servers) :
    Idle (insert server servers) (idle.insert server conn) H := by
  obtain ⟨H', rfl, hnew, hidle⟩ := h
  have hnone : ∀ n, idle.lookup server ≠ some n := fun n hn =>
    hserver ((hidle.server_iff server).mpr ⟨n, hn⟩)
  have hlookup : ∀ k n, (idle.insert server conn).lookup k = some n ↔
      k = server ∧ n = conn ∨ idle.lookup k = some n := by
    intro k n
    rcases eq_or_ne k server with rfl | hne
    · simp [AList.lookup_insert, hnone, eq_comm]
    · simp [AList.lookup_insert_ne hne, hne]
  -- a connection that is in use is not one of those that are kept
  have hfree : ∀ k, idle.lookup k ≠ some conn := fun k hk =>
    hnew ((hidle.open_iff conn).mpr ⟨k, hk⟩)
  refine ⟨fun k => ?_, fun n => ?_, fun k k' n hk hk' => ?_⟩
  · rw [Finset.mem_insert, hidle.server_iff]
    simp only [hlookup]
    constructor
    · rintro (rfl | ⟨n, hn⟩)
      · exact ⟨conn, .inl ⟨rfl, rfl⟩⟩
      · exact ⟨n, .inr hn⟩
    · rintro ⟨n, ⟨rfl, -⟩ | hn⟩
      · exact .inl rfl
      · exact .inr ⟨n, hn⟩
  · rw [Finset.mem_insert, hidle.open_iff]
    simp only [hlookup]
    constructor
    · rintro (rfl | ⟨k, hk⟩)
      · exact ⟨server, .inl ⟨rfl, rfl⟩⟩
      · exact ⟨k, .inr hk⟩
    · rintro ⟨k, ⟨-, rfl⟩ | hk⟩
      · exact .inl rfl
      · exact .inr ⟨k, hk⟩
  · rcases (hlookup k n).mp hk with ⟨rfl, rfl⟩ | hold
    · rcases (hlookup k' n).mp hk' with ⟨rfl, -⟩ | hold'
      · rfl
      · exact absurd hold' (hfree k')
    · rcases (hlookup k' n).mp hk' with ⟨rfl, rfl⟩ | hold'
      · exact absurd hold (hfree k)
      · exact hidle.inj k k' n hold hold'

section Transport

variable {ε : Type} (servers : Finset Str) (server : Str) (idle : Go.Map Str ℕ)

theorem owns_getConn :
    Owns (Idle servers idle) (getConn (ε := ε) server idle)
      (Yields fun a => InUse (servers.erase server) a.1 a.2) := by
  unfold getConn
  rcases hl : idle.lookup server with _ | conn
  · refine Owns.bind_yields (S := fun a => InUse (servers.erase server) a.2 idle)
      (owns_acquire ?_ ?_) fun a => ?_
    · rintro a H n - hidle hn
      have herase : servers.erase server = servers := Finset.erase_eq_of_notMem fun hmem => by
        obtain ⟨m, hm⟩ := (hidle.server_iff server).mp hmem
        exact absurd (hl.symm.trans hm) (by simp)
      exact ⟨H, rfl, hn, by rwa [herase]⟩
    · intro e H he
      cases he
    · exact owns_pure fun _ h => h
  · exact owns_pure fun H hidle => hidle.take hl

theorem owns_putConn (hserver : server ∉ servers) (kept : Bool) (conn : ℕ) :
    Owns (InUse servers conn idle) (putConn (ε := ε) server kept conn idle)
      (Yields (Idle (if kept then insert server servers else servers))) := by
  unfold putConn
  cases kept with
  | false =>
    refine owns_bind_close (fun _ h => h.mem) (owns_pure ?_)
    rintro H ⟨_, ⟨H', rfl, hnew, hidle⟩, rfl⟩
    rw [Finset.insert_sdiff_of_mem _ (Finset.mem_singleton_self conn),
      Finset.sdiff_singleton_eq_erase, Finset.erase_eq_of_notMem hnew]
    exact hidle
  | true => exact owns_pure fun H h => h.put hserver

theorem idleAfter_eq (hop : Hop) : (if hop.kept then insert hop.server (servers.erase hop.server)
    else servers.erase hop.server) = idleAfter servers hop := by
  have hinsert : insert hop.server (servers.erase hop.server) = insert hop.server servers := by
    ext k
    by_cases hk : k = hop.server <;> simp [hk]
  rw [idleAfter, hinsert]

theorem owns_followHops (hops : List Hop) :
    Owns (Idle servers idle) (followHops (ε := ε) hops idle)
      (Yields (Idle (hops.foldl idleAfter servers))) := by
  induction hops generalizing servers idle with
  | nil => exact owns_pure fun _ h => h
  | cons hop hops ih =>
    refine (owns_getConn servers hop.server idle).bind_yields fun a => ?_
    refine (owns_putConn _ hop.server a.2 (Finset.notMem_erase _ _) hop.kept a.1).bind_yields
      fun idle' => ?_
    rw [idleAfter_eq]
    exact ih _ idle'

/-- After an exchange there is what the transport keeps and, if there is a response, its
connection. -/
theorem owns_bind_exchange {α : Type} {timeout : ℤ} {i : ℕ} {req : Request URL}
    {q : Except Str (HTTPCollector.Response × ℕ) × Go.Map Str ℕ → Prog ε α}
    {R : Except ε α → Finset ℕ → Prop}
    (herr : ∀ err idle', env.exchange timeout i req = .error err →
      Owns (Idle ((route i).hops.foldl idleAfter servers) idle') (q (.error err, idle')) R)
    (hok : ∀ resp conn idle', env.exchange timeout i req = .ok resp →
      Owns (InUse (((route i).hops.foldl idleAfter servers).erase (route i).server) conn idle')
        (q (.ok (resp, conn), idle')) R) :
    Owns (Idle servers idle) (exchange env route timeout i req idle >>= q) R := by
  unfold exchange
  rw [bind_assoc]
  refine (owns_followHops servers idle (route i).hops).bind_yields fun idle' => ?_
  rcases hx : env.exchange timeout i req with err | resp
  · exact herr err idle' hx
  · rw [bind_assoc]
    exact (owns_getConn _ (route i).server idle').bind_yields fun a => hok resp a.1 a.2 hx

theorem owns_closeBody (i : ℕ) (resp : HTTPCollector.Response) (conn : ℕ) :
    Owns (InUse (servers.erase (route i).server) conn idle)
      (closeBody (ε := ε) route i resp conn idle)
      (Yields (Idle (idleAfter servers (answered route i resp)))) := by
  rw [← idleAfter_eq]
  exact owns_putConn _ _ idle (Finset.notMem_erase _ _) _ conn

end Transport

/-- What is open after the exchanges: where the body of the response is open, its connection and
what the transport keeps, and else what it keeps. -/
def Answered (route : ℕ → Route) (left : Finset Str) :
    Except Go.Panic (Except Str (HTTPCollector.Response × Option (ℕ × ℕ)) × Go.Map Str ℕ) →
      Finset ℕ → Prop
  | .ok (.ok (resp, some (i, conn)), idle), H => ∃ servers,
      InUse (servers.erase (route i).server) conn idle H ∧
        idleAfter servers (answered route i resp) = left
  | _, H => H.card = left.card

theorem owns_exchangeAll (config : HTTPProtocol Option) (timeout : ℤ) (req : Request URL) :
    Owns (· = ∅) (exchangeAll env route config timeout req)
      (Answered route ((uses env route config timeout req).foldl idleAfter ∅)) := by
  unfold exchangeAll uses
  refine Owns.mono (P := Idle ∅ ∅) ?_ (fun _ h => idle_empty h) fun _ _ h => h
  rw [List.foldl_append]
  refine owns_bind_exchange ∅ ∅ (fun err idle hx => ?_) fun resp conn idle hx => ?_
  · rw [hx]
    exact owns_pure fun H h => h.card_eq
  · simp only [hx, List.foldl_cons]
    unfold secondRequest
    cases config.authorization with
    | none => exact owns_pure fun H h => ⟨_, h, rfl⟩
    | some auth =>
      simp only
      split_ifs with hdigest hheader
      -- a challenge: the first body is closed, and the transport may keep its connection
      · exact (owns_closeBody _ idle 0 resp conn).bind_yields fun idle => owns_pure fun H h =>
          h.card_eq
      · refine (owns_closeBody _ idle 0 resp conn).bind_yields fun idle => ?_
        cases handleDigestAuth env req (resp.header (Go.str "WWW-Authenticate")) auth with
        | error p => exact owns_lift fun H h => h.card_eq
        | ok digest =>
          cases digest with
          | error err => exact owns_pure fun H h => h.card_eq
          | ok digestReq =>
            simp only [List.foldl_append]
            refine owns_bind_exchange _ idle (fun err idle hy => ?_) fun resp conn idle hy => ?_
            · rw [hy]
              exact owns_pure fun H h => h.card_eq
            · rw [hy]
              exact owns_pure fun H h => ⟨_, h, rfl⟩
      · exact owns_pure fun H h => ⟨_, h, rfl⟩

theorem owns_collect (metrics : Metrics Option) :
    Owns (· = ∅) (collect env route metrics) fun _ H => H.card = leaves env route metrics := by
  have hnone : ∀ {a : CollectRepMetricsData}, Owns (· = ∅) (pure a : Prog Go.Panic _)
      fun _ H => H.card = 0 := owns_pure fun _ h => congrArg Finset.card h
  unfold collect leaves
  cases metrics.http with
  | none => exact owns_lift fun _ h => congrArg Finset.card h
  | some config =>
    simp only
    split_ifs with hurl
    · exact hnone
    · cases createRequest env config (targetURL metrics config) with
      | error err => exact hnone
      | ok req =>
        simp only
        refine (owns_exchangeAll config (clientTimeout metrics config) req).bind
          (fun a => ?_) fun _ _ h => h
        obtain ⟨err | ⟨resp, - | ⟨i, conn⟩⟩, idle⟩ := a
        · exact owns_pure fun _ h => h
        · exact owns_lift fun _ h => h
        · refine owns_exists fun servers => owns_and fun hleft => ?_
          rw [← hleft]
          exact (owns_closeBody servers idle i resp conn).bind_yields fun _ =>
            owns_lift fun H h => h.card_eq

/-! #### What a collection returns -/

section Returns

variable {ε : Type}

theorem total_getConn (server : Str) (idle : Go.Map Str ℕ) :
    Total (getConn (ε := ε) server idle) := by
  unfold getConn
  cases idle.lookup server with
  | none => exact fun t => ⟨_, _, rfl⟩
  | some conn => exact total_pure _

theorem total_putConn (server : Str) (kept : Bool) (conn : ℕ) (idle : Go.Map Str ℕ) :
    Total (putConn (ε := ε) server kept conn idle) := by
  unfold putConn
  cases kept with
  | false => exact fun t => ⟨_, _, rfl⟩
  | true => exact total_pure _

theorem total_followHops (hops : List Hop) (idle : Go.Map Str ℕ) :
    Total (followHops (ε := ε) hops idle) := by
  induction hops generalizing idle with
  | nil => exact total_pure _
  | cons hop hops ih =>
    exact (total_getConn hop.server idle).bind fun a =>
      (total_putConn hop.server hop.kept a.1 a.2).bind fun idle' => ih idle'

theorem returns_exchange (timeout : ℤ) (i : ℕ) (req : Request URL) (idle : Go.Map Str ℕ) :
    Returns (exchange (ε := ε) env route timeout i req idle) (fun a => a.1.map Prod.fst)
      (.ok (env.exchange timeout i req)) := by
  unfold exchange
  refine (total_followHops (route i).hops idle).returns_bind fun idle' => ?_
  cases env.exchange timeout i req with
  | error err => exact fun _ => rfl
  | ok resp => exact (total_getConn _ idle').returns_bind fun a _ => rfl

end Returns

theorem returns_exchangeAll (config : HTTPProtocol Option) (timeout : ℤ) (req : Request URL) :
    Returns (exchangeAll env route config timeout req) (fun a => a.1.map Prod.fst)
      (HertzBeat.HTTPCollector.exchangeAll env config timeout req) := by
  unfold exchangeAll HertzBeat.HTTPCollector.exchangeAll
  refine (returns_exchange timeout 0 req ∅).bind_cases (fun a ha => ?_) fun p hp => by cases hp
  obtain ⟨answer, idle⟩ := a
  rw [Except.ok.inj ha]
  cases answer with
  | error err => exact fun _ => rfl
  | ok answer =>
    simp only [Except.map]
    cases config.authorization with
    | none => exact fun _ => rfl
    | some auth =>
      simp only
      split_ifs with hdigest hheader
      · exact (total_putConn _ _ _ _).returns_bind fun idle _ => rfl
      · refine (total_putConn _ _ _ _).returns_bind fun idle => ?_
        cases handleDigestAuth env req (answer.1.header (Go.str "WWW-Authenticate")) auth with
        | error p => exact fun _ => rfl
        | ok digest =>
          cases digest with
          | error err => exact fun _ => rfl
          | ok digestReq =>
            refine (returns_exchange timeout 1 digestReq idle).bind_cases (fun a ha => ?_)
              fun p hp => by cases hp
            obtain ⟨answer, idle⟩ := a
            simp only [Except.ok.inj ha]
            cases answer <;> exact fun _ => rfl
      · exact fun _ => rfl

theorem returns_collect (metrics : Metrics Option) :
    Returns (collect env route metrics) id (HertzBeat.HTTPCollector.collect env metrics) := by
  unfold collect HertzBeat.HTTPCollector.collect
  cases metrics.http with
  | none => exact fun _ => rfl
  | some config =>
    simp only
    split_ifs with hurl
    · exact fun _ => rfl
    · cases createRequest env config (targetURL metrics config) with
      | error err => exact fun _ => rfl
      | ok req =>
        refine (returns_exchangeAll config (clientTimeout metrics config) req).bind_cases
          (fun a ha => ?_) fun p hp => ?_
        · simp only [ha]
          obtain ⟨err | ⟨resp, - | ⟨i, conn⟩⟩, idle⟩ := a
          · exact fun _ => rfl
          · exact returns_lift _
          · exact (total_putConn _ _ _ _).returns_bind fun idle => returns_lift _
        · simp only [hp]

end HTTPCollector

/-! ### A collection of any protocol -/

/-- A collection, with what it meets. -/
structure Collection (URL F Program : Type) where
  env : MetricsCollector.Env URL F Program
  collector : MetricsCollector.Collector
  metrics : Metrics Option
  /-- What the exchanges of an HTTP collection meet. -/
  route : ℕ → HTTPCollector.Route
  /-- The addresses that the pools of a Redis client dial. -/
  dialled : List Str

namespace Collection

variable {URL F Program : Type}

/-- `Collect` of the collector. -/
def collect (c : Collection URL F Program) : Prog Go.Panic CollectRepMetricsData :=
  match c.collector with
  | .http => HTTPCollector.collect c.env.http c.route c.metrics
  | .ssh => SSHCollector.collect c.env.ssh c.metrics
  | .jdbc => JDBCCollector.collect c.env.jdbc c.metrics
  | .redis => RedisCollector.collect c.env.redis c.dialled c.metrics
  | .milvus => MilvusCollector.collect c.env.milvus c.metrics

/-- The number of sockets that a collection leaves open. -/
def leaves (c : Collection URL F Program) : ℕ :=
  match c.collector with
  | .http => HTTPCollector.leaves c.env.http c.route c.metrics
  | .ssh => SSHCollector.leaves c.env.ssh c.metrics
  | .jdbc | .redis | .milvus => 0

theorem returns_collect (c : Collection URL F Program) :
    Returns c.collect some (c.collector.collect c.env c.metrics) := by
  have hmap : ∀ {p : Prog Go.Panic CollectRepMetricsData} {r}, Returns p id r →
      Returns p some (some <$> r) := by
    intro p r h t
    rw [← h t]
    cases (p t).1 <;> rfl
  unfold collect
  cases c.collector with
  | http => exact hmap (HTTPCollector.returns_collect c.metrics)
  | ssh => exact hmap (SSHCollector.returns_collect _ c.metrics)
  | jdbc => exact hmap (JDBCCollector.returns_collect _ c.metrics)
  | redis => exact hmap (RedisCollector.returns_collect _ c.dialled c.metrics)
  | milvus => exact hmap (MilvusCollector.returns_collect _ c.metrics)

theorem owns_collect (c : Collection URL F Program) :
    Owns (· = ∅) c.collect fun _ H => H.card = c.leaves := by
  have hnone : ∀ {p : Prog Go.Panic CollectRepMetricsData}, Owns (· = ∅) p (fun _ H => H = ∅) →
      Owns (· = ∅) p fun _ H => H.card = 0 :=
    fun h => h.mono (fun _ hH => hH) fun _ _ hH => congrArg Finset.card hH
  unfold collect leaves
  cases c.collector with
  | http => exact HTTPCollector.owns_collect c.metrics
  | ssh => exact SSHCollector.owns_collect _ c.metrics
  | jdbc => exact hnone (JDBCCollector.owns_collect _ c.metrics)
  | redis => exact hnone (RedisCollector.owns_collect _ c.dialled c.metrics)
  | milvus => exact hnone (MilvusCollector.owns_collect _ c.metrics)

/-- A collection is a step of the process: its event is what it returned. -/
def step (t : Table) (c : Collection URL F Program) :
    Option (Table × List (Except Go.Panic CollectRepMetricsData)) :=
  some ((c.collect t).2, [(c.collect t).1])

end Collection

open Runs

variable {URL F Program : Type}

/-- **What collections leave open.** However many of them a process has made, of whatever
protocols and with whatever outcome of every call, they returned what the collectors return, the
sockets that were open stay open, and the others are, for each HTTP collection, one for each server
to which the last connection that it used was kept, and one for each SSH collection that reached
its target through a proxy. -/
theorem sockets_left_open (cs : List (Collection URL F Program)) (t : Table) :
    ∃ t' results, exec Collection.step t cs = some (t', results) ∧
      results.map (·.map some) = cs.map (fun c => c.collector.collect c.env c.metrics) ∧
      t.opened ⊆ t'.opened ∧
      t'.opened.card = t.opened.card + (cs.map Collection.leaves).sum := by
  induction cs generalizing t with
  | nil => exact ⟨t, [], rfl, rfl, subset_rfl, rfl⟩
  | cons c cs ih =>
    obtain ⟨H, hopened, hdisj, hcard⟩ := (Collection.owns_collect c).opened t
    obtain ⟨t', results, hexec, hresults, hsub, hsum⟩ := ih (c.collect t).2
    refine ⟨t', (c.collect t).1 :: results, ?_, ?_, ?_, ?_⟩
    · exact exec_cons.mpr ⟨_, _, _, rfl, hexec, rfl⟩
    · rw [List.map_cons, List.map_cons, hresults, c.returns_collect t]
    · exact (hopened ▸ Finset.subset_union_left).trans hsub
    · rw [hsum, hopened, Finset.card_union_of_disjoint hdisj, hcard, List.map_cons, List.sum_cons,
        Nat.add_assoc]

end HertzBeat.Sockets
