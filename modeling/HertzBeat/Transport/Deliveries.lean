import HertzBeat.Transport.SyncCalls

/-!
# Whether a put into a future can block

A future has room for one response. Two sides put responses into it: the receive loop, for
every response under its identity that arrives while it is registered, and the call itself,
when the reply of the unary call carries its identity. The call takes at most one, and takes
none when it returns with the unary reply.

The *load* of a call counts the responses that are in its future or on their way there. A
put can block only where the load passes one, so the whole argument is about where the load
grows: `HertzBeat.SyncCalls.load_step`.
-/

namespace HertzBeat

open Go (Str)

/-! ### The load of a call -/

/-- The call is about to put the reply of the unary call. -/
def SyncPhase.isReplied : SyncPhase → Bool
  | .replied _ => true
  | _ => false

/-- The responses in the future of a call, and the one that the call is about to put. -/
def SyncCall.load (c : SyncCall) : ℕ :=
  (if c.future.response.isSome then 1 else 0) + if c.phase.isReplied then 1 else 0

/-- An error is in the future only after the call has put it, which is the last thing that
it does before it returns. -/
def SyncCall.ErrorLast (c : SyncCall) : Prop :=
  c.future.error ≠ none → c.phase.result ≠ none

namespace SyncCall

variable {client : ClientKind} {i : ℕ} {a : CallAction} {c c' : SyncCall}

/-- The call for itself raises its load only by the unary reply. -/
theorem load_step (h : c.step client i a = some c') :
    c'.load ≤ c.load ∨
      ∃ m, a = .sent (some m) ∧ m.identity = c.identity ∧ c'.load ≤ c.load + 1 := by
  rcases step_cases h with ⟨hp, rfl | rfl | ⟨m, ha, hid, rfl⟩⟩ | ⟨m, hp, hresponse, rfl⟩ |
    ⟨hp, -, rfl⟩ | ⟨hp, response, error, result, rfl, hresponse, -⟩
  · exact .inl (by simp [load, hp, SyncPhase.isReplied])
  · exact .inl (by simp [load, hp, SyncPhase.isReplied])
  · exact .inr ⟨m, ha, hid, by simp [load, hp, SyncPhase.isReplied]⟩
  -- the reply that was about to be put is in the future now
  · exact .inl (by simp [load, hp, hresponse, SyncPhase.isReplied])
  · exact .inl (by simp [load, hp, SyncPhase.isReplied])
  · refine .inl ?_
    rcases hresponse with rfl | rfl <;> simp [load, hp, SyncPhase.isReplied]

theorem ErrorLast.step (herror : c.ErrorLast) (h : c.step client i a = some c') :
    c'.ErrorLast := by
  rcases step_cases h with ⟨hp, rfl | rfl | ⟨m, -, -, rfl⟩⟩ | ⟨m, -, -, rfl⟩ |
    ⟨-, -, rfl⟩ | ⟨-, response, error, result, rfl, -⟩
  · exact fun hne => absurd (herror hne) (by simp [hp, SyncPhase.result])
  · exact fun hne => absurd (herror hne) (by simp [hp, SyncPhase.result])
  · exact fun hne => absurd (herror hne) (by simp [hp, SyncPhase.result])
  · exact fun _ => by simp [SyncPhase.result]
  · exact fun _ => by simp [SyncPhase.result]
  · exact fun _ => by simp [SyncPhase.result]

end SyncCall

namespace SyncCalls

variable {client : ClientKind} {s s' : SyncCalls} {ev : List Unit}

/-- The receive loops that are about to put into the future of a call. -/
def deliveriesTo (s : SyncCalls) (f : ℕ) : ℕ :=
  s.receivers.countP fun d => d.map Prod.fst = some f

/-- **The load of a call**: the responses in its future or on their way there. -/
def load (s : SyncCalls) (f : ℕ) : ℕ := (s.calls[f]?).elim 0 SyncCall.load + s.deliveriesTo f

/-- **No put blocks**: whenever a receive loop is about to put a response, or a call the
reply of its unary call or its error, there is room for it. -/
def NeverBlocks (s : SyncCalls) : Prop :=
  (∀ f r, some (f, r) ∈ s.receivers → ∀ c ∈ s.calls[f]?, c.future.response = none) ∧
    ∀ c ∈ s.calls, (c.phase.isReplied = true → c.future.response = none) ∧
      (c.phase = .failed → c.future.error = none)

/-- **One response at a time**: a response under the identity of a registered future, from
the stream or as the reply of the unary call, comes only while none is held for the call. -/
def OneAtATime (s : SyncCalls) : Action → Prop
  | .arrive _ r => ∀ f ∈ s.destination r.message, s.load f = 0
  | .call i (.sent (some m)) => ∀ c ∈ s.calls[i]?, m.identity = c.identity → s.load i = 0
  | _ => True

instance (s : SyncCalls) (a : Action) : Decidable (OneAtATime s a) :=
  match a with
  | .arrive _ r => inferInstanceAs (Decidable (∀ f ∈ s.destination r.message, s.load f = 0))
  | .call i (.sent (some m)) =>
    inferInstanceAs (Decidable (∀ c ∈ s.calls[i]?, m.identity = c.identity → s.load i = 0))
  | .call _ (.sent none) | .call _ .sendFails | .call _ .putResponse | .call _ .putError
  | .call _ .takeResponse | .call _ .takeError | .call _ .timeOut
  | .connect | .register _ | .delete _ | .deliver _ => inferInstanceAs (Decidable True)

/-! ### The invariant -/

/-- No call holds more than one response, and there are only calls that were made. -/
structure Unloaded (s : SyncCalls) : Prop where
  load_le : ∀ f, s.load f ≤ 1
  errorLast : ∀ c ∈ s.calls, c.ErrorLast
  registered : ∀ k f, s.responseTable.lookup k = some f → f < s.calls.length
  deliveries : ∀ f r, some (f, r) ∈ s.receivers → f < s.calls.length

theorem unloaded_new : Unloaded new where
  load_le := by simp [load, new, deliveriesTo]
  errorLast := by simp [new]
  registered := by simp [new]
  deliveries := by simp [new]

theorem deliveriesTo_eq_zero (h : s.Unloaded) {f : ℕ} (hf : s.calls.length ≤ f) :
    s.deliveriesTo f = 0 := by
  rw [deliveriesTo, List.countP_eq_zero]
  rintro d hd hdf
  obtain ⟨⟨f', r⟩, rfl, rfl⟩ := Option.map_eq_some_iff.mp (of_decide_eq_true hdf)
  exact absurd (h.deliveries f' r hd) (by omega)

theorem Unloaded.connect (h : s.Unloaded) :
    Unloaded { s with receivers := s.receivers ++ [none] } where
  load_le := by
    intro f
    have hf := h.load_le f
    simpa [load, deliveriesTo] using hf
  errorLast := h.errorLast
  registered := h.registered
  deliveries := fun f r hr => h.deliveries f r (by simpa using hr)

theorem Unloaded.register (h : s.Unloaded) (identity : Str) :
    Unloaded { s with
      calls := s.calls ++ [newCall identity]
      responseTable := s.responseTable.insert identity s.calls.length } where
  load_le := by
    intro f
    rcases lt_trichotomy f s.calls.length with hlt | rfl | hgt
    · have hf := h.load_le f
      simpa [load, deliveriesTo, List.getElem?_append_left hlt] using hf
    · have hzero := deliveriesTo_eq_zero h le_rfl
      simp only [deliveriesTo] at hzero
      simp [load, deliveriesTo, hzero, newCall, SyncCall.load, SyncPhase.isReplied]
    · have hzero := deliveriesTo_eq_zero h hgt.le
      simp only [deliveriesTo] at hzero
      have hnone : (s.calls ++ [newCall identity])[f]? = none := by
        rw [List.getElem?_eq_none_iff, List.length_append, List.length_singleton]
        omega
      simp [load, deliveriesTo, hzero, hnone]
  errorLast := by
    intro c hc
    rcases List.mem_append.mp hc with hold | hnew
    · exact h.errorLast c hold
    · rw [List.mem_singleton] at hnew
      subst hnew
      exact fun hne => absurd rfl hne
  registered := by
    intro k f hk
    rw [List.length_append, List.length_singleton]
    rcases Go.lookup_of_lookup_insert hk with ⟨-, rfl⟩ | hold
    · omega
    · have := h.registered k f hold
      omega
  deliveries := by
    intro f r hr
    have := h.deliveries f r hr
    rw [List.length_append]
    omega

/-- A call changes, and its load does not pass one. -/
theorem Unloaded.set (h : s.Unloaded) {i : ℕ} {c c' : SyncCall} (hc : s.calls[i]? = some c)
    (hload : c'.load + s.deliveriesTo i ≤ 1) (herror : c'.ErrorLast) :
    Unloaded { s with calls := s.calls.set i c' } where
  load_le := by
    intro f
    rcases eq_or_ne f i with rfl | hne
    · have hlt := (List.getElem?_eq_some_iff.mp hc).1
      simpa [load, deliveriesTo, List.getElem?_set_self hlt] using hload
    · have hf := h.load_le f
      simpa [load, deliveriesTo, List.getElem?_set_ne hne.symm] using hf
  errorLast := by
    intro d hd
    rcases List.mem_or_eq_of_mem_set hd with hold | rfl
    · exact h.errorLast d hold
    · exact herror
  registered := by simpa using h.registered
  deliveries := by simpa using h.deliveries

theorem load_eq {i : ℕ} {c : SyncCall} (hc : s.calls[i]? = some c) :
    s.load i = c.load + s.deliveriesTo i := by
  simp [load, hc]

/-- The receive loop exchanges what it is about to put. -/
theorem deliveriesTo_set {l f : ℕ} {d d' : Option (ℕ × Reply)} (hl : s.receivers[l]? = some d) :
    deliveriesTo { s with receivers := s.receivers.set l d' } f +
        (if d.map Prod.fst = some f then 1 else 0) =
      s.deliveriesTo f + if d'.map Prod.fst = some f then 1 else 0 := by
  obtain ⟨hlt, hget⟩ := List.getElem?_eq_some_iff.mp hl
  have hpos : d.map Prod.fst = some f → 0 < s.deliveriesTo f := by
    intro hd
    rw [deliveriesTo, List.countP_pos_iff]
    exact ⟨d, List.mem_of_getElem? hl, by simpa using hd⟩
  simp only [deliveriesTo, List.countP_set hlt, hget, decide_eq_true_eq] at hpos ⊢
  by_cases hd : d.map Prod.fst = some f
  · have := hpos hd
    simp only [if_pos hd]
    omega
  · simp only [if_neg hd]
    omega

theorem Unloaded.arrive (h : s.Unloaded) {l : ℕ} {r : Reply} (hl : s.receivers[l]? = some none)
    (hone : OneAtATime s (.arrive l r)) :
    Unloaded { s with
      receivers := s.receivers.set l ((s.destination r.message).map fun f => (f, r)) } where
  load_le := by
    intro f
    have hset := @deliveriesTo_set s l f none ((s.destination r.message).map fun f => (f, r)) hl
    have hf := h.load_le f
    simp only [Option.map_none, reduceCtorEq, if_false, Option.map_map] at hset
    simp only [load] at hf ⊢
    by_cases hdest : s.destination r.message = some f
    · have hzero := hone f hdest
      simp only [load] at hzero
      simp only [hdest, Option.map_some, Function.comp_apply, if_true] at hset
      simp only [hdest, Option.map_some]
      omega
    · have hother : ¬(s.destination r.message).map (Prod.fst ∘ fun f => (f, r)) = some f := by
        rintro hmap
        obtain ⟨f', hf', rfl⟩ := Option.map_eq_some_iff.mp hmap
        exact hdest hf'
      rw [if_neg hother] at hset
      omega
  errorLast := h.errorLast
  registered := h.registered
  deliveries := by
    intro f r' hmem
    rcases List.mem_or_eq_of_mem_set hmem with hold | hnew
    · exact h.deliveries f r' hold
    · obtain ⟨f', hdest, hpair⟩ := Option.map_eq_some_iff.mp hnew.symm
      obtain ⟨rfl, rfl⟩ := Prod.mk.inj hpair
      exact h.registered _ _ (destination_eq_some hdest)

theorem Unloaded.deliver (h : s.Unloaded) {l f : ℕ} {r : Reply} {c : SyncCall}
    (hl : s.receivers[l]? = some (some (f, r))) (hc : s.calls[f]? = some c)
    (hempty : c.future.response = none) :
    Unloaded { s with
      calls := s.calls.set f { c with future := { c.future with response := some r } }
      receivers := s.receivers.set l none } := by
  -- the loop first lets go of the response, and then it is in the future
  have hset := fun g => @deliveriesTo_set s l g (some (f, r)) none hl
  simp only [Option.map_some, Option.some.injEq, Option.map_none, reduceCtorEq, if_false] at hset
  have hfree : Unloaded { s with receivers := s.receivers.set l none } := by
    refine ⟨fun g => ?_, h.errorLast, h.registered, fun g r' hmem => ?_⟩
    · have hg := h.load_le g
      have := hset g
      simp only [load] at hg ⊢
      omega
    · rcases List.mem_or_eq_of_mem_set hmem with hold | hnew
      · exact h.deliveries g r' hold
      · simp at hnew
  refine hfree.set hc ?_ (h.errorLast c (List.mem_of_getElem? hc))
  have hf := h.load_le f
  have := hset f
  rw [load_eq hc] at hf
  simp only [if_true] at this
  simp only [SyncCall.load, hempty, Option.isSome_none, Option.isSome_some] at hf ⊢
  simp only [Bool.false_eq_true, if_false, if_true] at hf ⊢
  omega

/-- **One step keeps the load below two**, if it meets the condition. -/
theorem Unloaded.step {a : Action} (h : s.Unloaded) (hone : OneAtATime s a)
    (hs : SyncCalls.step client s a = some (s', ev)) : s'.Unloaded := by
  cases a with
  | connect =>
    obtain ⟨rfl, -⟩ := Prod.mk.inj (Option.some.inj hs)
    exact h.connect
  | register identity =>
    obtain ⟨rfl, -⟩ := Prod.mk.inj (Option.some.inj hs)
    exact h.register identity
  | call i a =>
    obtain ⟨c, c', hc, hstep, rfl⟩ := step_call hs
    refine h.set hc ?_ ((h.errorLast c (List.mem_of_getElem? hc)).step hstep)
    have hi := h.load_le i
    rw [load_eq hc] at hi
    rcases SyncCall.load_step hstep with hle | ⟨m, rfl, hid, hle⟩
    · omega
    · have hzero := hone c hc hid
      rw [load_eq hc] at hzero
      omega
  | delete i =>
    obtain ⟨c, result, hc, hphase, rfl⟩ := step_delete hs
    have hi := h.load_le i
    rw [load_eq hc] at hi
    have hset := @Unloaded.set s h i c { c with phase := .returned result } hc
      (by simpa [SyncCall.load, hphase, SyncPhase.isReplied] using hi)
      (fun _ => by simp [SyncPhase.result])
    exact ⟨hset.load_le, hset.errorLast,
      fun k f hk => hset.registered k f (Go.lookup_of_lookup_erase hk), hset.deliveries⟩
  | arrive l r =>
    obtain ⟨hl, rfl⟩ := step_arrive hs
    exact h.arrive hl hone
  | deliver l =>
    obtain ⟨f, r, c, hl, hc, hempty, rfl⟩ := step_deliver hs
    exact h.deliver hl hc hempty

theorem Unloaded.neverBlocks (h : s.Unloaded) : s.NeverBlocks := by
  refine ⟨fun f r hr c hc => ?_, fun c hc => ⟨fun hreplied => ?_, fun hfailed => ?_⟩⟩
  · have hpos : 0 < s.deliveriesTo f := List.countP_pos_iff.mpr ⟨some (f, r), hr, by simp⟩
    have hf := h.load_le f
    rw [load_eq hc] at hf
    by_contra hne
    simp only [SyncCall.load, Option.isSome_iff_ne_none.mpr hne, if_true] at hf
    omega
  · obtain ⟨f, hf⟩ := List.mem_iff_getElem?.mp hc
    have hle := h.load_le f
    rw [load_eq hf] at hle
    by_contra hne
    simp only [SyncCall.load, Option.isSome_iff_ne_none.mpr hne, hreplied, if_true] at hle
    omega
  · by_contra hne
    exact h.errorLast c hc hne (by rw [hfailed]; rfl)

/-- **In every run in which the responses to a call come one at a time, no put blocks.** -/
theorem neverBlocks_of_exec {as : List Action} {tr : List Unit}
    (hone : Runs.Meets (step .grpc) OneAtATime new as)
    (h : Runs.exec (step .grpc) new as = some (s, tr)) : s.NeverBlocks :=
  Unloaded.neverBlocks (Runs.exec_invariant_meets unloaded_new
    (fun _ _ _ _ hu hok hs => hu.step hok hs) hone h)

/-- A call that is answered on the stream, and takes the answer before a second one comes. -/
def answeredTwice : List Action :=
  [.connect, .register (Go.str "collector-go"), .call 0 (.sent none),
    .arrive 0 ⟨0, heartbeatAnswer⟩, .deliver 0, .call 0 .takeResponse,
    .arrive 0 ⟨0, heartbeatAnswer⟩]

theorem neverBlocks_answered_twice :
    ∃ s tr, Runs.exec (step .grpc) new answeredTwice = some (s, tr) ∧ s.NeverBlocks := by
  have hrun : (Runs.exec (step .grpc) new answeredTwice).isSome = true := rfl
  obtain ⟨⟨s, tr⟩, hs⟩ := Option.isSome_iff_exists.mp hrun
  exact ⟨s, tr, hs, neverBlocks_of_exec (Runs.meets_of_checks rfl) hs⟩

/-- The answer comes on the stream while the unary call is under way, and then its reply
carries the identity too. -/
def streamAndUnary : List Action :=
  [.connect, .register (Go.str "collector-go"), .arrive 0 ⟨0, heartbeatAnswer⟩, .deliver 0,
    .call 0 (.sent (some heartbeatAnswer))]

/-- **A put blocks**: the call is about to put the reply into a future that is full, and
nobody but itself would ever take the response out of it. -/
theorem not_neverBlocks_stream_and_unary :
    ∃ s tr, Runs.exec (step .grpc) new streamAndUnary = some (s, tr) ∧ ¬s.NeverBlocks := by
  have hrun : (Runs.exec (step .grpc) new streamAndUnary).map
      (fun p => p.1.calls[0]?.map fun c => (c.phase, c.future.response)) =
        some (some (.replied heartbeatAnswer, some ⟨0, heartbeatAnswer⟩)) := by
    rfl
  obtain ⟨⟨s, tr⟩, hs, hcall⟩ := Option.map_eq_some_iff.mp hrun
  obtain ⟨c, hc, hpair⟩ := Option.map_eq_some_iff.mp hcall
  obtain ⟨hphase, hresponse⟩ := Prod.mk.inj hpair
  refine ⟨s, tr, hs, fun hnever => ?_⟩
  have hempty := (hnever.2 c (List.mem_of_getElem? hc)).1 (by rw [hphase]; rfl)
  rw [hresponse] at hempty
  exact absurd hempty (by simp)

end SyncCalls

end HertzBeat
