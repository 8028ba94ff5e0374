import HertzBeat.Lib.Bufio
import HertzBeat.Lib.Run
import Mathlib.Data.List.Perm.Subperm

/-!
# Many senders on one Netty connection

`SendMsg` and `SendMsgSync` of `internal/transport/netty_client.go`, as far as they write
to the connection. Both hold the read lock of the client while they write, and a read lock
admits any number of readers; so results, heartbeats and replies that are sent at the same
time share one `bufio.Writer` without anything between them.

A call is a frame and the state of its write. The run of a client is a run of the steps of
all its calls, in any order: each round of the copying loop and each flush is one step. A
call that fails before it writes, because the client is not started or the message cannot
be marshalled, leaves no trace here.

The bytes of two frames are mixed exactly when one call copies while another has copied
only a part of its own frame; `HertzBeat.NettyClient.unmixed_of_exec` says that there is no
other way.
-/

namespace HertzBeat

namespace NettyClient

open Go (Bufio WriteState)

/-- A call: the compressed frame that it writes, and how far it has come. -/
structure Call where
  frame : List UInt8
  phase : WriteState
  deriving DecidableEq

/-- The senders of a connection. -/
structure Writers where
  writer : Bufio
  calls : List Call

/-- The steps of the senders. -/
inductive WriterAction where
  /-- A call takes the read lock, with its frame made. -/
  | rLock (frame : List UInt8)
  /-- The `i`-th call takes its next step. If that is a write to the connection it may fail
  after some bytes. -/
  | advance (i : ℕ) (fails : Option ℕ)

/-- The buffer of `bufio.NewWriter`. -/
def bufferSize : ℕ := 4096

/-- The senders take a step. -/
def writerStep : Runs.StepFn Writers WriterAction Unit
  | s, .rLock frame => some ({ s with calls := s.calls ++ [⟨frame, .writing frame⟩] }, [])
  | s, .advance i fails =>
    (s.calls[i]?).bind fun c =>
      (s.writer.advance bufferSize c.phase fails).map fun q =>
        (⟨q.1, s.calls.set i { c with phase := q.2 }⟩, [])

/-- A connection that nothing was sent on yet. -/
def Writers.new : Writers where
  writer := .new
  calls := []

/-! ### What is asked of the stream -/

/-- The frames of the calls that have returned without an error. -/
def Writers.sent (s : Writers) : List (List UInt8) :=
  (s.calls.filter fun c => c.phase = .sent).map Call.frame

/-- No call is under way. -/
def Writers.Idle (s : Writers) : Prop := ∀ c ∈ s.calls, c.phase.isUnderWay = false

instance (s : Writers) : Decidable s.Idle := by
  unfold Writers.Idle
  infer_instance

/-- **Frames are not mixed.** What has reached the connection is the beginning of a
concatenation of frames of different calls; and when no call is under way it is a
concatenation of complete frames, one for every call that has returned without an error. -/
def Writers.Unmixed (s : Writers) : Prop :=
  ∃ frames : List (List UInt8), frames.Subperm (s.calls.map Call.frame) ∧
    s.writer.stream <+: frames.flatten ∧
    (s.Idle → frames.Perm s.sent ∧ s.writer.stream = frames.flatten)

/-- A call has copied a part of its frame, and not all of it. -/
def Call.Split (c : Call) : Prop :=
  c.phase.rest ≠ [] ∧ c.phase.rest.length < c.frame.length

instance (c : Call) : Decidable c.Split := by
  unfold Call.Split
  infer_instance

/-- **No call breaks into the frame of another**: a call that is about to copy does so while
no other has copied a part of its frame only. And no write to the connection fails. -/
def Uninterrupted (s : Writers) : WriterAction → Prop
  | .rLock _ => True
  | .advance i fails => fails = none ∧ ∀ c ∈ s.calls[i]?,
      c.phase = .writing c.phase.rest → ∀ c' ∈ s.calls.eraseIdx i, ¬c'.Split

instance (s : Writers) (a : WriterAction) : Decidable (Uninterrupted s a) := by
  cases a <;> unfold Uninterrupted <;> infer_instance

/-! ### The steps -/

variable {s s' : Writers} {ev : List Unit}

/-- A call takes a step, and the others stay where they are. -/
theorem writerStep_advance {i : ℕ} {fails : Option ℕ}
    (h : writerStep s (.advance i fails) = some (s', ev)) :
    ∃ before c after w phase, s.calls = before ++ c :: after ∧ before.length = i ∧
      s.writer.advance bufferSize c.phase fails = some (w, phase) ∧
      s' = ⟨w, before ++ ⟨c.frame, phase⟩ :: after⟩ := by
  simp only [writerStep, Option.bind_eq_some_iff, Option.map_eq_some_iff, Prod.mk.injEq] at h
  obtain ⟨c, hc, ⟨w, phase⟩, hadvance, rfl, -⟩ := h
  obtain ⟨hlt, hget⟩ := List.getElem?_eq_some_iff.mp hc
  obtain ⟨before, after, hcalls, hlen, hset⟩ := @List.exists_of_set _ _ ⟨c.frame, phase⟩ _ hlt
  rw [hget] at hcalls
  exact ⟨before, c, after, w, phase, hcalls, hlen, hadvance, by rw [hset]⟩

/-! ### The bytes in the order in which they were copied -/

/-- The frames that have been copied in full. -/
def copiedFrames (calls : List Call) : List (List UInt8) :=
  (calls.filter fun c => c.phase.rest = []).map Call.frame

/-- The call that takes a step may be looked at first. -/
theorem copiedFrames_perm (before after : List Call) (c : Call) :
    (copiedFrames (before ++ c :: after)).Perm
      ((if c.phase.rest = [] then [c.frame] else []) ++ copiedFrames (before ++ after)) := by
  refine ((List.perm_middle.filter _).map _).trans ?_
  by_cases hrest : c.phase.rest = [] <;> simp [copiedFrames, hrest]

/-- **The bytes are arranged**: they are the frames that have been copied in full, in some
order, and then the part that was copied of one more. -/
structure Arranged (calls : List Call) (bytes : List UInt8) (frames : List (List UInt8))
    (part : List UInt8) : Prop where
  perm : frames.Perm (copiedFrames calls)
  bytes_eq : bytes = frames.flatten ++ part
  of_split : ∀ c ∈ calls, c.Split → part ++ c.phase.rest = c.frame
  of_not_split : (∀ c ∈ calls, ¬c.Split) → part = []

/-- What holds of the writer and of each call for itself. -/
structure Writers.Sound (s : Writers) : Prop where
  err : s.writer.err = false
  unfailed : ∀ c ∈ s.calls, c.phase ≠ .failed
  rest_suffix : ∀ c ∈ s.calls, c.phase.rest <:+ c.frame
  flushIsDue : s.writer.buffer ≠ [] → ∃ c ∈ s.calls, c.phase.FlushIsDue

/-- The invariant of the senders. -/
def Writers.InOrder (s : Writers) : Prop :=
  s.Sound ∧ ∃ frames part, Arranged s.calls s.writer.accepted frames part

theorem inOrder_new : Writers.new.InOrder := by
  refine ⟨⟨rfl, by simp [Writers.new], by simp [Writers.new], fun h => absurd rfl h⟩, [], [], ?_⟩
  exact ⟨.rfl, rfl, by simp [Writers.new], fun _ => rfl⟩

section Replace

variable {before after : List Call} {c : Call} {w : Bufio} {phase : WriteState}
  {bytes part : List UInt8} {frames : List (List UInt8)}

theorem forall_mem_replace {P : Call → Prop} :
    (∀ c' ∈ before ++ c :: after, P c') ↔ P c ∧ ∀ c' ∈ before ++ after, P c' := by
  simp only [List.mem_append, List.mem_cons]
  constructor
  · intro h
    exact ⟨h c (.inr (.inl rfl)), fun c' hc' => h c' (hc'.imp id .inr)⟩
  · rintro ⟨hc, h⟩ c' (hb | rfl | ha)
    · exact h c' (.inl hb)
    · exact hc
    · exact h c' (.inr ha)

/-- Where no other call is split, only one call matters. -/
theorem arranged_iff (hothers : ∀ c' ∈ before ++ after, ¬c'.Split) :
    Arranged (before ++ c :: after) bytes frames part ↔
      frames.Perm ((if c.phase.rest = [] then [c.frame] else []) ++
        copiedFrames (before ++ after)) ∧
      bytes = frames.flatten ++ part ∧ (c.Split → part ++ c.phase.rest = c.frame) ∧
      (¬c.Split → part = []) := by
  have hperm := copiedFrames_perm before after c
  constructor
  · rintro ⟨hp, hbytes, hsplit, hnone⟩
    rw [forall_mem_replace] at hsplit hnone
    exact ⟨hp.trans hperm, hbytes, hsplit.1, fun hc => hnone ⟨hc, hothers⟩⟩
  · rintro ⟨hp, hbytes, hsplit, hnone⟩
    refine ⟨hp.trans hperm.symm, hbytes, ?_, ?_⟩
    · exact forall_mem_replace.mpr ⟨hsplit, fun c' hc' hs => absurd hs (hothers c' hc')⟩
    · exact fun h => hnone (forall_mem_replace.mp h).1

/-- A step that copies nothing leaves the arrangement. -/
theorem Arranged.of_rest_eq (h : Arranged (before ++ c :: after) bytes frames part)
    (hrest : phase.rest = c.phase.rest) :
    Arranged (before ++ ⟨c.frame, phase⟩ :: after) bytes frames part := by
  have hsplit : (Call.mk c.frame phase).Split ↔ c.Split := by simp [Call.Split, hrest]
  have hperm := copiedFrames_perm before after ⟨c.frame, phase⟩
  rw [hrest] at hperm
  obtain ⟨hp, hbytes, hof, hnone⟩ := h
  rw [forall_mem_replace] at hof hnone
  refine ⟨hp.trans ((copiedFrames_perm before after c).trans hperm.symm), hbytes, ?_, ?_⟩
  · refine forall_mem_replace.mpr ⟨fun hs => ?_, hof.2⟩
    simpa [hrest] using hof.1 (hsplit.mp hs)
  · intro hall
    obtain ⟨hc, hothers⟩ := forall_mem_replace.mp hall
    exact hnone ⟨fun hs => hc (hsplit.mpr hs), hothers⟩

/-- A copy continues the part that was copied, and completes the frame or not. -/
theorem Arranged.copy (h : Arranged (before ++ c :: after) bytes frames part)
    (hothers : ∀ c' ∈ before ++ after, ¬c'.Split) (hsuffix : c.phase.rest <:+ c.frame)
    {copied : List UInt8} (hcopied : c.phase.rest = copied ++ phase.rest) :
    ∃ frames' part', Arranged (before ++ ⟨c.frame, phase⟩ :: after) (bytes ++ copied) frames'
      part' := by
  obtain ⟨hperm, hbytes, hsplit, hnone⟩ := (arranged_iff hothers).mp h
  simp only [arranged_iff hothers]
  by_cases hdone : c.phase.rest = []
  · -- there was nothing left to copy
    rw [hdone] at hcopied
    obtain ⟨rfl, hrest⟩ := List.append_eq_nil_iff.mp hcopied.symm
    rw [if_pos hdone] at hperm
    have hpart : part = [] := hnone fun hs => hs.1 hdone
    refine ⟨frames, part, ?_, by simpa using hbytes, ?_, fun _ => hpart⟩
    · rwa [if_pos hrest]
    · exact fun hs => absurd hrest hs.1
  · have hframe : part ++ (copied ++ phase.rest) = c.frame := by
      rw [← hcopied]
      by_cases hs : c.Split
      · exact hsplit hs
      · have hlen : ¬c.phase.rest.length < c.frame.length := fun hlt => hs ⟨hdone, hlt⟩
        rw [hnone hs, List.nil_append]
        exact hsuffix.eq_of_length (le_antisymm hsuffix.length_le (not_lt.mp hlen))
    rw [if_neg hdone, List.nil_append] at hperm
    by_cases hlast : phase.rest = []
    · -- the frame is complete
      rw [hlast, List.append_nil] at hframe
      refine ⟨frames ++ [c.frame], [], ?_, ?_, fun hs => absurd hlast hs.1, fun _ => rfl⟩
      · rw [if_pos hlast]
        exact List.perm_append_comm.trans (hperm.append_left _)
      · simp [hbytes, ← hframe]
    · refine ⟨frames, part ++ copied, ?_, by simp [hbytes], fun _ => by simp [hframe], fun hs => ?_⟩
      · rwa [if_neg hlast, List.nil_append]
      · -- all of the frame is left, so no byte of it was copied
        have hlen : ¬phase.rest.length < c.frame.length := fun hlt => hs ⟨hlast, hlt⟩
        rw [← hframe] at hlen
        simp only [List.length_append] at hlen
        exact List.length_eq_zero_iff.mp (by simp only [List.length_append]; omega)

theorem Writers.Sound.replace (h : s.Sound) (hcalls : s.calls = before ++ c :: after)
    (herr : w.err = false) (hunfailed : phase ≠ .failed) (hsuffix : phase.rest <:+ c.phase.rest)
    (hdue : w.buffer = [] ∨ phase.FlushIsDue) :
    Writers.Sound ⟨w, before ++ ⟨c.frame, phase⟩ :: after⟩ := by
  obtain ⟨-, hfailed, hrest, -⟩ := h
  rw [hcalls, forall_mem_replace] at hfailed hrest
  refine ⟨herr, ?_, ?_, ?_⟩
  · exact forall_mem_replace.mpr ⟨hunfailed, hfailed.2⟩
  · exact forall_mem_replace.mpr ⟨hsuffix.trans hrest.1, hrest.2⟩
  · intro hne
    exact ⟨⟨c.frame, phase⟩, by simp, hdue.resolve_left hne⟩

end Replace

/-- A new call has copied nothing. -/
theorem Arranged.rLock {calls : List Call} {bytes part : List UInt8} {frames : List (List UInt8)}
    (h : Arranged calls bytes frames part) (frame : List UInt8) :
    ∃ frames', Arranged (calls ++ [⟨frame, .writing frame⟩]) bytes frames' part := by
  have hnew : ¬(Call.mk frame (.writing frame)).Split := fun hs => lt_irrefl _ hs.2
  -- nothing is all there is to copy of an empty frame
  refine ⟨frames ++ if frame = [] then [frame] else [], ?_, ?_, ?_, ?_⟩
  · simp only [copiedFrames, List.filter_append, List.map_append]
    refine h.perm.append ?_
    by_cases hnil : frame = [] <;> simp [hnil, WriteState.rest]
  · rw [h.bytes_eq, List.flatten_append]
    by_cases hnil : frame = [] <;> simp [hnil]
  · refine forall_mem_replace.mpr ⟨fun hs => absurd hs hnew, ?_⟩
    rw [List.append_nil]
    exact h.of_split
  · intro hnone
    exact h.of_not_split fun c hc => hnone c (List.mem_append_left _ hc)

theorem Writers.InOrder.rLock (h : s.InOrder) (frame : List UInt8) :
    Writers.InOrder ⟨s.writer, s.calls ++ [⟨frame, .writing frame⟩]⟩ := by
  obtain ⟨⟨herr, hunfailed, hsuffix, hdue⟩, frames, part, harranged⟩ := h
  obtain ⟨frames', harranged'⟩ := harranged.rLock frame
  refine ⟨⟨herr, ?_, ?_, fun hne => ?_⟩, frames', part, harranged'⟩
  · exact forall_mem_replace.mpr ⟨by simp, by simpa using hunfailed⟩
  · exact forall_mem_replace.mpr ⟨List.suffix_rfl, by simpa using hsuffix⟩
  · obtain ⟨c, hc, hc'⟩ := hdue hne
    exact ⟨c, List.mem_append_left _ hc, hc'⟩

/-- **One step keeps the bytes in order**, if it does not break into a frame. -/
theorem Writers.InOrder.step (h : s.InOrder) {a : WriterAction} (hok : Uninterrupted s a)
    (hstep : writerStep s a = some (s', ev)) : s'.InOrder := by
  cases a with
  | rLock frame =>
    obtain ⟨rfl, -⟩ := Prod.mk.inj (Option.some.inj hstep)
    exact h.rLock frame
  | advance i fails =>
    obtain ⟨before, c, after, w, phase, hcalls, rfl, hadvance, rfl⟩ := writerStep_advance hstep
    obtain ⟨rfl, hothers⟩ := hok
    obtain ⟨hsound, frames, part, harranged⟩ := h
    rw [hcalls] at harranged
    rcases Bufio.advance_cases hsound.err hadvance with
      ⟨p, copied, hc, hp, haccepted, herr, hphase⟩ | ⟨haccepted, herr, hbuffer, hphase⟩
    · have hrest : c.phase.rest = p := by rw [hc, WriteState.rest]
      have hothers' : ∀ c' ∈ before ++ after, ¬c'.Split := by
        have := hothers c (by simp [hcalls]) (by rw [hrest, hc])
        simpa [hcalls, List.eraseIdx_append_of_length_le] using this
      have hsuffix : c.phase.rest <:+ c.frame := hsound.rest_suffix c (by simp [hcalls])
      refine ⟨hsound.replace hcalls herr ?_ ⟨copied, by rw [hrest, ← hp]⟩
        (hphase.imp_left And.left), ?_⟩
      · rcases hphase with ⟨-, rfl⟩ | rfl | ⟨q, rfl⟩ <;> simp
      · simp only [haccepted]
        exact harranged.copy hothers' hsuffix (by rw [hrest, ← hp])
    · have hrest : phase.rest = c.phase.rest := by
        rcases hphase with ⟨q, hc, rfl⟩ | ⟨hc, rfl⟩ <;> rw [hc] <;> rfl
      refine ⟨hsound.replace hcalls herr ?_ ⟨[], by rw [hrest]; rfl⟩ (.inl hbuffer), frames, part,
        ?_⟩
      · rcases hphase with ⟨q, -, rfl⟩ | ⟨-, rfl⟩ <;> simp
      · simp only [haccepted]
        exact harranged.of_rest_eq hrest

/-! ### What reaches the connection -/

/-- When no call is under way, all of them have sent their frames. -/
theorem Writers.Sound.sent_eq (h : s.Sound) (hidle : s.Idle) :
    s.sent = copiedFrames s.calls ∧ (∀ c ∈ s.calls, ¬c.Split) ∧ s.writer.buffer = [] := by
  have hsent : ∀ c ∈ s.calls, c.phase = .sent := by
    intro c hc
    have hunder := hidle c hc
    have hfailed := h.unfailed c hc
    cases hp : c.phase <;> simp_all [WriteState.isUnderWay]
  refine ⟨?_, fun c hc hs => ?_, ?_⟩
  · rw [Writers.sent, copiedFrames]
    congr 1
    refine List.filter_congr fun c hc => ?_
    simp [hsent c hc, WriteState.rest]
  · exact hs.1 (by rw [hsent c hc]; rfl)
  · by_contra hne
    obtain ⟨c, hc, hdue⟩ := h.flushIsDue hne
    rw [hsent c hc] at hdue
    rcases hdue with hdue | ⟨p, hdue⟩ <;> cases hdue

theorem Writers.InOrder.unmixed (h : s.InOrder) : s.Unmixed := by
  obtain ⟨hsound, frames, part, hperm, hbytes, hsplit, hnone⟩ := h
  have hprefix : s.writer.stream <+: frames.flatten ++ part := by
    rw [← hbytes]
    exact List.prefix_append _ _
  have hcalls := List.filter_append_perm (fun c => decide (c.phase.rest = [])) s.calls
  by_cases hall : ∀ c ∈ s.calls, ¬c.Split
  · have hpart := hnone hall
    subst hpart
    rw [List.append_nil] at hbytes hprefix
    refine ⟨frames, ?_, hprefix, fun hidle => ?_⟩
    · refine hperm.subperm.trans ?_
      exact ((List.filter_sublist).map _).subperm
    · obtain ⟨hsent, -, hbuffer⟩ := hsound.sent_eq hidle
      refine ⟨hsent ▸ hperm, ?_⟩
      rw [← hbytes, Bufio.accepted, hbuffer, List.append_nil]
  · push Not at hall
    obtain ⟨c, hc, hs⟩ := hall
    refine ⟨frames ++ [c.frame], ?_, ?_, fun hidle => absurd hs ((hsound.sent_eq hidle).2.1 c hc)⟩
    · have hleft : (frames ++ [c.frame]).Subperm (copiedFrames s.calls ++
          (s.calls.filter fun c => !decide (c.phase.rest = [])).map Call.frame) := by
        refine hperm.subperm.append (List.singleton_subperm_iff.mpr ?_)
        exact List.mem_map_of_mem (List.mem_filter.mpr ⟨hc, by simp [hs.1]⟩)
      refine hleft.trans (List.Perm.subperm ?_)
      rw [copiedFrames, ← List.map_append]
      exact hcalls.map _
    · refine hprefix.trans ?_
      rw [List.flatten_append, List.flatten_singleton, ← hsplit c hc hs, ← List.append_assoc]
      exact List.prefix_append _ _

/-- **Frames are never mixed** in a run in which no call copies while another has copied a
part of its frame only, and no write to the connection fails. -/
theorem unmixed_of_exec {as : List WriterAction} {tr : List Unit}
    (hmeets : Runs.Meets writerStep Uninterrupted .new as)
    (h : Runs.exec writerStep .new as = some (s, tr)) : s.Unmixed := by
  have hinv : s.InOrder := Runs.exec_invariant_meets inOrder_new
    (fun s a s' ev hinv hok hs => hinv.step hok hs) hmeets h
  exact hinv.unmixed

/-- Two small frames may be copied and flushed in any order. -/
theorem unmixed_small_frames :
    ∃ s, Runs.exec writerStep .new [.rLock [1, 1], .rLock [2, 2], .advance 1 none, .advance 0 none,
        .advance 0 none, .advance 1 none] = some (s, []) ∧
      s.Idle ∧ s.writer.stream = [2, 2, 1, 1] ∧ s.Unmixed := by
  refine ⟨⟨⟨[], false, [2, 2, 1, 1]⟩, [⟨[1, 1], .sent⟩, ⟨[2, 2], .sent⟩]⟩, rfl, by decide, rfl, ?_⟩
  refine @unmixed_of_exec _ [.rLock [1, 1], .rLock [2, 2], .advance 1 none, .advance 0 none,
    .advance 0 none, .advance 1 none] [] ?_ rfl
  exact Runs.meets_of_checks rfl

/-- Three calls: the second frame does not fit behind the first, and the third is copied
while a part of it is. -/
def interruption (frame : List UInt8) : List WriterAction :=
  [.rLock [2], .rLock frame, .rLock [3], .advance 0 none, .advance 1 none, .advance 1 none,
    .advance 2 none, .advance 1 none, .advance 1 none, .advance 0 none, .advance 2 none]

theorem exec_interruption {frame : List UInt8} (hlen : frame.length = 5000) :
    Runs.exec writerStep .new (interruption frame) =
      some (⟨⟨[], false, 2 :: (frame.take 4095 ++ 3 :: frame.drop 4095)⟩,
        [⟨[2], .sent⟩, ⟨frame, .sent⟩, ⟨[3], .sent⟩]⟩, []) := by
  let calls (a b c : WriteState) : List Call := [⟨[2], a⟩, ⟨frame, b⟩, ⟨[3], c⟩]
  -- the three steps whose outcome depends on the length of the frame
  have hcopy : writerStep ⟨⟨[2], false, []⟩, calls .written (.writing frame) (.writing [3])⟩
      (.advance 1 none) = some (⟨⟨2 :: frame.take 4095, false, []⟩,
        calls .written (.flushing (frame.drop 4095)) (.writing [3])⟩, []) := by
    simp [writerStep, Bufio.advance, Bufio.write, bufferSize, hlen, calls]
  have hflush : writerStep ⟨⟨2 :: frame.take 4095, false, []⟩,
        calls .written (.flushing (frame.drop 4095)) (.writing [3])⟩ (.advance 1 none) =
      some (⟨⟨[], false, 2 :: frame.take 4095⟩,
        calls .written (.writing (frame.drop 4095)) (.writing [3])⟩, []) := by
    simp [writerStep, Bufio.advance, Bufio.flush, calls]
  have hrest : writerStep ⟨⟨[3], false, 2 :: frame.take 4095⟩,
        calls .written (.writing (frame.drop 4095)) .written⟩ (.advance 1 none) =
      some (⟨⟨3 :: frame.drop 4095, false, 2 :: frame.take 4095⟩,
        calls .written .written .written⟩, []) := by
    simp [writerStep, Bufio.advance, Bufio.write, bufferSize, hlen, calls]
  rw [interruption, Runs.exec_of_step rfl, Runs.exec_of_step rfl, Runs.exec_of_step rfl,
    Runs.exec_of_step rfl]
  change Runs.exec writerStep ⟨⟨[2], false, []⟩,
    calls .written (.writing frame) (.writing [3])⟩ _ = _
  rw [Runs.exec_of_step hcopy, Runs.exec_of_step hflush, Runs.exec_of_step rfl]
  change Runs.exec writerStep ⟨⟨[3], false, 2 :: frame.take 4095⟩,
    calls .written (.writing (frame.drop 4095)) .written⟩ _ = _
  rw [Runs.exec_of_step hrest, Runs.exec_of_step rfl, Runs.exec_of_step rfl,
    Runs.exec_of_step rfl]
  rfl

/-- A frame that another one was copied into is not on the connection. The byte of the
other one stands where all the frames in any order have a byte of this one. -/
theorem Writers.not_unmixed_of_cut {frame : List UInt8} (hlen : frame.length = 5000)
    (hones : ∀ k < 5000, frame[k]? = some 1) :
    ¬Writers.Unmixed ⟨⟨[], false, 2 :: (frame.take 4095 ++ 3 :: frame.drop 4095)⟩,
      [⟨[2], .sent⟩, ⟨frame, .sent⟩, ⟨[3], .sent⟩]⟩ := by
  rintro ⟨frames, -, -, hidle⟩
  obtain ⟨hperm, hstream⟩ := hidle (by simp [Writers.Idle, WriteState.isUnderWay])
  have hsent : frames.Perm [[2], frame, [3]] := by simpa [Writers.sent] using hperm
  obtain ⟨a, b, c, rfl⟩ := List.length_eq_three.mp hsent.length_eq
  simp only [List.flatten_cons, List.flatten_nil, List.append_nil] at hstream
  have ha : a = [2] ∨ a = frame ∨ a = [3] := by simpa using hsent.subset (a := a) (by simp)
  have hb : b = [2] ∨ b = frame ∨ b = [3] := by simpa using hsent.subset (a := b) (by simp)
  rcases ha with rfl | rfl | rfl
  · have htail : frame.take 4095 ++ 3 :: frame.drop 4095 = b ++ c := by simpa using hstream
    have hfirst := congrArg (fun l => l[0]?) htail
    have hcut := congrArg (fun l => l[4095]?) htail
    simp only [List.getElem?_append, List.length_take, hlen, List.getElem?_take] at hfirst hcut
    rcases hb with rfl | rfl | rfl
    · simp [hones] at hfirst
    · simp only [hlen, hones 4095 (by omega)] at hcut
      simp at hcut
    · simp [hones] at hfirst
  · have hfirst := congrArg (fun l => l[0]?) hstream
    simp only [List.getElem?_append, hlen, hones 0 (by omega)] at hfirst
    simp at hfirst
  · simp at hstream

/-- A call that copies while another is split mixes the two frames. -/
theorem not_unmixed_interrupted :
    ∃ s, Runs.exec writerStep .new (interruption (List.replicate 5000 1)) = some (s, []) ∧
      ¬s.Unmixed :=
  ⟨_, exec_interruption List.length_replicate, Writers.not_unmixed_of_cut List.length_replicate
    fun k hk => by rw [List.getElem?_replicate, if_pos hk]⟩

end NettyClient

end HertzBeat
