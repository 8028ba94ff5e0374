import HertzBeat.Lib.Reader
import HertzBeat.Transport.Wire

/-!
# The frames of the Netty connection

`writeMessage` and `readMessage` of `internal/transport/netty_client.go`. A message is
marshalled, a varint of its length is put in front of it, and the two are compressed
into one gzip member; the reader decompresses the members one after the other and cuts
the messages out again, a byte at a time until the length is complete.

Marshalling is a parameter, `HertzBeat.Proto`, and so is compression, `HertzBeat.Gzip`,
each with the one law that is known of it. The reader of the decompressed bytes is a
`Go.Reader`, whose policy is a parameter too.

What comes out is `HertzBeat.NettyClient.roundTrips_iff`: everything that is written is
read back, each call taking exactly its own frame, unless the last message has no bytes
and the reader reports the end of the file together with the last byte. Then that byte,
which is the length of the empty message, is dropped with the error. The reader of
`compress/gzip` does report it so: the final block of a member is found while its last
bytes are still being handed out.
-/

namespace HertzBeat

open Go (Str Reader ReadPolicy)

/-- The writer and the reader of `compress/gzip`. -/
structure Gzip where
  /-- What a writer that is given some bytes and then closed has written. -/
  member : List UInt8 → List UInt8
  /-- The bytes that a reader opened on a stream hands out, if it can be opened. -/
  contents : List UInt8 → Except Str (List UInt8)
  /-- A concatenation of members is read as the concatenation of their contents. -/
  contents_members : ∀ {xs : List (List UInt8)}, xs ≠ [] →
    contents (xs.flatMap member) = .ok xs.flatten

namespace NettyClient

variable {M : Type} (gz : Gzip) (pb : Proto M) (p : ReadPolicy)

/-! ### Writing -/

/-- The message with its length in front. The length is cut to 32 bits, and the buffer
for its varint has the five bytes of `binary.MaxVarintLen32`. -/
def innerMessage (data : List UInt8) : Except Go.Panic (List UInt8) :=
  (Go.putUvarint 5 (data.length % 2 ^ 32)).map (· ++ data)

/-- `writeMessage`: the bytes that it hands to the connection, or the error it returns. -/
def writeMessage (m : M) : Except Go.Panic (Except Str (List UInt8)) :=
  match pb.marshal m with
  | .error err => .ok (.error (Go.str "failed to marshal message: " ++ err))
  | .ok data => (innerMessage data).map fun inner => .ok (gz.member inner)

/-! ### Reading -/

/-- What is being read of a connection: the bytes that are to come, and the reader of the
decompressed bytes once it was opened. -/
structure Incoming where
  reader : List UInt8
  gzipReader : Option Reader

/-- The loop that reads the length, with `lengthBuf` read already and room for `left`
more bytes after the next one: the length or the error, and what is left to read. -/
def takeLength (left : ℕ) (lengthBuf : List UInt8) (r : Reader) : Except Str ℕ × Reader :=
  let (oneByte, eof, r) := r.read p 1
  -- an error is returned even when a byte came with it
  if eof then (.error (Go.str "failed to read length prefix: EOF"), r)
  else
    let lengthBuf := lengthBuf ++ [oneByte.headD 0]
    let (length, n) := Go.uvarint lengthBuf
    if 0 < n then (.ok length, r)
    else if n < 0 then (.error (Go.str "invalid length encoding"), r)
    else
      match left with
      | 0 => (.error (Go.str "length prefix too long"), r)
      | left + 1 => takeLength left lengthBuf r

/-- The length, with the reader that the message is then read from. -/
def readLength (left : ℕ) (lengthBuf : List UInt8) (r : Reader) : Except Str (ℕ × Reader) :=
  (takeLength p left lengthBuf r).1.map (·, (takeLength p left lengthBuf r).2)

/-- One message is read from the decompressed bytes. -/
def readFrame (r : Reader) : Except Str (M × Reader) :=
  match readLength p 4 [] r with
  | .error err => .error err
  | .ok (length, r) =>
    match r.readFull p length with
    | .error err => .error (Go.str "failed to read protobuf data: " ++ err)
    | .ok (protobufData, r) =>
      match pb.unmarshal protobufData with
      | .error err => .error (Go.str "failed to unmarshal message: " ++ err)
      | .ok msg => .ok (msg, r)

/-- The reader of the decompressed bytes, which is opened on the first read. -/
def Incoming.openReader (c : Incoming) : Except Str Reader :=
  match c.gzipReader with
  | some r => .ok r
  | none =>
    match gz.contents c.reader with
    | .error err => .error (Go.str "failed to create gzip reader: " ++ err)
    | .ok bytes => .ok ⟨bytes, 0⟩

/-- `readMessage`. -/
def readMessage (c : Incoming) : Except Str (M × Incoming) :=
  match c.openReader gz with
  | .error err => .error err
  | .ok r => (readFrame pb p r).map fun q => (q.1, { c with gzipReader := some q.2 })

/-- `n` calls of `readMessage`, one after the other. -/
def readMessages : ℕ → Incoming → Except Str (List M × Incoming)
  | 0, c => .ok ([], c)
  | n + 1, c =>
    match readMessage gz pb p c with
    | .error err => .error err
    | .ok (m, c) => (readMessages n c).map fun q => (m :: q.1, q.2)

/-- The decompressed bytes that no call has taken yet. -/
def Incoming.unread (c : Incoming) : Except Str (List UInt8) :=
  match c.gzipReader with
  | some r => .ok r.rest
  | none => gz.contents c.reader

/-- **The messages come back**: every one of them is written; any number of calls up to
theirs returns the first of them, in order and without an error; and what the calls have
left is what the frames of the other messages hold, so that each has taken its own. -/
def RoundTrips (ms : List M) : Prop :=
  ∃ frames, List.Forall₂ (fun m frame => writeMessage gz pb m = .ok (.ok frame)) ms frames ∧
    ∀ k ≤ ms.length, ∃ c,
      readMessages gz pb p k ⟨frames.flatten, none⟩ = .ok (ms.take k, c) ∧
      (k < ms.length → c.unread gz = gz.contents (frames.drop k).flatten) ∧
      (0 < k → k = ms.length → c.unread gz = .ok [])

/-- The message is marshalled, and its length fits in 32 bits. -/
def Sendable (m : M) : Prop := ∃ data, pb.marshal m = .ok data ∧ data.length < 2 ^ 32

/-! ### One frame -/

/-- One turn of the loop. -/
theorem readLength_eq_turn (left : ℕ) (lengthBuf : List UInt8) (r : Reader) :
    readLength p left lengthBuf r =
      if (r.read p 1).2.1 then .error (Go.str "failed to read length prefix: EOF")
      else if 0 < (Go.uvarint (lengthBuf ++ [(r.read p 1).1.headD 0])).2 then
        .ok ((Go.uvarint (lengthBuf ++ [(r.read p 1).1.headD 0])).1, (r.read p 1).2.2)
      else if (Go.uvarint (lengthBuf ++ [(r.read p 1).1.headD 0])).2 < 0 then
        .error (Go.str "invalid length encoding")
      else if left = 0 then .error (Go.str "length prefix too long")
      else readLength p (left - 1) (lengthBuf ++ [(r.read p 1).1.headD 0]) (r.read p 1).2.2 := by
  rw [readLength, takeLength.eq_def]
  dsimp only
  split_ifs with heof hpos hneg hleft
  · rfl
  · rfl
  · rfl
  · rw [hleft]
    rfl
  · obtain ⟨n, rfl⟩ := Nat.exists_eq_succ_of_ne_zero hleft
    rfl

theorem exists_innerMessage (data : List UInt8) :
    ∃ bs, Go.putUvarint 5 (data.length % 2 ^ 32) = .ok bs ∧
      innerMessage data = .ok (bs ++ data) := by
  have hlt : data.length % 2 ^ 32 < 128 ^ 5 :=
    lt_of_lt_of_le (Nat.mod_lt _ (by decide)) (by decide)
  obtain ⟨bs, hbs⟩ := Go.exists_putUvarint hlt (by omega)
  exact ⟨bs, hbs, by rw [innerMessage, hbs, Except.map]⟩

/-- **The length is read back**, byte by byte. The induction is on the bytes `suf` that are
still to be read; on each but the last the decoder is tried in vain. -/
theorem readLength_eq {x : ℕ} {bs : List UInt8} (hbs : Go.putUvarint 5 x = .ok bs)
    (hx : x < 2 ^ 64)
    (after : List UInt8) (suf pre : List UInt8) (left : ℕ) (r : Reader) (hsplit : pre ++ suf = bs)
    (hsuf : suf ≠ []) (hleft : pre.length + left = 4) (hrest : r.rest = suf ++ after) :
    readLength p left pre r =
      if p.eofWithLast && after.isEmpty then .error (Go.str "failed to read length prefix: EOF")
      else .ok (x, ⟨after, r.calls + suf.length⟩) := by
  induction suf generalizing pre left r with
  | nil => exact absurd rfl hsuf
  | cons b suf ih =>
    rw [List.cons_append] at hrest
    rw [readLength_eq_turn, Reader.read_one p hrest]
    simp only [List.headD_cons]
    by_cases hnil : suf = []
    · subst hnil
      have hdecode := Go.uvarint_putUvarint hbs (by omega) hx []
      rw [List.append_nil, ← hsplit] at hdecode
      simp only [List.nil_append, hdecode, List.length_append, List.length_singleton]
      rw [if_pos (show (0 : ℤ) < ((pre.length + 1 : ℕ) : ℤ) by omega)]
    · have hmore : (suf ++ after).isEmpty = false := by simp [hnil]
      have hproper : pre ++ [b] ≠ bs := by
        rw [← hsplit]
        intro h
        exact hnil (List.cons.inj (List.append_cancel_left h)).2.symm
      have hpre : pre ++ [b] <+: bs := ⟨suf, by rw [← hsplit]; simp⟩
      have hlen := Go.putUvarint_length_le hbs
      have hpos : 0 < suf.length := List.length_pos_iff.mpr hnil
      rw [← hsplit, List.length_append, List.length_cons] at hlen
      obtain ⟨left, rfl⟩ : ∃ n, left = n + 1 := ⟨left - 1, by omega⟩
      simp only [hmore, Bool.and_false, Bool.false_eq_true, if_false,
        Go.uvarint_of_prefix hbs (by omega) hpre hproper, lt_irrefl]
      rw [if_neg left.succ_ne_zero, Nat.add_sub_cancel,
        ih (pre ++ [b]) left _ (by simp [← hsplit]) hnil (by simp; omega) rfl]
      simp only [List.length_cons, add_assoc, add_comm 1]

variable {pb}

/-- **A frame is read back**, and what follows it is left. Only a frame that is all there
is to read, and holds an empty message, may be lost. -/
theorem readFrame_eq {m : M} {data inner : List UInt8} (hm : pb.marshal m = .ok data)
    (hsize : data.length < 2 ^ 32) (hinner : innerMessage data = .ok inner)
    {after : List UInt8} {r : Reader} (hrest : r.rest = inner ++ after) :
    (p.eofWithLast && (data ++ after).isEmpty) = true ∧ (∃ err, readFrame pb p r = .error err) ∨
    (p.eofWithLast && (data ++ after).isEmpty) = false ∧
      ∃ calls, readFrame pb p r = .ok (m, ⟨after, calls⟩) := by
  obtain ⟨bs, hbs, hinner'⟩ := exists_innerMessage data
  rw [hinner', Except.ok.injEq] at hinner
  rw [Nat.mod_eq_of_lt hsize] at hbs
  rw [← hinner, List.append_assoc] at hrest
  have hlength := readLength_eq p hbs (by omega) (data ++ after) bs [] 4 r rfl
    (Go.putUvarint_ne_nil hbs) rfl hrest
  cases heof : p.eofWithLast && (data ++ after).isEmpty with
  | true =>
    rw [heof, if_pos rfl] at hlength
    exact .inl ⟨rfl, _, by rw [readFrame, hlength]⟩
  | false =>
    rw [heof] at hlength
    simp only [Bool.false_eq_true, if_false] at hlength
    obtain ⟨calls, hfull⟩ := Reader.readFull_of_le p
      (r := ⟨data ++ after, r.calls + bs.length⟩) (n := data.length) (by simp)
    simp only [List.take_left, List.drop_left] at hfull
    refine .inr ⟨rfl, calls, ?_⟩
    simp only [readFrame, hlength, hfull, pb.unmarshal_marshal hm]

/-! ### Streams of frames -/

variable (pb) in
/-- What the frame of a message holds. -/
def Framed (m : M) (inner : List UInt8) : Prop :=
  ∃ data, pb.marshal m = .ok data ∧ data.length < 2 ^ 32 ∧ innerMessage data = .ok inner

theorem Framed.ne_nil {m : M} {inner : List UInt8} (h : Framed pb m inner) : inner ≠ [] := by
  obtain ⟨data, -, -, hinner⟩ := h
  obtain ⟨bs, hbs, hinner'⟩ := exists_innerMessage data
  obtain rfl : bs ++ data = inner := by simpa [hinner'] using hinner
  simp [Go.putUvarint_ne_nil hbs]

theorem Framed.writeMessage_eq {m : M} {inner : List UInt8} (h : Framed pb m inner) :
    writeMessage gz pb m = .ok (.ok (gz.member inner)) := by
  obtain ⟨data, hm, -, hinner⟩ := h
  simp [writeMessage, hm, hinner, Except.map]

/-- Messages that can be sent have frames. -/
theorem exists_framed {ms : List M} (h : ∀ m ∈ ms, Sendable pb m) :
    ∃ inners, List.Forall₂ (Framed pb) ms inners := by
  induction ms with
  | nil => exact ⟨[], .nil⟩
  | cons m ms ih =>
    obtain ⟨data, hm, hsize⟩ := h m List.mem_cons_self
    obtain ⟨bs, -, hinner⟩ := exists_innerMessage data
    obtain ⟨inners, hinners⟩ := ih fun m' hm' => h m' (List.mem_cons_of_mem _ hm')
    exact ⟨_ :: inners, .cons ⟨data, hm, hsize, hinner⟩ hinners⟩

/-- The bytes written are the members that hold the frames. -/
theorem writes_iff {ms : List M} {inners frames : List (List UInt8)}
    (h : List.Forall₂ (Framed pb) ms inners) :
    List.Forall₂ (fun m frame => writeMessage gz pb m = .ok (.ok frame)) ms frames ↔
      frames = inners.map gz.member := by
  induction h generalizing frames with
  | nil => simp
  | cons hm _ ih =>
    simp only [List.forall₂_cons_left_iff, hm.writeMessage_eq gz, Except.ok.injEq, ih,
      List.map_cons]
    constructor
    · rintro ⟨frame, frames', rfl, rfl, rfl⟩
      rfl
    · rintro rfl
      exact ⟨_, _, rfl, rfl, rfl⟩

theorem openReader_of_unread {c : Incoming} {bytes : List UInt8} (h : c.unread gz = .ok bytes) :
    ∃ r, c.openReader gz = .ok r ∧ r.rest = bytes := by
  cases hr : c.gzipReader with
  | some r =>
    refine ⟨r, by simp [Incoming.openReader, hr], ?_⟩
    simpa [Incoming.unread, hr] using h
  | none =>
    rw [Incoming.unread, hr] at h
    exact ⟨⟨bytes, 0⟩, by simp only [Incoming.openReader, hr, h], rfl⟩

/-- Another call takes the next message. -/
theorem readMessages_succ {n : ℕ} {c c' : Incoming} {xs : List M}
    (h : readMessages gz pb p n c = .ok (xs, c')) :
    readMessages gz pb p (n + 1) c =
      (readMessage gz pb p c').map fun q => (xs ++ [q.1], q.2) := by
  induction n generalizing c xs with
  | zero =>
    obtain ⟨rfl, rfl⟩ : [] = xs ∧ c = c' := by simpa [readMessages] using h
    rw [readMessages]
    cases readMessage gz pb p c with
    | error err => rfl
    | ok q => rfl
  | succ n ih =>
    rw [readMessages] at h
    rw [readMessages]
    cases hfirst : readMessage gz pb p c with
    | error err => simp [hfirst] at h
    | ok q =>
      obtain ⟨m, c₁⟩ := q
      simp only [hfirst] at h
      cases hrest : readMessages gz pb p n c₁ with
      | error err => simp [hrest, Except.map] at h
      | ok q' =>
        obtain ⟨ys, c₂⟩ := q'
        obtain ⟨rfl, rfl⟩ : m :: ys = xs ∧ c₂ = c' := by simpa [hrest, Except.map] using h
        simp only [ih hrest]
        cases readMessage gz pb p c₂ with
        | error err => rfl
        | ok q => rfl

variable (pb) in
/-- The end of the file does not come with the only byte of the last message. -/
def LastIsRead (ms : List M) : Prop :=
  p.eofWithLast = true → ∀ m, ms.getLast? = some m → pb.marshal m ≠ .ok []

/-- **The stream is read back**, by induction on the frames. What carries it is that the
reader stands at the first byte of the next frame. -/
theorem readMessages_take {ms : List M} {inners : List (List UInt8)}
    (h : List.Forall₂ (Framed pb) ms inners) (hlast : LastIsRead pb p ms) {c : Incoming}
    (hunread : c.unread gz = .ok inners.flatten) {k : ℕ} (hk : k ≤ ms.length) :
    ∃ c', readMessages gz pb p k c = .ok (ms.take k, c') ∧
      c'.unread gz = .ok (inners.drop k).flatten := by
  induction h generalizing c k with
  | nil =>
    obtain rfl : k = 0 := by simpa using hk
    exact ⟨c, rfl, hunread⟩
  | @cons m inner ms inners hm hms ih =>
    cases k with
    | zero => exact ⟨c, rfl, hunread⟩
    | succ k =>
      obtain ⟨data, hmarshal, hsize, hinner⟩ := hm
      obtain ⟨r, hopen, hrest⟩ := openReader_of_unread gz hunread
      rw [List.flatten_cons] at hrest
      rcases readFrame_eq p hmarshal hsize hinner hrest with ⟨hlost, -⟩ | ⟨-, calls, hread⟩
      · -- nothing follows, so this is the last message, and it is empty
        exfalso
        simp only [Bool.and_eq_true, List.isEmpty_iff, List.append_eq_nil_iff] at hlost
        obtain ⟨heof, rfl, hnil⟩ := hlost
        cases hms with
        | nil => exact hlast heof m rfl hmarshal
        | cons hm' _ => simp [hm'.ne_nil] at hnil
      · have hlast' : LastIsRead pb p ms := by
          intro heof m' hm'
          refine hlast heof m' ?_
          rw [List.getLast?_cons, hm']
          rfl
        obtain ⟨c', hread', hunread'⟩ := ih hlast' (c := { c with gzipReader := some ⟨_, calls⟩ })
          rfl (Nat.le_of_succ_le_succ hk)
        refine ⟨c', ?_, hunread'⟩
        have hmessage : readMessage gz pb p c =
            .ok (m, { c with gzipReader := some ⟨inners.flatten, calls⟩ }) := by
          simp [readMessage, hopen, hread, Except.map]
        rw [readMessages, hmessage]
        simp only [hread', List.take_succ_cons]
        rfl

/-- An empty message at the end is lost where the end of the file comes with its byte. -/
theorem readMessage_eq_error {m : M} {inner : List UInt8} {c : Incoming}
    (heof : p.eofWithLast = true) (hempty : pb.marshal m = .ok []) (hinner : Framed pb m inner)
    (hunread : c.unread gz = .ok inner) : ∃ err, readMessage gz pb p c = .error err := by
  obtain ⟨data, hm, hsize, hdata⟩ := hinner
  obtain rfl : [] = data := by simpa [hempty] using hm
  obtain ⟨r, hopen, hrest⟩ := openReader_of_unread gz hunread
  rcases readFrame_eq p hm hsize hdata (hrest.trans (List.append_nil inner).symm) with
    ⟨-, err, herr⟩ | ⟨hkept, -⟩
  · exact ⟨err, by simp [readMessage, hopen, herr, Except.map]⟩
  · simp [heof] at hkept

/-- The members from any frame on hold the rest of the stream. -/
theorem contents_drop {inners : List (List UInt8)} {k : ℕ} (hk : k < inners.length) :
    gz.contents ((inners.map gz.member).drop k).flatten = .ok (inners.drop k).flatten := by
  rw [← List.map_drop, ← List.flatMap_def]
  refine gz.contents_members ?_
  rw [Ne, List.drop_eq_nil_iff]
  omega

/-- The last call starts at the last frame, and must not lose it. -/
theorem lastIsRead_of_roundTrips {ms : List M} (hms : ∀ m ∈ ms, Sendable pb m)
    (h : RoundTrips gz pb p ms) : LastIsRead pb p ms := by
  intro heof m hm hempty
  obtain ⟨init, rfl⟩ := List.getLast?_eq_some_iff.mp hm
  obtain ⟨inners, hinners⟩ := exists_framed hms
  obtain ⟨frames, hframes, htrip⟩ := h
  rw [writes_iff gz hinners] at hframes
  subst hframes
  have hlength : (init ++ [m]).length = init.length + 1 := by simp
  obtain ⟨c, hread, hunread, -⟩ := htrip init.length (by omega)
  obtain ⟨c', hread', -⟩ := htrip (init.length + 1) (by omega)
  have hdrop : List.Forall₂ (Framed pb) [m] (inners.drop init.length) := by
    simpa using List.forall₂_drop init.length hinners
  obtain ⟨inner, hinner, hsingle⟩ : ∃ inner, Framed pb m inner ∧
      inners.drop init.length = [inner] := by
    cases hd : inners.drop init.length with
    | nil => simp [hd] at hdrop
    | cons inner rest =>
      rw [hd, List.forall₂_cons] at hdrop
      exact ⟨inner, hdrop.1, by rw [List.forall₂_nil_left_iff.mp hdrop.2]⟩
  have hlt : init.length < inners.length := by
    rw [← hinners.length_eq]
    omega
  rw [contents_drop gz hlt, hsingle, List.flatten_singleton] at hunread
  obtain ⟨err, herr⟩ := readMessage_eq_error gz p heof hempty hinner (hunread (by omega))
  rw [readMessages_succ gz p hread, herr] at hread'
  simp [Except.map] at hread'

/-- **The frame codec**: messages that can be sent come back as they were, each call taking
exactly its own frame and no call failing – unless the reader reports the end of the file
together with the last byte and the last message is empty. -/
theorem roundTrips_iff {ms : List M} (hms : ∀ m ∈ ms, Sendable pb m) :
    RoundTrips gz pb p ms ↔ LastIsRead pb p ms := by
  refine ⟨lastIsRead_of_roundTrips gz p hms, fun hlast => ?_⟩
  obtain ⟨inners, hinners⟩ := exists_framed hms
  have hlen : ms.length = inners.length := hinners.length_eq
  refine ⟨inners.map gz.member, (writes_iff gz hinners).mpr rfl, fun k hk => ?_⟩
  rcases Nat.eq_zero_or_pos ms.length with hzero | hpos
  · obtain rfl : k = 0 := by omega
    exact ⟨_, rfl, fun hlt => absurd hlt (by omega), fun hlt => absurd hlt (by omega)⟩
  · have hopen : gz.contents (inners.map gz.member).flatten = .ok inners.flatten :=
      contents_drop gz (k := 0) (by omega)
    obtain ⟨c, hread, hunread⟩ := readMessages_take gz p hinners hlast
      (c := ⟨(inners.map gz.member).flatten, none⟩) hopen hk
    refine ⟨c, hread, fun hlt => ?_, fun _ hk' => ?_⟩
    · rw [hunread, contents_drop gz (by omega)]
    · rw [hunread, hk', hlen, List.drop_length, List.flatten_nil]

end NettyClient

/-- The compression that leaves everything as it is. -/
def Gzip.identity : Gzip where
  member := id
  contents := .ok
  contents_members := fun _ => by rw [List.flatMap_id]

/-- The heartbeat of a collector. -/
def Message.heartbeat (identity : Str) : Message where
  type := .heartbeat
  direction := .request
  identity := identity
  msg := []

namespace NettyClient

/-- An empty message is read back when another one follows. -/
theorem roundTrips_heartbeat :
    RoundTrips Gzip.identity Message.proto ReadPolicy.eager
      [.empty, .heartbeat (Go.str "collector-go")] := by
  refine (roundTrips_iff _ _ ?_).mpr ?_
  · intro m hm
    simp only [List.mem_cons, List.not_mem_nil, or_false] at hm
    rcases hm with rfl | rfl
    · exact ⟨_, rfl, by decide⟩
    · exact ⟨_, rfl, by decide⟩
  · rintro - m hm
    obtain rfl : Message.heartbeat (Go.str "collector-go") = m := by simpa using hm
    decide

/-- An empty message at the end of the stream is not. -/
theorem not_roundTrips_empty :
    (∀ m ∈ [Message.empty], Sendable Message.proto m) ∧
      ¬RoundTrips Gzip.identity Message.proto ReadPolicy.eager [.empty] := by
  have hms : ∀ m ∈ [Message.empty], Sendable Message.proto m := by
    intro m hm
    obtain rfl : m = .empty := by simpa using hm
    exact ⟨[], rfl, by decide⟩
  refine ⟨hms, fun h => ?_⟩
  exact lastIsRead_of_roundTrips _ _ hms h rfl .empty rfl rfl

end NettyClient

end HertzBeat
