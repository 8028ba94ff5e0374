import HertzBeat.Transport.Frames

/-!
# The length in front of a frame

The loop of `readMessage` that reads the length takes one byte at a time and tries a decoder for
64 bits on what it has, until it has five bytes. The writer puts 32 bits into five bytes, of which
the last one then holds four bits only; the reader takes seven from it.

* `HertzBeat.NettyClient.readLength_eq_ok_iff` – what the loop accepts: at most four bytes with the
  high bit set, and one without it;
* `HertzBeat.NettyClient.readsVarint32_iff` – it takes five bytes at most, gives a length of 32 bits
  and accepts what a writer puts in front, but for two kinds of streams. Where there are five bytes
  of which the last one is 16 or more the length may have 35 bits: that of `FF FF FF FF 7F` is
  `2 ^ 35 - 1`, and so much memory is asked for before anything of the message has come. And where
  nothing follows what a writer puts in front, a reader that reports its end with the last byte
  has it refused.
-/

namespace HertzBeat

open Go (Str Reader ReadPolicy)

namespace NettyClient

variable (p : ReadPolicy)

/-! ### What is accepted -/

/-- Some bytes begin with a length: bytes with the high bit set, one without it, and other bytes,
of which there are some if the reader reports its end with the last one. -/
structure BeginsWith (bytes continued : List UInt8) (last : UInt8) (after : List UInt8) : Prop where
  eq : bytes = continued ++ last :: after
  continues : ∀ c ∈ continued, 128 ≤ c.toNat
  ends : last.toNat < 128
  goes_on : ¬(p.eofWithLast ∧ after = [])

variable {p} in
theorem not_beginsWith_nil {last : UInt8} {continued after : List UInt8} :
    ¬BeginsWith p [] continued last after :=
  fun h => by simpa using h.eq

section Begins

variable {p} {b : UInt8} {bytes : List UInt8} {Q : List UInt8 → UInt8 → List UInt8 → Prop}

/-- A byte without the high bit is a length by itself. -/
theorem exists_beginsWith_of_lt (hb : b.toNat < 128) :
    (∃ continued last after, BeginsWith p (b :: bytes) continued last after ∧
        Q continued last after) ↔
      ¬(p.eofWithLast ∧ bytes = []) ∧ Q [] b bytes := by
  constructor
  · rintro ⟨continued, last, after, ⟨heq, hcontinues, -, hgoes⟩, hQ⟩
    cases continued with
    | nil =>
      obtain ⟨rfl, rfl⟩ := List.cons.inj heq
      exact ⟨hgoes, hQ⟩
    | cons c tail =>
      obtain ⟨rfl, -⟩ := List.cons.inj heq
      have := hcontinues b List.mem_cons_self
      omega
  · rintro ⟨hgoes, hQ⟩
    exact ⟨[], b, bytes, ⟨rfl, by simp, hb, hgoes⟩, hQ⟩

/-- One with it is the first of several. -/
theorem exists_beginsWith_of_le (hb : 128 ≤ b.toNat) :
    (∃ continued last after, BeginsWith p (b :: bytes) continued last after ∧
        Q continued last after) ↔
      ∃ continued last after, BeginsWith p bytes continued last after ∧
        Q (b :: continued) last after := by
  constructor
  · rintro ⟨continued, last, after, ⟨heq, hcontinues, hends, hgoes⟩, hQ⟩
    cases continued with
    | nil =>
      obtain ⟨rfl, -⟩ := List.cons.inj heq
      omega
    | cons c tail =>
      obtain ⟨rfl, rfl⟩ := List.cons.inj heq
      have htail := (List.forall_mem_cons.mp hcontinues).2
      exact ⟨tail, last, after, ⟨rfl, htail, hends, hgoes⟩, hQ⟩
  · rintro ⟨tail, last, after, ⟨rfl, hcontinues, hends, hgoes⟩, hQ⟩
    exact ⟨b :: tail, last, after,
      ⟨rfl, List.forall_mem_cons.mpr ⟨hb, hcontinues⟩, hends, hgoes⟩, hQ⟩

end Begins

section Turn

variable {left : ℕ} {pre : List UInt8} {r : Reader} {b : UInt8} {after : List UInt8}

/-- The end of the file is an error, even if a byte comes with it. -/
theorem readLength_eof (h : r.rest = [] ∨ p.eofWithLast ∧ r.rest = [b]) :
    readLength p left pre r = .error (Go.str "failed to read length prefix: EOF") := by
  have heof : (r.read p 1).2.1 = true := by
    rcases h with hnil | ⟨hlast, hone⟩
    · simp [Reader.read, hnil]
    · simp [Reader.read_one p hone, hlast]
  rw [readLength_eq_turn]
  exact if_pos heof

variable (hpre : ∀ c ∈ pre, 128 ≤ c.toNat) (hlen : pre.length + left = 4)
  (hrest : r.rest = b :: after) (hmore : ¬(p.eofWithLast ∧ after = []))

include hpre hlen hrest hmore

/-- A byte without the high bit ends the length. -/
theorem readLength_of_lt (hb : b.toNat < 128) :
    readLength p left pre r = .ok (Go.groupsValue (pre ++ [b]), ⟨after, r.calls + 1⟩) := by
  have heof : (p.eofWithLast && after.isEmpty) = false := by simpa using hmore
  have hpos : (0 : ℤ) < pre.length + 1 := by omega
  rw [readLength_eq_turn, Reader.read_one p hrest]
  simp only [List.headD_cons, heof, Go.uvarint_append_cons hpre (by omega) hb, if_pos hpos]
  rfl

/-- One with it does not, and is added to those before it if there is room for another. -/
theorem readLength_of_le (hb : 128 ≤ b.toNat) :
    readLength p left pre r =
      if left = 0 then .error (Go.str "length prefix too long")
      else readLength p (left - 1) (pre ++ [b]) ⟨after, r.calls + 1⟩ := by
  have heof : (p.eofWithLast && after.isEmpty) = false := by simpa using hmore
  have hcontinued : ∀ c ∈ pre ++ [b], 128 ≤ c.toNat := by
    intro c hc
    rcases List.mem_append.mp hc with hc | hc
    · exact hpre c hc
    · rwa [List.mem_singleton.mp hc]
  have hdecode : Go.uvarint (pre ++ [b]) = (0, 0) :=
    Go.uvarint_of_continued hcontinued (by simp; omega)
  rw [readLength_eq_turn, Reader.read_one p hrest]
  simp only [List.headD_cons, heof, hdecode]
  cases left <;> rfl

end Turn

/-- **What the loop accepts.** With bytes that have the high bit set read already, the bytes that
are to come must begin with a length that has at most so many of them as there is room for. The
induction is on this room. -/
theorem readLength_eq_ok_iff {left : ℕ} {pre : List UInt8} (hpre : ∀ c ∈ pre, 128 ≤ c.toNat)
    (hlen : pre.length + left = 4) {r r' : Reader} {length : ℕ} :
    readLength p left pre r = .ok (length, r') ↔
      ∃ continued last after, BeginsWith p r.rest continued last after ∧
        continued.length ≤ left ∧ length = Go.groupsValue (pre ++ continued ++ [last]) ∧
        r' = ⟨after, r.calls + (continued.length + 1)⟩ := by
  induction left using Nat.strongRecOn generalizing pre r with
  | ind left ih =>
  cases hrest : r.rest with
  | nil =>
    rw [readLength_eof p (b := 0) (.inl hrest)]
    simp [not_beginsWith_nil]
  | cons b bytes =>
    by_cases hend : p.eofWithLast ∧ bytes = []
    · rw [readLength_eof p (.inr ⟨hend.1, by rw [hrest, hend.2]⟩)]
      by_cases hb : b.toNat < 128
      · simp [exists_beginsWith_of_lt hb, hend]
      · simp [exists_beginsWith_of_le (Nat.le_of_not_lt hb), hend, not_beginsWith_nil]
    · by_cases hb : b.toNat < 128
      · rw [readLength_of_lt p hpre hlen hrest hend hb, exists_beginsWith_of_lt hb]
        constructor
        · intro h
          obtain ⟨rfl, rfl⟩ := Prod.mk.inj (Except.ok.inj h)
          exact ⟨hend, Nat.zero_le _, by simp, by simp⟩
        · rintro ⟨-, -, rfl, rfl⟩
          simp
      · have hge : 128 ≤ b.toNat := Nat.le_of_not_lt hb
        rw [readLength_of_le p hpre hlen hrest hend hge, exists_beginsWith_of_le hge]
        rcases Nat.eq_zero_or_pos left with rfl | hpos
        · simp
        · have hcontinued : ∀ c ∈ pre ++ [b], 128 ≤ c.toNat := by
            simpa [or_imp, forall_and] using ⟨hpre, hge⟩
          have hroom : ∀ n : ℕ, n ≤ left - 1 ↔ n + 1 ≤ left := by omega
          rw [if_neg hpos.ne', ih (left - 1) (by omega) hcontinued (by simp; omega)]
          simp [hroom, Nat.add_comm, Nat.add_left_comm]

/-! ### What is taken -/

/-- **Every turn takes one byte**, and the last one is where the room ends. -/
theorem rest_takeLength (left : ℕ) (lengthBuf : List UInt8) (r : Reader) :
    ∃ k ≤ left + 1, (takeLength p left lengthBuf r).2.rest = r.rest.drop k := by
  have hturn : (r.read p 1).2.2.rest = r.rest.drop 1 := by
    simp [Reader.read]
  induction left generalizing lengthBuf r with
  | zero =>
    refine ⟨1, le_rfl, ?_⟩
    rw [takeLength, ← hturn]
    dsimp only
    split_ifs <;> rfl
  | succ left ih =>
    rw [takeLength]
    dsimp only
    split_ifs
    · exact ⟨1, by omega, hturn⟩
    · exact ⟨1, by omega, hturn⟩
    · exact ⟨1, by omega, hturn⟩
    · obtain ⟨k, hk, hrest⟩ := ih (lengthBuf ++ [(r.read p 1).1.headD 0]) (r.read p 1).2.2
        (by simp [Reader.read])
      exact ⟨1 + k, by omega, by rw [hrest, hturn, List.drop_drop]⟩

/-! ### How large the length can be -/

/-- Some bytes begin with a length of five bytes of which the last has more than four bits. -/
def IsWide (bytes : List UInt8) : Prop :=
  ∃ continued last after, BeginsWith p bytes continued last after ∧
    continued.length = 4 ∧ 16 ≤ last.toNat

/-- A length of up to five bytes has 32 bits, but for a last byte of the five that has more than
four. -/
theorem groupsValue_lt_two_pow_iff {continued : List UInt8} {last : UInt8}
    (hlen : continued.length ≤ 4) (hlast : last.toNat < 128) :
    Go.groupsValue (continued ++ [last]) < 2 ^ 32 ↔
      ¬(continued.length = 4 ∧ 16 ≤ last.toNat) := by
  have hlt := Go.groupsValue_lt continued
  rw [Go.groupsValue_concat, Nat.mod_eq_of_lt hlast]
  rcases hlen.eq_or_lt with hfour | hless
  · rw [hfour] at hlt ⊢
    constructor <;> omega
  · have hall := Go.groupsValue_lt (continued ++ [last])
    rw [Go.groupsValue_concat, Nat.mod_eq_of_lt hlast, List.length_append,
      List.length_singleton] at hall
    have hpow : 128 ^ (continued.length + 1) ≤ 128 ^ 4 :=
      Nat.pow_le_pow_right (by decide) (by omega)
    constructor
    · intro _ h
      omega
    · intro _
      omega

/-- **The length is a varint of 32 bits**: five bytes at most are taken for it, whether the loop
ends well or not; what it gives has 32 bits; and what a writer puts in front of a message is read as
the length, and nothing else is taken. -/
structure ReadsVarint32 (r : Reader) : Prop where
  takes : ∃ k ≤ 5, (takeLength p 4 [] r).2.rest = r.rest.drop k
  lt : ∀ length r', readLength p 4 [] r = .ok (length, r') → length < 2 ^ 32
  accepts : ∀ x < 2 ^ 32, ∃ bs, Go.putUvarint 5 x = .ok bs ∧ ∀ after, r.rest = bs ++ after →
    ∃ r', readLength p 4 [] r = .ok (x, r') ∧ r'.rest = after

/-- Some bytes are what a writer puts in front, and the reader reports its end with the last. -/
def EndsWithLast (bytes : List UInt8) : Prop :=
  p.eofWithLast ∧ ∃ x < 2 ^ 32, Go.putUvarint 5 x = .ok bytes

/-- What a writer puts in front is read, unless the end of the file comes with its last byte. -/
theorem readLength_of_putUvarint {r : Reader} {x : ℕ} (hx : x < 2 ^ 32) {bs after : List UInt8}
    (hbs : Go.putUvarint 5 x = .ok bs) (hrest : r.rest = bs ++ after) :
    (∃ r', readLength p 4 [] r = .ok (x, r') ∧ r'.rest = after) ↔
      ¬(p.eofWithLast ∧ after = []) := by
  rw [readLength_eq p hbs (by omega) after bs [] 4 r rfl (Go.putUvarint_ne_nil hbs) rfl hrest]
  by_cases hend : p.eofWithLast ∧ after = []
  · simp [hend]
  · have heof : (p.eofWithLast && after.isEmpty) = false := by simpa using hend
    simp [heof, hend]

/-- In any case the length has 35 bits. -/
theorem readLength_lt {r r' : Reader} {length : ℕ} (h : readLength p 4 [] r = .ok (length, r')) :
    length < 2 ^ 35 := by
  obtain ⟨continued, last, after, -, hle, rfl, -⟩ :=
    (readLength_eq_ok_iff p (by simp) rfl).mp h
  have hall := Go.groupsValue_lt ([] ++ continued ++ [last])
  have hpow : 128 ^ ([] ++ continued ++ [last]).length ≤ 128 ^ 5 :=
    Nat.pow_le_pow_right (by decide) (by simp; omega)
  omega

/-- The length has 32 bits if and only if the stream does not begin with five bytes that hold
more. -/
theorem readLength_lt_iff (r : Reader) :
    (∀ length r', readLength p 4 [] r = .ok (length, r') → length < 2 ^ 32) ↔
      ¬IsWide p r.rest := by
  have hiff : ∀ {length r'}, readLength p 4 [] r = .ok (length, r') ↔ _ :=
    readLength_eq_ok_iff p (by simp) rfl
  constructor
  · rintro hall ⟨continued, last, after, hbegins, hfour, hwide⟩
    have hok := hiff.mpr ⟨continued, last, after, hbegins, hfour.le, rfl, rfl⟩
    exact (groupsValue_lt_two_pow_iff hfour.le hbegins.ends).mp (hall _ _ hok) ⟨hfour, hwide⟩
  · intro hnarrow length r' h
    obtain ⟨continued, last, after, hbegins, hle, rfl, -⟩ := hiff.mp h
    refine (groupsValue_lt_two_pow_iff hle hbegins.ends).mpr fun hwide => ?_
    exact hnarrow ⟨continued, last, after, hbegins, hwide.1, hwide.2⟩

/-- **The length in front of a frame**, for every stream and every way in which it may be read. It
is a varint of 32 bits if and only if the stream neither begins with five bytes that hold more, nor
is just what a writer puts in front, read by a reader that reports its end with the last byte. In
any case the length has 35 bits. -/
theorem readsVarint32_iff (r : Reader) :
    (ReadsVarint32 p r ↔ ¬IsWide p r.rest ∧ ¬EndsWithLast p r.rest) ∧
      ∀ length r', readLength p 4 [] r = .ok (length, r') → length < 2 ^ 35 := by
  refine ⟨⟨fun h => ⟨(readLength_lt_iff p r).mp h.lt, ?_⟩, fun h => ?_⟩,
    fun _ _ => readLength_lt p⟩
  · rintro ⟨heof, x, hx, hbytes⟩
    obtain ⟨bs, hbs, hreads⟩ := h.accepts x hx
    obtain rfl : bs = r.rest := Except.ok.inj (hbs.symm.trans hbytes)
    have hread := hreads [] (List.append_nil _).symm
    exact (readLength_of_putUvarint p hx hbs (List.append_nil _).symm).mp hread ⟨heof, rfl⟩
  · obtain ⟨hnarrow, hfollowed⟩ := h
    refine ⟨rest_takeLength p 4 [] r, (readLength_lt_iff p r).mpr hnarrow, fun x hx => ?_⟩
    obtain ⟨bs, hbs⟩ := Go.exists_putUvarint (lt_of_lt_of_le hx (by decide : 2 ^ 32 ≤ 128 ^ 5))
      (by decide)
    refine ⟨bs, hbs, fun after hrest => (readLength_of_putUvarint p hx hbs hrest).mpr ?_⟩
    rintro ⟨heof, rfl⟩
    rw [List.append_nil] at hrest
    exact hfollowed ⟨heof, x, hx, hrest ▸ hbs⟩

/-- Five bytes are taken for a length of 35 bits. -/
theorem readLength_thirty_five_bits :
    (∃ length r', readLength .eager 4 [] ⟨[255, 255, 255, 255, 127, 0], 0⟩ = .ok (length, r') ∧
        ¬length < 2 ^ 32) ∧
      ¬ReadsVarint32 .eager ⟨[255, 255, 255, 255, 127, 0], 0⟩ :=
  ⟨⟨2 ^ 35 - 1, ⟨[0], 5⟩, rfl, by decide⟩,
    fun h => absurd (h.lt (2 ^ 35 - 1) ⟨[0], 5⟩ rfl) (by decide)⟩

end NettyClient

end HertzBeat
