import HertzBeat.Lib.Varint
import HertzBeat.Transport.Processors

/-!
# The wire format of messages

The encoding that `api/cluster_msg.proto` gives a message: the fields in the order of
their numbers, each behind a tag, and a field that has its default value left out. A
message all of whose fields have their default values is encoded as no bytes at all.

`HertzBeat.Message.proto` is this encoding as a codec of `HertzBeat.Proto`.
-/

namespace HertzBeat

open Go (Str)

/-- `proto.Marshal` and `proto.Unmarshal` for messages of type `M`. An error is its text. -/
structure Proto (M : Type) where
  marshal : M → Except Str (List UInt8)
  unmarshal : List UInt8 → Except Str M
  /-- What was marshalled is unmarshalled as it was. -/
  unmarshal_marshal : ∀ {m data}, marshal m = .ok data → unmarshal data = .ok m

/-! ### Numbers of the enumerations -/

/-- The number of a type of message. -/
def MessageType.number : MessageType → ℤ
  | .heartbeat => 0
  | .goOnline => 1
  | .goOffline => 2
  | .goClose => 3
  | .issueCyclicTask => 4
  | .deleteCyclicTask => 5
  | .issueOneTimeTask => 6
  | .responseOneTimeTaskData => 7
  | .responseCyclicTaskData => 8
  | .responseCyclicTaskSdData => 9
  | .unknown n => n

/-- The type of message with a number. -/
def MessageType.ofNumber : ℤ → MessageType
  | 0 => .heartbeat
  | 1 => .goOnline
  | 2 => .goOffline
  | 3 => .goClose
  | 4 => .issueCyclicTask
  | 5 => .deleteCyclicTask
  | 6 => .issueOneTimeTask
  | 7 => .responseOneTimeTaskData
  | 8 => .responseCyclicTaskData
  | 9 => .responseCyclicTaskSdData
  | n => .unknown n

/-- Whether this is a value that the source's type has: the number of a type without a
name is an `int32`, and not that of a type with one. -/
def MessageType.Valid (t : MessageType) : Prop :=
  MessageType.ofNumber t.number = t ∧ -2 ^ 31 ≤ t.number ∧ t.number < 2 ^ 31

instance (t : MessageType) : Decidable t.Valid := by
  unfold MessageType.Valid
  infer_instance

/-- The number of a direction. -/
def Direction.number : Direction → ℤ
  | .request => 0
  | .response => 1
  | .unknown n => n

/-- The direction with a number. -/
def Direction.ofNumber : ℤ → Direction
  | 0 => .request
  | 1 => .response
  | n => .unknown n

/-- Whether this is a value that the source's type has. -/
def Direction.Valid (d : Direction) : Prop :=
  Direction.ofNumber d.number = d ∧ -2 ^ 31 ≤ d.number ∧ d.number < 2 ^ 31

instance (d : Direction) : Decidable d.Valid := by
  unfold Direction.Valid
  infer_instance

namespace Message

/-! ### Encoding -/

/-- A field of bytes, left out when there are none. -/
def bytesField (tag : UInt8) (bs : List UInt8) : List UInt8 :=
  if bs = [] then [] else tag :: (Go.appendUvarint bs.length ++ bs)

/-- A field with a number, left out when it is zero. -/
def varintField (tag : UInt8) (x : ℕ) : List UInt8 :=
  if x = 0 then [] else tag :: Go.appendUvarint x

/-- The number of a value of an enumeration, as the `uint64` that it is written as. -/
def enumBits (n : ℤ) : ℕ := (n % 2 ^ 64).toNat

/-- The fields of a message, in the order of their numbers. -/
def encode (m : Message) : List UInt8 :=
  bytesField 0x0a m.identity ++ (varintField 0x10 (enumBits m.direction.number) ++
    (varintField 0x18 (enumBits m.type.number) ++ bytesField 0x22 m.msg))

/-- Whether this is a message that the source can hold: no slice is longer than an `int`
counts. -/
def Valid (m : Message) : Prop :=
  m.type.Valid ∧ m.direction.Valid ∧ m.identity.length < 2 ^ 63 ∧ m.msg.length < 2 ^ 63

instance (m : Message) : Decidable m.Valid := by
  unfold Valid
  infer_instance

/-- Whether a string is UTF-8, which is asked of the strings of a message. -/
def isUTF8 (s : Str) : Bool := (ByteArray.mk s.toArray).validateUTF8

/-- `proto.Marshal`. -/
def marshal (m : Message) : Except Str (List UInt8) :=
  if m.Valid ∧ isUTF8 m.identity then .ok m.encode
  else .error (Go.str "string field contains invalid UTF-8")

/-! ### Decoding -/

/-- The fields are read one after the other, and a later one replaces an earlier one. -/
def decodeFrom (m : Message) (bs : List UInt8) : Option Message :=
  match bs with
  | [] => some m
  | tag :: bs =>
    let (x, n) := Go.uvarint bs
    if n ≤ 0 then none
    else
      let value := bs.drop n.toNat
      if tag = 0x10 then
        decodeFrom { m with direction := .ofNumber ((x : ℤ).bmod (2 ^ 32)) } value
      else if tag = 0x18 then
        decodeFrom { m with type := .ofNumber ((x : ℤ).bmod (2 ^ 32)) } value
      else if value.length < x then none
      else if tag = 0x0a then decodeFrom { m with identity := value.take x } (value.drop x)
      else if tag = 0x22 then decodeFrom { m with msg := value.take x } (value.drop x)
      -- The source's decoder skips a field that it does not know; no message here has one.
      else none
termination_by bs.length
decreasing_by all_goals simp only [List.length_drop, List.length_cons]; omega

/-- The message all of whose fields have their default values. -/
def empty : Message where
  type := .heartbeat
  direction := .request
  identity := []
  msg := []

/-- `proto.Unmarshal`. -/
def unmarshal (bs : List UInt8) : Except Str Message :=
  match decodeFrom empty bs with
  | none => .error (Go.str "cannot parse invalid wire-format data")
  | some m => if isUTF8 m.identity then .ok m else
    .error (Go.str "string field contains invalid UTF-8")

/-! ### What was encoded is decoded -/

/-- A tag and the number after it are taken up, whatever follows. -/
theorem decodeFrom_cons (m : Message) (tag : UInt8) {x : ℕ} (hx : x < 2 ^ 64)
    (value : List UInt8) :
    decodeFrom m (tag :: (Go.appendUvarint x ++ value)) =
      if tag = 0x10 then
        decodeFrom { m with direction := .ofNumber ((x : ℤ).bmod (2 ^ 32)) } value
      else if tag = 0x18 then
        decodeFrom { m with type := .ofNumber ((x : ℤ).bmod (2 ^ 32)) } value
      else if value.length < x then none
      else if tag = 0x0a then decodeFrom { m with identity := value.take x } (value.drop x)
      else if tag = 0x22 then decodeFrom { m with msg := value.take x } (value.drop x)
      else none := by
  have hpos : 0 < (Go.appendUvarint x).length :=
    List.length_pos_iff.mpr (Go.putUvarint_ne_nil (Go.putUvarint_ten hx))
  have hread : ¬((Go.appendUvarint x).length : ℤ) ≤ 0 := by omega
  rw [decodeFrom]
  simp only [Go.uvarint_appendUvarint hx, hread, if_false, Int.toNat_natCast, List.drop_left]

theorem decodeFrom_identity (m : Message) {bs : List UInt8} (hbs : bs.length < 2 ^ 63)
    (hm : m.identity = []) (rest : List UInt8) :
    decodeFrom m (bytesField 0x0a bs ++ rest) = decodeFrom { m with identity := bs } rest := by
  rw [bytesField]
  split
  · next hnil =>
    obtain ⟨type, direction, identity, msg⟩ := m
    subst hm hnil
    rfl
  · rw [List.cons_append, List.append_assoc, decodeFrom_cons m _ (by omega)]
    simp

theorem decodeFrom_msg (m : Message) {bs : List UInt8} (hbs : bs.length < 2 ^ 63)
    (hm : m.msg = []) :
    decodeFrom m (bytesField 0x22 bs) = some { m with msg := bs } := by
  rw [bytesField]
  split
  · next hnil =>
    obtain ⟨type, direction, identity, msg⟩ := m
    subst hm hnil
    rw [decodeFrom]
  · rw [decodeFrom_cons m _ (by omega)]
    simp [decodeFrom]

/-- The bits of a number of an enumeration are read back as the number. -/
theorem bmod_enumBits {n : ℤ} (hlo : -2 ^ 31 ≤ n) (hhi : n < 2 ^ 31) :
    ((enumBits n : ℕ) : ℤ).bmod (2 ^ 32) = n := by
  have hbits : ((enumBits n : ℕ) : ℤ) = n % 2 ^ 64 := by
    rw [enumBits]
    omega
  rw [hbits]
  unfold Int.bmod
  simp only [Nat.cast_pow, Nat.cast_ofNat]
  split_ifs <;> omega

theorem enumBits_lt (n : ℤ) : enumBits n < 2 ^ 64 := by
  rw [enumBits]
  omega

theorem decodeFrom_direction (m : Message) {d : Direction} (hd : d.Valid)
    (hm : m.direction = .request) (rest : List UInt8) :
    decodeFrom m (varintField 0x10 (enumBits d.number) ++ rest) =
      decodeFrom { m with direction := d } rest := by
  have hback : Direction.ofNumber (((enumBits d.number : ℕ) : ℤ).bmod (2 ^ 32)) = d := by
    rw [bmod_enumBits hd.2.1 hd.2.2, hd.1]
  rw [varintField]
  split
  · next hzero =>
    -- only the default direction has no bits
    rw [hzero] at hback
    obtain ⟨type, direction, identity, msg⟩ := m
    subst hm hback
    rfl
  · rw [List.cons_append, decodeFrom_cons m _ (enumBits_lt _), if_pos rfl, hback]

theorem decodeFrom_type (m : Message) {t : MessageType} (ht : t.Valid)
    (hm : m.type = .heartbeat) (rest : List UInt8) :
    decodeFrom m (varintField 0x18 (enumBits t.number) ++ rest) =
      decodeFrom { m with type := t } rest := by
  have hback : MessageType.ofNumber (((enumBits t.number : ℕ) : ℤ).bmod (2 ^ 32)) = t := by
    rw [bmod_enumBits ht.2.1 ht.2.2, ht.1]
  rw [varintField]
  split
  · next hzero =>
    rw [hzero] at hback
    obtain ⟨type, direction, identity, msg⟩ := m
    subst hm hback
    rfl
  · rw [List.cons_append, decodeFrom_cons m _ (enumBits_lt _), if_neg (by decide), if_pos rfl,
      hback]

/-- **The encoding is read back.** -/
theorem decodeFrom_encode {m : Message} (hm : m.Valid) : decodeFrom empty m.encode = some m := by
  obtain ⟨htype, hdirection, hidentity, hmsg⟩ := hm
  rw [encode, decodeFrom_identity empty hidentity rfl, decodeFrom_direction _ hdirection rfl,
    decodeFrom_type _ htype rfl, decodeFrom_msg _ hmsg rfl]

/-- The wire format of messages. -/
def proto : Proto Message where
  marshal := marshal
  unmarshal := unmarshal
  unmarshal_marshal := by
    intro m data h
    rw [marshal] at h
    split at h
    · next hm =>
      obtain rfl := Except.ok.inj h
      rw [unmarshal, decodeFrom_encode hm.1]
      simp [hm.2]
    · cases h

end Message

end HertzBeat
