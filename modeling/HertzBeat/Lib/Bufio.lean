import HertzBeat.Lib.Go

/-!
# Buffered writers

A `bufio.Writer` over a connection, and the steps of a `Write` that is followed by a
`Flush`. A write that does not fit in the buffer fills it, flushes it and goes on with
the rest, so it is not one step but several, and the buffer is shared by all who write.

Whoever writes, the bytes come out in the order in which they were copied: this is
`Go.Bufio.accepted`, the bytes on the connection followed by those in the buffer, which
a copy extends and a flush leaves alone (`Go.Bufio.advance_cases`).
-/

namespace Go

/-- A `bufio.Writer`, with the connection it writes to. -/
structure Bufio where
  buffer : List UInt8
  /-- Whether a write to the connection has failed. The writer then refuses everything. -/
  err : Bool
  /-- The bytes that have reached the connection. -/
  stream : List UInt8

/-- Where a `Write` and the `Flush` after it stand. -/
inductive WriteState where
  /-- In the loop of `Write`, with `p` still to be copied. -/
  | writing (p : List UInt8)
  /-- In the loop of `Write`: the buffer is full and is flushed next. -/
  | flushing (p : List UInt8)
  /-- `Write` has returned, and the final `Flush` is next. -/
  | written
  /-- Both have returned without an error. -/
  | sent
  | failed
  deriving DecidableEq, Repr

/-- The bytes that are still to be copied. -/
def WriteState.rest : WriteState → List UInt8
  | .writing p => p
  | .flushing p => p
  | _ => []

/-- Whether there are steps left to take. -/
def WriteState.isUnderWay : WriteState → Bool
  | .writing _ | .flushing _ | .written => true
  | .sent | .failed => false

/-- Whether a flush comes next. -/
def WriteState.FlushIsDue (st : WriteState) : Prop := st = .written ∨ ∃ p, st = .flushing p

namespace Bufio

/-- A writer on a new connection. -/
def new : Bufio where
  buffer := []
  err := false
  stream := []

/-- `Flush`, and the state after it if there is no error. A failing write hands the first
`n` bytes to the connection. -/
def flush (w : Bufio) (fails : Option ℕ) (next : WriteState) : Bufio × WriteState :=
  if w.err then (w, .failed)
  else if w.buffer = [] then (w, next)
  else
    match fails with
    | none => ({ w with buffer := [], stream := w.stream ++ w.buffer }, next)
    | some n =>
      ({ buffer := w.buffer.drop n, err := true, stream := w.stream ++ w.buffer.take n }, .failed)

/-- One round of `Write` on a buffer of `size` bytes, with `p` to be written. -/
def write (size : ℕ) (w : Bufio) (p : List UInt8) (fails : Option ℕ) : Bufio × WriteState :=
  let available := size - w.buffer.length
  if w.err then (w, .failed)
  else if p.length ≤ available then ({ w with buffer := w.buffer ++ p }, .written)
  else if w.buffer = [] then
    -- a large write to an empty buffer goes to the connection directly
    match fails with
    | none => ({ w with stream := w.stream ++ p }, .writing [])
    | some n => ({ w with err := true, stream := w.stream ++ p.take n }, .failed)
  else ({ w with buffer := w.buffer ++ p.take available }, .flushing (p.drop available))

/-- The next step of a write. -/
def advance (size : ℕ) (w : Bufio) (st : WriteState) (fails : Option ℕ) :
    Option (Bufio × WriteState) :=
  match st with
  | .writing p => some (w.write size p fails)
  | .flushing p => some (w.flush fails (.writing p))
  | .written => some (w.flush fails .sent)
  | .sent | .failed => none

/-! ### The order of the bytes -/

/-- The bytes that were copied so far, in the order in which they reach the connection. -/
def accepted (w : Bufio) : List UInt8 := w.stream ++ w.buffer

variable {size : ℕ} {w w' : Bufio} {st st' : WriteState}

/-- A round of `Write` puts some of the bytes behind those accepted so far, and either
leaves the buffer empty or has a flush to come. -/
theorem write_cases (herr : w.err = false) {p : List UInt8}
    (h : w.write size p none = (w', st')) :
    ∃ copied, p = copied ++ st'.rest ∧ w'.accepted = w.accepted ++ copied ∧ w'.err = false ∧
      (w'.buffer = [] ∧ st' = .writing [] ∨ st'.FlushIsDue) := by
  simp only [write, herr, Bool.false_eq_true, if_false] at h
  split at h
  · obtain ⟨rfl, rfl⟩ := Prod.mk.inj h
    exact ⟨p, by simp [WriteState.rest], by simp [accepted], rfl, .inr (.inl rfl)⟩
  · split at h
    · next hnil =>
      obtain ⟨rfl, rfl⟩ := Prod.mk.inj h
      exact ⟨p, by simp [WriteState.rest], by simp [accepted, hnil], rfl, .inl ⟨hnil, rfl⟩⟩
    · obtain ⟨rfl, rfl⟩ := Prod.mk.inj h
      exact ⟨p.take (size - w.buffer.length), by simp [WriteState.rest], by simp [accepted], rfl,
        .inr (.inr ⟨_, rfl⟩)⟩

/-- A flush empties the buffer and does not change which bytes come in which order. -/
theorem flush_cases (herr : w.err = false) {next : WriteState}
    (h : w.flush none next = (w', st')) :
    st' = next ∧ w'.accepted = w.accepted ∧ w'.err = false ∧ w'.buffer = [] := by
  simp only [flush, herr, Bool.false_eq_true, if_false] at h
  split at h
  · next hnil =>
    obtain ⟨rfl, rfl⟩ := Prod.mk.inj h
    exact ⟨rfl, rfl, herr, hnil⟩
  · obtain ⟨rfl, rfl⟩ := Prod.mk.inj h
    exact ⟨rfl, by simp [accepted], rfl, rfl⟩

/-- **What one step of a write does**, when the connection does not fail. -/
theorem advance_cases (herr : w.err = false) (h : w.advance size st none = some (w', st')) :
    (∃ p copied, st = .writing p ∧ p = copied ++ st'.rest ∧
      w'.accepted = w.accepted ++ copied ∧ w'.err = false ∧
      (w'.buffer = [] ∧ st' = .writing [] ∨ st'.FlushIsDue)) ∨
    w'.accepted = w.accepted ∧ w'.err = false ∧ w'.buffer = [] ∧
      ((∃ p, st = .flushing p ∧ st' = .writing p) ∨ st = .written ∧ st' = .sent) := by
  cases st with
  | writing p =>
    obtain ⟨copied, hp, haccepted, herr', hdue⟩ := write_cases herr (Option.some.inj h)
    exact .inl ⟨p, copied, rfl, hp, haccepted, herr', hdue⟩
  | flushing p =>
    obtain ⟨hst, haccepted, herr', hbuffer⟩ := flush_cases herr (Option.some.inj h)
    exact .inr ⟨haccepted, herr', hbuffer, .inl ⟨p, rfl, hst⟩⟩
  | written =>
    obtain ⟨hst, haccepted, herr', hbuffer⟩ := flush_cases herr (Option.some.inj h)
    exact .inr ⟨haccepted, herr', hbuffer, .inr ⟨rfl, hst⟩⟩
  | sent => cases h
  | failed => cases h

end Bufio

end Go
