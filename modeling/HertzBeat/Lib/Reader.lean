import HertzBeat.Lib.Go

/-!
# Readers

An `io.Reader` over bytes that are known, and `io.ReadFull`.

The contract of `Read` leaves two things open, and a `Go.ReadPolicy` settles both: a
call may hand out fewer bytes than were asked for, and the end of the file may be
reported together with the last bytes or by the call after them. `Go.Reader.readFull`
does not depend on either (`Go.Reader.readFull_of_le`), as long as the bytes are there;
a caller of `Read` itself does.
-/

namespace Go

/-- How a reader uses the freedom that its contract leaves it. -/
structure ReadPolicy where
  /-- The call that comes after `i` others hands out at most `most i + 1` bytes. -/
  most : ℕ → ℕ
  /-- Whether `io.EOF` is returned together with the last bytes. -/
  eofWithLast : Bool

/-- The policy of a reader that hands out what it is asked for, and the end of the file
together with the last byte, as that of `compress/gzip` does. -/
def ReadPolicy.eager : ReadPolicy where
  most := fun _ => 4096
  eofWithLast := true

/-- A reader: the bytes it has not handed out yet, and the number of calls so far. -/
structure Reader where
  rest : List UInt8
  calls : ℕ

namespace Reader

variable (p : ReadPolicy)

/-- `Read` into a buffer of `n` bytes: the bytes it hands out, whether it returns `io.EOF`
with them, and the reader after the call. -/
def read (r : Reader) (n : ℕ) : List UInt8 × Bool × Reader :=
  let count := min n (p.most r.calls + 1)
  let rest := r.rest.drop count
  (r.rest.take count, r.rest.isEmpty || (p.eofWithLast && rest.isEmpty), ⟨rest, r.calls + 1⟩)

/-- One byte is asked for, and there is one. -/
theorem read_one {r : Reader} {b : UInt8} {bs : List UInt8} (hr : r.rest = b :: bs) :
    r.read p 1 = ([b], p.eofWithLast && bs.isEmpty, ⟨bs, r.calls + 1⟩) := by
  simp [read, hr]

/-- A call that does not report the end of the file hands out a byte. -/
theorem read_length_pos {r : Reader} {n : ℕ} (h : (r.read p (n + 1)).2.1 = false) :
    0 < (r.read p (n + 1)).1.length := by
  have hne : r.rest ≠ [] := by
    rintro hnil
    simp [read, hnil] at h
  have hpos : 0 < r.rest.length := List.length_pos_iff.mpr hne
  simp only [read, List.length_take]
  omega

theorem read_length_le (r : Reader) (n : ℕ) : (r.read p n).1.length ≤ n := by
  simp only [read, List.length_take]
  omega

/-- `io.ReadFull` of `n` more bytes, after those in `buf`. -/
def readFullFrom (buf : List UInt8) (n : ℕ) (r : Reader) : Except Str (List UInt8 × Reader) :=
  match n with
  | 0 => .ok (buf, r)
  | n + 1 =>
    if (r.read p (n + 1)).1.length = n + 1 then
      -- an end of the file that comes with the last byte asked for is dropped
      .ok (buf ++ (r.read p (n + 1)).1, (r.read p (n + 1)).2.2)
    else if _hend : (r.read p (n + 1)).2.1 then
      .error (if buf ++ (r.read p (n + 1)).1 = [] then str "EOF" else str "unexpected EOF")
    else readFullFrom (buf ++ (r.read p (n + 1)).1) (n + 1 - (r.read p (n + 1)).1.length)
      (r.read p (n + 1)).2.2
termination_by n
decreasing_by
  have := read_length_pos p (Bool.eq_false_iff.mpr _hend)
  omega

/-- `io.ReadFull` into a buffer of `n` bytes. -/
def readFull (r : Reader) (n : ℕ) : Except Str (List UInt8 × Reader) := r.readFullFrom p [] n

/-- What a call hands out and what it leaves are the bytes there were. -/
theorem read_append (r : Reader) (n : ℕ) :
    (r.read p n).1 ++ (r.read p n).2.2.rest = r.rest := List.take_append_drop _ _

/-- A call that does not fill the buffer leaves bytes if there are enough to fill it, and
then does not report the end of the file. -/
theorem read_eof_eq_false {r : Reader} {n : ℕ} (hn : n ≤ r.rest.length)
    (hlt : (r.read p n).1.length < n) : (r.read p n).2.1 = false := by
  have hrest : r.rest ≠ [] := by
    rintro hnil
    simp [hnil] at hn
    omega
  simp only [read, List.length_take] at hlt
  have hdrop : r.rest.drop (min n (p.most r.calls + 1)) ≠ [] := by
    rw [Ne, List.drop_eq_nil_iff]
    omega
  simp [read, hrest, hdrop]

/-- **Reading in full hands out the bytes asked for**, if they are there, in however many
pieces they come. -/
theorem readFullFrom_of_le {n : ℕ} {r : Reader} (buf : List UInt8) (hn : n ≤ r.rest.length) :
    ∃ calls, r.readFullFrom p buf n = .ok (buf ++ r.rest.take n, ⟨r.rest.drop n, calls⟩) := by
  induction n using Nat.strongRecOn generalizing r buf with
  | ind n ih =>
    cases n with
    | zero => exact ⟨r.calls, by simp [readFullFrom]⟩
    | succ n =>
      obtain ⟨got, eof, rest, calls, hread⟩ :
          ∃ got eof rest calls, r.read p (n + 1) = (got, eof, ⟨rest, calls⟩) := ⟨_, _, _, _, rfl⟩
      have happend : got ++ rest = r.rest := by simpa [hread] using read_append p r (n + 1)
      have hle : got.length ≤ n + 1 := by simpa [hread] using read_length_le p r (n + 1)
      rw [readFullFrom]
      simp only [hread]
      rw [← happend] at hn ⊢
      rcases hle.eq_or_lt with heq | hlt
      · refine ⟨calls, ?_⟩
        rw [if_pos heq, ← heq, List.take_left, List.drop_left]
      · -- the piece is short, so more is to come and the loop goes on
        have heof : eof = false := by
          have := read_eof_eq_false p (r := r) (n := n + 1) (by rwa [← happend])
          simpa [hread, hlt] using this
        have hpos : 0 < got.length := by
          have := read_length_pos p (r := r) (n := n)
          simpa [hread, heof] using this
        rw [List.length_append] at hn
        obtain ⟨calls', hfull⟩ := ih (n + 1 - got.length) (by omega)
          (r := ⟨rest, calls⟩) (buf ++ got) (by simp only; omega)
        refine ⟨calls', ?_⟩
        rw [if_neg hlt.ne, dif_neg (by simp [heof]), hfull, List.append_assoc,
          List.take_append, List.take_of_length_le hlt.le, List.drop_append,
          List.drop_eq_nil_of_le hlt.le, List.nil_append]

theorem readFull_of_le {n : ℕ} {r : Reader} (hn : n ≤ r.rest.length) :
    ∃ calls, r.readFull p n = .ok (r.rest.take n, ⟨r.rest.drop n, calls⟩) := by
  simpa [readFull] using readFullFrom_of_le p (r := r) [] hn

end Reader

end Go
