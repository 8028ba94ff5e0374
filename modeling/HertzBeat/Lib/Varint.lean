import HertzBeat.Lib.Go
import Mathlib.Data.Nat.Digits.Defs
import Mathlib.Tactic.Ring

/-!
# Variable-length integers

`binary.PutUvarint` and `binary.Uvarint` of the standard library: a number is
written in groups of seven bits, the lowest group first, and every byte but the last
has its high bit set.

A reader that does not know where a number ends may try to decode every prefix of
what it has. The two facts that make this work are `Go.uvarintFrom_putUvarint` – the
bytes of a number are read back as it, whatever follows them – and
`Go.uvarintFrom_of_prefix` – a proper part of them is reported as incomplete, neither
as a number nor as an error.
-/

namespace Go

/-! ### Writing -/

/-- `binary.PutUvarint` into a buffer of `size` bytes: the bytes it writes. -/
def putUvarint : ℕ → ℕ → Except Panic (List UInt8)
  | 0, _ => .error .indexOutOfRange
  | size + 1, x =>
    if x < 128 then .ok [UInt8.ofNat x]
    else (putUvarint size (x / 128)).map (UInt8.ofNat (x % 128 + 128) :: ·)

/-- One more byte of the buffer is used for every seven bits. -/
theorem putUvarint_succ_eq_ok {size x : ℕ} {bs : List UInt8} :
    putUvarint (size + 1) x = .ok bs ↔
      x < 128 ∧ bs = [UInt8.ofNat x] ∨
      128 ≤ x ∧ ∃ bs', putUvarint size (x / 128) = .ok bs' ∧
        bs = UInt8.ofNat (x % 128 + 128) :: bs' := by
  rw [putUvarint]
  split
  · next hlt =>
    simp only [Except.ok.injEq, hlt, true_and, eq_comm (a := bs)]
    have hle : ¬128 ≤ x := by omega
    simp [hle]
  · next hlt =>
    have hle : 128 ≤ x := by omega
    cases putUvarint size (x / 128) with
    | error p => simp [Except.map, hlt]
    | ok bs' => simp [Except.map, hlt, hle, eq_comm]

/-- A number of at most seven bits for every byte of the buffer fits. -/
theorem exists_putUvarint {size x : ℕ} (hx : x < 128 ^ size) (hsize : 0 < size) :
    ∃ bs, putUvarint size x = .ok bs := by
  induction size generalizing x with
  | zero => omega
  | succ size ih =>
    by_cases hlt : x < 128
    · exact ⟨_, putUvarint_succ_eq_ok.mpr (.inl ⟨hlt, rfl⟩)⟩
    · have hdiv : x / 128 < 128 ^ size := by
        rw [Nat.div_lt_iff_lt_mul (by omega), ← pow_succ]
        exact hx
      -- the number is not below 128, so a second byte must be left
      have hpos : 0 < size := by
        rcases Nat.eq_zero_or_pos size with rfl | hpos
        · omega
        · exact hpos
      obtain ⟨bs', hbs'⟩ := ih hdiv hpos
      exact ⟨_, putUvarint_succ_eq_ok.mpr (.inr ⟨by omega, bs', hbs', rfl⟩)⟩

theorem putUvarint_ne_nil {size x : ℕ} {bs : List UInt8} (h : putUvarint size x = .ok bs) :
    bs ≠ [] := by
  cases size with
  | zero => cases h
  | succ size =>
    rcases putUvarint_succ_eq_ok.mp h with ⟨-, rfl⟩ | ⟨-, bs', -, rfl⟩ <;> simp

theorem putUvarint_length_le {size x : ℕ} {bs : List UInt8} (h : putUvarint size x = .ok bs) :
    bs.length ≤ size := by
  induction size generalizing x bs with
  | zero => cases h
  | succ size ih =>
    rcases putUvarint_succ_eq_ok.mp h with ⟨-, rfl⟩ | ⟨-, bs', hbs', rfl⟩
    · simp
    · have := ih hbs'
      simpa using this

/-- `binary.AppendUvarint`: the bytes of a `uint64`. -/
def appendUvarint (x : ℕ) : List UInt8 := ((putUvarint 10 (x % 2 ^ 64)).toOption).getD []

theorem putUvarint_ten {x : ℕ} (hx : x < 2 ^ 64) : putUvarint 10 x = .ok (appendUvarint x) := by
  have hfits : x < 128 ^ 10 := lt_of_lt_of_le hx (by decide)
  obtain ⟨bs, hbs⟩ := exists_putUvarint hfits (by omega)
  rw [appendUvarint, Nat.mod_eq_of_lt hx, hbs]
  rfl

/-! ### Reading -/

/-- The loop of `binary.Uvarint` from the byte at position `i` on, with the sum and the
shift so far. The second component is the number of bytes read; it is zero when the
bytes end inside the number, and negative when the number is too large. -/
def uvarintFrom (i x s : ℕ) : List UInt8 → ℕ × ℤ
  | [] => (0, 0)
  | b :: bs =>
    if i = 10 then (0, -(i + 1))
    else if b.toNat < 128 then
      if i = 9 ∧ 1 < b.toNat then (0, -(i + 1)) else (x + b.toNat * 2 ^ s, i + 1)
    else uvarintFrom (i + 1) (x + b.toNat % 128 * 2 ^ s) (s + 7) bs

/-- `binary.Uvarint`. -/
def uvarint (bs : List UInt8) : ℕ × ℤ := uvarintFrom 0 0 0 bs

theorem toNat_ofNat_of_lt {n : ℕ} (h : n < 256) : (UInt8.ofNat n).toNat = n := by
  rw [UInt8.toNat_ofNat']
  exact Nat.mod_eq_of_lt h

/-- A byte with the high bit set is taken up, and the loop goes on. -/
theorem uvarintFrom_continue {i x s g : ℕ} (hi : i < 10) (hg : g < 128) (bs : List UInt8) :
    uvarintFrom i x s (UInt8.ofNat (g + 128) :: bs) =
      uvarintFrom (i + 1) (x + g * 2 ^ s) (s + 7) bs := by
  have hbyte : (UInt8.ofNat (g + 128)).toNat = g + 128 := toNat_ofNat_of_lt (by omega)
  have hne : i ≠ 10 := by omega
  have hge : ¬g + 128 < 128 := by omega
  have hmod : (g + 128) % 128 = g := by omega
  rw [uvarintFrom, if_neg hne, hbyte, if_neg hge, hmod]

/-- **The bytes of a number are read back**, whatever follows them. The induction is on
the buffer, so the sum so far and the position are those of any earlier bytes. -/
theorem uvarintFrom_putUvarint {size x : ℕ} {bs : List UInt8} (h : putUvarint size x = .ok bs)
    (rest : List UInt8) (i acc : ℕ) (hi : i + size ≤ 10) (hx : x * 2 ^ (7 * i) < 2 ^ 64) :
    uvarintFrom i acc (7 * i) (bs ++ rest) = (acc + x * 2 ^ (7 * i), (i + bs.length : ℤ)) := by
  induction size generalizing x bs i acc with
  | zero => cases h
  | succ size ih =>
    rcases putUvarint_succ_eq_ok.mp h with ⟨hlt, rfl⟩ | ⟨hle, bs', hbs', rfl⟩
    · have hne : i ≠ 10 := by omega
      have hnine : ¬(i = 9 ∧ 1 < x) := by
        rintro ⟨rfl, hx1⟩
        omega
      rw [List.singleton_append, uvarintFrom, if_neg hne, toNat_ofNat_of_lt (by omega),
        if_pos hlt, if_neg hnine]
      rfl
    · have hvalue : x % 128 * 2 ^ (7 * i) + x / 128 * 2 ^ (7 * (i + 1)) = x * 2 ^ (7 * i) := by
        calc x % 128 * 2 ^ (7 * i) + x / 128 * 2 ^ (7 * (i + 1))
            = (x % 128 + 128 * (x / 128)) * 2 ^ (7 * i) := by ring
          _ = x * 2 ^ (7 * i) := by rw [Nat.mod_add_div]
      rw [List.cons_append, uvarintFrom_continue (by omega) (Nat.mod_lt x (by omega)),
        show 7 * i + 7 = 7 * (i + 1) by ring, ih hbs' (i + 1) _ (by omega) (by omega), add_assoc,
        hvalue]
      simp only [List.length_cons]
      push_cast
      ring_nf

/-- **A proper part of the bytes of a number is incomplete.** -/
theorem uvarintFrom_of_prefix {size x : ℕ} {bs pre : List UInt8}
    (h : putUvarint size x = .ok bs) (hpre : pre <+: bs) (hne : pre ≠ bs) (i acc : ℕ)
    (hi : i + size ≤ 10) : uvarintFrom i acc (7 * i) pre = (0, 0) := by
  induction size generalizing x bs pre i acc with
  | zero => cases h
  | succ size ih =>
    rcases putUvarint_succ_eq_ok.mp h with ⟨-, rfl⟩ | ⟨-, bs', hbs', rfl⟩
    · -- the only proper part of one byte is none
      rcases List.prefix_cons_iff.mp hpre with rfl | ⟨pre', rfl, hpre'⟩
      · rfl
      · obtain rfl := List.prefix_nil.mp hpre'
        exact absurd rfl hne
    · rcases List.prefix_cons_iff.mp hpre with rfl | ⟨pre', rfl, hpre'⟩
      · rfl
      · have hne' : pre' ≠ bs' := by
          rintro rfl
          exact hne rfl
        rw [uvarintFrom_continue (by omega) (Nat.mod_lt x (by omega)),
          show 7 * i + 7 = 7 * (i + 1) by ring]
        exact ih hbs' hpre' hne' (i + 1) _ (by omega)

theorem uvarint_putUvarint {size x : ℕ} {bs : List UInt8} (h : putUvarint size x = .ok bs)
    (hsize : size ≤ 10) (hx : x < 2 ^ 64) (rest : List UInt8) :
    uvarint (bs ++ rest) = (x, (bs.length : ℤ)) := by
  have := uvarintFrom_putUvarint h rest 0 0 (by omega) (by simpa using hx)
  simpa [uvarint] using this

theorem uvarint_appendUvarint {x : ℕ} (hx : x < 2 ^ 64) (rest : List UInt8) :
    uvarint (appendUvarint x ++ rest) = (x, ((appendUvarint x).length : ℤ)) :=
  uvarint_putUvarint (putUvarint_ten hx) le_rfl hx rest

theorem uvarint_of_prefix {size x : ℕ} {bs pre : List UInt8} (h : putUvarint size x = .ok bs)
    (hsize : size ≤ 10) (hpre : pre <+: bs) (hne : pre ≠ bs) : uvarint pre = (0, 0) := by
  simpa [uvarint] using uvarintFrom_of_prefix h hpre hne 0 0 (by omega)

/-! ### Groups of seven bits -/

/-- The number whose groups of seven bits are those of some bytes, the lowest first. -/
def groupsValue (bs : List UInt8) : ℕ := Nat.ofDigits 128 (bs.map (·.toNat % 128))

theorem groupsValue_concat (bs : List UInt8) (b : UInt8) :
    groupsValue (bs ++ [b]) = groupsValue bs + 128 ^ bs.length * (b.toNat % 128) := by
  simp [groupsValue, Nat.ofDigits_append]

theorem groupsValue_lt (bs : List UInt8) : groupsValue bs < 128 ^ bs.length := by
  have hdigit : ∀ d ∈ bs.map (·.toNat % 128), d < 128 := by
    intro d hd
    obtain ⟨b, -, rfl⟩ := List.mem_map.mp hd
    exact Nat.mod_lt _ (by decide)
  simpa [groupsValue] using Nat.ofDigits_lt_base_pow_length (by decide) hdigit

/-- Bytes with the high bit set are taken up, and the loop goes on. -/
theorem uvarintFrom_append {pre : List UInt8} (hpre : ∀ b ∈ pre, 128 ≤ b.toNat) (i x : ℕ)
    (hi : i + pre.length ≤ 10) (bs : List UInt8) :
    uvarintFrom i x (7 * i) (pre ++ bs) =
      uvarintFrom (i + pre.length) (x + groupsValue pre * 2 ^ (7 * i)) (7 * (i + pre.length))
        bs := by
  induction pre generalizing i x with
  | nil => simp [groupsValue]
  | cons b pre ih =>
    rw [List.length_cons] at hi
    have hne : i ≠ 10 := by omega
    have hge : ¬b.toNat < 128 := by
      have := hpre b List.mem_cons_self
      omega
    have hvalue : x + b.toNat % 128 * 2 ^ (7 * i) + groupsValue pre * 2 ^ (7 * (i + 1)) =
        x + groupsValue (b :: pre) * 2 ^ (7 * i) := by
      rw [groupsValue, groupsValue, List.map_cons, Nat.ofDigits_cons]
      ring
    rw [List.cons_append, uvarintFrom, if_neg hne, if_neg hge, show 7 * i + 7 = 7 * (i + 1) by ring,
      ih (fun c hc => hpre c (List.mem_cons_of_mem _ hc)) (i + 1) _ (by omega), hvalue,
      List.length_cons, Nat.add_right_comm, Nat.add_assoc]

/-- **A number ends with the first byte that has not the high bit set.** -/
theorem uvarint_append_cons {pre : List UInt8} (hpre : ∀ b ∈ pre, 128 ≤ b.toNat)
    (hlen : pre.length < 9) {b : UInt8} (hb : b.toNat < 128) (bs : List UInt8) :
    uvarint (pre ++ b :: bs) = (groupsValue (pre ++ [b]), (pre.length + 1 : ℤ)) := by
  have hnine : ¬(0 + pre.length = 9 ∧ 1 < b.toNat) := by omega
  have hten : 0 + pre.length ≠ 10 := by omega
  have hpow : 2 ^ (7 * (0 + pre.length)) = 128 ^ pre.length := by
    rw [Nat.zero_add, pow_mul, show 2 ^ 7 = 128 from rfl]
  rw [uvarint, uvarintFrom_append hpre 0 0 (by omega), uvarintFrom, if_neg hten, if_pos hb,
    if_neg hnine, groupsValue_concat, Nat.mod_eq_of_lt hb, hpow]
  simp [mul_comm]

/-- Bytes that all have the high bit set are incomplete. -/
theorem uvarint_of_continued {bs : List UInt8} (hbs : ∀ b ∈ bs, 128 ≤ b.toNat)
    (hlen : bs.length ≤ 10) : uvarint bs = (0, 0) := by
  have := uvarintFrom_append hbs 0 0 (by omega) []
  rwa [List.append_nil] at this

end Go
