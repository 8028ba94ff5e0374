import HertzBeat.Lib.Encoding

/-!
# Base64, written and read back

`Go.base64Decode` is the reader of the source's library. This file adds the writer,
`Go.base64Encode`, and the two facts about the pair that encrypted texts rest on:

* `Go.base64Decode_base64Encode` – what is written is read back;
* `Go.length_lt_of_base64Decode` – what is read from a text is shorter than the text.
-/

namespace Go

/-! ### The alphabet -/

/-- The letter of a value of six bits. -/
def base64Letter (n : ℕ) : UInt8 :=
  if n < 26 then UInt8.ofNat (n + 65)
  else if n < 52 then UInt8.ofNat (n + 71)
  else if n < 62 then UInt8.ofNat (n - 4)
  else if n = 62 then 43
  else 47

/-- The letters are read as the values they stand for. -/
theorem base64Value_base64Letter {n : ℕ} (hn : n < 64) :
    base64Value (base64Letter n) = some n := by
  have hall : ∀ m : Fin 64, base64Value (base64Letter m) = some m.val := by decide
  exact hall ⟨n, hn⟩

/-- The padding letter stands for no value. -/
theorem base64Value_padding : base64Value 61 = none := by decide

/-- No letter is a line break. -/
theorem base64Letter_ne_lineBreak {n : ℕ} (hn : n < 64) :
    base64Letter n ≠ 10 ∧ base64Letter n ≠ 13 := by
  have hall : ∀ m : Fin 64, base64Letter m ≠ 10 ∧ base64Letter m ≠ 13 := by decide
  exact hall ⟨n, hn⟩

/-! ### The writer -/

/-- The standard base64 text of a byte string: four letters for three bytes, and the last group
filled up with the padding letter. -/
def base64Encode : Str → Str
  | [] => []
  | [a] => [base64Letter (a.toNat / 2 ^ 2), base64Letter (a.toNat % 2 ^ 2 * 2 ^ 4), 61, 61]
  | [a, b] =>
    let n := a.toNat * 2 ^ 8 + b.toNat
    [base64Letter (n / 2 ^ 10), base64Letter (n / 2 ^ 4 % 2 ^ 6),
      base64Letter (n % 2 ^ 4 * 2 ^ 2), 61]
  | a :: b :: c :: rest =>
    let n := a.toNat * 2 ^ 16 + b.toNat * 2 ^ 8 + c.toNat
    base64Letter (n / 2 ^ 18) :: base64Letter (n / 2 ^ 12 % 2 ^ 6) ::
      base64Letter (n / 2 ^ 6 % 2 ^ 6) :: base64Letter (n % 2 ^ 6) :: base64Encode rest

example : base64Encode (str "any carnal") = str "YW55IGNhcm5hbA==" := by decide +kernel

/-- The low byte of a number is a byte that was put there. -/
theorem ofNat_eq_of_mod {n : ℕ} {a : UInt8} (h : n % 2 ^ 8 = a.toNat) : UInt8.ofNat n = a := by
  rw [← UInt8.toNat_inj, UInt8.toNat_ofNat']
  exact h

/-- **The groups of a text are read back.** -/
theorem base64Groups_base64Encode (data : Str) : base64Groups (base64Encode data) = some data := by
  induction data using base64Encode.induct with
  | case1 => rfl
  | case2 a =>
    have ha := a.toNat_lt
    rw [base64Encode, base64Groups, base64Value_base64Letter (by omega),
      base64Value_base64Letter (by omega)]
    simp only [base64Value_padding, and_self, if_true]
    rw [@ofNat_eq_of_mod _ a (by omega)]
  | case3 a b =>
    have ha := a.toNat_lt
    have hb := b.toNat_lt
    rw [base64Encode, base64Groups, base64Value_base64Letter (by omega),
      base64Value_base64Letter (by omega), base64Value_base64Letter (by omega)]
    simp only [base64Value_padding, and_self, if_true]
    rw [@ofNat_eq_of_mod _ a (by omega), @ofNat_eq_of_mod _ b (by omega)]
  | case4 a b c rest ih =>
    have ha := a.toNat_lt
    have hb := b.toNat_lt
    have hc := c.toNat_lt
    rw [base64Encode, base64Groups, base64Value_base64Letter (by omega),
      base64Value_base64Letter (by omega), base64Value_base64Letter (by omega),
      base64Value_base64Letter (by omega)]
    simp only [ih]
    rw [@ofNat_eq_of_mod _ a (by omega), @ofNat_eq_of_mod _ b (by omega),
      @ofNat_eq_of_mod _ c (by omega)]
    rfl

/-- A text has no line breaks for the reader to skip. -/
theorem ne_lineBreak_of_mem_base64Encode {data : Str} {c : UInt8} (h : c ∈ base64Encode data) :
    c ≠ 10 ∧ c ≠ 13 := by
  induction data using base64Encode.induct with
  | case1 => exact absurd h List.not_mem_nil
  | case2 a =>
    have ha := a.toNat_lt
    simp only [base64Encode, List.mem_cons, List.not_mem_nil, or_false] at h
    rcases h with rfl | rfl | rfl | rfl
    · exact base64Letter_ne_lineBreak (by omega)
    · exact base64Letter_ne_lineBreak (by omega)
    · decide
    · decide
  | case3 a b =>
    have ha := a.toNat_lt
    have hb := b.toNat_lt
    simp only [base64Encode, List.mem_cons, List.not_mem_nil, or_false] at h
    rcases h with rfl | rfl | rfl | rfl
    · exact base64Letter_ne_lineBreak (by omega)
    · exact base64Letter_ne_lineBreak (by omega)
    · exact base64Letter_ne_lineBreak (by omega)
    · decide
  | case4 a b c rest ih =>
    have ha := a.toNat_lt
    have hb := b.toNat_lt
    have hc := c.toNat_lt
    simp only [base64Encode, List.mem_cons] at h
    rcases h with rfl | rfl | rfl | rfl | hrest
    · exact base64Letter_ne_lineBreak (by omega)
    · exact base64Letter_ne_lineBreak (by omega)
    · exact base64Letter_ne_lineBreak (by omega)
    · exact base64Letter_ne_lineBreak (by omega)
    · exact ih hrest

/-- **What is written is read back.** -/
@[simp] theorem base64Decode_base64Encode (data : Str) :
    base64Decode (base64Encode data) = some data := by
  have hfilter : (base64Encode data).filter (fun c => c ≠ 10 ∧ c ≠ 13) = base64Encode data :=
    List.filter_eq_self.mpr fun c hc => decide_eq_true (ne_lineBreak_of_mem_base64Encode hc)
  rw [base64Decode, hfilter, base64Groups_base64Encode]

/-! ### The length of what is read -/

/-- Four letters give three bytes at most. -/
theorem length_le_of_base64Groups : ∀ {s data : Str}, base64Groups s = some data →
    4 * data.length ≤ 3 * s.length
  | [], data, h => by
    cases h
    exact le_rfl
  | [_], _, h => absurd h (by simp [base64Groups])
  | [_, _], _, h => absurd h (by simp [base64Groups])
  | [_, _, _], _, h => absurd h (by simp [base64Groups])
  | a :: b :: c :: d :: rest, data, h => by
    rw [base64Groups] at h
    split at h
    · obtain ⟨bytes, hrest, hdata⟩ := Option.bind_eq_some_iff.mp h
      have hlen := length_le_of_base64Groups hrest
      cases hdata
      simp only [List.length_cons]
      omega
    · split_ifs at h
      cases h
      simp only [List.length_cons, List.length_nil]
      omega
    · split_ifs at h
      cases h
      simp only [List.length_cons, List.length_nil]
      omega
    · exact absurd h (by simp)

/-- **What is read is shorter than the text**, unless there is none. -/
theorem length_lt_of_base64Decode {s data : Str} (h : base64Decode s = some data)
    (hdata : data ≠ []) : data.length < s.length := by
  have hgroups := length_le_of_base64Groups h
  have hfilter := List.length_filter_le (fun c : UInt8 => decide (c ≠ 10 ∧ c ≠ 13)) s
  have hpos := List.length_pos_iff.mpr hdata
  omega

end Go
