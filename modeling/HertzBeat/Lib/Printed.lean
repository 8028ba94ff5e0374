import HertzBeat.Lib.Text
import Mathlib.Data.Bool.AllAny
import Mathlib.Data.List.Induction

/-!
# Reading back what is printed

The other direction of `Go.Text`: what the functions of the string library give on a text that was
put together. A text of lines is split into its lines, at a mark that occurs once there is one cut,
and a number is read from its digits.

White space is the business of the tables of Unicode, so what is needed of it is stated as laws, of
which none says more than that a blank of ASCII is white space and that another character of ASCII
is not: `Go.Text.Separates` for the words of a line, `Go.Text.Trims` for its ends, and
`Go.Text.TrimsEnds` for the ends of a part that has blanks inside. All hold of the strings of ASCII.
-/

namespace Go

/-! ### Parts -/

section Parts

variable {c : UInt8} {s t : Str}

@[simp] theorem hasPrefix_cons_singleton (c d : UInt8) (s : Str) :
    hasPrefix (d :: s) [c] = (c == d) := by
  rw [hasPrefix, List.isPrefixOf, List.isPrefixOf_nil_left, Bool.and_true]

theorem trimPrefix_append (pre s : Str) : trimPrefix (pre ++ s) pre = s := by
  have h : hasPrefix (pre ++ s) pre := List.isPrefixOf_iff_prefix.mpr (List.prefix_append pre s)
  rw [trimPrefix, if_pos h, List.drop_left]

theorem hasSuffix_iff_suffix {s suf : Str} : hasSuffix s suf ↔ suf <:+ s :=
  List.isSuffixOf_iff_suffix

/-- A split at a single byte is the split of lists. -/
theorem split_singleton (s : Str) (c : UInt8) : split s [c] = s.splitOn c := by
  induction s with
  | nil => rfl
  | cons d s ih =>
    rw [List.splitOn_eq_splitOnP, List.splitOnP_cons_eq_if_modifyHead, ← List.splitOn_eq_splitOnP,
      ← ih, split, splitFrom, hasPrefix_cons_singleton, BEq.comm]
    rfl

/-- Parts that are joined are split again. -/
theorem split_intercalate {parts : List Str} (hc : ∀ part ∈ parts, c ∉ part) (hne : parts ≠ []) :
    split ([c].intercalate parts) [c] = parts := by
  rw [split_singleton, List.splitOn_intercalate c hc hne]

/-- A mark at the end adds an empty part. -/
theorem split_concat (s : Str) (c : UInt8) : split (s ++ [c]) [c] = split s [c] ++ [[]] := by
  rw [split_singleton, split_singleton, List.splitOn_eq_splitOnP, List.splitOn_eq_splitOnP,
    List.splitOnP_append_cons s [] (by simp), List.splitOnP_nil]

/-- Bytes that cannot begin an occurrence are passed over. -/
theorem index_append {sub : Str} (h : c ∉ s) (t : Str) :
    index (c :: sub) (s ++ t) = (index (c :: sub) t).map (· + s.length) := by
  induction s with
  | nil => exact Option.map_id'.symm
  | cons d s ih =>
    obtain ⟨hd, hs⟩ := List.ne_and_not_mem_of_not_mem_cons h
    have hne : ¬hasPrefix (d :: (s ++ t)) (c :: sub) := fun hpre =>
      hd (List.cons_prefix_cons.mp (List.isPrefixOf_iff_prefix.mp hpre)).1
    rw [List.cons_append, index, if_neg hne, ih hs, Option.map_map]
    rfl

theorem index_of_notMem (h : c ∉ s) : index [c] s = none := by
  simpa [index] using @index_append c s [] h []

theorem index_eq_zero_iff {sub : Str} : index sub s = some 0 ↔ hasPrefix s sub := by
  cases s with
  | nil => cases sub <;> simp [index, hasPrefix]
  | cons d s => by_cases h : hasPrefix (d :: s) sub <;> simp [index, h]

theorem exists_of_index_eq_some {i : ℕ} (h : index [c] s = some i) :
    ∃ t u, s = t ++ c :: u ∧ t.length = i := by
  induction s generalizing i with
  | nil => cases h
  | cons d s ih =>
    rw [index, hasPrefix_cons_singleton] at h
    split_ifs at h with hd
    · cases h
      exact ⟨[], s, by rw [beq_iff_eq.mp hd]; rfl, rfl⟩
    · obtain ⟨j, hj, rfl⟩ := Option.map_eq_some_iff.mp h
      obtain ⟨t, u, rfl, rfl⟩ := ih hj
      exact ⟨d :: t, u, rfl, rfl⟩

theorem index_append_cons (h : c ∉ s) : index [c] (s ++ c :: t) = some s.length := by
  rw [index_append h, index_eq_zero_iff.mpr (by simp), Option.map_some, Nat.zero_add]

/-- The cut is at the first mark. -/
theorem splitTwo_append_cons (h : c ∉ s) : splitTwo (s ++ c :: t) [c] = [s, t] := by
  rw [splitTwo, index_append_cons h]
  simp

/-- What is in front of the first mark and what is behind it. -/
theorem append_cons_inj {s' t' : Str} (hs : c ∉ s) (hs' : c ∉ s')
    (h : s ++ c :: t = s' ++ c :: t') : s = s' ∧ t = t' := by
  have hcut := congrArg (splitTwo · [c]) h
  simpa [splitTwo_append_cons hs, splitTwo_append_cons hs'] using hcut

end Parts

/-! ### Numbers -/

/-- The digits of a number, as bytes. -/
def digits (n : ℕ) : Str := (Nat.toDigits 10 n).map (·.val.toUInt8)

theorem digit_bounds {c : Char} (h : c.isDigit) :
    c.val.toUInt8.toNat = c.toNat ∧ 48 ≤ c.toNat ∧ c.toNat ≤ 57 := by
  rw [Char.isDigit, Bool.and_eq_true, decide_eq_true_eq, decide_eq_true_eq] at h
  have hle : 48 ≤ c.toNat := UInt32.le_iff_toNat_le.mp h.1
  have hge : c.toNat ≤ 57 := UInt32.le_iff_toNat_le.mp h.2
  refine ⟨?_, hle, hge⟩
  rw [UInt32.toNat_toUInt8]
  exact Nat.mod_eq_of_lt (by change c.toNat < 256; omega)

/-- A digit takes one byte. -/
theorem str_ofList_digits {l : List Char} (h : ∀ c ∈ l, c.isDigit) :
    str (String.ofList l) = l.map (·.val.toUInt8) := by
  have hbyte : ∀ c ∈ l, String.utf8EncodeChar c = [c.val.toUInt8] := by
    intro c hc
    apply String.utf8EncodeChar_eq_singleton
    rw [Char.utf8Size_eq_one_iff, UInt32.le_iff_toNat_le]
    exact (digit_bounds (h c hc)).2.2.trans (by decide)
  rw [str, String.toUTF8, String.toByteArray_ofList, List.utf8Encode, List.map_eq_flatMap,
    ← List.flatMap_congr hbyte]
  simp

theorem isDigit_toDigits (n : ℕ) : ∀ c ∈ Nat.toDigits 10 n, c.isDigit :=
  fun _ hc => Nat.isDigit_of_mem_toDigits (by decide) le_rfl hc

theorem itoa_natCast (n : ℕ) : itoa n = digits n :=
  str_ofList_digits (isDigit_toDigits n)

/-- A digit is a byte from 48 to 57. -/
theorem mem_digits {n : ℕ} {b : UInt8} (hb : b ∈ digits n) : 48 ≤ b ∧ b ≤ 57 := by
  obtain ⟨c, hc, rfl⟩ := List.mem_map.mp hb
  obtain ⟨hval, hle, hge⟩ := digit_bounds (isDigit_toDigits n c hc)
  rw [UInt8.le_iff_toNat_le, UInt8.le_iff_toNat_le, hval]
  exact ⟨hle, hge⟩

/-- Digits are read as a number one by one. -/
theorem foldl_digits {l : List Char} (h : ∀ c ∈ l, c.isDigit) (k : ℕ) :
    (l.map (·.val.toUInt8)).foldl (fun n c => n.bind fun n =>
      if 48 ≤ c ∧ c ≤ 57 then some (10 * n + (c.toNat - 48)) else none) (some k) =
        some (Nat.ofDigitChars 10 l k) := by
  induction l generalizing k with
  | nil => rfl
  | cons c l ih =>
    obtain ⟨hval, hle, hge⟩ := digit_bounds (h c List.mem_cons_self)
    have hdigit : 48 ≤ c.val.toUInt8 ∧ c.val.toUInt8 ≤ 57 := by
      rw [UInt8.le_iff_toNat_le, UInt8.le_iff_toNat_le, hval]
      exact ⟨hle, hge⟩
    rw [List.map_cons, List.foldl_cons, Option.bind_some, if_pos hdigit, hval,
      Nat.ofDigitChars_cons]
    exact ih (fun d hd => h d (List.mem_cons_of_mem _ hd)) _

theorem digitsValue_digits (n : ℕ) : digitsValue (digits n) = some n := by
  rw [digitsValue, if_neg (by simp [digits]), digits, foldl_digits (isDigit_toDigits n),
    Nat.ofDigitChars_toDigits (by decide) le_rfl]

/-- **A number is read back from its digits.** -/
theorem atoi_itoa {n : ℕ} (h : n < 2 ^ 63) : atoi (itoa n) = some (n : ℤ) := by
  have hvalue : atoi (digits n) =
      ((digitsValue (digits n)).map fun n => (n : ℤ)).filter fun n => -2 ^ 63 ≤ n ∧ n < 2 ^ 63 := by
    unfold atoi
    split
    -- a sign is not a digit
    · next hsign => exact absurd (mem_digits (hsign ▸ List.mem_cons_self)) (by decide)
    · next hsign => exact absurd (mem_digits (hsign ▸ List.mem_cons_self)) (by decide)
    · rfl
  rw [itoa_natCast, hvalue, digitsValue_digits]
  exact Option.filter_eq_some_iff.mpr ⟨rfl, by simp; omega⟩

/-! ### White space -/

/-- A character of ASCII that is not a blank. -/
def isSolid (c : UInt8) : Bool := c < 128 && !isBlank c

/-- A word: it is not taken apart, and nothing is taken away from it. -/
def Text.IsWord (text : Text) (w : Str) : Prop := text.fields w = [w]

instance (text : Text) (w : Str) : Decidable (text.IsWord w) :=
  inferInstanceAs (Decidable (text.fields w = [w]))

/-- **Blanks separate words**: the words of a text are those before a blank and those after it. -/
structure Text.Separates (text : Text) : Prop where
  fields_nil : text.fields [] = []
  fields_append_blank : ∀ (s t : Str) (c : UInt8), isBlank c →
    text.fields (s ++ c :: t) = text.fields s ++ text.fields t
  fields_trimSpace : ∀ s, text.fields (text.trimSpace s) = text.fields s
  trimSpace_eq_nil_iff : ∀ s, text.trimSpace s = [] ↔ text.fields s = []
  trimSpace_word : ∀ w, text.IsWord w → text.trimSpace w = w
  not_isBlank_word : ∀ w, text.IsWord w → ∀ c ∈ w, ¬isBlank c

/-- **Blanks are trimmed, and nothing beyond a solid character is.** -/
structure Text.Trims (text : Text) : Prop where
  trimSpace_nil : text.trimSpace [] = []
  trimSpace_concat : ∀ (s : Str) (c : UInt8), isBlank c →
    text.trimSpace (s ++ [c]) = text.trimSpace s
  trimSpace_cons : ∀ (s : Str) (c : UInt8), isSolid c → ∃ t, text.trimSpace (c :: s) = c :: t
  trimSpace_append : ∀ s t : Str, (∃ c ∈ s.head?, isSolid c) → (∃ c ∈ s.getLast?, isSolid c) →
    text.trimSpace t = t → text.trimSpace (s ++ t) = s ++ t

/-- **White space is taken off at the ends, and nothing is put in.** -/
structure Text.TrimsEnds (text : Text) : Prop where
  trimSpace_blank_cons : ∀ (s : Str) (c : UInt8), isBlank c →
    text.trimSpace (c :: s) = text.trimSpace s
  trimSpace_part : ∀ s, text.trimSpace s <:+: s

/-- **Letters of ASCII are made small one by one.** -/
def Text.LowersASCII (text : Text) : Prop :=
  ∀ s : Str, (∀ c ∈ s, c < 128) → text.toLower s = s.map lowerByte

/-- **Strings that are alike but for their case.** -/
structure Text.Folds (text : Text) : Prop where
  symm : ∀ s t, text.equalFold s t → text.equalFold t s
  trans : ∀ s t u, text.equalFold s t → text.equalFold t u → text.equalFold s u
  ascii : ∀ s t : Str, (∀ c ∈ s, c < 128) → (∀ c ∈ t, c < 128) → text.equalFold s t →
    s.map lowerByte = t.map lowerByte

/-- A text with a solid character at either end has nothing to be trimmed. -/
theorem Text.Trims.trimSpace_solid {text : Text} (htext : text.Trims) {s : Str}
    (hhead : ∃ c ∈ s.head?, isSolid c) (hlast : ∃ c ∈ s.getLast?, isSolid c) :
    text.trimSpace s = s := by
  simpa using htext.trimSpace_append s [] hhead hlast htext.trimSpace_nil

/-! ### Words that are printed -/

/-- Blanks within a line. -/
def AreBlanks (s : Str) : Prop := ∀ c ∈ s, isBlank c ∧ c ≠ 10

/-- **A line of words**, with blanks between each two of them. -/
inductive Spaced : List Str → Str → Prop
  | word (w : Str) : Spaced [w] w
  | cons {w blanks : Str} {words : List Str} {line : Str} :
    blanks ≠ [] → AreBlanks blanks → Spaced words line → Spaced (w :: words) (w ++ blanks ++ line)

section Spaced

variable {text : Text} (htext : text.Separates)

include htext

/-- Blanks in front make no difference. -/
theorem fields_blanks_append {blanks : Str} (hblanks : AreBlanks blanks) (s : Str) :
    text.fields (blanks ++ s) = text.fields s := by
  induction blanks with
  | nil => rfl
  | cons c blanks ih =>
    have hc := htext.fields_append_blank [] (blanks ++ s) c (hblanks c List.mem_cons_self).1
    rw [htext.fields_nil] at hc
    exact hc.trans (ih fun d hd => hblanks d (List.mem_cons_of_mem _ hd))

theorem fields_blanks {blanks : Str} (hblanks : AreBlanks blanks) : text.fields blanks = [] := by
  have h := fields_blanks_append htext hblanks []
  rwa [List.append_nil, htext.fields_nil] at h

/-- **The words are read back**, whatever the blanks are. -/
theorem fields_spaced {words : List Str} {line : Str} (h : Spaced words line)
    (hwords : ∀ w ∈ words, text.IsWord w) : text.fields line = words := by
  induction h with
  | word w => exact hwords w List.mem_cons_self
  | @cons w blanks words line hne hblanks _ ih =>
    obtain ⟨c, blanks, rfl⟩ := List.exists_cons_of_ne_nil hne
    have hw : text.fields w = [w] := hwords w List.mem_cons_self
    rw [List.append_assoc, List.cons_append,
      htext.fields_append_blank _ _ _ (hblanks c List.mem_cons_self).1, hw,
      fields_blanks_append htext fun d hd => hblanks d (List.mem_cons_of_mem _ hd),
      ih fun v hv => hwords v (List.mem_cons_of_mem _ hv)]
    rfl

/-- A line of words is a line. -/
theorem newline_notMem_spaced {words : List Str} {line : Str} (h : Spaced words line)
    (hwords : ∀ w ∈ words, text.IsWord w) : 10 ∉ line := by
  have hword : ∀ w, text.IsWord w → 10 ∉ w :=
    fun w hw hmem => htext.not_isBlank_word w hw 10 hmem (by decide)
  induction h with
  | word w => exact hword w (hwords w List.mem_cons_self)
  | @cons w blanks words line _ hblanks _ ih =>
    rw [List.mem_append, List.mem_append]
    rintro ((hmem | hmem) | hmem)
    · exact hword w (hwords w List.mem_cons_self) hmem
    · exact (hblanks 10 hmem).2 rfl
    · exact ih (fun v hv => hwords v (List.mem_cons_of_mem _ hv)) hmem

end Spaced

/-! ### The strings of ASCII -/

section Ascii

theorem fields_ascii_append_blank (s t : Str) {c : UInt8} (hc : isBlank c) :
    Text.ascii.fields (s ++ c :: t) = Text.ascii.fields s ++ Text.ascii.fields t := by
  change ((s ++ c :: t).splitOnP isBlank).filter _ = _
  rw [List.splitOnP_append_cons s t hc, List.filter_append]
  rfl

theorem fields_ascii_dropWhile (s : Str) :
    Text.ascii.fields (s.dropWhile isBlank) = Text.ascii.fields s := by
  induction s with
  | nil => rfl
  | cons c s ih =>
    by_cases hc : isBlank c
    · rw [List.dropWhile_cons_of_pos hc, ih]
      exact (fields_ascii_append_blank [] s hc).symm
    · rw [List.dropWhile_cons_of_neg hc]

theorem fields_ascii_rdropWhile (s : Str) :
    Text.ascii.fields (s.rdropWhile isBlank) = Text.ascii.fields s := by
  induction s using List.reverseRecOn with
  | nil => rfl
  | append_singleton s c ih =>
    by_cases hc : isBlank c
    · rw [List.rdropWhile_concat_pos _ _ _ hc, ih, fields_ascii_append_blank s [] hc]
      exact (List.append_nil _).symm
    · rw [List.rdropWhile_concat_neg _ _ _ hc]

/-- What lies between the marks of a text has no mark in it. -/
theorem not_of_mem_splitOnP {p : UInt8 → Bool} {s w : Str} (hw : w ∈ s.splitOnP p) :
    ∀ c ∈ w, ¬p c := by
  induction s generalizing w with
  | nil =>
    rw [List.splitOnP_nil, List.mem_singleton] at hw
    simp [hw]
  | cons d s ih =>
    rw [List.splitOnP_cons_eq_if_modifyHead] at hw
    split_ifs at hw with hd
    · rcases List.mem_cons.mp hw with rfl | hw
      · simp
      · exact ih hw
    · cases hparts : s.splitOnP p with
      | nil => exact absurd hparts (List.splitOnP_ne_nil p s)
      | cons part parts =>
        rw [hparts] at hw
        rcases List.mem_cons.mp hw with rfl | hw
        · intro c hc
          rcases List.mem_cons.mp hc with rfl | hc
          · exact hd
          · exact ih (hparts ▸ List.mem_cons_self) c hc
        · exact ih (hparts ▸ List.mem_cons_of_mem _ hw)

theorem fields_ascii_eq_nil_iff (s : Str) : Text.ascii.fields s = [] ↔ ∀ c ∈ s, isBlank c := by
  induction s with
  | nil => exact iff_of_true rfl (by simp)
  | cons c s ih =>
    rw [List.forall_mem_cons]
    by_cases hc : isBlank c
    · rw [← ih, and_iff_right hc]
      exact Eq.congr (fields_ascii_append_blank [] s hc) rfl
    · refine iff_of_false (fun h => ?_) fun h => hc h.1
      change ((c :: s).splitOnP isBlank).filter _ = [] at h
      rw [List.splitOnP_cons_eq_if_modifyHead, if_neg hc] at h
      cases hparts : s.splitOnP isBlank with
      | nil => exact absurd hparts (List.splitOnP_ne_nil _ s)
      | cons part parts => simp [hparts] at h

theorem trimSpace_ascii_eq_nil_iff (s : Str) :
    Text.ascii.trimSpace s = [] ↔ ∀ c ∈ s, isBlank c := by
  change (s.dropWhile isBlank).rdropWhile isBlank = [] ↔ _
  constructor
  · intro h
    rw [← fields_ascii_eq_nil_iff, ← fields_ascii_dropWhile, ← fields_ascii_rdropWhile, h]
    rfl
  · intro h
    rw [List.dropWhile_eq_nil_iff.mpr h, List.rdropWhile_nil]

/-- A text whose first and whose last character is not a blank has nothing to be trimmed. -/
theorem trimSpace_ascii_eq_self {s : Str} (hhead : ∀ c ∈ s.head?, ¬isBlank c)
    (hlast : ∀ c ∈ s.getLast?, ¬isBlank c) : Text.ascii.trimSpace s = s := by
  have hdrop : s.dropWhile isBlank = s := by
    rw [List.dropWhile_eq_self_iff]
    intro hs
    exact hhead _ (by rw [List.head?_eq_getElem?, List.getElem?_eq_getElem hs]; rfl)
  change (s.dropWhile isBlank).rdropWhile isBlank = s
  rw [hdrop, List.rdropWhile_eq_self_iff]
  intro hs
  exact hlast _ (List.getLast?_eq_getLast_of_ne_nil hs ▸ rfl)

theorem not_isBlank_of_isWord_ascii {w : Str} (hw : Text.ascii.IsWord w) : ∀ c ∈ w, ¬isBlank c :=
  have hmem : w ∈ Text.ascii.fields w := hw.symm ▸ List.mem_singleton_self w
  not_of_mem_splitOnP (List.mem_of_mem_filter hmem)

theorem Text.separates_ascii : Text.ascii.Separates where
  fields_nil := rfl
  fields_append_blank := fun s t _ hc => fields_ascii_append_blank s t hc
  fields_trimSpace := by
    intro s
    change ascii.fields ((s.dropWhile isBlank).rdropWhile isBlank) = _
    rw [fields_ascii_rdropWhile, fields_ascii_dropWhile]
  trimSpace_eq_nil_iff := by
    intro s
    rw [trimSpace_ascii_eq_nil_iff, fields_ascii_eq_nil_iff]
  trimSpace_word := by
    intro w hw
    have hblank := not_isBlank_of_isWord_ascii hw
    exact trimSpace_ascii_eq_self (fun c hc => hblank c (List.mem_of_mem_head? hc))
      fun c hc => hblank c (List.mem_of_mem_getLast? hc)
  not_isBlank_word := fun _ hw => not_isBlank_of_isWord_ascii hw

theorem not_isBlank_of_isSolid {c : UInt8} (hc : isSolid c) : ¬isBlank c := by
  rw [isSolid, Bool.and_eq_true, Bool.not_eq_true'] at hc
  simp [hc.2]

theorem Text.trims_ascii : Text.ascii.Trims where
  trimSpace_nil := rfl
  trimSpace_concat := by
    intro s c hc
    change ((s ++ [c]).dropWhile isBlank).rdropWhile isBlank = (s.dropWhile isBlank).rdropWhile _
    rw [List.dropWhile_append]
    split_ifs with hs
    · rw [List.isEmpty_iff.mp hs, List.dropWhile_cons_of_pos hc]
      rfl
    · rw [List.rdropWhile_concat_pos _ _ _ hc]
  trimSpace_cons := by
    intro s c hc
    have hblank := not_isBlank_of_isSolid hc
    change ∃ t, ((c :: s).dropWhile isBlank).rdropWhile isBlank = c :: t
    rw [List.dropWhile_cons_of_neg hblank]
    cases hrest : (c :: s).rdropWhile isBlank with
    | nil => exact absurd (List.rdropWhile_eq_nil_iff.mp hrest c List.mem_cons_self) hblank
    | cons d t =>
      obtain ⟨u, hu⟩ := hrest ▸ List.rdropWhile_prefix isBlank (c :: s)
      exact ⟨t, by rw [(List.cons.inj hu).1]⟩
  trimSpace_append := by
    rintro s t ⟨c, hc, hsolid⟩ ⟨d, hd, hsolid'⟩ ht
    apply trimSpace_ascii_eq_self
    · rw [List.head?_append, Option.mem_def.mp hc]
      rintro _ ⟨⟩
      exact not_isBlank_of_isSolid hsolid
    · have hlast : t.rdropWhile isBlank = t := by
        rw [← ht]
        exact List.rdropWhile_idempotent _ _
      rw [List.getLast?_append, Option.mem_def.mp hd]
      intro e he
      cases hte : t.getLast? with
      | none =>
        rw [hte] at he
        cases he
        exact not_isBlank_of_isSolid hsolid'
      | some e' =>
        rw [hte] at he
        cases he
        obtain ⟨hne, rfl⟩ := List.mem_getLast?_eq_getLast (Option.mem_def.mpr hte)
        exact List.rdropWhile_eq_self_iff.mp hlast hne

theorem Text.trimsEnds_ascii : Text.ascii.TrimsEnds where
  trimSpace_blank_cons := by
    intro s c hc
    change ((c :: s).dropWhile isBlank).rdropWhile isBlank = (s.dropWhile isBlank).rdropWhile _
    rw [List.dropWhile_cons_of_pos hc]
  trimSpace_part := fun s =>
    (List.rdropWhile_prefix isBlank (s.dropWhile isBlank)).isInfix.trans
      (List.dropWhile_suffix isBlank).isInfix

theorem Text.lowersASCII_ascii : Text.ascii.LowersASCII := fun _ _ => rfl

theorem Text.folds_ascii : Text.ascii.Folds where
  symm := fun _ _ h => decide_eq_true (of_decide_eq_true h).symm
  trans := fun _ _ _ h h' => decide_eq_true ((of_decide_eq_true h).trans (of_decide_eq_true h'))
  ascii := fun _ _ _ _ h => of_decide_eq_true h

end Ascii

end Go
