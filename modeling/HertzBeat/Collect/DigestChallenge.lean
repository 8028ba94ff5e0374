import HertzBeat.Collect.HTTPRows
import HertzBeat.Lib.Assign
import HertzBeat.Lib.Printed

/-!
# Reading a digest challenge

A server that asks for digest authentication sends a challenge: names with values, most of the
values in quotes, with commas between them. `parseAuthHeader` cuts the challenge at the commas
first and looks for the quotes later. So a value with a comma in it is cut as well: it loses what
is behind the comma, and what is lost may be taken for another parameter.

`HertzBeat.HTTPCollector.lookup_parseAuthHeader_iff` says that this is all that goes wrong: a
challenge is read as what it says if and only if no value has a comma.
-/

namespace HertzBeat

open Go (Str StrMap)

namespace HTTPCollector

/-! ### Challenges -/

/-- The bytes that a token cannot have, though they are printed. -/
def delimiters : Str := Go.str "\"(),/:;<=>?@[\\]\x7b\x7d"

/-- A byte of a token. -/
def isTokenByte (c : UInt8) : Bool := 33 ≤ c && c ≤ 126 && c ∉ delimiters

/-- A token: one or more of these bytes. -/
def IsToken (s : Str) : Prop := s ≠ [] ∧ ∀ c ∈ s, isTokenByte c

theorem isToken_of_all {s : Str} (hne : s ≠ []) (h : s.all isTokenByte = true) : IsToken s :=
  ⟨hne, List.all_eq_true.mp h⟩

/-- A parameter of a challenge. Its name is a token, and so is a value without quotes; within
quotes the value is any string without them. -/
structure AuthParam where
  name : Str
  value : Str
  inQuotes : Bool
  isToken_name : IsToken name
  value_ok : if inQuotes then 34 ∉ value else IsToken value

namespace AuthParam

variable (p : AuthParam)

/-- The value as it is printed. -/
def printValue : Str := if p.inQuotes then 34 :: (p.value ++ [34]) else p.value

/-- The parameter as it is printed. -/
def print : Str := p.name ++ 61 :: p.printValue

end AuthParam

/-- **A challenge.** -/
def printChallenge (params : List AuthParam) : Str :=
  Go.str "Digest " ++ List.intercalate (Go.str ", ") (params.map AuthParam.print)

/-! ### Tokens -/

theorem isSolid_of_isTokenByte {c : UInt8} (h : isTokenByte c) : Go.isSolid c := by
  rw [isTokenByte, Bool.and_eq_true, Bool.and_eq_true, decide_eq_true_eq, decide_eq_true_eq,
    UInt8.le_iff_toNat_le, UInt8.le_iff_toNat_le] at h
  obtain ⟨⟨hle, hge⟩, -⟩ := h
  have hle : 33 ≤ c.toNat := hle
  have hge : c.toNat ≤ 126 := hge
  have hlt : c < 128 := UInt8.lt_iff_toNat_lt.mpr (by simp; omega)
  have hblank : Go.isBlank c = false := by
    rw [Go.isBlank, Bool.or_eq_false_iff, Bool.and_eq_false_iff, decide_eq_false_iff_not,
      decide_eq_false_iff_not, decide_eq_false_iff_not, UInt8.le_iff_toNat_le,
      UInt8.le_iff_toNat_le, ← UInt8.toNat_inj]
    exact ⟨.inr (by simp; omega), by simp; omega⟩
  rw [Go.isSolid, hblank]
  simpa using hlt

theorem IsToken.notMem {s : Str} (h : IsToken s) {d : UInt8} (hd : d ∈ delimiters) : d ∉ s := by
  intro hmem
  have htoken := h.2 d hmem
  rw [isTokenByte, Bool.and_eq_true, decide_eq_true_eq] at htoken
  exact htoken.2 hd

theorem IsToken.head {s : Str} (h : IsToken s) : ∃ c ∈ s.head?, Go.isSolid c := by
  obtain ⟨c, t, rfl⟩ := List.exists_cons_of_ne_nil h.1
  exact ⟨c, rfl, isSolid_of_isTokenByte (h.2 c List.mem_cons_self)⟩

theorem IsToken.last {s : Str} (h : IsToken s) : ∃ c ∈ s.getLast?, Go.isSolid c := by
  have hmem := List.getLast_mem h.1
  exact ⟨_, List.getLast?_eq_getLast_of_ne_nil h.1, isSolid_of_isTokenByte (h.2 _ hmem)⟩

/-! ### One parameter -/

variable {URL : Type} (env : Env URL)

theorem trimByte_of_notMem {c : UInt8} {s : Str} (h : c ∉ s) : trimByte c s = s := by
  have hdrop : s.dropWhile (· = c) = s := by
    rw [List.dropWhile_eq_self_iff]
    intro hs heq
    exact h (of_decide_eq_true heq ▸ List.getElem_mem hs)
  rw [trimByte, hdrop, List.rdropWhile_eq_self_iff]
  intro hs heq
  exact h (of_decide_eq_true heq ▸ List.getLast_mem hs)

/-- What is between two quotes is left when they are trimmed. -/
theorem trimByte_cons_concat {c : UInt8} {s : Str} (h : c ∉ s) :
    trimByte c (c :: (s ++ [c])) = s := by
  have hself := trimByte_of_notMem h
  rw [trimByte] at hself ⊢
  rw [List.dropWhile_cons_of_pos (by simp), List.dropWhile_append]
  split_ifs with hs
  · rw [List.isEmpty_iff.mp hs] at hself
    rw [List.dropWhile_cons_of_pos (by simp), ← hself]
    rfl
  · rw [List.rdropWhile_concat_pos _ _ _ (by simp), hself]

theorem trimByte_part (c : UInt8) (s : Str) : trimByte c s <:+: s :=
  (List.rdropWhile_prefix _ _).isInfix.trans (List.dropWhile_suffix _).isInfix

namespace AuthParam

variable (p : AuthParam)

theorem trimByte_printValue : trimByte 34 p.printValue = p.value := by
  have hvalue := p.value_ok
  rw [printValue]
  split_ifs at hvalue ⊢
  · exact trimByte_cons_concat hvalue
  · exact trimByte_of_notMem (hvalue.notMem (by decide))

/-- A value has no blanks at its ends, if the quotes are counted. -/
theorem ends_printValue : (∃ c ∈ p.printValue.head?, Go.isSolid c) ∧
    ∃ c ∈ p.printValue.getLast?, Go.isSolid c := by
  have hvalue := p.value_ok
  rw [printValue]
  split_ifs at hvalue ⊢
  · refine ⟨⟨34, rfl, by decide⟩, 34, ?_, by decide⟩
    rw [← List.cons_append, List.getLast?_concat]
    rfl
  · exact ⟨hvalue.head, hvalue.last⟩

end AuthParam

/-- A part of what is between two commas: the name and the value, if there is an equals sign. -/
def pairOf (pair : Str) : Option (Str × Str) :=
  match Go.splitTwo (env.text.trimSpace pair) (Go.str "=") with
  | [key, value] => some (env.text.trimSpace key, trimByte 34 (env.text.trimSpace value))
  | _ => none

/-- The loop assigns these, one after the other. -/
theorem parseAuthHeader_eq (header : Str) :
    parseAuthHeader env header = Go.assign ∅
      ((Go.split (Go.trimPrefix header (Go.str "Digest ")) (Go.str ",")).flatMap
        fun pair => (pairOf env pair).toList) := by
  rw [parseAuthHeader]
  refine Go.foldl_eq_assign (fun result pair => ?_) _ _
  rw [pairOf]
  generalize Go.splitTwo (env.text.trimSpace pair) (Go.str "=") = parts
  rcases parts with _ | ⟨key, _ | ⟨value, _ | _⟩⟩ <;> rfl

variable {env}

/-- **A parameter is read back.** -/
theorem pairOf_print (htext : env.text.Trims) (p : AuthParam) :
    pairOf env p.print = some (p.name, p.value) := by
  have hname : env.text.trimSpace p.name = p.name :=
    htext.trimSpace_solid p.isToken_name.head p.isToken_name.last
  have hequals : 61 ∉ p.name := p.isToken_name.notMem (by decide)
  have hprint : env.text.trimSpace p.print = p.print := by
    obtain ⟨c, hc, hsolid⟩ := p.isToken_name.head
    obtain ⟨d, hd, hsolid'⟩ := p.ends_printValue.2
    refine htext.trimSpace_solid ⟨c, ?_, hsolid⟩ ⟨d, ?_, hsolid'⟩
    · rw [AuthParam.print, List.head?_append, Option.mem_def.mp hc]
      rfl
    · rw [AuthParam.print, List.getLast?_append, List.getLast?_cons, Option.mem_def.mp hd]
      rfl
  have hvalue : trimByte 34 (env.text.trimSpace p.printValue) = p.value := by
    rw [htext.trimSpace_solid p.ends_printValue.1 p.ends_printValue.2, p.trimByte_printValue]
  rw [pairOf, hprint, AuthParam.print,
    show Go.splitTwo (p.name ++ 61 :: p.printValue) (Go.str "=") = [p.name, p.printValue] from
      Go.splitTwo_append_cons hequals]
  simp only [hname, hvalue]

/-! ### The whole challenge -/

/-- A comma and a blank between two strings are a comma, and a blank in front of the second. -/
theorem intercalate_comma_blank (s : Str) (strs : List Str) :
    List.intercalate (Go.str ", ") (s :: strs) =
      List.intercalate [44] (s :: strs.map (32 :: ·)) := by
  induction strs generalizing s with
  | nil => rfl
  | cons t strs ih =>
    have hfront : ∀ us : List Str,
        List.intercalate [44] ((32 :: t) :: us) = 32 :: List.intercalate [44] (t :: us) := by
      intro us
      cases us with
      | nil => rfl
      | cons u us => rw [List.intercalate_cons_cons, List.intercalate_cons_cons]; rfl
    rw [List.intercalate_cons_cons, ih, List.map_cons, List.intercalate_cons_cons, hfront,
      List.append_assoc, List.append_assoc]
    rfl

theorem comma_notMem_print {p : AuthParam} (h : 44 ∉ p.value) : 44 ∉ p.print := by
  have hname : 44 ∉ p.name := p.isToken_name.notMem (by decide)
  rw [AuthParam.print, AuthParam.printValue]
  split_ifs <;> simp [hname, h]

theorem pairOf_nil (htext : env.text.Trims) : pairOf env [] = none := by
  rw [pairOf, htext.trimSpace_nil]
  rfl

theorem pairOf_blank_cons (hends : env.text.TrimsEnds) (pair : Str) :
    pairOf env (32 :: pair) = pairOf env pair := by
  rw [pairOf, hends.trimSpace_blank_cons pair 32 (by decide), pairOf]

/-- What a challenge without commas in its values is cut into are its parameters. -/
theorem pairs_printChallenge (htext : env.text.Trims) (hends : env.text.TrimsEnds)
    {params : List AuthParam} (hcomma : ∀ p ∈ params, 44 ∉ p.value) :
    (Go.split (Go.trimPrefix (printChallenge params) (Go.str "Digest ")) (Go.str ",")).flatMap
        (fun pair => (pairOf env pair).toList) = params.map fun p => (p.name, p.value) := by
  rw [printChallenge, Go.trimPrefix_append]
  cases params with
  | nil =>
    change [[]].flatMap _ = []
    simp [pairOf_nil htext]
  | cons p params =>
    have hcuts : Go.split (List.intercalate (Go.str ", ") (p.print :: params.map AuthParam.print))
        (Go.str ",") = p.print :: (params.map AuthParam.print).map (32 :: ·) := by
      rw [intercalate_comma_blank]
      refine Go.split_intercalate (c := 44) ?_ (List.cons_ne_nil _ _)
      simpa using ⟨comma_notMem_print (hcomma p List.mem_cons_self),
        fun q hq => comma_notMem_print (hcomma q (List.mem_cons_of_mem _ hq))⟩
    rw [List.map_cons, hcuts, List.flatMap_cons, pairOf_print htext, List.flatMap_map,
      List.flatMap_map]
    simp [pairOf_blank_cons hends, pairOf_print htext, List.map_eq_flatMap]

/-- A value is a part of what it was found in. -/
theorem value_part_of_pairOf (hends : env.text.TrimsEnds) {pair key value : Str}
    (h : pairOf env pair = some (key, value)) : value <:+: pair := by
  rw [pairOf] at h
  split at h
  · next key' value' hsplit =>
    obtain ⟨-, rfl⟩ := Prod.mk.inj (Option.some.inj h)
    have hvalue : value' <:+: env.text.trimSpace pair := by
      rw [Go.splitTwo] at hsplit
      split at hsplit
      · simp at hsplit
      · simp only [List.cons.injEq, and_true] at hsplit
        rw [← hsplit.2]
        exact (List.drop_suffix _ _).isInfix
    exact (trimByte_part _ _).trans ((hends.trimSpace_part _).trans
      (hvalue.trans (hends.trimSpace_part _)))
  · contradiction

/-- **No value that is found has a comma**, whatever the challenge. -/
theorem comma_notMem_of_lookup (hends : env.text.TrimsEnds) {header key value : Str}
    (h : (parseAuthHeader env header).lookup key = some value) : 44 ∉ value := by
  rw [parseAuthHeader_eq, Go.lookup_assign, AList.lookup_empty, Option.or_none,
    Go.lastValue_eq_some_iff] at h
  obtain ⟨before, after, hpairs, -⟩ := h
  have hmem : (key, value) ∈ before ++ (key, value) :: after := by simp
  rw [← hpairs, List.mem_flatMap] at hmem
  obtain ⟨pair, hpair, hentry⟩ := hmem
  have hcomma : 44 ∉ pair := by
    rw [show Go.str "," = [44] from rfl, Go.split_singleton] at hpair
    intro hmem
    exact Go.not_of_mem_splitOnP hpair 44 hmem (by simp)
  exact fun hmem => hcomma
    ((value_part_of_pairOf hends (Option.mem_toList.mp hentry)).subset hmem)

/-- **A challenge is read as what it says** if and only if no value has a comma. Names are
distinct, and they and the values are any that a challenge can have. -/
theorem lookup_parseAuthHeader_iff (htext : env.text.Trims) (hends : env.text.TrimsEnds)
    {params : List AuthParam} (hnodup : (params.map AuthParam.name).Nodup) :
    (∀ key value, (parseAuthHeader env (printChallenge params)).lookup key = some value ↔
        ∃ p ∈ params, p.name = key ∧ p.value = value) ↔
      ∀ p ∈ params, 44 ∉ p.value := by
  constructor
  · intro h p hp
    exact comma_notMem_of_lookup hends ((h p.name p.value).mpr ⟨p, hp, rfl, rfl⟩)
  · intro hcomma key value
    have hkeys : ((params.map fun p => (p.name, p.value)).map Prod.fst).Nodup := by
      rwa [List.map_map]
    rw [parseAuthHeader_eq, pairs_printChallenge htext hends hcomma, Go.lookup_assign,
      AList.lookup_empty, Option.or_none, Go.lastValue_eq_some_iff_mem hkeys]
    simp

/-- A parameter with its value in quotes. -/
def AuthParam.quoted (name value : Str) (hname : IsToken name) (hvalue : 34 ∉ value) : AuthParam :=
  ⟨name, value, true, hname, by simpa using hvalue⟩

/-- A parameter whose value is a token. -/
def AuthParam.token (name value : Str) (hname : IsToken name) (hvalue : IsToken value) :
    AuthParam :=
  ⟨name, value, false, hname, by simpa using hvalue⟩

theorem isToken_realm : IsToken (Go.str "realm") := isToken_of_all (by decide) rfl

theorem isToken_nonce : IsToken (Go.str "nonce") := isToken_of_all (by decide) rfl

theorem isToken_algorithm : IsToken (Go.str "algorithm") := isToken_of_all (by decide) rfl

theorem isToken_md5 : IsToken (Go.str "MD5") := isToken_of_all (by decide) rfl

/-- A challenge with an equals sign and blanks in its values. -/
def plainChallenge : List AuthParam :=
  [.quoted (Go.str "realm") (Go.str " a = b ") isToken_realm (by decide),
    .quoted (Go.str "nonce") (Go.str "cafe==") isToken_nonce (by decide),
    .token (Go.str "algorithm") (Go.str "MD5") isToken_algorithm isToken_md5]

/-- The values keep them. -/
theorem lookup_parseAuthHeader_plain :
    (plainChallenge.map AuthParam.name).Nodup ∧
      ∀ key value,
        (parseAuthHeader (.answering 401 [] 0) (printChallenge plainChallenge)).lookup key =
            some value ↔
          ∃ p ∈ plainChallenge, p.name = key ∧ p.value = value := by
  have hnodup : (plainChallenge.map AuthParam.name).Nodup := by decide
  refine ⟨hnodup, ?_⟩
  exact (lookup_parseAuthHeader_iff Go.Text.trims_ascii Go.Text.trimsEnds_ascii hnodup).mpr
    (by decide)

/-- A challenge with a comma in a value. -/
def commaChallenge : List AuthParam :=
  [.quoted (Go.str "realm") (Go.str "a, b") isToken_realm (by decide),
    .quoted (Go.str "nonce") (Go.str "cafe") isToken_nonce (by decide)]

/-- The value is cut at the comma. -/
theorem lookup_parseAuthHeader_comma :
    (parseAuthHeader (.answering 401 [] 0) (printChallenge commaChallenge)).lookup
        (Go.str "realm") = some (Go.str "a") ∧
      ∃ p ∈ commaChallenge, p.name = Go.str "realm" ∧ p.value = Go.str "a, b" :=
  ⟨rfl, _, List.mem_cons_self, rfl, rfl⟩

end HTTPCollector

end HertzBeat
