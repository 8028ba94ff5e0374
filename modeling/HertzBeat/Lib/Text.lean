import HertzBeat.Lib.Value
import Mathlib.Data.List.DropRight

/-!
# Taking text apart

The functions of the source's string library that the collectors read their targets'
answers with. What depends on the bytes of a string alone is defined here. What depends on
the tables of Unicode – letter case and white space – is a parameter, `Go.Text`;
`Go.Text.ascii` is the instance that knows the letters and the blanks of ASCII.
-/

namespace Go

/-! ### Prefixes, occurrences, parts -/

/-- `strings.HasPrefix`. -/
def hasPrefix (s pre : Str) : Bool := pre.isPrefixOf s

/-- `strings.HasSuffix`. -/
def hasSuffix (s suf : Str) : Bool := suf.isSuffixOf s

/-- `strings.TrimPrefix`. -/
def trimPrefix (s pre : Str) : Str := if hasPrefix s pre then s.drop pre.length else s

/-- `strings.Index`, with `none` in the place of `-1`. -/
def index (sub : Str) : Str → Option ℕ
  | [] => if sub = [] then some 0 else none
  | c :: s => if hasPrefix (c :: s) sub then some 0 else (index sub s).map (· + 1)

/-- The rest of a split, when the next `k` bytes belong to a separator. -/
def splitFrom (sep : Str) : ℕ → Str → List Str
  | _, [] => [[]]
  | k + 1, _ :: s => splitFrom sep k s
  | 0, c :: s =>
    if hasPrefix (c :: s) sep then [] :: splitFrom sep (sep.length - 1) s
    else (splitFrom sep 0 s).modifyHead (c :: ·)

/-- `strings.Split`, for a separator that is not empty. -/
def split (s sep : Str) : List Str := splitFrom sep 0 s

/-- `strings.SplitN` into two parts. -/
def splitTwo (s sep : Str) : List Str :=
  match index sep s with
  | none => [s]
  | some i => [s.take i, s.drop (i + sep.length)]

/-- The rest of a count, when the next `k` bytes belong to an occurrence. -/
def countFrom (sub : Str) : ℕ → Str → ℕ
  | _, [] => 0
  | k + 1, _ :: s => countFrom sub k s
  | 0, c :: s =>
    if hasPrefix (c :: s) sub then countFrom sub (sub.length - 1) s + 1 else countFrom sub 0 s

/-- `strings.Count`, for a string to be counted that is not empty. -/
def count (s sub : Str) : ℕ := countFrom sub 0 s

example : split (str "a,b,,c") (str ",") = [str "a", str "b", [], str "c"] := by decide +kernel

example : count (str "aaaa") (str "aa") = 2 := by decide +kernel

/-! ### Numbers and truth values -/

/-- The value of a string of decimal digits. -/
def digitsValue (s : Str) : Option ℕ :=
  if s = [] then none
  else s.foldl (fun n c => n.bind fun n =>
    if 48 ≤ c ∧ c ≤ 57 then some (10 * n + (c.toNat - 48)) else none) (some 0)

/-- `strconv.Atoi`, with `none` in the place of an error. -/
def atoi (s : Str) : Option ℤ :=
  let value : Option ℤ :=
    match s with
    | 45 :: digits => (digitsValue digits).map fun n => -(n : ℤ)
    | 43 :: digits => (digitsValue digits).map fun n => (n : ℤ)
    | digits => (digitsValue digits).map fun n => (n : ℤ)
  value.filter fun n => -2 ^ 63 ≤ n ∧ n < 2 ^ 63

example : atoi (str "-12") = some (-12) := by decide +kernel

/-- `strconv.ParseBool`, with `none` in the place of an error. -/
def parseBool (s : Str) : Option Bool :=
  if s ∈ [str "1", str "t", str "T", str "TRUE", str "true", str "True"] then some true
  else if s ∈ [str "0", str "f", str "F", str "FALSE", str "false", str "False"] then some false
  else none

/-- A timeout that is written as a duration, or else as a number of milliseconds. One that is
neither, or is empty, is the given one. `time.ParseDuration` is a parameter. -/
def parseTimeout (parseDuration : Str → Option ℤ) (default : ℤ) (s : Str) : ℤ :=
  if s = [] then default
  else (parseDuration s <|> (atoi s).map fun n => wrap64 (n * millisecond)).getD default

/-! ### Addresses -/

/-- `net.JoinHostPort`: a host with a colon in it is put in brackets. -/
def joinHostPort (host port : Str) : Str :=
  if 58 ∈ host then str "[" ++ host ++ str "]:" ++ port else host ++ str ":" ++ port

/-- The value of a hexadecimal digit. -/
def hexDigit (c : UInt8) : Option UInt8 :=
  if 48 ≤ c ∧ c ≤ 57 then some (c - 48)
  else if 97 ≤ c ∧ c ≤ 102 then some (c - 87)
  else if 65 ≤ c ∧ c ≤ 70 then some (c - 55)
  else none

/-- `url.QueryUnescape`, with `none` in the place of an error. -/
def queryUnescape : Str → Option Str
  | [] => some []
  | 37 :: a :: b :: s =>
    match hexDigit a, hexDigit b with
    | some x, some y => (queryUnescape s).map ((16 * x + y) :: ·)
    | _, _ => none
  | 37 :: _ => none
  | 43 :: s => (queryUnescape s).map (32 :: ·)
  | c :: s => (queryUnescape s).map (c :: ·)

example : queryUnescape (str "a+%41%7a") = some (str "a Az") := by decide +kernel

/-! ### Letters and white space -/

/-- The functions of the string library that look characters up in the tables of Unicode. -/
structure Text where
  /-- `strings.ToLower`. -/
  toLower : Str → Str
  /-- `strings.ToUpper`. -/
  toUpper : Str → Str
  /-- `strings.EqualFold`. -/
  equalFold : Str → Str → Bool
  /-- `strings.TrimSpace`. -/
  trimSpace : Str → Str
  /-- `strings.Fields`. -/
  fields : Str → List Str

/-- A blank of ASCII: tab, the four line breaks, or space. -/
def isBlank (c : UInt8) : Bool := (9 ≤ c && c ≤ 13) || c = 32

/-- The small letter of a capital one. -/
def lowerByte (c : UInt8) : UInt8 := if 65 ≤ c ∧ c ≤ 90 then c + 32 else c

/-- The capital letter of a small one. -/
def upperByte (c : UInt8) : UInt8 := if 97 ≤ c ∧ c ≤ 122 then c - 32 else c

/-- The string functions for strings of ASCII. -/
def Text.ascii : Text where
  toLower := List.map lowerByte
  toUpper := List.map upperByte
  equalFold := fun s t => s.map lowerByte = t.map lowerByte
  trimSpace := fun s => (s.dropWhile isBlank).rdropWhile isBlank
  fields := fun s => (s.splitOnP isBlank).filter (· ≠ [])

/-- **Letters are made small one by one**: what is found of ASCII in the small letters of a string
comes from a part of the string, and a percent sign or a plus stays. -/
structure Text.LowersLocally (text : Text) : Prop where
  infix_iff : ∀ s w : Str, (∀ c ∈ w, c < 128) →
    (w <:+: text.toLower s ↔ ∃ v, v <:+: s ∧ text.toLower v = w)
  keeps : ∀ s : Str, ∀ c ∈ [37, 43], c ∈ s → c ∈ text.toLower s

theorem Text.lowersLocally_ascii : Text.ascii.LowersLocally where
  infix_iff := by
    intro s w _
    constructor
    · rintro ⟨x, y, heq⟩
      obtain ⟨l, r, rfl, hl, rfl⟩ := List.map_eq_append_iff.mp heq.symm
      obtain ⟨a, v, rfl, rfl, rfl⟩ := List.map_eq_append_iff.mp hl
      exact ⟨v, ⟨a, r, rfl⟩, rfl⟩
    · rintro ⟨v, ⟨x, y, rfl⟩, rfl⟩
      exact ⟨x.map lowerByte, y.map lowerByte, by simp [ascii]⟩
  keeps := by
    intro s c hc hmem
    have hlower : lowerByte c = c := by
      rcases List.mem_cons.mp hc with rfl | hc
      · decide
      · rw [List.mem_singleton.mp hc]
        decide
    exact List.mem_map.mpr ⟨c, hmem, hlower⟩

end Go
