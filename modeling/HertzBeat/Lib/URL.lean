import HertzBeat.Lib.Text

/-!
# URLs, and what is written into them

A URL is read from the left. The scheme ends at the first colon; the authority at the first slash,
question mark or number sign; user information stands before the last `@` of the authority, with the
name before its first colon; the path ends at a question mark or number sign, the query at a number
sign. What is between the separators is percent-decoded.

A program that writes strings between the separators relies on their being read back. They are not
if they have a separator in them that counts in their place, or a percent sign; and otherwise they
are. The two directions are put together in iffs: `Go.unescape_eq_self_iff` for an escape,
`Go.URL.parse_append_iff` for the credentials, `Go.URL.parseRest_path_iff` for a path and
`Go.URL.parseTail_param_iff` for the value of a parameter. That a string is *not* read back is seen
from its length in all of them: what is read is never longer than what was there to be read.
-/

namespace Go

/-! ### Escapes -/

/-- Percent-decoding, with `none` in the place of an error. In a query a plus stands for a blank. -/
def unescape (plus : Bool) : Str → Option Str
  | [] => some []
  | 37 :: a :: b :: s =>
    match hexDigit a, hexDigit b with
    | some x, some y => (unescape plus s).map ((16 * x + y) :: ·)
    | _, _ => none
  | 37 :: _ => none
  | 43 :: s => (unescape plus s).map ((if plus then 32 else 43) :: ·)
  | c :: s => (unescape plus s).map (c :: ·)

variable {plus : Bool} {s t d : Str}

theorem unescape_true (s : Str) : unescape true s = queryUnescape s := by
  fun_induction unescape true s <;> simp_all [queryUnescape]

theorem unescape_cons {c : UInt8} (h : c ≠ 37) (h' : c ≠ 43) (s : Str) :
    unescape plus (c :: s) = (unescape plus s).map (c :: ·) := by
  rw [unescape.eq_def]
  split <;> simp_all

/-- What can be decoded by itself is decoded by itself. -/
theorem unescape_append (h : unescape plus s = some d) (t : Str) :
    unescape plus (s ++ t) = (unescape plus t).map (d ++ ·) := by
  fun_induction unescape plus s generalizing d with
  | case1 =>
    cases h
    simp
  | case2 a b s x y hx hy ih =>
    obtain ⟨d, hd, rfl⟩ := Option.map_eq_some_iff.mp h
    simp [unescape, hx, hy, ih hd, Option.map_map, Function.comp_def]
  | case3 => cases h
  | case4 => cases h
  | case5 s ih =>
    obtain ⟨d, hd, rfl⟩ := Option.map_eq_some_iff.mp h
    simp [unescape, ih hd, Option.map_map, Function.comp_def]
  | case6 c s _ h37 h43 ih =>
    obtain ⟨d, hd, rfl⟩ := Option.map_eq_some_iff.mp h
    rw [List.cons_append, unescape_cons h37 h43, ih hd, Option.map_map]
    rfl

/-- An escape is longer than what it stands for. -/
theorem length_unescape (h : unescape plus s = some d) :
    d.length ≤ s.length ∧ (37 ∈ s → d.length < s.length) := by
  fun_induction unescape plus s generalizing d with
  | case1 =>
    cases h
    simp
  | case2 a b s x y hx hy ih =>
    obtain ⟨d, hd, rfl⟩ := Option.map_eq_some_iff.mp h
    have hlen := (ih hd).1
    simp only [List.length_cons]
    exact ⟨by omega, fun _ => by omega⟩
  | case3 => cases h
  | case4 => cases h
  | case5 s ih =>
    obtain ⟨d, hd, rfl⟩ := Option.map_eq_some_iff.mp h
    simpa using ih hd
  | case6 c s _ h37 _ ih =>
    obtain ⟨d, hd, rfl⟩ := Option.map_eq_some_iff.mp h
    have hne : ¬37 = c := fun h => h37 h.symm
    simpa [hne] using ih hd

/-- A plus that stands for a blank is not decoded to itself. -/
theorem notMem_of_unescape_true (h : unescape true s = some s) : 43 ∉ s := by
  fun_induction unescape true s with
  | case1 => simp
  | case2 a b s x y hx hy ih =>
    obtain ⟨d, hd, heq⟩ := Option.map_eq_some_iff.mp h
    have hlen := (length_unescape hd).1
    have hlen' := congrArg List.length heq
    simp only [List.length_cons] at hlen'
    omega
  | case3 => cases h
  | case4 => cases h
  | case5 s ih =>
    obtain ⟨d, -, heq⟩ := Option.map_eq_some_iff.mp h
    exact absurd (List.cons.inj heq).1 (by decide)
  | case6 c s _ _ h43 ih =>
    obtain ⟨d, hd, heq⟩ := Option.map_eq_some_iff.mp h
    have hs : d = s := (List.cons.inj heq).2
    have hne : ¬43 = c := fun h => h43 h.symm
    simpa [hne] using ih (hs ▸ hd)

theorem unescape_of_notMem (h37 : 37 ∉ s) (h43 : plus = true → 43 ∉ s) :
    unescape plus s = some s := by
  induction s with
  | nil => rfl
  | cons c s ih =>
    have hs : unescape plus s = some s :=
      ih (fun h => h37 (List.mem_cons_of_mem _ h)) fun h h' => h43 h (List.mem_cons_of_mem _ h')
    have hc : c ≠ 37 := fun h => h37 (h ▸ List.mem_cons_self)
    by_cases hplus : c = 43
    · subst hplus
      cases plus with
      | true => exact absurd List.mem_cons_self (h43 rfl)
      | false =>
        rw [unescape, hs]
        rfl
    · rw [unescape_cons hc hplus, hs, Option.map_some]

/-- **A string is decoded to itself** if there is nothing in it to decode. -/
theorem unescape_eq_self_iff : unescape plus s = some s ↔ 37 ∉ s ∧ (plus = true → 43 ∉ s) := by
  constructor
  · intro h
    refine ⟨fun hmem => ?_, fun hplus => ?_⟩
    · have hlt := (length_unescape h).2 hmem
      omega
    · subst hplus
      exact notMem_of_unescape_true h
  · rintro ⟨h37, h43⟩
    exact unescape_of_notMem h37 h43

/-! ### Cutting at a separator -/

/-- The string before and after the first of a byte. -/
def cut (sep : UInt8) : Str → Option (Str × Str)
  | [] => none
  | c :: s => if c = sep then some ([], s) else (cut sep s).map fun p => (c :: p.1, p.2)

/-- The string before and after the last of a byte. -/
def cutLast (sep : UInt8) (s : Str) : Option (Str × Str) :=
  (cut sep s.reverse).map fun p => (p.2.reverse, p.1.reverse)

theorem cut_eq_some_iff {sep : UInt8} {x y : Str} :
    cut sep s = some (x, y) ↔ s = x ++ sep :: y ∧ sep ∉ x := by
  induction s generalizing x with
  | nil => simp [cut]
  | cons c s ih =>
    rw [cut]
    split_ifs with hc
    · subst hc
      cases x with
      | nil => simp [eq_comm]
      | cons b x =>
        constructor
        · intro h
          cases h
        · rintro ⟨heq, hmem⟩
          exact absurd ((List.cons.inj heq).1 ▸ List.mem_cons_self) hmem
    · cases x with
      | nil =>
        constructor
        · intro h
          obtain ⟨p, -, hp⟩ := Option.map_eq_some_iff.mp h
          cases hp
        · rintro ⟨heq, -⟩
          exact absurd (List.cons.inj heq).1 hc
      | cons b x =>
        constructor
        · intro h
          obtain ⟨⟨x', y'⟩, hp, heq⟩ := Option.map_eq_some_iff.mp h
          cases heq
          obtain ⟨rfl, hmem⟩ := ih.mp hp
          exact ⟨rfl, by simp [Ne.symm hc, hmem]⟩
        · rintro ⟨heq, hmem⟩
          obtain ⟨rfl, rfl⟩ := List.cons.inj heq
          rw [ih.mpr ⟨rfl, fun h => hmem (List.mem_cons_of_mem _ h)⟩, Option.map_some]

theorem cutLast_eq_some_iff {sep : UInt8} {x y : Str} :
    cutLast sep s = some (x, y) ↔ s = x ++ sep :: y ∧ sep ∉ y := by
  have hrev : s.reverse = y.reverse ++ sep :: x.reverse ↔ s = x ++ sep :: y := by
    rw [← List.reverse_inj, List.reverse_reverse]
    simp
  rw [← hrev, cutLast, Option.map_eq_some_iff]
  constructor
  · rintro ⟨⟨a, b⟩, hcut, heq⟩
    cases heq
    simpa using cut_eq_some_iff.mp hcut
  · rintro ⟨heq, hmem⟩
    exact ⟨(y.reverse, x.reverse), cut_eq_some_iff.mpr ⟨heq, by simpa using hmem⟩, by simp⟩

theorem length_takeWhile_lt {p : UInt8 → Bool} {c : UInt8} (hc : c ∈ s) (hp : ¬p c) :
    (s.takeWhile p).length < s.length := by
  refine lt_of_le_of_ne (List.takeWhile_prefix p).length_le fun hlen => hp ?_
  have heq := (List.takeWhile_prefix p).eq_of_length hlen
  rw [← heq] at hc
  exact List.mem_takeWhile_imp hc

/-! ### Parsing -/

/-- What a URL says. -/
structure URL where
  scheme : Str
  /-- The name of the user, and the password if there is one. -/
  user : Option (Str × Option Str)
  host : Str
  port : Option Str
  path : Str
  /-- The parameters, in their order. -/
  query : List (Str × Str)
  deriving DecidableEq

namespace URL

/-- The authority ends at a slash, question mark or number sign. -/
def endsAuthority (c : UInt8) : Bool := c = 47 ∨ c = 63 ∨ c = 35

/-- The path ends at a question mark or number sign. -/
def endsPath (c : UInt8) : Bool := c = 63 ∨ c = 35

/-- The user information: a name, and a password after the first colon. -/
def parseUser (s : Str) : Option (Str × Option Str) :=
  match cut 58 s with
  | some (name, password) => (unescape false name).bind fun name =>
      (unescape false password).map fun password => (name, some password)
  | none => (unescape false s).map fun name => (name, none)

/-- The host, and a port after the last colon. -/
def parseHost (s : Str) : Str × Option Str :=
  match cutLast 58 s with
  | some (host, port) => (host, some port)
  | none => (s, none)

/-- The authority, with user information before the last `@`. -/
def parseAuthority (s : Str) : Option (Option (Str × Option Str) × Str × Option Str) :=
  match cutLast 64 s with
  | some (user, host) => (parseUser user).map fun user => (some user, parseHost host)
  | none => some (none, parseHost s)

/-- A parameter: a name, and a value after the first equals sign. -/
def parseParam (plus : Bool) (s : Str) : Option (Str × Str) :=
  match cut 61 s with
  | some (key, value) => (unescape plus value).map fun value => (key, value)
  | none => some (s, [])

/-- The parameters of a query, with an ampersand between them. -/
def parseQuery (plus : Bool) (s : Str) : Option (List (Str × Str)) :=
  if s = [] then some [] else (s.splitOnP (· = 38)).mapM (parseParam plus)

/-- What comes after the path: the query, up to the fragment. -/
def parseTail (plus : Bool) : Str → Option (List (Str × Str))
  | 63 :: query => parseQuery plus (query.takeWhile (· ≠ 35))
  | _ => some []

/-- The path and the query. -/
def parseRest (plus : Bool) (s : Str) : Option (Str × List (Str × Str)) :=
  (unescape false (s.takeWhile (!endsPath ·))).bind fun path =>
    (parseTail plus (s.dropWhile (!endsPath ·))).map fun query => (path, query)

/-- **A URL** that begins with a scheme and has an authority. -/
def parse (plus : Bool) (s : Str) : Option URL :=
  match cut 58 s with
  | some (scheme, 47 :: 47 :: s) =>
    (parseAuthority (s.takeWhile (!endsAuthority ·))).bind fun (user, host, port) =>
      (parseRest plus (s.dropWhile (!endsAuthority ·))).map fun (path, query) =>
        { scheme, user, host, port, path, query }
  | _ => none

example : parse true (str "ftp://me:a@b@example.org:21/pub?type=x+y#top") =
    some ⟨str "ftp", some (str "me", some (str "a@b")), str "example.org", some (str "21"),
      str "/pub", [(str "type", str "x y")]⟩ := by
  decide +kernel

/-! ### Reading back the credentials -/

section Authority

variable {name password host port rest path : Str} {query : List (Str × Str)}

/-- The user information that is read comes from a cut. -/
theorem exists_of_parseUser (h : parseUser s = some (name, some password)) :
    ∃ x y, s = x ++ 58 :: y ∧ 58 ∉ x ∧ unescape false x = some name ∧
      unescape false y = some password := by
  rw [parseUser] at h
  cases hcut : cut 58 s with
  | none =>
    rw [hcut] at h
    obtain ⟨d, -, heq⟩ := Option.map_eq_some_iff.mp h
    cases heq
  | some p =>
    obtain ⟨heq, hmem⟩ := cut_eq_some_iff.mp hcut
    rw [hcut] at h
    obtain ⟨d, hd, h⟩ := Option.bind_eq_some_iff.mp h
    obtain ⟨d', hd', h⟩ := Option.map_eq_some_iff.mp h
    cases h
    exact ⟨p.1, p.2, heq, hmem, hd, hd'⟩

theorem length_parseUser (h : parseUser s = some (name, some password)) :
    name.length + password.length < s.length := by
  obtain ⟨x, y, rfl, -, hx, hy⟩ := exists_of_parseUser h
  have hx' := (length_unescape hx).1
  have hy' := (length_unescape hy).1
  simp only [List.length_append, List.length_cons]
  omega

theorem parseUser_eq_iff :
    parseUser (name ++ 58 :: password) = some (name, some password) ↔
      58 ∉ name ∧ 37 ∉ name ∧ 37 ∉ password := by
  constructor
  · intro h
    obtain ⟨x, y, heq, hmem, hx, hy⟩ := exists_of_parseUser h
    have hlen := congrArg List.length heq
    have hx' := (length_unescape hx).1
    have hy' := (length_unescape hy).1
    simp only [List.length_append, List.length_cons] at hlen
    -- the two cuts are at the same place
    obtain ⟨rfl, hcons⟩ := List.append_inj heq (by omega)
    obtain rfl := (List.cons.inj hcons).2
    exact ⟨hmem, (unescape_eq_self_iff.mp hx).1, (unescape_eq_self_iff.mp hy).1⟩
  · rintro ⟨h58, hname, hpassword⟩
    rw [parseUser, cut_eq_some_iff.mpr ⟨rfl, h58⟩]
    have hx : unescape false name = some name := unescape_eq_self_iff.mpr ⟨hname, by simp⟩
    have hy : unescape false password = some password :=
      unescape_eq_self_iff.mpr ⟨hpassword, by simp⟩
    simp [hx, hy]

theorem length_parseAuthority {address : Str × Option Str}
    (h : parseAuthority s = some (some (name, some password), address)) :
    name.length + password.length < s.length := by
  rw [parseAuthority] at h
  cases hcut : cutLast 64 s with
  | none =>
    rw [hcut] at h
    cases h
  | some p =>
    obtain ⟨rfl, -⟩ := cutLast_eq_some_iff.mp hcut
    rw [hcut] at h
    obtain ⟨user, huser, heq⟩ := Option.map_eq_some_iff.mp h
    cases heq
    have hlt := length_parseUser huser
    simp only [List.length_append, List.length_cons]
    omega

/-- A host and a port behind an `@`. -/
theorem parseAuthority_append (hhost : 64 ∉ host) (hport : 64 ∉ port) (hport' : 58 ∉ port) :
    parseAuthority (s ++ 64 :: (host ++ 58 :: port)) =
      (parseUser s).map fun user => (some user, host, some port) := by
  have haddress : parseHost (host ++ 58 :: port) = (host, some port) := by
    rw [parseHost, cutLast_eq_some_iff.mpr ⟨rfl, hport'⟩]
  have hat : 64 ∉ host ++ 58 :: port := by simp [hhost, hport]
  rw [parseAuthority, cutLast_eq_some_iff.mpr ⟨rfl, hat⟩]
  simp only [haddress]

/-- The authority and what is behind it are read separately. -/
theorem parse_eq_some_iff {scheme : Str} (hscheme : 58 ∉ scheme) {user : Option (Str × Option Str)}
    {port : Option Str} :
    parse plus (scheme ++ 58 :: 47 :: 47 :: s) = some ⟨scheme, user, host, port, path, query⟩ ↔
      parseAuthority (s.takeWhile (!endsAuthority ·)) = some (user, host, port) ∧
        parseRest plus (s.dropWhile (!endsAuthority ·)) = some (path, query) := by
  have hparse : parse plus (scheme ++ 58 :: 47 :: 47 :: s) =
      (parseAuthority (s.takeWhile (!endsAuthority ·))).bind fun p =>
        (parseRest plus (s.dropWhile (!endsAuthority ·))).map fun q =>
          ⟨scheme, p.1, p.2.1, p.2.2, q.1, q.2⟩ := by
    rw [parse, cut_eq_some_iff.mpr ⟨rfl, hscheme⟩]
    rfl
  rw [hparse]
  constructor
  · intro h
    obtain ⟨p, hp, h⟩ := Option.bind_eq_some_iff.mp h
    obtain ⟨q, hq, h⟩ := Option.map_eq_some_iff.mp h
    cases h
    exact ⟨hp, hq⟩
  · rintro ⟨hp, hq⟩
    rw [hp, hq]
    rfl

/-- Credentials before an `@` are read back if they are all of the authority before it. -/
theorem parseAuthority_eq_iff (hhost : 64 ∉ host) (hport : 64 ∉ port) (hport' : 58 ∉ port) :
    parseAuthority (name ++ 58 :: password ++ 64 :: (host ++ 58 :: port)) =
        some (some (name, some password), host, some port) ↔
      58 ∉ name ∧ 37 ∉ name ∧ 37 ∉ password := by
  rw [parseAuthority_append hhost hport hport', ← parseUser_eq_iff, Option.map_eq_some_iff]
  constructor
  · rintro ⟨user, huser, heq⟩
    cases heq
    exact huser
  · intro huser
    exact ⟨_, huser, rfl⟩

/-- If a byte of the credentials ends the authority, it is too short for them. -/
theorem parseAuthority_ne_of_endsAuthority {c : UInt8} (hc : c ∈ name ++ 58 :: password)
    (hends : endsAuthority c) (s : Str) {address : Str × Option Str} :
    parseAuthority ((name ++ 58 :: password ++ s).takeWhile (!endsAuthority ·)) ≠
      some (some (name, some password), address) := by
  intro hauthority
  have hshort := @length_takeWhile_lt _ (!endsAuthority ·) c hc (by simp [hends])
  rw [List.takeWhile_append, if_neg hshort.ne] at hauthority
  have hlt := length_parseAuthority hauthority
  simp only [List.length_append, List.length_cons] at hshort
  omega

/-- **Credentials are read back** exactly if no byte of them ends the authority, the name has no
colon, and there is nothing in them to decode. -/
theorem parse_append_iff {scheme : Str} (hscheme : 58 ∉ scheme)
    (hhost : ∀ c ∈ host, !endsAuthority c ∧ c ≠ 64)
    (hport : ∀ c ∈ port, !endsAuthority c ∧ c ≠ 64 ∧ c ≠ 58)
    (hrest : rest.takeWhile (!endsAuthority ·) = []) :
    parse plus (scheme ++ 58 :: 47 :: 47 ::
        (name ++ 58 :: password ++ 64 :: (host ++ 58 :: port) ++ rest)) =
      some ⟨scheme, some (name, some password), host, some port, path, query⟩ ↔
    (∀ c ∈ name, !endsAuthority c ∧ c ≠ 58 ∧ c ≠ 37) ∧
      (∀ c ∈ password, !endsAuthority c ∧ c ≠ 37) ∧ parseRest plus rest = some (path, query) := by
  rw [parse_eq_some_iff hscheme]
  by_cases hclear : ∀ c ∈ name ++ 58 :: password, !endsAuthority c
  · -- the authority is what it is meant to be
    have hauthority : ∀ c ∈ name ++ 58 :: password ++ 64 :: (host ++ 58 :: port),
        !endsAuthority c := by
      intro c hc
      simp only [List.mem_append, List.mem_cons] at hc
      rcases hc with (hc | rfl | hc) | rfl | hc | rfl | hc
      · exact hclear c (List.mem_append_left _ hc)
      · rfl
      · exact hclear c (List.mem_append_right _ (List.mem_cons_of_mem _ hc))
      · rfl
      · exact (hhost c hc).1
      · rfl
      · exact (hport c hc).1
    have hdrop : rest.dropWhile (!endsAuthority ·) = rest :=
      List.dropWhile_eq_self_iff.mpr (List.takeWhile_eq_nil_iff.mp hrest)
    rw [List.takeWhile_append_of_pos hauthority, List.dropWhile_append_of_pos hauthority, hrest,
      hdrop, List.append_nil, parseAuthority_eq_iff (fun h => (hhost _ h).2 rfl)
      (fun h => (hport _ h).2.1 rfl) fun h => (hport _ h).2.2 rfl]
    constructor
    · rintro ⟨⟨h58, hname, hpassword⟩, hquery⟩
      refine ⟨fun c hc => ⟨hclear c (List.mem_append_left _ hc), ?_, ?_⟩, fun c hc =>
        ⟨hclear c (List.mem_append_right _ (List.mem_cons_of_mem _ hc)), ?_⟩, hquery⟩
      · exact fun h => h58 (h ▸ hc)
      · exact fun h => hname (h ▸ hc)
      · exact fun h => hpassword (h ▸ hc)
    · rintro ⟨hname, hpassword, hquery⟩
      exact ⟨⟨fun h => (hname _ h).2.1 rfl, fun h => (hname _ h).2.2 rfl,
        fun h => (hpassword _ h).2 rfl⟩, hquery⟩
  · -- it ends too early
    obtain ⟨c, hc, hends⟩ : ∃ c ∈ name ++ 58 :: password, endsAuthority c := by
      simpa using hclear
    rw [List.append_assoc]
    refine iff_of_false (fun h => parseAuthority_ne_of_endsAuthority hc hends _ h.1) ?_
    rintro ⟨hname, hpassword, -⟩
    simp only [List.mem_append, List.mem_cons] at hc
    rcases hc with hc | rfl | hc
    · simpa [hends] using (hname c hc).1
    · exact absurd hends (by decide)
    · simpa [hends] using (hpassword c hc).1

end Authority

/-! ### Reading back a path and a parameter -/

section Rest

variable {path tail key value more : Str} {query params : List (Str × Str)}

theorem parseRest_eq_some_iff :
    parseRest plus s = some (path, query) ↔
      unescape false (s.takeWhile (!endsPath ·)) = some path ∧
        parseTail plus (s.dropWhile (!endsPath ·)) = some query := by
  rw [parseRest]
  constructor
  · intro h
    obtain ⟨d, hd, h⟩ := Option.bind_eq_some_iff.mp h
    obtain ⟨q, hq, h⟩ := Option.map_eq_some_iff.mp h
    cases h
    exact ⟨hd, hq⟩
  · rintro ⟨hd, hq⟩
    rw [hd, hq]
    rfl

/-- **A path is read back** exactly if no byte of it ends the path and there is nothing in it to
decode. -/
theorem parseRest_path_iff (htail : tail.takeWhile (!endsPath ·) = []) :
    parseRest plus (path ++ tail) = some (path, query) ↔
      (∀ c ∈ path, !endsPath c ∧ c ≠ 37) ∧ parseTail plus tail = some query := by
  rw [parseRest_eq_some_iff]
  by_cases hclear : ∀ c ∈ path, !endsPath c
  · have hdrop : tail.dropWhile (!endsPath ·) = tail :=
      List.dropWhile_eq_self_iff.mpr (List.takeWhile_eq_nil_iff.mp htail)
    rw [List.takeWhile_append_of_pos hclear, List.dropWhile_append_of_pos hclear, htail, hdrop,
      List.append_nil, unescape_eq_self_iff]
    refine and_congr_left fun _ => ⟨fun h c hc => ⟨hclear c hc, ?_⟩, fun h => ⟨?_, by simp⟩⟩
    · exact fun heq => h.1 (heq ▸ hc)
    · exact fun hmem => (h _ hmem).2 rfl
  · obtain ⟨c, hc, hends⟩ : ∃ c ∈ path, endsPath c := by simpa using hclear
    have hshort := @length_takeWhile_lt _ (!endsPath ·) c hc (by simp [hends])
    refine iff_of_false (fun h => ?_) fun h => ?_
    · rw [List.takeWhile_append, if_neg hshort.ne] at h
      have hlen := (length_unescape h.1).1
      omega
    · simpa [hends] using (h.1 c hc).1

/-- The first parameter ends at the first ampersand. -/
theorem splitOnP_eq_takeWhile_cons (s : Str) :
    ∃ params, s.splitOnP (· = 38) = s.takeWhile (· ≠ 38) :: params := by
  induction s with
  | nil => exact ⟨[], rfl⟩
  | cons c s ih =>
    obtain ⟨params, hs⟩ := ih
    rw [List.splitOnP_cons_eq_if_modifyHead]
    by_cases hc : c = 38
    · exact ⟨s.splitOnP (· = 38), by simp [hc]⟩
    · exact ⟨params, by simp [hc, hs]⟩

theorem parseParam_append (hkey : 61 ∉ key) :
    parseParam plus (key ++ 61 :: s) = (unescape plus s).map fun value => (key, value) := by
  rw [parseParam, cut_eq_some_iff.mpr ⟨rfl, hkey⟩]

/-- The value of the first parameter is not longer than what is there up to an ampersand. -/
theorem length_parseQuery (hkey : ∀ c ∈ key, c ≠ 61 ∧ c ≠ 38)
    (h : parseQuery plus (key ++ 61 :: s) = some ((key, value) :: params)) :
    value.length ≤ (s.takeWhile (· ≠ 38)).length := by
  obtain ⟨rest, hsplit⟩ := splitOnP_eq_takeWhile_cons (key ++ 61 :: s)
  have hhead : (key ++ 61 :: s).takeWhile (· ≠ 38) = key ++ 61 :: s.takeWhile (· ≠ 38) := by
    rw [List.takeWhile_append_of_pos fun c hc => by simpa using (hkey c hc).2]
    rfl
  rw [parseQuery, if_neg (by simp), hsplit, hhead, List.mapM_cons,
    parseParam_append fun h => (hkey _ h).1 rfl] at h
  obtain ⟨p, hp, h⟩ := Option.bind_eq_some_iff.mp h
  obtain ⟨ps, -, h⟩ := Option.bind_eq_some_iff.mp h
  obtain ⟨d, hd, rfl⟩ := Option.map_eq_some_iff.mp hp
  cases h
  exact (length_unescape hd).1

/-- The first parameter of a query is read by itself, if there is no ampersand in it. -/
theorem parseQuery_cons_iff (hkey : ∀ c ∈ key, c ≠ 61 ∧ c ≠ 38) (hvalue : 38 ∉ value)
    (hne : more ≠ []) :
    parseQuery plus (key ++ 61 :: (value ++ 38 :: more)) = some ((key, d) :: params) ↔
      unescape plus value = some d ∧ parseQuery plus more = some params := by
  have hparam : ∀ c ∈ key ++ 61 :: value, decide (c = 38) = false := by
    intro c hc
    rcases List.mem_append.mp hc with hc | hc
    · simpa using (hkey c hc).2
    · rcases List.mem_cons.mp hc with rfl | hc
      · decide
      · simpa using fun h : c = 38 => hvalue (h ▸ hc)
  have hsplit : (key ++ 61 :: (value ++ 38 :: more)).splitOnP (· = 38) =
      (key ++ 61 :: value) :: more.splitOnP (· = 38) := by
    have happend := List.splitOnP_append_cons_of_forall_mem hparam 38 (by decide) more
    rwa [List.append_assoc, List.cons_append] at happend
  rw [parseQuery, if_neg (by simp), hsplit, List.mapM_cons,
    parseParam_append fun h => (hkey _ h).1 rfl, parseQuery, if_neg hne]
  constructor
  · intro h
    obtain ⟨p, hp, h⟩ := Option.bind_eq_some_iff.mp h
    obtain ⟨ps, hps, h⟩ := Option.bind_eq_some_iff.mp h
    obtain ⟨d, hd, rfl⟩ := Option.map_eq_some_iff.mp hp
    cases h
    exact ⟨hd, hps⟩
  · rintro ⟨hd, hps⟩
    rw [hd, hps]
    rfl

/-- In a query the value of the first parameter is read back exactly if it has no ampersand in it,
and there is nothing in it to decode. -/
theorem parseQuery_param_iff (hkey : ∀ c ∈ key, c ≠ 61 ∧ c ≠ 38) (hne : more ≠ []) :
    parseQuery plus (key ++ 61 :: (value ++ 38 :: more)) = some ((key, value) :: params) ↔
      (38 ∉ value ∧ 37 ∉ value ∧ (plus = true → 43 ∉ value)) ∧
        parseQuery plus more = some params := by
  by_cases hamp : 38 ∈ value
  · -- the parameter ends within the value
    have hshort := @length_takeWhile_lt _ (· ≠ 38) 38 hamp (by simp)
    refine iff_of_false (fun h => ?_) fun h => h.1.1 hamp
    have hlen := length_parseQuery hkey h
    rw [List.takeWhile_append, if_neg hshort.ne] at hlen
    omega
  · rw [parseQuery_cons_iff hkey hamp hne, unescape_eq_self_iff, and_iff_right hamp]

/-- **The value of a parameter is read back** exactly if it has no ampersand and no number sign in
it, and there is nothing in it to decode. -/
theorem parseTail_param_iff (hkey : ∀ c ∈ key, c ≠ 61 ∧ c ≠ 38 ∧ c ≠ 35) (hmore : 35 ∉ more)
    (hne : more ≠ []) :
    parseTail plus (63 :: (key ++ 61 :: value ++ 38 :: more)) = some ((key, value) :: params) ↔
      (∀ c ∈ value, c ≠ 38 ∧ c ≠ 35 ∧ c ≠ 37 ∧ (plus = true → c ≠ 43)) ∧
        parseQuery plus more = some params := by
  have hkey' : ∀ c ∈ key, c ≠ 61 ∧ c ≠ 38 := fun c hc => ⟨(hkey c hc).1, (hkey c hc).2.1⟩
  have hquery : parseTail plus (63 :: (key ++ 61 :: value ++ 38 :: more)) =
      parseQuery plus ((key ++ 61 :: value ++ 38 :: more).takeWhile (· ≠ 35)) := rfl
  rw [hquery, List.append_assoc, List.takeWhile_append_of_pos fun c hc => by
    simpa using (hkey c hc).2.2, List.cons_append, List.takeWhile_cons_of_pos (by decide)]
  by_cases hsharp : 35 ∈ value
  · -- the query ends within the value
    have hshort := @length_takeWhile_lt _ (· ≠ 35) 35 hsharp (by simp)
    rw [List.takeWhile_append, if_neg hshort.ne]
    refine iff_of_false (fun h => ?_) fun h => (h.1 _ hsharp).2.1 rfl
    have hlen := length_parseQuery hkey' h
    have hlen' := (@List.takeWhile_prefix _ (value.takeWhile (· ≠ 35)) (· ≠ 38)).length_le
    omega
  · have hclear : ∀ c ∈ value ++ 38 :: more, decide (c ≠ 35) = true := by
      intro c hc
      simp only [List.mem_append, List.mem_cons] at hc
      rcases hc with hc | rfl | hc
      · simpa using fun h : c = 35 => hsharp (h ▸ hc)
      · decide
      · simpa using fun h : c = 35 => hmore (h ▸ hc)
    rw [List.takeWhile_eq_self_iff.mpr hclear, parseQuery_param_iff hkey' hne]
    refine and_congr_left fun _ => ⟨?_, fun h => ⟨?_, ?_, fun hplus => ?_⟩⟩
    · rintro ⟨h38, h37, h43⟩ c hc
      exact ⟨fun h => h38 (h ▸ hc), fun h => hsharp (h ▸ hc), fun h => h37 (h ▸ hc),
        fun hplus h => h43 hplus (h ▸ hc)⟩
    · exact fun hmem => (h _ hmem).1 rfl
    · exact fun hmem => (h _ hmem).2.2.1 rfl
    · exact fun hmem => (h _ hmem).2.2.2 hplus rfl

end Rest

end URL

end Go
