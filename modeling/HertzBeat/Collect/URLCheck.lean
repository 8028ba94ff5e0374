import HertzBeat.Collect.JDBCCollector
import HertzBeat.Lib.URL

/-!
# The check of a URL

`validateURL` is to keep dangerous keywords out of a URL, also out of what it says once its escapes
are decoded, over and over. It decodes the URL up to five times and then checks the outcome alone.
If a decoding fails, it checks the URL as it was at first.

An occurrence of a keyword has no escape in it, so that a decoding leaves it as it is; unless an
escape before it takes its first letters away, as `%a` does with `dbms_java`. So all that is decoded
on the way is free of keywords if the last of it is, and none is cut. The last is what is checked as
long as no decoding fails. `HertzBeat.JDBCCollector.validateURL_free_iff` says that this is all
there is to it: what gets past the check are keywords that are cut, and keywords that come out
before a decoding fails.
-/

namespace HertzBeat

open Go (Str)

namespace JDBCCollector

/-- The keywords that no URL may have. -/
def keywords : List Str := blackList ++ [Go.str "jndi:", Go.str "ldap:", Go.str "rmi:"]

/-- The URL decoded so many times; `none` when one fails. -/
def decodeTimes : ℕ → Str → Option Str
  | 0, s => some s
  | n + 1, s => (Go.queryUnescape s).bind (decodeTimes n)

/-- The last version of the URL that could be decoded, in at most so many times. It is the string
that `recursiveDecode` returns, with an error or without. -/
def lastDecoded : ℕ → Str → Str
  | 0, s => s
  | n + 1, s => ((Go.queryUnescape s).map (lastDecoded n)).getD s

section

variable {env : Env} {n k : ℕ} {s d : Str}

/-- The string has no keyword in it, however it is written. -/
def Free (env : Env) (s : Str) : Prop := ∀ w ∈ keywords, ¬w <:+: env.text.toLower s

/-- A keyword in the string is cut by an escape: what is before it cannot be decoded by itself. -/
def Cut (env : Env) (s : Str) : Prop :=
  ∃ before v after, s = before ++ v ++ after ∧ env.text.toLower v ∈ keywords ∧
    Go.queryUnescape before = none

/-! ### The decodings -/

/-- That nothing changes any more ends the loop, and makes no difference to its outcome. -/
theorem recursiveDecodeFrom_eq (n : ℕ) (s : Str) : recursiveDecodeFrom n s = decodeTimes n s := by
  have hfixed : ∀ n s, Go.queryUnescape s = some s → decodeTimes n s = some s := by
    intro n s hs
    induction n with
    | zero => rfl
    | succ n ih => rw [decodeTimes, hs, Option.bind_some, ih]
  induction n generalizing s with
  | zero => rfl
  | succ n ih =>
    rw [recursiveDecodeFrom, decodeTimes]
    cases hs : Go.queryUnescape s with
    | none => rfl
    | some d =>
      rw [Option.bind_some, ← ih]
      dsimp only
      split_ifs with hd
      · rw [ih, hd, hfixed n s (hd ▸ hs)]
      · rfl

theorem lastDecoded_eq (h : decodeTimes n s = some d) : lastDecoded n s = d := by
  induction n generalizing s with
  | zero => exact Option.some.inj h
  | succ n ih =>
    obtain ⟨t, ht, hd⟩ := Option.bind_eq_some_iff.mp h
    rw [lastDecoded, ht, Option.map_some, Option.getD_some, ih hd]

theorem exists_decodeTimes_eq_lastDecoded (n : ℕ) (s : Str) :
    ∃ k ≤ n, decodeTimes k s = some (lastDecoded n s) := by
  induction n generalizing s with
  | zero => exact ⟨0, le_rfl, rfl⟩
  | succ n ih =>
    rw [lastDecoded]
    cases hs : Go.queryUnescape s with
    | none => exact ⟨0, Nat.zero_le _, rfl⟩
    | some d =>
      obtain ⟨k, hk, hd⟩ := ih d
      exact ⟨k + 1, Nat.succ_le_succ hk, by rw [decodeTimes, hs, Option.bind_some, hd]; rfl⟩

/-! ### Keywords in the decodings -/

theorem keywords_ascii : ∀ w ∈ keywords, ∀ c ∈ w, c < 128 ∧ c ∉ [37, 43] := by
  decide +kernel

theorem not_free_iff (hlower : env.text.LowersLocally) :
    ¬Free env s ↔ ∃ v, v <:+: s ∧ env.text.toLower v ∈ keywords := by
  have hiff (w : Str) (hw : w ∈ keywords) :=
    hlower.infix_iff s w fun c hc => (keywords_ascii w hw c hc).1
  constructor
  · intro h
    obtain ⟨w, hw, hinfix⟩ : ∃ w ∈ keywords, w <:+: env.text.toLower s := by
      simpa [Free] using h
    obtain ⟨v, hv, rfl⟩ := (hiff w hw).mp hinfix
    exact ⟨v, hv, hw⟩
  · rintro ⟨v, hv, hw⟩ hfree
    exact hfree _ hw ((hiff _ hw).mpr ⟨v, hv, rfl⟩)

theorem Cut.not_free (hlower : env.text.LowersLocally) (h : Cut env s) : ¬Free env s := by
  obtain ⟨before, v, after, rfl, hw, -⟩ := h
  exact (not_free_iff hlower).mpr ⟨v, ⟨before, after, rfl⟩, hw⟩

/-- **A decoding leaves a keyword that is not cut.** -/
theorem free_of_free_queryUnescape (hlower : env.text.LowersLocally)
    (hs : Go.queryUnescape s = some d) (hcut : ¬Cut env s) (hfree : Free env d) : Free env s := by
  by_contra hnot
  obtain ⟨v, ⟨before, after, rfl⟩, hw⟩ := (not_free_iff hlower).mp hnot
  obtain ⟨b, hb⟩ : ∃ b, Go.queryUnescape before = some b :=
    Option.ne_none_iff_exists'.mp fun hnone => hcut ⟨before, v, after, rfl, hw, hnone⟩
  have hclear : ∀ c ∈ [37, 43], c ∉ v := fun c hc hmem =>
    (keywords_ascii _ hw c (hlower.keeps v c hc hmem)).2 hc
  have hv : Go.unescape true v = some v := Go.unescape_eq_self_iff.mpr
    ⟨hclear 37 (by decide), fun _ => hclear 43 (by decide)⟩
  rw [← Go.unescape_true] at hs hb
  rw [List.append_assoc, Go.unescape_append hb, Go.unescape_append hv] at hs
  obtain ⟨t, ht, rfl⟩ := Option.map_eq_some_iff.mp hs
  obtain ⟨a, -, rfl⟩ := Option.map_eq_some_iff.mp ht
  exact (not_free_iff hlower).mpr ⟨v, ⟨b, a, by simp⟩, hw⟩ hfree

/-- All decodings are free of keywords if the last is, and none of them has a keyword that is
cut. -/
theorem free_decodeTimes (hlower : env.text.LowersLocally) (hlast : Free env (lastDecoded n s))
    (hcut : ∀ k ≤ n, ∀ d, decodeTimes k s = some d → ¬Cut env d) (hk : k ≤ n)
    (hd : decodeTimes k s = some d) : Free env d := by
  induction n generalizing s k d with
  | zero =>
    obtain rfl := Nat.le_zero.mp hk
    exact Option.some.inj hd ▸ hlast
  | succ n ih =>
    rw [lastDecoded] at hlast
    cases hs : Go.queryUnescape s with
    | none =>
      rw [hs] at hlast
      cases k with
      | zero => exact Option.some.inj hd ▸ hlast
      | succ k =>
        rw [decodeTimes, hs] at hd
        cases hd
    | some t =>
      rw [hs] at hlast
      have hrest : ∀ k ≤ n, ∀ d, decodeTimes k t = some d → Free env d := by
        intro k hk d hd
        refine ih hlast (fun j hj e he => hcut (j + 1) (by omega) e ?_) hk hd
        rw [decodeTimes, hs, Option.bind_some, he]
      cases k with
      | zero =>
        obtain rfl := Option.some.inj hd
        exact free_of_free_queryUnescape hlower hs (hcut 0 (Nat.zero_le _) s rfl)
          (hrest 0 (Nat.zero_le _) t rfl)
      | succ k =>
        rw [decodeTimes, hs, Option.bind_some] at hd
        exact hrest k (by omega) d hd

/-! ### The check -/

variable {rawURL platform : Str}

/-- What is checked is free of keywords. -/
theorem free_of_validateURL (h : validateURL env rawURL platform = .ok ()) :
    Free env ((recursiveDecode (cleanURL rawURL)).getD (cleanURL rawURL)) := by
  rw [validateURL] at h
  -- the length, the three lists, and the patterns
  split at h
  · cases h
  split at h
  · cases h
  split at h
  · cases h
  rename_i hblack
  split at h
  · cases h
  rename_i hjndi
  have hnone := List.find?_eq_none.mp (Option.eq_none_iff_forall_ne_some.mpr hblack)
  simp only [Go.contains, decide_eq_true_eq, not_or] at hnone hjndi
  intro w hw
  rcases List.mem_append.mp hw with hw | hw
  · exact hnone w hw
  · simp only [List.mem_cons, List.not_mem_nil, or_false] at hw
    rcases hw with rfl | rfl | rfl
    · exact hjndi.1
    · exact hjndi.2.1
    · exact hjndi.2.2

/-- **What a URL that is accepted may still say.** No decoding of it has a keyword exactly if no
keyword is cut, and, should a decoding fail, there is none in the last version before that. -/
theorem validateURL_free_iff (hlower : env.text.LowersLocally)
    (h : validateURL env rawURL platform = .ok ()) :
    (∀ k ≤ 5, ∀ d, decodeTimes k (cleanURL rawURL) = some d → Free env d) ↔
      (recursiveDecode (cleanURL rawURL) = none → Free env (lastDecoded 5 (cleanURL rawURL))) ∧
        ∀ k ≤ 5, ∀ d, decodeTimes k (cleanURL rawURL) = some d → ¬Cut env d := by
  constructor
  · intro hfree
    refine ⟨fun _ => ?_, fun k hk d hd hcut => hcut.not_free hlower (hfree k hk d hd)⟩
    obtain ⟨k, hk, hlast⟩ := exists_decodeTimes_eq_lastDecoded 5 (cleanURL rawURL)
    exact hfree k hk _ hlast
  · rintro ⟨hlast, hcut⟩ k hk d hd
    refine free_decodeTimes hlower ?_ hcut hk hd
    cases hdecode : recursiveDecode (cleanURL rawURL) with
    | none => exact hlast hdecode
    | some t =>
      have hchecked := free_of_validateURL h
      rw [hdecode] at hchecked
      rw [recursiveDecode, recursiveDecodeFrom_eq] at hdecode
      rwa [lastDecoded_eq hdecode]

/-- An environment in which no database is asked. -/
def checkEnv : Env := .answering ⟨.ok [], [], fun _ => none⟩ 0

theorem validateURL_free_iff_blank :
    validateURL checkEnv (Go.str "postgres://db/app?name=a%2520b") (Go.str "postgresql") = .ok () ∧
      ∀ k ≤ 5, ∀ d, decodeTimes k (cleanURL (Go.str "postgres://db/app?name=a%2520b")) = some d →
        Free checkEnv d := by
  have haccept : validateURL checkEnv (Go.str "postgres://db/app?name=a%2520b")
      (Go.str "postgresql") = .ok () := rfl
  have hfree : ∀ k : Fin 6, ∀ d ∈ decodeTimes k
      (cleanURL (Go.str "postgres://db/app?name=a%2520b")), Free checkEnv d := by
    unfold Free
    decide +kernel
  refine ⟨haccept, (validateURL_free_iff Go.Text.lowersLocally_ascii haccept).mpr ⟨?_, ?_⟩⟩
  · exact fun hnone => absurd hnone (by decide)
  · intro k hk d hd hcut
    exact hcut.not_free Go.Text.lowersLocally_ascii (hfree ⟨k, by omega⟩ d hd)

/-- **A keyword gets past the check**: the second decoding of the first URL fails, and what is
checked is the URL with its escapes; the first decoding brings the keyword out. In the second URL an
escape cuts the keyword. -/
theorem not_validateURL_free :
    validateURL checkEnv (Go.str "jndi%3a%25zz") (Go.str "mysql") = .ok () ∧
      decodeTimes 1 (cleanURL (Go.str "jndi%3a%25zz")) = some (Go.str "jndi:%zz") ∧
      ¬Free checkEnv (Go.str "jndi:%zz") ∧
    validateURL checkEnv (Go.str "%adbms_java") (Go.str "oracle") = .ok () ∧
      ¬Free checkEnv (cleanURL (Go.str "%adbms_java")) := by
  refine ⟨rfl, rfl, fun h => ?_, rfl, fun h => ?_⟩
  · exact h (Go.str "jndi:") (by decide) (by decide)
  · exact h (Go.str "dbms_java") (by decide) (by decide)

end

end JDBCCollector

end HertzBeat
