import HertzBeat.Collect.DigestChallenge

/-!
# Answering a digest challenge

The answer to a digest challenge is a header that declares an algorithm and a quality of protection
– the `qop`, a way of computing the response – and gives the response. The algorithm that is
declared is the one that the server named. The one that is used is MD5, without a session. And the
`qop` that is declared is `auth` as soon as this word is found anywhere in what the server offers.

`HertzBeat.HTTPCollector.Answer` is what the header says, before it is printed, and
`HertzBeat.HTTPCollector.rfcResponse` the response that such a header should have. A header says
what its answer is, by `HertzBeat.HTTPCollector.Answer.print_inj`, as long as there are no quotes in
the values.

The hash functions of the algorithms are parameters.
`HertzBeat.HTTPCollector.handleDigestAuth_matches_iff` says for which challenges the two responses
agree whatever the functions are: those that are refused, and those that name MD5 or nothing and
offer `auth`, or nothing.
-/

namespace HertzBeat

open Go (Str StrMap)

namespace HTTPCollector

/-! ### What an answer says -/

/-- The parameters of an answer with a `qop`. -/
structure Qop where
  qop : Str
  nc : Str
  cnonce : Str

/-- The parameters of an answer. -/
structure Answer where
  username : Str
  realm : Str
  nonce : Str
  uri : Str
  response : Str
  algorithm : Str
  /-- The value of `opaque`, which the server gets back as it is. -/
  opaqueData : Str
  qop : Option Qop

/-- The header of an answer. -/
def Answer.print (a : Answer) : Str :=
  let value := Go.str "Digest " ++ List.intercalate (Go.str ", ")
    [quoted (Go.str "username") a.username, quoted (Go.str "realm") a.realm,
      quoted (Go.str "nonce") a.nonce, quoted (Go.str "uri") a.uri,
      quoted (Go.str "response") a.response, quoted (Go.str "algorithm") a.algorithm]
  let value := if a.opaqueData = [] then value
    else value ++ Go.str ", " ++ quoted (Go.str "opaque") a.opaqueData
  match a.qop with
  | none => value
  | some q => value ++ (Go.str ", qop=" ++ q.qop ++ Go.str ", nc=") ++ q.nc ++ Go.str ", " ++
      quoted (Go.str "cnonce") q.cnonce

/-- The value of a parameter of a challenge, which is empty if there is none. -/
def param (params : StrMap) (name : String) : Str := (params.lookup (Go.str name)).getD []

/-- The algorithm that a challenge names. -/
def algorithmOf (params : StrMap) : Str :=
  if param params "algorithm" = [] then Go.str "MD5" else param params "algorithm"

/-- A challenge is refused: it has no realm or no nonce, or a `qop` without the word `auth`. -/
def Refused (params : StrMap) : Prop :=
  param params "realm" = [] ∨ param params "nonce" = [] ∨
    param params "qop" ≠ [] ∧ ¬Go.contains (param params "qop") (Go.str "auth")

instance (params : StrMap) : Decidable (Refused params) :=
  inferInstanceAs (Decidable (_ ∨ _ ∨ _ ∧ _))

variable {URL : Type} (env : Env URL)

/-- The answer to the parameters of a challenge. -/
def answerOf (req : Request URL) (params : StrMap) (auth : Authorization) : Answer :=
  let ha1 := env.md5Hex
    (colons [auth.digestAuthUsername, param params "realm", auth.digestAuthPassword])
  let uri := env.requestURI req.url
  let ha2 := env.md5Hex (colons [req.method, uri])
  { username := auth.digestAuthUsername
    realm := param params "realm"
    nonce := param params "nonce"
    uri := uri
    response :=
      if param params "qop" = [] then env.md5Hex (colons [ha1, param params "nonce", ha2])
      else env.md5Hex
        (colons [ha1, param params "nonce", nonceCount, env.cnonce, Go.str "auth", ha2])
    algorithm := algorithmOf params
    opaqueData := param params "opaque"
    qop := if param params "qop" = [] then none
      else some { qop := Go.str "auth", nc := nonceCount, cnonce := env.cnonce } }

section Value

variable {req : Request URL} {authHeader : Str} {auth : Authorization}

/-- A challenge without a realm or without a nonce is not answered. -/
theorem digestValue_of_missing
    (h : param (parseAuthHeader env authHeader) "realm" = [] ∨
      param (parseAuthHeader env authHeader) "nonce" = []) :
    digestValue env req authHeader auth =
      .error (Go.str "missing realm or nonce in digest header") := by
  rw [digestValue]
  exact if_pos h

variable (hrealm : param (parseAuthHeader env authHeader) "realm" ≠ [])
  (hnonce : param (parseAuthHeader env authHeader) "nonce" ≠ [])

include hrealm hnonce

/-- One without a `qop` is answered without. -/
theorem digestValue_of_none (hqop : param (parseAuthHeader env authHeader) "qop" = []) :
    digestValue env req authHeader auth =
      .ok (answerOf env req (parseAuthHeader env authHeader) auth).print := by
  have hvalue : digestValue env req authHeader auth = _ :=
    (if_neg (not_or.mpr ⟨hrealm, hnonce⟩)).trans (if_pos hqop)
  rw [hvalue]
  refine congrArg Except.ok ((if_pos hqop).trans ?_)
  simp only [answerOf, Answer.print, if_pos hqop]
  rfl

/-- One with a `qop` in which there is the word `auth` is answered with this `qop`. -/
theorem digestValue_of_auth (hqop : param (parseAuthHeader env authHeader) "qop" ≠ [])
    (hauth : Go.contains (param (parseAuthHeader env authHeader) "qop") (Go.str "auth")) :
    digestValue env req authHeader auth =
      .ok (answerOf env req (parseAuthHeader env authHeader) auth).print := by
  have hvalue : digestValue env req authHeader auth = _ :=
    (if_neg (not_or.mpr ⟨hrealm, hnonce⟩)).trans ((if_neg hqop).trans (if_pos hauth))
  rw [hvalue]
  refine congrArg Except.ok ((if_neg hqop).trans ?_)
  simp only [answerOf, Answer.print, if_neg hqop]
  rfl

/-- One with another `qop` is not answered. -/
theorem digestValue_of_other (hqop : param (parseAuthHeader env authHeader) "qop" ≠ [])
    (hauth : ¬Go.contains (param (parseAuthHeader env authHeader) "qop") (Go.str "auth")) :
    digestValue env req authHeader auth =
      .error (Go.str "unsupported qop: " ++ param (parseAuthHeader env authHeader) "qop") :=
  (if_neg (not_or.mpr ⟨hrealm, hnonce⟩)).trans ((if_neg hqop).trans (if_neg hauth))

omit hrealm hnonce

/-- **The header is the print of an answer**, and there is one unless the challenge is refused. -/
theorem digestValue_eq_ok_iff {value : Str} :
    digestValue env req authHeader auth = .ok value ↔
      ¬Refused (parseAuthHeader env authHeader) ∧
        value = (answerOf env req (parseAuthHeader env authHeader) auth).print := by
  by_cases hmissing : param (parseAuthHeader env authHeader) "realm" = [] ∨
      param (parseAuthHeader env authHeader) "nonce" = []
  · have hrefused : Refused (parseAuthHeader env authHeader) := by
      rcases hmissing with h | h
      · exact .inl h
      · exact .inr (.inl h)
    simp [digestValue_of_missing env hmissing, hrefused]
  · obtain ⟨hrealm, hnonce⟩ := not_or.mp hmissing
    by_cases hqop : param (parseAuthHeader env authHeader) "qop" = []
    · have hnot : ¬Refused (parseAuthHeader env authHeader) := by
        simp [Refused, hrealm, hnonce, hqop]
      rw [digestValue_of_none env hrealm hnonce hqop, Except.ok.injEq, eq_comm, and_iff_right hnot]
    · by_cases hauth : Go.contains (param (parseAuthHeader env authHeader) "qop") (Go.str "auth")
      · have hnot : ¬Refused (parseAuthHeader env authHeader) := by
          simp [Refused, hrealm, hnonce, hauth]
        rw [digestValue_of_auth env hrealm hnonce hqop hauth, Except.ok.injEq, eq_comm,
          and_iff_right hnot]
      · have hrefused : Refused (parseAuthHeader env authHeader) := .inr (.inr ⟨hqop, hauth⟩)
        simp [digestValue_of_other env hrealm hnonce hqop hauth, hrefused]

end Value

/-- **The request is made again with the answer**, unless the challenge is refused. -/
theorem handleDigestAuth_eq_ok_iff {req made newReq : Request URL} {authHeader : Str}
    {auth : Authorization}
    (hmade : env.newRequest req.method (env.string req.url) req.body = .ok made) :
    handleDigestAuth env req authHeader auth = .ok (.ok newReq) ↔
      ¬Refused (parseAuthHeader env authHeader) ∧
        newReq = Request.setHeader env { made with
          header := req.header.entries.foldl (fun h (e : Σ _ : Str, Str) => h.insert e.1 e.2)
            made.header } (Go.str "Authorization")
          (answerOf env req (parseAuthHeader env authHeader) auth).print := by
  rw [handleDigestAuth]
  cases hvalue : digestValue env req authHeader auth with
  | error err =>
    have hrefused : Refused (parseAuthHeader env authHeader) := by
      by_contra hnot
      have hok := (@digestValue_eq_ok_iff _ env req authHeader auth _).mpr ⟨hnot, rfl⟩
      rw [hvalue] at hok
      cases hok
    simp [hrefused]
  | ok value =>
    obtain ⟨hnot, rfl⟩ := (digestValue_eq_ok_iff env).mp hvalue
    simp only [hmade, Except.ok.injEq, hnot, not_false_eq_true, true_and]
    exact eq_comm

/-! ### What a header says

A header is read at its quotes. If no value has a quote in it, the parts between them are those
that were printed, and so a header has one answer only. -/

/-- What stands in front of a value in quotes. -/
def label (name : String) : Str := Go.str name ++ [61]

/-- What stands in front of the `cnonce`, with the two values that are not in quotes. -/
def Qop.front (q : Qop) : Str :=
  Go.str ", qop=" ++ (q.qop ++ (Go.str ", nc=" ++ (q.nc ++ (Go.str ", " ++ label "cnonce"))))

/-- The parts behind the algorithm. -/
def Answer.lastParts (a : Answer) : List Str :=
  (if a.opaqueData = [] then [] else [Go.str ", " ++ label "opaque", a.opaqueData]) ++
    match a.qop with
    | none => [[]]
    | some q => [q.front, q.cnonce, []]

/-- The parts of a header, which the quotes stand between: labels and values in turn. -/
def Answer.parts (a : Answer) : List Str :=
  [Go.str "Digest " ++ label "username", a.username, Go.str ", " ++ label "realm", a.realm,
    Go.str ", " ++ label "nonce", a.nonce, Go.str ", " ++ label "uri", a.uri,
    Go.str ", " ++ label "response", a.response,
    Go.str ", " ++ label "algorithm", a.algorithm] ++ a.lastParts

theorem quoted_eq_label (name : String) (value : Str) :
    quoted (Go.str name) value = label name ++ (34 :: (value ++ [34])) := by
  have hopening : Go.str "=\"" = [61, 34] := rfl
  have hclosing : Go.str "\"" = [34] := rfl
  simp [quoted, label, hopening, hclosing]

/-- **A header is its parts with quotes between them.** -/
theorem Answer.print_eq_intercalate (a : Answer) : a.print = List.intercalate [34] a.parts := by
  rw [print, parts, lastParts]
  cases a.qop with
  | none =>
    by_cases h : a.opaqueData = []
    · simp [h, quoted_eq_label, List.intercalate_cons_cons]
    · simp [h, quoted_eq_label, List.intercalate_cons_cons]
  | some q =>
    by_cases h : a.opaqueData = []
    · simp [h, quoted_eq_label, List.intercalate_cons_cons, Qop.front]
    · simp [h, quoted_eq_label, List.intercalate_cons_cons, Qop.front]

/-- **No value has a quote in it**, and those that are not in quotes have no comma. -/
structure Answer.IsPlain (a : Answer) : Prop where
  values : ∀ value ∈
    [a.username, a.realm, a.nonce, a.uri, a.response, a.algorithm, a.opaqueData], 34 ∉ value
  cnonce : ∀ q ∈ a.qop, 34 ∉ q.cnonce
  qop : ∀ q ∈ a.qop, ∀ value ∈ [q.qop, q.nc], 34 ∉ value ∧ 44 ∉ value

theorem Qop.notMem_front {q : Qop} (hqop : 34 ∉ q.qop) (hnc : 34 ∉ q.nc) : 34 ∉ q.front := by
  have hlabels : 34 ∉ Go.str ", qop=" ∧ 34 ∉ Go.str ", nc=" ∧
    34 ∉ Go.str ", " ∧ 34 ∉ label "cnonce" := by decide
  obtain ⟨hfirst, hsecond, hthird⟩ := hlabels
  simp only [front, List.mem_append, not_or]
  exact ⟨hfirst, hqop, hsecond, hnc, hthird⟩

theorem Answer.IsPlain.notMem_lastParts {a : Answer} (ha : a.IsPlain) :
    ∀ part ∈ a.lastParts, 34 ∉ part := by
  have hdata : 34 ∉ a.opaqueData := ha.values _ (by simp)
  have hlabel : 34 ∉ Go.str ", " ++ label "opaque" := by decide
  rw [lastParts, List.forall_mem_append]
  constructor
  · split_ifs
    · exact List.forall_mem_nil _
    · exact List.forall_mem_cons.mpr ⟨hlabel, List.forall_mem_singleton.mpr hdata⟩
  · cases hq : a.qop with
    | none => exact List.forall_mem_singleton.mpr List.not_mem_nil
    | some q =>
      have hfront := Qop.notMem_front (ha.qop q hq q.qop (by simp)).1
        (ha.qop q hq q.nc (by simp)).1
      simp [hfront, ha.cnonce q hq]

theorem Answer.IsPlain.notMem_parts {a : Answer} (ha : a.IsPlain) :
    ∀ part ∈ a.parts, 34 ∉ part := by
  have hlabels : ∀ part ∈ [Go.str "Digest " ++ label "username", Go.str ", " ++ label "realm",
      Go.str ", " ++ label "nonce", Go.str ", " ++ label "uri", Go.str ", " ++ label "response",
      Go.str ", " ++ label "algorithm"], 34 ∉ part := by decide
  have hvalues := ha.values
  simp only [List.forall_mem_cons] at hlabels hvalues
  rw [parts, List.forall_mem_append]
  refine ⟨?_, ha.notMem_lastParts⟩
  simp only [List.forall_mem_cons]
  tauto

/-- The values that are not in quotes are read at the commas. -/
theorem Qop.front_inj {q q' : Qop} (hq : ∀ value ∈ [q.qop, q.nc], 44 ∉ value)
    (hq' : ∀ value ∈ [q'.qop, q'.nc], 44 ∉ value) (h : q.front = q'.front) :
    q.qop = q'.qop ∧ q.nc = q'.nc := by
  have hcomma : Go.str ", nc=" = 44 :: Go.str " nc=" := rfl
  have hlast : Go.str ", " = [44, 32] := rfl
  have hfront := List.append_cancel_left h
  rw [hcomma, hlast] at hfront
  obtain ⟨hqop, hrest⟩ := Go.append_cons_inj (hq _ (by simp)) (hq' _ (by simp)) hfront
  obtain ⟨hnc, -⟩ := Go.append_cons_inj (hq _ (by simp)) (hq' _ (by simp))
    (List.append_cancel_left hrest)
  exact ⟨hqop, hnc⟩

/-- The label of `opaque` is not what stands in front of a `cnonce`. -/
theorem Qop.label_ne_front (q : Qop) : Go.str ", " ++ label "opaque" ≠ q.front := by
  intro h
  have hthird := congrArg (fun s : Str => s[2]?) h
  cases hthird

theorem Answer.lastParts_inj {a b : Answer} (ha : a.IsPlain) (hb : b.IsPlain)
    (h : a.lastParts = b.lastParts) : a.opaqueData = b.opaqueData ∧ a.qop = b.qop := by
  have hfront : ∀ q ∈ a.qop, ∀ q' ∈ b.qop,
      q.front = q'.front → q.cnonce = q'.cnonce → q = q' := by
    intro q hq q' hq' hfront hcnonce
    obtain ⟨hqop, hnc⟩ := Qop.front_inj (fun v hv => (ha.qop q hq v hv).2)
      (fun v hv => (hb.qop q' hq' v hv).2) hfront
    cases q
    cases q'
    simp_all
  rw [lastParts, lastParts] at h
  -- An answer with `opaque` and no `qop` has as many parts as one with a `qop` and no `opaque`:
  -- the labels tell them apart.
  cases hqa : a.qop with
  | none =>
    cases hqb : b.qop with
    | none =>
      rw [hqa, hqb] at h
      split_ifs at h <;> simp_all
    | some q' =>
      rw [hqa, hqb] at h
      have hne := q'.label_ne_front
      split_ifs at h <;> simp_all
  | some q =>
    cases hqb : b.qop with
    | none =>
      rw [hqa, hqb] at h
      have hne := q.label_ne_front.symm
      split_ifs at h <;> simp_all
    | some q' =>
      rw [hqa, hqb] at h
      have hne := q.label_ne_front.symm
      have hne' := q'.label_ne_front
      split_ifs at h <;> simp_all

/-- **A header has one answer only** if no value has a quote in it: what it declares can be read
from it. -/
theorem Answer.print_inj {a b : Answer} (ha : a.IsPlain) (hb : b.IsPlain)
    (h : a.print = b.print) : a = b := by
  rw [print_eq_intercalate, print_eq_intercalate] at h
  have hparts : a.parts = b.parts := by
    rw [← List.splitOn_intercalate 34 ha.notMem_parts (List.cons_ne_nil _ _), h,
      List.splitOn_intercalate 34 hb.notMem_parts (List.cons_ne_nil _ _)]
  obtain ⟨hdata, hqop⟩ := Answer.lastParts_inj ha hb (congrArg (List.drop 12) hparts)
  simp only [parts, List.cons_append, List.cons.injEq] at hparts
  cases a
  cases b
  simp_all

/-! ### What an answer should say -/

/-- The response of an answer, from the hashes of the secret and of the request. -/
def Answer.responseWith (a : Answer) (H : Str → Str) (ha1 ha2 : Str) : Str :=
  match a.qop with
  | none => H (colons [ha1, a.nonce, ha2])
  | some q => H (colons [ha1, a.nonce, q.nc, q.cnonce, q.qop, ha2])

/-- What the name of an algorithm with a session ends with. -/
def sessSuffix : Str := Go.str "-SESS"

/-- The algorithm of a name, whether it is with a session or without one. -/
def baseName (name : Str) : Str :=
  if Go.hasSuffix name sessSuffix then name.rdrop sessSuffix.length else name

/-- **The response that an answer should have**, by what it declares: the algorithm, in capital
letters and with a session or without one, and the `qop`. -/
def rfcResponse (text : Go.Text) (hash : Str → Str → Str) (req : Request URL) (password : Str)
    (a : Answer) : Str :=
  let name := text.toUpper a.algorithm
  let H := hash (baseName name)
  let secret := H (colons [a.username, a.realm, password])
  let ha1 := if Go.hasSuffix name sessSuffix then
      H (colons [secret, a.nonce, (a.qop.map Qop.cnonce).getD []])
    else secret
  let ha2 := if a.qop.map Qop.qop = some (Go.str "auth-int") then
      H (colons [req.method, a.uri, H req.body])
    else H (colons [req.method, a.uri])
  a.responseWith H ha1 ha2

/-- The tokens of a `qop`. -/
def qopTokens (text : Go.Text) (value : Str) : List Str :=
  ((Go.split value (Go.str ",")).map text.trimSpace).filter (· ≠ [])

/-- What a challenge offers. The case of the name does not matter. -/
def offered (text : Go.Text) (params : List AuthParam) : List Str :=
  params.flatMap fun p =>
    if text.toLower p.name = Go.str "qop" then qopTokens text p.value else []

/-- The `qop` that is declared is one of those that are offered; there is none if none is. -/
def Answer.OfferedBy (text : Go.Text) (params : List AuthParam) (a : Answer) : Prop :=
  match a.qop with
  | none => offered text params = []
  | some q => q.qop ∈ offered text params

/-- The libraries with a hash function for each algorithm, of which the collector uses one. -/
def Env.withHash (hash : Str → Str → Str) : Env URL :=
  { env with md5Hex := hash (Go.str "MD5") }

/-- **An answer matches what it declares**: it stands in the header of the request, its response is
the one that it should have, and its `qop` is offered. -/
def AnswerMatches (hash : Str → Str → Str) (req : Request URL) (params : List AuthParam)
    (auth : Authorization) (newReq : Request URL) : Prop :=
  let answer := answerOf (env.withHash hash) req (parseAuthHeader env (printChallenge params)) auth
  newReq.header.lookup (env.canonicalKey (Go.str "Authorization")) = some answer.print ∧
    answer.response = rfcResponse env.text hash req auth.digestAuthPassword answer ∧
    answer.OfferedBy env.text params

/-! ### Hash functions that tell answers apart -/

/-- A hash function that gives always the same gives it for a response. -/
theorem Answer.responseWith_const (a : Answer) {H : Str → Str} {c : Str} (h : ∀ s, H s = c)
    (ha1 ha2 : Str) : a.responseWith H ha1 ha2 = c := by
  rw [responseWith]
  split <;> exact h _

theorem colons_cons (s t : Str) (strs : List Str) :
    colons (s :: t :: strs) = s ++ (58 :: colons (t :: strs)) := by
  rw [colons, List.intercalate_cons_cons, List.append_assoc]
  rfl

theorem ne_colons_cons (s t : Str) (strs : List Str) : s ≠ colons (s :: t :: strs) := by
  intro h
  have hlen := congrArg List.length h
  rw [colons_cons, List.length_append, List.length_cons] at hlen
  omega

/-- One that gives what it is given tells the secrets apart. -/
theorem Answer.responseWith_id_inj (a : Answer) {ha1 ha1' ha2 : Str}
    (h : a.responseWith id ha1 ha2 = a.responseWith id ha1' ha2) : ha1 = ha1' := by
  rw [responseWith, responseWith] at h
  split at h
  · simp only [id, colons_cons] at h
    exact List.append_cancel_right h
  · simp only [id, colons_cons] at h
    exact List.append_cancel_right h

section Matches

variable {req : Request URL} {params : StrMap} {auth : Authorization}

/-- The response is that of MD5 without a session, with the `qop` that is declared. -/
theorem response_answerOf :
    (answerOf env req params auth).response =
      (answerOf env req params auth).responseWith env.md5Hex
        (env.md5Hex (colons [auth.digestAuthUsername, param params "realm",
          auth.digestAuthPassword]))
        (env.md5Hex (colons [req.method, env.requestURI req.url])) := by
  rw [answerOf, Answer.responseWith]
  dsimp only
  split_ifs <;> rfl

/-- The `qop` that is declared is not the one with the body of the request. -/
theorem qop_answerOf_ne :
    (answerOf env req params auth).qop.map Qop.qop ≠ some (Go.str "auth-int") := by
  have hne : Go.str "auth" ≠ Go.str "auth-int" := by decide
  rw [answerOf]
  dsimp only
  split_ifs <;> simp [hne]

/-- **With MD5 the response is the right one.** -/
theorem response_eq_of_md5 (hash : Str → Str → Str)
    (h : env.text.toUpper (algorithmOf params) = Go.str "MD5") :
    (answerOf (env.withHash hash) req params auth).response =
      rfcResponse env.text hash req auth.digestAuthPassword
        (answerOf (env.withHash hash) req params auth) := by
  have hname : env.text.toUpper (answerOf (env.withHash hash) req params auth).algorithm =
    Go.str "MD5" := h
  have hsess : Go.hasSuffix (Go.str "MD5") sessSuffix = false := rfl
  have hbase : baseName (Go.str "MD5") = Go.str "MD5" := rfl
  rw [response_answerOf, rfcResponse]
  simp only [hname, hsess, hbase, if_neg (qop_answerOf_ne _)]
  rfl

/-- **With MD5 and a session it is not**: the secret of a session has the nonce in it. -/
theorem response_ne_of_sess
    (h : Go.hasSuffix (env.text.toUpper (algorithmOf params)) sessSuffix) :
    (answerOf (env.withHash fun _ s => s) req params auth).response ≠
      rfcResponse env.text (fun _ s => s) req auth.digestAuthPassword
        (answerOf (env.withHash fun _ s => s) req params auth) := by
  intro heq
  have hsess : Go.hasSuffix (env.text.toUpper
      (answerOf (env.withHash fun _ s => s) req params auth).algorithm) sessSuffix := h
  rw [response_answerOf, rfcResponse] at heq
  simp only [if_neg (qop_answerOf_ne _), if_pos hsess] at heq
  exact ne_colons_cons _ _ _ (Answer.responseWith_id_inj _ heq)

/-- **With another algorithm it is not**, since another hash function is called for. -/
theorem response_ne_of_baseName
    (h : baseName (env.text.toUpper (algorithmOf params)) ≠ Go.str "MD5")
    {hash : Str → Str → Str}
    (hhash : ∀ name s, hash name s = if name = Go.str "MD5" then [0] else [1]) :
    (answerOf (env.withHash hash) req params auth).response ≠
      rfcResponse env.text hash req auth.digestAuthPassword
        (answerOf (env.withHash hash) req params auth) := by
  have hmd5 : ∀ s, (env.withHash hash).md5Hex s = [0] := fun s => (hhash _ s).trans (if_pos rfl)
  have hbase : ∀ s, hash (baseName (env.text.toUpper
      (answerOf (env.withHash hash) req params auth).algorithm)) s = [1] :=
    fun s => (hhash _ s).trans (if_neg h)
  rw [response_answerOf, rfcResponse, Answer.responseWith_const _ hmd5,
    Answer.responseWith_const _ hbase]
  decide

/-- **The response is not the right one for every choice of hash functions** if the algorithm is
not MD5. -/
theorem exists_response_ne (h : env.text.toUpper (algorithmOf params) ≠ Go.str "MD5") :
    ∃ hash, (answerOf (env.withHash hash) req params auth).response ≠
      rfcResponse env.text hash req auth.digestAuthPassword
        (answerOf (env.withHash hash) req params auth) := by
  by_cases hbase : baseName (env.text.toUpper (algorithmOf params)) = Go.str "MD5"
  · have hsess : Go.hasSuffix (env.text.toUpper (algorithmOf params)) sessSuffix := by
      by_contra hno
      rw [baseName, if_neg hno] at hbase
      exact h hbase
    exact ⟨_, response_ne_of_sess env hsess⟩
  · exact ⟨fun name _ => if name = Go.str "MD5" then [0] else [1],
      response_ne_of_baseName env hbase fun _ _ => rfl⟩

end Matches

/-! ### When they agree -/

/-- The `qop` of an answer is offered: none if none was found in the challenge, and else `auth`. -/
theorem offeredBy_answerOf_iff {req : Request URL} {found : StrMap} {auth : Authorization}
    (params : List AuthParam) :
    (answerOf env req found auth).OfferedBy env.text params ↔
      if param found "qop" = [] then offered env.text params = []
      else Go.str "auth" ∈ offered env.text params := by
  rw [answerOf, Answer.OfferedBy]
  dsimp only
  split_ifs <;> rfl

/-- **Answers match what they declare** if and only if the challenge is refused, or names MD5 – or
no algorithm – and its `qop` agrees with what is found of it: it offers `auth` if one is found, and
nothing if none is. The hash functions are any. -/
theorem handleDigestAuth_matches_iff {req made : Request URL} (params : List AuthParam)
    (auth : Authorization)
    (hmade : env.newRequest req.method (env.string req.url) req.body = .ok made) :
    (∀ hash newReq,
        handleDigestAuth (env.withHash hash) req (printChallenge params) auth = .ok (.ok newReq) →
          AnswerMatches env hash req params auth newReq) ↔
      Refused (parseAuthHeader env (printChallenge params)) ∨
        env.text.toUpper (algorithmOf (parseAuthHeader env (printChallenge params))) =
            Go.str "MD5" ∧
          if param (parseAuthHeader env (printChallenge params)) "qop" = [] then
            offered env.text params = []
          else Go.str "auth" ∈ offered env.text params := by
  have hiff : ∀ hash newReq,
      handleDigestAuth (env.withHash hash) req (printChallenge params) auth =
        .ok (.ok newReq) ↔ _ :=
    fun hash newReq => handleDigestAuth_eq_ok_iff (env.withHash hash) hmade
  constructor
  · intro hmatches
    by_cases hrefused : Refused (parseAuthHeader env (printChallenge params))
    · exact .inl hrefused
    right
    have hanswer : ∀ hash, ∃ newReq, AnswerMatches env hash req params auth newReq :=
      fun hash => ⟨_, hmatches hash _ ((hiff hash _).mpr ⟨hrefused, rfl⟩)⟩
    constructor
    · by_contra hne
      obtain ⟨hash, hresponse⟩ := exists_response_ne env hne
      obtain ⟨_, -, heq, -⟩ := hanswer hash
      exact hresponse heq
    · obtain ⟨_, -, -, hoffered⟩ := hanswer fun _ s => s
      exact (offeredBy_answerOf_iff (env.withHash fun _ s => s) params).mp hoffered
  · rintro (hrefused | ⟨hmd5, hqop⟩) hash newReq hnew
    · exact absurd hrefused ((hiff hash newReq).mp hnew).1
    · obtain ⟨-, rfl⟩ := (hiff hash newReq).mp hnew
      refine ⟨?_, response_eq_of_md5 env hash hmd5,
        (offeredBy_answerOf_iff (env.withHash hash) params).mpr hqop⟩
      exact AList.lookup_insert _

/-- A challenge with an algorithm and a `qop`. -/
def challenge (algorithm qop : Str) (halgorithm : IsToken algorithm) (hqop : 34 ∉ qop) :
    List AuthParam :=
  [.quoted (Go.str "realm") (Go.str "r") isToken_realm (by decide),
    .quoted (Go.str "nonce") (Go.str "n") isToken_nonce (by decide),
    .quoted (Go.str "qop") qop (isToken_of_all (by decide) rfl) hqop,
    .token (Go.str "algorithm") algorithm isToken_algorithm halgorithm]

def md5Challenge : List AuthParam :=
  challenge (Go.str "md5") (Go.str "auth, auth-int") (isToken_of_all (by decide) rfl) (by decide)

def shaChallenge : List AuthParam :=
  challenge (Go.str "SHA-256") (Go.str "auth") (isToken_of_all (by decide) rfl) (by decide)

def authIntChallenge : List AuthParam :=
  challenge (Go.str "MD5") (Go.str "auth-int") isToken_md5 (by decide)

/-- A request of a page. -/
def pageRequest : Request Str :=
  { method := Go.str "GET", url := Go.str "/", header := ∅, body := [] }

/-- The answer to a challenge of MD5 with both kinds of `qop` matches what it declares. -/
theorem handleDigestAuth_matches_md5 :
    (Env.answering 401 [] 0).newRequest pageRequest.method pageRequest.url pageRequest.body =
        .ok pageRequest ∧
      ∀ hash newReq,
        handleDigestAuth ((Env.answering 401 [] 0).withHash hash) pageRequest
            (printChallenge md5Challenge) {} = .ok (.ok newReq) →
          AnswerMatches (.answering 401 [] 0) hash pageRequest md5Challenge {} newReq :=
  ⟨rfl, (handleDigestAuth_matches_iff (.answering 401 [] 0) md5Challenge {} rfl).mpr
    (.inr ⟨by decide, by decide⟩)⟩

/-- The answer to a challenge of SHA-256 has the response of MD5, and the one to a challenge that
offers only `auth-int` declares `auth`. -/
theorem not_answerMatches_sha :
    (∃ hash newReq,
      handleDigestAuth ((Env.answering 401 [] 0).withHash hash) pageRequest
          (printChallenge shaChallenge) {} = .ok (.ok newReq) ∧
        ¬AnswerMatches (.answering 401 [] 0) hash pageRequest shaChallenge {} newReq) ∧
      ∃ hash newReq,
        handleDigestAuth ((Env.answering 401 [] 0).withHash hash) pageRequest
            (printChallenge authIntChallenge) {} = .ok (.ok newReq) ∧
          ¬AnswerMatches (.answering 401 [] 0) hash pageRequest authIntChallenge {} newReq := by
  constructor
  · refine ⟨fun name _ => if name = Go.str "MD5" then [0] else [1], _,
      (handleDigestAuth_eq_ok_iff _ rfl).mpr ⟨by decide, rfl⟩, ?_⟩
    rintro ⟨-, hresponse, -⟩
    exact response_ne_of_baseName _ (by decide) (fun _ _ => rfl) hresponse
  · refine ⟨fun _ s => s, _, (handleDigestAuth_eq_ok_iff _ rfl).mpr ⟨by decide, rfl⟩, ?_⟩
    rintro ⟨-, -, hoffered⟩
    exact absurd ((offeredBy_answerOf_iff _ _).mp hoffered) (by decide)

end HTTPCollector

end HertzBeat
