import HertzBeat.Collect.RedisCollector
import HertzBeat.Lib.Assign
import HertzBeat.Lib.Printed

/-!
# What a Redis server tells about itself

`INFO` answers with a text of lines: names with values, comments, and blank lines between the
sections. A value may hold colons of its own, and a name may come more than once. The collector
reads the text into a map, under the names in small letters, and adds two entries of its own.

`HertzBeat.RedisCollector.parseInfo_collectSingle` says that the text is read back, line by line,
and what the columns of the row then are. The two entries of the collector come last, so that no
server can put anything in their place.
-/

namespace HertzBeat

open Go (Str StrMap Text)

namespace RedisCollector

/-! ### The text -/

/-- The name of a value, as a server writes it. -/
structure IsKey (key : Str) : Prop where
  head : ∃ c ∈ key.head?, Go.isSolid c ∧ c ≠ 35
  last : ∃ c ∈ key.getLast?, Go.isSolid c
  colon : 58 ∉ key
  newline : 10 ∉ key

/-- **A line of the text.** -/
inductive InfoLine (text : Text) where
  | blank (line : Str) (newline : 10 ∉ line) (trim : text.trimSpace line = [])
  /-- What follows the number sign. -/
  | comment (line : Str) (newline : 10 ∉ line)
  | entry (key value : Str) (isKey : IsKey key) (newline : 10 ∉ value)
    (trim : text.trimSpace value = value)

namespace InfoLine

variable {text : Text}

def print : InfoLine text → Str
  | blank line _ _ => line
  | comment line _ => 35 :: line
  | entry key value _ _ _ => key ++ 58 :: value

/-- What a line says of which name. -/
def assigns : InfoLine text → List (Str × Str)
  | blank _ _ _ => []
  | comment _ _ => []
  | entry key value _ _ _ => [(text.toLower key, value)]

end InfoLine

/-- **A text of lines.** Each of them ends with a line feed, with or without a carriage return. -/
def printInfo {text : Text} (lines : List (InfoLine text × Bool)) : Str :=
  [10].intercalate (lines.map fun line => line.1.print ++ if line.2 then [13] else [])

/-! ### The map -/

section ParseInfo

variable {env : Env}

theorem newline_notMem_print (line : InfoLine env.helper.text) (crlf : Bool) :
    10 ∉ line.print ++ if crlf then [13] else [] := by
  have hprint : 10 ∉ line.print := by
    cases line with
    | blank line newline _ => exact newline
    | comment line newline =>
      rw [InfoLine.print, List.mem_cons, not_or]
      exact ⟨by decide, newline⟩
    | entry key value isKey newline _ =>
      rw [InfoLine.print, List.mem_append, List.mem_cons, not_or, not_or]
      exact ⟨isKey.newline, by decide, newline⟩
  rw [List.mem_append, not_or]
  exact ⟨hprint, by cases crlf <;> decide⟩

variable (htext : env.helper.text.Trims)

include htext

/-- A carriage return is trimmed away. -/
theorem parseLine_append_return (m : StrMap) (line : Str) (crlf : Bool) :
    parseLine env m (line ++ if crlf then [13] else []) = parseLine env m line := by
  cases crlf with
  | false => exact congrArg (parseLine env m) (List.append_nil line)
  | true =>
    have htrim := htext.trimSpace_concat line 13 (by decide)
    simp only [parseLine, if_pos, htrim]

/-- A name and its value are taken apart at the colon. -/
theorem parseLine_entry (m : StrMap) {key value : Str} (hkey : IsKey key)
    (hvalue : env.helper.text.trimSpace value = value) :
    parseLine env m (key ++ 58 :: value) = m.insert (env.helper.text.toLower key) value := by
  obtain ⟨c, hc, hsolid, hcomment⟩ := hkey.head
  obtain ⟨rest, rfl⟩ : ∃ rest, key = c :: rest := List.head?_eq_some_iff.mp hc
  have hhead : ∃ d ∈ ((c :: rest) ++ [58]).head?, Go.isSolid d := ⟨c, rfl, hsolid⟩
  have hlast : ∃ d ∈ ((c :: rest) ++ [58]).getLast?, Go.isSolid d :=
    ⟨58, by rw [List.getLast?_concat]; rfl, by decide⟩
  have hline := htext.trimSpace_append ((c :: rest) ++ [58]) value hhead hlast hvalue
  rw [List.append_assoc, List.singleton_append] at hline
  have hname := htext.trimSpace_solid ⟨c, rfl, hsolid⟩ hkey.last
  have hskip : ¬((c :: rest) ++ 58 :: value = [] ∨
      Go.hasPrefix ((c :: rest) ++ 58 :: value) (Go.str "#")) := by
    rintro (hnil | hprefixed)
    · cases hnil
    · have hc := (Go.hasPrefix_cons_singleton 35 c _).symm.trans hprefixed
      exact hcomment (beq_iff_eq.mp hc).symm
  have hsplit : Go.splitTwo ((c :: rest) ++ 58 :: value) (Go.str ":") = [c :: rest, value] :=
    Go.splitTwo_append_cons hkey.colon
  rw [parseLine, hline, if_neg hskip, hsplit]
  simp only [hname, hvalue]

/-- **What a line assigns.** -/
theorem parseLine_print (m : StrMap) (line : InfoLine env.helper.text × Bool) :
    parseLine env m (line.1.print ++ if line.2 then [13] else []) =
      Go.assign m line.1.assigns := by
  rw [parseLine_append_return htext]
  cases line.1 with
  | blank line newline trim =>
    rw [InfoLine.print, parseLine, trim, if_pos (.inl rfl)]
    rfl
  | comment line newline =>
    obtain ⟨rest, hrest⟩ := htext.trimSpace_cons line 35 (by decide)
    have hprefixed : Go.hasPrefix (35 :: rest) (Go.str "#") :=
      (Go.hasPrefix_cons_singleton 35 35 rest).trans (by decide)
    rw [InfoLine.print, parseLine, hrest, if_pos (.inr hprefixed)]
    rfl
  | entry key value isKey newline trim =>
    rw [InfoLine.print, parseLine_entry htext m isKey trim]
    rfl

/-- A text of no lines is a blank one. -/
theorem parseInfo_nil : parseInfo env [] = ∅ :=
  if_pos (.inl htext.trimSpace_nil)

/-- **The map of a text**: what its lines assign, one after the other. -/
theorem parseInfo_printInfo (lines : List (InfoLine env.helper.text × Bool)) :
    parseInfo env (printInfo lines) = Go.assign ∅ (lines.flatMap fun line => line.1.assigns) := by
  rcases eq_or_ne lines [] with rfl | hne
  · exact parseInfo_nil htext
  · have hsplit : Go.split (printInfo lines) (Go.str "\n") =
        lines.map fun line => line.1.print ++ if line.2 then [13] else [] := by
      apply Go.split_intercalate
      · intro part hpart
        obtain ⟨line, -, rfl⟩ := List.mem_map.mp hpart
        exact newline_notMem_print line.1 line.2
      · simpa using hne
    rw [parseInfo, hsplit, List.foldl_map]
    exact Go.foldl_eq_assign (parseLine_print htext) lines ∅

end ParseInfo

/-! ### The row -/

variable (env : Env)

/-- **What is to stand under an alias**, for a server that answered with a text. -/
def infoColumn (config : RedisProtocol Option) (dialer : Option Dialer) (info aliasField : Str) :
    Str :=
  if env.helper.text.toLower aliasField = env.helper.text.toLower responseTimeKey then
    Go.itoa (env.responseTime (options env config dialer))
  else if env.helper.text.toLower aliasField = env.helper.text.toLower identityKey then
    config.host ++ Go.str ":" ++ config.port
  else ((parseInfo env info).lookup (env.helper.text.toLower aliasField)).getD nullValue

variable {env}

theorem toLower_responseTimeKey_ne (hlower : env.helper.text.LowersASCII) :
    env.helper.text.toLower responseTimeKey ≠ env.helper.text.toLower identityKey := by
  rw [hlower responseTimeKey (List.all_iff_forall_prop.mp rfl),
    hlower identityKey (List.all_iff_forall_prop.mp rfl)]
  decide

/-- The entries of the collector come after those of the server. -/
theorem valueRow_ownValues (hlower : env.helper.text.LowersASCII) (config : RedisProtocol Option)
    (dialer : Option Dialer) (info : Str) (aliasFields : List Str) :
    valueRow env aliasFields (ownValues env (options env config dialer) info) =
      aliasFields.map (infoColumn env config dialer info) := by
  refine List.map_congr_left fun aliasField _ => ?_
  rw [ownValues, infoColumn]
  by_cases htime : env.helper.text.toLower aliasField = env.helper.text.toLower responseTimeKey
  · rw [if_pos htime, htime, AList.lookup_insert_ne (toLower_responseTimeKey_ne hlower),
      AList.lookup_insert]
    rfl
  · rw [if_neg htime]
    by_cases hidentity : env.helper.text.toLower aliasField = env.helper.text.toLower identityKey
    · rw [if_pos hidentity, hidentity, AList.lookup_insert]
      rfl
    · rw [if_neg hidentity, AList.lookup_insert_ne hidentity, AList.lookup_insert_ne htime]

/-- **The text of a server is read back**: each name that a line has a value for leads to the value
of its last line, and no other name leads to anything. And the row of the server has the values of
its aliases, but those of the collector under the collector's own. -/
theorem parseInfo_collectSingle (htext : env.helper.text.Trims)
    (hlower : env.helper.text.LowersASCII) :
    (∀ (lines : List (InfoLine env.helper.text × Bool)) (key : Str),
        (parseInfo env (printInfo lines)).lookup key =
          Go.lastValue (lines.flatMap fun line => line.1.assigns) key) ∧
      ∀ (metrics : Metrics Option) (config : RedisProtocol Option) (dialer : Option Dialer)
        (response : CollectRepMetricsData) (info : Str),
        fetchRedisInfo env (options env config dialer) config.pattern = .ok info →
          (collectSingle env metrics config dialer response).values =
            response.values ++ [metrics.aliases.map (infoColumn env config dialer info)] := by
  constructor
  · intro lines key
    rw [parseInfo_printInfo htext, Go.lookup_assign, AList.lookup_empty, Option.or_none]
  · intro metrics config dialer response info hinfo
    rw [collectSingle, hinfo, ← valueRow_ownValues hlower]

/-- A server that answers every question with a text, in so many milliseconds. -/
def Env.answering (info : Str) (responseTime : ℤ) : Env where
  helper := .connected
  parseDuration := fun _ => none
  info := fun _ _ => .ok info
  clusterInfo := fun _ => .ok info
  nodes := fun _ => []
  now := 0
  responseTime := fun _ => responseTime

/-- The lines of a server that gives an identity of its own, and its clients twice. -/
def clientsInfo : List (InfoLine .ascii × Bool) :=
  [(.comment (Go.str " Clients") (by decide), true),
    (.entry (Go.str "Clients") (Go.str "1")
      ⟨⟨67, by decide⟩, ⟨115, by decide⟩, by decide, by decide⟩ (by decide) (by decide), true),
    (.blank (Go.str " ") (by decide) (by decide), false),
    (.entry (Go.str "clients") (Go.str "2:3") ⟨⟨99, by decide⟩, ⟨115, by decide⟩, by decide,
      by decide⟩ (by decide) (by decide), true),
    (.entry (Go.str "identity") (Go.str "me") ⟨⟨105, by decide⟩, ⟨121, by decide⟩, by decide,
      by decide⟩ (by decide) (by decide), false)]

theorem parseInfo_collectSingle_clients :
    printInfo clientsInfo = Go.str "# Clients\r\nClients:1\r\n \nclients:2:3\r\nidentity:me" ∧
      (parseInfo (.answering (printInfo clientsInfo) 7) (printInfo clientsInfo)).lookup
          (Go.str "clients") = some (Go.str "2:3") ∧
        (collectSingle (.answering (printInfo clientsInfo) 7)
            { Metrics.bare [] [] with
              aliasFields := some [Go.str "CLIENTS", Go.str "Identity", responseTimeKey,
                Go.str "memory"] }
            { host := Go.str "cache", port := Go.str "6379", sshTunnel := none } none
            (createSuccessResponse (Metrics.bare [] []) 0)).values =
          [[Go.str "2:3", Go.str "cache:6379", Go.str "7", nullValue]] := by
  have h := @parseInfo_collectSingle (.answering (printInfo clientsInfo) 7) Go.Text.trims_ascii
    Go.Text.lowersASCII_ascii
  refine ⟨rfl, (h.1 clientsInfo _).trans rfl, ?_⟩
  exact (h.2 _ _ _ _ (printInfo clientsInfo) rfl).trans rfl

end RedisCollector

end HertzBeat
