import HertzBeat.Collect.JDBCCollector
import HertzBeat.Lib.URL

/-!
# The URLs that are built for a database

`constructDatabaseURL` writes the user name, the password and the name of the database into a URL as
they are. Read as a URL, it says what was configured exactly if none of them has a byte in it that
means something in its place: `HertzBeat.JDBCCollector.parse_constructDatabaseURL_iff`. A password
with a number sign, say, makes of the user name a host.

Whether a plus in a query stands for a blank is left open; it matters for the name of a database of
SQL Server only, which is the value of a parameter.
-/

namespace HertzBeat

open Go (Str)

namespace JDBCCollector

/-- The platforms whose connection strings are URLs. -/
inductive URLPlatform where
  | postgresql
  | sqlserver
  | oracle
  deriving DecidableEq, Repr

namespace URLPlatform

/-- How the platform is named in a configuration. -/
def name : URLPlatform → Str
  | .postgresql => Go.str "postgresql"
  | .sqlserver => Go.str "sqlserver"
  | .oracle => Go.str "oracle"

/-- How it is named in a URL. -/
def scheme : URLPlatform → Str
  | .postgresql => Go.str "postgres"
  | .sqlserver => Go.str "sqlserver"
  | .oracle => Go.str "oracle"

/-- The path of the URL of a database. -/
def path (database : Str) : URLPlatform → Str
  | .postgresql => Go.str "/" ++ database
  | .sqlserver => []
  | .oracle => Go.str "/" ++ database

/-- The parameters of the URL of a database. -/
def query (database : Str) : URLPlatform → List (Str × Str)
  | .postgresql =>
    [(Go.str "sslmode", Go.str "disable"), (Go.str "connect_timeout", Go.str "30")]
  | .sqlserver =>
    [(Go.str "database", database), (Go.str "trustServerCertificate", Go.str "true"),
      (Go.str "encrypt", Go.str "disable"), (Go.str "connection+timeout", Go.str "30")]
  | .oracle => []

/-- The bytes that mean something within the name of a database. -/
def reserved (plus : Bool) : URLPlatform → Str
  | .postgresql => Go.str "?#%"
  | .sqlserver => if plus then Go.str "&#%+" else Go.str "&#%"
  | .oracle => Go.str "?#%"

end URLPlatform

/-- **What the URL is to say**: the configuration, and the parameters of the platform. -/
def intendedURL (p : URLPlatform) (jdbc : JDBCProtocol Option) (host port : Str) : Go.URL where
  scheme := p.scheme
  user := some (jdbc.username, some jdbc.password)
  host := host
  port := some port
  path := p.path jdbc.database
  query := p.query jdbc.database

/-- What the configuration has in it stands for itself in a URL. -/
structure Literal (plus : Bool) (p : URLPlatform) (jdbc : JDBCProtocol Option) : Prop where
  username : ∀ c ∈ jdbc.username, c ∉ Go.str "/?#:%"
  password : ∀ c ∈ jdbc.password, c ∉ Go.str "/?#%"
  database : ∀ c ∈ jdbc.database, c ∉ p.reserved plus

variable {env : Env} {plus : Bool} {jdbc : JDBCProtocol Option} {host port : Str}

/-- What comes after the port. -/
def urlRest (database : Str) : URLPlatform → Str
  | .postgresql => Go.str "/" ++ database ++ Go.str "?sslmode=disable&connect_timeout=30"
  | .sqlserver => Go.str "?database=" ++ database ++
      Go.str "&trustServerCertificate=true&encrypt=disable&connection+timeout=30"
  | .oracle => Go.str "/" ++ database

theorem constructDatabaseURL_eq (p : URLPlatform) (hplatform : jdbc.platform = p.name)
    (hurl : jdbc.url = []) :
    constructDatabaseURL env jdbc host port = .ok (p.scheme ++ 58 :: 47 :: 47 ::
      (jdbc.username ++ 58 :: jdbc.password ++ 64 :: (host ++ 58 :: port) ++
        urlRest jdbc.database p)) := by
  have hcolon : Go.str ":" = [58] := rfl
  have hat : Go.str "@" = [64] := rfl
  have hscheme : ∀ p : URLPlatform, ∀ s, p.scheme ++ 58 :: 47 :: 47 :: s =
      (p.scheme ++ Go.str "://") ++ s := by
    have hsep : Go.str "://" = [58, 47, 47] := rfl
    simp [hsep]
  rw [constructDatabaseURL, if_neg (by simp [hurl]), hplatform, hscheme]
  cases p with
  | postgresql =>
    rw [if_neg (by decide), if_pos (by rfl)]
    have hstart : Go.str "postgres://" = URLPlatform.postgresql.scheme ++ Go.str "://" := rfl
    simp [hstart, hcolon, hat, authority, urlRest]
  | sqlserver =>
    rw [if_neg (by decide), if_neg (by decide), if_pos (by rfl)]
    have hstart : Go.str "sqlserver://" = URLPlatform.sqlserver.scheme ++ Go.str "://" := rfl
    simp [hstart, hcolon, hat, authority, urlRest]
  | oracle =>
    rw [if_neg (by decide), if_neg (by decide), if_neg (by decide),
      if_pos (by rfl)]
    have hstart : Go.str "oracle://" = URLPlatform.oracle.scheme ++ Go.str "://" := rfl
    simp [hstart, hcolon, hat, authority, urlRest]

theorem str_slash : Go.str "/" = [47] := rfl

/-- A name in a path is read back exactly if no byte of it ends the path, or is decoded. -/
theorem parseRest_slash_iff {database tail : Str} {query : List (Str × Str)}
    (htail : tail.takeWhile (!Go.URL.endsPath ·) = [])
    (hquery : Go.URL.parseTail plus tail = some query) :
    Go.URL.parseRest plus (Go.str "/" ++ database ++ tail) =
        some (Go.str "/" ++ database, query) ↔ ∀ c ∈ database, c ∉ Go.str "?#%" := by
  have hreserved : Go.str "?#%" = [63, 35, 37] := rfl
  rw [Go.URL.parseRest_path_iff htail, and_iff_left hquery, hreserved, str_slash]
  constructor
  · intro h c hc
    simpa [Go.URL.endsPath, and_assoc] using h c (List.mem_append_right _ hc)
  · intro h c hc
    rcases List.mem_append.mp hc with hc | hc
    · rw [List.mem_singleton.mp hc]
      decide
    · simpa [Go.URL.endsPath, and_assoc] using h c hc

/-- The name of the database is read back. -/
theorem parseRest_urlRest_iff (p : URLPlatform) (database : Str) :
    Go.URL.parseRest plus (urlRest database p) = some (p.path database, p.query database) ↔
      ∀ c ∈ database, c ∉ p.reserved plus := by
  cases p with
  | postgresql =>
    refine parseRest_slash_iff (by decide) ?_
    rw [URLPlatform.query]
    cases plus <;> decide
  | sqlserver =>
    have hrest : urlRest database .sqlserver = 63 :: (Go.str "database" ++ 61 :: database ++ 38 ::
        Go.str "trustServerCertificate=true&encrypt=disable&connection+timeout=30") := by
      have hbefore : Go.str "?database=" = 63 :: (Go.str "database" ++ [61]) := rfl
      have hafter : Go.str "&trustServerCertificate=true&encrypt=disable&connection+timeout=30" =
          38 :: Go.str "trustServerCertificate=true&encrypt=disable&connection+timeout=30" := rfl
      simp [urlRest, hbefore, hafter]
    have hpath := @Go.URL.parseRest_path_iff plus [] (urlRest database .sqlserver)
      (URLPlatform.sqlserver.query database) (by rw [hrest]; rfl)
    have hmore : Go.URL.parseQuery plus
        (Go.str "trustServerCertificate=true&encrypt=disable&connection+timeout=30") =
        some [(Go.str "trustServerCertificate", Go.str "true"),
          (Go.str "encrypt", Go.str "disable"), (Go.str "connection+timeout", Go.str "30")] := by
      cases plus <;> decide
    refine hpath.trans ?_
    rw [hrest, URLPlatform.query, Go.URL.parseTail_param_iff (by decide +kernel)
      (by decide +kernel) (by decide), and_iff_left hmore, URLPlatform.reserved]
    have hreserved : Go.str "&#%" = [38, 35, 37] := rfl
    have hreserved' : Go.str "&#%+" = [38, 35, 37, 43] := rfl
    cases plus <;> simp [hreserved, hreserved']
  | oracle =>
    have hslash := @parseRest_slash_iff plus database [] [] rfl rfl
    rwa [List.append_nil] at hslash

/-- The authority ends behind the port. -/
theorem takeWhile_urlRest (database : Str) (p : URLPlatform) :
    (urlRest database p).takeWhile (!Go.URL.endsAuthority ·) = [] := by
  have hquery : Go.str "?database=" = 63 :: Go.str "database=" := rfl
  cases p <;> simp [urlRest, str_slash, hquery, Go.URL.endsAuthority]

/-- Nothing of a host, or of a port, ends the authority. -/
theorem clear_of_host (h : ∀ c ∈ host, c ∉ Go.str "/?#@") :
    ∀ c ∈ host, !Go.URL.endsAuthority c ∧ c ≠ 64 := by
  have hstr : Go.str "/?#@" = [47, 63, 35, 64] := rfl
  intro c hc
  have hclear := h c hc
  simp only [hstr, List.mem_cons, List.not_mem_nil, or_false, not_or] at hclear
  simp [Go.URL.endsAuthority, hclear]

theorem clear_of_port (h : ∀ c ∈ port, 48 ≤ c ∧ c ≤ 57) :
    ∀ c ∈ port, !Go.URL.endsAuthority c ∧ c ≠ 64 ∧ c ≠ 58 := by
  intro c hc
  obtain ⟨hlo, hhi⟩ := h c hc
  have hne : ∀ b : UInt8, b < 48 ∨ 57 < b → c ≠ b := by
    rintro b hb rfl
    rcases hb with hb | hb
    · exact absurd hlo (by simpa using hb)
    · exact absurd hhi (by simpa using hb)
  simp [Go.URL.endsAuthority, hne 47 (by decide), hne 63 (by decide), hne 35 (by decide),
    hne 64 (by decide), hne 58 (by decide)]

/-- The bytes that may not be in the credentials, by what they do. -/
theorem literal_iff {p : URLPlatform} :
    Literal plus p jdbc ↔
      (∀ c ∈ jdbc.username, !Go.URL.endsAuthority c ∧ c ≠ 58 ∧ c ≠ 37) ∧
        (∀ c ∈ jdbc.password, !Go.URL.endsAuthority c ∧ c ≠ 37) ∧
        ∀ c ∈ jdbc.database, c ∉ p.reserved plus := by
  have hname : ∀ c, c ∉ Go.str "/?#:%" ↔ !Go.URL.endsAuthority c ∧ c ≠ 58 ∧ c ≠ 37 := by
    have hstr : Go.str "/?#:%" = [47, 63, 35, 58, 37] := rfl
    simp [hstr, Go.URL.endsAuthority, and_assoc]
  have hpassword : ∀ c, c ∉ Go.str "/?#%" ↔ !Go.URL.endsAuthority c ∧ c ≠ 37 := by
    have hstr : Go.str "/?#%" = [47, 63, 35, 37] := rfl
    simp [hstr, Go.URL.endsAuthority, and_assoc]
  simp only [← hname, ← hpassword]
  exact ⟨fun h => ⟨h.username, h.password, h.database⟩, fun h => ⟨h.1, h.2.1, h.2.2⟩⟩

/-- **The URL that is built says what was configured** exactly if all that was configured stands for
itself. The host has none of the bytes that end it, and the port is made of digits. -/
theorem parse_constructDatabaseURL_iff (env : Env) (plus : Bool) (p : URLPlatform)
    (hplatform : jdbc.platform = p.name) (hurl : jdbc.url = [])
    (hhost : ∀ c ∈ host, c ∉ Go.str "/?#@") (hport : ∀ c ∈ port, 48 ≤ c ∧ c ≤ 57) :
    ∃ url, constructDatabaseURL env jdbc host port = .ok url ∧
      (Go.URL.parse plus url = some (intendedURL p jdbc host port) ↔ Literal plus p jdbc) := by
  refine ⟨_, constructDatabaseURL_eq p hplatform hurl, ?_⟩
  rw [intendedURL, Go.URL.parse_append_iff (by cases p <;> decide) (clear_of_host hhost)
    (clear_of_port hport) (takeWhile_urlRest _ p), parseRest_urlRest_iff, literal_iff]

/-- A configuration for a database. -/
def appDatabase (username password : String) : JDBCProtocol Option where
  platform := Go.str "postgresql"
  username := Go.str username
  password := Go.str password
  database := Go.str "app"
  sshTunnel := none

theorem parse_constructDatabaseURL_app :
    ∃ url, constructDatabaseURL (.answering ⟨.ok [], [], fun _ => none⟩ 0)
        (appDatabase "monitor" "p@ss:word") (Go.str "db.example.org") (Go.str "5432") = .ok url ∧
      Go.URL.parse true url = some (intendedURL .postgresql (appDatabase "monitor" "p@ss:word")
        (Go.str "db.example.org") (Go.str "5432")) := by
  obtain ⟨url, hurl, hiff⟩ := @parse_constructDatabaseURL_iff
    (appDatabase "monitor" "p@ss:word") (Go.str "db.example.org") (Go.str "5432")
    (.answering ⟨.ok [], [], fun _ => none⟩ 0) true .postgresql rfl rfl (by decide +kernel)
    (by decide +kernel)
  exact ⟨url, hurl, hiff.mpr ⟨by decide +kernel, by decide +kernel, by decide +kernel⟩⟩

/-- **A number sign in the password** cuts the URL off: the user name is the host, and the first
part of the password is the port. -/
theorem not_parse_constructDatabaseURL_app :
    ∃ url, constructDatabaseURL (.answering ⟨.ok [], [], fun _ => none⟩ 0)
        (appDatabase "monitor" "123#abc") (Go.str "db.example.org") (Go.str "5432") = .ok url ∧
      Go.URL.parse true url =
        some ⟨Go.str "postgres", none, Go.str "monitor", some (Go.str "123"), [], []⟩ ∧
      Go.URL.parse true url ≠ some (intendedURL .postgresql (appDatabase "monitor" "123#abc")
        (Go.str "db.example.org") (Go.str "5432")) := by
  refine ⟨_, rfl, by decide, by decide⟩

end JDBCCollector

end HertzBeat
