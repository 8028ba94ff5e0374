import HertzBeat.Lib.Strings
import HertzBeat.Types.Job

/-!
# The parameter replacer

`internal/util/param`, as far as it computes strings: the parameter map made of a
job's configuration, and the replacement of the placeholders `^_^name^_^` in a
string and in the string fields of the protocol configurations.

The replacement of one string is a loop over the parameter map, so what it returns
may depend on the order in which the map is visited. Every call of it in the code
makes its own visit, and the orders of two of them have nothing to do with each
other: a function that replaces several fields hands the orders of its `k`-th call
on as `o.at k`.

Which records are written, and which of them other jobs share, is the subject of
`HertzBeat.Param.JobStore`.
-/

namespace HertzBeat

open Go (Str StrMap Value RangeOrder)

namespace Replacer

/-! ### The parameter map -/

/-- The string of a configuration entry. -/
def paramString (config : Configmap) : Str :=
  match config.value, config.type with
  | .null, _ => []
  | .float x, 0 => x.formatF
  | .int n, 0 => Go.itoa n
  | v, _ => v.sprint

/-- `createParamMapSimple`: of two entries with one key the later one counts. -/
def createParamMapSimple (configmap : List Configmap) : StrMap :=
  configmap.foldl (fun paramMap config => paramMap.insert config.key (paramString config)) ∅

/-! ### One string -/

/-- What a placeholder starts and ends with. -/
def delimiter : Str := Go.str "^_^"

/-- The placeholder of a parameter. -/
def placeholder (paramName : Str) : Str := delimiter ++ paramName ++ delimiter

/-- One turn of the loop over the parameter map. -/
def replaceParam (result : Str) (param : Σ _ : Str, Str) : Str :=
  if param.1 = [] then result else Go.replaceAll result (placeholder param.1) param.2

/-- `replaceParamPlaceholders`. -/
def replaceParamPlaceholders (o : RangeOrder) (template : Str) (paramMap : StrMap) : Str :=
  if template = [] then []
  else if !Go.contains template delimiter then template
  else (o.visit paramMap).foldl replaceParam template

theorem placeholder_ne_nil (paramName : Str) : placeholder paramName ≠ [] := by
  have hdelim : delimiter ≠ [] := by decide
  simp [placeholder, hdelim]

/-! ### The fields of a record -/

/-- The string fields that `replaceSSHParams` replaces: all of them. -/
def replaceSSHParams (o : RangeOrder) (ssh : SSHProtocol) (paramMap : StrMap) : SSHProtocol where
  host := replaceParamPlaceholders (o.at 0) ssh.host paramMap
  port := replaceParamPlaceholders (o.at 1) ssh.port paramMap
  username := replaceParamPlaceholders (o.at 2) ssh.username paramMap
  password := replaceParamPlaceholders (o.at 3) ssh.password paramMap
  privateKey := replaceParamPlaceholders (o.at 4) ssh.privateKey paramMap
  privateKeyPassphrase := replaceParamPlaceholders (o.at 5) ssh.privateKeyPassphrase paramMap
  script := replaceParamPlaceholders (o.at 6) ssh.script paramMap
  parseType := replaceParamPlaceholders (o.at 7) ssh.parseType paramMap
  parseScript := replaceParamPlaceholders (o.at 8) ssh.parseScript paramMap
  timeout := replaceParamPlaceholders (o.at 9) ssh.timeout paramMap
  reuseConnection := replaceParamPlaceholders (o.at 10) ssh.reuseConnection paramMap
  useProxy := replaceParamPlaceholders (o.at 11) ssh.useProxy paramMap
  proxyHost := replaceParamPlaceholders (o.at 12) ssh.proxyHost paramMap
  proxyPort := replaceParamPlaceholders (o.at 13) ssh.proxyPort paramMap
  proxyUsername := replaceParamPlaceholders (o.at 14) ssh.proxyUsername paramMap
  proxyPassword := replaceParamPlaceholders (o.at 15) ssh.proxyPassword paramMap
  proxyPrivateKey := replaceParamPlaceholders (o.at 16) ssh.proxyPrivateKey paramMap

/-- The part of `replaceJDBCParams` and `replaceRedisParams` that writes the SSH tunnel.
`enable` is not replaced. -/
def replaceTunnelParams (o : RangeOrder) (tunnel : SSHTunnel) (paramMap : StrMap) : SSHTunnel :=
  { tunnel with
    host := replaceParamPlaceholders (o.at 0) tunnel.host paramMap
    port := replaceParamPlaceholders (o.at 1) tunnel.port paramMap
    username := replaceParamPlaceholders (o.at 2) tunnel.username paramMap
    password := replaceParamPlaceholders (o.at 3) tunnel.password paramMap }

variable {Ptr : Type → Type}

/-- The part of `replaceJDBCParams` that writes the record itself. -/
def replaceJDBCParams (o : RangeOrder) (jdbc : JDBCProtocol Ptr) (paramMap : StrMap) :
    JDBCProtocol Ptr :=
  { jdbc with
    host := replaceParamPlaceholders (o.at 0) jdbc.host paramMap
    port := replaceParamPlaceholders (o.at 1) jdbc.port paramMap
    platform := replaceParamPlaceholders (o.at 2) jdbc.platform paramMap
    username := replaceParamPlaceholders (o.at 3) jdbc.username paramMap
    password := replaceParamPlaceholders (o.at 4) jdbc.password paramMap
    database := replaceParamPlaceholders (o.at 5) jdbc.database paramMap
    timeout := replaceParamPlaceholders (o.at 6) jdbc.timeout paramMap
    queryType := replaceParamPlaceholders (o.at 7) jdbc.queryType paramMap
    sql := replaceParamPlaceholders (o.at 8) jdbc.sql paramMap
    url := replaceParamPlaceholders (o.at 9) jdbc.url paramMap
    reuseConnection := replaceParamPlaceholders (o.at 10) jdbc.reuseConnection paramMap }

/-- The part of `replaceRedisParams` that writes the record itself. -/
def replaceRedisParams (o : RangeOrder) (redis : RedisProtocol Ptr) (paramMap : StrMap) :
    RedisProtocol Ptr :=
  { redis with
    host := replaceParamPlaceholders (o.at 0) redis.host paramMap
    port := replaceParamPlaceholders (o.at 1) redis.port paramMap
    username := replaceParamPlaceholders (o.at 2) redis.username paramMap
    password := replaceParamPlaceholders (o.at 3) redis.password paramMap
    pattern := replaceParamPlaceholders (o.at 4) redis.pattern paramMap
    timeout := replaceParamPlaceholders (o.at 5) redis.timeout paramMap }

/-- The part of `replaceHTTPParams` that writes strings of the record itself. -/
def replaceHTTPParams (o : RangeOrder) (http : HTTPProtocol Ptr) (paramMap : StrMap) :
    HTTPProtocol Ptr :=
  { http with
    url := replaceParamPlaceholders (o.at 0) http.url paramMap
    method := replaceParamPlaceholders (o.at 1) http.method paramMap
    body := replaceParamPlaceholders (o.at 2) http.body paramMap
    parseScript := replaceParamPlaceholders (o.at 3) http.parseScript paramMap
    parseType := replaceParamPlaceholders (o.at 4) http.parseType paramMap
    keyword := replaceParamPlaceholders (o.at 5) http.keyword paramMap
    timeout := replaceParamPlaceholders (o.at 6) http.timeout paramMap
    ssl := replaceParamPlaceholders (o.at 7) http.ssl paramMap }

/-- The map that `replaceHTTPParams` puts in place of the headers, and of the params:
keys that come out empty, or with a delimiter still in them, are dropped. -/
def replaceHTTPMap (o : RangeOrder) (entries paramMap : StrMap) : StrMap :=
  (((o.at 0).visit entries).zipIdx).foldl (fun new e =>
    let newKey := replaceParamPlaceholders ((o.at 1).at e.2) e.1.1 paramMap
    -- two keys may come out alike; the one visited later stays
    if newKey ≠ [] ∧ !Go.contains newKey delimiter then
      new.insert newKey (replaceParamPlaceholders ((o.at 2).at e.2) e.1.2 paramMap)
    else new) ∅

/-- The part of `replaceHTTPParams` that writes the authorization. -/
def replaceAuthorizationParams (o : RangeOrder) (auth : Authorization) (paramMap : StrMap) :
    Authorization where
  type := replaceParamPlaceholders (o.at 0) auth.type paramMap
  basicAuthUsername := replaceParamPlaceholders (o.at 1) auth.basicAuthUsername paramMap
  basicAuthPassword := replaceParamPlaceholders (o.at 2) auth.basicAuthPassword paramMap
  digestAuthUsername := replaceParamPlaceholders (o.at 3) auth.digestAuthUsername paramMap
  digestAuthPassword := replaceParamPlaceholders (o.at 4) auth.digestAuthPassword paramMap
  bearerTokenToken := replaceParamPlaceholders (o.at 5) auth.bearerTokenToken paramMap

/-- The part of `replaceBasicMetricsParams` that writes the metrics themselves. -/
def replaceBasicMetricsParams (o : RangeOrder) (metrics : Metrics Ptr) (paramMap : StrMap) :
    Metrics Ptr :=
  { metrics with
    host := replaceParamPlaceholders (o.at 0) metrics.host paramMap
    port := replaceParamPlaceholders (o.at 1) metrics.port paramMap
    timeout := replaceParamPlaceholders (o.at 2) metrics.timeout paramMap
    range := replaceParamPlaceholders (o.at 3) metrics.range paramMap }

/-- The values that `replaceBasicMetricsParams` writes into the metrics' own
configuration map; its keys stay. -/
def replaceConfigMap (o : RangeOrder) (configMap paramMap : StrMap) : StrMap :=
  (((o.at 0).visit configMap).zipIdx).foldl (fun new e =>
    new.insert e.1.1 (replaceParamPlaceholders ((o.at 1).at e.2) e.1.2 paramMap)) configMap

end Replacer

end HertzBeat
