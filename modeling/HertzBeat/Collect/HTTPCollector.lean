import HertzBeat.Lib.Strings
import HertzBeat.Lib.Text
import HertzBeat.Types.CollectData

/-!
# The HTTP collector

`internal/protocol/basic/http/http_collector.go`. What the code asks of its libraries and of
the target is a parameter, `HertzBeat.HTTPCollector.Env`: making a request out of a URL,
sending it, and decoding the answer. The target may answer anything.

Two things can panic in a collection, and are modelled as such: reading the configuration
where there is none, and writing a column that a row does not have. A third, reading the
request that answers a digest challenge, is excluded by what `net/url` documents of the
strings it makes (`HertzBeat.HTTPCollector.Env.newRequest_string`).
-/

namespace HertzBeat

open Go (Str StrMap Value Text RangeOrder)

namespace HTTPCollector

/-- A request, with a URL that was parsed. -/
structure Request (URL : Type) where
  method : Str
  url : URL
  header : Go.Map Str Str
  /-- Empty for a request without a body. -/
  body : Str

/-- The response of the target. -/
structure Response where
  statusCode : ℤ
  /-- `Header.Get`. -/
  header : Str → Str
  /-- What reading the whole body gives. -/
  body : Except Str Str
  /-- What reading it gives after it was read and closed. -/
  closedBody : Except Str Str

/-- A metric of the text format of Prometheus. Its values are as `%f` prints them. -/
structure PromMetric where
  label : List (Str × Str)
  gauge : Option Str
  counter : Option Str
  untyped : Option Str

/-- The libraries and the target of a collection. -/
structure Env (URL : Type) where
  text : Text
  /-- `http.NewRequest`, of a method, a URL and a body. -/
  newRequest : Str → Str → Str → Except Str (Request URL)
  /-- `URL.String`. -/
  string : URL → Str
  /-- `URL.RequestURI`. -/
  requestURI : URL → Str
  /-- The URL with some parameters added to its query. -/
  addQuery : URL → StrMap → URL
  /-- The form in which the key of a header is kept. -/
  canonicalKey : Str → Str
  /-- The value of the header that `SetBasicAuth` sets. -/
  basicAuth : Str → Str → Str
  /-- `md5Hex`. -/
  md5Hex : Str → Str
  /-- `generateCnonce`. -/
  cnonce : Str
  /-- `client.Do` with a timeout, the first time and the second. -/
  exchange : ℤ → ℕ → Request URL → Except Str Response
  /-- Decoding JSON, with numbers left as they are written. -/
  decodeJSON : Str → Option Value
  /-- `TextToMetricFamilies`, in the order in which the map is visited. -/
  textToMetricFamilies : Str → Except Str (List (List PromMetric))
  order : RangeOrder
  now : ℤ
  responseTime : ℤ
  /-- The URL of a request is reassembled into a valid URL, and so is one with a query
  added. -/
  newRequest_string : ∀ {method s body r}, newRequest method s body = .ok r →
    (∃ r', newRequest r.method (string r.url) r.body = .ok r') ∧
      ∀ params, ∃ r', newRequest r.method (string (addQuery r.url params)) r.body = .ok r'

variable {URL : Type} (env : Env URL)

/-! ### The request -/

/-- `Header.Set`. -/
def Request.setHeader (req : Request URL) (key value : Str) : Request URL :=
  { req with header := req.header.insert (env.canonicalKey key) value }

/-- The method of a configuration. -/
def requestMethod (config : HTTPProtocol Option) : Str :=
  let method := env.text.toUpper config.method
  if method = [] then Go.str "GET" else method

/-- The headers of a configuration are set. -/
def setHeaders (config : HTTPProtocol Option) (req : Request URL) : Request URL :=
  (env.order.visit (config.headers.getD ∅)).foldl (fun req h => req.setHeader env h.1 h.2) req

/-- The authorization that needs no challenge. -/
def authorize (config : HTTPProtocol Option) (req : Request URL) : Request URL :=
  match config.authorization with
  | none => req
  | some auth =>
    if auth.type = [] ∨ env.text.equalFold auth.type (Go.str "Basic Auth") then
      if auth.basicAuthUsername ≠ [] ∧ auth.basicAuthPassword ≠ [] then
        req.setHeader env (Go.str "Authorization")
          (env.basicAuth auth.basicAuthUsername auth.basicAuthPassword)
      else req
    else if env.text.equalFold auth.type (Go.str "Bearer Token") ∧ auth.bearerTokenToken ≠ [] then
      req.setHeader env (Go.str "Authorization") (Go.str "Bearer " ++ auth.bearerTokenToken)
    else req

/-- The parameters of a configuration are added to the query. -/
def addParams (config : HTTPProtocol Option) (req : Request URL) : Request URL :=
  let params := config.params.getD ∅
  if params.entries = [] then req else { req with url := env.addQuery req.url params }

/-- `createRequest`. -/
def createRequest (config : HTTPProtocol Option) (targetURL : Str) : Except Str (Request URL) :=
  (env.newRequest (requestMethod env config) targetURL config.body).map fun req =>
    addParams env config (authorize env config (setHeaders env config req))

/-- The URL that a configuration leads to; empty when there is none. -/
def targetURL (metrics : Metrics Option) (config : HTTPProtocol Option) : Str :=
  let schema := if (Go.parseBool config.ssl).getD false then Go.str "https" else Go.str "http"
  let configMap := metrics.configMap.getD ∅
  let host := (configMap.lookup (Go.str "host")).getD []
  let port := (configMap.lookup (Go.str "port")).getD []
  let url := if config.url = [] ∧ host ≠ [] ∧ port ≠ [] then
      schema ++ Go.str "://" ++ host ++ Go.str ":" ++ port
    else config.url
  if url ≠ [] ∧ !Go.hasPrefix url (Go.str "http") then schema ++ Go.str "://" ++ url else url

/-! ### Digest authentication -/

/-- `strings.Trim` with one byte in the cutset. -/
def trimByte (c : UInt8) (s : Str) : Str := (s.dropWhile (· = c)).rdropWhile (· = c)

/-- `parseAuthHeader`. -/
def parseAuthHeader (header : Str) : StrMap :=
  (Go.split (Go.trimPrefix header (Go.str "Digest ")) (Go.str ",")).foldl (fun result pair =>
    match Go.splitTwo (env.text.trimSpace pair) (Go.str "=") with
    | [key, value] =>
      result.insert (env.text.trimSpace key) (trimByte 34 (env.text.trimSpace value))
    | _ => result) ∅

/-- A parameter of the header, with its value in quotes. -/
def quoted (name value : Str) : Str := name ++ Go.str "=\"" ++ value ++ Go.str "\""

/-- Strings with colons between them. -/
def colons (parts : List Str) : Str := List.intercalate (Go.str ":") parts

/-- The `nc` of a request that is the first with its nonce. -/
def nonceCount : Str := Go.str "00000001"

/-- The value of the header that answers a challenge, or an error. -/
def digestValue (req : Request URL) (authHeader : Str) (auth : Authorization) :
    Except Str Str := do
  let params := parseAuthHeader env authHeader
  let param (name : String) : Str := (params.lookup (Go.str name)).getD []
  let realm := param "realm"
  let nonce := param "nonce"
  let qop := param "qop"
  let algorithm := if param "algorithm" = [] then Go.str "MD5" else param "algorithm"
  if realm = [] ∨ nonce = [] then throw (Go.str "missing realm or nonce in digest header")
  let ha1 := env.md5Hex (colons [auth.digestAuthUsername, realm, auth.digestAuthPassword])
  let uri := env.requestURI req.url
  let ha2 := env.md5Hex (colons [req.method, uri])
  let response ←
    if qop = [] then pure (env.md5Hex (colons [ha1, nonce, ha2]))
    else if Go.contains qop (Go.str "auth") then
      pure (env.md5Hex (colons [ha1, nonce, nonceCount, env.cnonce, Go.str "auth", ha2]))
    else throw (Go.str "unsupported qop: " ++ qop)
  let value := Go.str "Digest " ++ List.intercalate (Go.str ", ")
    [quoted (Go.str "username") auth.digestAuthUsername, quoted (Go.str "realm") realm,
      quoted (Go.str "nonce") nonce, quoted (Go.str "uri") uri,
      quoted (Go.str "response") response, quoted (Go.str "algorithm") algorithm]
  let value := if param "opaque" = [] then value
    else value ++ Go.str ", " ++ quoted (Go.str "opaque") (param "opaque")
  return if qop = [] then value
    else value ++ Go.str ", qop=auth, nc=" ++ nonceCount ++ Go.str ", " ++
      quoted (Go.str "cnonce") env.cnonce

/-- `handleDigestAuth`: the request with which a challenge is answered. -/
def handleDigestAuth (req : Request URL) (authHeader : Str) (auth : Authorization) :
    Except Go.Panic (Except Str (Request URL)) :=
  match digestValue env req authHeader auth with
  | .error err => .ok (.error err)
  | .ok value =>
    match env.newRequest req.method (env.string req.url) req.body with
    -- the error is dropped, and the request is nil
    | .error _ => .error .nilDereference
    | .ok newReq =>
      let newReq := { newReq with
        header := req.header.entries.foldl (fun h (e : Σ _ : Str, Str) => h.insert e.1 e.2)
          newReq.header }
      .ok (.ok (newReq.setHeader env (Go.str "Authorization") value))

/-! ### JSON paths -/

/-- A segment of a path: the key, and the index behind it in brackets. An index that is not a
number counts as `-1`. -/
def parseSegment (part : Str) : Str × ℤ :=
  match Go.index (Go.str "[") part with
  | some i =>
    if Go.hasSuffix part (Go.str "]") then
      -- the brackets are at `i` and at the end
      (part.take i, (Go.atoi ((part.drop (i + 1)).dropLast)).getD (-1))
    else (part, -1)
  | none => (part, -1)

/-- The value that a segment leads to, or nil. -/
def navigateSegment (current : Value) (segment : Str × ℤ) : Value :=
  let value := if segment.1 = [] then current
    else match current with
      | .obj entries => (entries.lookup segment.1).getD .null
      | _ => .null
  if segment.2 < 0 then value
  else match value with
    | .arr values => (values[segment.2.toNat]?).getD .null
    | _ => .null

/-- The loop of `navigateJson`. -/
def navigateParts : Value → List Str → Value
  | current, [] => current
  | .null, _ :: _ => .null
  | current, part :: parts => navigateParts (navigateSegment current (parseSegment part)) parts

/-- `navigateJson`. -/
def navigateJson (data : Value) (path : Str) : Value :=
  let path := Go.trimPrefix path (Go.str "$.")
  if path = [] then data else navigateParts data (Go.split path (Go.str "."))

/-- A column of a row: nil is the null value. -/
def columnOf : Value → Str
  | .null => nullValue
  | v => v.sprint

/-- `extractRow`. -/
def extractRow (item : Value) (fields : List Str) : List Str :=
  fields.map fun field =>
    if env.text.equalFold field responseTimeKey ∨ env.text.equalFold field statusCodeKey then
      nullValue
    else match item with
      | .obj entries =>
        match entries.lookup field with
        | some v => columnOf v
        | none => columnOf (navigateJson item field)
      | _ => nullValue

/-! ### The parsers -/

/-- A column of a Prometheus metric, and whether it has a value. -/
def promColumn (m : PromMetric) (field : Str) : Str × Bool :=
  if field = nullValue then ([], false)
  else if field = Go.str "value" ∨ field = Go.str "prom_value" then
    ((m.gauge <|> m.counter <|> m.untyped).getD [], true)
  else
    -- of two labels with one name the later one counts
    match m.label.reverse.lookup field with
    | some v => (v, true)
    | none => (nullValue, false)

/-- The row of a Prometheus metric, if one of its columns has a value. -/
def promRow (fields : List Str) (m : PromMetric) : Option (List Str) :=
  let columns := fields.map (promColumn m)
  if columns.any Prod.snd then some (columns.map Prod.fst) else none

/-- `parsePrometheus`. -/
def parsePrometheus (body : Str) (metrics : Metrics Option) :
    Except Str CollectRepMetricsData :=
  (env.textToMetricFamilies body).map fun families =>
    { createSuccessResponse metrics env.now with
      values := families.flatten.filterMap (promRow metrics.aliases) }

/-- `parseWebsite`. -/
def parseWebsite (body : Str) (statusCode : ℤ) (metrics : Metrics Option) (keyword : Str) :
    CollectRepMetricsData :=
  let keywordCount := if keyword = [] then 0 else Go.count body keyword
  { createSuccessResponse metrics env.now with
    values := [metrics.aliases.map fun field =>
      if env.text.toLower field = env.text.toLower statusCodeKey then Go.itoa statusCode
      else if env.text.toLower field = env.text.toLower responseTimeKey then
        Go.itoa env.responseTime
      else if env.text.toLower field = Go.str "keyword" then Go.itoa keywordCount
      else nullValue] }

/-- `parseHeader`. -/
def parseHeader (header : Str → Str) (metrics : Metrics Option) : CollectRepMetricsData :=
  { createSuccessResponse metrics env.now with
    values := [metrics.aliases.map fun field =>
      if header field = [] then nullValue else header field] }

/-- The rows of a JSON value: of each element of an array, or of the value itself. -/
def jsonRows (root : Value) (fields : List Str) : List (List Str) :=
  match root with
  | .null => []
  | .arr items => items.map fun item => extractRow env item fields
  | item => [extractRow env item fields]

/-- `parseJsonPath`. A body that is no JSON has no rows. -/
def parseJsonPath (body : Str) (metrics : Metrics Option) (parseScript : Str) :
    CollectRepMetricsData :=
  let response := createSuccessResponse metrics env.now
  match env.decodeJSON body with
  | none => response
  | some data =>
    let root := if parseScript ≠ [] ∧ parseScript ≠ Go.str "$" then navigateJson data parseScript
      else data
    { response with values := jsonRows env root metrics.aliases }

/-- The parser that a configuration asks for. -/
def parseResponse (resp : Response) (body : Str) (metrics : Metrics Option)
    (config : HTTPProtocol Option) : Except Str CollectRepMetricsData :=
  if config.parseType = Go.str "prometheus" then parsePrometheus env body metrics
  else if config.parseType = Go.str "website" then
    .ok (parseWebsite env body resp.statusCode metrics config.keyword)
  else if config.parseType = Go.str "header" then .ok (parseHeader env resp.header metrics)
  else .ok (parseJsonPath env body metrics config.parseScript)

/-! ### The common fields -/

/-- `columns[j] = value`. -/
def setColumn (columns : List Str) (j : ℕ) (value : Str) : Except Go.Panic (List Str) :=
  if j < columns.length then .ok (columns.set j value) else .error .indexOutOfRange

/-- One turn of the inner loop of `fillCommonFields`. -/
def fillColumn (statusCode : ℤ) (columns : List Str) (field : Str × ℕ) :
    Except Go.Panic (List Str) := do
  let columns ←
    if env.text.equalFold field.1 responseTimeKey then
      setColumn columns field.2 (Go.itoa env.responseTime)
    else pure columns
  if env.text.equalFold field.1 statusCodeKey then
    setColumn columns field.2 (Go.itoa statusCode)
  else pure columns

/-- The inner loop of `fillCommonFields`. -/
def fillRow (fields : List Str) (statusCode : ℤ) (columns : List Str) :
    Except Go.Panic (List Str) :=
  fields.zipIdx.foldlM (fillColumn env statusCode) columns

/-- `fillCommonFields`. A response without rows gets one. -/
def fillCommonFields (resp : CollectRepMetricsData) (fields : List Str) (statusCode : ℤ) :
    Except Go.Panic CollectRepMetricsData := do
  let rows := if resp.values = [] then [fields.map fun _ => nullValue] else resp.values
  let values ← rows.mapM (fillRow env fields statusCode)
  return { resp with
    fields := if resp.fields = [] then stringFields fields else resp.fields
    values := values }

/-! ### The collection -/

/-- `getTimeout`. -/
def getTimeout (timeoutStr : Str) : ℤ :=
  if timeoutStr = [] then 10 * Go.second
  else match Go.atoi timeoutStr with
    | some val => Go.wrap64 (val * Go.millisecond)
    | none => 10 * Go.second

/-- The timeout of the client: that of the configuration, or else that of the metric. -/
def clientTimeout (metrics : Metrics Option) (config : HTTPProtocol Option) : ℤ :=
  getTimeout (if config.timeout = [] then metrics.timeout else config.timeout)

/-- The request is sent, and once more to answer a digest challenge. Where that cannot be
answered the first response is kept, with its body read and closed. -/
def exchangeAll (config : HTTPProtocol Option) (timeout : ℤ) (req : Request URL) :
    Except Go.Panic (Except Str Response) :=
  match env.exchange timeout 0 req, config.authorization with
  | .ok resp, some auth =>
    if resp.statusCode = 401 ∧ env.text.equalFold auth.type (Go.str "Digest Auth") then
      let closed : Response := { resp with body := resp.closedBody }
      let authHeader := resp.header (Go.str "WWW-Authenticate")
      if authHeader = [] then .ok (.ok closed)
      else match handleDigestAuth env req authHeader auth with
        | .error p => .error p
        | .ok (.error _) => .ok (.ok closed)
        | .ok (.ok digestReq) => .ok (env.exchange timeout 1 digestReq)
    else .ok (.ok resp)
  | result, _ => .ok result

/-- `Collect`. -/
def collect (metrics : Metrics Option) : Except Go.Panic CollectRepMetricsData :=
  match metrics.http with
  | none => .error .nilDereference
  | some config =>
    let fail (code : CollectCode) (msg : Str) : Except Go.Panic CollectRepMetricsData :=
      .ok (createFailResponse metrics env.now code msg)
    let url := targetURL metrics config
    if url = [] then fail .fail (Go.str "target URL is empty")
    else match createRequest env config url with
      | .error err => fail .fail (Go.str "failed to create request: " ++ err)
      | .ok req =>
        match exchangeAll env config (clientTimeout metrics config) req with
        | .error p => .error p
        | .ok (.error err) => fail .unReachable (Go.str "request failed: " ++ err)
        | .ok (.ok resp) =>
          match resp.body with
          | .error err => fail .fail (Go.str "failed to read body: " ++ err)
          | .ok body =>
            match parseResponse env resp body metrics config with
            | .error err => fail .fail (Go.str "parse error: " ++ err)
            | .ok response => fillCommonFields env response metrics.aliases resp.statusCode

/-! ### A collection with a configuration does not panic -/

section

variable {env} {metrics : Metrics Option} {config : HTTPProtocol Option}

/-- The headers leave the rest of the request as it is. -/
theorem setHeaders_eq (req : Request URL) :
    (setHeaders env config req).method = req.method ∧
      (setHeaders env config req).url = req.url ∧
      (setHeaders env config req).body = req.body := by
  unfold setHeaders
  -- by induction on the headers that are left
  generalize env.order.visit (config.headers.getD ∅) = headers
  induction headers generalizing req with
  | nil => exact ⟨rfl, rfl, rfl⟩
  | cons h headers ih => exact ih (req.setHeader env h.1 h.2)

/-- So does the authorization. -/
theorem authorize_eq (req : Request URL) :
    (authorize env config req).method = req.method ∧
      (authorize env config req).url = req.url ∧
      (authorize env config req).body = req.body := by
  unfold authorize
  repeat' split
  all_goals exact ⟨rfl, rfl, rfl⟩

/-- The request that was made can be made again. -/
theorem newRequest_of_createRequest {url : Str} {req : Request URL}
    (h : createRequest env config url = .ok req) :
    ∃ r, env.newRequest req.method (env.string req.url) req.body = .ok r := by
  unfold createRequest at h
  cases hnew : env.newRequest (requestMethod env config) url config.body with
  | error err => simp [hnew, Except.map] at h
  | ok req₀ =>
    rw [hnew] at h
    obtain rfl := Except.ok.inj h
    obtain ⟨hplain, hquery⟩ := env.newRequest_string hnew
    obtain ⟨hmethod, hurl, hbody⟩ := @setHeaders_eq _ env config req₀
    obtain ⟨hmethod', hurl', hbody'⟩ := @authorize_eq _ env config (setHeaders env config req₀)
    simp only [addParams]
    split_ifs
    · rw [hmethod', hurl', hbody', hmethod, hurl, hbody]
      exact hplain
    · rw [hmethod', hurl', hbody', hmethod, hurl, hbody]
      exact hquery _

theorem handleDigestAuth_eq_ok {url : Str} {req : Request URL}
    (h : createRequest env config url = .ok req) (authHeader : Str) (auth : Authorization) :
    ∃ result, handleDigestAuth env req authHeader auth = .ok result := by
  obtain ⟨r, hr⟩ := newRequest_of_createRequest h
  unfold handleDigestAuth
  split
  · exact ⟨_, rfl⟩
  · rw [hr]
    exact ⟨_, rfl⟩

theorem exchangeAll_eq_ok {url : Str} {req : Request URL}
    (h : createRequest env config url = .ok req) (timeout : ℤ) :
    ∃ result, exchangeAll env config timeout req = .ok result := by
  unfold exchangeAll
  split
  · next resp auth _ _ =>
    simp only
    split_ifs
    · exact ⟨_, rfl⟩
    · obtain ⟨result, hresult⟩ :=
        handleDigestAuth_eq_ok h (resp.header (Go.str "WWW-Authenticate")) auth
      rw [hresult]
      cases result <;> exact ⟨_, rfl⟩
    · exact ⟨_, rfl⟩
  · exact ⟨_, rfl⟩

/-- A column of the row can be written. -/
theorem fillColumn_eq_ok {statusCode : ℤ} {columns : List Str} {field : Str × ℕ}
    (h : field.2 < columns.length) :
    ∃ columns', fillColumn env statusCode columns field = .ok columns' ∧
      columns'.length = columns.length := by
  unfold fillColumn
  by_cases hrt : env.text.equalFold field.1 responseTimeKey = true <;>
    by_cases hsc : env.text.equalFold field.1 statusCodeKey = true <;>
    simp [hrt, hsc, setColumn, h, bind, Except.bind, pure, Except.pure]

theorem fillRow_eq_ok {fields : List Str} {statusCode : ℤ} {columns : List Str}
    (h : columns.length = fields.length) :
    ∃ columns', fillRow env fields statusCode columns = .ok columns' ∧
      columns'.length = fields.length := by
  refine Go.exists_foldlM_eq_ok (fun columns hlen field hfield => ?_) h
  have hlt : field.2 < columns.length := by
    rw [hlen]
    exact (List.mem_zipIdx' hfield).1
  obtain ⟨columns', hok, hlen'⟩ := @fillColumn_eq_ok _ env statusCode columns field hlt
  exact ⟨columns', hok, hlen'.trans hlen⟩

/-- **Rows of the right length are filled**, and stay so. -/
theorem fillCommonFields_eq_ok {response : CollectRepMetricsData} {fields : List Str}
    (h : ∀ row ∈ response.values, row.length = fields.length) (statusCode : ℤ) :
    ∃ response', fillCommonFields env response fields statusCode = .ok response' ∧
      ∀ row ∈ response'.values, row.length = fields.length := by
  have hrows : ∀ row ∈ (if response.values = [] then [fields.map fun _ => nullValue]
      else response.values), row.length = fields.length := by
    split_ifs
    · simp
    · exact h
  obtain ⟨values, hvalues, hlen⟩ := Go.exists_mapM_eq_ok fun row hrow =>
    @fillRow_eq_ok _ env fields statusCode row (hrows row hrow)
  refine ⟨{ response with
    fields := if response.fields = [] then stringFields fields else response.fields
    values := values }, ?_, hlen⟩
  simp only [fillCommonFields]
  rw [hvalues]
  rfl

theorem length_of_mem_jsonRows {root : Value} {fields : List Str} {row : List Str}
    (h : row ∈ jsonRows env root fields) : row.length = fields.length := by
  unfold jsonRows at h
  split at h
  · simp at h
  · obtain ⟨item, -, rfl⟩ := List.mem_map.mp h
    simp [extractRow]
  · obtain rfl := List.mem_singleton.mp h
    simp [extractRow]

theorem length_of_promRow {fields : List Str} {m : PromMetric} {row : List Str}
    (h : promRow fields m = some row) : row.length = fields.length := by
  simp only [promRow] at h
  split at h
  · obtain rfl := Option.some.inj h
    simp
  · simp at h

/-- **Every parser gives rows with a column for each alias.** -/
theorem length_of_parseResponse {resp : Response} {body : Str} {response : CollectRepMetricsData}
    (h : parseResponse env resp body metrics config = .ok response) :
    ∀ row ∈ response.values, row.length = metrics.aliases.length := by
  intro row hrow
  unfold parseResponse at h
  split_ifs at h
  · unfold parsePrometheus at h
    cases hfamilies : env.textToMetricFamilies body with
    | error err => simp [hfamilies, Except.map] at h
    | ok families =>
      rw [hfamilies] at h
      obtain rfl := Except.ok.inj h
      obtain ⟨m, -, hm⟩ := List.mem_filterMap.mp hrow
      exact length_of_promRow hm
  · obtain rfl := Except.ok.inj h
    obtain rfl := List.mem_singleton.mp hrow
    simp
  · obtain rfl := Except.ok.inj h
    obtain rfl := List.mem_singleton.mp hrow
    simp
  · obtain rfl := Except.ok.inj h
    unfold parseJsonPath at hrow
    split at hrow
    · simp [createSuccessResponse] at hrow
    · exact length_of_mem_jsonRows hrow

/-- **A collection with a configuration returns**, whatever the target answers. -/
theorem collect_eq_ok (h : metrics.http = some config) :
    ∃ response, collect env metrics = .ok response := by
  unfold collect
  simp only [h]
  split_ifs
  · exact ⟨_, rfl⟩
  · split
    · exact ⟨_, rfl⟩
    · next req hreq =>
      obtain ⟨result, hresult⟩ := exchangeAll_eq_ok hreq (clientTimeout metrics config)
      rw [hresult]
      cases result with
      | error err => exact ⟨_, rfl⟩
      | ok resp =>
        simp only
        split
        · exact ⟨_, rfl⟩
        · split
          · exact ⟨_, rfl⟩
          · next response hparsed =>
            obtain ⟨response', hok, -⟩ :=
              @fillCommonFields_eq_ok _ env _ _ (length_of_parseResponse hparsed) resp.statusCode
            exact ⟨response', hok⟩

/-- Without one it panics. -/
theorem collect_eq_error (h : metrics.http = none) :
    collect env metrics = .error .nilDereference := by
  unfold collect
  rw [h]

end

end HTTPCollector

end HertzBeat
