import HertzBeat.Types.Job

/-!
# Collected data

`CollectRepMetricsData` of `internal/types/job/metrics_types.go`, what a collection returns,
with the constants of `internal/constants` that it is made of. A row of values is the list of
its columns. A map that is nil and one that is empty are the same here: nothing that is
modelled tells them apart.
-/

namespace HertzBeat

open Go (Str StrMap)

/-- The codes of a collection. -/
inductive CollectCode where
  | success
  | unavailable
  | unReachable
  | unConnectable
  | fail
  deriving DecidableEq, Repr

/-- The number of a code. -/
def CollectCode.number : CollectCode → ℤ
  | .success => 0
  | .unavailable => 1
  | .unReachable => 2
  | .unConnectable => 3
  | .fail => 4

/-- The value that stands for none. -/
def nullValue : Str := Go.str "&nbsp;"

/-- The field that the response time is put into. -/
def responseTimeKey : Str := Go.str "responseTime"

/-- The field that the status code is put into. -/
def statusCodeKey : Str := Go.str "statusCode"

/-- The types of fields that are treated in their own way. -/
def typeNumber : ℤ := 0

/-- The type of string fields. -/
def typeString : ℤ := 1

/-- The result of a collection. -/
structure CollectRepMetricsData where
  id : ℤ := 0
  monitorId : ℤ := 0
  tenantId : ℤ := 0
  app : Str := []
  metrics : Str
  priority : ℤ := 0
  time : ℤ
  code : CollectCode
  msg : Str
  fields : List Field := []
  values : List (List Str) := []
  labels : StrMap := ∅
  metadata : StrMap := ∅

/-- `createFailResponse` of the collectors. -/
def createFailResponse (metrics : Metrics Option) (now : ℤ) (code : CollectCode) (msg : Str) :
    CollectRepMetricsData where
  metrics := metrics.name
  time := now
  code := code
  msg := msg

/-- `createSuccessResponse` of the collectors. -/
def createSuccessResponse (metrics : Metrics Option) (now : ℤ) : CollectRepMetricsData where
  metrics := metrics.name
  time := now
  code := .success
  msg := Go.str "success"

/-- The fields of a response whose names are given, all of the type of strings. -/
def stringFields (names : List Str) : List Field :=
  names.map fun name => { field := name, type := typeString }

/-- The aliases of the fields of a metric. -/
def Metrics.aliases (metrics : Metrics Option) : List Str := metrics.aliasFields.getD []

end HertzBeat
