import HertzBeat.Lib.Go

/-!
# The configuration of a collector

`internal/config/config.go` and the types of `internal/types/config/config_types.go`, as far as the
command `server` of `internal/cmd/server.go` uses them: the file is decoded, the values that are
missing are filled in, and the result is checked. Decoding the file is a parameter. The port of the
metrics server is left out: no modelled function reads it.
-/

namespace HertzBeat

open Go (Str)

/-- How the collector presents itself. -/
structure CollectorInfo where
  ip : Str := []
  name : Str := []
  port : Str := []
  deriving DecidableEq, Repr

/-- Where the manager is. -/
structure ManagerConfig where
  host : Str := []
  port : Str := []
  protocol : Str := []
  deriving DecidableEq, Repr

/-- A configuration. -/
structure CollectorConfig where
  info : CollectorInfo := {}
  logLevel : Str := []
  manager : ManagerConfig := {}
  identity : Str := []
  mode : Str := []
  deriving DecidableEq, Repr

namespace Loader

/-- A value, or what stands in for one that is missing. -/
def orDefault (value default : Str) : Str := if value = [] then default else value

/-- A value that was filled in is there. -/
theorem orDefault_orDefault (value default : Str) :
    orDefault (orDefault value default) default = orDefault value default := by
  unfold orDefault
  split_ifs <;> rfl

/-- `applyDefaults`. -/
def applyDefaults (cfg : CollectorConfig) : CollectorConfig :=
  { cfg with
    info := { cfg.info with name := orDefault cfg.info.name (Go.str "hertzbeat-collector") }
    logLevel := orDefault cfg.logLevel (Go.str "info")
    manager := { cfg.manager with protocol := orDefault cfg.manager.protocol (Go.str "http") } }

/-- `LoadConfig`, of a path and what decoding the file at it gives. -/
def loadConfig (parse : Str → Except Str CollectorConfig) (cfgPath : Str) :
    Except Str CollectorConfig :=
  if cfgPath = [] then .error (Go.str "config path is required")
  else (parse cfgPath).map applyDefaults

/-- `ValidateConfig`, with the name that it may fill in. -/
def validateConfig (cfg : CollectorConfig) : Except Str CollectorConfig :=
  if cfg.info.ip = [] then .error (Go.str "collector ip is empty")
  else if cfg.info.port = [] then .error (Go.str "collector port is empty")
  else .ok { cfg with
    info := { cfg.info with name := orDefault cfg.info.name (Go.str "hertzbeat-collector") } }

/-- `getConfigByPath`. -/
def getConfigByPath (parse : Str → Except Str CollectorConfig) (cfgPath : Str) :
    Except Str CollectorConfig := do
  let cfg ← loadConfig parse cfgPath
  validateConfig cfg

/-- What the collector runs with is what stands in the file, with the defaults filled in. -/
theorem getConfigByPath_eq_ok {parse : Str → Except Str CollectorConfig} {cfgPath : Str}
    {cfg : CollectorConfig} (h : getConfigByPath parse cfgPath = .ok cfg) :
    ∃ file, parse cfgPath = .ok file ∧ cfg = applyDefaults file := by
  obtain ⟨loaded, hload, hvalid⟩ := Go.bind_eq_ok.mp h
  unfold loadConfig at hload
  split_ifs at hload with hpath
  obtain ⟨file, hfile, rfl⟩ := Go.map_eq_ok.mp hload
  refine ⟨file, hfile, ?_⟩
  unfold validateConfig at hvalid
  split_ifs at hvalid with hip hport
  obtain rfl := Except.ok.inj hvalid
  -- the name is there already
  simp only [applyDefaults, orDefault_orDefault]

end Loader

end HertzBeat
