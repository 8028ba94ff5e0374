import HertzBeat.Collect.HTTPCollector
import HertzBeat.Collect.JDBCCollector
import HertzBeat.Collect.MilvusCollector
import HertzBeat.Collect.RedisInfo
import HertzBeat.Collect.ScriptOutput
import HertzBeat.Lib.Duration

/-!
# One timeout for every collector

The timeout of a target is a string that each collector reads by itself. Those of SSH, JDBC and
Redis take a duration or a number of milliseconds, the first two trying the duration first and the
last one the number; those of HTTP and Milvus know numbers only, and another default.

A timeout means the same to the three that take durations
(`HertzBeat.Timeouts.timeoutOf_eq_getTimeout`), and one that is a number means the same to all
five.
-/

namespace HertzBeat

open Go (Str)

namespace Timeouts

/-- What a collector that tries the number first makes of a timeout is what one that tries the
duration first makes of it. -/
theorem parseTimeout_eq {parseDuration : Str → Option ℤ} (h : Go.ParsesDurations parseDuration)
    (default : ℤ) (s : Str) :
    Go.parseTimeout parseDuration default s =
      if s = [] then default
      else (((Go.atoi s).map fun t => Go.wrap64 (t * Go.millisecond)) <|>
        parseDuration s).getD default := by
  have hzero : Go.wrap64 (0 * Go.millisecond) = 0 := by decide
  rw [Go.parseTimeout, h.orElse_atoi (f := fun t => Go.wrap64 (t * Go.millisecond)) hzero]

section Collectors

variable (ssh : SSHCollector.Env) (jdbc : JDBCCollector.Env) (redis : RedisCollector.Env)

/-- **A timeout means the same to every collector that takes durations**: the collectors of SSH,
JDBC and Redis give the same duration for every string. -/
theorem timeoutOf_eq_getTimeout (h : Go.ParsesDurations ssh.parseDuration)
    (hjdbc : jdbc.parseDuration = ssh.parseDuration)
    (hredis : redis.parseDuration = ssh.parseDuration) (s : Str) :
    JDBCCollector.getTimeout jdbc s = SSHCollector.getTimeout ssh s ∧
      RedisCollector.timeoutOf redis s = SSHCollector.getTimeout ssh s := by
  constructor
  · rw [JDBCCollector.getTimeout, SSHCollector.getTimeout, hjdbc]
  · rw [RedisCollector.timeoutOf, SSHCollector.getTimeout, hredis, parseTimeout_eq h]

/-- **A timeout that is a number means the same to every collector.** -/
theorem getTimeout_of_atoi (h : Go.ParsesDurations ssh.parseDuration) {s : Str} {n : ℤ}
    (hn : Go.atoi s = some n) :
    SSHCollector.getTimeout ssh s = Go.wrap64 (n * Go.millisecond) ∧
      HTTPCollector.getTimeout s = Go.wrap64 (n * Go.millisecond) ∧
      MilvusCollector.timeoutOf s = Go.wrap64 (n * Go.millisecond) := by
  have hne : s ≠ [] := by
    rintro rfl
    have hnone : Go.atoi [] = none := rfl
    exact absurd (hn.symm.trans hnone) (by simp)
  refine ⟨?_, ?_, ?_⟩
  · rw [SSHCollector.getTimeout, parseTimeout_eq h, if_neg hne, hn]
    rfl
  · rw [HTTPCollector.getTimeout, if_neg hne, hn]
  · rw [MilvusCollector.timeoutOf, if_neg hne, hn]

end Collectors

/-- Reads nought, and one duration besides. -/
def parseNinetySeconds (s : Str) : Option ℤ :=
  if (Go.signs.map (· ++ Go.str "0")).contains s then some 0
  else if s = Go.str "1m30s" then some (90 * Go.second)
  else none

theorem parsesDurations_parseNinetySeconds : Go.ParsesDurations parseNinetySeconds where
  accepts := by
    intro s d h
    rw [parseNinetySeconds] at h
    split at h
    · next hmem =>
      obtain ⟨sign, hsign, rfl⟩ := List.mem_map.mp (List.contains_iff_mem.mp hmem)
      exact ⟨sign, hsign, _, rfl, .inl rfl⟩
    · split at h
      · next heq =>
        have hseconds : Go.AreUnits (Go.str "30" ++ Go.str "s") :=
          .one (.whole (by decide) (List.all_iff_forall_prop.mp rfl)) (by decide)
        have hminute : Go.AreUnits (Go.str "1" ++ Go.str "m" ++ (Go.str "30" ++ Go.str "s")) :=
          .more (.whole (by decide) (List.all_iff_forall_prop.mp rfl)) (by decide) hseconds
        exact ⟨[], List.mem_cons_self, _, heq, .inr hminute⟩
      · contradiction
  nought := fun sign hsign =>
    if_pos (List.contains_iff_mem.mpr (List.mem_map.mpr ⟨sign, hsign, rfl⟩))

/-- A host, a database and a server, with one function that reads durations. -/
def sshEnv : SSHCollector.Env := { SSHCollector.Env.answering 0 with
  parseDuration := parseNinetySeconds }

@[inherit_doc sshEnv]
def jdbcEnv : JDBCCollector.Env :=
  { JDBCCollector.Env.answering ⟨.ok [], [], fun _ => none⟩ 0 with
    parseDuration := parseNinetySeconds }

@[inherit_doc sshEnv]
def redisEnv : RedisCollector.Env := { RedisCollector.Env.answering [] 0 with
  parseDuration := parseNinetySeconds }

/-- A duration, and a number that is none. -/
theorem timeoutOf_eq_getTimeout_ninety :
    SSHCollector.getTimeout sshEnv (Go.str "1m30s") = 90 * Go.second ∧
      RedisCollector.timeoutOf redisEnv (Go.str "1m30s") = 90 * Go.second ∧
      JDBCCollector.getTimeout jdbcEnv (Go.str "-0") = 0 ∧
      RedisCollector.timeoutOf redisEnv (Go.str "-0") = 0 := by
  have h := timeoutOf_eq_getTimeout sshEnv jdbcEnv redisEnv parsesDurations_parseNinetySeconds
    rfl rfl
  refine ⟨by decide +kernel, ?_, ?_, ?_⟩
  · rw [(h (Go.str "1m30s")).2]
    decide +kernel
  · rw [(h (Go.str "-0")).1]
    decide +kernel
  · rw [(h (Go.str "-0")).2]
    decide +kernel

end Timeouts

end HertzBeat
