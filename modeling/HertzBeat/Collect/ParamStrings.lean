import HertzBeat.Collect.CollectMetrics

/-!
# The two strings of a parameter

An entry of a job's configuration is turned into a string twice: by `createParamMapSimple`, for the
replacement before the metrics are collected, and by `CollectMetrics`, for the one after. The first
prints a number of the type for numbers as a plain decimal, the second prints every value with `%v`.
So a number has two strings if `%v` takes the exponent form for it: from a million on, or below
`0.0001`. All other values have one, `HertzBeat.MetricsCollector.lookup_mergeConfigmap_eq_iff`.
-/

namespace HertzBeat

open Go (Str StrMap Value)

namespace MetricsCollector

/-- The string of a configuration entry that `CollectMetrics` merges into the configuration map of a
metric. -/
def mergedString (param : Configmap) : Str :=
  match param.value with
  | .null => []
  | v => v.sprint

/-- The entry is a number, of the type for numbers, that `%v` prints in the exponent form. -/
def InExponentForm (config : Configmap) : Prop :=
  config.type = 0 ∧
    ∃ x, config.value = .float x ∧ (x.point - 1 < -4 ∨ 6 ≤ x.point - 1)

/-- The string of a value that is not a number of the type for numbers. -/
theorem paramString_eq_mergedString {config : Configmap}
    (h : config.type = 0 → ∀ x, config.value ≠ .float x) :
    Replacer.paramString config = mergedString config := by
  obtain ⟨key, value, type, option⟩ := config
  unfold Replacer.paramString mergedString
  cases value with
  | float x =>
    have htype : type ≠ 0 := fun h0 => h h0 x rfl
    simp [htype]
  | int n =>
    by_cases htype : type = 0
    · simp [htype, Value.sprint]
    · simp [htype]
  | _ => rfl

/-- **The two strings of an entry are the same, unless it is a number in the exponent form.** -/
theorem mergedString_eq_paramString_iff (config : Configmap) :
    mergedString config = Replacer.paramString config ↔ ¬InExponentForm config := by
  by_cases hnumber : config.type = 0 ∧ ∃ x, config.value = .float x
  · obtain ⟨htype, x, hvalue⟩ := hnumber
    have hmerged : mergedString config = x.formatG := by simp [mergedString, hvalue, Value.sprint]
    have hparam : Replacer.paramString config = x.formatF := by
      simp [Replacer.paramString, hvalue, htype]
    rw [hmerged, hparam, x.formatG_eq_formatF_iff, InExponentForm, hvalue]
    simp [htype]
  · rw [paramString_eq_mergedString fun htype x hvalue => hnumber ⟨htype, x, hvalue⟩]
    refine iff_of_true rfl ?_
    rintro ⟨htype, x, hvalue, -⟩
    exact hnumber ⟨htype, x, hvalue⟩

theorem lookup_mergeConfigmap (metrics : Metrics Option) {job : Job} {pre suf : List Configmap}
    {config : Configmap} (hjob : job.configmap = some (pre ++ config :: suf))
    (hlast : config.key ∉ suf.map (·.key)) :
    (mergeConfigmap metrics job).configMap.bind (·.lookup config.key) =
      some (mergedString config) := by
  have hmerge : (mergeConfigmap metrics job).configMap = some ((job.configmap.getD []).foldl
      (fun m param => m.insert param.key (mergedString param)) (metrics.configMap.getD ∅)) := rfl
  rw [hmerge, hjob, Option.getD_some, Option.bind_some, List.foldl_append, List.foldl_cons,
    Go.lookup_foldl_insert_of_notMem hlast, AList.lookup_insert]

theorem lookup_createParamMapSimple {pre suf : List Configmap} {config : Configmap}
    (hlast : config.key ∉ suf.map (·.key)) :
    (Replacer.createParamMapSimple (pre ++ config :: suf)).lookup config.key =
      some (Replacer.paramString config) := by
  rw [Replacer.createParamMapSimple, List.foldl_append, List.foldl_cons,
    Go.lookup_foldl_insert_of_notMem hlast, AList.lookup_insert]

/-- **The two strings of a parameter**: of the entry that counts for a key, the one that is last,
the map of `CollectMetrics` and that of `createParamMapSimple` have the same string, exactly if it
is not a number in the exponent form. -/
theorem lookup_mergeConfigmap_eq_iff (metrics : Metrics Option) {job : Job}
    {pre suf : List Configmap} {config : Configmap}
    (hjob : job.configmap = some (pre ++ config :: suf))
    (hlast : config.key ∉ suf.map (·.key)) :
    (mergeConfigmap metrics job).configMap.bind (·.lookup config.key) =
        (Replacer.createParamMapSimple (job.configmap.getD [])).lookup config.key ↔
      ¬InExponentForm config := by
  rw [lookup_mergeConfigmap metrics hjob hlast, hjob, Option.getD_some,
    lookup_createParamMapSimple hlast, Option.some.injEq, mergedString_eq_paramString_iff]

/-- A job with a limit in its configuration that is a power of ten with `point` digits. -/
def limitJob (point : ℤ) : Job :=
  { Job.bare 7 true 60 with
    configmap := some
      [{ key := Go.str "limit", value := .float (.powerOfTen point), type := 0 }] }

theorem lookup_mergeConfigmap_limit :
    (mergeConfigmap (.bare (Go.str "basic") (Go.str "http")) (limitJob 6)).configMap.bind
        (·.lookup (Go.str "limit")) =
      (Replacer.createParamMapSimple ((limitJob 6).configmap.getD [])).lookup (Go.str "limit") := by
  refine (@lookup_mergeConfigmap_eq_iff (.bare (Go.str "basic") (Go.str "http")) (limitJob 6)
    [] [] _ rfl (by simp)).mpr ?_
  rintro ⟨-, x, hx, hlarge⟩
  cases hx
  exact absurd hlarge (by decide)

/-- **A limit of a million** is `1000000` in the one map and `1e+06` in the other. -/
theorem lookup_mergeConfigmap_limit_ne :
    (mergeConfigmap (.bare (Go.str "basic") (Go.str "http")) (limitJob 7)).configMap.bind
        (·.lookup (Go.str "limit")) = some (Go.str "1e+06") ∧
      (Replacer.createParamMapSimple ((limitJob 7).configmap.getD [])).lookup (Go.str "limit") =
        some (Go.str "1000000") := by
  constructor <;> rfl

end MetricsCollector

end HertzBeat
