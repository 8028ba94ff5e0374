import HertzBeat.Collect.CalculatedRows
import HertzBeat.Lib.Assign

/-!
# The forms of a configuration

The calculations and the units of a metric come in several forms: as strings, as structures, and as
items that are decoded from JSON, each of them a string or a map. The source reads each form with
code of its own. What is read does not depend on the form, and a list of items that continues
another one overrides it key by key: `HertzBeat.Calculator.parse_forms`.

For the last it is enough to know that an item makes assignments and does nothing else with the
maps. Of one field, the maps then hold what its only calculation gives
(`HertzBeat.Calculator.at_parseCalculates`), or nothing if it has none.
-/

namespace HertzBeat

open Go (Str StrMap Value)

namespace Calculator

variable {F Program : Type}

/-! ### Maps in place of structures -/

/-- A map has a string under a key. A string that is empty may be left out. -/
def Holds (entries : List (Str × Value)) (key : String) (s : Str) : Prop :=
  entries.lookup (Go.str key) = some (.str s) ∨ s = [] ∧ entries.lookup (Go.str key) = none

theorem stringAt_of_holds {entries : List (Str × Value)} {key : String} {s : Str}
    (h : Holds entries key s) : stringAt entries key = s := by
  rcases h with h | ⟨rfl, h⟩ <;> rw [stringAt, h]

/-- **A calculation as a map.** -/
def Calculate.ShownBy (calculate : Calculate) (item : Value) : Prop :=
  ∃ entries, item = .obj entries ∧ Holds entries "field" calculate.field ∧
    Holds entries "script" calculate.script ∧ Holds entries "aliasField" calculate.aliasField

/-- **A unit as a map.** -/
def Unit.ShownBy (u : Unit) (item : Value) : Prop :=
  ∃ entries, item = .obj entries ∧ Holds entries "field" u.field ∧ Holds entries "unit" u.unit

section Forms

variable {env : Calculator F Program}

theorem addItem_of_shownBy {calculate : Calculate} {item : Value} (h : calculate.ShownBy item)
    (hfield : calculate.field ≠ []) (maps : FieldMaps Program) :
    addItem env maps item = addCalculate env maps calculate := by
  obtain ⟨entries, rfl, hf, hs, ha⟩ := h
  simp only [addItem_obj, stringAt_of_holds hf, stringAt_of_holds hs, stringAt_of_holds ha,
    if_neg hfield]

theorem addUnitItem_of_shownBy {u : Unit} {item : Value} (h : u.ShownBy item)
    (conversions : Go.Map Str Conversion) :
    addUnitItem env conversions item = addUnit env conversions u := by
  obtain ⟨entries, rfl, hf, hu⟩ := h
  rw [addUnitItem_obj, stringAt_of_holds hf, stringAt_of_holds hu]

/-- Two lists that are read item by item in the same way are read in the same way. -/
theorem foldl_eq_of_forall₂ {α β σ : Type} {R : α → β → Prop} {f : σ → α → σ} {g : σ → β → σ}
    (h : ∀ s a b, R a b → f s a = g s b) {l : List α} {l' : List β} (hl : List.Forall₂ R l l')
    (s : σ) : l.foldl f s = l'.foldl g s := by
  induction hl generalizing s with
  | nil => rfl
  | cons hab _ ih => rw [List.foldl_cons, List.foldl_cons, h s _ _ hab, ih]

end Forms

/-! ### Assignments -/

/-- **A change of the two maps that is nothing but assignments.** -/
def FieldMaps.Assigns (f : FieldMaps Program → FieldMaps Program) : Prop :=
  ∃ g h, Go.Assigns g ∧ Go.Assigns h ∧
    ∀ maps, f maps = { expressions := g maps.expressions, aliases := h maps.aliases }

section Assigns

variable (env : Calculator F Program)

theorem assigns_id : FieldMaps.Assigns (id : FieldMaps Program → FieldMaps Program) :=
  ⟨id, id, Go.assigns_id, Go.assigns_id, fun _ => rfl⟩

theorem assigns_addString (s : Str) : FieldMaps.Assigns fun maps => addString env maps s := by
  unfold addString
  split
  · next field expression _ =>
    have halias : FieldMaps.Assigns fun maps : FieldMaps Program =>
        { maps with aliases := maps.aliases.insert field expression } :=
      ⟨id, _, Go.assigns_id, Go.assigns_insert field expression, fun _ => rfl⟩
    split_ifs
    · exact halias
    · split
      · exact halias
      · next program _ =>
        exact ⟨_, id, Go.assigns_insert field program, Go.assigns_id, fun _ => rfl⟩
  · exact assigns_id

theorem assigns_addCalculate (calculate : Calculate) :
    FieldMaps.Assigns fun maps => addCalculate env maps calculate := by
  have halias : Go.Assigns fun m : StrMap => if calculate.aliasField = [] then m
      else m.insert calculate.field calculate.aliasField := by
    split_ifs
    · exact Go.assigns_id
    · exact Go.assigns_insert _ _
  by_cases hscript : calculate.script = []
  · refine ⟨id, _, Go.assigns_id, halias, fun maps => ?_⟩
    simp only [addCalculate, if_pos hscript]
    split_ifs <;> rfl
  · cases hcompile : env.compile calculate.script with
    | none =>
      refine ⟨id, id, Go.assigns_id, Go.assigns_id, fun maps => ?_⟩
      simp only [addCalculate, if_neg hscript, hcompile]
      rfl
    | some program =>
      refine ⟨_, _, Go.assigns_insert calculate.field program, halias, fun maps => ?_⟩
      simp only [addCalculate, if_neg hscript, hcompile]
      split_ifs <;> rfl

theorem assigns_addItem (item : Value) : FieldMaps.Assigns fun maps => addItem env maps item := by
  cases item with
  | str s =>
    simp only [addItem_str]
    exact assigns_addString env s
  | obj entries =>
    simp only [addItem_obj]
    split_ifs
    · exact assigns_id
    · exact assigns_addCalculate env _
  | _ => exact assigns_id

theorem assigns_addUnitString (unitStr : Str) :
    Go.Assigns fun conversions => addUnitString env conversions unitStr := by
  unfold addUnitString
  split
  · exact Go.assigns_id
  · next conversion _ => exact Go.assigns_insert _ conversion

theorem assigns_addUnitItem (item : Value) :
    Go.Assigns fun conversions => addUnitItem env conversions item := by
  cases item with
  | str s =>
    simp only [addUnitItem_str]
    exact assigns_addUnitString env s
  | obj entries =>
    simp only [addUnitItem_obj, addUnit]
    split_ifs
    · exact Go.assigns_id
    · exact assigns_addUnitString env _
  | _ => exact Go.assigns_id

end Assigns

namespace FieldMaps

theorem Assigns.comp {f g : FieldMaps Program → FieldMaps Program} (hg : Assigns g)
    (hf : Assigns f) : Assigns (g ∘ f) := by
  obtain ⟨f₁, f₂, hf₁, hf₂, hf⟩ := hf
  obtain ⟨g₁, g₂, hg₁, hg₂, hg⟩ := hg
  refine ⟨g₁ ∘ f₁, g₂ ∘ f₂, hg₁.comp hf₁, hg₂.comp hf₂, fun maps => ?_⟩
  rw [Function.comp_apply, hf, hg]
  rfl

theorem assigns_foldl {α : Type} {f : FieldMaps Program → α → FieldMaps Program}
    (h : ∀ a, Assigns fun maps => f maps a) (l : List α) : Assigns fun maps => l.foldl f maps := by
  induction l with
  | nil => exact assigns_id
  | cons a l ih => exact ih.comp (h a)

/-- What was assigned overrides what was there, in both maps. -/
theorem Assigns.lookup {f : FieldMaps Program → FieldMaps Program} (h : Assigns f)
    (maps : FieldMaps Program) (k : Str) :
    (f maps).expressions.lookup k =
        ((f {}).expressions.lookup k).or (maps.expressions.lookup k) ∧
      (f maps).aliases.lookup k = ((f {}).aliases.lookup k).or (maps.aliases.lookup k) := by
  obtain ⟨g₁, g₂, hg₁, hg₂, hf⟩ := h
  rw [hf, hf {}]
  exact ⟨hg₁.lookup _ k, hg₂.lookup _ k⟩

end FieldMaps

/-! ### One calculation after the other -/

/-- A calculation, in either of its forms. -/
inductive Calculation where
  | string (calculate : Str)
  | struct (calculate : Calculate)

namespace Calculation

/-- The field that a calculation is for. -/
def field : Calculation → Option Str
  | string calculate =>
    match splitCalculateString calculate with
    | [field, _] => some field
    | _ => none
  | struct calculate => some calculate.field

/-- The calculation that an item is, if it is one. -/
def ofItem : Value → Option Calculation
  | .str s => some (.string s)
  | .obj entries =>
    if stringAt entries "field" = [] then none
    else some (.struct
      { field := stringAt entries "field", script := stringAt entries "script",
        aliasField := stringAt entries "aliasField" })
  | _ => none

end Calculation

/-- The calculations of a list, whatever their form. -/
def Calculates.toList : Calculates → List Calculation
  | .strings calculates => calculates.map .string
  | .structs calculates => calculates.map .struct
  | .items calculates => calculates.filterMap Calculation.ofItem
  | .other => []

/-- **The only calculation of a field.** -/
structure CalculatedBy (calculates : Calculates) (field : Str) (calculation : Calculation) :
    Prop where
  mem : calculation ∈ calculates.toList
  only : ∀ c ∈ calculates.toList, c.field = some field → c = calculation

/-- What the maps have for a field. -/
def FieldMaps.at (maps : FieldMaps Program) (field : Str) : Option Program × Option Str :=
  (maps.expressions.lookup field, maps.aliases.lookup field)

section Calculation

variable (env : Calculator F Program)

/-- A calculation of either form. -/
def addCalculation (maps : FieldMaps Program) : Calculation → FieldMaps Program
  | .string calculate => addString env maps calculate
  | .struct calculate => addCalculate env maps calculate

theorem addItem_eq (maps : FieldMaps Program) (item : Value) :
    addItem env maps item = (Calculation.ofItem item).elim maps (addCalculation env maps) := by
  cases item with
  | str s => exact addItem_str env maps s
  | obj entries =>
    rw [addItem_obj, Calculation.ofItem]
    split_ifs <;> rfl
  | _ => rfl

/-- Every form of a list is read one calculation after the other. -/
theorem parseCalculates_eq (calculates : Calculates) :
    parseCalculates env calculates = calculates.toList.foldl (addCalculation env) {} := by
  cases calculates with
  | strings l =>
    rw [Calculates.toList, List.foldl_map]
    rfl
  | structs l =>
    rw [Calculates.toList, List.foldl_map]
    rfl
  | items l =>
    rw [parseCalculates, Calculates.toList]
    generalize ({} : FieldMaps Program) = maps
    induction l generalizing maps with
    | nil => rfl
    | cons item l ih =>
      rw [List.foldl_cons, addItem_eq, ih]
      cases hitem : Calculation.ofItem item with
      | none =>
        rw [List.filterMap_cons_none hitem]
        rfl
      | some c =>
        rw [List.filterMap_cons_some hitem]
        rfl
  | other => rfl

theorem assigns_addCalculation (c : Calculation) :
    FieldMaps.Assigns fun maps => addCalculation env maps c := by
  cases c with
  | string s => exact assigns_addString env s
  | struct c => exact assigns_addCalculate env c

variable {env} {field name : Str} {maps : FieldMaps Program} {c : Calculation}

/-- What a calculation gives a field overrides what the field had. -/
theorem at_addCalculation (maps : FieldMaps Program) (c : Calculation) (field : Str) :
    (addCalculation env maps c).at field =
      (((addCalculation env {} c).at field).1.or (maps.at field).1,
        ((addCalculation env {} c).at field).2.or (maps.at field).2) := by
  have h := (assigns_addCalculation env c).lookup maps field
  exact Prod.ext h.1 h.2

theorem at_insert_expression {field' : Str} (h : field ≠ field') (program : Program) :
    FieldMaps.at { maps with expressions := maps.expressions.insert field' program } field =
      maps.at field := by
  rw [FieldMaps.at, AList.lookup_insert_ne h]
  rfl

theorem at_insert_alias {field' : Str} (h : field ≠ field') (name : Str) :
    FieldMaps.at { maps with aliases := maps.aliases.insert field' name } field =
      maps.at field := by
  rw [FieldMaps.at, AList.lookup_insert_ne h]
  rfl

theorem at_addString_of_ne {s : Str} (h : ∀ e, splitCalculateString s ≠ [field, e]) :
    (addString env maps s).at field = maps.at field := by
  unfold addString
  split
  · next field' expression hs =>
    have hne : field ≠ field' := fun heq => h expression (heq ▸ hs)
    split_ifs
    · exact at_insert_alias hne expression
    · split
      · exact at_insert_alias hne expression
      · next program _ => exact at_insert_expression hne program
  · rfl

theorem at_addCalculate_of_ne {calculate : Calculate} (h : field ≠ calculate.field) :
    (addCalculate env maps calculate).at field = maps.at field := by
  unfold addCalculate
  dsimp only
  split_ifs
  · rfl
  · exact at_insert_alias h _
  · split
    · rfl
    · exact at_insert_expression h _
  · split
    · rfl
    · next program _ =>
      exact (at_insert_alias h calculate.aliasField).trans (at_insert_expression h program)

/-- A calculation leaves other fields alone. -/
theorem at_addCalculation_of_ne (h : c.field ≠ some field) :
    (addCalculation env maps c).at field = maps.at field := by
  cases c with
  | string s =>
    refine at_addString_of_ne fun e he => h ?_
    rw [Calculation.field, he]
  | struct c => exact at_addCalculate_of_ne fun heq => h (congrArg some heq.symm)

variable (env) in
/-- The maps have for a field what its only calculation gives. -/
theorem at_parseCalculates {calculates : Calculates} (h : CalculatedBy calculates field c) :
    (parseCalculates env calculates).at field = (addCalculation env {} c).at field := by
  rw [parseCalculates_eq]
  have hstart : ({} : FieldMaps Program).at field = (none, none) := rfl
  refine Go.foldl_hits (FieldMaps.at · field) (· = c)
    (fun c' hc' maps hmaps => ⟨?_, fun hmiss => ?_⟩) (.inr ⟨hstart, c, h.mem, rfl⟩)
  · -- it may come more than once, and then overrides itself
    rintro rfl
    rw [at_addCalculation]
    rcases hmaps with hmaps | hmaps <;> rw [hmaps]
    · rw [Option.or_none, Option.or_none]
    · rw [Option.or_self, Option.or_self]
  · exact at_addCalculation_of_ne fun hfield => hmiss (h.only c' hc' hfield)

/-- A field without a calculation has nothing there. -/
theorem at_parseCalculates_eq_none {calculates : Calculates}
    (h : ∀ c ∈ calculates.toList, c.field ≠ some field) :
    (parseCalculates env calculates).at field = (none, none) := by
  rw [parseCalculates_eq]
  refine List.foldlRecOn _ _ (motive := fun maps => FieldMaps.at maps field = (none, none)) rfl
    fun maps hmaps c hc => ?_
  rw [at_addCalculation_of_ne (h c hc), hmaps]

end Calculation

/-! ### The forms -/

/-- **The form of a configuration does not matter.** Strings are read alike whether they stand in a
list of strings or of items; so are calculations and units, whether they are structures or maps; and
what continues a list of items overrides it, key by key. -/
theorem parse_forms (env : Calculator F Program) :
    (∀ l : List Str, parseCalculates env (.items (l.map Value.str)) =
        parseCalculates env (.strings l)) ∧
      (∀ (items : List Value) (l : List Calculate),
        List.Forall₂ (fun item calculate => calculate.ShownBy item ∧ calculate.field ≠ []) items l →
          parseCalculates env (.items items) = parseCalculates env (.structs l)) ∧
      (∀ l : List Str, parseUnits env (.items (l.map Value.str)) = parseUnits env (.strings l)) ∧
      (∀ (items : List Value) (l : List Unit),
        List.Forall₂ (fun item u => u.ShownBy item) items l →
          parseUnits env (.items items) = parseUnits env (.structs l)) ∧
      (∀ (l l' : List Value) (k : Str),
        (parseCalculates env (.items (l ++ l'))).expressions.lookup k =
            ((parseCalculates env (.items l')).expressions.lookup k).or
              ((parseCalculates env (.items l)).expressions.lookup k) ∧
          (parseCalculates env (.items (l ++ l'))).aliases.lookup k =
            ((parseCalculates env (.items l')).aliases.lookup k).or
              ((parseCalculates env (.items l)).aliases.lookup k)) ∧
      ∀ (l l' : List Value) (k : Str),
        (parseUnits env (.items (l ++ l'))).lookup k =
          ((parseUnits env (.items l')).lookup k).or ((parseUnits env (.items l)).lookup k) := by
  refine ⟨fun l => ?_, fun items l h => ?_, fun l => ?_, fun items l h => ?_, fun l l' k => ?_,
    fun l l' k => ?_⟩
  · exact List.foldl_map
  · exact foldl_eq_of_forall₂ (fun maps _ _ h => addItem_of_shownBy h.1 h.2 maps) h _
  · exact List.foldl_map
  · exact foldl_eq_of_forall₂ (fun conversions _ u (hu : u.ShownBy _) =>
      addUnitItem_of_shownBy hu conversions) h _
  · have happend : parseCalculates env (.items (l ++ l')) =
        l'.foldl (addItem env) (parseCalculates env (.items l)) := List.foldl_append
    rw [happend]
    exact (FieldMaps.assigns_foldl (assigns_addItem env) l').lookup _ k
  · have happend : parseUnits env (.items (l ++ l')) =
        l'.foldl (addUnitItem env) (parseUnits env (.items l)) := List.foldl_append
    rw [happend]
    exact (Go.assigns_foldl (assigns_addUnitItem env) l').lookup _ k

/-- A calculation and a unit, as structures and as maps. -/
theorem parse_forms_maps :
    parseCalculates plainCalculator (.items [.obj [(Go.str "aliasField", .str (Go.str "used")),
        (Go.str "field", .str (Go.str "load"))]]) =
      parseCalculates plainCalculator
        (.structs [{ field := Go.str "load", aliasField := Go.str "used" }]) ∧
      parseUnits plainCalculator (.items [.obj [(Go.str "field", .str (Go.str "load")),
          (Go.str "unit", .str (Go.str "KB->MB"))], .obj []]) =
        parseUnits plainCalculator
          (.structs [{ field := Go.str "load", unit := Go.str "KB->MB" }, {}]) := by
  obtain ⟨-, hcalculates, -, hunits, -⟩ := parse_forms plainCalculator
  refine ⟨hcalculates _ _ (.cons ⟨⟨_, rfl, .inl rfl, .inr ⟨rfl, rfl⟩, .inl rfl⟩, by decide⟩ .nil),
    hunits _ _ (.cons ⟨_, rfl, .inl rfl, .inl rfl⟩
      (.cons ⟨_, rfl, .inr ⟨rfl, rfl⟩, .inr ⟨rfl, rfl⟩⟩ .nil))⟩

end Calculator

end HertzBeat
