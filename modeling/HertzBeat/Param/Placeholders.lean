import HertzBeat.Lib.Template
import HertzBeat.Param.Replacer
import Mathlib.Data.List.Sublists

/-!
# Does the order of the parameters matter?

`replaceParamPlaceholders` replaces one parameter after the other, each in the
whole string that the ones before it have left, in the arbitrary order in which a
map is visited. The delimiters of a placeholder are not told apart – both are
`^_^` – and a value is searched again by the parameters that come after its own. So
the order shows: in `^_^a^_^b^_^` both `^_^a^_^` and `^_^b^_^` occur, and whichever is
taken first destroys the other (`HertzBeat.Replacer.not_orderFree_shared_delimiter`).

It does not show on templates that can be read in one way only. A *reading* cuts
the template into text and placeholders, and it is unambiguous when, whatever
parameters have been put in already, the placeholder of any other one is found at
its own places and nowhere else: `HertzBeat.Replacer.Separated`. Every order then
fills in the reading (`HertzBeat.Replacer.orderFree_of_separated`).
-/

namespace HertzBeat

open Go (Str StrMap RangeOrder)

open Template (Token render fill Apart)

namespace Replacer

/-- **The order does not matter**: two executions that visit the map differently
return the same string. -/
def OrderFree (template : Str) (paramMap : StrMap) : Prop :=
  ∀ o o' : RangeOrder,
    replaceParamPlaceholders o template paramMap = replaceParamPlaceholders o' template paramMap

/-- The parameters the loop does not skip. -/
def named (params : List (Σ _ : Str, Str)) : List (Σ _ : Str, Str) :=
  params.filter fun param => param.1 ≠ []

/-- **The template can be read in one way only**: cut into text and placeholders, it has
the placeholder of every parameter at its own places and nowhere else, and still so
after any of the other parameters were put in. -/
def Separated (template : Str) (paramMap : StrMap) : Prop :=
  ∃ ts : List (Token Str UInt8), render placeholder ts = template ∧
    ∀ S ∈ (named paramMap.entries).sublists, ∀ param ∈ named paramMap.entries, param ∉ S →
      Apart placeholder param.1 [] (fill (S.dlookup ·) ts)

theorem foldl_replaceParam (params : List (Σ _ : Str, Str)) (template : Str) :
    params.foldl replaceParam template =
      (named params).foldl (fun s e => Go.replaceAll s (placeholder e.1) e.2) template := by
  rw [named, List.foldl_filter]
  congr 1
  funext result param
  by_cases hname : param.1 = [] <;> simp [replaceParam, hname]

theorem nodupKeys_named (paramMap : StrMap) : (named paramMap.entries).NodupKeys :=
  List.NodupKeys.sublist List.filter_sublist paramMap.nodupKeys

/-- A separated template is filled, in whatever order the parameters come. What has
been put in by the time a parameter is reached depends on the order only as a list:
up to its order it is one of the sublists the condition speaks of. -/
theorem foldl_replaceParam_of_perm {params : List (Σ _ : Str, Str)} {paramMap : StrMap}
    (hperm : params.Perm paramMap.entries) {ts : List (Token Str UInt8)}
    (hts : ∀ S ∈ (named paramMap.entries).sublists, ∀ param ∈ named paramMap.entries, param ∉ S →
      Apart placeholder param.1 [] (fill (S.dlookup ·) ts)) :
    params.foldl replaceParam (render placeholder ts) =
      render placeholder (fill ((named paramMap.entries).dlookup ·) ts) := by
  have hnamed : (named params).Perm (named paramMap.entries) := hperm.filter _
  have hkeys : (named params).NodupKeys := (List.perm_nodupKeys hnamed).mpr (nodupKeys_named _)
  have hlookup : ∀ S S' : List (Σ _ : Str, Str), S.NodupKeys → S.Perm S' →
      (fun a => S.dlookup a) = fun a => S'.dlookup a := by
    intro S S' hS hSS'
    funext a
    exact List.perm_dlookup a hS hSS'
  rw [foldl_replaceParam, Template.foldl_replaceAll, hlookup _ _ hkeys hnamed]
  · exact fun param _ => placeholder_ne_nil param.1
  · rintro S param T hsplit
    have hsub : S.Sublist (named params) := hsplit ▸ List.sublist_append_left S _
    -- the parameters put in so far, listed as the map lists them
    obtain ⟨S', hS', hsub'⟩ : S.Subperm (named paramMap.entries) :=
      hsub.subperm.trans hnamed.subperm
    have hnew : param ∉ S := by
      have hnodup := hkeys.nodup
      rw [hsplit, List.nodup_append] at hnodup
      exact fun hmem => hnodup.2.2 param hmem param (by simp) rfl
    rw [hlookup S S' (hkeys.sublist hsub) hS'.symm]
    refine hts S' (List.mem_sublists.mpr hsub') param ?_ fun hmem => hnew (hS'.mem_iff.mp hmem)
    exact hnamed.mem_iff.mp (by simp [hsplit])

/-- **Where a template can be read in one way only, the order of the parameters does
not matter.** -/
theorem orderFree_of_separated {template : Str} {paramMap : StrMap}
    (h : Separated template paramMap) : OrderFree template paramMap := by
  obtain ⟨ts, rfl, hts⟩ := h
  intro o o'
  unfold replaceParamPlaceholders
  split_ifs
  · rfl
  · rfl
  · rw [foldl_replaceParam_of_perm (o.visit_perm paramMap) hts,
      foldl_replaceParam_of_perm (o'.visit_perm paramMap) hts]

/-- The parameter map of a job with two string entries. -/
def twoParams (a va b vb : String) : StrMap :=
  createParamMapSimple
    [{ key := Go.str a, value := .str (Go.str va), type := 1 },
      { key := Go.str b, value := .str (Go.str vb), type := 1 }]

/-- A URL with a host and a port has the same value in every order. -/
theorem orderFree_url :
    OrderFree (Go.str "http://^_^host^_^:^_^port^_^/") (twoParams "host" "::1" "port" "8080") := by
  refine orderFree_of_separated ⟨[.lit (Go.str "http://"), .ph (Go.str "host"),
    .lit (Go.str ":"), .ph (Go.str "port"), .lit (Go.str "/")], ?_, ?_⟩ <;> decide

/-- **Two placeholders may share a delimiter.** Then the one that is replaced first
takes it away from the other: `1b^_^` in one order, `^_^a2` in the other. -/
theorem not_orderFree_shared_delimiter :
    ¬OrderFree (Go.str "^_^a^_^b^_^") (twoParams "a" "1" "b" "2") := by
  intro h
  exact absurd (h RangeOrder.listed RangeOrder.reversed) (by decide)

end Replacer

end HertzBeat
