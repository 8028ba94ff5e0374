import HertzBeat.Collect.HTTPCollector
import HertzBeat.Lib.Printed

/-!
# Paths into a JSON value

The HTTP collector finds its values in an answer by paths such as `$.data[0].name`. A path is never
built as data: it is a string, which is cut at the dots while the value is walked through, and each
part of it is searched for brackets.

Here a path is data, a list of `HertzBeat.HTTPCollector.Segment`, and
`HertzBeat.HTTPCollector.resolve` says where it leads. Printed as a string it leads to the same
place (`HertzBeat.HTTPCollector.navigateJson_printPath`). What is cut and indexed on the way is
always in range, for strings that are no paths too: `HertzBeat.HTTPCollector.navigateJsonChecked`
makes the checks that the source leaves to its run-time system, and none of them fails.
-/

namespace HertzBeat

open Go (Str Value Panic)

namespace HTTPCollector

/-! ### Paths -/

/-- **A segment of a path**: a key, an index, or a key with an index. The empty key stands for none.
-/
structure Segment where
  key : Str
  index : Option ℕ
  dot : 46 ∉ key
  bracket : 91 ∉ key
  named : key = [] → index ≠ none
  bounded : ∀ i ∈ index, i < 2 ^ 63

/-- The member of an object. -/
def member (key : Str) : Value → Option Value
  | .obj entries => entries.lookup key
  | _ => none

/-- The element of an array. -/
def element (i : ℕ) : Value → Option Value
  | .arr values => values[i]?
  | _ => none

namespace Segment

/-- The segment as it is written. -/
def print (segment : Segment) : Str :=
  segment.key ++ segment.index.elim [] fun i => 91 :: (Go.itoa i ++ [93])

/-- What the segment selects: the member that it names, and of this the element. -/
def select (segment : Segment) (v : Value) : Option Value :=
  (if segment.key = [] then some v else member segment.key v).bind fun v =>
    segment.index.elim (some v) fun i => element i v

end Segment

/-- The path as it is written. -/
def printPath (segments : List Segment) : Str :=
  Go.str "$." ++ [46].intercalate (segments.map Segment.print)

/-- **Where a path leads**, if there is something at each of its segments. -/
def resolve (segments : List Segment) (v : Value) : Option Value :=
  segments.foldlM (fun v segment => segment.select v) v

/-! ### Segments that are read -/

section Segments

variable (segment : Segment)

theorem digits_ne {b : UInt8} (hb : b < 48 ∨ 57 < b) (i : ℕ) : b ∉ Go.itoa i := by
  rw [Go.itoa_natCast]
  intro hmem
  have hdigit := Go.mem_digits hmem
  rcases hb with hb | hb
  · exact absurd hdigit.1 (UInt8.not_le.mpr hb)
  · exact absurd hdigit.2 (UInt8.not_le.mpr hb)

theorem print_ne_nil : segment.print ≠ [] := by
  intro hnil
  obtain ⟨hkey, hindex⟩ := List.append_eq_nil_iff.mp hnil
  cases h : segment.index with
  | none => exact segment.named hkey h
  | some i => simp [h] at hindex

theorem dot_notMem_print : 46 ∉ segment.print := by
  rw [Segment.print, List.mem_append, not_or]
  refine ⟨segment.dot, ?_⟩
  cases segment.index with
  | none => exact List.not_mem_nil
  | some i =>
    rw [Option.elim_some, List.mem_cons, List.mem_append, List.mem_singleton]
    rintro (h | h | h)
    · exact absurd h (by decide)
    · exact digits_ne (.inl (by decide)) i h
    · exact absurd h (by decide)

/-- What is in brackets is read as a number. -/
theorem parseSegment_brackets {key inner : Str} (hindex :
    Go.index (Go.str "[") (key ++ 91 :: (inner ++ [93])) = some key.length) :
    parseSegment (key ++ 91 :: (inner ++ [93])) = (key, (Go.atoi inner).getD (-1)) := by
  have hsuffix : Go.hasSuffix (key ++ 91 :: (inner ++ [93])) (Go.str "]") := by
    refine Go.hasSuffix_iff_suffix.mpr ⟨key ++ 91 :: inner, ?_⟩
    rw [List.append_assoc, List.cons_append]
    rfl
  have hdrop : (key ++ 91 :: (inner ++ [93])).drop (key.length + 1) = inner ++ [93] := by
    rw [← List.drop_drop, List.drop_left, List.drop_one, List.tail_cons]
  rw [parseSegment, hindex]
  simp only [hsuffix, if_true, List.take_left, hdrop, List.dropLast_concat]

/-- **A segment is read as it was written.** -/
theorem parseSegment_print :
    parseSegment segment.print = (segment.key, segment.index.elim (-1) fun i => (i : ℤ)) := by
  cases hindex : segment.index with
  | none =>
    have hnone : Go.index (Go.str "[") segment.key = none := Go.index_of_notMem segment.bracket
    rw [Segment.print, hindex, Option.elim_none, List.append_nil, parseSegment, hnone]
    rfl
  | some i =>
    rw [Segment.print, hindex, Option.elim_some,
      parseSegment_brackets (Go.index_append_cons segment.bracket),
      Go.atoi_itoa (segment.bounded i hindex)]
    rfl

theorem navigateSegment_neg (v : Value) (key : Str) :
    navigateSegment v (key, -1) = (if key = [] then some v else member key v).getD .null := by
  unfold navigateSegment
  dsimp only
  rw [if_pos (by decide)]
  split_ifs
  · rfl
  · cases v <;> rfl

/-- The element is selected from what the key leads to. -/
theorem navigateSegment_natCast (v : Value) (key : Str) (i : ℕ) :
    navigateSegment v (key, i) =
      (element i ((if key = [] then some v else member key v).getD .null)).getD .null := by
  have hvalue := navigateSegment_neg v key
  unfold navigateSegment at hvalue ⊢
  dsimp only at hvalue ⊢
  rw [if_pos (by decide)] at hvalue
  rw [if_neg (by simp), hvalue, Int.toNat_natCast]
  generalize (if key = [] then some v else member key v).getD .null = w
  cases w <;> rfl

/-- A segment leads to what it selects. -/
theorem navigateSegment_print (v : Value) :
    navigateSegment v (parseSegment segment.print) = (segment.select v).getD .null := by
  rw [parseSegment_print, Segment.select]
  cases segment.index with
  | none =>
    rw [Option.elim_none, navigateSegment_neg]
    cases (if segment.key = [] then some v else member segment.key v) <;> rfl
  | some i =>
    rw [Option.elim_some, navigateSegment_natCast]
    cases (if segment.key = [] then some v else member segment.key v) <;> rfl

/-- There is nothing to be selected from null. -/
theorem select_null : segment.select .null = none := by
  rw [Segment.select]
  split_ifs with hkey
  · obtain ⟨i, hi⟩ := Option.ne_none_iff_exists'.mp (segment.named hkey)
    rw [hi]
    rfl
  · rfl

end Segments

/-! ### Paths that are walked -/

section Paths

theorem resolve_cons (segment : Segment) (segments : List Segment) (v : Value) :
    resolve (segment :: segments) v = (segment.select v).bind (resolve segments) :=
  List.foldlM_cons

theorem resolve_append (p q : List Segment) (v : Value) :
    resolve (p ++ q) v = (resolve p v).bind (resolve q) :=
  List.foldlM_append

/-- From null every path leads to null. -/
theorem resolve_null (segments : List Segment) : (resolve segments .null).getD .null = .null := by
  cases segments with
  | nil => rfl
  | cons segment segments =>
    rw [resolve_cons, select_null]
    rfl

/-- To give up at a segment is to go on from null. -/
theorem resolve_getD (segments : List Segment) (o : Option Value) :
    (resolve segments (o.getD .null)).getD .null = (o.bind (resolve segments)).getD .null := by
  cases o with
  | none => exact resolve_null segments
  | some v => rfl

/-- **The parts of a path lead where its segments lead.** -/
theorem navigateParts_print (segments : List Segment) (v : Value) :
    navigateParts v (segments.map Segment.print) = (resolve segments v).getD .null := by
  induction segments generalizing v with
  | nil => rw [List.map_nil, navigateParts, resolve]; rfl
  | cons segment segments ih =>
    have hstep : navigateParts v ((segment :: segments).map Segment.print) =
        navigateParts ((segment.select v).getD .null) (segments.map Segment.print) := by
      cases v with
      | null =>
        rw [select_null, Option.getD_none, ih, resolve_null]
        rfl
      | _ =>
        rw [← navigateSegment_print]
        rfl
    rw [hstep, ih, resolve_getD, resolve_cons]

theorem split_printPath {segments : List Segment} (hne : segments ≠ []) :
    Go.split ([46].intercalate (segments.map Segment.print)) (Go.str ".") =
      segments.map Segment.print := by
  apply Go.split_intercalate
  · intro part hpart
    obtain ⟨segment, -, rfl⟩ := List.mem_map.mp hpart
    exact dot_notMem_print segment
  · simpa using hne

/-- **A path that is written leads where it is to lead.** -/
theorem navigateJson_printPath_eq {segments : List Segment} (hne : segments ≠ []) (v : Value) :
    navigateJson v (printPath segments) = (resolve segments v).getD .null := by
  have hsplit := split_printPath hne
  have hpath : [46].intercalate (segments.map Segment.print) ≠ [] := by
    intro hnil
    obtain ⟨segment, segments, rfl⟩ := List.exists_cons_of_ne_nil hne
    rw [hnil] at hsplit
    exact print_ne_nil segment (List.cons.inj hsplit).1.symm
  rw [navigateJson, printPath, Go.trimPrefix_append, if_neg hpath, hsplit, navigateParts_print]

end Paths

/-! ### What is cut and indexed -/

/-- `s[low:high]`. -/
def slice (s : Str) (low high : ℤ) : Except Panic Str :=
  if 0 ≤ low ∧ low ≤ high ∧ high ≤ s.length then .ok ((s.take high.toNat).drop low.toNat)
  else .error .indexOutOfRange

/-- `values[i]`. -/
def elementAt (values : List Value) (i : ℤ) : Except Panic Value :=
  match if 0 ≤ i then values[i.toNat]? else none with
  | some v => .ok v
  | none => .error .indexOutOfRange

/-- The segment of a part, with the checks of its two slices. -/
def parseSegmentChecked (part : Str) : Except Panic (Str × ℤ) :=
  match Go.index (Go.str "[") part with
  | some i =>
    if Go.hasSuffix part (Go.str "]") then do
      let key ← slice part 0 i
      let idxStr ← slice part (i + 1) (part.length - 1)
      return (key, (Go.atoi idxStr).getD (-1))
    else .ok (part, -1)
  | none => .ok (part, -1)

/-- The value that a segment leads to, with the check of its index. -/
def navigateSegmentChecked (current : Value) (segment : Str × ℤ) : Except Panic Value :=
  let value := if segment.1 = [] then current
    else match current with
      | .obj entries => (entries.lookup segment.1).getD .null
      | _ => .null
  if segment.2 ≤ -1 then .ok value
  else match value with
    | .arr values => if segment.2 < values.length then elementAt values segment.2 else .ok .null
    | _ => .ok .null

/-- The loop of `navigateJson`, with the checks of each turn. -/
def navigatePartsChecked : Value → List Str → Except Panic Value
  | current, [] => .ok current
  | .null, _ :: _ => .ok .null
  | current, part :: parts => do
    let segment ← parseSegmentChecked part
    let next ← navigateSegmentChecked current segment
    navigatePartsChecked next parts

/-- **`navigateJson` with the checks of the run-time system**: a slice or an index that is out of
range panics. -/
def navigateJsonChecked (data : Value) (path : Str) : Except Panic Value :=
  let path := Go.trimPrefix path (Go.str "$.")
  if path = [] then .ok data else navigatePartsChecked data (Go.split path (Go.str "."))

section Checked

/-- A part with a bracket that ends with the other one has something, or nothing, in brackets. -/
theorem exists_brackets {part : Str} {i : ℕ} (hindex : Go.index (Go.str "[") part = some i)
    (hsuffix : Go.hasSuffix part (Go.str "]")) :
    ∃ key inner, part = key ++ 91 :: (inner ++ [93]) ∧ key.length = i := by
  obtain ⟨key, rest, hpart, hlen⟩ : ∃ key rest, part = key ++ 91 :: rest ∧ key.length = i :=
    Go.exists_of_index_eq_some hindex
  obtain ⟨front, hfront⟩ : [93] <:+ part := Go.hasSuffix_iff_suffix.mp hsuffix
  have hlast : part.getLast? = some 93 := by
    rw [← hfront]
    exact List.getLast?_concat
  rcases List.eq_nil_or_concat rest with rfl | ⟨inner, c, rfl⟩
  -- the bracket that opens does not close
  · rw [hpart, List.getLast?_concat] at hlast
    exact absurd hlast (by decide)
  · rw [hpart, List.concat_eq_append, ← List.cons_append, ← List.append_assoc,
      List.getLast?_concat] at hlast
    obtain rfl := Option.some.inj hlast
    exact ⟨key, inner, by rw [hpart, List.concat_eq_append], hlen⟩

theorem slice_append (s t u : Str) :
    slice (s ++ (t ++ u)) s.length (s.length + t.length) = .ok t := by
  have hbounds : (0 : ℤ) ≤ s.length ∧ (s.length : ℤ) ≤ s.length + t.length ∧
      (s.length + t.length : ℤ) ≤ (s ++ (t ++ u)).length := by
    rw [List.length_append, List.length_append]
    omega
  have htake : (s ++ (t ++ u)).take (s.length + t.length) = s ++ t := by
    rw [← List.append_assoc, ← List.length_append, List.take_left]
  rw [slice, if_pos hbounds, ← Nat.cast_add, Int.toNat_natCast, Int.toNat_natCast, htake,
    List.drop_left]

/-- The slices of a part are within it. -/
theorem parseSegmentChecked_eq (part : Str) :
    parseSegmentChecked part = .ok (parseSegment part) := by
  cases hindex : Go.index (Go.str "[") part with
  | none =>
    rw [parseSegmentChecked, parseSegment, hindex]
  | some i =>
    by_cases hsuffix : Go.hasSuffix part (Go.str "]")
    · obtain ⟨key, inner, rfl, rfl⟩ := exists_brackets hindex hsuffix
      have hkey : slice (key ++ 91 :: (inner ++ [93])) 0 key.length = .ok key := by
        have h := slice_append [] key (91 :: (inner ++ [93]))
        rwa [List.length_nil, Nat.cast_zero, zero_add] at h
      have hinner : slice (key ++ 91 :: (inner ++ [93])) (key.length + 1)
          ((key ++ 91 :: (inner ++ [93])).length - 1) = .ok inner := by
        have h := slice_append (key ++ [91]) inner [93]
        have hlow : ((key ++ [91]).length : ℤ) = key.length + 1 := by simp
        have hhigh : (key.length + 1 + inner.length : ℤ) =
            (key ++ 91 :: (inner ++ [93])).length - 1 := by
          simp only [List.length_append, List.length_cons, List.length_nil]
          omega
        rwa [List.append_assoc, List.singleton_append, hlow, hhigh] at h
      rw [parseSegment_brackets hindex, parseSegmentChecked, hindex]
      simp only [hsuffix, if_true, hkey, hinner, bind, Except.bind, pure, Except.pure]
    · rw [parseSegmentChecked, parseSegment, hindex]
      simp only [hsuffix, Bool.false_eq_true, if_false]

/-- An element is taken only from an array that has it. -/
theorem elementAt_eq {values : List Value} {i : ℤ} (hi : 0 ≤ i) (hlt : i < values.length) :
    elementAt values i = .ok ((values[i.toNat]?).getD .null) := by
  have hget := List.getElem?_eq_getElem ((Int.toNat_lt hi).mpr hlt)
  rw [elementAt, if_pos hi, hget]
  rfl

theorem navigateSegmentChecked_eq (v : Value) (segment : Str × ℤ) :
    navigateSegmentChecked v segment = .ok (navigateSegment v segment) := by
  unfold navigateSegmentChecked navigateSegment
  dsimp only
  generalize (if segment.1 = [] then v else _) = w
  by_cases hneg : segment.2 < 0
  · rw [if_pos hneg, if_pos (by omega)]
  · rw [if_neg hneg, if_neg (by omega)]
    cases w with
    | arr values =>
      dsimp only
      split_ifs with hlt
      · exact elementAt_eq (Int.not_lt.mp hneg) hlt
      · rw [List.getElem?_eq_none (by omega)]
        rfl
    | _ => rfl

theorem navigatePartsChecked_eq (v : Value) (parts : List Str) :
    navigatePartsChecked v parts = .ok (navigateParts v parts) := by
  induction parts generalizing v with
  | nil => rw [navigatePartsChecked, navigateParts]
  | cons part parts ih =>
    cases v with
    | null => rfl
    | _ =>
      simp only [navigatePartsChecked, navigateParts, parseSegmentChecked_eq,
        navigateSegmentChecked_eq, bind, Except.bind, ih]

/-- **Nothing that is cut or indexed is out of range**, whatever the path. -/
theorem navigateJsonChecked_eq (v : Value) (path : Str) :
    navigateJsonChecked v path = .ok (navigateJson v path) := by
  rw [navigateJsonChecked, navigateJson]
  split_ifs with hpath
  · rfl
  · exact navigatePartsChecked_eq v _

end Checked

/-- **A path that is written leads where it is to lead**, and a path that is continued leads on from
where it led before. No string at all makes the walk cut or index anything out of range. -/
theorem navigateJson_printPath :
    (∀ (v : Value) (segments : List Segment), segments ≠ [] →
        navigateJson v (printPath segments) = (resolve segments v).getD .null) ∧
      (∀ (v : Value) (p q : List Segment), p ≠ [] → q ≠ [] →
        navigateJson v (printPath (p ++ q)) =
          navigateJson (navigateJson v (printPath p)) (printPath q)) ∧
      ∀ (v : Value) (path : Str), navigateJsonChecked v path = .ok (navigateJson v path) := by
  refine ⟨fun v segments hne => navigateJson_printPath_eq hne v, ?_, navigateJsonChecked_eq⟩
  intro v p q hp hq
  have hpq : p ++ q ≠ [] := by simp [hp]
  rw [navigateJson_printPath_eq hpq, navigateJson_printPath_eq hp, navigateJson_printPath_eq hq,
    resolve_getD, resolve_append]

/-- The path `$.data[1]`, and on to `name`. -/
def nameSegments : List Segment × List Segment :=
  ([⟨Go.str "data", some 1, by decide, by decide, by decide, by decide⟩],
    [⟨Go.str "name", none, by decide, by decide, by decide, by decide⟩])

/-- An answer with two items. -/
def itemsValue : Value :=
  .obj [(Go.str "data", .arr [.null, .obj [(Go.str "name", .str (Go.str "a"))]])]

theorem navigateJson_printPath_name :
    printPath (nameSegments.1 ++ nameSegments.2) = Go.str "$.data[1].name" ∧
      navigateJson itemsValue (Go.str "$.data[1].name") = .str (Go.str "a") ∧
      navigateJson itemsValue (Go.str "$.data[1].name") =
        navigateJson (navigateJson itemsValue (Go.str "$.data[1]")) (Go.str "$.name") ∧
      navigateJsonChecked itemsValue (Go.str "$.data[1].name") = .ok (.str (Go.str "a")) := by
  have hprint : printPath (nameSegments.1 ++ nameSegments.2) = Go.str "$.data[1].name" := by
    rfl
  have hprint₁ : printPath nameSegments.1 = Go.str "$.data[1]" := rfl
  have hprint₂ : printPath nameSegments.2 = Go.str "$.name" := rfl
  have hfound : navigateJson itemsValue (Go.str "$.data[1].name") = .str (Go.str "a") := by
    rw [← hprint, navigateJson_printPath.1 _ _ (by simp [nameSegments])]
    rfl
  refine ⟨hprint, hfound, ?_, ?_⟩
  · rw [← hprint, ← hprint₁, ← hprint₂]
    exact navigateJson_printPath.2.1 _ _ _ (by simp [nameSegments]) (by simp [nameSegments])
  · rw [navigateJson_printPath.2.2, hfound]

end HTTPCollector

end HertzBeat
