import HertzBeat.Lib.Strings
import Mathlib.Data.List.Sigma

/-!
# Filling a template one name at a time

A template is a list of tokens, each of them literal text or the placeholder of a
name, and `Template.render` is the string it stands for. To *fill* it is to put the
values of some names in place of their placeholders, all at once:
`Template.fill`.

A program that only has the string cannot do that. What it can do is to take one
name after the other and replace every occurrence of its placeholder in the string
it has so far. The question of this module is when the two are the same, and the
answer is `Template.Apart`: at each step the reading from the left must find the
placeholder exactly where the template has it. A value put in earlier may contain
the placeholder, or text on the two sides of a token may join to one, and either
would be found too; and an occurrence that overlaps one of the template's own hides
it.

`Template.foldl_replaceAll` is the result: when every step is apart, the steps
together fill the template – in whatever order they were made.
-/

namespace Template

open Go (replaceAll)

variable {ι α : Type*}

/-- A piece of a template. -/
inductive Token (ι α : Type*) where
  /-- Text that stands for itself. -/
  | lit (w : List α)
  /-- The placeholder of a name. -/
  | ph (a : ι)

/-- The string of a token, when `mark a` is the placeholder of `a`. -/
def Token.render (mark : ι → List α) : Token ι α → List α
  | .lit w => w
  | .ph a => mark a

/-- The string of a template. -/
def render (mark : ι → List α) (ts : List (Token ι α)) : List α := ts.flatMap (·.render mark)

/-- Put in the value of a token's name, if there is one. -/
def Token.fill (σ : ι → Option (List α)) : Token ι α → Token ι α
  | .lit w => .lit w
  | .ph a => match σ a with
    | some v => .lit v
    | none => .ph a

/-- Put in all the values there are. -/
def fill (σ : ι → Option (List α)) (ts : List (Token ι α)) : List (Token ι α) :=
  ts.map (·.fill σ)

@[simp] theorem render_nil (mark : ι → List α) : render mark [] = [] := rfl

@[simp] theorem render_cons (mark : ι → List α) (t : Token ι α) (ts : List (Token ι α)) :
    render mark (t :: ts) = t.render mark ++ render mark ts := rfl

@[simp] theorem fill_nil (σ : ι → Option (List α)) : fill σ ([] : List (Token ι α)) = [] := rfl

@[simp] theorem fill_cons (σ : ι → Option (List α)) (t : Token ι α) (ts : List (Token ι α)) :
    fill σ (t :: ts) = t.fill σ :: fill σ ts := rfl

theorem fill_none (ts : List (Token ι α)) : fill (fun _ => none) ts = ts := by
  have hid : (fun t : Token ι α => t.fill fun _ => none) = id := by
    funext t
    cases t <;> rfl
  rw [fill, hid, List.map_id]

/-- Values put in first are not touched by those put in later. -/
theorem fill_fill (σ τ : ι → Option (List α)) (ts : List (Token ι α)) :
    fill τ (fill σ ts) = fill (fun a => (σ a).or (τ a)) ts := by
  rw [fill, fill, fill, List.map_map]
  refine List.map_congr_left ?_
  rintro (w | a) -
  · rfl
  · rcases h : σ a with _ | v <;> simp [Token.fill, h]

section Names

variable [DecidableEq ι]

/-- The assignment of one value to one name. -/
def only (b : ι) (v : List α) : ι → Option (List α) := fun a => if a = b then some v else none

/-- An association list, with the entry `e` looked up after the others. -/
theorem dlookup_snoc (es : List (Σ _ : ι, List α)) (e : Σ _ : ι, List α) (a : ι) :
    (es ++ [e]).dlookup a = (es.dlookup a).or (only e.1 e.2 a) := by
  rw [List.dlookup_append]
  congr 1
  obtain ⟨b, v⟩ := e
  by_cases hab : a = b
  · subst hab
    simp [only]
  · simp [only, hab, List.dlookup_cons_ne]

/-! ### One step -/

variable [DecidableEq α] {mark : ι → List α}

/-- **The placeholder of `b` occurs where the template has it, and only there**, as a
reading from the left finds occurrences. `u` is the text since the last token of `b`:
up to the next one, the placeholder starts neither in the text between nor in a way
that it ends inside that token; and behind the last one it does not occur. -/
def Apart (mark : ι → List α) (b : ι) (u : List α) : List (Token ι α) → Prop
  | [] => ¬mark b <:+: u
  | .lit w :: ts => Apart mark b (u ++ w) ts
  | .ph a :: ts =>
    if a = b then ¬mark b <:+: (u ++ mark b).dropLast ∧ Apart mark b [] ts
    else Apart mark b (u ++ mark a) ts

instance Apart.decidable (mark : ι → List α) (b : ι) (u : List α) (ts : List (Token ι α)) :
    Decidable (Apart mark b u ts) := by
  induction ts generalizing u with
  | nil => exact inferInstanceAs (Decidable (¬mark b <:+: u))
  | cons t ts ih =>
    cases t with
    | lit w => exact ih (u ++ w)
    | ph a =>
      have : Decidable (Apart mark b [] ts) := ih []
      have : Decidable (Apart mark b (u ++ mark a) ts) := ih (u ++ mark a)
      exact inferInstanceAs (Decidable (if a = b then _ ∧ _ else _))

/-- **One step**: where the placeholder is apart, its replacement in the string is the
filling of the template. The induction carries the text `u` since the last
occurrence, which the reading has passed without finding one. -/
theorem replaceAll_render {b : ι} (hb : mark b ≠ []) (v : List α) (u : List α)
    (ts : List (Token ι α)) (h : Apart mark b u ts) :
    replaceAll (u ++ render mark ts) (mark b) v = u ++ render mark (fill (only b v) ts) := by
  induction ts generalizing u with
  | nil => simpa using Go.replaceAll_eq_self h v
  | cons t ts ih =>
    cases t with
    | lit w =>
      -- text, and another name's placeholder, is passed over and joins `u`
      have hrest := ih (u ++ w) h
      rw [List.append_assoc, List.append_assoc] at hrest
      exact hrest
    | ph a =>
      by_cases hab : a = b
      · subst hab
        obtain ⟨hfirst, hrest⟩ := (if_pos rfl).mp h
        -- the reading finds the placeholder here, and starts afresh behind it
        have hhere := Go.replaceAll_append_of_first hb hfirst v (render mark ts)
        have hthere := ih [] hrest
        rw [List.nil_append, List.nil_append] at hthere
        rw [render_cons, Token.render, ← List.append_assoc, hhere, hthere, fill_cons]
        simp [Token.fill, only, Token.render]
      · have hrest := ih (u ++ mark a) ((if_neg hab).mp h)
        rw [List.append_assoc, List.append_assoc] at hrest
        simpa [Token.fill, only, hab, Token.render] using hrest

/-! ### All the steps -/

/-- **Whole runs**: when each step finds its placeholder apart, given what the steps
before it have put in, the steps fill the template. -/
theorem foldl_replaceAll (es : List (Σ _ : ι, List α)) (ts : List (Token ι α))
    (hmark : ∀ e ∈ es, mark e.1 ≠ [])
    (hapart : ∀ S e T, es = S ++ e :: T → Apart mark e.1 [] (fill (S.dlookup ·) ts)) :
    es.foldl (fun s e => replaceAll s (mark e.1) e.2) (render mark ts) =
      render mark (fill (es.dlookup ·) ts) := by
  induction es using List.reverseRecOn with
  | nil => rw [List.foldl_nil, ← fill_none ts, fill_fill]; rfl
  | append_singleton es e ih =>
    have hbefore := ih (fun e' he' => hmark e' (by simp [he'])) fun S e' T hes =>
      hapart S e' (T ++ [e]) (by simp [hes])
    have hstep := replaceAll_render (hmark e (by simp)) e.2 [] _ (hapart es e [] rfl)
    rw [List.nil_append, List.nil_append, fill_fill] at hstep
    rw [List.foldl_concat, hbefore, hstep]
    simp only [dlookup_snoc]

end Names

end Template
