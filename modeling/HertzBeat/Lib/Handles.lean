import Mathlib.Data.Finset.Card
import Mathlib.Data.Finset.SDiff

/-!
# Programs that open and close handles

A process has a table of the handles that are open – sockets, listeners, cursors. A program takes
the table to another one and returns a value or an error, `Handles.Prog`; opening a handle may
fail, and closing one may be deferred to the end of a block or left to its error paths.

`Handles.Owns` is a triple in which a program is only told about the handles that it owns. Every
other open handle is part of a frame that it leaves alone, so that a program which opens a handle
in the middle of another one needs no hypothesis about what is open around it. The rules are given
for a postcondition that is already known, one for each way of making a program. A program starts
with nothing and what it owns at its end is what it leaves open: `Handles.Owns.opened`.

Most programs hand what they have opened to their caller, or nothing if they fail, which is
`Handles.Held`. `Handles.Returns` says what a program returns, whatever is open.
-/

namespace Handles

/-- The handles of a process. The next one to be opened is above all that are open. -/
structure Table where
  next : ℕ
  opened : Finset ℕ
  lt_next : ∀ n ∈ opened, n < next

namespace Table

/-- A process that has opened nothing. -/
def empty : Table := ⟨0, ∅, by simp⟩

/-- The next handle is opened. -/
def add (t : Table) : Table where
  next := t.next + 1
  opened := insert t.next t.opened
  lt_next := by
    intro n hn
    rcases Finset.mem_insert.mp hn with rfl | hn
    · exact Nat.lt_succ_self _
    · exact (t.lt_next n hn).trans (Nat.lt_succ_self _)

/-- Some handles are closed. To close one that is not open changes nothing. -/
def close (t : Table) (hs : Finset ℕ) : Table where
  next := t.next
  opened := t.opened \ hs
  lt_next := fun n hn => t.lt_next n (Finset.sdiff_subset hn)

end Table

/-- A program that may open and close handles, and return an error. -/
def Prog (ε α : Type) : Type := Table → Except ε α × Table

variable {ε ε' α β : Type}

instance : Monad (Prog ε) where
  pure a := fun t => (.ok a, t)
  bind p q := fun t =>
    match p t with
    | (.ok a, t') => q a t'
    | (.error e, t') => (.error e, t')

theorem bind_apply (p : Prog ε α) (q : α → Prog ε β) (t : Table) : (p >>= q) t =
    match p t with
    | (.ok a, t') => q a t'
    | (.error e, t') => (.error e, t') := rfl

instance : LawfulMonad (Prog ε) := by
  refine LawfulMonad.mk' (Prog ε) (fun p => funext fun t => ?_) (fun a q => rfl)
    fun p q r => funext fun t => ?_
  · change (p >>= pure) t = p t
    rw [bind_apply]
    rcases p t with ⟨_ | _, _⟩ <;> rfl
  · simp only [bind_apply]
    rcases p t with ⟨_ | _, _⟩ <;> rfl

/-- A call that touches no handle. -/
def lift (r : Except ε α) : Prog ε α := fun t => (r, t)

/-- A call that opens a handle if it succeeds. -/
def acquire (r : Except ε α) : Prog ε (α × ℕ) := fun t =>
  match r with
  | .ok a => (.ok (a, t.next), t.add)
  | .error e => (.error e, t)

/-- Handles are closed. -/
def close (hs : Finset ℕ) : Prog ε Unit := fun t => (.ok (), t.close hs)

/-- Handles that are closed when the program ends, however it does. -/
def deferClose (hs : Finset ℕ) (p : Prog ε α) : Prog ε α := fun t => ((p t).1, (p t).2.close hs)

/-- Handles that are closed if the program fails. -/
def closeOnError (hs : Finset ℕ) (p : Prog ε α) : Prog ε α := fun t =>
  match p t with
  | (.ok a, t') => (.ok a, t')
  | (.error e, t') => (.error e, t'.close hs)

/-- The error is turned into another one. -/
def mapError (f : ε → ε') (p : Prog ε α) : Prog ε' α := fun t => ((p t).1.mapError f, (p t).2)

/-- The error is handed to the caller as a value. -/
def attempt (p : Prog ε α) : Prog ε' (Except ε α) := fun t => (.ok (p t).1, (p t).2)

/-! ### What a program owns -/

/-- **A program, told about the handles that it owns.** If these satisfy `P` before, then those
that it owns after, given what it returned, satisfy `Q`, and all the others are as they were. -/
def Owns (P : Finset ℕ → Prop) (p : Prog ε α) (Q : Except ε α → Finset ℕ → Prop) : Prop :=
  ∀ t F H, t.opened = F ∪ H → Disjoint F H → P H →
    ∃ H', (p t).2.opened = F ∪ H' ∧ Disjoint F H' ∧ Q (p t).1 H'

section Owns

variable {P P' : Finset ℕ → Prop} {p : Prog ε α} {Q : Except ε α → Finset ℕ → Prop}

/-- **What a program leaves open** that starts with nothing. -/
theorem Owns.opened (h : Owns (· = ∅) p Q) (t : Table) :
    ∃ H, (p t).2.opened = t.opened ∪ H ∧ Disjoint t.opened H ∧ Q (p t).1 H :=
  h t t.opened ∅ (Finset.union_empty _).symm (Finset.disjoint_empty_right _) rfl

theorem Owns.mono {Q' : Except ε α → Finset ℕ → Prop} (h : Owns P p Q) (hP : ∀ H, P' H → P H)
    (hQ : ∀ r H, Q r H → Q' r H) : Owns P' p Q' := by
  intro t F H hopened hdisj hH
  obtain ⟨H', hopened', hdisj', hQ'⟩ := h t F H hopened hdisj (hP H hH)
  exact ⟨H', hopened', hdisj', hQ _ _ hQ'⟩

/-- **The frame rule.** What a program is not told about stays as it is. -/
theorem Owns.frame {R : Finset ℕ} (h : Owns (· = ∅) p Q) :
    Owns (· = R) p fun r H => ∃ H', H = R ∪ H' ∧ Disjoint R H' ∧ Q r H' := by
  rintro t F H hopened hdisj rfl
  obtain ⟨H', hopened', hdisj', hQ⟩ := h t (F ∪ H) ∅ (hopened.trans (Finset.union_empty _).symm)
    (Finset.disjoint_empty_right _) rfl
  rw [Finset.disjoint_union_left] at hdisj'
  exact ⟨H ∪ H', hopened'.trans (Finset.union_assoc _ _ _),
    Finset.disjoint_union_right.mpr ⟨hdisj, hdisj'.1⟩, H', rfl, hdisj'.2, hQ⟩

/-- What is known besides the handles may be used. -/
theorem owns_and {φ : Prop} (h : φ → Owns P p Q) : Owns (fun H => P H ∧ φ) p Q :=
  fun t F H hopened hdisj hH => h hH.2 t F H hopened hdisj hH.1

/-- What is known to exist may be used. -/
theorem owns_exists {γ : Type} {S : γ → Finset ℕ → Prop} (h : ∀ c, Owns (S c) p Q) :
    Owns (fun H => ∃ c, S c H) p Q := by
  rintro t F H hopened hdisj ⟨c, hH⟩
  exact h c t F H hopened hdisj hH

theorem owns_pure {a : α} (h : ∀ H, P H → Q (.ok a) H) : Owns P (pure a) Q :=
  fun _ _ H hopened hdisj hH => ⟨H, hopened, hdisj, h H hH⟩

theorem owns_lift {r : Except ε α} (h : ∀ H, P H → Q r H) : Owns P (lift r) Q :=
  fun _ _ H hopened hdisj hH => ⟨H, hopened, hdisj, h H hH⟩

/-- The second program owns what the first one did when it succeeded. -/
theorem Owns.bind {q : α → Prog ε β} {R : Except ε β → Finset ℕ → Prop} (hp : Owns P p Q)
    (hq : ∀ a, Owns (Q (.ok a)) (q a) R) (herr : ∀ e H, Q (.error e) H → R (.error e) H) :
    Owns P (p >>= q) R := by
  intro t F H hopened hdisj hH
  obtain ⟨H', hopened', hdisj', hQ⟩ := hp t F H hopened hdisj hH
  rw [bind_apply]
  generalize p t = x at hopened' hQ
  obtain ⟨r, t'⟩ := x
  cases r with
  | ok a => exact hq a t' F H' hopened' hdisj' hQ
  | error e => exact ⟨H', hopened', hdisj', herr e H' hQ⟩

/-- A call that touches no handle leaves what is owned as it is. -/
theorem owns_bind_lift {r : Except ε β} {q : β → Prog ε α}
    (hok : ∀ a, r = .ok a → Owns P (q a) Q) (herr : ∀ e H, r = .error e → P H → Q (.error e) H) :
    Owns P (lift r >>= q) Q := by
  cases r with
  | ok a => exact hok a rfl
  | error e => exact fun t F H hopened hdisj hH => ⟨H, hopened, hdisj, herr e H rfl hH⟩

/-- A handle that was just opened is not one of those that were owned. -/
theorem owns_acquire {r : Except ε α} {Q : Except ε (α × ℕ) → Finset ℕ → Prop}
    (hok : ∀ a H n, r = .ok a → P H → n ∉ H → Q (.ok (a, n)) (insert n H))
    (herr : ∀ e H, r = .error e → P H → Q (.error e) H) : Owns P (acquire r) Q := by
  intro t F H hopened hdisj hH
  cases r with
  | error e => exact ⟨H, hopened, hdisj, herr e H rfl hH⟩
  | ok a =>
    -- the new handle is above all the others, those of the frame included
    have hnew : t.next ∉ F ∪ H := fun hn => Nat.lt_irrefl _ (t.lt_next _ (hopened ▸ hn))
    rw [Finset.mem_union, not_or] at hnew
    refine ⟨insert t.next H, ?_, Finset.disjoint_insert_right.mpr ⟨hnew.1, hdisj⟩,
      hok a H t.next rfl hH hnew.2⟩
    change insert t.next t.opened = _
    rw [hopened, Finset.union_insert]

/-- To close handles that a program owns leaves the others alone. -/
theorem close_opened {t : Table} {F H hs : Finset ℕ} (hopened : t.opened = F ∪ H)
    (hdisj : Disjoint F H) (hF : Disjoint F hs) :
    (t.close hs).opened = F ∪ (H \ hs) ∧ Disjoint F (H \ hs) := by
  refine ⟨?_, hdisj.mono_right Finset.sdiff_subset⟩
  change t.opened \ hs = _
  rw [hopened, Finset.union_sdiff_distrib, Finset.sdiff_eq_self_of_disjoint hF]

theorem owns_close {hs : Finset ℕ} {Q : Except ε Unit → Finset ℕ → Prop}
    (hown : ∀ H, P H → hs ⊆ H) (h : ∀ H, P H → Q (.ok ()) (H \ hs)) :
    Owns P (close hs) Q := by
  intro t F H hopened hdisj hH
  obtain ⟨hopened', hdisj'⟩ := close_opened hopened hdisj (hdisj.mono_right (hown H hH))
  exact ⟨H \ hs, hopened', hdisj', h H hH⟩

/-- What is owned at the beginning may be closed at the end. -/
theorem Owns.deferClose {hs : Finset ℕ} (hown : ∀ H, P H → hs ⊆ H)
    (h : Owns P p fun r H => Q r (H \ hs)) : Owns P (deferClose hs p) Q := by
  intro t F H hopened hdisj hH
  obtain ⟨H', hopened', hdisj', hQ⟩ := h t F H hopened hdisj hH
  obtain ⟨hopened'', hdisj''⟩ := close_opened hopened' hdisj' (hdisj.mono_right (hown H hH))
  exact ⟨_, hopened'', hdisj'', hQ⟩

theorem Owns.closeOnError {hs : Finset ℕ} (hown : ∀ H, P H → hs ⊆ H)
    (h : Owns P p fun r H => match r with
      | .ok a => Q (.ok a) H
      | .error e => Q (.error e) (H \ hs)) : Owns P (closeOnError hs p) Q := by
  intro t F H hopened hdisj hH
  obtain ⟨H', hopened', hdisj', hQ⟩ := h t F H hopened hdisj hH
  unfold Handles.closeOnError
  generalize p t = x at hopened' hQ
  obtain ⟨r, t'⟩ := x
  cases r with
  | ok a => exact ⟨H', hopened', hdisj', hQ⟩
  | error e =>
    obtain ⟨hopened'', hdisj''⟩ := close_opened hopened' hdisj' (hdisj.mono_right (hown H hH))
    exact ⟨_, hopened'', hdisj'', hQ⟩

theorem Owns.mapError {f : ε → ε'} {Q : Except ε' α → Finset ℕ → Prop}
    (h : Owns P p fun r H => Q (r.mapError f) H) : Owns P (mapError f p) Q :=
  fun t F H hopened hdisj hH => h t F H hopened hdisj hH

/-- The error of the first program is a value for the second one. -/
theorem Owns.bind_attempt {q : Except ε α → Prog ε' β} {R : Except ε' β → Finset ℕ → Prop}
    (hp : Owns P p Q) (hq : ∀ x, Owns (Q x) (q x) R) : Owns P (attempt p >>= q) R := by
  intro t F H hopened hdisj hH
  obtain ⟨H', hopened', hdisj', hQ⟩ := hp t F H hopened hdisj hH
  exact hq (p t).1 (p t).2 F H' hopened' hdisj' hQ

end Owns

/-! ### Handles that come with the value

A program that opens handles for its caller names them in what it returns, and one that fails has
closed what it had opened. -/

/-- Handles that go with the value; with an error there are none. -/
def Held (S : α → Finset ℕ) : Except ε α → Finset ℕ → Prop
  | .ok a, H => H = S a
  | .error _, H => H = ∅

section Held

variable {P : Finset ℕ → Prop} {p : Prog ε α} {S : α → Finset ℕ}

theorem Owns.bind_held {q : α → Prog ε β} {R : Except ε β → Finset ℕ → Prop}
    (hp : Owns P p (Held S)) (hq : ∀ a, Owns (· = S a) (q a) R) (herr : ∀ e, R (.error e) ∅) :
    Owns P (p >>= q) R :=
  hp.bind hq fun e _ hH => (hH : _ = ∅) ▸ herr e

theorem owns_acquire_held (r : Except ε α) :
    Owns (· = ∅) (acquire r) (Held fun a => {a.2}) := by
  refine owns_acquire ?_ ?_
  · rintro a H n - rfl -
    exact insert_empty_eq n
  · rintro e H - rfl
    rfl

/-- A call that touches no handle, with the handles closed if it fails. -/
theorem owns_closeOnError_lift (hs : Finset ℕ) (r : Except ε α) :
    Owns (· = hs) (closeOnError hs (lift r)) (Held fun _ => hs) := by
  refine Owns.closeOnError (fun H hH => hH.ge) (owns_lift ?_)
  rintro H rfl
  cases r with
  | ok a => rfl
  | error e => exact Finset.sdiff_self H

/-- One more handle is opened, and those that there are are closed if that fails. -/
theorem owns_closeOnError_acquire (hs : Finset ℕ) (r : Except ε α) :
    Owns (· = hs) (closeOnError hs (acquire r)) (Held fun a => insert a.2 hs) := by
  refine Owns.closeOnError (fun H hH => hH.ge) (owns_acquire ?_ ?_)
  · rintro a H n - rfl -
    rfl
  · rintro e H - rfl
    exact Finset.sdiff_self H

theorem Owns.mapError_held {f : ε → ε'} (h : Owns P p (Held S)) :
    Owns P (Handles.mapError f p) (Held S) :=
  (h.mono (fun _ hH => hH) fun r _ hH => by cases r <;> exact hH).mapError

/-- A block that leaves nothing open of its own, and ends with closing the handles. -/
theorem Owns.deferClose_held {hs : Finset ℕ} (h : Owns (· = ∅) p fun _ H => H = ∅) :
    Owns (· = hs) (Handles.deferClose hs p) fun _ H => H = ∅ := by
  refine Owns.deferClose (fun _ hH => hH.ge) (h.frame.mono (fun _ hH => hH) ?_)
  rintro r H ⟨H', rfl, -, rfl⟩
  rw [Finset.union_empty, Finset.sdiff_self]

end Held

/-! ### Programs that do not fail -/

/-- The program has a value, and the handles go with it. -/
def Yields (S : α → Finset ℕ → Prop) : Except ε α → Finset ℕ → Prop
  | .ok a, H => S a H
  | .error _, _ => False

section Yields

variable {P : Finset ℕ → Prop} {p : Prog ε α} {S : α → Finset ℕ → Prop}

theorem Owns.bind_yields {q : α → Prog ε β} {R : Except ε β → Finset ℕ → Prop}
    (hp : Owns P p (Yields S)) (hq : ∀ a, Owns (S a) (q a) R) : Owns P (p >>= q) R :=
  hp.bind hq fun _ _ h => h.elim

theorem owns_bind_close {hs : Finset ℕ} {q : Unit → Prog ε α}
    {Q : Except ε α → Finset ℕ → Prop} (hown : ∀ H, P H → hs ⊆ H)
    (hq : Owns (fun H => ∃ H', P H' ∧ H = H' \ hs) (q ()) Q) : Owns P (close hs >>= q) Q := by
  refine (owns_close (Q := Yields fun _ H => ∃ H', P H' ∧ H = H' \ hs) hown ?_).bind_yields
    fun _ => hq
  exact fun H hH => ⟨H, hH, rfl⟩

end Yields

/-! ### What a program returns -/

/-- A program that does not fail. -/
def Total (p : Prog ε α) : Prop := ∀ t, ∃ a t', p t = (.ok a, t')

theorem total_pure (a : α) : Total (pure a : Prog ε α) := fun t => ⟨a, t, rfl⟩

theorem total_attempt (p : Prog ε α) : Total (attempt p : Prog ε' (Except ε α)) :=
  fun t => ⟨(p t).1, (p t).2, rfl⟩

theorem Total.bind {p : Prog ε α} {q : α → Prog ε β} (hp : Total p) (hq : ∀ a, Total (q a)) :
    Total (p >>= q) := by
  intro t
  obtain ⟨a, t', hp⟩ := hp t
  rw [bind_apply, hp]
  exact hq a t'

/-- The value of a program, seen through `f`, is `r` whatever is open. -/
def Returns (p : Prog ε α) (f : α → β) (r : Except ε β) : Prop := ∀ t, (p t).1.map f = r

section Returns

variable {γ δ : Type} {p : Prog ε α} {f : α → β} {r : Except ε β}

/-- What is returned may be used in a postcondition. -/
theorem Owns.and_returns {P : Finset ℕ → Prop} {Q : Except ε α → Finset ℕ → Prop}
    (h : Owns P p Q) (hr : Returns p f r) : Owns P p fun x H => Q x H ∧ x.map f = r := by
  intro t F H hopened hdisj hH
  obtain ⟨H', hopened', hdisj', hQ⟩ := h t F H hopened hdisj hH
  exact ⟨H', hopened', hdisj', hQ, hr t⟩

theorem returns_pure (a : α) (f : α → β) : Returns (ε := ε) (pure a) f (.ok (f a)) := fun _ => rfl

theorem returns_lift (r : Except ε α) : Returns (lift r) id r := fun _ => by
  cases r <;> rfl

theorem returns_acquire (r : Except ε α) : Returns (acquire r) Prod.fst r := fun _ => by
  cases r <;> rfl

theorem Returns.bind {q : α → Prog ε γ} {g : γ → δ} {k : β → Except ε δ} (hp : Returns p f r)
    (hq : ∀ a, Returns (q a) g (k (f a))) : Returns (p >>= q) g (r >>= k) := by
  intro t
  specialize hp t
  rw [bind_apply]
  generalize p t = x at hp
  obtain ⟨x, t'⟩ := x
  subst hp
  cases x with
  | ok a => exact hq a t'
  | error e => rfl

/-- After a program that cannot fail and whose value does not matter. -/
theorem Total.returns_bind {q : α → Prog ε γ} {g : γ → δ} {r' : Except ε δ} (hp : Total p)
    (hq : ∀ a, Returns (q a) g r') : Returns (p >>= q) g r' := by
  intro t
  obtain ⟨a, t', hp⟩ := hp t
  rw [bind_apply, hp]
  exact hq a t'

/-- A program that only makes another value of what it got. -/
theorem Returns.bind_pure {g : α → γ} {f' : γ → β} (h : Returns p f r)
    (hg : ∀ a, f' (g a) = f a) : Returns (p >>= fun a => pure (g a)) f' r := by
  intro t
  specialize h t
  rw [bind_apply]
  generalize p t = x at h
  obtain ⟨x, t'⟩ := x
  subst h
  cases x with
  | ok a => exact congrArg Except.ok (hg a)
  | error e => rfl

theorem Returns.deferClose (h : Returns p f r) (hs : Finset ℕ) :
    Returns (deferClose hs p) f r := h

theorem Returns.closeOnError (h : Returns p f r) (hs : Finset ℕ) :
    Returns (closeOnError hs p) f r := by
  intro t
  specialize h t
  unfold Handles.closeOnError
  generalize p t = x at h
  obtain ⟨x, t'⟩ := x
  cases x <;> exact h

theorem Returns.mapError (h : Returns p f r) (g : ε → ε') :
    Returns (mapError g p) f (r.mapError g) := by
  intro t
  specialize h t
  change ((p t).1.mapError g).map f = _
  rw [← h]
  cases (p t).1 <;> rfl

/-- The second program follows where the first one succeeds, and its error is returned. -/
theorem Returns.bind_cases {q : α → Prog ε γ} {g : γ → δ} {r' : Except ε δ}
    (hp : Returns p f r) (hok : ∀ a, r = .ok (f a) → Returns (q a) g r')
    (herr : ∀ e, r = .error e → r' = .error e) : Returns (p >>= q) g r' := by
  intro t
  specialize hp t
  rw [bind_apply]
  generalize p t = x at hp
  obtain ⟨x, t'⟩ := x
  cases x with
  | ok a => exact hok a hp.symm t'
  | error e => exact (herr e hp.symm).symm

theorem Returns.bind_attempt {q : Except ε α → Prog ε' γ} {g : γ → δ} {r' : Except ε' δ}
    (hp : Returns p f r) (hq : ∀ x, x.map f = r → Returns (q x) g r') :
    Returns (attempt p >>= q) g r' :=
  fun t => hq (p t).1 (hp t) (p t).2

end Returns

end Handles
