import HertzBeat.Lib.Mem

/-!
# Copies, and writes through references

A program that is to leave what it was given alone works on copies. Two relations
between the memory before and the memory after say how far it succeeds:

* `Mem.Keeps` – every record that was there is there, unaltered. Allocating and
  copying keep (`Mem.keeps_alloc`, `Mem.keeps_copy`), and so does a write to a
  record that is new (`Mem.Keeps.modify`).
* For writes through references that were *not* copied, `Mem.writes` collects them,
  in the order in which they are made. The memory is kept by a list of writes that
  each leave alone what they find (`Mem.writes_of_fixed`), and as long as no two of
  them go to one record this is also necessary (`Mem.fixed_of_keeps_writes`).

A reference is `none` for nil; one that leads nowhere counts as nil.
-/

namespace Mem

variable {α : Type*}

/-- Every record of `m` is in `m'`, unaltered. -/
def Keeps (m m' : Mem α) : Prop := ∀ r a, m.read r = some a → m'.read r = some a

theorem Keeps.refl (m : Mem α) : m.Keeps m := fun _ _ h => h

theorem Keeps.trans {m₁ m₂ m₃ : Mem α} (h₁ : m₁.Keeps m₂) (h₂ : m₂.Keeps m₃) : m₁.Keeps m₃ :=
  fun r a h => h₂ r a (h₁ r a h)

theorem Keeps.size_le {m m' : Mem α} (h : m.Keeps m') : m.size ≤ m'.size := by
  by_contra hlt
  obtain ⟨a, ha⟩ := exists_read (show m'.size < m.size by omega)
  exact absurd (lt_size_of_read (h _ a ha)) (by omega)

theorem keeps_alloc (m : Mem α) (a : α) : m.Keeps (m.alloc a) := fun _ _ h =>
  read_alloc_of_read h a

/-- A write to a new record leaves the old ones alone. -/
theorem Keeps.modify {m m' : Mem α} (h : m.Keeps m') {r : ℕ} (hr : m.size ≤ r) (f : α → α) :
    m.Keeps (m'.modify r f) := by
  intro r' a ha
  have hne : r' ≠ r := by
    have := lt_size_of_read ha
    omega
  rw [read_modify_of_ne hne]
  exact h r' a ha

/-! ### Copies -/

/-- Copy the record a reference leads to; nil is copied to nil. -/
def copy (m : Mem α) (r : Option ℕ) : Option ℕ × Mem α :=
  match r.bind m.read with
  | none => (none, m)
  | some a => (some m.size, m.alloc a)

/-- Copy a list of references, one after the other. -/
def copyAll (m : Mem α) : List (Option ℕ) → List (Option ℕ) × Mem α
  | [] => ([], m)
  | r :: rs => ((m.copy r).1 :: ((m.copy r).2.copyAll rs).1, ((m.copy r).2.copyAll rs).2)

theorem keeps_copy (m : Mem α) (r : Option ℕ) : m.Keeps (m.copy r).2 := by
  unfold copy
  split
  · exact Keeps.refl m
  · exact keeps_alloc m _

/-- A copy is a new record. -/
theorem size_le_of_copy {m : Mem α} {r : Option ℕ} {r' : ℕ} (h : (m.copy r).1 = some r') :
    m.size ≤ r' := by
  unfold copy at h
  split at h
  · exact absurd h (by simp)
  · exact (Option.some.inj h).le

theorem keeps_copyAll (m : Mem α) (rs : List (Option ℕ)) : m.Keeps (m.copyAll rs).2 := by
  induction rs generalizing m with
  | nil => exact Keeps.refl m
  | cons r rs ih => exact (m.keeps_copy r).trans (ih _)

/-! ### Writes through references -/

/-- Update the record a reference leads to. -/
def modifyAt (m : Mem α) (r : Option ℕ) (f : α → α) : Mem α :=
  r.elim m fun r => m.modify r f

/-- The updates `f` of a list, made one after the other. -/
def writes (m : Mem α) (ws : List (Option ℕ × (α → α))) : Mem α :=
  ws.foldl (fun m w => m.modifyAt w.1 w.2) m

@[simp] theorem writes_nil (m : Mem α) : m.writes [] = m := rfl

@[simp] theorem writes_cons (m : Mem α) (w : Option ℕ × (α → α))
    (ws : List (Option ℕ × (α → α))) :
    m.writes (w :: ws) = (m.modifyAt w.1 w.2).writes ws := rfl

/-- A write to a new record leaves the old ones alone. -/
theorem Keeps.modifyAt {m m' : Mem α} (h : m.Keeps m') {r : Option ℕ}
    (hr : ∀ a, r = some a → m.size ≤ a) (f : α → α) : m.Keeps (m'.modifyAt r f) := by
  cases r with
  | none => exact h
  | some r => exact h.modify (hr r rfl) f

theorem read_modifyAt_of_ne (m : Mem α) {r : Option ℕ} {r' : ℕ} (h : r ≠ some r') (f : α → α) :
    (m.modifyAt r f).read r' = m.read r' := by
  cases r with
  | none => rfl
  | some r => exact read_modify_of_ne (fun he : r' = r => h (congrArg some he.symm)) m f

/-- A reference that an update does not change in a record leads on to the same. -/
theorem bind_read_modifyAt {β : Type*} (m : Mem α) (r : Option ℕ) {f : α → α}
    {g : α → Option β} (hg : ∀ a, g (f a) = g a) (r' : Option ℕ) :
    (r'.bind (m.modifyAt r f).read).bind g = (r'.bind m.read).bind g := by
  rcases r' with _ | r'
  · rfl
  · by_cases h : r = some r'
    · subst h
      change ((m.modify r' f).read r').bind g = (m.read r').bind g
      rw [read_modify_self]
      rcases m.read r' with _ | a
      · rfl
      · exact hg a
    · change ((m.modifyAt r f).read r').bind g = (m.read r').bind g
      rw [read_modifyAt_of_ne m h]

theorem modifyAt_of_fixed {m : Mem α} {r : Option ℕ} {f : α → α}
    (h : ∀ a, r.bind m.read = some a → f a = a) : m.modifyAt r f = m := by
  cases r with
  | none => rfl
  | some r =>
    refine congrArg Mem.mk (List.ext_getElem? fun i => ?_)
    rw [List.getElem?_modify]
    split_ifs with hi
    · subst hi
      rcases ha : m.cells[r]? with _ | a
      · rfl
      · exact congrArg some (h a ha)
    · simp

/-- **Writes that leave alone what they find keep the memory.** -/
theorem writes_of_fixed {m : Mem α} {ws : List (Option ℕ × (α → α))}
    (h : ∀ w ∈ ws, ∀ a, w.1.bind m.read = some a → w.2 a = a) : m.writes ws = m := by
  induction ws with
  | nil => rfl
  | cons w ws ih =>
    rw [writes_cons, modifyAt_of_fixed (h w (by simp))]
    exact ih fun w' hw' => h w' (by simp [hw'])

/-- A record no write goes to. -/
theorem read_writes_of_notMem {m : Mem α} {ws : List (Option ℕ × (α → α))} {r : ℕ}
    (h : r ∉ ws.filterMap Prod.fst) : (m.writes ws).read r = m.read r := by
  induction ws generalizing m with
  | nil => rfl
  | cons w ws ih =>
    have hw : w.1 ≠ some r := fun he => h (List.mem_filterMap.mpr ⟨w, by simp, he⟩)
    have hws : r ∉ ws.filterMap Prod.fst := fun hmem => by
      obtain ⟨w', hw', he⟩ := List.mem_filterMap.mp hmem
      exact h (List.mem_filterMap.mpr ⟨w', by simp [hw'], he⟩)
    rw [writes_cons, ih hws, read_modifyAt_of_ne m hw]

/-- **Writes to different records that keep the memory leave alone what they find.**
The record of the first write is not written again, so it can only be kept if that
write left it alone; and then the others start from the memory as it was. -/
theorem fixed_of_keeps_writes {m : Mem α} {ws : List (Option ℕ × (α → α))}
    (hws : (ws.filterMap Prod.fst).Nodup) (h : m.Keeps (m.writes ws)) :
    ∀ w ∈ ws, ∀ a, w.1.bind m.read = some a → w.2 a = a := by
  induction ws with
  | nil => simp
  | cons w ws ih =>
    obtain ⟨r, f⟩ := w
    have hfirst : ∀ a, r.bind m.read = some a → f a = a := by
      intro a ha
      obtain ⟨r, rfl, hread⟩ := Option.bind_eq_some_iff.mp ha
      have hnew : r ∉ ws.filterMap Prod.fst := (List.nodup_cons.mp hws).1
      have hkept := h r a hread
      rw [writes_cons, read_writes_of_notMem hnew] at hkept
      simpa [Mem.modifyAt, hread] using hkept
    rw [writes_cons, modifyAt_of_fixed hfirst] at h
    have hrest : (ws.filterMap Prod.fst).Nodup :=
      hws.sublist ((List.sublist_cons_self _ ws).filterMap Prod.fst)
    intro w' hw'
    rcases List.mem_cons.mp hw' with rfl | hmem
    · exact hfirst
    · exact ih hrest h w' hmem

/-! ### Where references lead -/

/-- A reference is nil or leads to a record. -/
def Leads (m : Mem α) (r : Option ℕ) : Prop := ∀ a, r = some a → a < m.size

/-- Two references do not lead to one record. -/
def Apart (r r' : Option ℕ) : Prop := ∀ a, r = some a → ∀ a', r' = some a' → a ≠ a'

/-- A reference leads to the same in both memories. -/
def SameAt (m m' : Mem α) (r : Option ℕ) : Prop := r.bind m'.read = r.bind m.read

theorem Leads.mono {m m' : Mem α} {r : Option ℕ} (h : m.Leads r) (hsize : m.size ≤ m'.size) :
    m'.Leads r := fun a ha => (h a ha).trans_le hsize

theorem Apart.symm {r r' : Option ℕ} (h : Apart r r') : Apart r' r :=
  fun a ha a' ha' => (h a' ha' a ha).symm

/-- A reference that leads to a record is apart from one that is new. -/
theorem Leads.apart {m : Mem α} {r r' : Option ℕ} (h : m.Leads r)
    (hnew : ∀ a, r' = some a → m.size ≤ a) : Apart r r' :=
  fun a ha a' ha' => ((h a ha).trans_le (hnew a' ha')).ne

theorem SameAt.bind_read_eq {m m' : Mem α} {r : Option ℕ} (h : m.SameAt m' r) :
    r.bind m'.read = r.bind m.read := h

theorem SameAt.refl (m : Mem α) (r : Option ℕ) : m.SameAt m r := rfl

theorem sameAt_of_eq {m m' : Mem α} (h : m' = m) (r : Option ℕ) : m.SameAt m' r := by
  rw [h]
  exact .refl m r

theorem SameAt.trans {m₁ m₂ m₃ : Mem α} {r : Option ℕ} (h₁ : m₁.SameAt m₂ r)
    (h₂ : m₂.SameAt m₃ r) : m₁.SameAt m₃ r := Eq.trans h₂ h₁

theorem Keeps.sameAt {m m' : Mem α} (h : m.Keeps m') {r : Option ℕ} (hr : m.Leads r) :
    m.SameAt m' r := by
  rcases r with _ | r
  · rfl
  · obtain ⟨a, ha⟩ := exists_read (hr r rfl)
    exact (h r a ha).trans ha.symm

theorem sameAt_modifyAt (m : Mem α) {r r' : Option ℕ} (h : Apart r r') (f : α → α) :
    m.SameAt (m.modifyAt r f) r' := by
  rcases r' with _ | r'
  · rfl
  · exact read_modifyAt_of_ne m (fun hr => h r' hr r' rfl rfl) f

theorem bind_read_modifyAt_self (m : Mem α) (r : Option ℕ) (f : α → α) :
    r.bind (m.modifyAt r f).read = (r.bind m.read).map f := by
  rcases r with _ | r
  · rfl
  · exact read_modify_self m r f

@[simp] theorem size_modifyAt (m : Mem α) (r : Option ℕ) (f : α → α) :
    (m.modifyAt r f).size = m.size := by
  rcases r with _ | r
  · rfl
  · exact size_modify m r f

/-- **A copy leads to what was copied.** -/
theorem bind_read_copy (m : Mem α) (r : Option ℕ) :
    (m.copy r).1.bind (m.copy r).2.read = r.bind m.read := by
  unfold copy
  split
  · next h => rw [h]; rfl
  · next a h => rw [h]; exact read_alloc_self m a

theorem leads_copy (m : Mem α) (r : Option ℕ) : (m.copy r).2.Leads (m.copy r).1 := by
  intro a ha
  unfold copy at ha ⊢
  split at ha
  · exact absurd ha (by simp)
  · cases ha
    rw [size_alloc]
    exact Nat.lt_succ_self _

/-- A copy leads to what was copied, in a memory that has grown since. -/
theorem Keeps.bind_read_copy {m m' : Mem α} {r : Option ℕ} (h : (m.copy r).2.Keeps m') :
    (m.copy r).1.bind m'.read = r.bind m.read := by
  rw [(h.sameAt (m.leads_copy r)).bind_read_eq, Mem.bind_read_copy]

theorem leads_copyAll (m : Mem α) (rs : List (Option ℕ)) :
    ∀ r ∈ (m.copyAll rs).1, (m.copyAll rs).2.Leads r := by
  induction rs generalizing m with
  | nil => simp [copyAll]
  | cons r rs ih =>
    intro r' hr'
    rcases List.mem_cons.mp hr' with rfl | hr'
    · exact (m.leads_copy r).mono (keeps_copyAll _ rs).size_le
    · exact ih _ r' hr'

theorem size_le_of_copyAll (m : Mem α) (rs : List (Option ℕ)) :
    ∀ r ∈ (m.copyAll rs).1, ∀ a, r = some a → m.size ≤ a := by
  induction rs generalizing m with
  | nil => simp [copyAll]
  | cons r rs ih =>
    intro r' hr' a ha
    rcases List.mem_cons.mp hr' with rfl | hr'
    · exact size_le_of_copy ha
    · exact (m.keeps_copy r).size_le.trans (ih _ r' hr' a ha)

theorem map_bind_read_copyAll {m₀ m : Mem α} (hm : m₀.Keeps m) {rs : List (Option ℕ)}
    (hrs : ∀ r ∈ rs, m₀.Leads r) :
    (m.copyAll rs).1.map (·.bind (m.copyAll rs).2.read) = rs.map (·.bind m₀.read) := by
  induction rs generalizing m with
  | nil => rfl
  | cons r rs ih =>
    have hrest := ih (hm.trans (m.keeps_copy r)) fun r' hr' => hrs r' (by simp [hr'])
    simp only [copyAll, List.map_cons, hrest]
    rw [(keeps_copyAll _ rs).bind_read_copy, (hm.sameAt (hrs r (by simp))).bind_read_eq]

end Mem
