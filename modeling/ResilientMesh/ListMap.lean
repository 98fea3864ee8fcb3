/-
ResilientMesh/ListMap.lean

Maps from keys to lists of values, as a hash map of lists is used: a value is
pushed onto the list of its key, a key is removed with its whole list, and the
values are edited in place, one after the other, until an edit fails.  The
order of the entries stands for the order of iteration.

Seen as the collection of its values, a push adds one value
(`values_push`), fewer entries have fewer of them (`values_sublist`), and an edit
keeps whatever the single edits keep (`shape_edit`, `map_values_edit`).

Nothing in this file knows the services.
-/
import Mathlib

namespace ResilientMesh

abbrev ListMap (K V : Type*) := AList fun _ : K => List V

namespace ListMap

variable {K V γ ε : Type*} [DecidableEq K]

/-- The values under a key; none if the key is absent. -/
def under (m : ListMap K V) (k : K) : List V := (m.lookup k).getD []

/-- All values, in the order of iteration. -/
def values (m : ListMap K V) : List V := m.entries.flatMap Sigma.snd

/-- Append a value to the list of a key. -/
def push (m : ListMap K V) (k : K) (v : V) : ListMap K V := m.insert k (m.under k ++ [v])

/-- Every value is stored under its own key. -/
def Keyed (key : V → K) (m : ListMap K V) : Prop := ∀ e ∈ m.entries, ∀ v ∈ e.2, key v = e.1

/-- No key has an empty list. -/
def NoEmpty (m : ListMap K V) : Prop := ∀ e ∈ m.entries, e.2 ≠ []

/-- The keys, each with what `g` shows of its values. -/
def shape (g : V → γ) (m : ListMap K V) : List (K × List γ) :=
  m.entries.map fun e => (e.1, e.2.map g)

/-! ### Values -/

omit [DecidableEq K] in
theorem mem_values {m : ListMap K V} {v : V} : v ∈ m.values ↔ ∃ e ∈ m.entries, v ∈ e.2 := by
  simp [values, List.mem_flatMap]

theorem erase_of_notMem {m : ListMap K V} {k : K} (h : k ∉ m) : m.erase k = m :=
  AList.ext (List.kerase_of_notMem_keys fun hk => h (AList.mem_keys.mpr hk))

/-- The values are those under a key and the rest. -/
theorem values_perm (m : ListMap K V) (k : K) :
    m.values.Perm (m.under k ++ values (m.erase k)) := by
  by_cases hk : k ∈ m
  · -- the one entry of the key stands somewhere among the others
    obtain ⟨l, l₁, l₂, hnot, hsplit, herase⟩ := List.exists_of_kerase (AList.mem_keys.mp hk)
    have hlookup : m.lookup k = some l := by
      refine AList.mem_lookup_iff.mpr ?_
      rw [hsplit]
      simp
    have hrest : values (m.erase k) = (l₁ ++ l₂).flatMap Sigma.snd := by
      rw [← herase]
      rfl
    rw [under, hlookup, hrest, values, hsplit]
    simp only [List.flatMap_append, List.flatMap_cons, Option.getD_some]
    rw [← List.append_assoc, ← List.append_assoc]
    exact List.Perm.append_right _ List.perm_append_comm
  · have hnone : m.lookup k = none := AList.lookup_eq_none.mpr hk
    rw [under, hnone, erase_of_notMem hk]
    exact List.Perm.refl _

/-- A push adds one value. -/
theorem values_push (m : ListMap K V) (k : K) (v : V) :
    (m.push k v).values.Perm (m.values ++ [v]) := by
  have hpush : (m.push k v).values = m.under k ++ [v] ++ values (m.erase k) := rfl
  rw [hpush, List.append_assoc]
  refine ((List.Perm.append_left _ List.perm_append_comm)).trans ?_
  rw [← List.append_assoc]
  exact (values_perm m k).symm.append_right [v]

omit [DecidableEq K] in
/-- Fewer entries have no more values. -/
theorem values_sublist {m m' : ListMap K V} (h : m'.entries.Sublist m.entries) :
    m'.values.Sublist m.values :=
  h.flatMap _

omit [DecidableEq K] in
/-- Another order of iteration. -/
theorem values_perm_of_entries {m m' : ListMap K V} (h : m.entries.Perm m'.entries) :
    m.values.Perm m'.values :=
  h.flatMap_right _

/-! ### Keys -/

theorem Keyed.mem_under {key : V → K} {m : ListMap K V} (h : Keyed key m) {v : V}
    (hv : v ∈ m.values) : v ∈ m.under (key v) := by
  obtain ⟨⟨k, l⟩, he, hv⟩ := mem_values.mp hv
  have hlookup : m.lookup k = some l := AList.mem_lookup_iff.mpr he
  rw [h _ he v hv, under, hlookup]
  exact hv

theorem mem_values_of_mem_under {m : ListMap K V} {k : K} {v : V} (h : v ∈ m.under k) :
    v ∈ m.values :=
  (values_perm m k).mem_iff.mpr (List.mem_append_left _ h)

omit [DecidableEq K] in
theorem Keyed.empty (key : V → K) : Keyed key (∅ : ListMap K V) := by
  intro e he
  cases he

omit [DecidableEq K] in
theorem Keyed.perm {key : V → K} {m m' : ListMap K V} (h : Keyed key m)
    (hp : m.entries.Perm m'.entries) : Keyed key m' :=
  fun e he => h e (hp.mem_iff.mpr he)

omit [DecidableEq K] in
theorem Keyed.sublist {key : V → K} {m m' : ListMap K V} (h : Keyed key m)
    (hsub : m'.entries.Sublist m.entries) : Keyed key m' :=
  fun e he => h e (hsub.subset he)

theorem Keyed.push {key : V → K} {m : ListMap K V} (h : Keyed key m) {k : K} {v : V}
    (hv : key v = k) : Keyed key (m.push k v) := by
  intro e he
  rcases List.mem_cons.mp he with rfl | he
  · intro w hw
    rcases List.mem_append.mp hw with hw | hw
    · cases hl : m.lookup k with
      | none => simp [under, hl] at hw
      | some l =>
        rw [under, hl] at hw
        exact h _ (AList.mem_lookup_iff.mp hl) w hw
    · rw [List.mem_singleton.mp hw]
      exact hv
  · exact h e ((List.kerase_sublist k m.entries).subset he)

/-- In a list of entries, one for each key, the values of a key are those of
its entry. -/
theorem flatMap_kerase {key : V → K} {k : K} {entries : List (Σ _ : K, List V)}
    (hnodup : entries.NodupKeys) (hkey : ∀ e ∈ entries, ∀ v ∈ e.2, key v = e.1) :
    (entries.kerase k).flatMap Sigma.snd
      = (entries.flatMap Sigma.snd).filter fun v => key v ≠ k := by
  induction entries with
  | nil => rfl
  | cons e rest ih =>
    obtain ⟨k', l⟩ := e
    rw [List.nodupKeys_cons] at hnodup
    obtain ⟨hnot, hnodup⟩ := hnodup
    have hl : ∀ v ∈ l, key v = k' := hkey ⟨k', l⟩ List.mem_cons_self
    have hrest : ∀ e ∈ rest, ∀ v ∈ e.2, key v = e.1 :=
      fun e he => hkey e (List.mem_cons_of_mem _ he)
    rw [List.flatMap_cons, List.filter_append]
    show _ = l.filter _ ++ _
    by_cases hk : k = k'
    · subst hk
      have hgone : l.filter (fun v => key v ≠ k) = [] := by
        apply List.filter_eq_nil_iff.mpr
        intro v hv
        simp [hl v hv]
      have hall : (rest.flatMap Sigma.snd).filter (fun v => key v ≠ k)
          = rest.flatMap Sigma.snd := by
        apply List.filter_eq_self.mpr
        intro v hv
        obtain ⟨e, he, hv⟩ := List.mem_flatMap.mp hv
        -- another entry has another key
        have hne : key v ≠ k := by
          rw [hrest e he v hv]
          intro heq
          exact hnot (List.mem_keys.mpr ⟨e.2, heq ▸ he⟩)
        exact decide_eq_true hne
      have herase : (⟨k, l⟩ :: rest : List (Σ _ : K, List V)).kerase k = rest :=
        List.kerase_cons_eq rfl
      rw [herase, hgone, hall, List.nil_append]
    · have hkept : l.filter (fun v => key v ≠ k) = l := by
        apply List.filter_eq_self.mpr
        intro v hv
        rw [hl v hv]
        exact decide_eq_true (Ne.symm hk)
      have herase : (⟨k', l⟩ :: rest : List (Σ _ : K, List V)).kerase k
          = ⟨k', l⟩ :: rest.kerase k := List.kerase_cons_ne hk
      rw [herase, List.flatMap_cons, ih hnodup hrest, hkept]

/-- **A removed key takes its own values with it**, and leaves the others in
their order. -/
theorem Keyed.values_erase {key : V → K} {m : ListMap K V} (h : Keyed key m) (k : K) :
    values (m.erase k) = m.values.filter fun v => key v ≠ k :=
  flatMap_kerase m.nodupKeys h

/-! ### Editing in place -/

/-- Edit the values of a list from the `j`-th on; stop at the first failure. -/
def editList (f : ℕ → V → Except ε V) : ℕ → List V → List V × Option ε
  | _, [] => ([], none)
  | j, v :: rest =>
    match f j v with
    | .error e => (v :: rest, some e)
    | .ok v' => (v' :: (editList f (j + 1) rest).1, (editList f (j + 1) rest).2)

/-- Edit the values of one entry after the other. -/
def editEntries (f : K → ℕ → V → Except ε V) :
    List (Σ _ : K, List V) → List (Σ _ : K, List V) × Option ε
  | [] => ([], none)
  | ⟨k, l⟩ :: rest =>
    match editList (f k) 0 l with
    | (l', some e) => (⟨k, l'⟩ :: rest, some e)
    | (l', none) => (⟨k, l'⟩ :: (editEntries f rest).1, (editEntries f rest).2)

omit [DecidableEq K] in
theorem keys_editEntries (f : K → ℕ → V → Except ε V) (es : List (Σ _ : K, List V)) :
    (editEntries f es).1.keys = es.keys := by
  induction es with
  | nil => rfl
  | cons e es ih =>
    obtain ⟨k, l⟩ := e
    unfold editEntries
    split
    · rfl
    · rw [List.keys_cons, ih, List.keys_cons]

/-- Edit every value, given its key and its place under it, until an edit
fails. -/
def edit (f : K → ℕ → V → Except ε V) (m : ListMap K V) : ListMap K V × Option ε :=
  (⟨(editEntries f m.entries).1, by
      rw [List.NodupKeys, keys_editEntries]
      exact m.nodupKeys⟩,
    (editEntries f m.entries).2)

/-- What every single edit keeps, editing a list keeps. -/
theorem map_editList {f : ℕ → V → Except ε V} {g : V → γ}
    (h : ∀ j v v', f j v = .ok v' → g v' = g v) (j : ℕ) (l : List V) :
    (editList f j l).1.map g = l.map g := by
  induction l generalizing j with
  | nil => rfl
  | cons v rest ih =>
    unfold editList
    split
    · rfl
    · rename_i v' hv
      rw [List.map_cons, List.map_cons, h j v v' hv, ih]

/-- An edit of a list ends well exactly if every single edit does. -/
theorem editList_eq_none_iff {f : ℕ → V → Except ε V} {j : ℕ} {l : List V} :
    (editList f j l).2 = none ↔ ∀ p ∈ l.zipIdx j, ∃ v', f p.2 p.1 = .ok v' := by
  induction l generalizing j with
  | nil => simp [editList]
  | cons v rest ih =>
    rw [List.zipIdx_cons, List.forall_mem_cons, editList]
    split
    · rename_i e he
      simp [he]
    · rename_i v' hv
      exact ih.trans (and_iff_right ⟨v', hv⟩).symm

omit [DecidableEq K] in
/-- **An edit ends well exactly if every single edit does.** -/
theorem edit_eq_none_iff {f : K → ℕ → V → Except ε V} {m : ListMap K V} :
    (m.edit f).2 = none ↔ ∀ e ∈ m.entries, ∀ p ∈ e.2.zipIdx, ∃ v', f e.1 p.2 p.1 = .ok v' := by
  have hentries : ∀ es : List (Σ _ : K, List V),
      (editEntries f es).2 = none ↔ ∀ e ∈ es, (editList (f e.1) 0 e.2).2 = none := by
    intro es
    induction es with
    | nil => simp [editEntries]
    | cons e es ih =>
      obtain ⟨k, l⟩ := e
      rw [List.forall_mem_cons]
      unfold editEntries
      split
      · rename_i hedit
        simp [hedit]
      · rename_i hedit
        rw [hedit]
        exact ih.trans (and_iff_right rfl).symm
  apply (hentries m.entries).trans
  simp only [editList_eq_none_iff]

/-- Change every value, given its key and its place under it. -/
def mapIdx (g : K → ℕ → V → V) (m : ListMap K V) : ListMap K V :=
  ⟨m.entries.map fun e => ⟨e.1, e.2.mapIdx (g e.1)⟩, by
    have hkeys : (m.entries.map fun e => (⟨e.1, e.2.mapIdx (g e.1)⟩ : Σ _ : K, List V)).keys
        = m.entries.keys := List.map_map
    rw [List.NodupKeys, hkeys]
    exact m.nodupKeys⟩

/-- A list whose single edits are known. -/
theorem editList_eq {f : ℕ → V → Except ε V} {g : ℕ → V → V} {j : ℕ} {l : List V}
    (h : ∀ p ∈ l.zipIdx j, f p.2 p.1 = .ok (g p.2 p.1)) :
    editList f j l = (l.mapIdx fun i => g (j + i), none) := by
  induction l generalizing j with
  | nil => rfl
  | cons v rest ih =>
    rw [List.zipIdx_cons, List.forall_mem_cons] at h
    obtain ⟨hv, hrest⟩ := h
    have hplace : (fun i => g (j + 1 + i)) = fun i => g (j + (i + 1)) := by
      funext i
      rw [Nat.add_assoc, Nat.add_comm 1 i]
    rw [editList, hv, ih hrest, hplace, List.mapIdx_cons]
    rfl

omit [DecidableEq K] in
/-- **An edit whose single edits are known** changes every value in its
place, and nothing else. -/
theorem edit_eq {f : K → ℕ → V → Except ε V} {g : K → ℕ → V → V} {m : ListMap K V}
    (h : ∀ e ∈ m.entries, ∀ p ∈ e.2.zipIdx, f e.1 p.2 p.1 = .ok (g e.1 p.2 p.1)) :
    m.edit f = (m.mapIdx g, none) := by
  have hentries : ∀ es : List (Σ _ : K, List V),
      (∀ e ∈ es, ∀ p ∈ e.2.zipIdx, f e.1 p.2 p.1 = .ok (g e.1 p.2 p.1)) →
        editEntries f es = (es.map fun e => ⟨e.1, e.2.mapIdx (g e.1)⟩, none) := by
    intro es
    induction es with
    | nil => exact fun _ => rfl
    | cons e es ih =>
      intro hes
      rw [List.forall_mem_cons] at hes
      obtain ⟨k, l⟩ := e
      have hl : editList (f k) 0 l = (l.mapIdx (g k), none) := by
        rw [editList_eq hes.1]
        simp only [Nat.zero_add]
      rw [editEntries, hl, ih hes.2, List.map_cons]
  have hm := hentries m.entries h
  apply Prod.ext
  · apply AList.ext
    show (editEntries f m.entries).1 = _
    rw [hm]
    rfl
  · show (editEntries f m.entries).2 = none
    rw [hm]

omit [DecidableEq K] in
/-- **What every single edit keeps, the whole edit keeps**, key by key. -/
theorem shape_edit {f : K → ℕ → V → Except ε V} {g : V → γ}
    (h : ∀ k j v v', f k j v = .ok v' → g v' = g v) (m : ListMap K V) :
    (m.edit f).1.shape g = m.shape g := by
  have hentries : ∀ es : List (Σ _ : K, List V),
      (editEntries f es).1.map (fun e => (e.1, e.2.map g)) = es.map fun e => (e.1, e.2.map g) := by
    intro es
    induction es with
    | nil => rfl
    | cons e es ih =>
      obtain ⟨k, l⟩ := e
      have hl := map_editList (h k) 0 l
      unfold editEntries
      split
      · rename_i hedit
        rw [hedit] at hl
        rw [List.map_cons, List.map_cons, hl]
      · rename_i hedit
        rw [hedit] at hl
        rw [List.map_cons, List.map_cons, hl, ih]
  exact hentries m.entries

omit [DecidableEq K] in
theorem map_values (g : V → γ) (m : ListMap K V) :
    m.values.map g = (m.shape g).flatMap Prod.snd := by
  rw [values, shape, List.map_flatMap, List.flatMap_map]

omit [DecidableEq K] in
theorem map_values_edit {f : K → ℕ → V → Except ε V} {g : V → γ}
    (h : ∀ k j v v', f k j v = .ok v' → g v' = g v) (m : ListMap K V) :
    (m.edit f).1.values.map g = m.values.map g := by
  rw [map_values, shape_edit h, ← map_values]

omit [DecidableEq K] in
theorem keyed_iff_shape {key : V → K} {m : ListMap K V} :
    Keyed key m ↔ ∀ p ∈ m.shape key, ∀ k ∈ p.2, k = p.1 := by
  unfold Keyed shape
  rw [List.forall_mem_map]
  simp only [List.forall_mem_map]

omit [DecidableEq K] in
/-- Edits that keep the keys keep the map keyed. -/
theorem Keyed.edit {key : V → K} {m : ListMap K V} (hm : Keyed key m)
    {f : K → ℕ → V → Except ε V} (h : ∀ k j v v', f k j v = .ok v' → key v' = key v) :
    Keyed key (m.edit f).1 := by
  rw [keyed_iff_shape, shape_edit h, ← keyed_iff_shape]
  exact hm

/-! ### Key by key -/

theorem map_under (g : V → γ) (m : ListMap K V) (k : K) :
    (m.under k).map g = ((m.shape g).lookup k).getD [] := by
  have hentries : ∀ es : List (Σ _ : K, List V),
      ((es.dlookup k).getD []).map g = ((es.map fun e => (e.1, e.2.map g)).lookup k).getD [] := by
    intro es
    induction es with
    | nil => rfl
    | cons e es ih =>
      obtain ⟨k', l⟩ := e
      rw [List.map_cons, List.lookup_cons]
      by_cases hk : k = k'
      · subst hk
        rw [List.dlookup_cons_eq, beq_self_eq_true]
        rfl
      · rw [List.dlookup_cons_ne _ _ hk, ih, beq_false_of_ne hk]
  exact hentries m.entries

theorem under_push (m : ListMap K V) (k k' : K) (v : V) :
    (m.push k v).under k' = m.under k' ++ if k = k' then [v] else [] := by
  unfold push
  split_ifs with hk
  · subst hk
    rw [under, AList.lookup_insert]
    rfl
  · rw [under, AList.lookup_insert_ne (Ne.symm hk), List.append_nil]
    rfl

theorem lookup_push_ne {m : ListMap K V} {k k' : K} {v : V} (h : k' ≠ k) :
    (m.push k v).lookup k' = m.lookup k' := AList.lookup_insert_ne h

theorem mem_push {m : ListMap K V} {k k' : K} {v : V} : k' ∈ m.push k v ↔ k' = k ∨ k' ∈ m :=
  AList.mem_insert m

omit [DecidableEq K] in
theorem mem_iff_shape (g : V → γ) {m : ListMap K V} {k : K} :
    k ∈ m ↔ k ∈ (m.shape g).map Prod.fst := by
  rw [shape, List.map_map]
  exact Iff.rfl

theorem under_of_not_mem {m : ListMap K V} {k : K} (h : k ∉ m) : m.under k = [] := by
  rw [under, AList.lookup_eq_none.mpr h]
  rfl

theorem under_perm {m m' : ListMap K V} (h : m.entries.Perm m'.entries) (k : K) :
    m.under k = m'.under k := by
  rw [under, under, AList.perm_lookup h]

/-! ### Empty lists -/

omit [DecidableEq K] in
theorem NoEmpty.empty : NoEmpty (∅ : ListMap K V) := by
  intro e he
  cases he

omit [DecidableEq K] in
theorem NoEmpty.perm {m m' : ListMap K V} (h : m.NoEmpty) (hp : m.entries.Perm m'.entries) :
    m'.NoEmpty :=
  fun e he => h e (hp.mem_iff.mpr he)

omit [DecidableEq K] in
theorem NoEmpty.sublist {m m' : ListMap K V} (h : m.NoEmpty)
    (hsub : m'.entries.Sublist m.entries) : m'.NoEmpty :=
  fun e he => h e (hsub.subset he)

theorem NoEmpty.push {m : ListMap K V} (h : m.NoEmpty) (k : K) (v : V) : NoEmpty (m.push k v) := by
  intro e he
  rcases List.mem_cons.mp he with rfl | he
  · exact List.append_ne_nil_of_right_ne_nil _ (List.cons_ne_nil v [])
  · exact h e ((List.kerase_sublist k m.entries).subset he)

omit [DecidableEq K] in
theorem noEmpty_iff_shape (g : V → γ) {m : ListMap K V} :
    m.NoEmpty ↔ ∀ p ∈ m.shape g, p.2 ≠ [] := by
  unfold NoEmpty shape
  rw [List.forall_mem_map]
  simp only [ne_eq, List.map_eq_nil_iff]

end ListMap

end ResilientMesh
