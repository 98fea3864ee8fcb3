/-
ResilientMesh/FibonacciMemory.lean

The size of `fibMap` while `calculateFibonacci` runs.

Between two heads of the loop the map passes through further states: it has
some of the round's three puts, and where it is cut down it is empty and then
gets back some of the entries of `temp`.  `putAll` copies these in an order of
the hash map's own, so they come here in any order.  Together with the seven
puts of the beginning these are the moments of a run (`FibMoment`).

Every put adds one entry at most, which bounds the map at a moment by its size
at the head before it.  What is cut away lies below the window that is left,
and the rounds to come read within theirs.

Main result: the map is a window of 7 to 13 entries at every head, has 16
entries at most at every moment, and never loses a key that a later round
reads (`fibMap_bounded`).
-/
import ResilientMesh.Fibonacci

namespace ResilientMesh

/-! ### Moments -/

def FibMap.putAll (m : FibMap) (entries : List (Σ _ : ℤ, Option ℤ)) : FibMap :=
  entries.foldl (fun m e => m.put e.1 e.2) m

/-- The entries that `fillFirstElements` puts. -/
def firstElements : List (Σ _ : ℤ, Option ℤ) :=
  [⟨0, some 0⟩, ⟨1, some 1⟩, ⟨2, some 1⟩, ⟨3, some 2⟩, ⟨4, some 3⟩, ⟨5, some 5⟩, ⟨6, some 8⟩]

/-- The map after the first `j` puts of a round. -/
def afterPuts (order : Equiv.Perm (Fin 3)) (workers : Fin 3 → FibWorker) (m : FibMap) (j : ℕ) :
    FibMap :=
  ((List.finRange 3).take j).foldl (fun m t => (workers (order t)).run m) m

/-- The keys that a round reads, in the order of the code. -/
def FibState.keysRead (s : FibState) : List ℤ :=
  [s.i - 3, s.i - 6, s.i - 2, s.i - 5, s.i - 1, s.i - 4]

section Moments

variable (wrap : ℤ → ℤ) (n : ℤ)

/-- One round of the loop, in some order. -/
def FibStep (s s' : FibState) : Prop := s.i ≤ n ∧ ∃ order, s' = s.next wrap order

/-- `temp` of the round that begins in `s`. -/
def FibState.temp (s : FibState) (order : Equiv.Perm (Fin 3)) : FibMap :=
  lastSeven wrap (wrap (s.i + 2)) (runRound order (roundWorkers wrap s) s.fibMap)

/-- What `fibMap` is at some moment of the call. -/
inductive FibMoment : FibMap → Prop
  | fill (j : ℕ) : FibMoment (FibMap.putAll ∅ (firstElements.take j))
  | head {s : FibState} : FibHead wrap n s → FibMoment s.fibMap
  | put {s : FibState} (order : Equiv.Perm (Fin 3)) (j : ℕ) :
      FibHead wrap n s → s.i ≤ n → FibMoment (afterPuts order (roundWorkers wrap s) s.fibMap j)
  | refill {s : FibState} (order : Equiv.Perm (Fin 3)) {entries : List (Σ _ : ℤ, Option ℤ)}
      (j : ℕ) :
      FibHead wrap n s → s.i ≤ n →
      (runRound order (roundWorkers wrap s) s.fibMap).size > 14 →
      entries.Perm (s.temp wrap order).entries →
      FibMoment (FibMap.putAll ∅ (entries.take j))

end Moments

/-! ### The moments are those of the loop -/

theorem putAll_firstElements (m : FibMap) : m.putAll firstElements = fillFirstElements m := rfl

theorem afterPuts_three (order : Equiv.Perm (Fin 3)) (workers : Fin 3 → FibWorker) (m : FibMap) :
    afterPuts order workers m 3 = runRound order workers m := rfl

theorem lookup_putAll (m : FibMap) {entries : List (Σ _ : ℤ, Option ℤ)} (h : entries.NodupKeys)
    (k : ℤ) : (m.putAll entries).lookup k = (entries.dlookup k).or (m.lookup k) := by
  induction entries generalizing m with
  | nil => rfl
  | cons e entries ih =>
    obtain ⟨key, value⟩ := e
    rw [List.nodupKeys_cons] at h
    show ((m.put key value).putAll entries).lookup k = _
    rw [ih _ h.2, FibMap.lookup_put]
    by_cases hk : k = key
    · subst hk
      rw [if_pos rfl, List.dlookup_cons_eq, List.dlookup_eq_none.mpr h.1]
      rfl
    · rw [if_neg hk, List.dlookup_cons_ne entries ⟨key, value⟩ hk]

/-- With all its entries back, in whatever order, the map is `temp`. -/
theorem lookup_putAll_perm {temp : FibMap} {entries : List (Σ _ : ℤ, Option ℤ)}
    (h : entries.Perm temp.entries) (k : ℤ) :
    (FibMap.putAll ∅ entries).lookup k = temp.lookup k := by
  have hnodup : entries.NodupKeys := (List.perm_nodupKeys h).mpr temp.nodupKeys
  rw [lookup_putAll ∅ hnodup, AList.lookup_empty, Option.or_none]
  exact List.perm_dlookup k hnodup h

/-- The workers of a round are made of the keys that it reads. -/
theorem roundWorkers_congr {s s' : FibState} (hi : s.i = s'.i)
    (hget : ∀ k ∈ s.keysRead, s.fibMap.get k = s'.fibMap.get k) :
    roundWorkers id s = roundWorkers id s' := by
  have hread : ∀ d : ℤ, s.i - d ∈ s.keysRead → s.fibMap.get (s.i - d) = s'.fibMap.get (s'.i - d) :=
    fun d hd => (hget _ hd).trans (congrArg _ (congrArg (· - d) hi))
  funext j
  match j with
  | 0 =>
    show FibWorker.mk s.i (s.fibMap.get (s.i - 3)) (s.fibMap.get (s.i - 6)) = _
    rw [hread 3 (by simp [FibState.keysRead]), hread 6 (by simp [FibState.keysRead]), hi]
    rfl
  | 1 =>
    show FibWorker.mk (s.i + 1) (s.fibMap.get (s.i - 2)) (s.fibMap.get (s.i - 5)) = _
    rw [hread 2 (by simp [FibState.keysRead]), hread 5 (by simp [FibState.keysRead]), hi]
    rfl
  | 2 =>
    show FibWorker.mk (s.i + 2) (s.fibMap.get (s.i - 1)) (s.fibMap.get (s.i - 4)) = _
    rw [hread 1 (by simp [FibState.keysRead]), hread 4 (by simp [FibState.keysRead]), hi]
    rfl

theorem mem_keysRead {s : FibState} {k : ℤ} : k ∈ s.keysRead ↔ s.i - 6 ≤ k ∧ k < s.i := by
  simp only [FibState.keysRead, List.mem_cons, List.not_mem_nil, or_false]
  omega

/-! ### Each put adds one entry at most -/

theorem FibMap.size_put_le (m : FibMap) (key : ℤ) (value : Option ℤ) :
    (m.put key value).size ≤ m.size + 1 := by
  rw [FibMap.size, FibMap.put, AList.keys_insert, List.length_cons]
  exact Nat.succ_le_succ List.length_erase_le

theorem FibWorker.size_run_le (w : FibWorker) (m : FibMap) : (w.run m).size ≤ m.size + 1 := by
  rw [FibWorker.run]
  split
  · exact m.size_put_le _ _
  · exact Nat.le_succ _

theorem size_foldl_le {α : Type*} {f : FibMap → α → FibMap}
    (hf : ∀ m a, (f m a).size ≤ m.size + 1) (as : List α) (m : FibMap) :
    (as.foldl f m).size ≤ m.size + as.length := by
  induction as generalizing m with
  | nil => exact le_rfl
  | cons a as ih =>
    calc (as.foldl f (f m a)).size ≤ (f m a).size + as.length := ih (f m a)
      _ ≤ m.size + 1 + as.length := Nat.add_le_add_right (hf m a) _
      _ = m.size + (a :: as).length := by rw [List.length_cons]; ring

theorem FibMap.size_putAll_le (m : FibMap) (entries : List (Σ _ : ℤ, Option ℤ)) :
    (m.putAll entries).size ≤ m.size + entries.length := by
  apply size_foldl_le
  intro m e
  exact m.size_put_le e.1 e.2

theorem size_afterPuts_le (order : Equiv.Perm (Fin 3)) (workers : Fin 3 → FibWorker) (m : FibMap)
    (j : ℕ) : (afterPuts order workers m j).size ≤ m.size + 3 := by
  refine (size_foldl_le (fun m t => (workers (order t)).size_run_le m) _ m).trans ?_
  exact Nat.add_le_add_left ((List.take_sublist j _).length_le) m.size

theorem size_lastSeven_le (wrap : ℤ → ℤ) (i : ℤ) (m : FibMap) : (lastSeven wrap i m).size ≤ 7 :=
  size_foldl_le (fun temp (j : ℕ) => temp.size_put_le (wrap (i - j)) (m.get (wrap (i - j))))
    (List.range 7) ∅

/-! ### The windows -/

theorem Holds.mem_iff {m : FibMap} {lo hi k : ℤ} (h : Holds m lo hi) :
    k ∈ m ↔ lo ≤ k ∧ k < hi := by
  rw [← AList.lookup_isSome, h k]
  split_ifs with hk <;> simp [hk]

theorem Window.size {lo : ℤ} {s : FibState} (h : Window lo s) :
    7 ≤ s.fibMap.size ∧ s.fibMap.size ≤ 13 := by
  rw [h.holds.size]
  rcases h.width with hw | hw | hw <;> omega

/-- What a round cuts away lies before the keys that the next one reads. -/
theorem Window.dropped {lo k : ℤ} {s : FibState} (h : Window lo s) (order : Equiv.Perm (Fin 3))
    (hk : k ∈ runRound order (roundWorkers id s) s.fibMap)
    (hdrop : k ∉ (s.next id order).fibMap) : k < (s.next id order).i - 6 := by
  obtain ⟨⟨lo', hwin⟩, hi⟩ := h.next order
  rw [(h.holds_runRound order).mem_iff] at hk
  rw [hwin.holds.mem_iff] at hdrop
  rcases hwin.width with hw | hw | hw <;> omega

variable {n : ℤ}

/-- The heads to come are heads of the run, and the index only grows. -/
theorem FibHead.later {s s' : FibState} (h : FibHead id n s)
    (hrun : Relation.ReflTransGen (FibStep id n) s s') : FibHead id n s' ∧ s.i ≤ s'.i := by
  induction hrun with
  | refl => exact ⟨h, le_rfl⟩
  | tail _ hstep ih =>
    obtain ⟨hhead, hle⟩ := ih
    obtain ⟨hn, order, rfl⟩ := hstep
    obtain ⟨⟨lo, hwin⟩, -⟩ := hhead.window
    refine ⟨hhead.next order hn, ?_⟩
    rw [(hwin.next order).2]
    exact hle.trans (Int.le_add_of_nonneg_right (by decide))

/-- **At no moment does the map hold more than 16 entries.** -/
theorem FibMoment.size_le {m : FibMap} (h : FibMoment id n m) : m.size ≤ 16 := by
  cases h with
  | fill j =>
    calc _ ≤ (∅ : FibMap).size + (firstElements.take j).length := FibMap.size_putAll_le _ _
      _ ≤ (∅ : FibMap).size + firstElements.length :=
        Nat.add_le_add_left (List.take_sublist j _).length_le _
      _ ≤ 16 := by decide
  | head hs =>
    obtain ⟨⟨lo, hwin⟩, -⟩ := hs.window
    exact hwin.size.2.trans (by decide)
  | put order j hs _ =>
    obtain ⟨⟨lo, hwin⟩, -⟩ := hs.window
    exact (size_afterPuts_le _ _ _ _).trans (Nat.add_le_add_right hwin.size.2 3)
  | @refill s order entries j _ _ _ hperm =>
    have hlength : entries.length = (s.temp id order).size := by
      rw [hperm.length_eq, FibMap.size, AList.keys, List.keys, List.length_map]
    calc _ ≤ (∅ : FibMap).size + (entries.take j).length := FibMap.size_putAll_le _ _
      _ ≤ (∅ : FibMap).size + entries.length :=
        Nat.add_le_add_left (List.take_sublist j _).length_le _
      _ ≤ 0 + 7 := Nat.add_le_add_left (hlength.trans_le (size_lastSeven_le _ _ _)) 0
      _ ≤ 16 := by decide

/-- **`fibMap` is bounded, whatever `n`**: a window of 7 to 13 entries at the
heads, 16 entries at most at any moment, and no key that a later round reads
is ever cut away. -/
theorem fibMap_bounded (n : ℤ) :
    (∀ s, FibHead id n s →
      (∃ lo, ∀ k, k ∈ s.fibMap ↔ lo ≤ k ∧ k ≤ s.i - 1) ∧
        7 ≤ s.fibMap.size ∧ s.fibMap.size ≤ 13) ∧
    (∀ m, FibMoment id n m → m.size ≤ 16) ∧
    (∀ s, FibHead id n s → ∀ k ∈ s.keysRead, k ∈ s.fibMap) ∧
    ∀ s order k, FibHead id n s → s.i ≤ n →
      k ∈ runRound order (roundWorkers id s) s.fibMap → k ∉ (s.next id order).fibMap →
      ∀ s', Relation.ReflTransGen (FibStep id n) (s.next id order) s' → k ∉ s'.keysRead := by
  refine ⟨?heads, fun m hm => hm.size_le, ?present, ?dropped⟩
  case heads =>
    intro s hs
    obtain ⟨⟨lo, hwin⟩, -⟩ := hs.window
    refine ⟨⟨lo, fun k => ?_⟩, hwin.size⟩
    rw [hwin.holds.mem_iff, Int.le_sub_one_iff]
  case present =>
    intro s hs k hk
    obtain ⟨⟨lo, hwin⟩, -⟩ := hs.window
    rw [mem_keysRead] at hk
    rw [hwin.holds.mem_iff]
    rcases hwin.width with hw | hw | hw <;> omega
  case dropped =>
    intro s order k hs hn hk hdrop s' hrun hread
    obtain ⟨⟨lo, hwin⟩, -⟩ := hs.window
    have hlow := hwin.dropped order hk hdrop
    have hgrow := ((hs.next order hn).later hrun).2
    rw [mem_keysRead] at hread
    omega

end ResilientMesh
