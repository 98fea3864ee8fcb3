/-
ResilientMesh/Fibonacci.lean

`calculateFibonacci` of the calculation service.  Each round of its loop
starts three workers, which put three new numbers into a shared map by
`F(k) = 4 * F(k - 3) + F(k - 6)`; when the map has grown beyond 14 entries it
is cut down to the last seven.

The order in which the three workers put is chosen anew in every round, and
each `HashMap.put` is one atomic step, though the map is not synchronized.  Int
arithmetic goes through `wrap`: the identity for arithmetic without
wrap-around, reduction modulo `2 ^ 32` for Java's.  The loop has fuel, since
with wrap-around it need not end.

At every head of the loop the map is a window (`Window`): a run of 7, 10 or 13
consecutive numbers that ends just below the index.  Main result: the window
survives every round and every order (`FibHead.window`), so no worker starts
without its predecessors and the answer is there (`calculateFibonacci_eq`).
-/
import Mathlib

namespace ResilientMesh

/-! ### The map -/

/-- A map from integers to integers that admits null values. -/
abbrev FibMap := AList fun _ : ℤ => Option ℤ

/-- `map.get(key)`; null stands for an absent key as well. -/
def FibMap.get (m : FibMap) (key : ℤ) : Option ℤ := (m.lookup key).join

def FibMap.put (m : FibMap) (key : ℤ) (value : Option ℤ) : FibMap := m.insert key value

/-- `map.size()`. -/
def FibMap.size (m : FibMap) : ℕ := m.keys.length

/-! ### The workers -/

/-- The fields of a `Fibonacci` worker; either number may be null. -/
structure FibWorker where
  index : ℤ
  par_n3 : Option ℤ
  par_n6 : Option ℤ

/-- `run`: with a null number the worker dies before its put. -/
def FibWorker.run (w : FibWorker) (fibList : FibMap) : FibMap :=
  match w.par_n3, w.par_n6 with
  | some par_n3, some par_n6 => fibList.put w.index (some (par_n3 * 4 + par_n6))
  | _, _ => fibList

def fillFirstElements (fib : FibMap) : FibMap :=
  ((((((fib.put 0 (some 0)).put 1 (some 1)).put 2 (some 1)).put 3 (some 2)).put 4 (some 3)).put 5
    (some 5)).put 6 (some 8)

/-! ### The loop -/

/-- The loop index and the map. -/
structure FibState where
  i : ℤ
  fibMap : FibMap

section Loop

variable (wrap : ℤ → ℤ)

/-- The three workers of a round, `h1`, `h2` and `h3`. -/
def roundWorkers (s : FibState) : Fin 3 → FibWorker
  | 0 => ⟨s.i, s.fibMap.get (wrap (s.i - 3)), s.fibMap.get (wrap (s.i - 6))⟩
  | 1 => ⟨wrap (s.i + 1), s.fibMap.get (wrap (s.i - 2)), s.fibMap.get (wrap (s.i - 5))⟩
  | 2 => ⟨wrap (s.i + 2), s.fibMap.get (wrap (s.i - 1)), s.fibMap.get (wrap (s.i - 4))⟩

/-- The three puts, in the given order. -/
def runRound (order : Equiv.Perm (Fin 3)) (workers : Fin 3 → FibWorker) (m : FibMap) : FibMap :=
  (workers (order 2)).run ((workers (order 1)).run ((workers (order 0)).run m))

/-- `temp`: the last seven entries up to `i`. -/
def lastSeven (i : ℤ) (m : FibMap) : FibMap :=
  (List.range 7).foldl (fun temp j => temp.put (wrap (i - j)) (m.get (wrap (i - j)))) ∅

/-- One round of the loop, with the increment that follows it. -/
def FibState.next (order : Equiv.Perm (Fin 3)) (s : FibState) : FibState :=
  let fibMap := runRound order (roundWorkers wrap s) s.fibMap
  let i := wrap (s.i + 2)
  ⟨wrap (i + 1), if fibMap.size > 14 then lastSeven wrap i fibMap else fibMap⟩

/-- The loop; `orders` are those of the rounds to come. -/
def fibLoop (n : ℤ) : ℕ → (ℕ → Equiv.Perm (Fin 3)) → FibState → Option FibMap
  | 0, _, _ => none
  | fuel + 1, orders, s =>
    if s.i ≤ n then fibLoop n fuel (fun round => orders (round + 1)) (s.next wrap (orders 0))
    else some s.fibMap

/-- The state in which the loop begins. -/
def fibStart : FibState := ⟨7, fillFirstElements ∅⟩

/-- `calculateFibonacci`, without its counter. -/
def calculateFibonacci (orders : ℕ → Equiv.Perm (Fin 3)) (fuel : ℕ) (n : ℤ) :
    Option (Option ℤ) :=
  if n < 7 then some ((fillFirstElements ∅).get n)
  else (fibLoop wrap n fuel orders fibStart).map fun fibMap => fibMap.get n

/-- The states at the head of the loop, for whatever orders. -/
inductive FibHead (n : ℤ) : FibState → Prop
  | start : FibHead n fibStart
  | next {s : FibState} (order : Equiv.Perm (Fin 3)) :
      FibHead n s → s.i ≤ n → FibHead n (s.next wrap order)

end Loop

/-! ### Windows -/

/-- The Fibonacci numbers, by an integer index. -/
def fibAt (k : ℤ) : ℤ := Nat.fib k.toNat

/-- The map holds the Fibonacci numbers from `lo` up to below `hi`, and
nothing else. -/
def Holds (m : FibMap) (lo hi : ℤ) : Prop :=
  ∀ k, m.lookup k = if lo ≤ k ∧ k < hi then some (some (fibAt k)) else none

/-- The map at the head of the loop: a run of numbers that ends below `i`. -/
structure Window (lo : ℤ) (s : FibState) : Prop where
  nonneg : 0 ≤ lo
  width : s.i = lo + 7 ∨ s.i = lo + 10 ∨ s.i = lo + 13
  holds : Holds s.fibMap lo s.i

/-- The recurrence of stride 3. -/
theorem fibAt_rec {k : ℤ} (h : 0 ≤ k) : fibAt (k + 3) * 4 + fibAt k = fibAt (k + 6) := by
  obtain ⟨m, rfl⟩ := Int.eq_ofNat_of_zero_le h
  have hrec : Nat.fib (m + 3) * 4 + Nat.fib m = Nat.fib (m + 6) := by
    simp only [Nat.fib_add_two, show m + 3 = (m + 1) + 2 from rfl,
      show m + 6 = (m + 4) + 2 from rfl, show m + 4 = (m + 2) + 2 from rfl,
      show m + 5 = (m + 3) + 2 from rfl]
    omega
  unfold fibAt
  rw [show ((m : ℤ) + 3).toNat = m + 3 by omega, show ((m : ℤ) + 6).toNat = m + 6 by omega,
    Int.toNat_natCast]
  exact_mod_cast hrec

theorem Holds.get {m : FibMap} {lo hi k : ℤ} (h : Holds m lo hi) (hlo : lo ≤ k) (hhi : k < hi) :
    m.get k = some (fibAt k) := by
  rw [FibMap.get, h k, if_pos ⟨hlo, hhi⟩]
  rfl

theorem Holds.size {m : FibMap} {lo hi : ℤ} (h : Holds m lo hi) : m.size = (hi - lo).toNat := by
  have hmem : ∀ k, k ∈ m.keys ↔ lo ≤ k ∧ k < hi := by
    intro k
    rw [← AList.mem_keys, ← AList.lookup_isSome, h k]
    split_ifs with hk <;> simp [hk]
  have hkeys : m.keys.toFinset = Finset.Ico lo hi := by
    ext k
    rw [List.mem_toFinset, hmem k, Finset.mem_Ico]
  rw [FibMap.size, ← List.toFinset_card_of_nodup m.keys_nodup, hkeys, Int.card_Ico]

/-- A worker that has its two predecessors. -/
structure FibWorker.Ready (w : FibWorker) (par_n3 par_n6 : ℤ) : Prop where
  par_n3_eq : w.par_n3 = some par_n3
  par_n6_eq : w.par_n6 = some par_n6
  value_eq : par_n3 * 4 + par_n6 = fibAt w.index

theorem FibMap.lookup_put (m : FibMap) (key k : ℤ) (value : Option ℤ) :
    (m.put key value).lookup k = if k = key then some value else m.lookup k := by
  unfold FibMap.put
  split_ifs with hk
  · subst hk
    exact AList.lookup_insert m
  · exact AList.lookup_insert_ne hk

theorem FibWorker.Ready.lookup_run {w : FibWorker} {a b : ℤ} (h : w.Ready a b) (m : FibMap)
    (k : ℤ) : (w.run m).lookup k = if k = w.index then some (some (fibAt k)) else m.lookup k := by
  rw [FibWorker.run, h.par_n3_eq, h.par_n6_eq]
  dsimp only
  rw [FibMap.lookup_put, h.value_eq]
  split_ifs with hk
  · rw [hk]
  · rfl

/-! ### One round -/

/-- **No worker is constructed with a null predecessor.** -/
theorem Window.ready {lo : ℤ} {s : FibState} (h : Window lo s) (k : Fin 3) :
    ∃ a b, (roundWorkers id s k).Ready a b := by
  have hle : lo + 7 ≤ s.i := by
    rcases h.width with hw | hw | hw <;> omega
  have hlo := h.nonneg
  have hget : ∀ j : ℤ, 1 ≤ j → j ≤ 6 → s.fibMap.get (s.i - j) = some (fibAt (s.i - j)) :=
    fun j h₁ h₆ => h.holds.get (by omega) (by omega)
  have hrec : ∀ j : ℤ, 4 ≤ j → j ≤ 6 →
      fibAt (s.i - (j - 3)) * 4 + fibAt (s.i - j) = fibAt (s.i + (6 - j)) := by
    intro j h₄ h₆
    have h := @fibAt_rec (s.i - j) (by omega)
    rw [show s.i - j + 3 = s.i - (j - 3) by omega, show s.i - j + 6 = s.i + (6 - j) by omega] at h
    exact h
  match k with
  | 0 =>
    refine ⟨_, _, hget 3 (by decide) (by decide), hget 6 (by decide) (by decide), ?_⟩
    exact (hrec 6 (by decide) (by decide)).trans (congrArg fibAt (add_zero s.i))
  | 1 => exact ⟨_, _, hget 2 (by decide) (by decide), hget 5 (by decide) (by decide),
      hrec 5 (by decide) (by decide)⟩
  | 2 => exact ⟨_, _, hget 1 (by decide) (by decide), hget 4 (by decide) (by decide),
      hrec 4 (by decide) (by decide)⟩

/-- Three workers that are ready put their three numbers, in any order. -/
theorem lookup_runRound {workers : Fin 3 → FibWorker} (h : ∀ j, ∃ a b, (workers j).Ready a b)
    (order : Equiv.Perm (Fin 3)) (m : FibMap) (k : ℤ) :
    (runRound order workers m).lookup k
      = if ∃ j, k = (workers j).index then some (some (fibAt k)) else m.lookup k := by
  obtain ⟨a₀, b₀, h₀⟩ := h (order 0)
  obtain ⟨a₁, b₁, h₁⟩ := h (order 1)
  obtain ⟨a₂, b₂, h₂⟩ := h (order 2)
  rw [runRound, h₂.lookup_run, h₁.lookup_run, h₀.lookup_run]
  by_cases hk : ∃ j, k = (workers j).index
  · rw [if_pos hk]
    obtain ⟨j, hj⟩ := hk
    obtain ⟨t, rfl⟩ := order.surjective j
    match t with
    | 0 => split_ifs <;> rfl
    | 1 => split_ifs <;> rfl
    -- whichever put comes last, each of them puts the Fibonacci number of its key
    | 2 => rw [if_pos hj]
  · rw [if_neg hk, if_neg fun e => hk ⟨_, e⟩, if_neg fun e => hk ⟨_, e⟩, if_neg fun e => hk ⟨_, e⟩]

/-- After the three puts the window is longer by three, whatever the order. -/
theorem Window.holds_runRound {lo : ℤ} {s : FibState} (h : Window lo s)
    (order : Equiv.Perm (Fin 3)) :
    Holds (runRound order (roundWorkers id s) s.fibMap) lo (s.i + 3) := by
  have hle : lo + 7 ≤ s.i := by
    rcases h.width with hw | hw | hw <;> omega
  intro k
  have hindex : (∃ j, k = (roundWorkers id s j).index) ↔ s.i ≤ k ∧ k < s.i + 3 := by
    rw [Fin.exists_fin_succ, Fin.exists_fin_two]
    show k = s.i ∨ k = s.i + 1 ∨ k = s.i + 2 ↔ s.i ≤ k ∧ k < s.i + 3
    omega
  rw [lookup_runRound h.ready, h.holds k]
  simp only [hindex]
  split_ifs <;> first | rfl | omega

/-- What is cut down to is the window of the last seven. -/
theorem lookup_lastSeven (i : ℤ) (m : FibMap) (k : ℤ) :
    (lastSeven id i m).lookup k = if i - 6 ≤ k ∧ k ≤ i then some (m.get k) else none := by
  have key : ∀ (js : List ℕ) (temp : FibMap),
      (js.foldl (fun temp j => temp.put (i - j) (m.get (i - j))) temp).lookup k
        = if k ∈ js.map (fun j : ℕ => i - j) then some (m.get k) else temp.lookup k := by
    intro js
    induction js with
    | nil => simp
    | cons j js ih =>
      intro temp
      rw [List.foldl_cons, ih, FibMap.lookup_put]
      simp only [List.map_cons, List.mem_cons]
      by_cases hk : k = i - j
      · subst hk
        simp
      · simp [hk]
  have hmem : k ∈ (List.range 7).map (fun j : ℕ => i - j) ↔ i - 6 ≤ k ∧ k ≤ i := by
    simp only [List.mem_map, List.mem_range]
    constructor
    · rintro ⟨j, hj, rfl⟩
      omega
    · rintro ⟨h₁, h₂⟩
      exact ⟨(i - k).toNat, by omega, by omega⟩
  have h := key (List.range 7) ∅
  simp only [hmem, AList.lookup_empty] at h
  exact h

/-- **A round keeps the window**, and moves it on by three. -/
theorem Window.next {lo : ℤ} {s : FibState} (h : Window lo s) (order : Equiv.Perm (Fin 3)) :
    (∃ lo', Window lo' (s.next id order)) ∧ (s.next id order).i = s.i + 3 := by
  have hi : (s.next id order).i = s.i + 3 := by
    simp only [FibState.next, id]
    ring
  refine ⟨?_, hi⟩
  have hround := h.holds_runRound order
  have hlo := h.nonneg
  by_cases hsize : (runRound order (roundWorkers id s) s.fibMap).size > 14
  · -- from 13 to 16, and cut down to 7
    refine ⟨s.i - 4, by rcases h.width with hw | hw | hw <;> omega, .inl (by omega), ?_⟩
    rw [hi]
    intro k
    have hmap : (s.next id order).fibMap
        = lastSeven id (s.i + 2) (runRound order (roundWorkers id s) s.fibMap) := if_pos hsize
    rw [hmap, lookup_lastSeven]
    by_cases hk : s.i - 4 ≤ k ∧ k < s.i + 3
    · rw [if_pos hk, if_pos (by omega), hround.get (by rcases h.width with hw | hw | hw <;> omega)
        hk.2]
    · rw [if_neg hk, if_neg (by omega)]
  · -- from 7 to 10, or from 10 to 13
    have hsmall := hround.size ▸ hsize
    refine ⟨lo, hlo, by rcases h.width with hw | hw | hw <;> omega, ?_⟩
    rw [hi]
    have hmap : (s.next id order).fibMap = runRound order (roundWorkers id s) s.fibMap :=
      if_neg hsize
    rw [hmap]
    exact hround

/-! ### Every run -/

/-- The seven numbers that are filled in. -/
theorem holds_fillFirstElements : Holds (fillFirstElements ∅) 0 7 := by
  intro k
  simp only [fillFirstElements, FibMap.lookup_put, AList.lookup_empty]
  by_cases hk : 0 ≤ k ∧ k < 7
  · rw [if_pos hk]
    obtain ⟨h₀, h₇⟩ := hk
    interval_cases k <;> rfl
  · rw [if_neg hk]
    split_ifs <;> first | rfl | omega

variable {n : ℤ}

/-- **At every head of the loop the map is a window**, and the index has
passed `n` by at most three. -/
theorem FibHead.window {s : FibState} (h : FibHead id n s) :
    (∃ lo, Window lo s) ∧ (7 ≤ n → s.i ≤ n + 3) := by
  induction h with
  | start => exact ⟨⟨0, le_rfl, .inl rfl, holds_fillFirstElements⟩, fun h => by
      have hi : fibStart.i = 7 := rfl
      omega⟩
  | next order _ hle ih =>
    obtain ⟨⟨lo, hwin⟩, -⟩ := ih
    obtain ⟨hnext, hi⟩ := hwin.next order
    exact ⟨hnext, fun _ => by omega⟩

/-- Where the loop ends, the answer is in the window. -/
theorem FibHead.get {s : FibState} (h : FibHead id n s) (hn : 7 ≤ n) (hlt : n < s.i) :
    s.fibMap.get n = some (fibAt n) := by
  obtain ⟨⟨lo, hwin⟩, hle⟩ := h.window
  have hi := hle hn
  refine hwin.holds.get ?_ hlt
  rcases hwin.width with hw | hw | hw <;> omega

/-- The loop ends, at a head of its own. -/
theorem fibLoop_eq {fuel : ℕ} (orders : ℕ → Equiv.Perm (Fin 3)) {s : FibState}
    (h : FibHead id n s) (hfuel : (n + 1 - s.i).toNat < fuel) :
    ∃ s', fibLoop id n fuel orders s = some s'.fibMap ∧ FibHead id n s' ∧ n < s'.i := by
  induction fuel generalizing orders s with
  | zero => omega
  | succ fuel ih =>
    rw [fibLoop]
    by_cases hle : s.i ≤ n
    · rw [if_pos hle]
      obtain ⟨⟨lo, hwin⟩, -⟩ := h.window
      have hi := (hwin.next (orders 0)).2
      exact ih _ (h.next (orders 0) hle) (by omega)
    · rw [if_neg hle]
      exact ⟨s, rfl, h, by omega⟩

/-- **`calculateFibonacci(n)` is `F(n)`**, in every order of the puts, and no
worker is ever constructed with a null predecessor. -/
theorem calculateFibonacci_eq (n : ℕ) (orders : ℕ → Equiv.Perm (Fin 3)) :
    (∀ fuel, n < fuel → calculateFibonacci id orders fuel n = some (some (Nat.fib n : ℤ))) ∧
      ∀ s, FibHead id n s → ∀ j, (roundWorkers id s j).par_n3 ≠ none ∧
        (roundWorkers id s j).par_n6 ≠ none := by
  constructor
  · intro fuel hfuel
    have hfib : fibAt n = Nat.fib n := by
      rw [fibAt, Int.toNat_natCast]
    unfold calculateFibonacci
    split_ifs with hn
    · rw [holds_fillFirstElements.get (Int.natCast_nonneg n) hn, hfib]
    · obtain ⟨s, hloop, hhead, hlt⟩ := fibLoop_eq orders (.start : FibHead id (n : ℤ) fibStart)
        (by show ((n : ℤ) + 1 - 7).toNat < fuel; omega)
      rw [hloop, Option.map_some, hhead.get (by omega) hlt, hfib]
  · intro s hs j
    obtain ⟨⟨lo, hwin⟩, -⟩ := hs.window
    obtain ⟨a, b, hready⟩ := hwin.ready j
    rw [hready.par_n3_eq, hready.par_n6_eq]
    exact ⟨Option.some_ne_none a, Option.some_ne_none b⟩

end ResilientMesh
