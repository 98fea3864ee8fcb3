/-
ResilientMesh/Prime.lean

`calculatePrime` of the calculation service: `THREADS` workers and the calling
thread examine blocks of numbers and append the primes they find to one
synchronized list.  The threads are a pool over that list, so a result is the
list at the end of any interleaving.  Index arithmetic is taken without
wrap-around here, and on ints in `PrimeThreads`; division and remainder
truncate toward zero, as Java's do.

Together the blocks are one range, each number of it once
(`sum_count_threadNumbers`): from 2 up to `n` if `THREADS` does not divide `n`,
and one too far if it does.

Main results: whatever the interleaving, the result is the primes of that
range, each once (`calculatePrime_perm`), and every prime up to `n` is among
them (`calculatePrime_complete`).
-/
import ResilientMesh.Pool

namespace ResilientMesh

/-! ### Threads -/

/-- Threads that append to one list of integers. -/
abbrev Appending := Prog ℤ (fun _ => Unit) Unit

/-- `primes.add(i)`, under the list's lock. -/
def appendServe : Server (List ℤ) ℤ (fun _ => Unit) := fun primes i _ primes' =>
  primes' = primes ++ [i]

/-- `isPrime`. -/
def isPrime (number : ℤ) : Bool :=
  (Int.range 2 (number.tdiv 2 + 1)).all fun i => number.tmod i ≠ 0

/-- The body of both loops: append the primes among the numbers given. -/
def examine : List ℤ → Appending
  | [] => .ret ()
  | i :: rest => if isPrime i then .call i fun _ => examine rest else examine rest

/-- The numbers of one worker's loop. -/
def workerNumbers (limit THREADS threadId : ℤ) : List ℤ :=
  let everyBlock := limit.tdiv THREADS
  let last := everyBlock * threadId + 2
  Int.range (last - everyBlock) last

/-- The numbers of the remainder loop in `calculatePrime`. -/
def remainderNumbers (n numThreads : ℤ) : List ℤ :=
  let begin_ := (n - n.tmod numThreads) + 2
  Int.range begin_ (n + 1)

/-- The numbers of a thread: 0 is the calling thread, the workers are
`1, …, numThreads`. -/
def threadNumbers (n : ℤ) (numThreads i : ℕ) : List ℤ :=
  if i = 0 then remainderNumbers n numThreads
  else if i < numThreads + 1 then workerNumbers n numThreads i
  else []

/-- `calculatePrime` before any thread has found anything. -/
def primeStart (n : ℤ) (numThreads : ℕ) : Pool ℕ (List ℤ) ℤ (fun _ => Unit) Unit :=
  ⟨[], fun i => examine (threadNumbers n numThreads i)⟩

/-- `calculatePrime(n)` may return `primes`, but for wrap-around: all threads
have been joined. -/
def CalculatePrime (n : ℤ) (numThreads : ℕ) (primes : List ℤ) : Prop :=
  ∃ log c, Pool.Run appendServe (primeStart n numThreads) log c ∧ c.Finished ∧ c.state = primes

/-! ### Trial division -/

theorem isPrime_eq_true {p : ℤ} :
    isPrime p = true ↔ ∀ i, 2 ≤ i → i ≤ p.tdiv 2 → ¬ i ∣ p := by
  simp only [isPrime, List.all_eq_true, Int.mem_range_iff, Int.lt_add_one_iff, decide_eq_true_eq,
    and_imp, ne_eq, Int.dvd_iff_tmod_eq_zero]

/-- **`isPrime` decides primality** of every number it is asked about. -/
theorem isPrime_iff {p : ℕ} (h : 2 ≤ p) : isPrime p = true ↔ p.Prime := by
  have hhalf : (p : ℤ).tdiv 2 = ((p / 2 : ℕ) : ℤ) := by
    rw [Int.tdiv_eq_ediv_of_nonneg (Int.natCast_nonneg p)]
    rfl
  rw [isPrime_eq_true, hhalf]
  constructor
  · intro hno
    refine Nat.prime_def.mpr ⟨h, ?_⟩
    intro m hm
    by_contra hne
    push Not at hne
    obtain ⟨k, rfl⟩ := hm
    -- a proper divisor leaves a cofactor of at least 2
    have hk : 2 ≤ k := by
      rcases k with - | - | k
      · omega
      · exact absurd (Nat.mul_one m).symm hne.2
      · omega
    have hm : 2 ≤ m := by
      rcases m with - | - | m
      · omega
      · exact absurd rfl hne.1
      · omega
    have hle : m ≤ m * k / 2 := (Nat.le_div_iff_mul_le (by decide)).mpr (Nat.mul_le_mul_left m hk)
    exact hno m (by exact_mod_cast hm) (by exact_mod_cast hle)
      (Int.natCast_dvd_natCast.mpr (Nat.dvd_mul_right m k))
  · intro hp i hi hle hdvd
    obtain ⟨m, rfl⟩ := Int.eq_ofNat_of_zero_le (by omega : 0 ≤ i)
    have hm : m ∣ p := Int.natCast_dvd_natCast.mp hdvd
    rcases (Nat.dvd_prime hp).mp hm with rfl | rfl
    · omega
    · omega

/-! ### Blocks -/

theorem count_range (p a b : ℤ) :
    (Int.range a b).count p = if a ≤ p ∧ p < b then 1 else 0 := by
  have hnodup : (Int.range a b).Nodup :=
    List.nodup_range.map fun i j h => by simpa using h
  split_ifs with h
  · exact List.count_eq_one_of_mem hnodup (Int.mem_range_iff.mpr h)
  · exact List.count_eq_zero.mpr fun hmem => h (Int.mem_range_iff.mp hmem)

/-- Adjacent blocks of one size are one range. -/
theorem sum_count_blocks {b : ℤ} (hb : 0 ≤ b) (p : ℤ) (m : ℕ) :
    ∑ k ∈ Finset.range m, (Int.range (b * k + 2) (b * (k + 1 : ℕ) + 2)).count p
      = (Int.range 2 (b * m + 2)).count p := by
  induction m with
  | zero =>
    rw [Finset.sum_range_zero, count_range, if_neg]
    simp only [Nat.cast_zero, mul_zero]
    omega
  | succ m ih =>
    -- block `m` begins where the blocks before it end
    have hm : 0 ≤ b * m := mul_nonneg hb (Int.natCast_nonneg m)
    have hstep : b * ((m + 1 : ℕ) : ℤ) = b * m + b := by push_cast; ring
    rw [Finset.sum_range_succ, ih, hstep]
    simp only [count_range]
    split_ifs <;> omega

/-- The end of what is examined. -/
def primeBound (n : ℤ) (numThreads : ℕ) : ℤ := if (numThreads : ℤ) ∣ n then n + 2 else n + 1

/-- A worker's numbers, for a number of threads that is not 0. -/
theorem workerNumbers_succ (n : ℤ) (numThreads k : ℕ) :
    workerNumbers n numThreads ((k + 1 : ℕ) : ℤ)
      = Int.range (n.tdiv numThreads * k + 2) (n.tdiv numThreads * (k + 1 : ℕ) + 2) := by
  rw [workerNumbers]
  congr 1
  push_cast
  ring

/-- Blocks of no positive length are empty. -/
theorem sum_count_blocks_of_nonpos {q : ℤ} (hq : q ≤ 0) (numThreads : ℕ) (p : ℤ) :
    ∑ k ∈ Finset.range numThreads, (Int.range (q * k + 2) (q * (k + 1 : ℕ) + 2)).count p = 0 := by
  apply Finset.sum_eq_zero
  intro k _
  have hstep : q * ((k + 1 : ℕ) : ℤ) = q * k + q := by
    push_cast
    ring
  rw [count_range, if_neg]
  rintro ⟨h₁, h₂⟩
  omega

/-- **The threads share one range**: together they examine every number of it
once, and no other. -/
theorem sum_count_threadNumbers (n : ℤ) {numThreads : ℕ} (hT : 1 ≤ numThreads) (p : ℤ) :
    ∑ i ∈ Finset.range (numThreads + 1), (threadNumbers n numThreads i).count p
      = (Int.range 2 (primeBound n numThreads)).count p := by
  have hworkers : ∀ k ∈ Finset.range numThreads,
      (threadNumbers n numThreads (k + 1)).count p
        = (Int.range (n.tdiv numThreads * k + 2)
            (n.tdiv numThreads * (k + 1 : ℕ) + 2)).count p := by
    intro k hk
    have hlt : k + 1 < numThreads + 1 := Nat.succ_lt_succ (Finset.mem_range.mp hk)
    rw [threadNumbers, if_neg (Nat.succ_ne_zero k), if_pos hlt, workerNumbers_succ]
  have hmain : threadNumbers n numThreads 0 = remainderNumbers n numThreads := rfl
  have hpos : (0 : ℤ) < numThreads := by exact_mod_cast hT
  rw [Finset.sum_range_succ', Finset.sum_congr rfl hworkers, hmain]
  rcases le_or_gt 0 n with hn | hn
  · -- the blocks end where the remainder loop begins
    have hdiv : n.tdiv numThreads * numThreads + n.tmod numThreads = n := by
      rw [mul_comm]
      exact Int.mul_tdiv_add_tmod n numThreads
    have hmod : 0 ≤ n.tmod numThreads := Int.tmod_nonneg _ hn
    have hdvd : (numThreads : ℤ) ∣ n ↔ n.tmod numThreads = 0 := Int.dvd_iff_tmod_eq_zero
    rw [sum_count_blocks (Int.tdiv_nonneg hn hpos.le), remainderNumbers, primeBound]
    have hquot : 0 ≤ n.tdiv numThreads * numThreads :=
      mul_nonneg (Int.tdiv_nonneg hn hpos.le) hpos.le
    simp only [count_range, hdvd]
    split_ifs <;> omega
  · -- nothing to do at all
    obtain ⟨m, rfl⟩ : ∃ m, n = -m := ⟨-n, (neg_neg n).symm⟩
    have hm : 0 ≤ m := by omega
    have hquot : 0 ≤ m.tdiv numThreads := Int.tdiv_nonneg hm hpos.le
    have hmod : 0 ≤ m.tmod numThreads := Int.tmod_nonneg _ hm
    have hbound : primeBound (-m) numThreads ≤ 2 := by
      unfold primeBound
      split_ifs <;> omega
    have hblocks : (-m).tdiv numThreads ≤ 0 := by
      rw [Int.neg_tdiv]
      omega
    rw [sum_count_blocks_of_nonpos hblocks, remainderNumbers, Int.neg_tmod]
    simp only [count_range]
    split_ifs <;> omega

/-! ### Every interleaving -/

/-- A thread that has ended has appended the primes among its numbers, in
order. -/
theorem examine_path {numbers : List ℤ} {tr : List (Event ℤ fun _ => Unit)} {q : Appending}
    (h : (examine numbers).Path tr q) (hq : q.Returned) :
    tr.map Event.op = numbers.filter isPrime := by
  induction numbers generalizing tr with
  | nil =>
    obtain ⟨rfl, -⟩ := Prog.path_ret_iff.mp h
    rfl
  | cons i rest ih =>
    unfold examine at h
    split_ifs at h with hi
    · rcases Prog.path_call_iff.mp h with ⟨-, rfl⟩ | ⟨_, tr', rfl, h'⟩
      · exact absurd hq (Prog.not_returned_call _ _)
      · rw [List.map_cons, ih h', List.filter_cons_of_pos hi]
    · rw [ih h, List.filter_cons_of_neg hi]

/-- The list is what the log appended, in the log's order. -/
theorem run_appendServe {ι : Type*} [DecidableEq ι] {c₀ c : Pool ι (List ℤ) ℤ (fun _ => Unit) Unit}
    {log : List (Entry ι (List ℤ) ℤ fun _ => Unit)} (h : Pool.Run appendServe c₀ log c) :
    c.state = c₀.state ++ log.map Entry.op := by
  induction h with
  | refl => simp
  | tail _ hstep ih =>
    cases hstep with
    | mk _ _ _ hserve =>
      have happ : _ = _ ++ [_] := hserve
      simp only [Pool.resume_state, List.map_append, List.map_cons, List.map_nil]
      rw [happ, ih, List.append_assoc]

theorem threadNumbers_of_ge {n : ℤ} {numThreads i : ℕ} (h : ¬ i < numThreads + 1) :
    threadNumbers n numThreads i = [] := by
  rw [threadNumbers, if_neg (by omega : ¬ i = 0), if_neg h]

/-- `calculatePrime` does return. -/
theorem exists_calculatePrime (n : ℤ) (numThreads : ℕ) :
    ∃ primes, CalculatePrime n numThreads primes := by
  have hserve : ∀ (primes : List ℤ) (i : ℤ), ∃ (_ : Unit) (primes' : List ℤ),
      appendServe primes i () primes' := fun _ _ => ⟨(), _, rfl⟩
  obtain ⟨log, c, hrun, hfin⟩ := Pool.exists_run_finished hserve
    (Finset.range (numThreads + 1)) (primeStart n numThreads) fun i hi => by
      have hnone : threadNumbers n numThreads i = [] :=
        threadNumbers_of_ge fun hlt => hi (Finset.mem_range.mpr hlt)
      simp only [primeStart, hnone, examine, Prog.returned_ret]
  exact ⟨_, log, c, hrun, hfin, rfl⟩

/-- **What `calculatePrime` returns**: whatever the interleaving, the primes
of the examined range, each once, in some order. -/
theorem calculatePrime_perm {n : ℤ} {numThreads : ℕ} (hT : 1 ≤ numThreads) {primes : List ℤ}
    (h : CalculatePrime n numThreads primes) :
    primes.Perm ((Int.range 2 (primeBound n numThreads)).filter isPrime) := by
  obtain ⟨log, c, hrun, hfin, rfl⟩ := h
  refine List.perm_iff_count.mpr ?_
  intro p
  have hstate : c.state = log.map Entry.op := by
    simpa [primeStart] using run_appendServe hrun
  have hparts : ∀ i, (proj i log).map Event.op = (threadNumbers n numThreads i).filter isPrime :=
    fun i => examine_path (hrun.path i) (hfin i)
  -- no thread beyond the last worker has anything to append
  have hids : Pool.ids log ⊆ Finset.range (numThreads + 1) := by
    intro i hi
    by_contra hge
    have hnone := hparts i
    rw [threadNumbers_of_ge (fun hlt => hge (Finset.mem_range.mpr hlt)), List.filter_nil,
      List.map_eq_nil_iff, Pool.proj_eq_nil_iff] at hnone
    exact hnone hi
  calc c.state.count p
      = log.countP fun e => e.event.op == p := by
        rw [hstate, List.count, List.countP_map]
        rfl
    _ = ∑ i ∈ Finset.range (numThreads + 1), (proj i log).countP fun ev => ev.op == p :=
        Pool.countP_log (fun _ ev => ev.op == p) log _ hids
    _ = ∑ i ∈ Finset.range (numThreads + 1),
          ((threadNumbers n numThreads i).filter isPrime).count p := by
        refine Finset.sum_congr rfl fun i _ => ?_
        rw [← hparts i, List.count, List.countP_map]
        rfl
    _ = ((Int.range 2 (primeBound n numThreads)).filter isPrime).count p := by
        by_cases hp : isPrime p = true
        · simp only [List.count_filter hp]
          exact sum_count_threadNumbers n hT p
        · have hzero : ∀ l : List ℤ, (l.filter isPrime).count p = 0 := by
            intro l
            exact List.count_eq_zero.mpr fun hmem => hp (List.mem_filter.mp hmem).2
          simp [hzero]

/-- What is in a result: the primes below the bound. -/
theorem mem_calculatePrime {n : ℤ} {numThreads : ℕ} (hT : 1 ≤ numThreads) {primes : List ℤ}
    (h : CalculatePrime n numThreads primes) (x : ℤ) :
    x ∈ primes ↔ ∃ p : ℕ, x = p ∧ p.Prime ∧ (p : ℤ) < primeBound n numThreads := by
  rw [(calculatePrime_perm hT h).mem_iff, List.mem_filter, Int.mem_range_iff]
  constructor
  · rintro ⟨⟨hle, hlt⟩, hprime⟩
    obtain ⟨p, rfl⟩ := Int.eq_ofNat_of_zero_le (by omega : 0 ≤ x)
    exact ⟨p, rfl, (isPrime_iff (by omega)).mp hprime, hlt⟩
  · rintro ⟨p, rfl, hp, hlt⟩
    exact ⟨⟨by exact_mod_cast hp.two_le, hlt⟩, (isPrime_iff hp.two_le).mpr hp⟩

theorem calculatePrime_nodup {n : ℤ} {numThreads : ℕ} (hT : 1 ≤ numThreads) {primes : List ℤ}
    (h : CalculatePrime n numThreads primes) : primes.Nodup := by
  refine (calculatePrime_perm hT h).nodup_iff.mpr (List.Nodup.filter _ ?_)
  exact List.nodup_range.map fun i j hij => by simpa using hij

/-- **Every prime up to `n` is found, once; nothing is found twice; and the
result does not depend on the interleaving** but for its order. -/
theorem calculatePrime_complete (n : ℤ) {numThreads : ℕ} (hT : 1 ≤ numThreads) :
    (∃ primes, CalculatePrime n numThreads primes) ∧
      ∀ primes, CalculatePrime n numThreads primes →
        (∀ p : ℕ, p.Prime → (p : ℤ) ≤ n → primes.count (p : ℤ) = 1) ∧
        primes.Nodup ∧
        (n < 0 → primes = []) ∧
        ∀ primes', CalculatePrime n numThreads primes' → primes.Perm primes' := by
  refine ⟨exists_calculatePrime n numThreads, ?_⟩
  intro primes h
  have hbound : n + 1 ≤ primeBound n numThreads ∧ primeBound n numThreads ≤ n + 2 := by
    unfold primeBound
    split_ifs <;> omega
  refine ⟨?_, calculatePrime_nodup hT h, ?_, ?_⟩
  · intro p hp hle
    exact List.count_eq_one_of_mem (calculatePrime_nodup hT h)
      ((mem_calculatePrime hT h p).mpr ⟨p, rfl, hp, by omega⟩)
  · intro hneg
    refine List.eq_nil_iff_forall_not_mem.mpr ?_
    intro x hx
    obtain ⟨p, rfl, hp, hlt⟩ := (mem_calculatePrime hT h x).mp hx
    have hge := hp.two_le
    omega
  · intro primes' h'
    exact (calculatePrime_perm hT h).trans (calculatePrime_perm hT h').symm

/-- Two threads, up to 10. -/
theorem calculatePrime_complete_ten :
    (∃ primes, CalculatePrime 10 2 primes) ∧
      ∀ primes, CalculatePrime 10 2 primes →
        (∀ p : ℕ, p.Prime → (p : ℤ) ≤ 10 → primes.count (p : ℤ) = 1) ∧
        primes.Nodup ∧
        ((10 : ℤ) < 0 → primes = []) ∧
        ∀ primes', CalculatePrime 10 2 primes' → primes.Perm primes' :=
  calculatePrime_complete 10 (by decide)

end ResilientMesh
