/-
ResilientMesh/PrimeThreads.lean

`calculatePrime` on Java ints, from the request to the list that it returns.
Every thread evaluates its int expressions (`runInt`, `remainderInt`), and what
the threads append to the synchronized list interleaves in any order.  An array
that cannot be made and a loop that never ends return nothing.

Where nothing overflows, the lists are those of the search without wrap-around
(`calculatePrimes_iff`).  For `n` one below the largest int and a multiple of
`THREADS` the remainder loop begins at the smallest int, and every negative
number goes into the list (`exists_minInt`).

Main result: for every int `n ≥ 0` and every number of threads, whatever
`calculatePrime` returns keeps to the primes up to `n`, exactly if `THREADS`
does not divide `n` or `n + 1` is no prime (`calculatePrime_le_iff`).
-/
import Mathlib.NumberTheory.LucasLehmer
import ResilientMesh.PrimeInt

namespace ResilientMesh

open IntEval

/-! ### What is returned -/

/-- A thread that appends these numbers. -/
def appendAll : List ℤ → Appending
  | [] => .ret ()
  | i :: rest => .call i fun _ => appendAll rest

/-- What each thread appends: thread 0 is the calling one, the others are the
workers that it has started. -/
def appended (started own : List ℤ) (found : ℤ → List ℤ) (i : ℕ) : List ℤ :=
  if i = 0 then own else if (i : ℤ) ∈ started then found i else []

/-- The threads before any of them has appended anything. -/
def threadsStart (started own : List ℤ) (found : ℤ → List ℤ) :
    Pool ℕ (List ℤ) ℤ (fun _ => Unit) Unit :=
  ⟨[], fun i => appendAll (appended started own found i)⟩

/-- `calculatePrime(n)` may return `primes`: the calling thread comes to its
end, and every worker that it joins. -/
def CalculatePrimes (n THREADS : ℤ) (primes : List ℤ) : Prop :=
  ∃ started own found, (calculatePrimeInt n THREADS).Returns (started, own) ∧
    (∀ threadId ∈ started, (runInt n THREADS threadId).Returns (found threadId)) ∧
    ∃ log c, Pool.Run appendServe (threadsStart started own found) log c ∧ c.Finished ∧
      c.state = primes

/-! ### Where nothing overflows -/

theorem examine_eq_appendAll (numbers : List ℤ) :
    examine numbers = appendAll (numbers.filter isPrime) := by
  induction numbers with
  | nil => rfl
  | cons i rest ih =>
    rw [examine]
    by_cases hi : isPrime i = true
    · rw [if_pos hi, List.filter_cons_of_pos hi, appendAll, ih]
    · rw [if_neg hi, List.filter_cons_of_neg hi, ih]

variable {n T : ℤ} {numThreads : ℕ} {primes : List ℤ}

/-- The threads of the search without wrap-around. -/
theorem threadsStart_eq {found : ℤ → List ℤ}
    (hfound : ∀ k ∈ Int.range 1 ((numThreads : ℤ) + 1),
      found k = (workerNumbers n numThreads k).filter isPrime) :
    threadsStart (Int.range 1 ((numThreads : ℤ) + 1))
        ((remainderNumbers n numThreads).filter isPrime) found
      = primeStart n numThreads := by
  rw [threadsStart, primeStart]
  congr 1
  funext i
  rw [examine_eq_appendAll]
  apply congrArg appendAll
  rw [appended, threadNumbers]
  split_ifs with hzero hmem hlt hlt
  · rfl
  · exact hfound i hmem
  · rw [Int.mem_range_iff] at hmem
    omega
  · rw [Int.mem_range_iff] at hmem
    omega
  · rfl

/-- **Where nothing overflows, Java's ints return what integers do.** -/
theorem calculatePrimes_iff (hn : IsInt n) (hT : 1 ≤ numThreads) (hfits : PrimeFits n numThreads) :
    CalculatePrimes n numThreads primes ↔ CalculatePrime n numThreads primes := by
  have hT' : (1 : ℤ) ≤ numThreads := by exact_mod_cast hT
  have hcalling := calculatePrimeInt_ends hn hT' hfits
  have hworker : ∀ k ∈ Int.range 1 ((numThreads : ℤ) + 1),
      (runInt n numThreads k).Returns ((workerNumbers n numThreads k).filter isPrime) := by
    intro k hk
    rw [Int.mem_range_iff] at hk
    exact (runInt_ends hn hT' hfits hk.1 (by omega)).returns
  constructor
  · rintro ⟨started, own, found, hmain, hrun, hpool⟩
    obtain ⟨rfl, rfl⟩ := Prod.mk.inj (hmain.unique hcalling.returns)
    rw [threadsStart_eq fun k hk => (hrun k hk).unique (hworker k hk)] at hpool
    exact hpool
  · intro hpool
    refine ⟨_, _, fun k => (workerNumbers n numThreads k).filter isPrime, hcalling.returns,
      hworker, ?_⟩
    rw [threadsStart_eq fun _ _ => rfl]
    exact hpool

/-! ### Where something does -/

/-- A worker always ends: the end of its block is an int. -/
theorem exists_returns_runInt (n T k : ℤ) : ∃ found, (runInt n T k).Returns found := by
  have hloop : ∀ start end_ : ℤ, IsInt start → IsInt end_ →
      (loop (fun i => pure (decide (i < end_))) examineInt start []).Returns
        ((Int.range start end_).filter isPrime) :=
    fun start end_ hstart hend => (examineLoop_ends hstart hend fun i => ends_pure _).returns
  have hend := isInt_javaInt (javaInt (javaInt (n.tdiv T) * k) + 2)
  have hstart := isInt_javaInt
    (javaInt (javaInt (javaInt (n.tdiv T) * k) + 2) - javaInt (n.tdiv T))
  exact ⟨_, (returns_javaInt _).bind ((returns_javaInt _).bind ((returns_javaInt _).bind
    ((returns_javaInt _).bind (hloop _ _ hstart hend))))⟩

/-- There is no array of that length. -/
theorem calculatePrimes_maxThreads : ¬ CalculatePrimes n (2 ^ 31 - 1) primes := by
  rintro ⟨started, own, found, ⟨enough, hret⟩, -⟩
  obtain ⟨_, hstarted, -⟩ := returned_bind (hret enough le_rfl)
  rw [startThreads] at hstarted
  obtain ⟨length, hlength, hthreads⟩ := returned_bind hstarted
  obtain ⟨_, hnew, -⟩ := returned_bind hthreads
  cases hlength
  cases hnew

/-- The remainder loop does not end. -/
theorem calculatePrimes_maxInt : ¬ CalculatePrimes (2 ^ 31 - 1) T primes := by
  rintro ⟨started, own, found, ⟨enough, hret⟩, -⟩
  exact calculatePrimeInt_maxInt T enough _ (hret enough le_rfl)

/-- The remainder loop begins at the smallest int. -/
theorem returns_remainderInt (hdvd : T ∣ 2 ^ 31 - 2) :
    (remainderInt (2 ^ 31 - 2) T).Returns
      ((Int.range (-2 ^ 31) (2 ^ 31 - 1)).filter isPrime) := by
  rw [remainderInt, Int.dvd_iff_tmod_eq_zero.mp hdvd]
  apply (returns_javaInt 0).bind
  apply (returns_javaInt _).bind
  apply (returns_javaInt _).bind
  have hbegin : javaInt (javaInt (2 ^ 31 - 2 - javaInt 0) + 2) = -2 ^ 31 := by decide
  rw [hbegin]
  apply (examineLoop_ends ⟨by norm_num, by norm_num⟩ ⟨by norm_num, by norm_num⟩ ?_).returns
  intro i
  have hle : (i ≤ 2 ^ 31 - 2) ↔ i < 2 ^ 31 - 1 := by omega
  rw [decide_eq_decide.mpr hle]
  exact ends_pure _

/-- A thread that has ended has appended its numbers, in order. -/
theorem appendAll_path {numbers : List ℤ} {tr : List (Event ℤ fun _ => Unit)} {q : Appending}
    (h : (appendAll numbers).Path tr q) (hq : q.Returned) : tr.map Event.op = numbers := by
  induction numbers generalizing tr with
  | nil =>
    obtain ⟨rfl, -⟩ := Prog.path_ret_iff.mp h
    rfl
  | cons i rest ih =>
    rcases Prog.path_call_iff.mp h with ⟨-, rfl⟩ | ⟨_, tr', rfl, h'⟩
    · exact absurd hq (Prog.not_returned_call _ _)
    · rw [List.map_cons, ih h']

/-- What the calling thread finds is in the list. -/
theorem mem_of_own {started own : List ℤ} {found : ℤ → List ℤ}
    {log : List (Entry ℕ (List ℤ) ℤ fun _ => Unit)} {c : Pool ℕ (List ℤ) ℤ (fun _ => Unit) Unit}
    (h : Pool.Run appendServe (threadsStart started own found) log c) (hfin : c.Finished) {x : ℤ}
    (hx : x ∈ own) : x ∈ c.state := by
  have hown : (proj 0 log).map Event.op = own := appendAll_path (h.path 0) (hfin 0)
  rw [← hown] at hx
  obtain ⟨ev, hev, rfl⟩ := List.mem_map.mp hx
  obtain ⟨e, he, -, rfl⟩ := mem_proj.mp hev
  rw [run_appendServe h]
  exact List.mem_append_right _ (List.mem_map.mpr ⟨e, he, rfl⟩)

/-- The threads can all come to their ends. -/
theorem exists_run_threads (started own : List ℤ) (found : ℤ → List ℤ) :
    ∃ log c, Pool.Run appendServe (threadsStart started own found) log c ∧ c.Finished := by
  have hserve : ∀ (primes : List ℤ) (i : ℤ), ∃ (_ : Unit) (primes' : List ℤ),
      appendServe primes i () primes' := fun _ _ => ⟨(), _, rfl⟩
  refine Pool.exists_run_finished hserve (insert 0 (started.map Int.toNat).toFinset) _ ?_
  intro i hi
  rw [Finset.mem_insert, List.mem_toFinset, List.mem_map] at hi
  push Not at hi
  have hnone : appended started own found i = [] := by
    rw [appended, if_neg hi.1, if_neg]
    intro hmem
    exact hi.2 i hmem (Int.toNat_natCast i)
  show (appendAll (appended started own found i)).Returned
  rw [hnone]
  trivial

/-- **The smallest int is returned as a prime.** -/
theorem exists_minInt (hT : 1 ≤ T) (hdvd : T ∣ 2 ^ 31 - 2) :
    ∃ primes, CalculatePrimes (2 ^ 31 - 2) T primes ∧ -2 ^ 31 ∈ primes := by
  have hle : T ≤ 2 ^ 31 - 2 := Int.le_of_dvd (by norm_num) hdvd
  have hstart := (startThreads_ends hT (by omega)).returns
  have hjoin := (eachThread_ends hT (by omega)).returns
  choose found hfound using exists_returns_runInt (2 ^ 31 - 2) T
  obtain ⟨log, c, hrun, hfin⟩ := exists_run_threads (Int.range 1 (T + 1))
    ((Int.range (-2 ^ 31) (2 ^ 31 - 1)).filter isPrime) found
  refine ⟨c.state, ⟨_, _, found, ?_, fun k _ => hfound k, log, c, hrun, hfin, rfl⟩, ?_⟩
  · rw [calculatePrimeInt]
    exact hstart.bind ((returns_remainderInt hdvd).bind (hjoin.bind (returns_pure _)))
  · refine mem_of_own hrun hfin (List.mem_filter.mpr ⟨?_, ?_⟩)
    · exact Int.mem_range_iff.mpr ⟨le_rfl, by norm_num⟩
    · -- nothing is tried below 2
      rw [isPrime_eq_true]
      intro i hi hhalf
      have hneg : (-2 ^ 31 : ℤ).tdiv 2 = -2 ^ 30 := by decide
      omega

/-! ### Every int -/

theorem prime_maxInt : Nat.Prime (2 ^ 31 - 1) :=
  lucas_lehmer_sufficiency 31 (by norm_num) (by norm_num)

theorem not_prime_overflow : ¬ ((2 ^ 31 - 1 : ℤ) + 1).toNat.Prime := by
  have htwo : ((2 ^ 31 - 1 : ℤ) + 1).toNat = 2147483648 := rfl
  rw [htwo]
  norm_num

/-- Where nothing overflows. -/
theorem calculatePrimes_le_iff_of_fits (hn : IsInt n) (h0 : 0 ≤ n) (hT : 1 ≤ numThreads)
    (hfits : PrimeFits n numThreads) :
    (∀ primes, CalculatePrimes n numThreads primes →
        ∀ x ∈ primes, ∃ p : ℕ, x = p ∧ p.Prime ∧ x ≤ n) ↔
      ¬ ((numThreads : ℤ) ∣ n ∧ (n + 1).toNat.Prime) := by
  constructor
  · rintro h ⟨hdvd, hprime⟩
    obtain ⟨primes, hres⟩ := exists_calculatePrime n numThreads
    have hmem : n + 1 ∈ primes := by
      refine (mem_calculatePrime hT hres _).mpr ⟨(n + 1).toNat, by omega, hprime, ?_⟩
      rw [primeBound, if_pos hdvd]
      omega
    obtain ⟨-, -, -, hle⟩ := h primes ((calculatePrimes_iff hn hT hfits).mpr hres) _ hmem
    omega
  · intro hno primes hres x hx
    replace hres := (calculatePrimes_iff hn hT hfits).mp hres
    obtain ⟨p, rfl, hp, hlt⟩ := (mem_calculatePrime hT hres x).mp hx
    refine ⟨p, rfl, hp, ?_⟩
    by_contra hgt
    apply hno
    unfold primeBound at hlt
    split_ifs at hlt with hdvd
    · have hp' : (n + 1).toNat = p := by omega
      rw [hp']
      exact ⟨hdvd, hp⟩
    · omega

/-- **The result keeps to `n` exactly if `THREADS` does not divide `n`, or
`n + 1` is no prime**: the last worker examines `n + 1` when nothing is left to
the remainder loop. -/
theorem calculatePrime_le_iff (hn : IsInt n) (h0 : 0 ≤ n) (hTint : IsInt T) (hT : 1 ≤ T) :
    (∀ primes, CalculatePrimes n T primes →
        ∀ x ∈ primes, ∃ p : ℕ, x = p ∧ p.Prime ∧ x ≤ n) ↔
      ¬ (T ∣ n ∧ (n + 1).toNat.Prime) := by
  obtain ⟨numThreads, rfl⟩ := Int.eq_ofNat_of_zero_le (by omega : 0 ≤ T)
  obtain ⟨-, hmaxn⟩ := hn
  obtain ⟨-, hmaxT⟩ := hTint
  -- for the two largest ints nothing is returned
  by_cases htop : n = 2 ^ 31 - 1
  · subst htop
    refine iff_of_true (fun primes hres => absurd hres calculatePrimes_maxInt) ?_
    rintro ⟨-, hprime⟩
    exact not_prime_overflow hprime
  by_cases htopT : (numThreads : ℤ) = 2 ^ 31 - 1
  · rw [htopT]
    refine iff_of_true (fun primes hres => absurd hres calculatePrimes_maxThreads) ?_
    rintro ⟨⟨k, rfl⟩, hprime⟩
    obtain rfl : k = 0 := by omega
    exact absurd hprime (by norm_num)
  by_cases hlast : n = 2 ^ 31 - 2 ∧ (numThreads : ℤ) ∣ n
  · obtain ⟨rfl, hdvd⟩ := hlast
    refine iff_of_false ?_ (not_not.mpr ⟨hdvd, prime_maxInt⟩)
    intro h
    obtain ⟨primes, hres, hmem⟩ := exists_minInt hT hdvd
    obtain ⟨p, hp, -, -⟩ := h primes hres _ hmem
    omega
  · exact calculatePrimes_le_iff_of_fits ⟨by omega, hmaxn⟩ h0 (by exact_mod_cast hT)
      ⟨by omega, by omega, hlast⟩

/-- Two threads do not divide 5. -/
theorem calculatePrime_le_iff_five :
    (∀ primes, CalculatePrimes 5 2 primes →
        ∀ x ∈ primes, ∃ p : ℕ, x = p ∧ p.Prime ∧ x ≤ 5) ↔
      ¬ ((2 : ℤ) ∣ 5 ∧ ((5 : ℤ) + 1).toNat.Prime) :=
  calculatePrime_le_iff ⟨by norm_num, by norm_num⟩ (by norm_num) ⟨by norm_num, by norm_num⟩
    (by norm_num)

/-- Two threads divide 4, and 5 is a prime. -/
theorem calculatePrime_four :
    ¬ ∀ primes, CalculatePrimes 4 2 primes →
      ∀ x ∈ primes, ∃ p : ℕ, x = p ∧ p.Prime ∧ x ≤ 4 := by
  intro h
  have hfits : PrimeFits 4 (2 : ℕ) := ⟨by norm_num, by norm_num, by norm_num⟩
  obtain ⟨primes, hres⟩ := exists_calculatePrime 4 2
  have hmem : (5 : ℤ) ∈ primes :=
    (mem_calculatePrime (by decide) hres 5).mpr ⟨5, rfl, by decide, by decide⟩
  obtain ⟨-, -, -, hle⟩ := h primes
    ((calculatePrimes_iff ⟨by norm_num, by norm_num⟩ (by decide) hfits).mpr hres) 5 hmem
  omega

end ResilientMesh
