/-
ResilientMesh/PrimeInt.lean

`calculatePrime` on Java ints, with every int expression evaluated: the size of
the thread array, the loop bounds and the increments, in the calling thread and
in the workers it starts.  `join` waits for a worker that ends, so it counts as
a step here.

Below the bound of `prime_defined_iff` the loops are those without wrap-around
(`runInt_ends`, `calculatePrimeInt_ends`).  Two numbers go wrong for most
machines.  The largest int is a bound that the remainder loop's index never
passes.  One below it, the last block ends at `n + 2` when `THREADS` divides
`n`: its end wraps around and the worker skips its block.

Main result: no int expression overflows and every loop ends, exactly if both
`THREADS` and `n` are below the largest int and `n` is not one below it and a
multiple of `THREADS` (`prime_defined_iff`).
-/
import ResilientMesh.Prime
import ResilientMesh.JavaInt

namespace ResilientMesh

open IntEval

/-! ### The code -/

/-- `isPrime`. -/
def isPrimeInt (number : ℤ) : IntEval Bool := do
  let end_ ← int (number.tdiv 2)
  loop (fun i => pure (decide (i ≤ end_)))
    (fun i prime => do
      let remainder ← int (number.tmod i)
      pure (if remainder = 0 then .done false else .yield prime)) 2 true

/-- The body of both loops: append the number if it is a prime. -/
def examineInt (i : ℤ) (primes : List ℤ) : IntEval (ForInStep (List ℤ)) := do
  let prime ← isPrimeInt i
  pure (.yield (if prime then primes ++ [i] else primes))

/-- `Prime.run`, and what it appends. -/
def runInt (limit THREADS threadId : ℤ) : IntEval (List ℤ) := do
  let everyBlock ← int (limit.tdiv THREADS)
  let product ← int (everyBlock * threadId)
  let end_ ← int (product + 2)
  let start ← int (end_ - everyBlock)
  loop (fun i => pure (decide (i < end_))) examineInt start []

/-- `new Thread[length]`. -/
def newThreads (length : ℤ) : IntEval Unit :=
  if length < 0 then throw else pure ()

/-- `for (int i = 1; i < numThreads + 1; i++)`, and the indices it went
through: those of the threads started, or joined. -/
def eachThread (numThreads : ℤ) : IntEval (List ℤ) :=
  loop (fun i => do
      let length ← int (numThreads + 1)
      pure (decide (i < length)))
    (fun i threads => pure (.yield (threads ++ [i]))) 1 []

/-- `calculatePrime` up to the remainder loop. -/
def startThreads (numThreads : ℤ) : IntEval (List ℤ) := do
  let length ← int (numThreads + 1)
  newThreads length
  eachThread numThreads

/-- The remainder loop of `calculatePrime`, and what it appends. -/
def remainderInt (n numThreads : ℤ) : IntEval (List ℤ) := do
  let remainder ← int (n.tmod numThreads)
  let multiple ← int (n - remainder)
  let begin_ ← int (multiple + 2)
  loop (fun begin_ => pure (decide (begin_ ≤ n))) examineInt begin_ []

/-- `calculatePrime`: the workers started, and what the calling thread appends
itself. -/
def calculatePrimeInt (n numThreads : ℤ) : IntEval (List ℤ × List ℤ) := do
  let started ← startThreads numThreads
  let primes ← remainderInt n numThreads
  let _joined ← eachThread numThreads
  pure (started, primes)

/-! ### Loops without wrap-around -/

theorem stepThrough_yield {σ : Type} (g : ℤ → σ → σ) (numbers : List ℤ) (s : σ) :
    stepThrough (fun i s => .yield (g i s)) numbers s = numbers.foldl (fun s i => g i s) s := by
  induction numbers generalizing s with
  | nil => rfl
  | cons i rest ih =>
    rw [stepThrough, List.foldl_cons]
    exact ih (g i s)

theorem foldl_examine (numbers primes : List ℤ) :
    numbers.foldl (fun primes i => if isPrime i then primes ++ [i] else primes) primes
      = primes ++ numbers.filter isPrime := by
  induction numbers generalizing primes with
  | nil => rw [List.foldl_nil, List.filter_nil, List.append_nil]
  | cons i rest ih =>
    rw [List.foldl_cons, ih]
    by_cases hi : isPrime i = true
    · rw [if_pos hi, List.filter_cons_of_pos hi, List.append_assoc]
      rfl
    · rw [if_neg hi, List.filter_cons_of_neg hi]

/-- The trial divisions, up to the first without a remainder. -/
theorem stepThrough_trial (number : ℤ) (divisors : List ℤ) :
    stepThrough (fun i prime => if number.tmod i = 0 then .done false else .yield prime)
      divisors true = divisors.all fun i => number.tmod i ≠ 0 := by
  induction divisors with
  | nil => rfl
  | cons i rest ih =>
    rw [stepThrough, List.all_cons, ← ih]
    by_cases hi : number.tmod i = 0
    · simp [hi]
    · simp [hi]

/-! ### Quotients and remainders -/

variable {n T k : ℤ}

theorem isInt_tdiv (h : IsInt n) (hT : 1 ≤ T) : IsInt (n.tdiv T) := by
  obtain ⟨hlo, hhi⟩ := h
  rcases le_or_gt 0 n with hn | hn
  · have hle := Int.tdiv_le_self T hn
    have hnonneg := Int.tdiv_nonneg hn (by omega : 0 ≤ T)
    constructor
    · omega
    · omega
  · have hle := Int.tdiv_le_self T (by omega : 0 ≤ -n)
    have hnonneg := Int.tdiv_nonneg (by omega : 0 ≤ -n) (by omega : 0 ≤ T)
    rw [Int.neg_tdiv] at hle hnonneg
    constructor
    · omega
    · omega

/-- A remainder has the sign of the dividend and is no larger. -/
theorem tmod_bounds (n : ℤ) (hT : 1 ≤ T) :
    (0 ≤ n → 0 ≤ n.tmod T ∧ n.tmod T ≤ n) ∧ (n < 0 → n ≤ n.tmod T ∧ n.tmod T ≤ 0) := by
  have hdiv := Int.mul_tdiv_add_tmod n T
  constructor
  · intro hn
    have hquot := mul_nonneg (by omega : 0 ≤ T) (Int.tdiv_nonneg hn (by omega : 0 ≤ T))
    have hmod := Int.tmod_nonneg T hn
    exact ⟨hmod, by omega⟩
  · intro hn
    have hquot := mul_nonneg (by omega : 0 ≤ T)
      (Int.tdiv_nonneg (by omega : 0 ≤ -n) (by omega : 0 ≤ T))
    have hmod := Int.tmod_nonneg T (by omega : 0 ≤ -n)
    rw [Int.neg_tdiv, mul_neg] at hquot
    rw [Int.neg_tmod] at hmod
    constructor
    · omega
    · omega

theorem isInt_tmod (h : IsInt n) (hT : 1 ≤ T) : IsInt (n.tmod T) := by
  obtain ⟨hlo, hhi⟩ := h
  obtain ⟨hpos, hneg⟩ := tmod_bounds n hT
  constructor
  · omega
  · omega

/-- Where a block ends, before the 2 is added: between 0 and what the
remainder loop begins with. -/
theorem block_bounds (n : ℤ) (hT : 1 ≤ T) (hk : 0 ≤ k) (hkT : k ≤ T) :
    (0 ≤ n → 0 ≤ n.tdiv T * k ∧ n.tdiv T * k ≤ n - n.tmod T) ∧
      (n < 0 → n - n.tmod T ≤ n.tdiv T * k ∧ n.tdiv T * k ≤ 0) := by
  have hdiv : n.tdiv T * T + n.tmod T = n := by
    rw [mul_comm]
    exact Int.mul_tdiv_add_tmod n T
  constructor
  · intro hn
    have hquot := Int.tdiv_nonneg hn (by omega : 0 ≤ T)
    have hle := mul_le_mul_of_nonneg_left hkT hquot
    exact ⟨mul_nonneg hquot hk, by omega⟩
  · intro hn
    have hquot := Int.tdiv_nonneg (by omega : 0 ≤ -n) (by omega : 0 ≤ T)
    rw [Int.neg_tdiv] at hquot
    have hle := mul_le_mul_of_nonpos_left hkT (by omega : n.tdiv T ≤ 0)
    exact ⟨by omega, mul_nonpos_of_nonpos_of_nonneg (by omega) hk⟩

/-- **`isPrime` never overflows, and always ends.** -/
theorem isPrimeInt_ends {number : ℤ} (h : IsInt number) :
    (isPrimeInt number).Ends (isPrime number) := by
  have hhalf : IsInt (number.tdiv 2) := isInt_tdiv h (by norm_num)
  have hstop : IsInt (number.tdiv 2 + 1) := by
    have hdiv := Int.mul_tdiv_add_tmod number 2
    have hmod := tmod_bounds number (by norm_num : (1 : ℤ) ≤ 2)
    obtain ⟨-, hhi⟩ := h
    obtain ⟨hlo, -⟩ := hhalf
    constructor
    · omega
    · omega
  have htrial : isPrime number = stepThrough
      (fun i prime => if number.tmod i = 0 then .done false else .yield prime)
      (Int.range 2 (number.tdiv 2 + 1)) true :=
    (stepThrough_trial number _).symm
  rw [isPrimeInt, htrial]
  apply (ends_int hhalf).bind
  apply Ends.loop ⟨by norm_num, by norm_num⟩ hstop
  · intro i
    rw [decide_eq_decide.mpr Int.lt_add_one_iff]
    exact ends_pure _
  · intro i prime hle _
    exact (ends_int (isInt_tmod h (by omega))).bind (ends_pure _)

theorem examineInt_ends {i : ℤ} (h : IsInt i) (primes : List ℤ) :
    (examineInt i primes).Ends (.yield (if isPrime i then primes ++ [i] else primes)) :=
  (isPrimeInt_ends h).bind (ends_pure _)

/-- A loop over `examine` whose indices are ints. -/
theorem examineLoop_ends {cond : ℤ → IntEval Bool} {start stop : ℤ} (hstart : IsInt start)
    (hstop : IsInt stop) (hcond : ∀ i, (cond i).Ends (decide (i < stop))) :
    (loop cond examineInt start []).Ends ((Int.range start stop).filter isPrime) := by
  have hfold : (Int.range start stop).filter isPrime = stepThrough
      (fun i primes => .yield (if isPrime i then primes ++ [i] else primes))
      (Int.range start stop) [] := by
    rw [stepThrough_yield, foldl_examine, List.nil_append]
  rw [hfold]
  apply Ends.loop hstart hstop hcond
  intro i primes hle hlt
  obtain ⟨hlo, -⟩ := hstart
  obtain ⟨-, hhi⟩ := hstop
  exact examineInt_ends ⟨by omega, by omega⟩ primes

/-! ### Where nothing overflows -/

/-- Both numbers are below the largest int, and no block ends past it. -/
def PrimeFits (n T : ℤ) : Prop :=
  T < 2 ^ 31 - 1 ∧ n < 2 ^ 31 - 1 ∧ ¬ (n = 2 ^ 31 - 2 ∧ T ∣ n)

/-- The remainder loop begins at an int. -/
theorem PrimeFits.begin_lt (h : PrimeFits n T) (hT : 1 ≤ T) : n - n.tmod T + 2 < 2 ^ 31 := by
  obtain ⟨-, hlt, hno⟩ := h
  obtain ⟨hpos, hneg⟩ := tmod_bounds n hT
  by_cases hlast : n = 2 ^ 31 - 2
  · have hmod : n.tmod T ≠ 0 := fun hzero => hno ⟨hlast, Int.dvd_iff_tmod_eq_zero.mpr hzero⟩
    omega
  · omega

/-- **A worker appends the primes of its numbers**, and does not overflow. -/
theorem runInt_ends (hn : IsInt n) (hT : 1 ≤ T) (h : PrimeFits n T) (hk : 1 ≤ k) (hkT : k ≤ T) :
    (runInt n T k).Ends ((workerNumbers n T k).filter isPrime) := by
  have hbegin := h.begin_lt hT
  have hblock := block_bounds n hT (by omega : 0 ≤ k) hkT
  have hbefore := block_bounds n hT (by omega : 0 ≤ k - 1) (by omega : k - 1 ≤ T)
  have hmod := tmod_bounds n hT
  have hstart : n.tdiv T * k + 2 - n.tdiv T = n.tdiv T * (k - 1) + 2 := by ring
  have hquot := isInt_tdiv hn hT
  obtain ⟨hlo, -⟩ := hn
  have hend : IsInt (n.tdiv T * k + 2) := ⟨by omega, by omega⟩
  rw [runInt, workerNumbers]
  apply (ends_int hquot).bind
  apply (ends_int ⟨by omega, by omega⟩).bind
  apply (ends_int hend).bind
  have hint : IsInt (n.tdiv T * k + 2 - n.tdiv T) := ⟨by omega, by omega⟩
  apply (ends_int hint).bind
  apply examineLoop_ends hint hend
  intro i
  exact ends_pure _

/-- Every worker is started, or joined. -/
theorem eachThread_ends (hT : 1 ≤ T) (hmax : T < 2 ^ 31 - 1) :
    (eachThread T).Ends (Int.range 1 (T + 1)) := by
  have hstop : IsInt (T + 1) := ⟨by omega, by omega⟩
  have hfold : Int.range 1 (T + 1) = stepThrough (fun i threads => .yield (threads ++ [i]))
      (Int.range 1 (T + 1)) [] := by
    rw [stepThrough_yield, List.foldl_append_eq_append, List.nil_append, ← List.flatMap_def,
      List.flatMap_singleton']
  rw [hfold, eachThread]
  apply Ends.loop ⟨by norm_num, by norm_num⟩ hstop
  · intro i
    exact (ends_int hstop).bind (ends_pure _)
  · intro i threads _ _
    exact ends_pure _

theorem startThreads_ends (hT : 1 ≤ T) (hmax : T < 2 ^ 31 - 1) :
    (startThreads T).Ends (Int.range 1 (T + 1)) := by
  rw [startThreads]
  apply (ends_int ⟨by omega, by omega⟩).bind
  rw [newThreads, if_neg (by omega : ¬ T + 1 < 0)]
  exact (ends_pure ()).bind (eachThread_ends hT hmax)

/-- **The remainder loop appends the primes of its numbers**, and does not
overflow. -/
theorem remainderInt_ends (hn : IsInt n) (hT : 1 ≤ T) (h : PrimeFits n T) :
    (remainderInt n T).Ends ((remainderNumbers n T).filter isPrime) := by
  have hbegin := h.begin_lt hT
  have hmod := tmod_bounds n hT
  have hrem := isInt_tmod hn hT
  obtain ⟨-, hmax, -⟩ := h
  obtain ⟨hlo, -⟩ := hn
  have hstart : IsInt (n - n.tmod T + 2) := ⟨by omega, by omega⟩
  rw [remainderInt, remainderNumbers]
  apply (ends_int hrem).bind
  apply (ends_int ⟨by omega, by omega⟩).bind
  apply (ends_int hstart).bind
  apply examineLoop_ends hstart ⟨by omega, by omega⟩
  intro i
  rw [decide_eq_decide.mpr Int.lt_add_one_iff]
  exact ends_pure _

/-- **The calling thread starts every worker and appends the primes of its own
numbers**, and does not overflow. -/
theorem calculatePrimeInt_ends (hn : IsInt n) (hT : 1 ≤ T) (h : PrimeFits n T) :
    (calculatePrimeInt n T).Ends
      (Int.range 1 (T + 1), (remainderNumbers n T).filter isPrime) := by
  rw [calculatePrimeInt]
  apply (startThreads_ends hT h.1).bind
  apply (remainderInt_ends hn hT h).bind
  exact (eachThread_ends hT h.1).bind (ends_pure _)

/-! ### Where something does -/

/-- No number is above the largest int, so the remainder loop for it never
ends. -/
theorem remainderInt_maxInt (T : ℤ) : (remainderInt (2 ^ 31 - 1) T).Results fun _ => False := by
  rw [remainderInt]
  refine (results_int _).bind ?_
  intro remainder _
  refine (results_int _).bind ?_
  intro multiple _
  refine (results_int _).bind ?_
  intro begin_ hbegin
  apply results_loop_false hbegin
  · rintro i ⟨-, hlt⟩
    exact results_pure (decide_eq_true (by omega))
  · intro i primes
    rw [examineInt]
    refine (results_true _).bind ?_
    intro prime _
    exact results_pure ⟨_, rfl⟩

theorem calculatePrimeInt_maxInt (T : ℤ) :
    (calculatePrimeInt (2 ^ 31 - 1) T).Results fun _ => False := by
  rw [calculatePrimeInt]
  refine (results_true _).bind ?_
  intro started _
  refine (remainderInt_maxInt T).bind ?_
  rintro primes ⟨⟩

/-- The last worker evaluates two more than the last multiple of `THREADS`. -/
theorem mem_evaluated_runInt (hn : IsInt n) (hT : 1 ≤ T) (fuel : ℕ) :
    n - n.tmod T + 2 ∈ (runInt n T T).evaluated fuel := by
  have hdiv : n.tdiv T * T = n - n.tmod T := by
    have := Int.mul_tdiv_add_tmod n T
    rw [mul_comm]
    omega
  have hprod : IsInt (n.tdiv T * T) := by
    have hmod := tmod_bounds n hT
    obtain ⟨hlo, hhi⟩ := hn
    exact ⟨by omega, by omega⟩
  rw [runInt, evaluated_bind (outcome_int (isInt_tdiv hn hT) fuel)]
  apply List.mem_append_right
  rw [evaluated_bind (outcome_int hprod fuel), hdiv]
  apply List.mem_append_right
  apply mem_evaluated_bind
  exact List.mem_singleton.mpr rfl

/-- In the calling thread and in every worker no int expression overflows, and
all their loops end. -/
structure PrimeDefined (n T : ℤ) : Prop where
  calling : Defined (calculatePrimeInt n T)
  workers : ∀ threadId, 1 ≤ threadId → threadId ≤ T → Defined (runInt n T threadId)

/-- **The ints on which `calculatePrime` works.** -/
theorem prime_defined_iff (hn : IsInt n) (hT : 1 ≤ T) : PrimeDefined n T ↔ PrimeFits n T := by
  constructor
  · rintro ⟨hcalling, hworkers⟩
    refine ⟨?_, ?_, ?_⟩
    · -- the array's length
      have hmem : T + 1 ∈ (calculatePrimeInt n T).evaluated 0 := by
        apply mem_evaluated_bind
        apply mem_evaluated_bind
        exact List.mem_singleton.mpr rfl
      obtain ⟨-, hlt⟩ := hcalling.inRange 0 _ hmem
      omega
    · by_contra hmax
      obtain rfl : n = 2 ^ 31 - 1 := by
        obtain ⟨-, hlt⟩ := hn
        omega
      obtain ⟨fuel, a, hret⟩ := hcalling.ends
      exact calculatePrimeInt_maxInt T fuel a hret
    · rintro ⟨rfl, hdvd⟩
      obtain ⟨-, hlt⟩ := (hworkers T hT le_rfl).inRange 0 _ (mem_evaluated_runInt hn hT 0)
      rw [Int.dvd_iff_tmod_eq_zero.mp hdvd] at hlt
      omega
  · intro hfits
    constructor
    · exact (calculatePrimeInt_ends hn hT hfits).defined
    · intro threadId hk hkT
      exact (runInt_ends hn hT hfits hk hkT).defined

/-- Four threads do not divide the number below the largest int. -/
theorem prime_defined_iff_four :
    PrimeDefined 2147483646 4 ↔ PrimeFits 2147483646 4 :=
  prime_defined_iff ⟨by norm_num, by norm_num⟩ (by norm_num)

/-- The largest int, whatever the number of threads: the remainder loop does
not end. -/
theorem prime_undefined : ¬ ∀ n T : ℤ, IsInt n → 1 ≤ T → IsInt T → PrimeDefined n T := by
  intro h
  obtain ⟨fuel, a, hret⟩ := (h (2 ^ 31 - 1) 4 ⟨by norm_num, by norm_num⟩ (by norm_num)
    ⟨by norm_num, by norm_num⟩).calling.ends
  exact calculatePrimeInt_maxInt 4 fuel a hret

end ResilientMesh
