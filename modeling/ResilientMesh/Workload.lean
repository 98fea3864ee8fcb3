/-
ResilientMesh/Workload.lean

The workload counters of the calculation service.  A request increments the
counter of its type, calculates, and decrements the counter; the requests are
a pool over the four counters, and a calculation ends in any result that it
can have (`Computes`), or in an exception.

`calculateFibonacci` returns early for `n < 7`, between its increment and its
decrement.  Main result: in every interleaving of requests that calculate
without an exception, the counters are the requests under way exactly if no
such request has entered (`workload_tallies_iff`).
-/
import ResilientMesh.Prime
import ResilientMesh.Fibonacci

namespace ResilientMesh

/-! ### Decimals -/

/-- `BigDecimal`: `unscaled * 10 ^ (-scale)`, with an int for the scale. -/
structure BigDecimal where
  unscaled : ℤ
  scale : ℤ

inductive JavaException
  | arithmeticException
  deriving DecidableEq

/-- A new scale, of a number with this unscaled value, must be an int. -/
def checkScale (unscaled scale : ℤ) : Except JavaException ℤ :=
  if -2 ^ 31 ≤ scale ∧ scale < 2 ^ 31 then .ok scale
  else if unscaled = 0 then .ok (if 0 < scale then 2 ^ 31 - 1 else -2 ^ 31)
  else .error .arithmeticException

/-- `BigInteger` supports magnitudes below `2 ^ (2 ^ 31 - 1)`. -/
def checkRange (x : ℤ) : Except JavaException ℤ :=
  if x.natAbs.log2 < 2 ^ 31 - 1 then .ok x else .error .arithmeticException

/-- `BigDecimal.add`: the number with the smaller scale is scaled up. -/
def BigDecimal.add (x y : BigDecimal) : Except JavaException BigDecimal :=
  if x.scale = y.scale then do
    let sum ← checkRange (x.unscaled + y.unscaled)
    pure ⟨sum, x.scale⟩
  else if x.scale < y.scale then do
    let raise ← checkScale x.unscaled (y.scale - x.scale)
    let scaledX ← checkRange (x.unscaled * 10 ^ raise.toNat)
    let sum ← checkRange (scaledX + y.unscaled)
    pure ⟨sum, y.scale⟩
  else do
    let raise ← checkScale y.unscaled (x.scale - y.scale)
    let scaledY ← checkRange (y.unscaled * 10 ^ raise.toNat)
    let sum ← checkRange (x.unscaled + scaledY)
    pure ⟨sum, x.scale⟩

/-- `BigDecimal.multiply`. -/
def BigDecimal.multiply (x y : BigDecimal) : Except JavaException BigDecimal := do
  let productScale ← checkScale x.unscaled (x.scale + y.scale)
  let product ← checkRange (x.unscaled * y.unscaled)
  pure ⟨product, productScale⟩

/-! ### Requests -/

inductive ECalculationType
  | add
  | multiply
  | fibonacci
  | prime
  deriving DecidableEq

/-- What is calculated between the two steps of a counter. -/
inductive Calculation
  | add (decimalOne decimalTwo : BigDecimal)
  | multiply (decimalOne decimalTwo : BigDecimal)
  | fibonacci (n : ℤ)
  | prime (n : ℤ)

/-- What a calculation returns; a Fibonacci number may be null. -/
inductive CalculationResult
  | decimal (x : BigDecimal)
  | number (x : Option ℤ)
  | primes (l : List ℤ)

/-- The steps of a request. -/
inductive WorkloadOp
  | incrementAndGet (type : ECalculationType)
  | decrementAndGet (type : ECalculationType)
  | compute (calculation : Calculation)

abbrev WorkloadOp.Ans : WorkloadOp → Type
  | incrementAndGet _ => Unit
  | decrementAndGet _ => Unit
  | compute _ => Except JavaException CalculationResult

abbrev WorkloadProg := Prog WorkloadOp WorkloadOp.Ans (Except JavaException CalculationResult)

/-- Calculate, decrement the counter, and return. -/
def computeAndLeave (type : ECalculationType) (calculation : Calculation) : WorkloadProg :=
  .call (.compute calculation) fun result =>
    match result with
    -- an exception leaves before the decrement
    | .error e => .ret (.error e)
    | .ok result => .call (.decrementAndGet type) fun _ => .ret (.ok result)

namespace Controller

def add (decimalOne decimalTwo : BigDecimal) : WorkloadProg :=
  .call (.incrementAndGet .add) fun _ => computeAndLeave .add (.add decimalOne decimalTwo)

def multiply (decimalOne decimalTwo : BigDecimal) : WorkloadProg :=
  .call (.incrementAndGet .multiply) fun _ =>
    computeAndLeave .multiply (.multiply decimalOne decimalTwo)

/-- Small numbers are returned without a decrement. -/
def calculateFibonacci (n : ℤ) : WorkloadProg :=
  .call (.incrementAndGet .fibonacci) fun _ =>
    if n < 7 then .ret (.ok (.number ((fillFirstElements ∅).get n)))
    else computeAndLeave .fibonacci (.fibonacci n)

def calculatePrime (n : ℤ) : WorkloadProg :=
  .call (.incrementAndGet .prime) fun _ => computeAndLeave .prime (.prime n)

end Controller

/-- A request to the controller. -/
inductive CalculationRequest
  | add (decimalOne decimalTwo : BigDecimal)
  | multiply (decimalOne decimalTwo : BigDecimal)
  | calculateFibonacci (n : ℤ)
  | calculatePrime (n : ℤ)

namespace CalculationRequest

def prog : CalculationRequest → WorkloadProg
  | add x y => Controller.add x y
  | multiply x y => Controller.multiply x y
  | calculateFibonacci n => Controller.calculateFibonacci n
  | calculatePrime n => Controller.calculatePrime n

def type : CalculationRequest → ECalculationType
  | add _ _ => .add
  | multiply _ _ => .multiply
  | calculateFibonacci _ => .fibonacci
  | calculatePrime _ => .prime

/-- The request returns without a decrement. -/
def ReturnsEarly : CalculationRequest → Prop
  | calculateFibonacci n => n < 7
  | _ => False

instance : DecidablePred ReturnsEarly
  | add _ _ => isFalse id
  | multiply _ _ => isFalse id
  | calculateFibonacci n => inferInstanceAs (Decidable (n < 7))
  | calculatePrime _ => isFalse id

end CalculationRequest

/-! ### The counters -/

/-- `endpointWorkload`. -/
abbrev Workload := ECalculationType → ℤ

/-- What a calculation can end in, with `wrap` for the int arithmetic of
`calculateFibonacci` and `numThreads` processors.  The indices of
`calculatePrime` are taken without wrap-around whatever `wrap` is; where
`PrimeFits`, Java's ints return the same lists (`calculatePrimes_iff`). -/
def Computes (wrap : ℤ → ℤ) (numThreads : ℕ) :
    Calculation → Except JavaException CalculationResult → Prop
  | .add x y, result => result = (x.add y).map .decimal
  | .multiply x y, result => result = (x.multiply y).map .decimal
  | .fibonacci n, result =>
    ∃ fuel orders fibMap, fibLoop wrap n fuel orders fibStart = some fibMap ∧
      result = .ok (.number (fibMap.get n))
  | .prime n, result => ∃ primes, CalculatePrime n numThreads primes ∧ result = .ok (.primes primes)

/-- One step of a request. -/
def workloadServe (wrap : ℤ → ℤ) (numThreads : ℕ) : Server Workload WorkloadOp WorkloadOp.Ans :=
  fun workload op ans workload' =>
    match op, ans with
    | .incrementAndGet type, _ => workload' = Function.update workload type (workload type + 1)
    | .decrementAndGet type, _ => workload' = Function.update workload type (workload type - 1)
    | .compute calculation, result =>
      Computes wrap numThreads calculation result ∧ workload' = workload

variable {ι : Type*} [DecidableEq ι]

/-- All counters at 0, as `fillWorkloadMap` leaves them, and no request entered. -/
def workloadStart (requests : ι → CalculationRequest) :
    Pool ι Workload WorkloadOp WorkloadOp.Ans (Except JavaException CalculationResult) :=
  ⟨fun _ => 0, fun i => (requests i).prog⟩

abbrev WorkloadEntry (ι : Type*) := Entry ι Workload WorkloadOp WorkloadOp.Ans

/-- How many requests of a type have entered and not yet returned. -/
def inProgress (requests : ι → CalculationRequest) (log : List (WorkloadEntry ι))
    (c : Pool ι Workload WorkloadOp WorkloadOp.Ans (Except JavaException CalculationResult))
    (type : ECalculationType) : ℕ :=
  ((Pool.ids log).filter fun i => (requests i).type = type ∧ ¬ (c.prog i).Returned).card

abbrev WorkloadEvent := Event WorkloadOp WorkloadOp.Ans

def isIncrement (type : ECalculationType) : WorkloadEvent → Bool
  | ⟨.incrementAndGet type', _⟩ => type' = type
  | _ => false

def isDecrement (type : ECalculationType) : WorkloadEvent → Bool
  | ⟨.decrementAndGet type', _⟩ => type' = type
  | _ => false

@[simp] theorem isIncrement_increment (t type : ECalculationType) (a : Unit) :
    isIncrement t ⟨.incrementAndGet type, a⟩ = decide (type = t) := rfl

@[simp] theorem isIncrement_decrement (t type : ECalculationType) (a : Unit) :
    isIncrement t ⟨.decrementAndGet type, a⟩ = false := rfl

@[simp] theorem isIncrement_compute (t : ECalculationType) (calculation : Calculation)
    (a : Except JavaException CalculationResult) :
    isIncrement t ⟨.compute calculation, a⟩ = false := rfl

@[simp] theorem isDecrement_increment (t type : ECalculationType) (a : Unit) :
    isDecrement t ⟨.incrementAndGet type, a⟩ = false := rfl

@[simp] theorem isDecrement_decrement (t type : ECalculationType) (a : Unit) :
    isDecrement t ⟨.decrementAndGet type, a⟩ = decide (type = t) := rfl

@[simp] theorem isDecrement_compute (t : ECalculationType) (calculation : Calculation)
    (a : Except JavaException CalculationResult) :
    isDecrement t ⟨.compute calculation, a⟩ = false := rfl

/-- A calculation ended in an exception. -/
def isException : WorkloadEvent → Bool
  | ⟨.compute _, .error _⟩ => true
  | _ => false

/-! ### One request -/

/-- The steps of `add`, `multiply` and `calculatePrime`. -/
def enterAndLeave (type : ECalculationType) (calculation : Calculation) : WorkloadProg :=
  .call (.incrementAndGet type) fun _ => computeAndLeave type calculation

/-- From the seventh number on, `calculateFibonacci` has these steps as well. -/
theorem calculateFibonacci_eq_enterAndLeave {n : ℤ} (hn : ¬ n < 7) :
    Controller.calculateFibonacci n = enterAndLeave .fibonacci (.fibonacci n) := by
  simp only [Controller.calculateFibonacci, if_neg hn, enterAndLeave]

/-- **Where a calculation can stand**: before it, at its exception, before the
decrement, or at its result. -/
theorem computeAndLeave_cases {type : ECalculationType} {calculation : Calculation}
    {tr : List WorkloadEvent} {q : WorkloadProg}
    (h : (computeAndLeave type calculation).Path tr q) :
    (tr = [] ∧ ¬ q.Returned) ∨
      (∃ e, tr = [⟨.compute calculation, .error e⟩] ∧ q = .ret (.error e)) ∨
      (∃ result, tr = [⟨.compute calculation, .ok result⟩] ∧ ¬ q.Returned) ∨
      ∃ result, tr = [⟨.compute calculation, .ok result⟩, ⟨.decrementAndGet type, ()⟩] ∧
        q = .ret (.ok result) := by
  rcases Prog.path_call_iff.mp h with ⟨rfl, rfl⟩ | ⟨result, tr₁, rfl, h₁⟩
  · exact .inl ⟨rfl, Prog.not_returned_call _ _⟩
  cases result with
  | error e =>
    obtain ⟨rfl, rfl⟩ := Prog.path_ret_iff.mp h₁
    exact .inr (.inl ⟨e, rfl, rfl⟩)
  | ok result =>
    rcases Prog.path_call_iff.mp h₁ with ⟨rfl, rfl⟩ | ⟨_, tr₂, rfl, h₂⟩
    · exact .inr (.inr (.inl ⟨result, rfl, Prog.not_returned_call _ _⟩))
    · obtain ⟨rfl, rfl⟩ := Prog.path_ret_iff.mp h₂
      exact .inr (.inr (.inr ⟨result, rfl, rfl⟩))

/-- After its increment a request decrements once, as it returns. -/
theorem computeAndLeave_path {type : ECalculationType} {calculation : Calculation}
    {tr : List WorkloadEvent} {q : WorkloadProg}
    (h : (computeAndLeave type calculation).Path tr q) (hok : ∀ e ∈ tr, isException e = false)
    (t : ECalculationType) :
    tr.countP (isIncrement t) = 0 ∧
      tr.countP (isDecrement t) = if type = t ∧ q.Returned then 1 else 0 := by
  rcases computeAndLeave_cases h with
    ⟨rfl, hnot⟩ | ⟨e, rfl, rfl⟩ | ⟨result, rfl, hnot⟩ | ⟨result, rfl, rfl⟩
  · simp [hnot]
  · have hexc := hok _ List.mem_cons_self
    cases hexc
  · simp [hnot]
  · simp [List.countP_cons]

/-- **A request that has entered** has incremented its own counter once, and
has decremented it if it has returned in the regular way. -/
theorem request_path {r : CalculationRequest} {tr : List WorkloadEvent} {q : WorkloadProg}
    (h : r.prog.Path tr q) (hne : tr ≠ []) (hok : ∀ e ∈ tr, isException e = false)
    (t : ECalculationType) :
    tr.countP (isIncrement t) = (if r.type = t then 1 else 0) ∧
      tr.countP (isDecrement t)
        = (if r.type = t ∧ q.Returned ∧ ¬ r.ReturnsEarly then 1 else 0) ∧
      (r.ReturnsEarly → q.Returned) := by
  have key : ∀ {type : ECalculationType} {calculation : Calculation},
      (enterAndLeave type calculation).Path tr q →
      tr.countP (isIncrement t) = (if type = t then 1 else 0) ∧
        tr.countP (isDecrement t) = if type = t ∧ q.Returned then 1 else 0 := by
    intro type calculation h
    rcases Prog.path_call_iff.mp h with ⟨rfl, rfl⟩ | ⟨_, tr', rfl, h'⟩
    · exact absurd rfl hne
    · obtain ⟨hinc, hdec⟩ := computeAndLeave_path h' (fun e he => hok e (List.mem_cons_of_mem _ he))
        t
      simp [List.countP_cons, hinc, hdec]
  -- three of the four requests have one shape; the fourth may return in the middle of it
  cases r with
  | add x y =>
    obtain ⟨hinc, hdec⟩ := key h
    exact ⟨hinc, by simpa [CalculationRequest.ReturnsEarly, CalculationRequest.type] using hdec,
      False.elim⟩
  | multiply x y =>
    obtain ⟨hinc, hdec⟩ := key h
    exact ⟨hinc, by simpa [CalculationRequest.ReturnsEarly, CalculationRequest.type] using hdec,
      False.elim⟩
  | calculatePrime n =>
    obtain ⟨hinc, hdec⟩ := key h
    exact ⟨hinc, by simpa [CalculationRequest.ReturnsEarly, CalculationRequest.type] using hdec,
      False.elim⟩
  | calculateFibonacci n =>
    by_cases hn : n < 7
    · rcases Prog.path_call_iff.mp h with ⟨rfl, rfl⟩ | ⟨_, tr', rfl, h'⟩
      · exact absurd rfl hne
      · rw [if_pos hn] at h'
        obtain ⟨rfl, rfl⟩ := Prog.path_ret_iff.mp h'
        simp only [List.countP_singleton, isIncrement_increment, isDecrement_increment,
          decide_eq_true_eq, CalculationRequest.ReturnsEarly, hn, Prog.returned_ret]
        exact ⟨rfl, by simp, fun _ => trivial⟩
    · rw [CalculationRequest.prog, calculateFibonacci_eq_enterAndLeave hn] at h
      obtain ⟨hinc, hdec⟩ := key h
      exact ⟨hinc,
        by simpa [CalculationRequest.ReturnsEarly, CalculationRequest.type, hn] using hdec,
        fun e => absurd e hn⟩

/-! ### Every interleaving -/

variable {wrap : ℤ → ℤ} {numThreads : ℕ} {requests : ι → CalculationRequest}
  {log : List (WorkloadEntry ι)}
  {c : Pool ι Workload WorkloadOp WorkloadOp.Ans (Except JavaException CalculationResult)}

omit [DecidableEq ι] in
/-- One step adds to a counter what its call says. -/
theorem workloadServe_step {s s' : Workload} {op : WorkloadOp} {a : op.Ans}
    (h : workloadServe wrap numThreads s op a s') (t : ECalculationType) :
    s' t + (if isDecrement t ⟨op, a⟩ then 1 else 0)
      = s t + if isIncrement t ⟨op, a⟩ then 1 else 0 := by
  cases op with
  | incrementAndGet type =>
    obtain rfl : s' = _ := h
    by_cases ht : type = t
    · subst ht
      simp
    · simp [ht, Ne.symm ht]
  | decrementAndGet type =>
    obtain rfl : s' = _ := h
    by_cases ht : type = t
    · subst ht
      simp
    · simp [ht, Ne.symm ht]
  | compute calculation =>
    obtain ⟨-, rfl⟩ := h
    simp

/-- A counter is what it was, and what was added to it, less what was taken
away. -/
theorem workload_eq_countP
    {c₀ : Pool ι Workload WorkloadOp WorkloadOp.Ans (Except JavaException CalculationResult)}
    (h : Pool.Run (workloadServe wrap numThreads) c₀ log c) (t : ECalculationType) :
    c.state t + (log.countP fun e => isDecrement t e.event : ℕ)
      = c₀.state t + (log.countP fun e => isIncrement t e.event : ℕ) := by
  induction h with
  | refl => rfl
  | @tail log c c' e _ hstep ih =>
    cases hstep with
    | @mk i op next a s _ hserve =>
      have hstep := workloadServe_step hserve t
      have hevent : Entry.event (⟨i, op, a, c.state, s⟩ : WorkloadEntry ι) = ⟨op, a⟩ := rfl
      simp only [List.countP_append, List.countP_singleton, Pool.resume_state, Nat.cast_add,
        Nat.cast_ite, Nat.cast_one, Nat.cast_zero, hevent]
      linarith

/-- **A counter is the requests under way, and those that returned early.** -/
theorem workload_eq (h : Pool.Run (workloadServe wrap numThreads) (workloadStart requests) log c)
    (hok : ∀ e ∈ log, isException e.event = false) (t : ECalculationType) :
    c.state t = inProgress requests log c t
      + ((Pool.ids log).filter fun i => (requests i).type = t ∧
        (requests i).ReturnsEarly).card := by
  have hpath : ∀ i ∈ Pool.ids log,
      (proj i log).countP (isIncrement t) = (if (requests i).type = t then 1 else 0) ∧
        (proj i log).countP (isDecrement t) = (if (requests i).type = t ∧ (c.prog i).Returned ∧
          ¬ (requests i).ReturnsEarly then 1 else 0) ∧
        ((requests i).ReturnsEarly → (c.prog i).Returned) := by
    intro i hi
    refine request_path (h.path i) (fun hnil => Pool.proj_eq_nil_iff.mp hnil hi) ?_ t
    intro ev hev
    obtain ⟨e, he, -, rfl⟩ := mem_proj.mp hev
    exact hok e he
  have hcount := workload_eq_countP h t
  have hzero : (workloadStart requests).state t = 0 := rfl
  rw [hzero, zero_add, Pool.countP_log (fun _ => isIncrement t) log _ subset_rfl,
    Pool.countP_log (fun _ => isDecrement t) log _ subset_rfl,
    Finset.sum_congr rfl fun i hi => (hpath i hi).1,
    Finset.sum_congr rfl fun i hi => (hpath i hi).2.1] at hcount
  -- a request that has entered is under way, has returned early, or has decremented
  have hsplit : ∑ i ∈ Pool.ids log, (if (requests i).type = t then 1 else 0)
      = inProgress requests log c t
        + ((Pool.ids log).filter fun i =>
            (requests i).type = t ∧ (requests i).ReturnsEarly).card
        + ∑ i ∈ Pool.ids log, (if (requests i).type = t ∧ (c.prog i).Returned ∧
            ¬ (requests i).ReturnsEarly then 1 else 0) := by
    rw [inProgress, Finset.card_filter, Finset.card_filter, ← Finset.sum_add_distrib,
      ← Finset.sum_add_distrib]
    refine Finset.sum_congr rfl fun i hi => ?_
    have hret := (hpath i hi).2.2
    by_cases ht : (requests i).type = t <;> by_cases hr : (c.prog i).Returned <;>
      by_cases he : (requests i).ReturnsEarly <;> simp_all
  rw [hsplit] at hcount
  push_cast at hcount
  linarith

/-- The counters are the requests under way, and are 0 once all have
returned. -/
def Tallies (requests : ι → CalculationRequest) (log : List (WorkloadEntry ι))
    (c : Pool ι Workload WorkloadOp WorkloadOp.Ans (Except JavaException CalculationResult)) :
    Prop :=
  (∀ t, c.state t = inProgress requests log c t) ∧ (c.Finished → ∀ t, c.state t = 0)

/-- **The counters tally exactly as long as no request that returns early has
entered**, in every interleaving without exceptions. -/
theorem workload_tallies_iff
    (h : Pool.Run (workloadServe wrap numThreads) (workloadStart requests) log c)
    (hok : ∀ e ∈ log, isException e.event = false) :
    Tallies requests log c ↔ ∀ i ∈ Pool.ids log, ¬ (requests i).ReturnsEarly := by
  constructor
  · rintro ⟨htally, -⟩ i hi hearly
    have heq := workload_eq h hok (requests i).type
    rw [htally] at heq
    have hmem : i ∈ (Pool.ids log).filter fun j =>
        (requests j).type = (requests i).type ∧ (requests j).ReturnsEarly :=
      Finset.mem_filter.mpr ⟨hi, rfl, hearly⟩
    have hpos := Finset.card_pos.mpr ⟨i, hmem⟩
    omega
  · intro hnone
    have htally : ∀ t, c.state t = inProgress requests log c t := by
      intro t
      have hempty : ((Pool.ids log).filter fun i =>
          (requests i).type = t ∧ (requests i).ReturnsEarly) = ∅ :=
        Finset.filter_eq_empty_iff.mpr fun i hi he => hnone i hi he.2
      rw [workload_eq h hok t, hempty]
      simp
    refine ⟨htally, ?_⟩
    intro hfin t
    have hempty : ((Pool.ids log).filter fun i =>
        (requests i).type = t ∧ ¬ (c.prog i).Returned) = ∅ :=
      Finset.filter_eq_empty_iff.mpr fun i _ he => he.2 (hfin i)
    rw [htally t, inProgress, hempty]
    rfl

/-- Two additions at once. -/
def twoAdditions : Bool → CalculationRequest
  | false => .add ⟨1, 0⟩ ⟨2, 0⟩
  | true => .add ⟨3, 0⟩ ⟨4, 0⟩

/-- Both have entered, and one of them has left: their counter is at 1. -/
theorem workload_tallies_add :
    ∃ (log : List (WorkloadEntry Bool)) (c : Pool Bool Workload WorkloadOp WorkloadOp.Ans
        (Except JavaException CalculationResult)),
      Pool.Run (workloadServe id 1) (workloadStart twoAdditions) log c ∧
        log.map Entry.who = [false, true, false, false] ∧ (c.prog false).Returned ∧
        ¬ (c.prog true).Returned ∧ c.state .add = 1 ∧ Tallies twoAdditions log c := by
  have hentered := ((Pool.Run.refl : Pool.Run (workloadServe id 1)
    (workloadStart twoAdditions) _ _).tail (.mk false () rfl rfl)).tail (.mk true () rfl rfl)
  have hsum : Computes id 1 (.add ⟨1, 0⟩ ⟨2, 0⟩) (.ok (.decimal ⟨3, 0⟩)) := rfl
  have hrun := (hentered.tail (.mk false _ rfl ⟨hsum, rfl⟩)).tail (.mk false () rfl rfl)
  refine ⟨_, _, hrun, rfl, trivial, not_false, rfl, (workload_tallies_iff hrun ?_).mpr ?_⟩
  · simp [isException, Entry.event]
  · rintro (_ | _) - hearly
    · exact hearly
    · exact hearly

/-- A small Fibonacci number leaves its counter at 1. -/
theorem workload_leak :
    ¬ ∀ (requests : Unit → CalculationRequest) (log : List (WorkloadEntry Unit))
      (c : Pool Unit Workload WorkloadOp WorkloadOp.Ans (Except JavaException CalculationResult)),
      Pool.Run (workloadServe id 1) (workloadStart requests) log c →
        (∀ e ∈ log, isException e.event = false) → Tallies requests log c := by
  intro h
  have hrun := (Pool.Run.refl : Pool.Run (workloadServe id 1)
    (workloadStart fun _ : Unit => .calculateFibonacci 5) _ _).tail (.mk () () rfl rfl)
  have htally := (h _ _ _ hrun (by simp [isException, Entry.event])).1 .fibonacci
  revert htally
  decide

end ResilientMesh
