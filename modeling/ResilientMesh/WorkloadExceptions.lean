/-
ResilientMesh/WorkloadExceptions.lean

The workload counters when a calculation throws.  `add` and `multiply`
decrement their counter in a plain statement after the calculation, so an
exception leaves it one too high, for good.

A decimal operation throws where a scale leaves the range of an int or a
number the range of `BigInteger` (`add_ok_iff`, `multiply_ok_iff`).  That much
a client can ask for with a few characters: `1E-2147483647` times `0.1`.

Main result: a request on its own leaves its counter as it was exactly if its
operation does not throw (`counter_restored_iff`).
-/
import ResilientMesh.Workload
import ResilientMesh.JavaInt

namespace ResilientMesh

/-! ### Where decimals throw -/

/-- A magnitude in the range of `BigInteger`. -/
def Supported (x : ℤ) : Prop := x.natAbs.log2 < 2 ^ 31 - 1

/-- A number can be scaled up so far: it is 0, or stays in the ranges. -/
def RaiseFits (unscaled raise : ℤ) : Prop :=
  0 < raise → unscaled ≠ 0 → raise < 2 ^ 31 ∧ Supported (unscaled * 10 ^ raise.toNat)

/-- The number with the smaller scale can be scaled up, and the sum is in
range. -/
def AddFits (x y : BigDecimal) : Prop :=
  RaiseFits x.unscaled (y.scale - x.scale) ∧ RaiseFits y.unscaled (x.scale - y.scale) ∧
    Supported (x.unscaled * 10 ^ (y.scale - x.scale).toNat
      + y.unscaled * 10 ^ (x.scale - y.scale).toNat)

/-- The product's scale is an int, or the first operand 0, and the product is in
range. -/
def MultiplyFits (x y : BigDecimal) : Prop :=
  (x.unscaled ≠ 0 → IsInt (x.scale + y.scale)) ∧ Supported (x.unscaled * y.unscaled)

/-- No exception. -/
def Succeeds {α : Type} (e : Except JavaException α) : Prop := ∃ a, e = .ok a

variable {α : Type}

theorem succeeds_ok (a : α) : Succeeds (.ok a) := ⟨a, rfl⟩

theorem not_succeeds_error (e : JavaException) :
    ¬ Succeeds (.error e : Except JavaException α) := by
  rintro ⟨a, ⟨⟩⟩

theorem succeeds_checkRange_bind {x : ℤ} {f : ℤ → Except JavaException α} :
    Succeeds (checkRange x >>= f) ↔ Supported x ∧ Succeeds (f x) := by
  rw [checkRange]
  split_ifs with h
  · exact ⟨fun hf => ⟨h, hf⟩, And.right⟩
  · exact ⟨fun hf => absurd hf (not_succeeds_error _), fun hf => absurd hf.1 h⟩

theorem multiply_ok_iff (x y : BigDecimal) : Succeeds (x.multiply y) ↔ MultiplyFits x y := by
  rw [BigDecimal.multiply, checkScale, MultiplyFits]
  by_cases hscale : -2 ^ 31 ≤ x.scale + y.scale ∧ x.scale + y.scale < 2 ^ 31
  · rw [if_pos hscale]
    show Succeeds (checkRange _ >>= _) ↔ _
    rw [succeeds_checkRange_bind]
    exact ⟨fun h => ⟨fun _ => hscale, h.1⟩, fun h => ⟨h.2, succeeds_ok _⟩⟩
  · rw [if_neg hscale]
    by_cases hzero : x.unscaled = 0
    · rw [if_pos hzero]
      show Succeeds (checkRange _ >>= _) ↔ _
      rw [succeeds_checkRange_bind]
      exact ⟨fun h => ⟨fun hne => absurd hzero hne, h.1⟩, fun h => ⟨h.2, succeeds_ok _⟩⟩
    · rw [if_neg hzero]
      exact ⟨fun h => absurd h (not_succeeds_error _), fun h => absurd (h.1 hzero) hscale⟩

/-- Scaling up, and going on with the result. -/
theorem succeeds_raise_bind {unscaled raise : ℤ} (hraise : 0 < raise)
    {f : ℤ → Except JavaException α} :
    Succeeds (checkScale unscaled raise >>= fun r =>
        checkRange (unscaled * 10 ^ r.toNat) >>= f) ↔
      RaiseFits unscaled raise ∧ Succeeds (f (unscaled * 10 ^ raise.toNat)) := by
  by_cases hzero : unscaled = 0
  · -- 0 is 0 at any scale
    subst hzero
    obtain ⟨r, hr⟩ : ∃ r, checkScale 0 raise = .ok r := by
      by_cases hscale : -2 ^ 31 ≤ raise ∧ raise < 2 ^ 31
      · exact ⟨_, by rw [checkScale, if_pos hscale]⟩
      · exact ⟨_, by rw [checkScale, if_neg hscale, if_pos rfl]⟩
    rw [hr]
    show Succeeds (checkRange _ >>= f) ↔ _
    rw [zero_mul, zero_mul, succeeds_checkRange_bind]
    have hsupported : Supported 0 := by
      show Nat.log2 0 < 2 ^ 31 - 1
      decide
    exact ⟨fun h => ⟨fun _ hne => absurd rfl hne, h.2⟩, fun h => ⟨hsupported, h.2⟩⟩
  · rw [checkScale]
    by_cases hscale : -2 ^ 31 ≤ raise ∧ raise < 2 ^ 31
    · rw [if_pos hscale]
      show Succeeds (checkRange _ >>= f) ↔ _
      rw [succeeds_checkRange_bind]
      exact ⟨fun h => ⟨fun _ _ => ⟨hscale.2, h.1⟩, h.2⟩,
        fun h => ⟨(h.1 hraise hzero).2, h.2⟩⟩
    · rw [if_neg hscale, if_neg hzero]
      refine ⟨fun h => absurd h (not_succeeds_error _), ?_⟩
      rintro ⟨hfits, -⟩
      exact absurd ⟨by omega, (hfits hraise hzero).1⟩ hscale

/-- Nothing is scaled up by less than 1. -/
theorem raiseFits_of_nonpos {unscaled raise : ℤ} (h : raise ≤ 0) : RaiseFits unscaled raise :=
  fun hpos => absurd hpos (not_lt.mpr h)

theorem add_ok_iff (x y : BigDecimal) : Succeeds (x.add y) ↔ AddFits x y := by
  rw [BigDecimal.add, AddFits]
  rcases lt_trichotomy x.scale y.scale with hlt | heq | hgt
  · have hother : (x.scale - y.scale).toNat = 0 := by omega
    rw [if_neg hlt.ne, if_pos hlt, succeeds_raise_bind (by omega), succeeds_checkRange_bind, hother,
      pow_zero, mul_one]
    exact ⟨fun h => ⟨h.1, raiseFits_of_nonpos (by omega), h.2.1⟩,
      fun h => ⟨h.1, h.2.2, succeeds_ok _⟩⟩
  · have hzero : (y.scale - x.scale).toNat = 0 := by omega
    have hother : (x.scale - y.scale).toNat = 0 := by omega
    rw [if_pos heq, succeeds_checkRange_bind, hzero, hother, pow_zero, mul_one, mul_one]
    exact ⟨fun h => ⟨raiseFits_of_nonpos (by omega), raiseFits_of_nonpos (by omega), h.1⟩,
      fun h => ⟨h.2.2, succeeds_ok _⟩⟩
  · have hother : (y.scale - x.scale).toNat = 0 := by omega
    rw [if_neg hgt.ne', if_neg hgt.asymm, succeeds_raise_bind (by omega), succeeds_checkRange_bind,
      hother, pow_zero, mul_one]
    exact ⟨fun h => ⟨raiseFits_of_nonpos (by omega), h.1, h.2.1⟩,
      fun h => ⟨h.2.1, h.2.2, succeeds_ok _⟩⟩

/-! ### One request alone -/

/-- A calculation that ends in an exception is not followed by the decrement. -/
theorem computeAndLeave_returned {type : ECalculationType} {calculation : Calculation}
    {tr : List WorkloadEvent} {q : WorkloadProg}
    (h : (computeAndLeave type calculation).Path tr q) (hq : q.Returned) :
    ∃ result, ⟨.compute calculation, result⟩ ∈ tr ∧ tr.countP (isIncrement type) = 0 ∧
      (Succeeds result → tr.countP (isDecrement type) = 1) ∧
      (¬ Succeeds result → tr.countP (isDecrement type) = 0) := by
  rcases computeAndLeave_cases h with
    ⟨-, hnot⟩ | ⟨e, rfl, rfl⟩ | ⟨result, -, hnot⟩ | ⟨result, rfl, rfl⟩
  · exact absurd hq hnot
  · exact ⟨.error e, List.mem_cons_self, rfl, fun hok => absurd hok (not_succeeds_error e),
      fun _ => rfl⟩
  · exact absurd hq hnot
  · refine ⟨.ok result, List.mem_cons_self, rfl, fun _ => ?_,
      fun hno => absurd (succeeds_ok result) hno⟩
    simp

section Alone

variable {wrap : ℤ → ℤ} {numThreads : ℕ}

/-- A program on its own, with counters at any values. -/
def workloadAlone (workload : Workload) (p : WorkloadProg) :
    Pool Unit Workload WorkloadOp WorkloadOp.Ans (Except JavaException CalculationResult) :=
  ⟨workload, fun _ => p⟩

/-- **After the request the counter is what it was if the calculation
succeeded, and one more if it threw.** -/
theorem counter_alone {type : ECalculationType} {calculation : Calculation} {workload : Workload}
    {log : List (WorkloadEntry Unit)}
    {c : Pool Unit Workload WorkloadOp WorkloadOp.Ans (Except JavaException CalculationResult)}
    (h : Pool.Run (workloadServe wrap numThreads)
      (workloadAlone workload (enterAndLeave type calculation)) log c) (hfin : c.Finished) :
    ∃ result, Computes wrap numThreads calculation result ∧
      (Succeeds result → c.state type = workload type) ∧
      (¬ Succeeds result → c.state type = workload type + 1) := by
  have hcount := workload_eq_countP h type
  have hids : Pool.ids log ⊆ {()} := fun i _ => Finset.mem_singleton.mpr rfl
  rw [Pool.countP_log (fun _ => isIncrement type) log _ hids,
    Pool.countP_log (fun _ => isDecrement type) log _ hids, Finset.sum_singleton,
    Finset.sum_singleton] at hcount
  have hstart : (workloadAlone workload (enterAndLeave type calculation)).state = workload := rfl
  rw [hstart] at hcount
  rcases Prog.path_call_iff.mp (h.path ()) with ⟨-, hprog⟩ | ⟨_, tr, htr, hpath⟩
  · have hret := hfin ()
    rw [hprog] at hret
    exact absurd hret (Prog.not_returned_call _ _)
  · obtain ⟨result, hmem, hinc, hsucc, hthrew⟩ := computeAndLeave_returned hpath (hfin ())
    refine ⟨result, ?_, ?_, ?_⟩
    · have hin : (⟨.compute calculation, result⟩ : WorkloadEvent) ∈ proj () log := by
        rw [htr]
        exact List.mem_cons_of_mem _ hmem
      obtain ⟨e, he, -, hevent⟩ := mem_proj.mp hin
      obtain ⟨who, op, ans, pre, post⟩ := e
      obtain ⟨rfl, hans⟩ := Event.mk.inj hevent
      obtain rfl := eq_of_heq hans
      exact (h.serves _ he).1
    · intro hok
      simp only [htr, List.countP_cons, hinc, hsucc hok, isIncrement_increment,
        isDecrement_increment, decide_true, if_true] at hcount
      push_cast at hcount
      linarith
    · intro hno
      simp only [htr, List.countP_cons, hinc, hthrew hno, isIncrement_increment,
        isDecrement_increment, decide_true, if_true] at hcount
      push_cast at hcount
      linarith

/-- The request does come to its end. -/
theorem exists_alone (type : ECalculationType) {calculation : Calculation}
    {result : Except JavaException CalculationResult}
    (hresult : Computes wrap numThreads calculation result) (workload : Workload) :
    ∃ log c, Pool.Run (workloadServe wrap numThreads)
      (workloadAlone workload (enterAndLeave type calculation)) log c ∧ c.Finished := by
  have hcompute : workloadServe wrap numThreads
      (Function.update workload type (workload type + 1)) (.compute calculation) result
      (Function.update workload type (workload type + 1)) := ⟨hresult, rfl⟩
  have hrun := ((Pool.Run.refl : Pool.Run (workloadServe wrap numThreads)
    (workloadAlone workload (enterAndLeave type calculation)) _ _).tail
      (.mk () () rfl rfl)).tail (.mk () _ rfl hcompute)
  cases result with
  | error e => exact ⟨_, _, hrun, fun _ => trivial⟩
  | ok result => exact ⟨_, _, hrun.tail (.mk () () rfl rfl), fun _ => trivial⟩

/-- However the request ends, its counter is what it was before. -/
def Restores (wrap : ℤ → ℤ) (numThreads : ℕ) (r : CalculationRequest) : Prop :=
  ∀ workload log c, Pool.Run (workloadServe wrap numThreads) (workloadAlone workload r.prog) log c →
    c.Finished → c.state r.type = workload r.type

/-- A request whose calculation has one result restores its counter exactly if
that is no exception. -/
theorem restores_iff {r : CalculationRequest} {calculation : Calculation}
    {result : Except JavaException CalculationResult}
    (hr : r.prog = enterAndLeave r.type calculation)
    (hresult : ∀ result', Computes wrap numThreads calculation result' ↔ result' = result) :
    Restores wrap numThreads r ↔ Succeeds result := by
  constructor
  · intro h
    obtain ⟨log, c, hrun, hfin⟩ :=
      exists_alone r.type ((hresult result).mpr rfl) fun _ => 0
    obtain ⟨result', hcomputes, -, hthrew⟩ := counter_alone hrun hfin
    obtain rfl := (hresult result').mp hcomputes
    rw [← hr] at hrun
    have hsame := h _ _ _ hrun hfin
    by_contra hno
    have hmore := hthrew hno
    omega
  · intro hok workload log c hrun hfin
    rw [hr] at hrun
    obtain ⟨result', hcomputes, hsucc, -⟩ := counter_alone hrun hfin
    obtain rfl := (hresult result').mp hcomputes
    exact hsucc hok

theorem succeeds_map {α β : Type} {e : Except JavaException α} {f : α → β} :
    Succeeds (e.map f) ↔ Succeeds e := by
  cases e with
  | error e =>
    exact ⟨fun h => absurd h (not_succeeds_error e), fun h => absurd h (not_succeeds_error e)⟩
  | ok a => exact ⟨fun _ => succeeds_ok a, fun _ => succeeds_ok (f a)⟩

/-- **An operation restores its counter exactly on the operands on which it
does not throw.** -/
theorem counter_restored_iff (wrap : ℤ → ℤ) (numThreads : ℕ) (x y : BigDecimal) :
    (Restores wrap numThreads (.add x y) ↔ AddFits x y) ∧
      (Restores wrap numThreads (.multiply x y) ↔ MultiplyFits x y) := by
  constructor
  · rw [← add_ok_iff, ← succeeds_map (f := CalculationResult.decimal)]
    exact restores_iff rfl fun _ => Iff.rfl
  · rw [← multiply_ok_iff, ← succeeds_map (f := CalculationResult.decimal)]
    exact restores_iff rfl fun _ => Iff.rfl

/-- The scales of `1E-2147483647` and `0.1` add up to more than an int. -/
theorem counter_not_restored :
    ¬ ∀ x y, Restores id 1 (.add x y) ∧ Restores id 1 (.multiply x y) := by
  intro h
  have hmultiply := (h ⟨1, 2147483647⟩ ⟨1, 1⟩).2
  have hthrows : ∀ result, Computes id 1 (.multiply ⟨1, 2147483647⟩ ⟨1, 1⟩) result ↔
      result = .error .arithmeticException := fun _ => Iff.rfl
  exact not_succeeds_error _ ((restores_iff rfl hthrows).mp hmultiply)

end Alone

end ResilientMesh
