/-
ResilientMesh/FibonacciInt.lean

`calculateFibonacci` on Java ints.  The handler of `/fibonacci` passes on every
int: its `@Min(0)` is not enforced.  Each worker's `HashMap.put` is one atomic
step, though the map is not synchronized; the three of a round come in any
order.

The loop index starts at 7 and moves by three, so it is always 1 modulo 3, and
so is the largest int.  A bound below the largest int is therefore passed
before the index can overflow, and the loop is the one without wrap-around
(`fibLoop_javaInt`); the largest int itself is reached and never passed
(`fibLoop_maxInt`).  A negative number is looked up in the map as it is filled,
which does not have it.

Main result: the call terminates with a number, and no index leaves the range
of an int, exactly from 0 up to below the largest int
(`fibonacci_defined_iff`).
-/
import ResilientMesh.Fibonacci
import ResilientMesh.JavaInt

namespace ResilientMesh

/-! ### Rounds that do not overflow -/

/-- A round whose index stays below the largest int is a round without
wrap-around. -/
theorem next_javaInt {s : FibState} (hlo : 7 ≤ s.i) (hhi : s.i + 3 < 2 ^ 31)
    (order : Equiv.Perm (Fin 3)) : s.next javaInt order = s.next id order := by
  have hself : ∀ x : ℤ, -10 ≤ x → x ≤ s.i + 3 → javaInt x = x := by
    intro x h₁ h₂
    apply javaInt_eq_self
    constructor <;> omega
  have hworkers : roundWorkers javaInt s = roundWorkers id s := by
    funext j
    match j with
    | 0 =>
      show FibWorker.mk _ _ _ = FibWorker.mk _ _ _
      rw [hself (s.i - 3) (by omega) (by omega), hself (s.i - 6) (by omega) (by omega)]
      rfl
    | 1 =>
      show FibWorker.mk _ _ _ = FibWorker.mk _ _ _
      rw [hself (s.i + 1) (by omega) (by omega), hself (s.i - 2) (by omega) (by omega),
        hself (s.i - 5) (by omega) (by omega)]
      rfl
    | 2 =>
      show FibWorker.mk _ _ _ = FibWorker.mk _ _ _
      rw [hself (s.i + 2) (by omega) (by omega), hself (s.i - 1) (by omega) (by omega),
        hself (s.i - 4) (by omega) (by omega)]
      rfl
  have hseven : ∀ m : FibMap, lastSeven javaInt (s.i + 2) m = lastSeven id (s.i + 2) m := by
    intro m
    rw [lastSeven]
    apply List.foldl_ext
    intro temp j hj
    obtain ⟨k, hk, rfl⟩ : ∃ k : ℕ, k < 7 ∧ j = k := by simpa using hj
    rw [hself (s.i + 2 - k) (by omega) (by omega)]
    rfl
  have hi : javaInt (s.i + 2) = s.i + 2 := hself _ (by omega) (by omega)
  have hnext : javaInt (s.i + 2 + 1) = s.i + 2 + 1 := hself _ (by omega) (by omega)
  show FibState.mk _ _ = FibState.mk _ _
  rw [hi, hnext, hworkers, hseven]
  rfl

/-- An index that is 1 modulo 3 and has not passed a bound below the largest
int is three below the largest int. -/
theorem add_three_lt {i n : ℤ} (hmod : i % 3 = 1) (hle : i ≤ n) (hn : n < 2 ^ 31 - 1) :
    i + 3 < 2 ^ 31 := by
  omega

variable {n : ℤ}

/-- **Below the largest int every head of the loop is one without
wrap-around.** -/
theorem FibHead.of_javaInt (hn : n < 2 ^ 31 - 1) {s : FibState} (h : FibHead javaInt n s) :
    FibHead id n s ∧ 7 ≤ s.i ∧ s.i % 3 = 1 := by
  induction h with
  | start => exact ⟨.start, le_rfl, rfl⟩
  | @next s order _ hle ih =>
    obtain ⟨hhead, hlo, hmod⟩ := ih
    rw [next_javaInt hlo (add_three_lt hmod hle hn)]
    have hi : (s.next id order).i = s.i + 3 := by
      show s.i + 2 + 1 = s.i + 3
      ring
    refine ⟨hhead.next order hle, ?_, ?_⟩
    · omega
    · omega

/-- The whole loop, from such a head. -/
theorem fibLoop_javaInt (hn : n < 2 ^ 31 - 1) (fuel : ℕ) (orders : ℕ → Equiv.Perm (Fin 3))
    {s : FibState} (h : FibHead javaInt n s) :
    fibLoop javaInt n fuel orders s = fibLoop id n fuel orders s := by
  induction fuel generalizing orders s with
  | zero => rfl
  | succ fuel ih =>
    rw [fibLoop, fibLoop]
    by_cases hle : s.i ≤ n
    · obtain ⟨-, hlo, hmod⟩ := h.of_javaInt hn
      rw [if_pos hle, if_pos hle, ih _ (h.next (orders 0) hle),
        next_javaInt hlo (add_three_lt hmod hle hn)]
    · rw [if_neg hle, if_neg hle]

/-! ### The largest int -/

/-- **No int is above the largest**, so its loop never ends. -/
theorem fibLoop_maxInt (fuel : ℕ) (orders : ℕ → Equiv.Perm (Fin 3)) {s : FibState}
    (h : IsInt s.i) : fibLoop javaInt (2 ^ 31 - 1) fuel orders s = none := by
  induction fuel generalizing orders s with
  | zero => rfl
  | succ fuel ih =>
    have hle : s.i ≤ 2 ^ 31 - 1 := by
      obtain ⟨-, hlt⟩ := h
      omega
    rw [fibLoop, if_pos hle]
    apply ih
    exact isInt_javaInt _

/-! ### Every int -/

/-- Whatever the orders of the puts, the call returns a number, and no index of
its loop leaves the range of an int. -/
structure FibonacciDefined (n : ℤ) : Prop where
  returns : ∀ orders, ∃ fuel value, calculateFibonacci javaInt orders fuel n = some (some value)
  inRange : ∀ s, FibHead javaInt n s → s.i ≤ n →
    IsInt (s.i + 1) ∧ IsInt (s.i + 2) ∧ IsInt (s.i + 2 + 1)

/-- The map as it is filled has no negative key. -/
theorem fillFirstElements_neg {k : ℤ} (h : k < 0) : (fillFirstElements ∅).get k = none := by
  rw [FibMap.get, holds_fillFirstElements k, if_neg (by omega)]
  rfl

/-- **The ints on which `calculateFibonacci` works**: those that are not
negative, but for the largest. -/
theorem fibonacci_defined_iff (hn : IsInt n) :
    FibonacciDefined n ↔ 0 ≤ n ∧ n < 2 ^ 31 - 1 := by
  obtain ⟨-, hlt⟩ := hn
  constructor
  · intro h
    obtain ⟨fuel, value, hret⟩ := h.returns fun _ => 1
    constructor
    · by_contra hneg
      rw [calculateFibonacci, if_pos (by omega), fillFirstElements_neg (by omega)] at hret
      cases hret
    · by_contra hmax
      obtain rfl : n = 2 ^ 31 - 1 := by omega
      have hstart : IsInt fibStart.i := by
        show IsInt 7
        constructor <;> norm_num
      rw [calculateFibonacci, if_neg (by norm_num), fibLoop_maxInt fuel _ hstart] at hret
      cases hret
  · rintro ⟨hnonneg, hmax⟩
    constructor
    · intro orders
      by_cases hsmall : n < 7
      · refine ⟨0, fibAt n, ?_⟩
        rw [calculateFibonacci, if_pos hsmall, holds_fillFirstElements.get hnonneg hsmall]
      · obtain ⟨s, hloop, hhead, hpast⟩ := fibLoop_eq orders (.start : FibHead id n fibStart)
          (Nat.lt_succ_self (n + 1 - fibStart.i).toNat)
        refine ⟨(n + 1 - fibStart.i).toNat + 1, fibAt n, ?_⟩
        rw [calculateFibonacci, if_neg hsmall, fibLoop_javaInt hmax _ orders .start, hloop,
          Option.map_some, hhead.get (by omega) hpast]
    · intro s hs hle
      obtain ⟨-, hlo, hmod⟩ := hs.of_javaInt hmax
      have hhi := add_three_lt hmod hle hmax
      refine ⟨⟨?_, ?_⟩, ⟨?_, ?_⟩, ⟨?_, ?_⟩⟩ <;> omega

/-- The last int on which it works. -/
theorem fibonacci_defined_iff_last :
    FibonacciDefined 2147483646 ↔ (0 : ℤ) ≤ 2147483646 ∧ (2147483646 : ℤ) < 2 ^ 31 - 1 :=
  fibonacci_defined_iff ⟨by norm_num, by norm_num⟩

/-- A negative number gets null. -/
theorem fibonacci_undefined : ¬ ∀ n : ℤ, IsInt n → FibonacciDefined n := by
  intro h
  obtain ⟨fuel, value, hret⟩ := (h (-1) ⟨by norm_num, by norm_num⟩).returns fun _ => 1
  rw [calculateFibonacci, if_pos (by norm_num), fillFirstElements_neg (by norm_num)] at hret
  cases hret

end ResilientMesh
