/-
ResilientMesh/ClusterResults.lean

What a client of `/calculate2` is told in the end.  Between its request and its
answer lie the control-center, the way to the calculation service, Spring, the
settings, whichever other requests run, the threads of the calculation and the
text that is made of its result.  Each `HashMap.put` of a calculation is one
step, and the list of primes is right where no int of its search wraps around
(`PrimeFits`).

Main result, for every interleaving of the cluster: a client that is answered
200 has got nothing, because `shouldCalculate` was off when its request asked,
or the text of the result that it asked for (`calculate2_right`).
-/
import ResilientMesh.ClusterWork
import ResilientMesh.FibonacciInt
import ResilientMesh.PrimeInt

namespace ResilientMesh

/-! ### Decimals -/

/-- The number that a decimal is. -/
def BigDecimal.value (x : BigDecimal) : ℚ := x.unscaled * (10 : ℚ) ^ (-x.scale)

theorem eq_of_checkRange {x y : ℤ} (h : checkRange x = .ok y) : y = x := by
  rw [checkRange] at h
  split_ifs at h
  cases h
  rfl

/-- A new scale is the one asked for, unless the number is 0. -/
theorem eq_of_checkScale {unscaled scale r : ℤ} (h : checkScale unscaled scale = .ok r) :
    r = scale ∨ unscaled = 0 := by
  rw [checkScale] at h
  by_cases hscale : -2 ^ 31 ≤ scale ∧ scale < 2 ^ 31
  · rw [if_pos hscale] at h
    exact .inl (Except.ok.inj h).symm
  · rw [if_neg hscale] at h
    by_cases hzero : unscaled = 0
    · exact .inr hzero
    · rw [if_neg hzero] at h
      cases h

theorem ok_of_bind {α β : Type} {e : Except JavaException α} {f : α → Except JavaException β}
    {b : β}
    (h : e >>= f = .ok b) : ∃ a, e = .ok a ∧ f a = .ok b := by
  cases e with
  | error e => cases h
  | ok a => exact ⟨a, rfl, h⟩

/-- Scaling a number up does not change it. -/
theorem value_raise {unscaled scale scale' r : ℤ} (h : checkScale unscaled (scale' - scale) = .ok r)
    (hle : scale ≤ scale') :
    ((unscaled * 10 ^ r.toNat : ℤ) : ℚ) * (10 : ℚ) ^ (-scale')
      = unscaled * (10 : ℚ) ^ (-scale) := by
  rcases eq_of_checkScale h with rfl | rfl
  · obtain ⟨k, hk⟩ := Int.eq_ofNat_of_zero_le (sub_nonneg.mpr hle)
    rw [hk, show scale' = scale + k by omega]
    push_cast
    rw [Int.toNat_natCast, mul_assoc, ← zpow_natCast, ← zpow_add₀ (by norm_num)]
    congr 2
    ring
  · simp

/-- **The sum of two decimals is the sum of the numbers.** -/
theorem add_value {x y z : BigDecimal} (h : x.add y = .ok z) : z.value = x.value + y.value := by
  rw [BigDecimal.add] at h
  split_ifs at h with heq hlt
  · obtain ⟨sum, hsum, hz⟩ := ok_of_bind h
    cases hz
    rw [eq_of_checkRange hsum, BigDecimal.value, BigDecimal.value, BigDecimal.value, heq]
    push_cast
    ring
  · obtain ⟨raise, hraise, h₁⟩ := ok_of_bind h
    obtain ⟨scaledX, hscaled, h₂⟩ := ok_of_bind h₁
    obtain ⟨sum, hsum, hz⟩ := ok_of_bind h₂
    cases hz
    have hx := value_raise hraise hlt.le
    rw [← eq_of_checkRange hscaled] at hx
    rw [eq_of_checkRange hsum, BigDecimal.value, BigDecimal.value, BigDecimal.value, ← hx]
    push_cast
    ring
  · obtain ⟨raise, hraise, h₁⟩ := ok_of_bind h
    obtain ⟨scaledY, hscaled, h₂⟩ := ok_of_bind h₁
    obtain ⟨sum, hsum, hz⟩ := ok_of_bind h₂
    cases hz
    have hy := value_raise hraise (not_lt.mp hlt)
    rw [← eq_of_checkRange hscaled] at hy
    rw [eq_of_checkRange hsum, BigDecimal.value, BigDecimal.value, BigDecimal.value, ← hy]
    push_cast
    ring

/-- **The product of two decimals is the product of the numbers.** -/
theorem multiply_value {x y z : BigDecimal} (h : x.multiply y = .ok z) :
    z.value = x.value * y.value := by
  obtain ⟨productScale, hscale, h₁⟩ := ok_of_bind h
  obtain ⟨product, hproduct, hz⟩ := ok_of_bind h₁
  cases hz
  rw [eq_of_checkRange hproduct, BigDecimal.value, BigDecimal.value, BigDecimal.value]
  rcases eq_of_checkScale hscale with rfl | hzero
  · rw [neg_add, zpow_add₀ (by norm_num)]
    push_cast
    ring
  · simp [hzero]

/-! ### Fibonacci numbers -/

/-- A loop that has ended has ended at a head. -/
theorem fibLoop_head {n : ℤ} {fuel : ℕ} {orders : ℕ → Equiv.Perm (Fin 3)} {s : FibState}
    {fibMap : FibMap} (h : FibHead id n s) (hloop : fibLoop id n fuel orders s = some fibMap) :
    ∃ s', fibMap = s'.fibMap ∧ FibHead id n s' ∧ n < s'.i := by
  induction fuel generalizing orders s with
  | zero => cases hloop
  | succ fuel ih =>
    rw [fibLoop] at hloop
    by_cases hle : s.i ≤ n
    · rw [if_pos hle] at hloop
      exact ih (h.next (orders 0) hle) hloop
    · rw [if_neg hle] at hloop
      exact ⟨s, (Option.some.inj hloop).symm, h, not_le.mp hle⟩

/-- **What the loop leaves is the Fibonacci number**, and it leaves nothing for
the largest int. -/
theorem fibLoop_get {n : ℤ} (hn : IsInt n) (h7 : 7 ≤ n) {fuel : ℕ}
    {orders : ℕ → Equiv.Perm (Fin 3)} {fibMap : FibMap}
    (hloop : fibLoop javaInt n fuel orders fibStart = some fibMap) :
    n < 2 ^ 31 - 1 ∧ fibMap.get n = some (fibAt n) := by
  have hmax : n < 2 ^ 31 - 1 := by
    by_contra hge
    obtain ⟨-, hlt⟩ := hn
    obtain rfl : n = 2 ^ 31 - 1 := by omega
    have hstart : IsInt fibStart.i := by
      show IsInt 7
      constructor <;> norm_num
    rw [fibLoop_maxInt fuel orders hstart] at hloop
    cases hloop
  rw [fibLoop_javaInt hmax fuel orders .start] at hloop
  obtain ⟨s, rfl, hhead, hlt⟩ := fibLoop_head .start hloop
  exact ⟨hmax, hhead.get h7 hlt⟩

/-! ### One request -/

/-- The text of a right result.  A list of primes is promised where nothing
overflows. -/
inductive RightText (numThreads : ℕ) : RestRequest → String → Prop
  | add {x y z : BigDecimal} : z.value = x.value + y.value →
      RightText numThreads (.add x y) z.toString
  | multiply {x y z : BigDecimal} : z.value = x.value * y.value →
      RightText numThreads (.multiply x y) z.toString
  | prime {n : ℤ} {primes : List ℤ} :
      (PrimeFits n numThreads → primes.Nodup ∧
        ∀ k, k ∈ primes ↔ ∃ p : ℕ, k = p ∧ p.Prime ∧ (p : ℤ) < primeBound n numThreads) →
      RightText numThreads (.prime n) (primesText primes)
  | fibonacci {n : ℤ} : 0 ≤ n → n < 2 ^ 31 - 1 →
      RightText numThreads (.fibonacci n) (toString (Nat.fib n.toNat : ℤ))

variable {spring : Spring} {lib : RestLibrary} {numThreads : ℕ}

/-- The result of a calculation is one that was computed. -/
theorem enterAndLeave_result {type : ECalculationType} {calculation : Calculation}
    {tr : List WorkloadEvent} {a : Except JavaException CalculationResult}
    (h : (enterAndLeave type calculation).Path tr (.ret a)) : ⟨.compute calculation, a⟩ ∈ tr := by
  obtain ⟨_, tr₁, rfl, h₁⟩ := Prog.path_call_ret_iff.mp h
  apply List.mem_cons_of_mem
  rcases computeAndLeave_cases h₁ with
    ⟨-, hnot⟩ | ⟨e, rfl, hret⟩ | ⟨result, -, hnot⟩ | ⟨result, rfl, hret⟩
  · exact absurd trivial hnot
  · cases hret
    exact List.mem_cons_self
  · exact absurd trivial hnot
  · cases hret
    exact List.mem_cons_self

theorem mem_of_mem_restPart {tr : List ServiceEvent} {op : RestOp} {ans : op.Ans}
    (h : (⟨op, ans⟩ : RestEvent) ∈ restPart tr) : (⟨.rest op, ans⟩ : ServiceEvent) ∈ tr := by
  obtain ⟨ev, hev, hsome⟩ := List.mem_filterMap.mp h
  unfold restEvent at hsome
  split at hsome
  · cases hsome
    exact hev
  · cases hsome

/-- The controller inside a request. -/
theorem controller_path {p : WorkloadProg} {tr : List ServiceEvent}
    {a : Except JavaException CalculationResult}
    (h : (ofRest (ofController p)).Path tr (.ret a)) :
    ∃ tr', p.Path tr' (.ret a) ∧ ∀ op ans, (⟨op, ans⟩ : WorkloadEvent) ∈ tr' →
      (⟨.rest (.controller op), ans⟩ : ServiceEvent) ∈ tr := by
  obtain ⟨tr', q, hpath, hmap, hq⟩ := ofController_path (ofRest_path h)
  cases q with
  | call op next => cases hq
  | ret b =>
    cases hq
    refine ⟨tr', hpath, ?_⟩
    intro op ans hmem
    have hrest : (⟨.controller op, ans⟩ : RestEvent) ∈ restPart tr := by
      rw [hmap]
      exact List.mem_map_of_mem hmem
    exact mem_of_mem_restPart hrest

/-- The last step of the request asks whether to calculate, and is told not to. -/
def EndsSuppressed (tr : List ServiceEvent) : Prop := ∃ pre, tr = pre ++ [⟨.shouldCalculate, false⟩]

theorem EndsSuppressed.append {tr : List ServiceEvent} (h : EndsSuppressed tr)
    (pre : List ServiceEvent) :
    EndsSuppressed (pre ++ tr) := by
  obtain ⟨pre', rfl⟩ := h
  exact ⟨pre ++ pre', (List.append_assoc ..).symm⟩

/-- A 200 that is not suppressed has the result of the calculation. -/
theorem checkThenCalculate_result {calculate : WorkloadProg} {tr : List ServiceEvent}
    {entity : ResponseEntity}
    (h : (Concurrent.checkThenCalculate lib calculate).Path tr (.ret (.ok entity)))
    (h200 : entity.status = 200) :
    entity.body = none ∧ EndsSuppressed tr ∨ ∃ result tr', entity.body = some (.result result) ∧
      (ofRest (ofController calculate)).Path tr' (.ret (.ok result)) ∧ ∀ ev ∈ tr', ev ∈ tr := by
  obtain ⟨code, pre, tr₁, rfl, hpath⟩ := withResponseCode_ok h
  split_ifs at hpath with hcode
  · obtain ⟨-, hret⟩ := Prog.path_ret_ret_iff.mp hpath
    rw [eq_of_responseEntity hret.symm] at h200
    exact absurd h200 hcode
  · obtain ⟨shouldCalculate, tr₂, rfl, h₂⟩ := Prog.path_call_ret_iff.mp hpath
    cases shouldCalculate with
    | false =>
      obtain ⟨rfl, hret⟩ := Prog.path_ret_ret_iff.mp h₂
      exact .inl ⟨by rw [eq_of_responseEntity hret.symm], pre, rfl⟩
    | true =>
      obtain ⟨result, tr₃, tr₄, rfl, h₃, h₄⟩ := Prog.path_bind_ret h₂
      obtain ⟨-, hret⟩ := Prog.path_ret_ret_iff.mp h₄
      cases result with
      | error e => cases hret
      | ok result =>
        refine .inr ⟨result, tr₃, by rw [eq_of_responseEntity hret.symm], h₃, ?_⟩
        intro ev hev
        exact List.mem_append_right _ (List.mem_cons_of_mem _ (List.mem_append_left _ hev))

theorem calculateThenCheck_result {calculate : WorkloadProg} {tr : List ServiceEvent}
    {entity : ResponseEntity}
    (h : (Concurrent.calculateThenCheck lib calculate).Path tr (.ret (.ok entity)))
    (h200 : entity.status = 200) :
    entity.body = none ∧ EndsSuppressed tr ∨ ∃ result tr', entity.body = some (.result result) ∧
      result ≠ .number none ∧
      (ofRest (ofController calculate)).Path tr' (.ret (.ok result)) ∧ ∀ ev ∈ tr', ev ∈ tr := by
  obtain ⟨result, tr₁, tr₂, rfl, h₁, h₂⟩ := Prog.path_bind_ret h
  cases result with
  | error e =>
    obtain ⟨-, hret⟩ := Prog.path_ret_ret_iff.mp h₂
    cases hret
  | ok result =>
    obtain ⟨code, pre, tr₃, rfl, hpath⟩ := withResponseCode_ok h₂
    split_ifs at hpath with hcode
    · obtain ⟨-, hret⟩ := Prog.path_ret_ret_iff.mp hpath
      rw [eq_of_responseEntity hret.symm] at h200
      exact absurd h200 hcode
    · obtain ⟨shouldCalculate, tr₄, rfl, h₄⟩ := Prog.path_call_ret_iff.mp hpath
      cases shouldCalculate with
      | false =>
        obtain ⟨rfl, hret⟩ := Prog.path_ret_ret_iff.mp h₄
        have hlast : EndsSuppressed (pre ++ [⟨.shouldCalculate, false⟩]) := ⟨pre, rfl⟩
        exact .inl ⟨by rw [eq_of_responseEntity hret.symm], hlast.append tr₁⟩
      | true =>
        -- null has no text
        by_cases hnull : result = .number none
        · rw [hnull] at h₄
          obtain ⟨-, hret⟩ := Prog.path_ret_ret_iff.mp h₄
          cases hret
        · rw [resultText_of_ne hnull] at h₄
          obtain ⟨-, hret⟩ := Prog.path_ret_ret_iff.mp h₄
          refine .inr ⟨result, tr₁, by rw [eq_of_responseEntity hret.symm], hnull, h₁, ?_⟩
          intro ev hev
          exact List.mem_append_left _ hev

/-- What a post of the control-center can ask for. -/
def RestRequest.Posted : RestRequest → Prop
  | fibonacci n => IsInt n
  | getWorkloadByType _ => False
  | _ => True

/-- **A posted request that is answered 200 is suppressed, or has a right text.** -/
theorem request_right (hT : 1 ≤ numThreads) {r : RestRequest} (hr : r.Posted)
    {tr : List ServiceEvent} {entity : ResponseEntity}
    (h : (r.concurrent lib).Path tr (.ret (.ok entity))) (h200 : entity.status = 200)
    (hcomputes : ∀ calculation result,
      (⟨.rest (.controller (.compute calculation)), result⟩ : ServiceEvent) ∈ tr →
        Computes javaInt numThreads calculation result) :
    entity.body = none ∧ EndsSuppressed tr ∨
      ∃ body, entity.body = some body ∧ RightText numThreads r body.text := by
  cases r with
  | add x y =>
    rcases checkThenCalculate_result h h200 with hnone | ⟨result, tr₁, hbody, h₁, hmem⟩
    · exact .inl hnone
    · obtain ⟨tr₂, h₂, hmem₂⟩ := controller_path h₁
      have hresult := hcomputes _ _ (hmem _ (hmem₂ _ _ (enterAndLeave_result h₂)))
      replace hresult : .ok result = (x.add y).map .decimal := hresult
      cases hsum : x.add y with
      | error e =>
        rw [hsum] at hresult
        cases hresult
      | ok z =>
        rw [hsum] at hresult
        cases hresult
        exact .inr ⟨_, hbody, .add (add_value hsum)⟩
  | multiply x y =>
    rcases checkThenCalculate_result h h200 with hnone | ⟨result, tr₁, hbody, h₁, hmem⟩
    · exact .inl hnone
    · obtain ⟨tr₂, h₂, hmem₂⟩ := controller_path h₁
      have hresult := hcomputes _ _ (hmem _ (hmem₂ _ _ (enterAndLeave_result h₂)))
      replace hresult : .ok result = (x.multiply y).map .decimal := hresult
      cases hproduct : x.multiply y with
      | error e =>
        rw [hproduct] at hresult
        cases hresult
      | ok z =>
        rw [hproduct] at hresult
        cases hresult
        exact .inr ⟨_, hbody, .multiply (multiply_value hproduct)⟩
  | prime n =>
    rcases calculateThenCheck_result h h200 with hnone | ⟨result, tr₁, hbody, -, h₁, hmem⟩
    · exact .inl hnone
    · obtain ⟨tr₂, h₂, hmem₂⟩ := controller_path h₁
      obtain ⟨primes, hprimes, hresult⟩ :=
        hcomputes _ _ (hmem _ (hmem₂ _ _ (enterAndLeave_result h₂)))
      cases hresult
      exact .inr ⟨_, hbody, .prime fun _ =>
        ⟨calculatePrime_nodup hT hprimes, mem_calculatePrime hT hprimes⟩⟩
  | fibonacci n =>
    rcases calculateThenCheck_result h h200 with hnone | ⟨result, tr₁, hbody, hnull, h₁, hmem⟩
    · exact .inl hnone
    · obtain ⟨tr₂, h₂, hmem₂⟩ := controller_path h₁
      refine .inr ⟨_, hbody, ?_⟩
      by_cases hsmall : n < 7
      · -- it is among the first elements, or there is none
        obtain ⟨_, tr₃, -, h₃⟩ := Prog.path_call_ret_iff.mp h₂
        rw [if_pos hsmall] at h₃
        obtain ⟨-, hret⟩ := Prog.path_ret_ret_iff.mp h₃
        cases hret
        by_cases hneg : n < 0
        · rw [fillFirstElements_neg hneg] at hnull
          exact absurd rfl hnull
        · rw [holds_fillFirstElements.get (not_lt.mp hneg) hsmall]
          exact .fibonacci (not_lt.mp hneg) (hsmall.trans (by norm_num))
      · replace h₂ : (Controller.calculateFibonacci n).Path tr₂ (.ret (.ok result)) := h₂
        rw [calculateFibonacci_eq_enterAndLeave hsmall] at h₂
        obtain ⟨fuel, orders, fibMap, hloop, hresult⟩ :=
          hcomputes _ _ (hmem _ (hmem₂ _ _ (enterAndLeave_result h₂)))
        cases hresult
        obtain ⟨hmax, hget⟩ := fibLoop_get hr (not_lt.mp hsmall) hloop
        rw [hget]
        exact .fibonacci (by omega) hmax
  | getWorkloadByType type => exact absurd hr id

/-! ### What is posted -/

/-- The request that a body of `/calculate2` asks for, as Spring reads it. -/
def askedFor (spring : Spring) (calculationType firstNumber secondNumber : String) :
    Option RestRequest :=
  if calculationType = "add" then do
    return .add (← spring.decimal firstNumber) (← spring.decimal secondNumber)
  else if calculationType = "multiply" then do
    return .multiply (← spring.decimal firstNumber) (← spring.decimal secondNumber)
  else if calculationType = "prime" then
    (spring.integer (sendQuery ("n=" ++ firstNumber).toList)).map .prime
  else if calculationType = "fibonacci" then
    (spring.integer (sendQuery ("n=" ++ firstNumber).toList)).map .fibonacci
  else none

theorem split_query {path : List Char} (h : '?' ∉ path) (query : List Char) :
    (path ++ '?' :: query).takeWhile (· ≠ '?') = path ∧
      ((path ++ '?' :: query).dropWhile (· ≠ '?')).drop 1 = query := by
  have hpath : ∀ c ∈ path, decide (c ≠ '?') = true := by
    intro c hc
    apply decide_eq_true
    rintro rfl
    exact h hc
  rw [List.takeWhile_append_of_pos hpath, List.dropWhile_append_of_pos hpath]
  exact ⟨List.append_nil path, rfl⟩

/-- An address and an object. -/
theorem read_decimals (spring : Spring) {t : String} (ht : t = "add" ∨ t = "multiply")
    (firstNumber secondNumber : String) :
    spring.read (calculationUrl ++ t)
        (some [("decimalOne", firstNumber), ("decimalTwo", secondNumber)])
      = askedFor spring t firstNumber secondNumber := by
  have hobject : spring.calculationObject
      (some [("decimalOne", firstNumber), ("decimalTwo", secondNumber)]) = (do
        return (← spring.decimal firstNumber, ← spring.decimal secondNumber)) := rfl
  rw [Spring.read, hobject]
  rcases ht with rfl | rfl
  · rw [if_pos (by decide +kernel), askedFor, if_pos rfl]
    cases spring.decimal firstNumber <;> cases spring.decimal secondNumber <;> rfl
  · rw [if_neg (by decide +kernel), if_pos (by decide +kernel), askedFor, if_neg (by decide),
      if_pos rfl]
    cases spring.decimal firstNumber <;> cases spring.decimal secondNumber <;> rfl

/-- An address with a query. -/
theorem read_number (spring : Spring) {t : String} (ht : t = "prime" ∨ t = "fibonacci")
    (firstNumber secondNumber : String) :
    spring.read (calculationUrl ++ t ++ "?n=" ++ firstNumber) none
      = askedFor spring t firstNumber secondNumber := by
  have hurl : (calculationUrl ++ t ++ "?n=" ++ firstNumber).toList
      = (calculationUrl ++ t).toList ++ '?' :: ("n=" ++ firstNumber).toList := by
    simp only [String.toList_append, List.append_assoc]
    rfl
  have hpath : '?' ∉ (calculationUrl ++ t).toList := by
    rcases ht with rfl | rfl
    · decide +kernel
    · decide +kernel
  obtain ⟨htake, hdrop⟩ := split_query hpath ("n=" ++ firstNumber).toList
  rw [Spring.read, hurl, htake, hdrop]
  rcases ht with rfl | rfl
  · rw [if_neg (by decide +kernel), if_neg (by decide +kernel), if_pos rfl, askedFor,
      if_neg (by decide), if_neg (by decide), if_pos rfl]
  · rw [if_neg (by decide +kernel), if_neg (by decide +kernel), if_neg (by decide +kernel),
      if_pos rfl, askedFor, if_neg (by decide), if_neg (by decide), if_neg (by decide), if_pos rfl]

/-- What Spring reads is a request with ints. -/
theorem posted_of_askedFor {spring : Spring} {t firstNumber secondNumber : String} {r : RestRequest}
    (h : askedFor spring t firstNumber secondNumber = some r) : r.Posted := by
  rw [askedFor] at h
  split_ifs at h
  · obtain ⟨x, -, h⟩ := Option.bind_eq_some_iff.mp h
    obtain ⟨y, -, h⟩ := Option.bind_eq_some_iff.mp h
    cases h
    trivial
  · obtain ⟨x, -, h⟩ := Option.bind_eq_some_iff.mp h
    obtain ⟨y, -, h⟩ := Option.bind_eq_some_iff.mp h
    cases h
    trivial
  · obtain ⟨n, -, rfl⟩ := Option.map_eq_some_iff.mp h
    trivial
  · obtain ⟨n, hn, rfl⟩ := Option.map_eq_some_iff.mp h
    exact spring.integer_isInt _ n hn

/-! ### What is relayed -/

/-- An answer of the calculation service, to a request that this body asks for,
is the last that an execution waits for. -/
def RelayedLast (body : JsonBody) (response : Response) (tr : List UpstreamEvent) : Prop :=
  ∃ json f t url data pre, body = .object json ∧ readFields json = .ok f ∧
    f.calculationType = .str t ∧
    (∀ spring, spring.read url data = askedFor spring t f.firstNumber f.secondNumber) ∧
    tr = pre ++ [⟨.postCalculation url data, ()⟩, ⟨.awaitCalculation, .ok response⟩]

/-- A call that is relayed. -/
theorem postAndRelay_ret {url : String} {data : Option (List (String × String))}
    {tr : List UpstreamEvent} {r : Except PyError Response}
    (h : (postAndRelay id url data).Path tr (.ret r)) :
    tr = [⟨.postCalculation url data, ()⟩, ⟨.awaitCalculation, r⟩] := by
  obtain ⟨_, tr₁, rfl, h₁⟩ := Prog.path_call_ret_iff.mp h
  obtain ⟨answer, tr₂, rfl, h₂⟩ := Prog.path_call_ret_iff.mp h₁
  cases answer with
  | error e =>
    obtain ⟨rfl, rfl⟩ := Prog.path_ret_ret_iff.mp h₂
    rfl
  | ok response =>
    obtain ⟨rfl, rfl⟩ := Prog.path_ret_ret_iff.mp h₂
    rfl

/-- What follows the charge fails at once, or relays. -/
theorem dispatch_cases {calculationType : JsonValue} {firstNumber secondNumber : String}
    {tr : List UpstreamEvent} {r : Except PyError Response}
    (h : (dispatch id calculationType firstNumber secondNumber).Path tr (.ret r)) :
    (Failed r ∧ ∀ spring t, calculationType = .str t →
        askedFor spring t firstNumber secondNumber = none) ∨
      ∃ t url data, calculationType = .str t ∧
        (∀ spring : Spring, spring.read url data = askedFor spring t firstNumber secondNumber) ∧
        tr = [⟨.postCalculation url data, ()⟩, ⟨.awaitCalculation, r⟩] := by
  unfold dispatch at h
  split at h
  · rename_i t
    dsimp only at h
    split_ifs at h with hdecimals hnumber
    · exact .inr ⟨t, _, _, rfl, fun spring => read_decimals spring hdecimals _ _,
        postAndRelay_ret h⟩
    · exact .inr ⟨t, _, _, rfl, fun spring => read_number spring hnumber _ _, postAndRelay_ret h⟩
    · obtain ⟨-, rfl⟩ := Prog.path_ret_ret_iff.mp h
      push Not at hdecimals hnumber
      refine .inl ⟨by simp [Failed, forbidden], ?_⟩
      rintro spring _ ⟨⟩
      rw [askedFor, if_neg hdecimals.1, if_neg hdecimals.2, if_neg hnumber.1, if_neg hnumber.2]
  · rename_i hnot
    obtain ⟨-, rfl⟩ := Prog.path_ret_ret_iff.mp h
    exact .inl ⟨.error _, fun spring t ht => absurd ht (hnot t)⟩

/-- The lookup and the charge fail with nothing paid, or go on. -/
theorem checkAndCharge_cases {user : String} {price : JsonValue} {after : ControlHandler}
    {tr : List UpstreamEvent} {r : Except PyError Response}
    (h : (checkAndCharge user price after).Path tr (.ret r)) :
    (Failed r ∧ tr.countP isPaid = 0) ∨ ∃ pre tr', tr = pre ++ tr' ∧ after.Path tr' (.ret r) := by
  obtain ⟨accountInfo, tr₁, rfl, h₁⟩ := Prog.path_call_ret_iff.mp h
  dsimp only [Prog.bind_ret] at h₁
  split at h₁
  · obtain ⟨rfl, rfl⟩ := Prog.path_ret_ret_iff.mp h₁
    exact .inl ⟨.error _, rfl⟩
  split_ifs at h₁
  · obtain ⟨rfl, rfl⟩ := Prog.path_ret_ret_iff.mp h₁
    exact .inl ⟨.badRequest _, rfl⟩
  · split at h₁
    · obtain ⟨rfl, rfl⟩ := Prog.path_ret_ret_iff.mp h₁
      exact .inl ⟨.error _, rfl⟩
    · obtain ⟨chargeResponse, tr₂, rfl, h₂⟩ := Prog.path_call_ret_iff.mp h₁
      dsimp only [Prog.bind_ret] at h₂
      split at h₂
      · obtain ⟨rfl, rfl⟩ := Prog.path_ret_ret_iff.mp h₂
        exact .inl ⟨.error _, rfl⟩
      split_ifs at h₂ with hstatus
      · obtain ⟨rfl, rfl⟩ := Prog.path_ret_ret_iff.mp h₂
        refine .inl ⟨.badRequest _, ?_⟩
        simp [isPaid, hstatus]
      · exact .inr ⟨[_, _], tr₂, rfl, h₂⟩

/-- **An execution fails with nothing paid, or comes to the calculation.** -/
theorem calculate2_cases {body : JsonBody} {tr : List UpstreamEvent} {r : Except PyError Response}
    (h : (calculate2 body).Path tr (.ret r)) :
    (Failed r ∧ tr.countP isPaid = 0) ∨
      ∃ json f pre tr', body = .object json ∧ readFields json = .ok f ∧ tr = pre ++ tr' ∧
        (dispatch id f.calculationType f.firstNumber f.secondNumber).Path tr' (.ret r) := by
  have hfailed : ∀ {r' : Except PyError Response}, Failed r' →
      (Prog.ret r' : ControlHandler).Path tr (.ret r) → Failed r ∧ tr.countP isPaid = 0 := by
    intro r' hfail hpath
    obtain ⟨rfl, rfl⟩ := Prog.path_ret_ret_iff.mp hpath
    exact ⟨hfail, rfl⟩
  unfold calculate2 calculateWith at h
  split at h
  · exact .inl (hfailed (.badRequest _) h)
  · exact .inl (hfailed (.error _) h)
  · rename_i json
    split at h
    · exact .inl (hfailed (.error _) h)
    · rename_i f hfields
      unfold calculateFields at h
      split at h
      · exact .inl (hfailed (.error _) h)
      · exact .inl (hfailed (.badRequest _) h)
      · split at h
        · rcases checkAndCharge_cases h with hfail | ⟨pre, tr', rfl, hafter⟩
          · exact .inl hfail
          · exact .inr ⟨json, f, pre, tr', rfl, hfields, rfl, hafter⟩
        · exact .inl (hfailed (.error _) h)

/-- No failure is a 200. -/
theorem Failed.ne_200 {r : Except PyError Response} (h : Failed r) : (answer r).status ≠ 200 := by
  intro h200
  rw [Failed, h200] at h
  exact absurd h (by decide)

/-- **A 200 is the answer of the calculation service** to what was asked. -/
theorem calculate2_ret {body : JsonBody} {tr : List UpstreamEvent} {response : Response}
    (h : (answered (calculate2 body)).Path tr (.ret response)) (h200 : response.status = 200) :
    RelayedLast body response tr := by
  obtain ⟨q, hpath, hret⟩ := answered_path h
  obtain ⟨r, rfl, rfl⟩ := hret response rfl
  rcases calculate2_cases hpath with ⟨hfail, -⟩ | ⟨json, f, pre, tr', rfl, hfields, rfl, hafter⟩
  · exact absurd h200 hfail.ne_200
  · rcases dispatch_cases hafter with ⟨hfail, -⟩ | ⟨t, url, data, ht, hread, rfl⟩
    · exact absurd h200 hfail.ne_200
    · cases r with
      | error e => exact absurd h200 (show ¬ (500 : ℕ) = 200 by decide)
      | ok response => exact ⟨json, f, t, url, data, pre, rfl, hfields, ht, hread, rfl⟩

/-- So is the last of several attempts. -/
theorem withRetries_ret {body : JsonBody} {attempts : ℕ} {tr : List UpstreamEvent}
    {response : Response}
    (h : (withRetries attempts (answered (calculate2 body))).Path tr (.ret response))
    (h200 : response.status = 200) : RelayedLast body response tr := by
  induction attempts generalizing tr with
  | zero => exact calculate2_ret h h200
  | succ attempts ih =>
    obtain ⟨answer, tr₁, tr₂, rfl, h₁, h₂⟩ := Prog.path_bind_ret h
    split_ifs at h₂
    · -- an attempt before the last
      obtain ⟨json, f, t, url, data, pre, hbody, hfields, ht, hread, rfl⟩ := ih h₂
      exact ⟨json, f, t, url, data, tr₁ ++ pre, hbody, hfields, ht, hread,
        (List.append_assoc ..).symm⟩
    · obtain ⟨rfl, rfl⟩ := Prog.path_ret_ret_iff.mp h₂
      rw [List.append_nil]
      exact calculate2_ret h₁ h200

/-! ### The call -/

/-- What a request that is served does in the cluster. -/
def servedCall (tr : List ServiceEvent) : List ClusterEvent :=
  ⟨.network, none⟩ :: tr.map ServiceEvent.inCluster ++ [⟨.network, none⟩]

theorem mem_servedCall {tr : List ServiceEvent} {ev : ServiceEvent} (h : ev ∈ tr) :
    ev.inCluster ∈ servedCall tr :=
  List.mem_append_left _ (List.mem_cons_of_mem _ (List.mem_map_of_mem h))

/-- A call that is answered 200 was served: nothing on the way answers so. -/
theorem callService_ret {url : String} {data : Option (List (String × String))}
    {tr : List ClusterEvent} {response : Response}
    (h : (callService spring lib url data).Path tr (.ret (.ok response)))
    (h200 : response.status = 200)
    (hnetwork : ∀ failure, (⟨.network, some failure⟩ : ClusterEvent) ∈ tr → Unserved failure) :
    ∃ r entity tr', spring.read url data = some r ∧
      (r.concurrent lib).Path tr' (.ret (.ok entity)) ∧ tr = servedCall tr' ∧
      response = spring.response (.ok entity) := by
  obtain ⟨failure, tr₁, rfl, h₁⟩ := Prog.path_call_ret_iff.mp h
  cases failure with
  | some failure =>
    obtain ⟨-, rfl⟩ := Prog.path_ret_ret_iff.mp h₁
    exact absurd h200 (hnetwork (.ok response) List.mem_cons_self)
  | none =>
    obtain ⟨served, tr₂, tr₃, rfl, h₂, h₃⟩ := Prog.path_bind_ret h₁
    obtain ⟨failure, tr₄, rfl, h₄⟩ := Prog.path_call_ret_iff.mp h₃
    obtain ⟨rfl, hret⟩ := Prog.path_ret_ret_iff.mp h₄
    cases failure with
    | some failure =>
      cases hret
      refine absurd h200 (hnetwork (.ok response) ?_)
      exact List.mem_cons_of_mem _ (List.mem_append_right _ List.mem_cons_self)
    | none =>
      cases hret
      rw [serveRequest] at h₂
      cases hread : spring.read url data with
      | none =>
        rw [hread] at h₂
        obtain ⟨-, rfl⟩ := Prog.path_ret_ret_iff.mp h₂
        exact absurd h200 (show ¬ (400 : ℕ) = 200 by decide)
      | some r =>
        rw [hread] at h₂
        obtain ⟨outcome, tr₅, tr₆, rfl, h₅, h₆⟩ := Prog.path_bind_ret h₂
        obtain ⟨rfl, rfl⟩ := Prog.path_ret_ret_iff.mp h₆
        obtain ⟨tr', hrequest, rfl⟩ := ofService_path h₅
        cases outcome with
        | error e => exact absurd h200 (show ¬ (500 : ℕ) = 200 by decide)
        | ok entity =>
          exact ⟨r, entity, tr', rfl, hrequest, by simp [servedCall], rfl⟩

/-- The status of an answer is that of the entity. -/
theorem status_of_response {entity : ResponseEntity}
    (h : (spring.response (.ok entity)).status = 200) : entity.status = 200 := by
  replace h : entity.status.toNat = 200 := h
  omega

/-- An answer that was relayed is that of a call, which ends the execution. -/
theorem carriedOut_relayed {posted : Posted} {pre : List UpstreamEvent} {url : String}
    {data : Option (List (String × String))} {a : Except PyError Response}
    {tr' : List ClusterEvent}
    (h : Prog.CarriedOut (upstreamCalls spring lib) posted
      (pre ++ [⟨.postCalculation url data, ()⟩, ⟨.awaitCalculation, a⟩]) tr') :
    ∃ before call, tr' = before ++ call ∧
      (callService spring lib url data).Path call (.ret a) := by
  obtain ⟨posted', tr₁, tr₂, rfl, hcarried⟩ := h.of_append
  cases hcarried with
  | @call _ _ _ _ tr₃ _ _ hrest =>
    cases hrest with
    | @call _ _ _ _ tr₄ _ hpath hend =>
      cases hend
      refine ⟨tr₁ ++ tr₃, tr₄, ?_, hpath⟩
      rw [List.append_nil, List.append_assoc]

/-! ### Every interleaving -/

variable {ι : Type} [DecidableEq ι] {users : Users} {clients : ι → ClusterClient}
  {c : Pool ι ClusterState ClusterOp ClusterOp.Ans Response} {log : List (ClusterEntry ι)}

/-- The settings suppress the call of `/calculate2`: before the way back, its
last step asks whether to calculate, and is told not to. -/
def SuppressedCall (tr : List ClusterEvent) : Prop :=
  ∃ pre, tr = pre ++ [⟨.service .shouldCalculate, false⟩, ⟨.network, none⟩]

theorem EndsSuppressed.call {tr : List ServiceEvent} (h : EndsSuppressed tr)
    (before : List ClusterEvent) :
    SuppressedCall (before ++ servedCall tr) := by
  obtain ⟨pre, rfl⟩ := h
  exact ⟨before ++ ⟨.network, none⟩ :: pre.map ServiceEvent.inCluster,
    by simp [servedCall, ServiceEvent.inCluster]⟩

/-- **A client that is answered 200 was suppressed or has the right result**,
through an ingress that waits for every attempt or not, whatever failed before,
whatever else is calculated and however the settings are changed meanwhile. -/
theorem calculate2_right (hT : 1 ≤ numThreads)
    (h : Pool.Run (clusterServe javaInt numThreads) (clusterStart spring lib users clients) log c)
    {i : ι} {body : JsonBody}
    (hi : clients i = .mesh (.calculate2 body) ∨ clients i = .mesh (.ingress body))
    {response : Response} (hret : c.prog i = .ret response) (h200 : response.status = 200) :
    ∃ json f t r, body = .object json ∧ readFields json = .ok f ∧ f.calculationType = .str t ∧
      askedFor spring t f.firstNumber f.secondNumber = some r ∧
      (response.body = .text "" ∧ SuppressedCall (proj i log) ∨
        ∃ text, response.body = .text text ∧ RightText numThreads r text) := by
  have hpath : ((clients i).prog spring lib).Path (proj i log) (.ret response) := by
    have hown := h.path i
    rw [hret] at hown
    exact hown
  obtain ⟨tr, hrelayed, hcarried⟩ : ∃ tr, RelayedLast body response tr ∧
      Prog.CarriedOut (upstreamCalls spring lib) none tr (proj i log) := by
    rcases hi with hi | hi
    · rw [hi] at hpath
      obtain ⟨tr, hclient, hcarried⟩ := Prog.inline_path_ret hpath
      exact ⟨tr, calculate2_ret hclient h200, hcarried⟩
    · rw [hi] at hpath
      obtain ⟨tr, hclient, hcarried⟩ := Prog.inline_path_ret hpath
      exact ⟨tr, withRetries_ret hclient h200, hcarried⟩
  obtain ⟨json, f, t, url, data, pre, rfl, hfields, ht, hread, rfl⟩ := hrelayed
  obtain ⟨before, call, hproj, hcall⟩ := carriedOut_relayed hcarried
  -- what the server says of every step of the client
  have hserved : ∀ ev ∈ proj i log, ∃ s s', clusterServe javaInt numThreads s ev.op ev.ans s' := by
    intro ev hev
    obtain ⟨e, he, -, rfl⟩ := mem_proj.mp hev
    exact ⟨e.pre, e.post, h.serves e he⟩
  have hmem : ∀ ev ∈ call, ev ∈ proj i log := by
    intro ev hev
    rw [hproj]
    exact List.mem_append_right _ hev
  obtain ⟨r, entity, tr', hr, hrequest, rfl, rfl⟩ := callService_ret hcall h200 (by
    intro failure hfailure
    obtain ⟨s, s', hserve⟩ := hserved _ (hmem _ hfailure)
    exact hserve.1 failure rfl)
  rw [hread spring] at hr
  refine ⟨json, f, t, r, rfl, hfields, ht, hr, ?_⟩
  have hstatus : entity.status = 200 := status_of_response h200
  rcases request_right hT (posted_of_askedFor hr) hrequest hstatus (by
    intro calculation result hcompute
    obtain ⟨s, s', hserve⟩ := hserved _ (hmem _ (mem_servedCall hcompute))
    exact hserve.1.1.1) with ⟨hnone, hsuppressed⟩ | ⟨result, hsome, hright⟩
  · refine .inl ⟨?_, ?_⟩
    · show Body.text ((entity.body.map RestBody.text).getD "") = _
      rw [hnone]
      rfl
    · rw [hproj]
      exact hsuppressed.call before
  · refine .inr ⟨result.text, ?_, hright⟩
    show Body.text ((entity.body.map RestBody.text).getD "") = _
    rw [hsome]
    rfl

/-! ### A run -/

/-- A lookup and a charge that are acknowledged. -/
theorem checkAndCharge_through (user : String) (price : JsonValue) {after : ControlHandler}
    {accountInfo charge : Response} {balance : JsonValue} {tr : List UpstreamEvent}
    {q : ControlHandler} (hinfo : accountInfo.status = 200)
    (hbalance : accountInfo.body.balance = .ok balance) (hcharge : charge.status = 200)
    (h : after.Path tr q) :
    (checkAndCharge user price after).Path
      (⟨.billing .get .getAccountInfo (accountQuery user), .ok accountInfo⟩ ::
        ⟨.billing .post .chargeAccount (chargeQuery user price), .ok charge⟩ :: tr) q := by
  apply Prog.Path.cons
  dsimp only [Prog.bind_ret]
  rw [if_neg (not_not.mpr hinfo), hbalance]
  apply Prog.Path.cons
  dsimp only [Prog.bind_ret]
  rw [if_neg (not_not.mpr hcharge)]
  exact h

/-- The third Fibonacci number, for 15. -/
def fibonacciBody : JsonBody :=
  .object [("user", .str "ruslan"), ("calculationType", .str "fibonacci"), ("price", .int 15),
    ("firstNumber", .int 3), ("secondNumber", .int 0)]

/-- The steps of the calculation service for it. -/
def fibonacciSteps : List ClusterEvent :=
  [⟨.network, none⟩, ⟨.service (.rest (.controller (.incrementAndGet .fibonacci))), ()⟩,
    ⟨.service .timeout, none⟩, ⟨.service .frequency, (0 : ℤ)⟩, ⟨.service .responseCode, (200 : ℤ)⟩,
    ⟨.service .shouldCalculate, true⟩, ⟨.network, none⟩]

theorem callService_fibonacci {url : String} {data : Option (List (String × String))}
    (hread : spring.read url data = some (.fibonacci 3)) :
    (callService spring ⟨fun _ => true, id⟩ url data).Path fibonacciSteps
      (.ret (.ok ⟨200, .text (toString (2 : ℤ))⟩)) := by
  apply Prog.Path.cons
  dsimp only
  rw [serveRequest, hread]
  repeat apply Prog.Path.cons
  exact .nil _

theorem serves_fibonacciSteps (users : Users) :
    Pool.Serves (clusterServe javaInt 1) ⟨users, ⟨.initial, fun _ => 0⟩⟩ fibonacciSteps
      ⟨users, ⟨.initial, Function.update (fun _ => 0) .fibonacci 1⟩⟩ := by
  have hnetwork : ∀ s, clusterServe javaInt 1 s .network none s := fun s => ⟨fun _ => nofun, rfl⟩
  have henter : clusterServe javaInt 1 ⟨users, ⟨.initial, fun _ => 0⟩⟩
      (.service (.rest (.controller (.incrementAndGet .fibonacci)))) ()
      ⟨users, ⟨.initial, Function.update (fun _ => 0) .fibonacci 1⟩⟩ := ⟨⟨rfl, rfl⟩, rfl⟩
  refine .cons (hnetwork _) (.cons henter ?_)
  apply Pool.Serves.cons (show clusterServe javaInt 1 _ (.service .timeout) none _ from
    ⟨⟨rfl, rfl⟩, rfl⟩)
  apply Pool.Serves.cons (show clusterServe javaInt 1 _ (.service .frequency) (0 : ℤ) _ from
    ⟨⟨rfl, rfl⟩, rfl⟩)
  apply Pool.Serves.cons (show clusterServe javaInt 1 _ (.service .responseCode) (200 : ℤ) _ from
    ⟨⟨rfl, rfl⟩, rfl⟩)
  apply Pool.Serves.cons (show clusterServe javaInt 1 _ (.service .shouldCalculate) true _ from
    ⟨⟨rfl, rfl⟩, rfl⟩)
  exact .cons (hnetwork _) (.nil _)

theorem carriedOut_billing (posted : Posted) (method : Method) (route : BillingRoute)
    (query : String)
    (a : Except PyError Response) :
    ((upstreamCalls spring lib).impl posted (.billing method route query)).Path
      [⟨.billing method route query, a⟩] (.ret a) :=
  .cons (show (ClusterOp.billing method route query).Ans from a) (.nil _)

theorem carriedOut_post (posted : Posted) (url : String) (data : Option (List (String × String))) :
    ((upstreamCalls spring lib).impl posted (.postCalculation url data)).Path
      [⟨.post url data, ()⟩] (.ret ()) :=
  .cons (show (ClusterOp.post url data).Ans from ()) (.nil _)

theorem askedFor_fibonacci :
    askedFor sampleSpring "fibonacci" (JsonValue.int 3).pyStr (JsonValue.int 0).pyStr
      = some (.fibonacci 3) := by
  have hquery : sendQuery ("n=" ++ (JsonValue.int 3).pyStr).toList = "n=3".toList := by
    decide +kernel
  rw [askedFor, if_neg (by decide), if_neg (by decide), if_neg (by decide), if_pos rfl, hquery]
  rfl

/-- The address that is called for it. -/
def fibonacciUrl : String := calculationUrl ++ "fibonacci" ++ "?n=" ++ (JsonValue.int 3).pyStr

/-- What an execution for it is answered. -/
def fibonacciCalls (charge : Response) : List UpstreamEvent :=
  [⟨.billing .get .getAccountInfo (accountQuery "ruslan"),
      .ok ⟨200, accountInfo (some "ruslan") 150⟩⟩,
    ⟨.billing .post .chargeAccount (chargeQuery "ruslan" (.int 15)), .ok charge⟩,
    ⟨.postCalculation fibonacciUrl none, ()⟩,
    ⟨.awaitCalculation, .ok ⟨200, .text (toString (2 : ℤ))⟩⟩]

/-- The account is looked up. -/
theorem serves_lookup (service : ServiceState) :
    clusterServe javaInt 1 ⟨sampleUsers "ruslan" 150, service⟩
      (.billing .get .getAccountInfo (accountQuery "ruslan"))
      (.ok ⟨200, accountInfo (some "ruslan") 150⟩) ⟨sampleUsers "ruslan" 150, service⟩ := by
  have huser : (billingRequest .get (accountQuery "ruslan")).get "user" = some "ruslan" := by
    decide +kernel
  have hfits : FitsDigits 150 := by decide +kernel
  have hinfo : serveBilling (sampleUsers "ruslan" 150) .getAccountInfo
      (billingRequest .get (accountQuery "ruslan"))
        = (⟨200, accountInfo (some "ruslan") 150⟩, sampleUsers "ruslan" 150) := by
    rw [serveBilling, billing, run_getAccountInfo_found rfl (by rw [huser]; rfl), huser,
      shownAccount_eq hfits, answer_ok]
  have hserve := meshServe_served (sampleUsers "ruslan" 150) .get .getAccountInfo
    (accountQuery "ruslan")
  rw [hinfo] at hserve
  exact ⟨hserve, rfl⟩

/-- The account is charged. -/
theorem exists_serves_charge (service : ServiceState) :
    ∃ (charge : Response) (users : Users), charge.status = 200 ∧
      clusterServe javaInt 1 ⟨sampleUsers "ruslan" 150, service⟩
        (.billing .post .chargeAccount (chargeQuery "ruslan" (.int 15))) (.ok charge)
        ⟨users, service⟩ := by
  have hstatus : (serveBilling (sampleUsers "ruslan" 150) .chargeAccount
      (billingRequest .post (chargeQuery "ruslan" (.int 15)))).1.status = 200 := by decide +kernel
  have hserve := meshServe_served (sampleUsers "ruslan" 150) .post .chargeAccount
    (chargeQuery "ruslan" (.int 15))
  generalize serveBilling (sampleUsers "ruslan" 150) .chargeAccount
    (billingRequest .post (chargeQuery "ruslan" (.int 15))) = served at hstatus hserve
  exact ⟨served.1, served.2, hstatus, hserve, rfl⟩

/-- The handler along these answers. -/
theorem calculate2_fibonacci_path {charge : Response} (hcharge : charge.status = 200) :
    (calculate2 fibonacciBody).Path (fibonacciCalls charge)
      (.ret (.ok ⟨200, .text (toString (2 : ℤ))⟩)) := by
  have hprice : (JsonValue.int 15).floatLtOne = .ok false := by
    have hsmall : floatOverflows 15 = false := by decide +kernel
    rw [JsonValue.floatLtOne, hsmall]
    rfl
  have hhandler : calculate2 fibonacciBody = checkAndCharge "ruslan" (.int 15)
      (dispatch id (.str "fibonacci") (JsonValue.int 3).pyStr (JsonValue.int 0).pyStr) := by
    show calculateFields id ⟨.str "ruslan", .str "fibonacci", .int 15, (JsonValue.int 3).pyStr,
      (JsonValue.int 0).pyStr⟩ = _
    rw [calculateFields, hprice]
  have hdispatch : ∀ firstNumber secondNumber,
      dispatch id (.str "fibonacci") firstNumber secondNumber
      = postAndRelay id (calculationUrl ++ "fibonacci" ++ "?n=" ++ firstNumber) none :=
    fun _ _ => rfl
  have hinfo : (⟨200, accountInfo (some "ruslan") 150⟩ : Response).status = 200 := rfl
  have hbalance : (accountInfo (some "ruslan") 150).balance = .ok (.int 150) := rfl
  rw [hhandler, hdispatch]
  apply checkAndCharge_through "ruslan" (.int 15) hinfo hbalance hcharge
  apply Prog.path_cons_iff.mpr
  apply Prog.path_cons_iff.mpr
  exact .nil _

/-- The same answers, as the calculation service gives them step by step. -/
theorem carriedOut_fibonacci (charge : Response) :
    Prog.CarriedOut (upstreamCalls sampleSpring ⟨fun _ => true, id⟩) none (fibonacciCalls charge)
      ([⟨.billing .get .getAccountInfo (accountQuery "ruslan"),
          .ok ⟨200, accountInfo (some "ruslan") 150⟩⟩,
        ⟨.billing .post .chargeAccount (chargeQuery "ruslan" (.int 15)), .ok charge⟩,
        ⟨.post fibonacciUrl none, ()⟩] ++ fibonacciSteps) := by
  have hread := (read_number sampleSpring (.inr rfl) _ _).trans askedFor_fibonacci
  have hcall : (callService sampleSpring ⟨fun _ => true, id⟩ fibonacciUrl none).Path fibonacciSteps
      (.ret (.ok ⟨200, .text (toString (2 : ℤ))⟩)) := callService_fibonacci hread
  have hcarried : Prog.CarriedOut (upstreamCalls sampleSpring ⟨fun _ => true, id⟩) none
      (fibonacciCalls charge) _ :=
    .call (carriedOut_billing _ _ _ _ _) (.call (carriedOut_billing _ _ _ _ _)
      (.call (carriedOut_post _ _ _) (.call hcall (.nil _))))
  exact hcarried

/-- A run in which the number is paid for and calculated. -/
theorem exists_calculated :
    ∃ (log : List (ClusterEntry Unit)) (c : Pool Unit ClusterState ClusterOp ClusterOp.Ans Response)
      (charge : Response) (query url : String),
      Pool.Run (clusterServe javaInt 1) (clusterStart sampleSpring ⟨fun _ => true, id⟩
        (sampleUsers "ruslan" 150) fun _ => .mesh (.calculate2 fibonacciBody)) log c ∧
      c.prog () = .ret ⟨200, .text (toString (2 : ℤ))⟩ ∧ charge.status = 200 ∧
      proj () log = [⟨.billing .get .getAccountInfo (accountQuery "ruslan"),
          .ok ⟨200, accountInfo (some "ruslan") 150⟩⟩,
        ⟨.billing .post .chargeAccount query, .ok charge⟩, ⟨.post url none, ()⟩]
          ++ fibonacciSteps := by
  obtain ⟨charge, users, hstatus, hcharge⟩ := exists_serves_charge ⟨.initial, fun _ => 0⟩
  have hpost : clusterServe javaInt 1 ⟨users, ⟨.initial, fun _ => 0⟩⟩ (.post fibonacciUrl none) ()
      ⟨users, ⟨.initial, fun _ => 0⟩⟩ := rfl
  have hserves := Pool.Serves.cons (serves_lookup _) (.cons hcharge (.cons hpost
    (serves_fibonacciSteps users)))
  have hpath := (calculate2_fibonacci_path hstatus).bind (f := fun r => .ret (answer r)) (.nil _)
  rw [List.append_nil] at hpath
  have hcarried := carriedOut_fibonacci charge
  have hprog : ∀ body, (clusterStart sampleSpring ⟨fun _ => true, id⟩ (sampleUsers "ruslan" 150)
      fun _ : Unit => .mesh (.calculate2 body)).prog ()
        = (answered (calculate2 body)).inline
          (upstreamCalls sampleSpring ⟨fun _ => true, id⟩) none := fun _ => rfl
  obtain ⟨log, c, hrun, -, hret, -, -, hproj⟩ :=
    Pool.exists_run_along (hcarried.path hpath) (hprog fibonacciBody) hserves
  exact ⟨log, c, charge, _, _, hrun, hret, hstatus, hproj⟩

theorem calculate2_right_fibonacci :
    ∃ (log : List (ClusterEntry Unit)) (c : Pool Unit ClusterState ClusterOp ClusterOp.Ans Response)
      (response : Response),
      Pool.Run (clusterServe javaInt 1) (clusterStart sampleSpring ⟨fun _ => true, id⟩
        (sampleUsers "ruslan" 150) fun _ => .mesh (.calculate2 fibonacciBody)) log c ∧
      c.prog () = .ret response ∧ response.status = 200 ∧ response.body = .text (toString (2 : ℤ)) ∧
      ∃ json f t r, fibonacciBody = .object json ∧ readFields json = .ok f ∧
        f.calculationType = .str t ∧
        askedFor sampleSpring t f.firstNumber f.secondNumber = some r ∧
        (response.body = .text "" ∧ SuppressedCall (proj () log) ∨
          ∃ text, response.body = .text text ∧ RightText 1 r text) := by
  obtain ⟨log, c, charge, query, url, hrun, hret, -⟩ := exists_calculated
  exact ⟨log, c, _, hrun, hret, rfl, rfl, calculate2_right le_rfl hrun (.inl rfl) hret rfl⟩

end ResilientMesh
