/-
ResilientMesh/Analytics.lean

The analytics service, in its two versions: it asks the calculation service for
a workload and makes an estimate of it.  What the calculation service answers
is given from outside, as a status and a text; so are Python's floats and what
`random.uniform` draws.

The estimate is made before the status is looked at.  Main results: an answer
is reported as it should be exactly if its status is 200, or an estimate can be
made of its text all the same (`analytics_sound_iff`); and of no failure that the
calculation service itself reports (`workload_failure_unsound`).  An estimate is
made only of a text that `int` reads, which has at most 4300 digits.
-/
import ResilientMesh.FaultInjection
import ResilientMesh.Http

namespace ResilientMesh

/-! ### Data -/

/-- The two versions. -/
inductive AnalyticsVersion
  | analytics
  | analyticsAdvanced

/-- Python's floats: the value of a number, the two operations used, and what
the `k`-th call of `random.uniform` returns. -/
structure PyFloats (F : Type) where
  lit : ℚ → F
  add : F → F → F
  sub : F → F → F
  uniform : ℕ → F → F → F

/-- A value in the answer. -/
inductive AnalyticsValue (F : Type)
  | float (x : F)
  | str (s : String)

abbrev AnalyticsBody (F : Type) := List (String × AnalyticsValue F)

structure AnalyticsResponse (F : Type) where
  status : ℕ
  body : AnalyticsBody F

/-- What the calculation service answers. -/
structure WorkloadResponse where
  status : ℕ
  text : String

def REGISTER_SERVICE : String := "http://distributed-calculation.default.svc.cluster.local:8080/"

variable {F : Type}

/-! ### Handlers -/

/-- The fields of an estimate. -/
def priceFields (version : AnalyticsVersion) (floats : PyFloats F) (price_main : F)
    (service_name : String) : AnalyticsBody F :=
  let estimatedTime := floats.uniform 1 (floats.lit 1) price_main
  match version with
  | .analytics => [("estimatedTime", .float estimatedTime), ("function", .str service_name)]
  | .analyticsAdvanced =>
    [("estimatedPriceInEur", .float price_main),
      ("estimatedPriceInDollar", .float (floats.sub price_main (floats.lit 1))),
      ("estimatedTime", .float estimatedTime), ("function", .str service_name)]

/-- `int(text) * 3 + 10 + random.uniform(0, 20.5)`. -/
def priceMain (floats : PyFloats F) (text : String) : Except PyError F :=
  match pyInt text.toList with
  | none => .error .valueError
  | some workload =>
    -- the sum is one of floats, which not every integer has
    if floatOverflows (workload * 3 + 10) then .error .overflowError
    else .ok (floats.add (floats.lit (workload * 3 + 10 : ℤ))
      (floats.uniform 0 (floats.lit 0) (floats.lit (41 / 2))))

/-- `get_prices`: the estimate, and the status of the answer it was made of. -/
def getPrices (version : AnalyticsVersion) (floats : PyFloats F)
    (calculation : String → Except PyError WorkloadResponse) (service_name : Option String) :
    Except PyError (AnalyticsBody F × ℕ) :=
  match service_name with
  | none => .error .typeError
  | some service_name => do
    let response ← calculation (REGISTER_SERVICE ++ "getWorkloadByType/" ++ service_name)
    let price_main ← priceMain floats response.text
    return (priceFields version floats price_main service_name, response.status)

def somethingWentWrong : AnalyticsBody F := [("error", .str "Something went wrong.")]

/-- `get_analytics`. -/
def getAnalytics (version : AnalyticsVersion) (floats : PyFloats F)
    (calculation : String → Except PyError WorkloadResponse) (function : Option String) :
    Except PyError (AnalyticsResponse F) := do
  let (estimated_price, status_code) ← getPrices version floats calculation function
  if status_code ≠ 200 then return ⟨status_code, somethingWentWrong⟩
  else return ⟨status_code, estimated_price⟩

/-! ### What is reported -/

/-- The outcome of a request for a function, if the calculation service
answers so. -/
def reported (version : AnalyticsVersion) (floats : PyFloats F) (function : String)
    (response : WorkloadResponse) : Except PyError (AnalyticsResponse F) :=
  getAnalytics version floats (fun _ => .ok response) (some function)

/-- A status that is not 200 is passed on with the error, and an estimate is
given only for a 200 with an integer. -/
structure AnalyticsSound (version : AnalyticsVersion) (floats : PyFloats F) (function : String)
    (response : WorkloadResponse) : Prop where
  failure : response.status ≠ 200 →
    reported version floats function response = .ok ⟨response.status, somethingWentWrong⟩
  estimate : ∀ r, reported version floats function response = .ok r → r.body ≠ somethingWentWrong →
    response.status = 200 ∧ ∃ workload, pyInt response.text.toList = some workload

/-- An estimate can be made of the text. -/
def Estimable (text : String) : Prop :=
  ∃ workload, pyInt text.toList = some workload ∧ floatOverflows (workload * 3 + 10) = false

theorem priceMain_ok_iff {floats : PyFloats F} {text : String} :
    (∃ price_main, priceMain floats text = .ok price_main) ↔ Estimable text := by
  rw [priceMain, Estimable]
  cases pyInt text.toList with
  | none => simp
  | some workload => cases h : floatOverflows (workload * 3 + 10) <;> simp [h]

/-- The price comes first, and the status after it. -/
theorem reported_eq (version : AnalyticsVersion) (floats : PyFloats F) (function : String)
    (response : WorkloadResponse) :
    reported version floats function response
      = (priceMain floats response.text).map fun price_main =>
      ⟨response.status, if response.status ≠ 200 then somethingWentWrong
        else priceFields version floats price_main function⟩ := by
  have hprices : getPrices version floats (fun _ => .ok response) (some function)
      = (priceMain floats response.text).map fun price_main =>
          (priceFields version floats price_main function, response.status) := by
    show (priceMain floats response.text >>= fun price_main => _) = _
    cases priceMain floats response.text with
    | error e => rfl
    | ok price_main => rfl
  rw [reported, getAnalytics, hprices]
  cases priceMain floats response.text with
  | error e => rfl
  | ok price_main =>
    show (if response.status ≠ 200 then _ else _) = _
    by_cases hstatus : response.status ≠ 200
    · rw [if_pos hstatus, Except.map, if_pos hstatus]
      rfl
    · rw [if_neg hstatus, Except.map, if_neg hstatus]
      rfl

/-- Without an estimate there is no answer at all. -/
theorem reported_of_not_estimable {version : AnalyticsVersion} {floats : PyFloats F}
    {function : String} {response : WorkloadResponse} (h : ¬ Estimable response.text) :
    ∃ e, reported version floats function response = .error e := by
  rw [reported_eq]
  cases hprice : priceMain floats response.text with
  | error e => exact ⟨e, rfl⟩
  | ok price_main => exact absurd (priceMain_ok_iff.mp ⟨price_main, hprice⟩) h

/-- With one the answer is the error or the estimate, by the status. -/
theorem reported_of_estimable (version : AnalyticsVersion) (floats : PyFloats F)
    (function : String) {response : WorkloadResponse} (h : Estimable response.text) :
    ∃ price_main, reported version floats function response =
      .ok ⟨response.status, if response.status ≠ 200 then somethingWentWrong
        else priceFields version floats price_main function⟩ := by
  obtain ⟨price_main, hprice⟩ := priceMain_ok_iff.mpr h
  refine ⟨price_main, ?_⟩
  rw [reported_eq, hprice]
  rfl

/-- No number is read from an empty text. -/
theorem not_estimable_empty : ¬ Estimable "" := by
  rintro ⟨workload, hworkload, -⟩
  have hnone : pyInt "".toList = none := by decide +kernel
  rw [hnone] at hworkload
  cases hworkload

/-- **The calculation service's answer is reported as it should be exactly if
its status is 200, or its text is one that an estimate can be made of.** -/
theorem analytics_sound_iff (version : AnalyticsVersion) (floats : PyFloats F) (function : String)
    (response : WorkloadResponse) :
    AnalyticsSound version floats function response ↔
      response.status = 200 ∨ Estimable response.text := by
  constructor
  · intro h
    by_contra hnot
    push Not at hnot
    obtain ⟨hstatus, htext⟩ := hnot
    obtain ⟨e, he⟩ : ∃ e, reported version floats function response = .error e :=
      reported_of_not_estimable htext
    have hreported := h.failure hstatus
    rw [he] at hreported
    cases hreported
  · intro h
    by_cases htext : Estimable response.text
    · obtain ⟨price_main, hreported⟩ := reported_of_estimable version floats function htext
      constructor
      · intro hstatus
        rw [hreported, if_pos hstatus]
      · intro r hr hbody
        rw [hreported] at hr
        cases hr
        obtain ⟨workload, hworkload, -⟩ := htext
        refine ⟨?_, workload, hworkload⟩
        by_contra hstatus
        exact hbody (if_pos hstatus)
    · -- no answer, to a 200
      have hstatus : response.status = 200 := h.resolve_right htext
      obtain ⟨e, he⟩ : ∃ e, reported version floats function response = .error e :=
        reported_of_not_estimable htext
      constructor
      · exact fun hne => absurd hstatus hne
      · intro r hr
        rw [he] at hr
        cases hr

/-! ### Failures of the calculation service -/

/-- What a body of the calculation service is on the wire; null is nothing. -/
def ResponseEntity.workloadText (response : ResponseEntity) : String :=
  match response.body with
  | some (.workload workload) => toString workload
  | _ => ""

/-- `getWorkloadByType` gives no body with another status than 200. -/
theorem getWorkloadByType_failure {lib : RestLibrary} {settings : FaultSettings} {draw : ℕ}
    {type : String} {tr : List RestEvent} {response : ResponseEntity}
    (h : (getWorkloadByType lib settings draw type).Path tr (.ret (.ok response)))
    (hstatus : response.status ≠ 200) : response.body = none := by
  have hentity : ∀ {body : Option RestBody} {code : ℤ},
      (.ok response : Except RestException ResponseEntity) = responseEntity lib body code →
        response = ⟨body, code⟩ := by
    intro body code heq
    rw [responseEntity] at heq
    split_ifs at heq
    cases heq
    rfl
  rw [getWorkloadByType] at h
  split at h
  · obtain ⟨-, hret⟩ := Prog.path_ret_ret_iff.mp h
    cases hret
  · split_ifs at h with hcode
    · obtain ⟨-, hret⟩ := Prog.path_ret_ret_iff.mp h
      rw [hentity hret]
    · split at h
      · obtain ⟨-, hret⟩ := Prog.path_ret_ret_iff.mp h
        cases hret
      · -- a counter is only shown with a 200
        obtain ⟨workload, tr', -, hrest⟩ := Prog.path_call_ret_iff.mp h
        obtain ⟨-, hret⟩ := Prog.path_ret_ret_iff.mp hrest
        rw [hentity hret] at hstatus
        exact absurd (not_not.mp hcode) hstatus

/-- **No failure that `getWorkloadByType` reports is passed on as one.** -/
theorem workload_failure_unsound {lib : RestLibrary} {settings : FaultSettings} {draw : ℕ}
    {type : String} {tr : List RestEvent} {response : ResponseEntity}
    (h : (getWorkloadByType lib settings draw type).Path tr (.ret (.ok response)))
    (hstatus : response.status ≠ 200) (version : AnalyticsVersion) (floats : PyFloats F)
    (function : String) {status : ℕ} (hsame : (status : ℤ) = response.status) :
    ¬ AnalyticsSound version floats function ⟨status, response.workloadText⟩ := by
  have htext : response.workloadText = "" := by
    rw [ResponseEntity.workloadText, getWorkloadByType_failure h hstatus]
  intro hsound
  obtain ⟨e, he⟩ : ∃ e, reported version floats function ⟨status, ""⟩ = .error e :=
    reported_of_not_estimable not_estimable_empty
  rw [htext] at hsound
  have hreported := hsound.failure (by
    rintro rfl
    exact hstatus hsame.symm)
  rw [he] at hreported
  cases hreported

/-- Floats that are rational numbers, and a draw of the lower bound. -/
def sampleFloats : PyFloats ℚ := ⟨id, (· + ·), (· - ·), fun _ low _ => low⟩

/-- A 503 without a body. -/
theorem analytics_unsound :
    ¬ ∀ (version : AnalyticsVersion) (function : String) (response : WorkloadResponse),
      AnalyticsSound version sampleFloats function response := by
  intro h
  have hreported := (h .analytics "add" ⟨503, ""⟩).failure (by decide)
  obtain ⟨e, he⟩ : ∃ e, reported .analytics sampleFloats "add" ⟨503, ""⟩ = .error e :=
    reported_of_not_estimable not_estimable_empty
  rw [he] at hreported
  cases hreported

end ResilientMesh
