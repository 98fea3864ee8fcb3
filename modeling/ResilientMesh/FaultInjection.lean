/-
ResilientMesh/FaultInjection.lean

The resource of the calculation service: four endpoints that calculate, one
that reads a counter, and `/fault`, which sets how they misbehave.  A setting is
stored as it comes; it is met later by `Thread.sleep`, by `Random.nextInt` and
by `HttpStatus.valueOf`, none of which takes every int.  What `nextInt` draws is
given to a handler from outside, and the settings are those in force while it
runs.

`/add` and `/multiply` look at the settings before they calculate, `/prime` and
`/fibonacci` after.

Main results: a suppressed request touches no counter exactly on the endpoints
that look first (`suppressed_frame_iff`); and every request is answered, with
200 or the code that was set, exactly if the last settings are a timeout and a
frequency that are not negative and a known code (`faults_answered_iff`).
-/
import ResilientMesh.Workload

namespace ResilientMesh

/-! ### Data -/

/-- The two library functions left open: whether `HttpStatus` knows a code, and
`toUpperCase`. -/
structure RestLibrary where
  httpStatus : ℤ → Bool
  toUpperCase : String → String

/-- What `/fault` sets. -/
structure FaultSettings where
  timeout : Option ℤ
  responseCode : ℤ
  frequency : ℤ
  shouldCalculate : Bool

/-- The settings a service starts with. -/
def FaultSettings.initial : FaultSettings := ⟨none, 200, 0, true⟩

inductive RestException
  | illegalArgument
  | nullPointer
  | calculation (e : JavaException)

/-- What a body is made of; null for a suppressed request. -/
inductive RestBody
  | result (result : CalculationResult)
  | workload (workload : ℤ)
  | responseCode (responseCode : ℤ)

structure ResponseEntity where
  body : Option RestBody
  status : ℤ

/-- The steps of a request: those of the controller, and the reading of a
counter. -/
inductive RestOp
  | controller (op : WorkloadOp)
  | getEndpointWorkloadByType (type : ECalculationType)

abbrev RestOp.Ans : RestOp → Type
  | controller op => op.Ans
  | getEndpointWorkloadByType _ => ℤ

abbrev RestProg := Prog RestOp RestOp.Ans (Except RestException ResponseEntity)

/-- The controller's steps, as steps of the request. -/
def ofController {α : Type} : Prog WorkloadOp WorkloadOp.Ans α → Prog RestOp RestOp.Ans α
  | .ret a => .ret a
  | .call op next => .call (.controller op) fun a => ofController (next a)

/-! ### Handlers -/

/-- `new ResponseEntity<>(body, HttpStatus.valueOf(code))`. -/
def responseEntity (lib : RestLibrary) (body : Option RestBody) (code : ℤ) :
    Except RestException ResponseEntity :=
  if lib.httpStatus code then .ok ⟨body, code⟩ else .error .illegalArgument

/-- `sleep`: no time is not a time. -/
def sleep (settings : FaultSettings) : Except RestException Unit :=
  match settings.timeout with
  | none => .ok ()
  | some timeout => if timeout < 0 then .error .illegalArgument else .ok ()

/-- `getResponseCode`, with what `nextInt` draws. -/
def getResponseCode (settings : FaultSettings) (draw : ℕ) : Except RestException ℤ :=
  if settings.frequency ≠ 0 then
    -- the bound of `nextInt` must be positive
    if settings.frequency < 0 then .error .illegalArgument
    else
      let randomDigit := draw + 1
      if randomDigit = 1 then .ok settings.responseCode else .ok 200
  else .ok settings.responseCode

/-- `sleep`, and then the code. -/
def currentResponseCode (settings : FaultSettings) (draw : ℕ) : Except RestException ℤ := do
  sleep settings
  getResponseCode settings draw

/-- `result.toString()`. -/
def resultText : CalculationResult → Except RestException RestBody
  | .number none => .error .nullPointer
  | result => .ok (.result result)

/-- What is done with a result; an exception of the calculation goes on. -/
def withResult (f : CalculationResult → Except RestException ResponseEntity) :
    Except JavaException CalculationResult → Except RestException ResponseEntity
  | .error e => .error (.calculation e)
  | .ok result => f result

/-- `/add` and `/multiply`: nothing is calculated for a request that is
suppressed. -/
def checkThenCalculate (lib : RestLibrary) (settings : FaultSettings) (draw : ℕ)
    (calculate : WorkloadProg) : RestProg :=
  match currentResponseCode settings draw with
  | .error e => .ret (.error e)
  | .ok code =>
    if code ≠ 200 then .ret (responseEntity lib none code)
    else if !settings.shouldCalculate then .ret (responseEntity lib none code)
    else
      (ofController calculate).bind fun result =>
        .ret (withResult (fun result => responseEntity lib (some (.result result)) code) result)

/-- What `/prime` and `/fibonacci` do with a result. -/
def checkResult (lib : RestLibrary) (settings : FaultSettings) (draw : ℕ)
    (result : CalculationResult) : Except RestException ResponseEntity := do
  let code ← currentResponseCode settings draw
  if code ≠ 200 then responseEntity lib none code
  else if !settings.shouldCalculate then responseEntity lib none code
  else
    let body ← resultText result
    responseEntity lib (some body) code

/-- `/prime` and `/fibonacci`: the result is there before the request is
suppressed. -/
def calculateThenCheck (lib : RestLibrary) (settings : FaultSettings) (draw : ℕ)
    (calculate : WorkloadProg) : RestProg :=
  (ofController calculate).bind fun result =>
    .ret (withResult (checkResult lib settings draw) result)

/-- `ECalculationType.valueOf`. -/
def ECalculationType.valueOf (name : String) : Option ECalculationType :=
  if name = "ADD" then some .add
  else if name = "MULTIPLY" then some .multiply
  else if name = "FIBONACCI" then some .fibonacci
  else if name = "PRIME" then some .prime
  else none

def getWorkloadByType (lib : RestLibrary) (settings : FaultSettings) (draw : ℕ) (type : String) :
    RestProg :=
  match currentResponseCode settings draw with
  | .error e => .ret (.error e)
  | .ok code =>
    if code ≠ 200 then .ret (responseEntity lib none code)
    else
      match ECalculationType.valueOf (lib.toUpperCase type) with
      | none => .ret (.error .illegalArgument)
      | some type =>
        .call (.getEndpointWorkloadByType type) fun workload =>
          .ret (responseEntity lib (some (.workload workload)) code)

/-- A request to the resource. -/
inductive RestRequest
  | add (decimalOne decimalTwo : BigDecimal)
  | multiply (decimalOne decimalTwo : BigDecimal)
  | prime (boundary : ℤ)
  | fibonacci (nthElement : ℤ)
  | getWorkloadByType (type : String)

def RestRequest.handler (lib : RestLibrary) (settings : FaultSettings) (draw : ℕ) :
    RestRequest → RestProg
  | add x y => checkThenCalculate lib settings draw (Controller.add x y)
  | multiply x y => checkThenCalculate lib settings draw (Controller.multiply x y)
  | prime n => calculateThenCheck lib settings draw (Controller.calculatePrime n)
  | fibonacci n => calculateThenCheck lib settings draw (Controller.calculateFibonacci n)
  | getWorkloadByType type => ResilientMesh.getWorkloadByType lib settings draw type

/-- A call of `/fault`. -/
structure FaultCall where
  timeout : ℤ
  responseCode : ℤ
  frequency : ℤ
  shouldCalculate : Bool

/-- `/fault`: the answer, and the settings after it. -/
def fault (call : FaultCall) (_settings : FaultSettings) : ResponseEntity × FaultSettings :=
  (⟨some (.responseCode call.responseCode), 200⟩,
    ⟨some call.timeout, call.responseCode, call.frequency, call.shouldCalculate⟩)

/-- The settings after calls of `/fault`. -/
def configured (calls : List FaultCall) : FaultSettings :=
  calls.foldl (fun settings call => (fault call settings).2) .initial

/-! ### The controller inside a request -/

abbrev RestEvent := Event RestOp RestOp.Ans

/-- An event of the controller, as one of the request. -/
def RestEvent.ofController (e : WorkloadEvent) : RestEvent := ⟨.controller e.op, e.ans⟩

/-- What the controller does inside a request it could do on its own. -/
theorem ofController_path {α : Type} {p : Prog WorkloadOp WorkloadOp.Ans α} {tr : List RestEvent}
    {q : Prog RestOp RestOp.Ans α} (h : (ofController p).Path tr q) :
    ∃ tr' q', p.Path tr' q' ∧ tr = tr'.map RestEvent.ofController ∧ q = ofController q' := by
  induction p generalizing tr with
  | ret a =>
    obtain ⟨rfl, rfl⟩ := Prog.path_ret_iff.mp h
    exact ⟨[], .ret a, .nil _, rfl, rfl⟩
  | call op next ih =>
    rcases Prog.path_call_iff.mp h with ⟨rfl, rfl⟩ | ⟨a, tr₁, rfl, h₁⟩
    · exact ⟨[], .call op next, .nil _, rfl, rfl⟩
    · obtain ⟨tr', q', hpath, rfl, rfl⟩ := ih a h₁
      have hcons : (Prog.call op next).Path (⟨op, a⟩ :: tr') q' :=
        .cons (show op.Ans from a) hpath
      exact ⟨_, q', hcons, rfl, rfl⟩

/-- A request whose controller part is followed by no further call ends after
that part, with what is made of its result. -/
theorem ofController_bind_returned {α β : Type} {p : Prog WorkloadOp WorkloadOp.Ans α}
    {g : α → β} {tr : List RestEvent} {b : β}
    (h : ((ofController p).bind fun a => .ret (g a)).Path tr (.ret b)) :
    ∃ tr' a, p.Path tr' (.ret a) ∧ tr = tr'.map RestEvent.ofController ∧ b = g a := by
  rcases Prog.path_bind h with ⟨p', -, hnot, hret⟩ | ⟨a, tr₁, tr₂, rfl, hpath, hrest⟩
  · cases p' with
    | ret a => exact absurd trivial hnot
    | call op next => cases hret
  · obtain ⟨rfl, hret⟩ := Prog.path_ret_iff.mp hrest
    obtain ⟨tr', q', hcontroller, rfl, hq⟩ := ofController_path hpath
    cases q' with
    | call op next => cases hq
    | ret a' =>
      cases hq
      cases hret
      exact ⟨tr', a, hcontroller, by rw [List.append_nil], rfl⟩

/-! ### Suppressed requests -/

/-- The settings suppress the request: the code drawn is not 200, or nothing
should be calculated. -/
def Suppressed (settings : FaultSettings) (draw : ℕ) : Prop :=
  (∃ code, getResponseCode settings draw = .ok code ∧ code ≠ 200) ∨
    settings.shouldCalculate = false

/-- A step of a calculation: of its counter, or the calculation itself. -/
def RestOp.IsCalculation : RestOp → Prop
  | controller _ => True
  | getEndpointWorkloadByType _ => False

/-- One step of a request. -/
def restServe (wrap : ℤ → ℤ) (numThreads : ℕ) : Server Workload RestOp RestOp.Ans :=
  fun workload op ans workload' =>
    match op, ans with
    | .controller op, ans => workloadServe wrap numThreads workload op ans workload'
    | .getEndpointWorkloadByType type, ans => ans = workload type ∧ workload' = workload

/-- Whatever else runs, a request that is suppressed calculates nothing and
moves no counter. -/
def SuppressedFrame (wrap : ℤ → ℤ) (numThreads : ℕ) (lib : RestLibrary) (settings : FaultSettings)
    (draw : ℕ) (r : RestRequest) : Prop :=
  Suppressed settings draw →
    ∀ (ι : Type) [DecidableEq ι]
      (c₀ c : Pool ι Workload RestOp RestOp.Ans (Except RestException ResponseEntity))
      (log : List (Entry ι Workload RestOp RestOp.Ans)) (i : ι),
      c₀.prog i = r.handler lib settings draw → Pool.Run (restServe wrap numThreads) c₀ log c →
        ∀ e ∈ log, e.who = i → ¬ e.op.IsCalculation ∧ e.post = e.pre

/-- The endpoint looks at the settings before it calculates. -/
def RestRequest.ChecksFirst : RestRequest → Prop
  | add _ _ => True
  | multiply _ _ => True
  | prime _ => False
  | fibonacci _ => False
  | getWorkloadByType _ => True

/-- A suppressed request that looks first calls nothing. -/
theorem checkThenCalculate_suppressed {lib : RestLibrary} {settings : FaultSettings} {draw : ℕ}
    (h : Suppressed settings draw) (calculate : WorkloadProg) :
    ∃ outcome, checkThenCalculate lib settings draw calculate = .ret outcome := by
  rw [checkThenCalculate]
  cases hcode : currentResponseCode settings draw with
  | error e => exact ⟨.error e, rfl⟩
  | ok code =>
    by_cases h200 : code = 200
    · -- the code does not suppress the request, so the other setting does
      have hoff : settings.shouldCalculate = false := by
        rcases h with ⟨code', hcode', hne⟩ | hoff
        · rw [currentResponseCode] at hcode
          cases hsleep : sleep settings with
          | error e =>
            rw [hsleep] at hcode
            cases hcode
          | ok _ =>
            rw [hsleep] at hcode
            have hdrawn : getResponseCode settings draw = .ok code := hcode
            rw [hcode'] at hdrawn
            cases hdrawn
            exact absurd h200 hne
        · exact hoff
      exact ⟨responseEntity lib none code, by simp [h200, hoff]⟩
    · exact ⟨responseEntity lib none code, by simp [h200]⟩

/-- A request that has returned makes no calculation. -/
theorem not_calculation_of_ret {p : RestProg} (h : ∃ outcome, p = .ret outcome)
    {tr : List RestEvent} {q : RestProg} (hpath : p.Path tr q) :
    ∀ e ∈ tr, ¬ e.op.IsCalculation := by
  obtain ⟨outcome, rfl⟩ := h
  obtain ⟨rfl, -⟩ := Prog.path_ret_iff.mp hpath
  intro e he
  cases he

/-- The one call of `getWorkloadByType` reads a counter. -/
theorem getWorkloadByType_path {lib : RestLibrary} {settings : FaultSettings} {draw : ℕ}
    {type : String} {tr : List RestEvent} {q : RestProg}
    (h : (getWorkloadByType lib settings draw type).Path tr q) :
    ∀ e ∈ tr, ¬ e.op.IsCalculation := by
  rw [getWorkloadByType] at h
  split at h
  · exact not_calculation_of_ret ⟨_, rfl⟩ h
  · split_ifs at h
    · exact not_calculation_of_ret ⟨_, rfl⟩ h
    · split at h
      · exact not_calculation_of_ret ⟨_, rfl⟩ h
      · rcases Prog.path_call_iff.mp h with ⟨rfl, -⟩ | ⟨workload, tr', rfl, hrest⟩
        · intro e he
          cases he
        · obtain ⟨rfl, -⟩ := Prog.path_ret_iff.mp hrest
          intro e he
          rw [List.mem_singleton.mp he]
          exact id

/-- A request to an endpoint that looks first does nothing to the counters if
it is suppressed. -/
theorem frame_of_checksFirst {wrap : ℤ → ℤ} {numThreads : ℕ} {lib : RestLibrary}
    {settings : FaultSettings} {draw : ℕ} {r : RestRequest} (hr : r.ChecksFirst) :
    SuppressedFrame wrap numThreads lib settings draw r := by
  intro hsuppressed ι _ c₀ c log i hprog hrun e he hwho
  have hevents : ∀ tr q, (r.handler lib settings draw).Path tr q →
      ∀ e ∈ tr, ¬ e.op.IsCalculation := by
    intro tr q hpath
    cases r with
    | add x y => exact not_calculation_of_ret (checkThenCalculate_suppressed hsuppressed _) hpath
    | multiply x y =>
      exact not_calculation_of_ret (checkThenCalculate_suppressed hsuppressed _) hpath
    | prime n => exact hr.elim
    | fibonacci n => exact hr.elim
    | getWorkloadByType type => exact getWorkloadByType_path hpath
  have hpath := hrun.path i
  rw [hprog] at hpath
  have hnot : ¬ e.op.IsCalculation :=
    hevents _ _ hpath e.event (mem_proj.mpr ⟨e, he, hwho, rfl⟩)
  refine ⟨hnot, ?_⟩
  have hserve := hrun.serves e he
  obtain ⟨who, op, ans, pre, post⟩ := e
  cases op with
  | controller op => exact absurd trivial hnot
  | getEndpointWorkloadByType type => exact hserve.2

/-- A request to an endpoint that does not look first increments its counter
before anything else. -/
theorem exists_calculation {wrap : ℤ → ℤ} {numThreads : ℕ} {lib : RestLibrary}
    {settings : FaultSettings} {draw : ℕ} {r : RestRequest} (hr : ¬ r.ChecksFirst) :
    ∃ (c : Pool Unit Workload RestOp RestOp.Ans (Except RestException ResponseEntity))
      (log : List (Entry Unit Workload RestOp RestOp.Ans)),
      Pool.Run (restServe wrap numThreads)
        ⟨fun _ => 0, fun _ => r.handler lib settings draw⟩ log c ∧
        ∃ e ∈ log, e.op.IsCalculation := by
  have key : ∀ (type : ECalculationType) (next : Unit → RestProg),
      ∃ (c : Pool Unit Workload RestOp RestOp.Ans (Except RestException ResponseEntity))
        (log : List (Entry Unit Workload RestOp RestOp.Ans)),
        Pool.Run (restServe wrap numThreads)
          ⟨fun _ => 0, fun _ => .call (.controller (.incrementAndGet type)) next⟩ log c ∧
          ∃ e ∈ log, e.op.IsCalculation := by
    intro type next
    exact ⟨_, _, Pool.Run.refl.tail (.mk () () rfl rfl), _, List.mem_singleton.mpr rfl, trivial⟩
  cases r with
  | add x y => exact absurd trivial hr
  | multiply x y => exact absurd trivial hr
  | getWorkloadByType type => exact absurd trivial hr
  | prime n => exact key .prime _
  | fibonacci n => exact key .fibonacci _

/-- **A suppressed request leaves the counters alone exactly on the endpoints
that look at the settings before they calculate.** -/
theorem suppressed_frame_iff (wrap : ℤ → ℤ) (numThreads : ℕ) (lib : RestLibrary)
    (settings : FaultSettings) (draw : ℕ) (r : RestRequest) :
    SuppressedFrame wrap numThreads lib settings draw r ↔
      r.ChecksFirst ∨ ¬ Suppressed settings draw := by
  constructor
  · intro hframe
    by_contra hnot
    push Not at hnot
    obtain ⟨hr, hsuppressed⟩ := hnot
    obtain ⟨c, log, hrun, e, he, hcalc⟩ := exists_calculation hr
    exact (hframe hsuppressed Unit _ c log () rfl hrun e he rfl).1 hcalc
  · rintro (hr | hnot)
    · exact frame_of_checksFirst hr
    · exact fun hsuppressed => absurd hsuppressed hnot

/-- A library that knows a few codes. -/
def sampleLibrary : RestLibrary := ⟨fun code => code ∈ [200, 400, 404, 500, 503], String.toUpper⟩

/-- Nothing should be calculated, and the primes are. -/
theorem suppressed_prime :
    ¬ ∀ (wrap : ℤ → ℤ) (numThreads : ℕ) (lib : RestLibrary) (settings : FaultSettings) (draw : ℕ)
      (r : RestRequest), SuppressedFrame wrap numThreads lib settings draw r := by
  intro h
  obtain ⟨c, log, hrun, e, he, hcalc⟩ := @exists_calculation id 1 sampleLibrary
    ⟨none, 200, 0, false⟩ 0 (.prime 10) id
  have hsuppressed : Suppressed ⟨none, 200, 0, false⟩ 0 := .inr rfl
  exact (h id 1 sampleLibrary _ 0 (.prime 10) hsuppressed Unit _ c log () rfl hrun e he rfl).1 hcalc

/-! ### Every configuration -/

/-- The arguments are those the endpoint is for. -/
def RestRequest.Valid (lib : RestLibrary) : RestRequest → Prop
  | prime boundary => 0 ≤ boundary
  | fibonacci nthElement => 0 ≤ nthElement
  | getWorkloadByType type => ∃ t, ECalculationType.valueOf (lib.toUpperCase type) = some t
  | _ => True

/-- What `nextInt` may draw. -/
def Draws (settings : FaultSettings) (draw : ℕ) : Prop :=
  0 < settings.frequency → (draw : ℤ) < settings.frequency

/-- If the event is a calculation, it succeeded, with a result that is there. -/
def Calculated (e : WorkloadEvent) : Prop :=
  match e with
  | ⟨.compute _, answer⟩ => ∃ result, answer = .ok result ∧ result ≠ .number none
  | _ => True

/-- Every request with valid arguments whose calculation succeeds is answered,
with 200 or the code that was set. -/
def Answered (lib : RestLibrary) (settings : FaultSettings) : Prop :=
  ∀ (r : RestRequest) (draw : ℕ) (tr : List RestEvent)
    (outcome : Except RestException ResponseEntity),
    r.Valid lib → Draws settings draw →
      (r.handler lib settings draw).Path tr (.ret outcome) →
        (∀ e : WorkloadEvent, RestEvent.ofController e ∈ tr → Calculated e) →
          ∃ response, outcome = .ok response ∧
            (response.status = 200 ∨ response.status = settings.responseCode)

/-- No setting is one that its library function rejects. -/
def FaultsFit (lib : RestLibrary) (settings : FaultSettings) : Prop :=
  (∀ timeout, settings.timeout = some timeout → 0 ≤ timeout) ∧ 0 ≤ settings.frequency ∧
    lib.httpStatus settings.responseCode

theorem sleep_ok_iff {settings : FaultSettings} :
    sleep settings = .ok () ↔ ∀ timeout, settings.timeout = some timeout → 0 ≤ timeout := by
  rw [sleep]
  cases settings.timeout with
  | none => simp
  | some timeout =>
    by_cases hneg : timeout < 0
    · simp [hneg]
    · simp [hneg, not_lt.mp hneg]

/-- With a frequency that is not negative a code is drawn: 200, or the one that
was set. -/
theorem getResponseCode_of_nonneg {settings : FaultSettings} (h : 0 ≤ settings.frequency)
    (draw : ℕ) :
    getResponseCode settings draw = .ok 200 ∨
      getResponseCode settings draw = .ok settings.responseCode := by
  rw [getResponseCode]
  by_cases hzero : settings.frequency = 0
  · right
    rw [if_neg (not_not.mpr hzero)]
  · rw [if_pos hzero, if_neg (not_lt.mpr h)]
    by_cases hdraw : draw + 1 = 1
    · exact .inr (if_pos hdraw)
    · exact .inl (if_neg hdraw)

/-- **Settings that fit give a code**, one that `HttpStatus` knows. -/
theorem currentResponseCode_of_fit {lib : RestLibrary} (h200 : lib.httpStatus 200)
    {settings : FaultSettings} (h : FaultsFit lib settings) (draw : ℕ) :
    ∃ code, currentResponseCode settings draw = .ok code ∧ lib.httpStatus code ∧
      (code = 200 ∨ code = settings.responseCode) := by
  obtain ⟨htimeout, hfrequency, hcode⟩ := h
  rw [currentResponseCode, sleep_ok_iff.mpr htimeout]
  rcases getResponseCode_of_nonneg hfrequency draw with hdrawn | hdrawn
  · exact ⟨200, hdrawn, h200, .inl rfl⟩
  · exact ⟨settings.responseCode, hdrawn, hcode, .inr rfl⟩

/-- What an outcome has to be. -/
def AnsweredWith (code : ℤ) (outcome : Except RestException ResponseEntity) : Prop :=
  ∃ body, outcome = .ok ⟨body, code⟩

theorem answeredWith_responseEntity {lib : RestLibrary} {code : ℤ} (h : lib.httpStatus code)
    (body : Option RestBody) : AnsweredWith code (responseEntity lib body code) :=
  ⟨body, by rw [responseEntity, if_pos h]⟩

/-- A controller whose calculation succeeds returns a result that is there. -/
theorem computeAndLeave_succeeds {type : ECalculationType} {calculation : Calculation}
    {tr : List WorkloadEvent} {a : Except JavaException CalculationResult}
    (h : (computeAndLeave type calculation).Path tr (.ret a)) (hall : ∀ e ∈ tr, Calculated e) :
    ∃ result, a = .ok result ∧ result ≠ .number none := by
  rcases computeAndLeave_cases h with ⟨-, hnot⟩ | ⟨e, rfl, -⟩ | ⟨result, -, hnot⟩ |
    ⟨result, rfl, hret⟩
  · exact absurd trivial hnot
  · obtain ⟨result, herror, -⟩ := hall _ List.mem_cons_self
    cases herror
  · exact absurd trivial hnot
  · obtain ⟨result', hok, hthere⟩ := hall _ List.mem_cons_self
    cases hok
    cases hret
    exact ⟨result, rfl, hthere⟩

/-- The same after the counter's increment. -/
theorem increment_succeeds {type : ECalculationType} {calculation : Calculation}
    {tr : List WorkloadEvent} {a : Except JavaException CalculationResult}
    (h : (enterAndLeave type calculation).Path tr (.ret a)) (hall : ∀ e ∈ tr, Calculated e) :
    ∃ result, a = .ok result ∧ result ≠ .number none := by
  obtain ⟨_, tr₁, rfl, h₁⟩ := Prog.path_call_ret_iff.mp h
  exact computeAndLeave_succeeds h₁ fun e he => hall e (List.mem_cons_of_mem _ he)

/-- The program ends well, with a result that is there, if its calculation
does. -/
def SucceedsIfCalculated (p : WorkloadProg) : Prop :=
  ∀ (tr : List WorkloadEvent) (a : Except JavaException CalculationResult), p.Path tr (.ret a) →
    (∀ e ∈ tr, Calculated e) → ∃ result, a = .ok result ∧ result ≠ .number none

/-- A Fibonacci number below the seventh is in the map as it is filled. -/
theorem calculateFibonacci_succeeds {n : ℤ} (hn : 0 ≤ n) :
    SucceedsIfCalculated (Controller.calculateFibonacci n) := by
  intro tr a h hall
  by_cases hsmall : n < 7
  · obtain ⟨_, tr₁, rfl, h₁⟩ := Prog.path_call_ret_iff.mp h
    rw [if_pos hsmall, holds_fillFirstElements.get hn hsmall] at h₁
    obtain ⟨-, rfl⟩ := Prog.path_ret_ret_iff.mp h₁
    exact ⟨_, rfl, by rintro ⟨⟩⟩
  · rw [calculateFibonacci_eq_enterAndLeave hsmall] at h
    exact increment_succeeds h hall

section Fit

variable {lib : RestLibrary} {settings : FaultSettings} {draw : ℕ} {code : ℤ}
  {tr : List RestEvent} {outcome : Except RestException ResponseEntity}

/-- A request that looks at the settings first is answered with the code
drawn. -/
theorem checkThenCalculate_answered (hcurrent : currentResponseCode settings draw = .ok code)
    (hcode : lib.httpStatus code) {calculate : WorkloadProg}
    (hcalculate : SucceedsIfCalculated calculate)
    (h : (checkThenCalculate lib settings draw calculate).Path tr (.ret outcome))
    (hall : ∀ e : WorkloadEvent, RestEvent.ofController e ∈ tr → Calculated e) :
    AnsweredWith code outcome := by
  rw [checkThenCalculate, hcurrent] at h
  dsimp only at h
  split_ifs at h
  · obtain ⟨-, rfl⟩ := Prog.path_ret_ret_iff.mp h
    exact answeredWith_responseEntity hcode none
  · obtain ⟨-, rfl⟩ := Prog.path_ret_ret_iff.mp h
    exact answeredWith_responseEntity hcode none
  · obtain ⟨tr', a, hpath, rfl, rfl⟩ := ofController_bind_returned h
    obtain ⟨result, rfl, -⟩ := hcalculate tr' a hpath
      fun e he => hall e (List.mem_map_of_mem he)
    exact answeredWith_responseEntity hcode (some (.result result))

/-- A request that calculates first is answered with the code drawn. -/
theorem calculateThenCheck_answered (hcurrent : currentResponseCode settings draw = .ok code)
    (hcode : lib.httpStatus code) {calculate : WorkloadProg}
    (hcalculate : SucceedsIfCalculated calculate)
    (h : (calculateThenCheck lib settings draw calculate).Path tr (.ret outcome))
    (hall : ∀ e : WorkloadEvent, RestEvent.ofController e ∈ tr → Calculated e) :
    AnsweredWith code outcome := by
  obtain ⟨tr', a, hpath, rfl, rfl⟩ := ofController_bind_returned h
  obtain ⟨result, rfl, hthere⟩ := hcalculate tr' a hpath
    fun e he => hall e (List.mem_map_of_mem he)
  have htext : resultText result = .ok (.result result) := by
    cases result with
    | decimal x => rfl
    | primes l => rfl
    | number x =>
      cases x with
      | none => exact absurd rfl hthere
      | some x => rfl
  show AnsweredWith code (checkResult lib settings draw result)
  rw [checkResult, hcurrent, htext]
  show AnsweredWith code (if code ≠ 200 then responseEntity lib none code
    else if !settings.shouldCalculate then responseEntity lib none code
    else responseEntity lib (some (.result result)) code)
  split_ifs
  · exact answeredWith_responseEntity hcode none
  · exact answeredWith_responseEntity hcode none
  · exact answeredWith_responseEntity hcode (some (.result result))

/-- A counter is shown with the code drawn. -/
theorem getWorkloadByType_answered (hcurrent : currentResponseCode settings draw = .ok code)
    (hcode : lib.httpStatus code) {type : String} {t : ECalculationType}
    (htype : ECalculationType.valueOf (lib.toUpperCase type) = some t)
    (h : (getWorkloadByType lib settings draw type).Path tr (.ret outcome)) :
    AnsweredWith code outcome := by
  rw [getWorkloadByType, hcurrent, htype] at h
  dsimp only at h
  split_ifs at h
  · obtain ⟨-, rfl⟩ := Prog.path_ret_ret_iff.mp h
    exact answeredWith_responseEntity hcode none
  · obtain ⟨workload, tr', -, hrest⟩ := Prog.path_call_ret_iff.mp h
    obtain ⟨-, rfl⟩ := Prog.path_ret_ret_iff.mp hrest
    exact answeredWith_responseEntity hcode (some (.workload workload))

/-- **With settings that fit every request is answered.** -/
theorem answered_of_fit (h200 : lib.httpStatus 200) (h : FaultsFit lib settings) :
    Answered lib settings := by
  intro r draw tr outcome hvalid _ hpath hall
  obtain ⟨code, hcurrent, hcode, hstatus⟩ := currentResponseCode_of_fit h200 h draw
  have hanswered : AnsweredWith code outcome := by
    cases r with
    | add x y =>
      exact checkThenCalculate_answered hcurrent hcode (fun _ _ => increment_succeeds) hpath hall
    | multiply x y =>
      exact checkThenCalculate_answered hcurrent hcode (fun _ _ => increment_succeeds) hpath hall
    | prime n =>
      exact calculateThenCheck_answered hcurrent hcode (fun _ _ => increment_succeeds) hpath hall
    | fibonacci n =>
      exact calculateThenCheck_answered hcurrent hcode (calculateFibonacci_succeeds hvalid) hpath
        hall
    | getWorkloadByType type =>
      obtain ⟨t, ht⟩ := hvalid
      exact getWorkloadByType_answered hcurrent hcode ht hpath
  obtain ⟨body, rfl⟩ := hanswered
  exact ⟨_, rfl, hstatus⟩

/-- An addition that is not calculated is answered at once. -/
theorem Answered.not_error (h : Answered lib settings) (hdraws : Draws settings draw)
    {e : RestException} (hret : (RestRequest.add ⟨0, 0⟩ ⟨0, 0⟩).handler lib settings draw
      = .ret (.error e)) : False := by
  have hpath : ((RestRequest.add ⟨0, 0⟩ ⟨0, 0⟩).handler lib settings draw).Path []
      (.ret (.error e)) := by
    rw [hret]
    exact .nil _
  obtain ⟨response, hok, -⟩ := h (.add ⟨0, 0⟩ ⟨0, 0⟩) draw [] _ trivial hdraws hpath
    fun _ hmem => absurd hmem List.not_mem_nil
  cases hok

/-- The settings do give a code. -/
theorem Answered.current_ok (h : Answered lib settings) (hdraws : Draws settings draw)
    (e : RestException) : currentResponseCode settings draw ≠ .error e := by
  intro hcurrent
  apply h.not_error hdraws
  rw [RestRequest.handler, checkThenCalculate, hcurrent]

theorem Answered.timeout_nonneg (h : Answered lib settings) :
    ∀ timeout, settings.timeout = some timeout → 0 ≤ timeout := by
  intro timeout htimeout
  by_contra hneg
  have hrejects : sleep settings = .error .illegalArgument := by
    rw [sleep, htimeout]
    exact if_pos (not_le.mp hneg)
  have hdraws : Draws settings 0 := id
  apply h.current_ok hdraws .illegalArgument
  rw [currentResponseCode, hrejects]
  rfl

theorem Answered.frequency_nonneg (h : Answered lib settings) : 0 ≤ settings.frequency := by
  by_contra hneg
  have hrejects : getResponseCode settings 0 = .error .illegalArgument := by
    rw [getResponseCode, if_pos (not_le.mp hneg).ne, if_pos (not_le.mp hneg)]
  have hdraws : Draws settings 0 := id
  apply h.current_ok hdraws .illegalArgument
  rw [currentResponseCode, sleep_ok_iff.mpr h.timeout_nonneg]
  exact hrejects

/-- The draw 0 gives the code that was set. -/
theorem getResponseCode_zero (h : 0 ≤ settings.frequency) :
    getResponseCode settings 0 = .ok settings.responseCode := by
  rw [getResponseCode]
  by_cases hzero : settings.frequency = 0
  · rw [if_neg (not_not.mpr hzero)]
  · rw [if_pos hzero, if_neg (not_lt.mpr h)]
    exact if_pos rfl

/-- **If every request is answered, the settings fit**: the draw 0 is always
possible. -/
theorem Answered.fit (h200 : lib.httpStatus 200) (h : Answered lib settings) :
    FaultsFit lib settings := by
  refine ⟨h.timeout_nonneg, h.frequency_nonneg, ?_⟩
  by_contra hunknown
  have hdrawn : currentResponseCode settings 0 = .ok settings.responseCode := by
    rw [currentResponseCode, sleep_ok_iff.mpr h.timeout_nonneg]
    exact getResponseCode_zero h.frequency_nonneg
  have hne : settings.responseCode ≠ 200 := by
    intro heq
    rw [heq] at hunknown
    exact hunknown h200
  have hdraws : Draws settings 0 := id
  apply h.not_error hdraws
  rw [RestRequest.handler, checkThenCalculate, hdrawn]
  show (if settings.responseCode ≠ 200 then _ else _) = _
  rw [if_pos hne, responseEntity, if_neg hunknown]

end Fit

/-- **After any calls of `/fault`, each acknowledged, every request is answered
with 200 or the last code exactly if the last settings fit.** -/
theorem faults_answered_iff (lib : RestLibrary) (h200 : lib.httpStatus 200)
    (calls : List FaultCall) :
    Answered lib (configured calls) ↔ FaultsFit lib (configured calls) :=
  ⟨fun h => h.fit h200, answered_of_fit h200⟩

/-- One call, for a third of the requests. -/
theorem faults_answered_iff_third :
    Answered sampleLibrary (configured [⟨0, 503, 3, true⟩]) ↔
      FaultsFit sampleLibrary (configured [⟨0, 503, 3, true⟩]) :=
  faults_answered_iff sampleLibrary (by decide) [⟨0, 503, 3, true⟩]

/-- A timeout below 0 is acknowledged, and ends every request in an
exception. -/
theorem faults_unanswered :
    ¬ ∀ (lib : RestLibrary) (calls : List FaultCall), lib.httpStatus 200 →
      Answered lib (configured calls) := by
  intro h
  have hfit := (h sampleLibrary [⟨-1, 200, 0, true⟩] (by decide)).fit (by decide)
  exact absurd (hfit.1 (-1) rfl) (by decide)

end ResilientMesh
