/-
ResilientMesh/FaultRaces.lean

The resource of the calculation service while `/fault` is called.  The settings
are four fields of one object that all requests share: a call of `/fault` writes
one after the other, and a request reads each where it needs it, the timeout
and the frequency twice.  Every read and every write is a step of its own.

Main result: a request that finds the same settings at all its steps is the
handler with these settings (`settled_request`).
-/
import ResilientMesh.FaultInjection
import ResilientMesh.RelyGuarantee

namespace ResilientMesh

/-! ### Data -/

/-- The fields of the resource, and the counters of the controller. -/
structure ServiceState where
  settings : FaultSettings
  workload : Workload

/-- The steps of a request and of a call of `/fault`. -/
inductive ServiceOp
  | timeout
  | responseCode
  | frequency
  | shouldCalculate
  | setResponseCode (responseCode : ℤ)
  | setTimeout (timeout : ℤ)
  | setFrequency (frequency : ℤ)
  | setShouldCalculate (shouldCalculate : Bool)
  | nextInt (bound : ℤ)
  | rest (op : RestOp)

abbrev ServiceOp.Ans : ServiceOp → Type
  | timeout => Option ℤ
  | responseCode => ℤ
  | frequency => ℤ
  | shouldCalculate => Bool
  | setResponseCode _ => Unit
  | setTimeout _ => Unit
  | setFrequency _ => Unit
  | setShouldCalculate _ => Unit
  | nextInt _ => Except RestException ℕ
  | rest op => op.Ans

abbrev ServiceProg (α : Type) := Prog ServiceOp ServiceOp.Ans α

abbrev ServiceOutcome := Except RestException ResponseEntity

/-- Go on with a result; an exception ends the request. -/
def orThrow {α : Type} (p : ServiceProg (Except RestException α))
    (next : α → ServiceProg ServiceOutcome) : ServiceProg ServiceOutcome :=
  p.bind fun r =>
    match r with
    | .error e => .ret (.error e)
    | .ok a => next a

/-- The steps of the controller, as steps of the service. -/
def ofRest {α : Type} : Prog RestOp RestOp.Ans α → ServiceProg α
  | .ret a => .ret a
  | .call op next => .call (.rest op) fun a => ofRest (next a)

/-! ### Handlers -/

namespace Concurrent

/-- `sleep`: the timeout is compared with null, and then read again. -/
def sleep : ServiceProg (Except RestException Unit) :=
  .call .timeout fun timeout =>
    match timeout with
    | none => .ret (.ok ())
    | some _ =>
      .call .timeout fun timeout =>
        match timeout with
        | none => .ret (.error .nullPointer)
        | some timeout =>
          if timeout < 0 then .ret (.error .illegalArgument) else .ret (.ok ())

/-- `getResponseCode`: the frequency is compared with 0, and then read again. -/
def getResponseCode : ServiceProg (Except RestException ℤ) :=
  .call .frequency fun frequency =>
    if frequency ≠ 0 then
      .call .frequency fun frequency =>
        .call (.nextInt frequency) fun draw =>
          match draw with
          | .error e => .ret (.error e)
          | .ok draw =>
            let randomDigit := draw + 1
            if randomDigit = 1 then .call .responseCode fun responseCode => .ret (.ok responseCode)
            else .ret (.ok 200)
    else .call .responseCode fun responseCode => .ret (.ok responseCode)

/-- `sleep`, and then the code. -/
def withResponseCode (next : ℤ → ServiceProg ServiceOutcome) : ServiceProg ServiceOutcome :=
  orThrow sleep fun _ => orThrow getResponseCode next

/-- `/add` and `/multiply`. -/
def checkThenCalculate (lib : RestLibrary) (calculate : WorkloadProg) :
    ServiceProg ServiceOutcome :=
  withResponseCode fun code =>
    if code ≠ 200 then .ret (responseEntity lib none code)
    else
      .call .shouldCalculate fun shouldCalculate =>
        if !shouldCalculate then .ret (responseEntity lib none code)
        else
          (ofRest (ofController calculate)).bind fun result =>
            .ret (withResult (fun result => responseEntity lib (some (.result result)) code) result)

/-- `/prime` and `/fibonacci`. -/
def calculateThenCheck (lib : RestLibrary) (calculate : WorkloadProg) :
    ServiceProg ServiceOutcome :=
  (ofRest (ofController calculate)).bind fun result =>
    match result with
    | .error e => .ret (.error (.calculation e))
    | .ok result =>
      withResponseCode fun code =>
        if code ≠ 200 then .ret (responseEntity lib none code)
        else
          .call .shouldCalculate fun shouldCalculate =>
            if !shouldCalculate then .ret (responseEntity lib none code)
            else
              match resultText result with
              | .error e => .ret (.error e)
              | .ok body => .ret (responseEntity lib (some body) code)

def getWorkloadByType (lib : RestLibrary) (type : String) : ServiceProg ServiceOutcome :=
  withResponseCode fun code =>
    if code ≠ 200 then .ret (responseEntity lib none code)
    else
      match ECalculationType.valueOf (lib.toUpperCase type) with
      | none => .ret (.error .illegalArgument)
      | some type =>
        .call (.rest (.getEndpointWorkloadByType type)) fun workload =>
          .ret (responseEntity lib (some (.workload workload)) code)

/-- `/fault`: the fields one after another. -/
def fault (call : FaultCall) : ServiceProg ServiceOutcome :=
  .call (.setResponseCode call.responseCode) fun _ =>
    .call (.setTimeout call.timeout) fun _ =>
      .call (.setFrequency call.frequency) fun _ =>
        .call (.setShouldCalculate call.shouldCalculate) fun _ =>
          .ret (.ok ⟨some (.responseCode call.responseCode), 200⟩)

end Concurrent

def RestRequest.concurrent (lib : RestLibrary) : RestRequest → ServiceProg ServiceOutcome
  | add x y => Concurrent.checkThenCalculate lib (Controller.add x y)
  | multiply x y => Concurrent.checkThenCalculate lib (Controller.multiply x y)
  | prime n => Concurrent.calculateThenCheck lib (Controller.calculatePrime n)
  | fibonacci n => Concurrent.calculateThenCheck lib (Controller.calculateFibonacci n)
  | getWorkloadByType type => Concurrent.getWorkloadByType lib type

/-- Who calls the service. -/
inductive ServiceClient
  | request (r : RestRequest)
  | fault (call : FaultCall)

def ServiceClient.prog (lib : RestLibrary) : ServiceClient → ServiceProg ServiceOutcome
  | request r => r.concurrent lib
  | fault call => Concurrent.fault call

/-! ### Steps -/

/-- What `nextInt` gives: it takes no bound that is not positive. -/
def nextInt (bound : ℤ) (drawn : Except RestException ℕ) : Prop :=
  if bound ≤ 0 then drawn = .error .illegalArgument
  else ∃ draw : ℕ, (draw : ℤ) < bound ∧ drawn = .ok draw

/-- One step of the service. -/
def serviceServe (wrap : ℤ → ℤ) (numThreads : ℕ) : Server ServiceState ServiceOp ServiceOp.Ans :=
  fun s op a s' =>
    match op, a with
    | .timeout, a => a = s.settings.timeout ∧ s' = s
    | .responseCode, a => a = s.settings.responseCode ∧ s' = s
    | .frequency, a => a = s.settings.frequency ∧ s' = s
    | .shouldCalculate, a => a = s.settings.shouldCalculate ∧ s' = s
    | .setResponseCode responseCode, _ =>
      s' = { s with settings := { s.settings with responseCode := responseCode } }
    | .setTimeout timeout, _ =>
      s' = { s with settings := { s.settings with timeout := some timeout } }
    | .setFrequency frequency, _ =>
      s' = { s with settings := { s.settings with frequency := frequency } }
    | .setShouldCalculate shouldCalculate, _ =>
      s' = { s with settings := { s.settings with shouldCalculate := shouldCalculate } }
    | .nextInt bound, a => nextInt bound a ∧ s' = s
    | .rest op, a => restServe wrap numThreads s.workload op a s'.workload ∧
        s'.settings = s.settings

/-- The service as it starts, with nobody served yet. -/
def serviceStart {ι : Type} (lib : RestLibrary) (clients : ι → ServiceClient) :
    Pool ι ServiceState ServiceOp ServiceOp.Ans ServiceOutcome :=
  ⟨⟨.initial, fun _ => 0⟩, fun i => (clients i).prog lib⟩

abbrev ServiceEvent := Event ServiceOp ServiceOp.Ans

abbrev ServiceEntry (ι : Type) := Entry ι ServiceState ServiceOp ServiceOp.Ans

/-! ### Settled requests -/

/-- The event shows the settings as they are, and draws as `nextInt` does. -/
def Shows (settings : FaultSettings) : ServiceEvent → Prop
  | ⟨.timeout, a⟩ => a = settings.timeout
  | ⟨.responseCode, a⟩ => a = settings.responseCode
  | ⟨.frequency, a⟩ => a = settings.frequency
  | ⟨.shouldCalculate, a⟩ => a = settings.shouldCalculate
  | ⟨.nextInt bound, a⟩ => nextInt bound a
  | _ => True

/-- The event as one of the controller's steps, if it is one. -/
def restEvent : ServiceEvent → Option RestEvent
  | ⟨.rest op, a⟩ => some ⟨op, a⟩
  | _ => none

/-- The controller's steps on a path. -/
def restPart (tr : List ServiceEvent) : List RestEvent := tr.filterMap restEvent

theorem restPart_append (tr tr' : List ServiceEvent) :
    restPart (tr ++ tr') = restPart tr ++ restPart tr' := List.filterMap_append ..

theorem ofRest_path {α : Type} {p : Prog RestOp RestOp.Ans α} {tr : List ServiceEvent} {a : α}
    (h : (ofRest p).Path tr (.ret a)) : p.Path (restPart tr) (.ret a) := by
  induction p generalizing tr with
  | ret b =>
    obtain ⟨rfl, rfl⟩ := Prog.path_ret_ret_iff.mp h
    exact .nil _
  | call op next ih =>
    obtain ⟨answer, tr', rfl, hrest⟩ := Prog.path_call_ret_iff.mp h
    show (Prog.call op next).Path (⟨op, answer⟩ :: restPart tr') (.ret a)
    exact .cons (show op.Ans from answer) (ih answer hrest)

/-- A request ends in the exception of its first part, or goes on with its
result. -/
theorem orThrow_path {α : Type} {p : ServiceProg (Except RestException α)}
    {next : α → ServiceProg ServiceOutcome} {tr : List ServiceEvent} {outcome : ServiceOutcome}
    (h : (orThrow p next).Path tr (.ret outcome)) :
    ∃ r tr₁ tr₂, tr = tr₁ ++ tr₂ ∧ p.Path tr₁ (.ret r) ∧
      match r with
      | .error e => tr₂ = [] ∧ outcome = .error e
      | .ok a => (next a).Path tr₂ (.ret outcome) := by
  obtain ⟨r, tr₁, tr₂, rfl, hp, hnext⟩ := Prog.path_bind_ret h
  refine ⟨r, tr₁, tr₂, rfl, hp, ?_⟩
  cases r with
  | error e => exact Prog.path_ret_ret_iff.mp hnext
  | ok a => exact hnext

section Settled

variable {settings : FaultSettings} {tr : List ServiceEvent}

theorem settled_sleep {r : Except RestException Unit}
    (h : Concurrent.sleep.Path tr (.ret r)) (hshows : ∀ ev ∈ tr, Shows settings ev) :
    r = sleep settings ∧ restPart tr = [] := by
  obtain ⟨timeout, tr₁, rfl, h₁⟩ := Prog.path_call_ret_iff.mp h
  obtain ⟨hread, hshows₁⟩ := List.forall_mem_cons.mp hshows
  obtain rfl : timeout = settings.timeout := hread
  rw [sleep]
  cases htimeout : settings.timeout with
  | none =>
    rw [htimeout] at h₁
    obtain ⟨rfl, rfl⟩ := Prog.path_ret_ret_iff.mp h₁
    exact ⟨rfl, rfl⟩
  | some timeout =>
    rw [htimeout] at h₁
    obtain ⟨again, tr₂, rfl, h₂⟩ := Prog.path_call_ret_iff.mp h₁
    obtain rfl : again = settings.timeout := (List.forall_mem_cons.mp hshows₁).1
    rw [htimeout] at h₂
    dsimp only at h₂ ⊢
    split_ifs at h₂ ⊢
    · obtain ⟨rfl, rfl⟩ := Prog.path_ret_ret_iff.mp h₂
      exact ⟨rfl, rfl⟩
    · obtain ⟨rfl, rfl⟩ := Prog.path_ret_ret_iff.mp h₂
      exact ⟨rfl, rfl⟩

theorem settled_getResponseCode {r : Except RestException ℤ}
    (h : Concurrent.getResponseCode.Path tr (.ret r)) (hshows : ∀ ev ∈ tr, Shows settings ev) :
    ∃ draw, Draws settings draw ∧ r = getResponseCode settings draw ∧ restPart tr = [] := by
  obtain ⟨frequency, tr₁, rfl, h₁⟩ := Prog.path_call_ret_iff.mp h
  obtain ⟨hread, hshows₁⟩ := List.forall_mem_cons.mp hshows
  obtain rfl : frequency = settings.frequency := hread
  by_cases hzero : settings.frequency = 0
  · rw [if_neg (not_not.mpr hzero)] at h₁
    obtain ⟨code, tr₂, rfl, h₂⟩ := Prog.path_call_ret_iff.mp h₁
    obtain rfl : code = settings.responseCode := (List.forall_mem_cons.mp hshows₁).1
    obtain ⟨rfl, rfl⟩ := Prog.path_ret_ret_iff.mp h₂
    exact ⟨0, id, by rw [getResponseCode, if_neg (not_not.mpr hzero)], rfl⟩
  rw [if_pos hzero] at h₁
  obtain ⟨bound, tr₂, rfl, h₂⟩ := Prog.path_call_ret_iff.mp h₁
  obtain ⟨hread', hshows₂⟩ := List.forall_mem_cons.mp hshows₁
  obtain rfl : bound = settings.frequency := hread'
  obtain ⟨drawn, tr₃, rfl, h₃⟩ := Prog.path_call_ret_iff.mp h₂
  obtain ⟨hdrawn, hshows₃⟩ := List.forall_mem_cons.mp hshows₂
  replace hdrawn : nextInt settings.frequency drawn := hdrawn
  rw [nextInt] at hdrawn
  split_ifs at hdrawn with hneg
  · -- a negative frequency is no bound
    subst hdrawn
    obtain ⟨rfl, rfl⟩ := Prog.path_ret_ret_iff.mp h₃
    have hlt : settings.frequency < 0 := lt_of_le_of_ne hneg hzero
    refine ⟨0, fun hpos => absurd hpos (not_lt.mpr hneg), ?_, rfl⟩
    rw [getResponseCode, if_pos hzero, if_pos hlt]
  · obtain ⟨draw, hdraw, rfl⟩ := hdrawn
    have hpos : ¬ settings.frequency < 0 := fun h => hneg h.le
    refine ⟨draw, fun _ => hdraw, ?_⟩
    rw [getResponseCode, if_pos hzero, if_neg hpos]
    dsimp only at h₃ ⊢
    split_ifs at h₃ ⊢
    · obtain ⟨code, tr₄, rfl, h₄⟩ := Prog.path_call_ret_iff.mp h₃
      obtain rfl : code = settings.responseCode := (List.forall_mem_cons.mp hshows₃).1
      obtain ⟨rfl, rfl⟩ := Prog.path_ret_ret_iff.mp h₄
      exact ⟨rfl, rfl⟩
    · obtain ⟨rfl, rfl⟩ := Prog.path_ret_ret_iff.mp h₃
      exact ⟨rfl, rfl⟩

/-- The code of a settled request is the one that the handler draws. -/
theorem settled_withResponseCode {next : ℤ → ServiceProg ServiceOutcome} {outcome : ServiceOutcome}
    (h : (Concurrent.withResponseCode next).Path tr (.ret outcome))
    (hshows : ∀ ev ∈ tr, Shows settings ev) :
    ∃ draw, Draws settings draw ∧
      match currentResponseCode settings draw with
      | .error e => restPart tr = [] ∧ outcome = .error e
      | .ok code => ∃ tr', (∀ ev ∈ tr', Shows settings ev) ∧ restPart tr = restPart tr' ∧
          (next code).Path tr' (.ret outcome) := by
  obtain ⟨slept, tr₁, tr₂, rfl, hsleep, h₂⟩ := orThrow_path h
  obtain ⟨hshows₁, hshows₂⟩ := List.forall_mem_append.mp hshows
  obtain ⟨rfl, hrest₁⟩ := settled_sleep hsleep hshows₁
  rw [restPart_append, hrest₁, List.nil_append]
  cases hslept : sleep settings with
  | error e =>
    rw [hslept] at h₂
    obtain ⟨rfl, rfl⟩ := h₂
    refine ⟨0, id, ?_⟩
    rw [currentResponseCode, hslept]
    exact ⟨rfl, rfl⟩
  | ok _ =>
    rw [hslept] at h₂
    obtain ⟨code, tr₃, tr₄, rfl, hcode, h₄⟩ := orThrow_path h₂
    obtain ⟨hshows₃, hshows₄⟩ := List.forall_mem_append.mp hshows₂
    obtain ⟨draw, hdraw, rfl, hrest₃⟩ := settled_getResponseCode hcode hshows₃
    rw [restPart_append, hrest₃, List.nil_append]
    refine ⟨draw, hdraw, ?_⟩
    have hcurrent : currentResponseCode settings draw = getResponseCode settings draw := by
      rw [currentResponseCode, hslept]
      rfl
    rw [hcurrent]
    cases hdrawn : getResponseCode settings draw with
    | error e =>
      rw [hdrawn] at h₄
      obtain ⟨rfl, rfl⟩ := h₄
      exact ⟨rfl, rfl⟩
    | ok code =>
      rw [hdrawn] at h₄
      exact ⟨tr₄, hshows₄, rfl, h₄⟩

variable {lib : RestLibrary} {calculate : WorkloadProg} {outcome : ServiceOutcome}

theorem settled_checkThenCalculate
    (h : (Concurrent.checkThenCalculate lib calculate).Path tr (.ret outcome))
    (hshows : ∀ ev ∈ tr, Shows settings ev) :
    ∃ draw, Draws settings draw ∧
      (checkThenCalculate lib settings draw calculate).Path (restPart tr) (.ret outcome) := by
  obtain ⟨draw, hdraw, hnext⟩ := settled_withResponseCode h hshows
  refine ⟨draw, hdraw, ?_⟩
  rw [checkThenCalculate]
  cases hcode : currentResponseCode settings draw with
  | error e =>
    rw [hcode] at hnext
    obtain ⟨hrest, rfl⟩ := hnext
    rw [hrest]
    exact .nil _
  | ok code =>
    rw [hcode] at hnext
    obtain ⟨tr', hshows', hrest, hpath⟩ := hnext
    rw [hrest]
    dsimp only at hpath ⊢
    by_cases h200 : code = 200
    · rw [if_neg (not_not.mpr h200)] at hpath ⊢
      obtain ⟨shouldCalculate, tr₁, rfl, h₁⟩ := Prog.path_call_ret_iff.mp hpath
      obtain rfl : shouldCalculate = settings.shouldCalculate := (List.forall_mem_cons.mp hshows').1
      cases hshould : settings.shouldCalculate with
      | false =>
        rw [hshould] at h₁
        obtain ⟨rfl, rfl⟩ := Prog.path_ret_ret_iff.mp h₁
        exact .nil _
      | true =>
        rw [hshould] at h₁
        obtain ⟨result, tr₂, tr₃, rfl, h₂, h₃⟩ := Prog.path_bind_ret h₁
        obtain ⟨rfl, rfl⟩ := Prog.path_ret_ret_iff.mp h₃
        rw [List.append_nil]
        have hall := (ofRest_path h₂).bind (f := fun result => .ret (withResult
          (fun result => responseEntity lib (some (.result result)) code) result)) (.nil _)
        rw [List.append_nil] at hall
        exact hall
    · rw [if_pos h200] at hpath ⊢
      obtain ⟨rfl, rfl⟩ := Prog.path_ret_ret_iff.mp hpath
      exact .nil _

theorem settled_calculateThenCheck
    (h : (Concurrent.calculateThenCheck lib calculate).Path tr (.ret outcome))
    (hshows : ∀ ev ∈ tr, Shows settings ev) :
    ∃ draw, Draws settings draw ∧
      (calculateThenCheck lib settings draw calculate).Path (restPart tr) (.ret outcome) := by
  obtain ⟨result, tr₁, tr₂, rfl, h₁, h₂⟩ := Prog.path_bind_ret h
  obtain ⟨-, hshows₂⟩ := List.forall_mem_append.mp hshows
  -- the calculation is over; what remains is to see what is made of its result
  have key : ∀ draw, withResult (checkResult lib settings draw) result = outcome →
      restPart tr₂ = [] →
      (calculateThenCheck lib settings draw calculate).Path (restPart (tr₁ ++ tr₂))
        (.ret outcome) := by
    intro draw hresult hrest
    rw [restPart_append, hrest]
    refine (ofRest_path h₁).bind ?_
    rw [hresult]
    exact .nil _
  cases result with
  | error e =>
    obtain ⟨rfl, rfl⟩ := Prog.path_ret_ret_iff.mp h₂
    exact ⟨0, id, key 0 rfl rfl⟩
  | ok result =>
    obtain ⟨draw, hdraw, hnext⟩ := settled_withResponseCode h₂ hshows₂
    refine ⟨draw, hdraw, ?_⟩
    cases hcode : currentResponseCode settings draw with
    | error e =>
      rw [hcode] at hnext
      obtain ⟨hrest, rfl⟩ := hnext
      refine key draw ?_ hrest
      rw [withResult, checkResult, hcode]
      rfl
    | ok code =>
      rw [hcode] at hnext
      obtain ⟨tr', hshows', hrest, hpath⟩ := hnext
      have hcheck : checkResult lib settings draw result
          = if code ≠ 200 then responseEntity lib none code
            else if !settings.shouldCalculate then responseEntity lib none code
            else (resultText result).bind fun body => responseEntity lib (some body) code := by
        rw [checkResult, hcode]
        rfl
      by_cases h200 : code = 200
      · rw [if_neg (not_not.mpr h200)] at hpath
        obtain ⟨shouldCalculate, tr₃, rfl, h₃⟩ := Prog.path_call_ret_iff.mp hpath
        obtain rfl : shouldCalculate = settings.shouldCalculate :=
          (List.forall_mem_cons.mp hshows').1
        rw [if_neg (not_not.mpr h200)] at hcheck
        cases hshould : settings.shouldCalculate with
        | false =>
          rw [hshould] at h₃ hcheck
          obtain ⟨rfl, rfl⟩ := Prog.path_ret_ret_iff.mp h₃
          exact key draw hcheck hrest
        | true =>
          rw [hshould] at h₃ hcheck
          cases htext : resultText result with
          | error e =>
            rw [htext] at h₃ hcheck
            obtain ⟨rfl, rfl⟩ := Prog.path_ret_ret_iff.mp h₃
            exact key draw hcheck hrest
          | ok body =>
            rw [htext] at h₃ hcheck
            obtain ⟨rfl, rfl⟩ := Prog.path_ret_ret_iff.mp h₃
            exact key draw hcheck hrest
      · rw [if_pos h200] at hpath hcheck
        obtain ⟨rfl, rfl⟩ := Prog.path_ret_ret_iff.mp hpath
        exact key draw hcheck hrest

theorem settled_getWorkloadByType {type : String}
    (h : (Concurrent.getWorkloadByType lib type).Path tr (.ret outcome))
    (hshows : ∀ ev ∈ tr, Shows settings ev) :
    ∃ draw, Draws settings draw ∧
      (getWorkloadByType lib settings draw type).Path (restPart tr) (.ret outcome) := by
  obtain ⟨draw, hdraw, hnext⟩ := settled_withResponseCode h hshows
  refine ⟨draw, hdraw, ?_⟩
  rw [getWorkloadByType]
  cases hcode : currentResponseCode settings draw with
  | error e =>
    rw [hcode] at hnext
    obtain ⟨hrest, rfl⟩ := hnext
    rw [hrest]
    exact .nil _
  | ok code =>
    rw [hcode] at hnext
    obtain ⟨tr', -, hrest, hpath⟩ := hnext
    rw [hrest]
    dsimp only at hpath ⊢
    split_ifs at hpath ⊢
    · obtain ⟨rfl, rfl⟩ := Prog.path_ret_ret_iff.mp hpath
      exact .nil _
    · cases htype : ECalculationType.valueOf (lib.toUpperCase type) with
      | none =>
        rw [htype] at hpath
        obtain ⟨rfl, rfl⟩ := Prog.path_ret_ret_iff.mp hpath
        exact .nil _
      | some type =>
        rw [htype] at hpath
        obtain ⟨workload, tr₁, rfl, h₁⟩ := Prog.path_call_ret_iff.mp hpath
        obtain ⟨rfl, rfl⟩ := Prog.path_ret_ret_iff.mp h₁
        exact .cons (show (RestOp.getEndpointWorkloadByType type).Ans from workload) (.nil _)

end Settled

variable {ι : Type} [DecidableEq ι] {wrap : ℤ → ℤ} {numThreads : ℕ} {lib : RestLibrary}
  {clients : ι → ServiceClient}
  {c : Pool ι ServiceState ServiceOp ServiceOp.Ans ServiceOutcome} {log : List (ServiceEntry ι)}
  {i : ι} {r : RestRequest} {outcome : ServiceOutcome}

/-- A step shows the settings before it. -/
theorem shows_of_serve {s s' : ServiceState} {op : ServiceOp} {a : op.Ans}
    (h : serviceServe wrap numThreads s op a s') : Shows s.settings ⟨op, a⟩ := by
  cases op with
  | timeout => exact h.1
  | responseCode => exact h.1
  | frequency => exact h.1
  | shouldCalculate => exact h.1
  | nextInt bound => exact h.1
  | setResponseCode responseCode => trivial
  | setTimeout timeout => trivial
  | setFrequency frequency => trivial
  | setShouldCalculate shouldCalculate => trivial
  | rest op => trivial

/-- **A request that finds the same settings at all its steps is the handler
with these settings**: whatever else runs, it has made the controller's calls
that the handler makes, and ends as it ends. -/
theorem settled_request
    (h : Pool.Run (serviceServe wrap numThreads) (serviceStart lib clients) log c)
    (hi : clients i = .request r) {settings : FaultSettings}
    (hsettled : ∀ e ∈ log, e.who = i → e.pre.settings = settings) (hret : c.prog i = .ret outcome) :
    ∃ draw, Draws settings draw ∧
      (r.handler lib settings draw).Path (restPart (proj i log)) (.ret outcome) := by
  have hpath : (r.concurrent lib).Path (proj i log) (.ret outcome) := by
    have hown : ((clients i).prog lib).Path (proj i log) (c.prog i) := h.path i
    rw [hi, hret] at hown
    exact hown
  have hshows : ∀ ev ∈ proj i log, Shows settings ev := by
    intro ev hev
    obtain ⟨e, he, hwho, rfl⟩ := mem_proj.mp hev
    rw [← hsettled e he hwho]
    exact shows_of_serve (h.serves e he)
  cases r with
  | add x y => exact settled_checkThenCalculate hpath hshows
  | multiply x y => exact settled_checkThenCalculate hpath hshows
  | prime n => exact settled_calculateThenCheck hpath hshows
  | fibonacci n => exact settled_calculateThenCheck hpath hshows
  | getWorkloadByType type => exact settled_getWorkloadByType hpath hshows

/-- A call of `/fault`, and two requests beside it. -/
def faultAndRequests : Fin 3 → ServiceClient
  | 0 => .fault ⟨0, 503, 1, false⟩
  | 1 => .request (.add ⟨1, 0⟩ ⟨2, 0⟩)
  | 2 => .request (.multiply ⟨1, 0⟩ ⟨2, 0⟩)

/-- The multiplication has begun before the call, the addition begins after
it. -/
theorem settled_request_add :
    ∃ (log : List (ServiceEntry (Fin 3)))
      (c : Pool (Fin 3) ServiceState ServiceOp ServiceOp.Ans ServiceOutcome),
      Pool.Run (serviceServe id 1) (serviceStart ⟨fun _ => true, id⟩ faultAndRequests) log c ∧
      log.map Entry.who = [2, 0, 0, 0, 0, 1, 1, 2, 1, 1, 1, 1] ∧
      c.prog 1 = .ret (.ok ⟨none, 503⟩) ∧
      ∃ draw, Draws ⟨some 0, 503, 1, false⟩ draw ∧
        ((RestRequest.add ⟨1, 0⟩ ⟨2, 0⟩).handler ⟨fun _ => true, id⟩ ⟨some 0, 503, 1, false⟩
          draw).Path (restPart (proj 1 log)) (.ret (.ok ⟨none, 503⟩)) := by
  let start : ServiceState := ⟨.initial, fun _ => 0⟩
  let faulted : ServiceState := ⟨⟨some 0, 503, 1, false⟩, fun _ => 0⟩
  have hbegun : serviceServe id 1 start .timeout none start := ⟨rfl, rfl⟩
  have hlast : serviceServe id 1 ⟨⟨some 0, 503, 1, true⟩, fun _ => 0⟩
      (.setShouldCalculate false) () faulted := rfl
  have htimeout : serviceServe id 1 faulted .timeout (some (0 : ℤ)) faulted := ⟨rfl, rfl⟩
  have hfrequency : serviceServe id 1 faulted .frequency (1 : ℤ) faulted := ⟨rfl, rfl⟩
  have hdraw : serviceServe id 1 faulted (.nextInt 1) (.ok 0) faulted :=
    ⟨⟨0, Int.one_pos, rfl⟩, rfl⟩
  have hcode : serviceServe id 1 faulted .responseCode (503 : ℤ) faulted := ⟨rfl, rfl⟩
  -- one request begins, and the settings change
  have hfault := (((((Pool.Run.refl : Pool.Run (serviceServe id 1)
    (serviceStart ⟨fun _ => true, id⟩ faultAndRequests) _ _).tail (.mk 2 _ rfl hbegun)).tail
      (.mk 0 () rfl rfl)).tail (.mk 0 () rfl rfl)).tail (.mk 0 () rfl rfl)).tail
        (.mk 0 () rfl hlast)
  -- the other one runs, and the first goes on
  have hslept := ((hfault.tail (.mk 1 _ rfl htimeout)).tail (.mk 1 _ rfl htimeout)).tail
    (.mk 2 _ rfl hfrequency)
  have hrun := (((hslept.tail (.mk 1 _ rfl hfrequency)).tail (.mk 1 _ rfl hfrequency)).tail
    (.mk 1 _ rfl hdraw)).tail (.mk 1 _ rfl hcode)
  refine ⟨_, _, hrun, rfl, rfl, settled_request hrun rfl ?_ rfl⟩
  simp [faulted]

end ResilientMesh
