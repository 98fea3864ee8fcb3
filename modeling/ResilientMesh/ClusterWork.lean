/-
ResilientMesh/ClusterWork.lean

The work of the calculation service.  A calculation begins with the increment of
its counter, and what the control-center's clients make it begin they have paid
for; the requests that are sent to it directly are not paid for by anyone.

Main results, for every interleaving of the cluster: no more calculations have
begun for the clients of the mesh than charges of theirs were acknowledged, and
every counter lies between 0 and these charges and the direct requests
(`paid_work`); so does what the analytics service makes its estimate of
(`estimate_bounded`).
-/
import ResilientMesh.Cluster
import ResilientMesh.FaultToggles
import ResilientMesh.Analytics

namespace ResilientMesh

/-! ### Events -/

/-- A charge that was acknowledged. -/
def acknowledgedCharge : ClusterEvent → Bool
  | ⟨.billing .post .chargeAccount _, .ok response⟩ => response.status == 200
  | _ => false

/-- The increment of the counter of a type. -/
def enters (t : ECalculationType) : ClusterEvent → Bool
  | ⟨.service (.rest (.controller op)), a⟩ => isIncrement t ⟨op, a⟩
  | _ => false

/-- The decrement of the counter of a type. -/
def leaves (t : ECalculationType) : ClusterEvent → Bool
  | ⟨.service (.rest (.controller op)), a⟩ => isDecrement t ⟨op, a⟩
  | _ => false

/-- The increment of any counter. -/
def begins : ClusterEvent → Bool
  | ⟨.service (.rest (.controller (.incrementAndGet _))), _⟩ => true
  | _ => false

theorem begins_of_enters {t : ECalculationType} {ev : ClusterEvent} (h : enters t ev) :
    begins ev := by
  unfold enters at h
  split at h
  · rename_i op a
    cases op with
    | incrementAndGet type => rfl
    | decrementAndGet type => cases h
    | compute calculation => cases h
  · cases h

/-- The step of a calculation. -/
def ServiceOp.Calculates : ServiceOp → Prop
  | rest (.controller _) => True
  | _ => False

/-! ### One request -/

section Request

variable {lib : RestLibrary} {D D' : ServiceEvent → Bool} {n : ℕ}

theorem covered_orThrow {α : Type} {p : ServiceProg (Except RestException α)}
    {next : α → ServiceProg ServiceOutcome} (hp : p.Covered D D' 0)
    (hnext : ∀ a, (next a).Covered D D' n) : (orThrow p next).Covered D D' n := by
  rw [← Nat.zero_add n]
  refine hp.bind ?_
  rintro (e | a)
  · exact .ret n _
  · exact hnext a

variable (hD : ∀ ev : ServiceEvent, ¬ ev.op.Calculates → D ev = false)

include hD

theorem covered_withResponseCode {next : ℤ → ServiceProg ServiceOutcome}
    (hnext : ∀ code, (next code).Covered D D' n) :
    (Concurrent.withResponseCode next).Covered D D' n := by
  have hasks : ∀ op : ServiceOp, op.Asks → ¬ op.Calculates := by
    intro op hop hcalc
    cases op <;> first | exact hop | exact hcalc
  exact covered_orThrow ((only_sleep hasks).covered hD) fun _ =>
    covered_orThrow ((only_getResponseCode hasks).covered hD) hnext

/-- A step that is no calculation. -/
theorem covered_call {op : ServiceOp} {next : op.Ans → ServiceProg ServiceOutcome}
    (hop : ¬ op.Calculates) (hnext : ∀ a, (next a).Covered D D' n) :
    (Prog.call op next : ServiceProg ServiceOutcome).Covered D D' n := by
  refine .call (fun _ => n) ?_ hnext
  intro a
  rw [hD ⟨op, a⟩ hop]
  exact Nat.le_add_right n _

theorem covered_getWorkloadByType (type : String) :
    (Concurrent.getWorkloadByType lib type).Covered D D' n := by
  refine covered_withResponseCode hD fun code => ?_
  split_ifs
  · exact .ret n _
  · cases ECalculationType.valueOf (lib.toUpperCase type) with
    | none => exact .ret n _
    | some type => exact covered_call hD id fun _ => .ret n _

/-- **What a request counts its calculation counts.** -/
theorem covered_concurrent
    (hcalc : ∀ request : CalculationRequest, (ofRest (ofController request.prog)).Covered D D' n)
    (r : RestRequest) : (r.concurrent lib).Covered D D' n := by
  have hcheckFirst : ∀ {calculate : WorkloadProg},
      (ofRest (ofController calculate)).Covered D D' n →
      (Concurrent.checkThenCalculate lib calculate).Covered D D' n := by
    intro calculate hcalculate
    refine covered_withResponseCode hD fun code => ?_
    split_ifs
    · exact .ret n _
    · refine covered_call hD id fun shouldCalculate => ?_
      split_ifs
      · exact .ret n _
      · exact hcalculate.bind fun _ => .ret 0 _
  have hcheckLast : ∀ {calculate : WorkloadProg}, (ofRest (ofController calculate)).Covered D D' n →
      (Concurrent.calculateThenCheck lib calculate).Covered D D' n := by
    intro calculate hcalculate
    refine Prog.Covered.bind (n := 0) hcalculate ?_
    rintro (e | result)
    · exact .ret 0 _
    refine covered_withResponseCode hD fun code => ?_
    split_ifs
    · exact .ret 0 _
    · refine covered_call hD id fun shouldCalculate => ?_
      split_ifs
      · exact .ret 0 _
      · cases resultText result <;> exact .ret 0 _
  cases r with
  | add x y => exact hcheckFirst (hcalc (.add x y))
  | multiply x y => exact hcheckFirst (hcalc (.multiply x y))
  | prime k => exact hcheckLast (hcalc (.calculatePrime k))
  | fibonacci k => exact hcheckLast (hcalc (.calculateFibonacci k))
  | getWorkloadByType type => exact covered_getWorkloadByType hD type

end Request

/-! ### One calculation -/

section Calculation

variable {D D' : ServiceEvent → Bool} {n : ℕ}

/-- What is counted of a calculation it counts as it enters and as it leaves. -/
structure CountsSteps (D D' : ServiceEvent → Bool) (n : ℕ) : Prop where
  compute : ∀ calculation a, D ⟨.rest (.controller (.compute calculation)), a⟩ = false
  steps : ∀ type, ∃ left,
    left + (D ⟨.rest (.controller (.incrementAndGet type)), ()⟩).toNat
        ≤ n + (D' ⟨.rest (.controller (.incrementAndGet type)), ()⟩).toNat ∧
      (D ⟨.rest (.controller (.decrementAndGet type)), ()⟩).toNat
        ≤ left + (D' ⟨.rest (.controller (.decrementAndGet type)), ()⟩).toNat

theorem covered_enterAndLeave (h : CountsSteps D D' n) (type : ECalculationType)
    (calculation : Calculation) :
    (ofRest (ofController (enterAndLeave type calculation))).Covered D D' n := by
  obtain ⟨left, henter, hleave⟩ := h.steps type
  apply Prog.Covered.call (fun _ => left) fun _ => henter
  intro _
  apply Prog.Covered.call fun _ => left
  · intro result
    rw [h.compute calculation result]
    exact Nat.le_add_right left _
  · rintro (e | result)
    · exact .ret left _
    · apply Prog.Covered.call (fun _ => 0)
      · intro _
        rw [Nat.zero_add]
        exact hleave
      · exact fun _ => .ret 0 _

theorem covered_calculation (h : CountsSteps D D' n) (request : CalculationRequest) :
    (ofRest (ofController request.prog)).Covered D D' n := by
  cases request with
  | add x y => exact covered_enterAndLeave h .add (.add x y)
  | multiply x y => exact covered_enterAndLeave h .multiply (.multiply x y)
  | calculatePrime k => exact covered_enterAndLeave h .prime (.prime k)
  | calculateFibonacci k =>
    by_cases hk : k < 7
    · -- it returns without a decrement
      obtain ⟨left, henter, -⟩ := h.steps .fibonacci
      rw [CalculationRequest.prog, Controller.calculateFibonacci, if_pos hk]
      exact .call (fun _ => left) (fun _ => henter) fun _ => .ret left _
    · rw [CalculationRequest.prog, calculateFibonacci_eq_enterAndLeave hk]
      exact covered_enterAndLeave h .fibonacci (.fibonacci k)

end Calculation

/-! ### One client -/

/-- The events of the calculation service, as events of the cluster. -/
def inService (D : ClusterEvent → Bool) : ServiceEvent → Bool :=
  fun ev => D ⟨.service ev.op, ev.ans⟩

variable {spring : Spring} {lib : RestLibrary} {D D' : ClusterEvent → Bool} {n : ℕ}

theorem covered_ofService {α : Type} {p : ServiceProg α}
    (h : p.Covered (inService D) (inService D') n) : (ofService p).Covered D D' n := by
  induction h with
  | ret n a => exact .ret n a
  | call left hleft _ ih => exact .call left hleft ih

/-- What is counted is steps of a calculation. -/
structure CountsCalculation (D D' : ClusterEvent → Bool) (n : ℕ) : Prop where
  others : ∀ ev : ClusterEvent, (∀ op, ev.op = .service op → ¬ op.Calculates) → D ev = false
  steps : CountsSteps (inService D) (inService D') n

theorem CountsCalculation.quiet (h : CountsCalculation D D' n) (ev : ServiceEvent)
    (hev : ¬ ev.op.Calculates) : inService D ev = false := by
  apply h.others
  intro op hop
  obtain rfl : ev.op = op := ClusterOp.service.inj hop
  exact hev

theorem CountsCalculation.request (h : CountsCalculation D D' n) (r : RestRequest) :
    (ofService (r.concurrent lib)).Covered D D' n :=
  covered_ofService (covered_concurrent h.quiet (covered_calculation h.steps) r)

/-- A step that is none of the calculation service. -/
theorem CountsCalculation.call (h : CountsCalculation D D' n) {α : Type} {op : ClusterOp}
    {next : op.Ans → ClusterProg α} {m : ℕ} (hop : ∀ op', op ≠ .service op')
    (hnext : ∀ a, (next a).Covered D D' m) :
    (Prog.call op next : ClusterProg α).Covered D D' m := by
  refine .call (fun _ => m) ?_ hnext
  intro a
  rw [h.others ⟨op, a⟩ fun op' hop' => absurd hop' (hop op')]
  exact Nat.le_add_right m _

theorem CountsCalculation.callService (h : CountsCalculation D D' n) (url : String)
    (data : Option (List (String × String))) :
    (callService spring lib url data).Covered D D' n := by
  refine h.call (fun op => nofun) ?_
  rintro (_ | failure)
  · refine Prog.Covered.bind (n := 0) ?_ fun response => h.call (fun op => nofun) fun _ => .ret 0 _
    rw [serveRequest]
    cases spring.read url data with
    | none => exact .ret n _
    | some r => exact (h.request r).bind fun _ => .ret 0 _
  · exact .ret n _

theorem CountsCalculation.fault (h : CountsCalculation D D' n) (call : FaultCall) (m : ℕ) :
    (ofService (Concurrent.fault call)).Covered D D' m := by
  have honly := @only_prog ⟨fun _ => true, id⟩ (.fault call)
  refine covered_ofService (honly.covered ?_)
  rintro ⟨op, a⟩ hdoes
  apply h.quiet
  intro hcalc
  cases op <;> first | exact hcalc | exact hdoes

theorem CountsCalculation.getWorkloadByType (h : CountsCalculation D D' n) (type : String) (m : ℕ) :
    (ofService (Concurrent.getWorkloadByType lib type)).Covered D D' m :=
  covered_ofService (covered_getWorkloadByType h.quiet type)

theorem CountsCalculation.service (h : CountsCalculation D D' n) (client : ServiceClient) :
    ((ClusterClient.service client).prog spring lib).Covered D D' n := by
  refine Prog.Covered.bind (n := 0) ?_ fun outcome => .ret 0 _
  cases client with
  | request r => exact h.request r
  | fault call => exact h.fault call n

theorem CountsCalculation.mesh (h : CountsCalculation D D' 0) (client : Client) :
    ((ClusterClient.mesh client).prog spring lib).Covered D D' 0 := by
  refine Prog.Covered.inline ?_ _ _
  intro posted op
  cases op with
  | billing method route query => exact h.call (fun op => nofun) fun _ => .ret 0 _
  | postCalculation url data => exact h.call (fun op => nofun) fun _ => .ret 0 _
  | awaitCalculation =>
    cases posted with
    | none => exact h.call (fun op => nofun) fun _ => .ret 0 _
    | some request => exact h.callService request.1 request.2

theorem countsCalculation_leaves (t : ECalculationType) :
    CountsCalculation (leaves t) (enters t) 0 where
  others := by
    intro ev hev
    unfold leaves
    split
    · rename_i op a
      exact absurd trivial (hev _ rfl)
    · rfl
  steps := by
    constructor
    · intro calculation a
      rfl
    · intro type
      -- what has entered may leave
      refine ⟨(decide (type = t)).toNat, ?_, ?_⟩
      · show _ + (false : Bool).toNat ≤ 0 + (decide (type = t)).toNat
        simp
      · show (decide (type = t)).toNat ≤ _ + (false : Bool).toNat
        simp

theorem countsCalculation_begins : CountsCalculation begins (fun _ => false) 1 where
  others := by
    intro ev hev
    unfold begins
    split
    · exact absurd trivial (hev _ rfl)
    · rfl
  steps := by
    constructor
    · intro calculation a
      rfl
    · intro type
      exact ⟨0, le_rfl, le_rfl⟩

/-! ### Paid work -/

/-- No client of the mesh calls for more calculations than it has paid for. -/
theorem client_paid {client : Client} {tr : List UpstreamEvent} {q : ControlProg Response}
    (h : client.prog.Path tr q) : tr.countP isCalculation ≤ tr.countP isPaid := by
  cases client with
  | billing method route query =>
    rw [billing_path h]
    exact Nat.zero_le _
  | calculate2 body =>
    obtain ⟨q', hpath, -⟩ := answered_path h
    exact (calculateWith_path hpath).calculation_le
  | ingress body => exact (withRetries_path h).calculation_le

theorem callService_begins {url : String} {data : Option (List (String × String))}
    {tr : List ClusterEvent} {q : ClusterProg (Except PyError Response)}
    (h : (callService spring lib url data).Path tr q) :
    tr.countP begins ≤ 1 ∧ tr.countP acknowledgedCharge = 0 := by
  constructor
  · have hcovered := (countsCalculation_begins.callService url data).path h
    simpa using hcovered
  · rw [List.countP_eq_zero]
    intro ev hev
    have hoff := (only_callService url data).path h ev hev
    unfold acknowledgedCharge
    split
    · exact absurd hoff id
    · exact Bool.false_ne_true

theorem acknowledgedCharge_billing (method : Method) (route : BillingRoute) (query : String)
    (a : Except PyError Response) :
    acknowledgedCharge ⟨.billing method route query, a⟩
      = isPaid ⟨.billing method route query, a⟩ := by
  cases method <;> cases route <;> cases a <;> rfl

/-- **What is posted begins at most once**, when its answer is waited for. -/
theorem inlined_begins {posted : Posted} {tr : List UpstreamEvent} {tr' : List ClusterEvent}
    (h : Prog.Inlined (upstreamCalls spring lib) posted tr tr') :
    tr'.countP begins ≤ tr.countP isCalculation + posted.isSome.toNat ∧
      tr'.countP acknowledgedCharge = tr.countP isPaid := by
  induction h with
  | nil posted => exact ⟨Nat.zero_le _, rfl⟩
  | @inside posted op tr' q hpath hnot =>
    cases op with
    | billing method route query =>
      rcases Prog.path_single hpath with ⟨rfl, -⟩ | ⟨a, -, rfl⟩
      · exact ⟨Nat.zero_le _, rfl⟩
      · exact absurd trivial hnot
    | postCalculation url data =>
      rcases Prog.path_single hpath with ⟨rfl, -⟩ | ⟨a, -, rfl⟩
      · exact ⟨Nat.zero_le _, rfl⟩
      · exact absurd trivial hnot
    | awaitCalculation =>
      cases posted with
      | none =>
        rcases Prog.path_call_iff.mp hpath with ⟨rfl, -⟩ | ⟨a, tr₁, rfl, hrest⟩
        · exact ⟨Nat.zero_le _, rfl⟩
        · obtain ⟨rfl, -⟩ := Prog.path_ret_iff.mp hrest
          exact ⟨le_rfl, rfl⟩
      | some request =>
        obtain ⟨hbegins, hcharges⟩ := callService_begins hpath
        exact ⟨hbegins, hcharges⟩
  | @call posted op a tr tr₁ tr₂ hpath _ ih =>
    obtain ⟨hbegins, hcharges⟩ := ih
    rw [List.countP_append, List.countP_append, hcharges]
    cases op with
    | billing method route query =>
      rcases Prog.path_single hpath with ⟨-, hnot⟩ | ⟨b, rfl, hret⟩
      · exact absurd trivial hnot
      · cases hret
        rw [List.countP_singleton, List.countP_singleton, acknowledgedCharge_billing,
          List.countP_cons, List.countP_cons]
        refine ⟨?_, Nat.add_comm _ _⟩
        show 0 + tr₂.countP begins ≤ tr.countP isCalculation + 0 + posted.isSome.toNat
        rw [Nat.zero_add]
        exact hbegins
    | postCalculation url data =>
      rcases Prog.path_single hpath with ⟨-, hnot⟩ | ⟨b, rfl, hret⟩
      · exact absurd trivial hnot
      · -- from now on there is something to begin
        have hrest : tr₂.countP begins ≤ tr.countP isCalculation + 1 := hbegins
        constructor
        · show 0 + tr₂.countP begins ≤ (_ :: tr).countP isCalculation + posted.isSome.toNat
          rw [Nat.zero_add, List.countP_cons_of_pos rfl]
          exact hrest.trans (Nat.le_add_right _ _)
        · exact Nat.zero_add _
    | awaitCalculation =>
      have hrest : tr₂.countP begins ≤ tr.countP isCalculation := hbegins
      have hnone : ¬ isCalculation ⟨.awaitCalculation, a⟩ := Bool.false_ne_true
      have hunpaid : ¬ isPaid ⟨.awaitCalculation, a⟩ := Bool.false_ne_true
      rw [List.countP_cons_of_neg hnone, List.countP_cons_of_neg hunpaid]
      cases posted with
      | none =>
        rcases Prog.path_call_iff.mp hpath with ⟨-, hret⟩ | ⟨failure, tr₃, rfl, hpath'⟩
        · cases hret
        · obtain ⟨rfl, -⟩ := Prog.path_ret_iff.mp hpath'
          refine ⟨?_, Nat.zero_add _⟩
          show 0 + tr₂.countP begins ≤ _
          rw [Nat.zero_add]
          exact hrest
      | some request =>
        obtain ⟨hfirst, hcharge⟩ := callService_begins hpath
        rw [hcharge, Nat.zero_add]
        refine ⟨?_, rfl⟩
        show _ ≤ tr.countP isCalculation + 1
        omega

/-! ### Every interleaving -/

variable {ι : Type} [DecidableEq ι] {wrap : ℤ → ℤ} {numThreads : ℕ} {users : Users}
  {clients : ι → ClusterClient} {c : Pool ι ClusterState ClusterOp ClusterOp.Ans Response}
  {log : List (ClusterEntry ι)}

/-- The client asks the calculation service itself, and to calculate. -/
def ClusterClient.asksDirectly : ClusterClient → Bool
  | service (.request (.getWorkloadByType _)) => false
  | service (.request _) => true
  | _ => false

/-- How many have asked the calculation service themselves. -/
def directRequests (clients : ι → ClusterClient) (log : List (ClusterEntry ι)) : ℕ :=
  ((Pool.ids log).filter fun i => (clients i).asksDirectly).card

/-- How many charges were acknowledged. -/
def acknowledgedCharges (log : List (ClusterEntry ι)) : ℕ :=
  log.countP fun e => acknowledgedCharge e.event

/-- What one client has begun, it has paid for or asked for directly. -/
theorem cluster_client_begins
    (h : Pool.Run (clusterServe wrap numThreads) (clusterStart spring lib users clients) log c)
    (i : ι) :
    (proj i log).countP begins
      ≤ (proj i log).countP acknowledgedCharge + (clients i).asksDirectly.toNat := by
  have hpath : ((clients i).prog spring lib).Path (proj i log) (c.prog i) := h.path i
  cases hc : clients i with
  | mesh client =>
    rw [hc] at hpath
    obtain ⟨tr, q, hclient, hinlined, -⟩ := Prog.inline_path hpath
    obtain ⟨hbegins, hcharges⟩ := inlined_begins hinlined
    rw [hcharges]
    exact hbegins.trans (Nat.add_le_add_right (client_paid hclient) _)
  | service client =>
    rw [hc] at hpath
    cases client with
    | request r =>
      have hcovered := (countsCalculation_begins.service (.request r)).path hpath
      have hone : (proj i log).countP begins ≤ 1 := by simpa using hcovered
      cases r with
      | getWorkloadByType type =>
        have hquiet : ((ClusterClient.service (.request (.getWorkloadByType type))).prog spring
            lib).Covered begins (fun _ => false) 0 :=
          (countsCalculation_begins.getWorkloadByType type 0).bind fun _ => .ret 0 _
        have hnone : (proj i log).countP begins ≤ 0 := by simpa using hquiet.path hpath
        exact hnone.trans (Nat.zero_le _)
      | _ => exact hone.trans (Nat.le_add_left 1 _)
    | fault call =>
      have hquiet : ((ClusterClient.service (.fault call)).prog spring lib).Covered begins
          (fun _ => false) 0 :=
        (countsCalculation_begins.fault call 0).bind fun _ => .ret 0 _
      have hnone : (proj i log).countP begins ≤ 0 := by simpa using hquiet.path hpath
      exact hnone.trans (Nat.zero_le _)

theorem countP_single {α : Type} (D : α → Bool) (x : α) : [x].countP D = (D x).toNat := by
  rw [List.countP_singleton]
  cases D x <;> rfl

/-- The settings are read and written beside the counters. -/
theorem serviceServe_settings {s s' : ServiceState} {op : ServiceOp} {a : op.Ans}
    (h : serviceServe wrap numThreads s op a s') (hop : ∀ op', op ≠ .rest op') :
    s'.workload = s.workload := by
  cases op with
  | timeout => exact congrArg ServiceState.workload h.2
  | responseCode => exact congrArg ServiceState.workload h.2
  | frequency => exact congrArg ServiceState.workload h.2
  | shouldCalculate => exact congrArg ServiceState.workload h.2
  | nextInt bound => exact congrArg ServiceState.workload h.2
  | setResponseCode code =>
    change s' = _ at h
    rw [h]
  | setTimeout timeout =>
    change s' = _ at h
    rw [h]
  | setFrequency frequency =>
    change s' = _ at h
    rw [h]
  | setShouldCalculate shouldCalculate =>
    change s' = _ at h
    rw [h]
  | rest op => exact absurd rfl (hop op)

/-- One step adds to a counter what its call says. -/
theorem clusterServe_counter {s s' : ClusterState} {op : ClusterOp} {a : op.Ans}
    (h : clusterServe wrap numThreads s op a s') (t : ECalculationType) :
    s'.service.workload t + (leaves t ⟨op, a⟩).toNat
      = s.service.workload t + (enters t ⟨op, a⟩).toNat := by
  have hsame : s'.service.workload = s.service.workload →
      s'.service.workload t + (false : Bool).toNat
        = s.service.workload t + (false : Bool).toNat := by
    intro hworkload
    rw [hworkload]
  cases op with
  | billing method route query => exact hsame (congrArg ServiceState.workload h.2)
  | post url data => exact hsame (congrArg (fun s => s.service.workload) (show s' = s from h))
  | network => exact hsame (congrArg (fun s => s.service.workload) h.2)
  | service op =>
    obtain ⟨hserve, -⟩ := h
    cases op with
    | rest op =>
      obtain ⟨hserve, -⟩ := hserve
      cases op with
      | controller op =>
        have hstep := workloadServe_step hserve t
        cases hleave : isDecrement t ⟨op, a⟩ <;> cases henter : isIncrement t ⟨op, a⟩ <;>
          simpa [leaves, enters, hleave, henter] using hstep
      | getEndpointWorkloadByType type => exact hsame hserve.2
    | _ => exact hsame (serviceServe_settings hserve nofun)

theorem counter_eq
    (h : Pool.Run (clusterServe wrap numThreads) (clusterStart spring lib users clients) log c)
    (t : ECalculationType) :
    c.state.service.workload t + (log.countP fun e => leaves t e.event : ℕ)
      = (log.countP fun e => enters t e.event : ℕ) := by
  induction h with
  | refl => rfl
  | @tail log c c' e _ hstep ih =>
    cases hstep with
    | @mk i op next a s _ hserve =>
      have hstep := clusterServe_counter hserve t
      have hleave : (([⟨i, op, a, c.state, s⟩] : List (ClusterEntry ι)).countP
          fun e => leaves t e.event) = (leaves t ⟨op, a⟩).toNat := by
        exact countP_single _ _
      have henter : (([⟨i, op, a, c.state, s⟩] : List (ClusterEntry ι)).countP
          fun e => enters t e.event) = (enters t ⟨op, a⟩).toNat := by
        exact countP_single _ _
      rw [List.countP_append, List.countP_append, hleave, henter, Pool.resume_state]
      push_cast
      linarith

/-- What has left a counter has entered it. -/
theorem leaves_le_enters
    (h : Pool.Run (clusterServe wrap numThreads) (clusterStart spring lib users clients) log c)
    (t : ECalculationType) :
    (log.countP fun e => leaves t e.event) ≤ log.countP fun e => enters t e.event := by
  refine Pool.countP_log_le (fun _ => leaves t) (fun _ => enters t) log ?_
  intro i
  have hpath : ((clients i).prog spring lib).Path (proj i log) (c.prog i) := h.path i
  have hcovered : ((clients i).prog spring lib).Covered (leaves t) (enters t) 0 := by
    cases clients i with
    | mesh client => exact (countsCalculation_leaves t).mesh client
    | service client => exact (countsCalculation_leaves t).service client
  exact hcovered.path hpath

/-- All that has begun was paid for, or asked for directly. -/
theorem begins_le
    (h : Pool.Run (clusterServe wrap numThreads) (clusterStart spring lib users clients) log c) :
    (log.countP fun e => begins e.event)
      ≤ acknowledgedCharges log + directRequests clients log := by
  have hclients := Finset.sum_le_sum fun i (_ : i ∈ Pool.ids log) => cluster_client_begins h i
  rw [Finset.sum_add_distrib, ← Pool.countP_log (fun _ => begins) log _ subset_rfl,
    ← Pool.countP_log (fun _ => acknowledgedCharge) log _ subset_rfl] at hclients
  have hdirect : ∑ i ∈ Pool.ids log, (clients i).asksDirectly.toNat
      = directRequests clients log := by
    rw [directRequests, Finset.card_filter]
    refine Finset.sum_congr rfl ?_
    intro i _
    cases (clients i).asksDirectly <;> rfl
  rw [hdirect] at hclients
  exact hclients

theorem counter_bounds
    (h : Pool.Run (clusterServe wrap numThreads) (clusterStart spring lib users clients) log c)
    (t : ECalculationType) :
    0 ≤ c.state.service.workload t ∧
      c.state.service.workload t ≤ (acknowledgedCharges log + directRequests clients log : ℕ) := by
  have hcount := counter_eq h t
  have hleaves := leaves_le_enters h t
  have henters : (log.countP fun e => enters t e.event) ≤ log.countP fun e => begins e.event :=
    List.countP_mono_left fun e _ => begins_of_enters
  have hbegins := begins_le h
  omega

/-- **No work that is not paid or asked for directly**: in every interleaving,
no client of the mesh has made more calculations begin than charges of its own
were acknowledged, and every counter lies between 0 and all acknowledged charges
and direct requests. -/
theorem paid_work
    (h : Pool.Run (clusterServe wrap numThreads) (clusterStart spring lib users clients) log c) :
    (∀ i, (clients i).asksDirectly = false →
        (proj i log).countP begins ≤ (proj i log).countP acknowledgedCharge) ∧
      ∀ t, 0 ≤ c.state.service.workload t ∧
        c.state.service.workload t
          ≤ (acknowledgedCharges log + directRequests clients log : ℕ) := by
  constructor
  · intro i hdirect
    have hclient := cluster_client_begins h i
    rw [hdirect] at hclient
    exact hclient
  · exact counter_bounds h

/-! ### Estimates -/

/-- A step of the calculation service, in the cluster. -/
def ServiceEvent.inCluster (ev : ServiceEvent) : ClusterEvent := ⟨.service ev.op, ev.ans⟩

theorem ofService_path {α : Type} {p : ServiceProg α} {tr : List ClusterEvent} {a : α}
    (h : (ofService p).Path tr (.ret a)) :
    ∃ tr', p.Path tr' (.ret a) ∧ tr = tr'.map ServiceEvent.inCluster := by
  induction p generalizing tr with
  | ret b =>
    obtain ⟨rfl, rfl⟩ := Prog.path_ret_ret_iff.mp h
    exact ⟨[], .nil _, rfl⟩
  | call op next ih =>
    obtain ⟨answer, tr₁, rfl, hrest⟩ := Prog.path_call_ret_iff.mp h
    obtain ⟨tr', hpath, rfl⟩ := ih answer hrest
    have hcons : (Prog.call op next).Path (⟨op, answer⟩ :: tr') (.ret a) :=
      .cons (show op.Ans from answer) hpath
    exact ⟨_, hcons, rfl⟩

theorem eq_of_responseEntity {body : Option RestBody} {code : ℤ} {entity : ResponseEntity}
    (h : responseEntity lib body code = .ok entity) : entity = ⟨body, code⟩ := by
  rw [responseEntity] at h
  split_ifs at h
  cases h
  rfl

/-- A request that gets past the settings has a code. -/
theorem withResponseCode_ok {next : ℤ → ServiceProg ServiceOutcome} {tr : List ServiceEvent}
    {entity : ResponseEntity}
    (h : (Concurrent.withResponseCode next).Path tr (.ret (.ok entity))) :
    ∃ code pre tr', tr = pre ++ tr' ∧ (next code).Path tr' (.ret (.ok entity)) := by
  obtain ⟨slept, tr₁, tr₂, rfl, -, h₂⟩ := orThrow_path h
  cases slept with
  | error e => cases h₂.2
  | ok _ =>
    obtain ⟨code, tr₃, tr₄, rfl, -, h₄⟩ := orThrow_path h₂
    cases code with
    | error e => cases h₄.2
    | ok code =>
      exact ⟨code, tr₁ ++ tr₃, tr₄, (List.append_assoc ..).symm, h₄⟩

/-- A 200 has a counter that was read. -/
theorem getWorkloadByType_read {type : String} {tr : List ServiceEvent} {entity : ResponseEntity}
    (h : (Concurrent.getWorkloadByType lib type).Path tr (.ret (.ok entity)))
    (h200 : entity.status = 200) :
    ∃ (t : ECalculationType) (workload : ℤ),
      ⟨.rest (.getEndpointWorkloadByType t), workload⟩ ∈ tr ∧
        entity.body = some (.workload workload) := by
  obtain ⟨code, pre, tr', rfl, hpath⟩ := withResponseCode_ok h
  split_ifs at hpath with hcode
  · obtain ⟨-, hret⟩ := Prog.path_ret_ret_iff.mp hpath
    rw [eq_of_responseEntity hret.symm] at h200
    exact absurd h200 hcode
  · cases hvalue : ECalculationType.valueOf (lib.toUpperCase type) with
    | none =>
      rw [hvalue] at hpath
      obtain ⟨-, hret⟩ := Prog.path_ret_ret_iff.mp hpath
      cases hret
    | some t =>
      rw [hvalue] at hpath
      obtain ⟨workload, tr₁, rfl, hrest⟩ := Prog.path_call_ret_iff.mp hpath
      obtain ⟨-, hret⟩ := Prog.path_ret_ret_iff.mp hrest
      refine ⟨t, workload, List.mem_append_right _ List.mem_cons_self, ?_⟩
      rw [eq_of_responseEntity hret.symm]

/-- What was acknowledged, and who has asked, only grows. -/
theorem bounds_mono (clients : ι → ClusterClient) (l₁ l₂ : List (ClusterEntry ι)) :
    acknowledgedCharges l₁ + directRequests clients l₁
      ≤ acknowledgedCharges (l₁ ++ l₂) + directRequests clients (l₁ ++ l₂) := by
  refine Nat.add_le_add ?_ (Finset.card_le_card (Finset.filter_subset_filter _ ?_))
  · rw [acknowledgedCharges, acknowledgedCharges, List.countP_append]
    exact Nat.le_add_right _ _
  · intro i hi
    obtain ⟨e, he, hwho⟩ := Pool.mem_ids.mp hi
    exact Pool.mem_ids.mpr ⟨e, List.mem_append_left _ he, hwho⟩

variable {F : Type}

/-- A number that is too long to be read is too large for a float. -/
theorem floatOverflows_of_not_fits {k : ℕ} (h : ¬FitsDigits k) :
    floatOverflows (k * 3 + 10) = true := by
  have hlarge : 10 ^ maxStrDigits ≤ k := not_lt.mp h
  have hpow : ∀ m, m ≤ maxStrDigits → 2 ^ m ≤ 10 ^ maxStrDigits := fun m hm =>
    (Nat.pow_le_pow_left (by decide) m).trans (Nat.pow_le_pow_right (by decide) hm)
  have habs : ((k : ℤ) * 3 + 10).natAbs = k * 3 + 10 := by omega
  rw [floatOverflows, habs]
  apply decide_eq_true
  calc 2 ^ 1024 - 2 ^ 970
      ≤ 2 ^ 1024 := Nat.sub_le _ _
    _ ≤ k := (hpow 1024 (by decide)).trans hlarge
    _ ≤ k * 3 + 10 := by omega

/-- **What is estimated is bounded**: whoever asks for a workload and is
answered 200 is told a number between 0 and all acknowledged charges and direct
requests so far, and the analytics service makes its estimate of that number, if
a float can hold it. -/
theorem estimate_bounded
    (h : Pool.Run (clusterServe wrap numThreads) (clusterStart spring lib users clients) log c)
    {i : ι} {type : String} (hi : clients i = .service (.request (.getWorkloadByType type)))
    {response : Response} (hret : c.prog i = .ret response) (h200 : response.status = 200)
    (version : AnalyticsVersion) (floats : PyFloats F) (function : String) :
    ∃ workload : ℕ, workload ≤ acknowledgedCharges log + directRequests clients log ∧
      response.body = .text (toString (workload : ℤ)) ∧
      reported version floats function ⟨200, toString (workload : ℤ)⟩
        = if floatOverflows (workload * 3 + 10) then
            .error (if FitsDigits workload then .overflowError else .valueError)
          else .ok ⟨200, priceFields version floats (floats.add
            (floats.lit ((workload * 3 + 10 : ℤ) : ℚ))
            (floats.uniform 0 (floats.lit 0) (floats.lit (41 / 2)))) function⟩ := by
  have hpath : ((ClusterClient.service (.request (.getWorkloadByType type))).prog spring lib).Path
      (proj i log) (.ret response) := by
    have hown := h.path i
    rw [hret] at hown
    rw [← hi]
    exact hown
  obtain ⟨outcome, tr₁, tr₂, hproj, hservice, hresponse⟩ := Prog.path_bind_ret hpath
  obtain ⟨tr, hrequest, rfl⟩ := ofService_path hservice
  obtain ⟨rfl, rfl⟩ := Prog.path_ret_ret_iff.mp hresponse
  cases outcome with
  | error e =>
    have h500 : (500 : ℕ) = 200 := h200
    exact absurd h500 (by decide)
  | ok entity =>
    have hstatus : entity.status = 200 := by
      have hnat : entity.status.toNat = 200 := h200
      omega
    obtain ⟨t, workload, hread, hbody⟩ := getWorkloadByType_read hrequest hstatus
    -- the counter at the moment it was read
    have hmem : (⟨.service (.rest (.getEndpointWorkloadByType t)), workload⟩ : ClusterEvent)
        ∈ proj i log := by
      rw [hproj, List.append_nil]
      exact List.mem_map_of_mem hread
    obtain ⟨⟨who, op, ans, pre, post⟩, he, -, hevent⟩ := mem_proj.mp hmem
    cases hevent
    obtain rfl : ans = pre.service.workload t := (h.serves _ he).1.1.1
    obtain ⟨l₁, l₂, rfl⟩ := List.append_of_mem he
    obtain ⟨c₁, hbefore, hafter⟩ := h.split
    obtain rfl : c₁.state = pre := hafter.cons.1
    obtain ⟨hnonneg, hle⟩ := counter_bounds hbefore t
    obtain ⟨k, hk⟩ := Int.eq_ofNat_of_zero_le hnonneg
    rw [hk] at hle hbody
    refine ⟨k, (Int.ofNat_le.mp hle).trans (bounds_mono clients l₁ _), ?_, ?_⟩
    · show Body.text ((entity.body.map RestBody.text).getD "") = _
      rw [hbody]
      rfl
    · have htext : (toString (k : ℤ)).toList = Nat.toDigits 10 k := Nat.toList_repr
      rw [reported_eq, priceMain, htext]
      by_cases hfits : FitsDigits k
      · rw [pyInt_toDigits hfits]
        dsimp only
        by_cases hoverflows : floatOverflows (k * 3 + 10) = true
        · rw [if_pos hoverflows, if_pos hoverflows, if_pos hfits]
          rfl
        · rw [if_neg hoverflows, if_neg hoverflows]
          rfl
      · rw [pyInt_toDigits_none hfits, if_pos (floatOverflows_of_not_fits hfits), if_neg hfits]
        rfl

/-! ### A run -/

/-- A small Fibonacci number is asked for, and then the counter. -/
def readingClients : Bool → ClusterClient
  | true => .service (.request (.getWorkloadByType "FIBONACCI"))
  | false => .service (.request (.fibonacci 3))

/-- The counter that is read is 1. -/
theorem exists_reading :
    ∃ log c, Pool.Run (clusterServe id 1)
        (clusterStart sampleSpring ⟨fun _ => true, id⟩ (fun _ => none) readingClients) log c ∧
      c.prog true = .ret ⟨200, .text (toString (1 : ℤ))⟩ ∧
      (∀ i, (proj i log).countP begins = if i then 0 else 1) ∧
      acknowledgedCharges log = 0 ∧ directRequests readingClients log = 1 := by
  let start : ServiceState := ⟨.initial, fun _ => 0⟩
  let entered : ServiceState := ⟨.initial, Function.update (fun _ => 0) .fibonacci 1⟩
  have henter : clusterServe id 1 ⟨fun _ => none, start⟩
      (.service (.rest (.controller (.incrementAndGet .fibonacci)))) () ⟨fun _ => none, entered⟩ :=
    ⟨⟨rfl, rfl⟩, rfl⟩
  have htimeout : clusterServe id 1 ⟨fun _ => none, entered⟩ (.service .timeout) none
      ⟨fun _ => none, entered⟩ := ⟨⟨rfl, rfl⟩, rfl⟩
  have hfrequency : clusterServe id 1 ⟨fun _ => none, entered⟩ (.service .frequency) (0 : ℤ)
      ⟨fun _ => none, entered⟩ := ⟨⟨rfl, rfl⟩, rfl⟩
  have hcode : clusterServe id 1 ⟨fun _ => none, entered⟩ (.service .responseCode) (200 : ℤ)
      ⟨fun _ => none, entered⟩ := ⟨⟨rfl, rfl⟩, rfl⟩
  have hread : clusterServe id 1 ⟨fun _ => none, entered⟩
      (.service (.rest (.getEndpointWorkloadByType .fibonacci))) (1 : ℤ)
      ⟨fun _ => none, entered⟩ := ⟨⟨⟨rfl, rfl⟩, rfl⟩, rfl⟩
  have hrun := (((((Pool.Run.refl : Pool.Run (clusterServe id 1)
    (clusterStart sampleSpring ⟨fun _ => true, id⟩ (fun _ => none) readingClients) _ _).tail
      (.mk false _ rfl henter)).tail (.mk true _ rfl htimeout)).tail
        (.mk true _ rfl hfrequency)).tail (.mk true _ rfl hcode)).tail (.mk true _ rfl hread)
  refine ⟨_, _, hrun, rfl, ?_, rfl, rfl⟩
  rintro (_ | _)
  · rfl
  · rfl

theorem paid_work_reading :
    ∃ log c, Pool.Run (clusterServe id 1)
        (clusterStart sampleSpring ⟨fun _ => true, id⟩ (fun _ => none) readingClients) log c ∧
      acknowledgedCharges log + directRequests readingClients log = 1 ∧
      (∀ i, (readingClients i).asksDirectly = false →
        (proj i log).countP begins ≤ (proj i log).countP acknowledgedCharge) ∧
      ∀ t, 0 ≤ c.state.service.workload t ∧ c.state.service.workload t
        ≤ (acknowledgedCharges log + directRequests readingClients log : ℕ) := by
  obtain ⟨log, c, hrun, -, -, hcharges, hdirect⟩ := exists_reading
  exact ⟨log, c, hrun, by rw [hcharges, hdirect], paid_work hrun⟩

theorem estimate_bounded_reading :
    ∃ (log : List (ClusterEntry Bool)) (workload : ℕ),
      acknowledgedCharges log + directRequests readingClients log = 1 ∧
      workload ≤ acknowledgedCharges log + directRequests readingClients log ∧
      Body.text (toString (1 : ℤ)) = .text (toString (workload : ℤ)) ∧
      reported .analytics sampleFloats "FIBONACCI" ⟨200, toString (workload : ℤ)⟩
        = if floatOverflows (workload * 3 + 10) then
            .error (if FitsDigits workload then .overflowError else .valueError)
          else .ok ⟨200, priceFields .analytics sampleFloats (sampleFloats.add
            (sampleFloats.lit ((workload * 3 + 10 : ℤ) : ℚ))
            (sampleFloats.uniform 0 (sampleFloats.lit 0) (sampleFloats.lit (41 / 2))))
              "FIBONACCI"⟩ := by
  obtain ⟨log, c, hrun, hret, -, hcharges, hdirect⟩ := exists_reading
  obtain ⟨workload, hall⟩ :=
    estimate_bounded hrun rfl hret rfl .analytics sampleFloats "FIBONACCI"
  exact ⟨log, workload, by rw [hcharges, hdirect], hall⟩

end ResilientMesh
