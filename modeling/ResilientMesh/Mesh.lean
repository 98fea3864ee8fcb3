/-
ResilientMesh/Mesh.lean

The services together.  Any number of clients, each a thread of a pool over
the accounts: requests that go to the billing service directly, executions of
`calculate2`, and requests to `/calculate2` that enter through the ingress
gateway and are re-sent as retry.yaml says.  Here the gateway waits for every
attempt; in `Ingress` it may end one itself, as `perTryTimeout` has it do.  A
billing request is one atomic step; it may also fail on the way, before or
after the accounts have moved, and the calculation service may answer anything.

Main result, for every interleaving: nothing is calculated that was not paid
(`no_calculation_without_payment`).
-/
import ResilientMesh.ControlCenter
import ResilientMesh.Pool

namespace ResilientMesh

/-! ### Clients -/

/-- A handler as its caller sees it. -/
def answered (handler : ControlHandler) : ControlProg Response :=
  handler.bind fun r => .ret (answer r)

/-- `retryOn: gateway-error`. -/
def gatewayError (status : ℕ) : Bool := status ∈ [502, 503, 504]

/-- Send a request, and re-send it up to `attempts` times while it answers with
a gateway error. -/
def withRetries : ℕ → ControlProg Response → ControlProg Response
  | 0, request => request
  | attempts + 1, request =>
    request.bind fun response =>
      if gatewayError response.status then withRetries attempts request else .ret response

/-- The `retries` of the virtual service `control`. -/
def retryAttempts : ℕ := 20

/-- A request from outside. -/
inductive Client
  | billing (method : Method) (route : BillingRoute) (query : String)
  | calculate2 (body : JsonBody)
  | ingress (body : JsonBody)

def Client.prog : Client → ControlProg Response
  | billing method route query =>
    answered (.call (.billing method route query) .ret)
  | calculate2 body => answered (ResilientMesh.calculate2 body)
  | ingress body => withRetries retryAttempts (answered (ResilientMesh.calculate2 body))

/-- The client's executions are executions of `calculate2`. -/
def Client.calculates : Client → Bool
  | billing _ _ _ => false
  | _ => true

/-! ### The accounts among them -/

/-- The answer is not that of a request that was carried out. -/
def Unserved : Except PyError Response → Prop
  | .error _ => True
  | .ok response => response.status ≠ 200

/-- One step of the accounts.  A billing request is served, or fails on the
way there or on the way back. -/
def meshServe : Server Users Upstream Upstream.Ans := fun users op ans users' =>
  match op, ans with
  | .billing method route query, ans =>
    let served := serveBilling users route (billingRequest method query)
    -- what fails on the way back has been carried out all the same
    ans = .ok served.1 ∧ users' = served.2 ∨
      Unserved ans ∧ (users' = users ∨ users' = served.2)
  | .postCalculation _ _, _ => users' = users
  | .awaitCalculation, _ => users' = users

variable {ι : Type*} [DecidableEq ι]

/-- The mesh before anything has happened. -/
def meshStart (users : Users) (clients : ι → Client) :
    Pool ι Users Upstream Upstream.Ans Response :=
  ⟨users, fun i => (clients i).prog⟩

abbrev MeshEntry (ι : Type*) := Entry ι Users Upstream Upstream.Ans

/-! ### One step -/

theorem meshServe_solvent (users : Users) (op : Upstream) (ans : op.Ans) (users' : Users)
    (h : users.Solvent) (hserve : meshServe users op ans users') : users'.Solvent := by
  cases op with
  | billing method route query =>
    have hserved := serveBilling_solvent h route (billingRequest method query)
    rcases hserve with ⟨-, rfl⟩ | ⟨-, rfl | rfl⟩
    · exact hserved
    · exact h
    · exact hserved
  | postCalculation url data => exact (show users' = users from hserve) ▸ h
  | awaitCalculation => exact (show users' = users from hserve) ▸ h

/-- An acknowledged charge is a payment. -/
theorem paid_of_isPaid {users users' : Users} {op : Upstream} {ans : op.Ans}
    (hserve : meshServe users op ans users') (h : isPaid ⟨op, ans⟩) : Paid users users' := by
  unfold isPaid at h
  split at h
  · rename_i query response heq
    cases heq
    have hst : response.status = 200 := by simpa using h
    rcases hserve with ⟨hans, rfl⟩ | ⟨hun, -⟩
    · obtain rfl := Except.ok.inj hans
      obtain ⟨amount, balance, -, huser, hpos, hle, husers⟩ := serveBilling_charge hst
      exact ⟨_, balance, amount, huser, hpos, hle, husers⟩
    · exact absurd hst hun
  · cases h

/-- Calls that only read move no account. -/
theorem meshServe_reads {users users' : Users} {op : Upstream} {ans : op.Ans}
    (hserve : meshServe users op ans users') (h : op.Reads) : users' = users := by
  cases op with
  | billing method route query =>
    obtain ⟨rfl, rfl⟩ := h
    have hkeep : (serveBilling users .getAccountInfo (billingRequest .get query)).2 = users :=
      serveBilling_users ..
    rcases hserve with ⟨-, hs⟩ | ⟨-, hs | hs⟩
    · exact hs.trans hkeep
    · exact hs
    · exact hs.trans hkeep
  | postCalculation url data => exact hserve
  | awaitCalculation => exact hserve

/-! ### One client -/

/-- A caller has seen what the handler did, and its result once there is one. -/
theorem answered_path {handler : ControlHandler} {tr : List UpstreamEvent}
    {q : ControlProg Response} (h : (answered handler).Path tr q) :
    ∃ q', handler.Path tr q' ∧ ∀ r, q = .ret r → ∃ r', q' = .ret r' ∧ r = answer r' := by
  rcases Prog.path_bind h with ⟨q', hpath, hnot, rfl⟩ | ⟨r', tr₁, tr₂, rfl, hpath, hret⟩
  · refine ⟨q', hpath, ?_⟩
    intro r hr
    cases q' with
    | ret r' => exact absurd trivial hnot
    | call op next => cases hr
  · obtain ⟨rfl, rfl⟩ := Prog.path_ret_iff.mp hret
    rw [List.append_nil]
    refine ⟨_, hpath, ?_⟩
    intro r hr
    exact ⟨r', rfl, (Prog.ret.inj hr).symm⟩

/-- What the attempts of one client request have done. -/
structure Attempts (tr : List UpstreamEvent) : Prop where
  calculation_le : tr.countP isCalculation ≤ tr.countP isPaid
  reads : ∀ e ∈ tr, isCharge e ∨ e.op.Reads
  charge_le : tr.countP isCharge ≤ tr.countP (calculationAnswered gatewayError) + 1

theorem Progress.attempts {tr : List UpstreamEvent} {q : ControlHandler}
    (h : Progress id tr q) : Attempts tr :=
  ⟨h.calculation_le, h.reads, h.charge_le.trans (Nat.le_add_left ..)⟩

/-- An attempt is repeated only because the calculation service answered it
with a gateway error. -/
theorem Progress.gatewayError_pos {tr : List UpstreamEvent} {r : Except PyError Response}
    (h : Progress id tr (.ret r)) (hr : gatewayError (answer r).status) :
    1 ≤ tr.countP (calculationAnswered gatewayError) := by
  rcases h.result r rfl with ⟨⟨response, hmem, rfl⟩, -⟩ | hfail
  · exact List.countP_pos_iff.mpr ⟨_, hmem, hr⟩
  · unfold Failed at hfail
    simp only [List.mem_cons, List.not_mem_nil, or_false] at hfail
    rcases hfail with hst | hst | hst <;> simp [gatewayError, hst] at hr

/-- **Every attempt but the last ended in a gateway error.** -/
theorem withRetries_path {body : JsonBody} {attempts : ℕ} {tr : List UpstreamEvent}
    {q : ControlProg Response}
    (h : (withRetries attempts (answered (calculate2 body))).Path tr q) :
    Attempts tr := by
  induction attempts generalizing tr with
  | zero =>
    obtain ⟨q', hpath, -⟩ := answered_path h
    exact (calculateWith_path hpath).attempts
  | succ attempts ih =>
    rcases Prog.path_bind h with ⟨p', hpath, -, -⟩ | ⟨response, tr₁, tr₂, rfl, hpath, hnext⟩
    · obtain ⟨q', hpath', -⟩ := answered_path hpath
      exact (calculateWith_path hpath').attempts
    · obtain ⟨q', hpath', hres⟩ := answered_path hpath
      obtain ⟨r, rfl, rfl⟩ := hres _ rfl
      have hprog : Progress id tr₁ (.ret r) := calculateWith_path hpath'
      split_ifs at hnext with hgw
      · -- the attempt is repeated: its own gateway error makes up for its charge
        have hfirst := hprog.gatewayError_pos hgw
        have hone := hprog.charge_le
        obtain ⟨hcalc, hreads, hcharge⟩ := ih hnext
        refine ⟨?_, ?_, ?_⟩
        · simp only [List.countP_append]
          exact Nat.add_le_add hprog.calculation_le hcalc
        · intro e he
          rcases List.mem_append.mp he with he | he
          · exact hprog.reads e he
          · exact hreads e he
        · simp only [List.countP_append]
          omega
      · -- the last attempt
        obtain ⟨rfl, -⟩ := Prog.path_ret_iff.mp hnext
        rw [List.append_nil]
        exact hprog.attempts

/-! ### Every interleaving -/

variable {clients : ι → Client} {users : Users} {log : List (MeshEntry ι)}
  {c : Pool ι Users Upstream Upstream.Ans Response}

/-- What a client that calculates has done in a run of the mesh. -/
theorem client_attempts (h : Pool.Run meshServe (meshStart users clients) log c) {i : ι}
    (hi : (clients i).calculates) : Attempts (proj i log) := by
  have hpath : (clients i).prog.Path (proj i log) (c.prog i) := h.path i
  cases hc : clients i with
  | billing method route query => simp [hc, Client.calculates] at hi
  | calculate2 body =>
    rw [hc] at hpath
    obtain ⟨q, hpath', -⟩ := answered_path hpath
    exact (calculateWith_path hpath').attempts
  | ingress body =>
    rw [hc] at hpath
    exact withRetries_path hpath

/-- A client that does not calculate does not call the calculation service. -/
theorem billing_path {method : Method} {route : BillingRoute} {query : String}
    {tr : List UpstreamEvent} {q : ControlProg Response}
    (h : (Client.billing method route query).prog.Path tr q) : tr.countP isCalculation = 0 := by
  rcases Prog.path_call_iff.mp h with ⟨rfl, -⟩ | ⟨ans, tr', rfl, h'⟩
  · rfl
  · obtain ⟨rfl, -⟩ := Prog.path_ret_iff.mp h'
    simp [isCalculation]

/-- **No calculation without payment.**  From no accounts at all, in every
state of every interleaving: the calculation service was called at most as
often as a charge of an execution was acknowledged; every acknowledged charge
took at least 1 from an account; no balance is negative; and an execution that
answers 200 had one charge acknowledged and its calculation answered 200. -/
theorem no_calculation_without_payment
    (h : Pool.Run meshServe (meshStart (fun _ => none) clients) log c) :
    (log.countP fun e => isCalculation e.event)
        ≤ (log.countP fun e => (clients e.who).calculates && isPaid e.event) ∧
      (∀ e ∈ log, isPaid e.event → Paid e.pre e.post) ∧
      c.state.Solvent ∧
      ∀ i body response, clients i = .calculate2 body → c.prog i = .ret response →
        response.status = 200 →
        (proj i log).countP isPaid = 1 ∧
          ∃ calculated, ⟨.awaitCalculation, .ok calculated⟩ ∈ proj i log ∧
            calculated.status = 200 := by
  refine ⟨?_, ?_, ?_, ?_⟩
  · refine Pool.countP_log_le (fun _ ev => isCalculation ev)
      (fun i ev => (clients i).calculates && isPaid ev) log ?_
    intro i
    cases hc : (clients i).calculates with
    | true => simpa using (client_attempts h hc).calculation_le
    | false =>
      have hpath : (clients i).prog.Path (proj i log) (c.prog i) := h.path i
      cases hi : clients i with
      | billing method route query =>
        rw [hi] at hpath
        rw [billing_path hpath]
        exact Nat.zero_le _
      | calculate2 body => simp [hi, Client.calculates] at hc
      | ingress body => simp [hi, Client.calculates] at hc
  · intro e he hpaid
    exact paid_of_isPaid (h.serves e he) hpaid
  · exact h.invariant meshServe_solvent Ledger.solvent_empty
  · intro i body response hi hret hst
    have hpath : (clients i).prog.Path (proj i log) (c.prog i) := h.path i
    rw [hi] at hpath
    obtain ⟨q, hpath', hres⟩ := answered_path hpath
    obtain ⟨r, rfl, rfl⟩ := hres response hret
    rcases (calculateWith_path hpath').result r rfl with ⟨⟨calculated, hmem, rfl⟩, hone⟩ | hfail
    · exact ⟨hone, calculated, hmem, hst⟩
    · simp [Failed, hst] at hfail

/-! ### Runs -/

theorem meshServe_served (users : Users) (method : Method) (route : BillingRoute)
    (query : String) :
    meshServe users (.billing method route query)
      (.ok (serveBilling users route (billingRequest method query)).1)
      (serveBilling users route (billingRequest method query)).2 := .inl ⟨rfl, rfl⟩

/-- Serving alone is one way the mesh may serve. -/
theorem meshServe_alone (outcome : Users → Except PyError Response) (users : Users)
    (op : Upstream) :
    meshServe users op (serveAlone outcome users op).1 (serveAlone outcome users op).2 := by
  cases op with
  | billing method route query => exact meshServe_served users method route query
  | postCalculation url data => rfl
  | awaitCalculation => rfl

/-- The calculation service answers 502 while the account holds `balance`. -/
def failsAt (user : String) (balance : ℤ) (users : Users) : Except PyError Response :=
  .ok ⟨if users (some user) = some balance then 502 else 200, .text ""⟩

/-- An account is opened, filled, and pays for a calculation. -/
def sampleClients : Fin 3 → Client
  | 0 => .billing .post .createAccount "user=ruslan"
  | 1 => .billing .post .depositAccount "user=ruslan&amount=150"
  | 2 => .calculate2 (sampleBody "ruslan" "prime" "15" "7")

/-- The calculation that such a client gets was paid for. -/
theorem no_calculation_without_payment_sample :
    ∃ (log : List (MeshEntry (Fin 3))) (c : Pool (Fin 3) Users Upstream Upstream.Ans Response),
      Pool.Run meshServe (meshStart (fun _ => none) sampleClients) log c ∧
      (log.countP fun e => isCalculation e.event) = 1 ∧
      (log.countP fun e => isCalculation e.event)
        ≤ (log.countP fun e => (sampleClients e.who).calculates && isPaid e.event) ∧
      c.state.Solvent := by
  have hserve := meshServe_alone (failsAt "ruslan" 0)
  obtain ⟨c₁, hrun₁, hstate₁, -, hprog₁⟩ := Pool.exists_run_alone _ hserve 0 _
    (meshStart (fun _ => none) sampleClients) rfl
  obtain ⟨c₂, hrun₂, hstate₂, -, hprog₂⟩ := Pool.exists_run_alone _ hserve 1 _ c₁
    (hprog₁ 1 (by decide))
  obtain ⟨c₃, hrun₃, -⟩ := Pool.exists_run_alone _ hserve 2 _ c₂
    ((hprog₂ 2 (by decide)).trans (hprog₁ 2 (by decide)))
  rw [hstate₁] at hrun₂ hstate₂
  rw [hstate₂] at hrun₃
  have hrun := (hrun₁.trans hrun₂).trans hrun₃
  have hall := no_calculation_without_payment hrun
  exact ⟨_, c₃, hrun, by decide +kernel, hall.1, hall.2.2.1⟩

end ResilientMesh
