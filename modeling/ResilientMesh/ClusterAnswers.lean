/-
ResilientMesh/ClusterAnswers.lean

The cluster while nothing fails: nobody calls `/fault`, and nothing is lost on
the way to the calculation service or back.  A billing request may still be
refused, or lost.  Each `HashMap.put` of a calculation is one atomic step.

Main result, for every interleaving: an execution that has paid and has ended
was answered 200 with the right result, if what it asks can be calculated
(`paid_answered`).  For `/prime` that takes a search without wrap-around
(`PrimeFits`): for the largest int the service does not answer at all
(`calculatePrimeInt_maxInt`).
-/
import ResilientMesh.ClusterResults
import ResilientMesh.WorkloadExceptions

namespace ResilientMesh

variable {spring : Spring} {lib : RestLibrary} {numThreads : ℕ}

/-! ### Settings that nobody sets -/

/-- The call sets nothing. -/
def ServiceOp.SetsNothing : ServiceOp → Prop
  | setResponseCode _ => False
  | setTimeout _ => False
  | setFrequency _ => False
  | setShouldCalculate _ => False
  | _ => True

def ClusterOp.SetsNothing : ClusterOp → Prop
  | service op => op.SetsNothing
  | _ => True

theorem only_ofService_of {α : Type} {P : ServiceOp → Prop} {Q : ClusterOp → Prop}
    (hPQ : ∀ op, P op → Q (.service op)) {p : ServiceProg α} (h : p.Only P) :
    (ofService p).Only Q := by
  induction h with
  | ret a => exact .ret a
  | call hop _ ih => exact .call (hPQ _ hop) ih

theorem request_setsNothing (r : RestRequest) :
    (ofService (r.concurrent lib)).Only ClusterOp.SetsNothing := by
  refine only_ofService_of ?_ (only_prog (.request r))
  intro op hdoes
  cases op <;> trivial

theorem callService_setsNothing (url : String) (data : Option (List (String × String))) :
    (callService spring lib url data).Only ClusterOp.SetsNothing := by
  refine .call trivial ?_
  rintro (_ | failure)
  · refine Prog.Only.bind ?_ fun response => .call trivial fun failure => .ret _
    rw [serveRequest]
    cases spring.read url data with
    | none => exact .ret _
    | some r => exact (request_setsNothing r).bind fun outcome => .ret _
  · exact .ret failure

/-- Only a call of `/fault` sets something. -/
theorem client_setsNothing {client : ClusterClient} (h : ∀ call, client ≠ .service (.fault call)) :
    (client.prog spring lib).Only ClusterOp.SetsNothing := by
  cases client with
  | mesh client =>
    refine Prog.Only.inline ?_ _ _
    intro posted op
    cases op with
    | billing method route query => exact .call trivial fun a => .ret a
    | postCalculation url data => exact .call trivial fun a => .ret a
    | awaitCalculation =>
      cases posted with
      | none => exact .call trivial fun failure => .ret _
      | some request => exact callService_setsNothing request.1 request.2
  | service client =>
    cases client with
    | request r => exact (request_setsNothing r).bind fun outcome => .ret _
    | fault call => exact absurd rfl (h call)

theorem settings_of_setsNothing {s s' : ClusterState} {op : ClusterOp} {a : op.Ans}
    (hop : op.SetsNothing) (h : clusterServe javaInt numThreads s op a s') :
    s'.service.settings = s.service.settings := by
  cases op with
  | billing method route query => exact congrArg ServiceState.settings h.2
  | post url data => exact congrArg (fun s => s.service.settings) (show s' = s from h)
  | network => exact congrArg (fun s => s.service.settings) h.2
  | service op =>
    obtain ⟨hserve, -⟩ := h
    cases op with
    | timeout => exact congrArg ServiceState.settings hserve.2
    | responseCode => exact congrArg ServiceState.settings hserve.2
    | frequency => exact congrArg ServiceState.settings hserve.2
    | shouldCalculate => exact congrArg ServiceState.settings hserve.2
    | nextInt bound => exact congrArg ServiceState.settings hserve.2
    | rest op => exact hserve.2
    | _ => exact absurd hop id

/-! ### A request with the first settings -/

/-- The calculation has a result, and not null. -/
def RestRequest.HasResult (numThreads : ℕ) : RestRequest → Prop
  | add x y => Succeeds (x.add y)
  | multiply x y => Succeeds (x.multiply y)
  | fibonacci n => 0 ≤ n
  | prime n => PrimeFits n numThreads
  | getWorkloadByType _ => False

/-- With the settings a service starts with, a request is answered 200 and with
a body. -/
theorem request_served (h200 : lib.httpStatus 200) {r : RestRequest} (hposted : r.Posted)
    (hr : r.HasResult numThreads)
    {tr : List ServiceEvent} {outcome : ServiceOutcome}
    (h : (r.concurrent lib).Path tr (.ret outcome)) (hshows : ∀ ev ∈ tr, Shows .initial ev)
    (hcomputes : ∀ calculation result,
      (⟨.rest (.controller (.compute calculation)), result⟩ : ServiceEvent) ∈ tr →
        Computes javaInt numThreads calculation result) :
    ∃ body, outcome = .ok ⟨some body, 200⟩ := by
  -- what the controller returns is the outcome, but for a null
  have hcontroller : ∀ (type : ECalculationType) (calculation : Calculation)
      {g : Except JavaException CalculationResult → ServiceOutcome},
      ((ofController (enterAndLeave type calculation)).bind fun a => .ret (g a)).Path (restPart tr)
        (.ret outcome) → ∃ a, Computes javaInt numThreads calculation a ∧ outcome = g a := by
    intro type calculation g hpath
    obtain ⟨tr', a, hpath', hmap, rfl⟩ := ofController_bind_returned hpath
    have hmem : (⟨.controller (.compute calculation), a⟩ : RestEvent) ∈ restPart tr := by
      rw [hmap]
      exact List.mem_map_of_mem (enterAndLeave_result hpath')
    exact ⟨a, hcomputes _ _ (mem_of_mem_restPart hmem), rfl⟩
  have hentity : ∀ body, responseEntity lib (some body) 200 = .ok ⟨some body, 200⟩ :=
    fun body => if_pos h200
  cases r with
  | add x y =>
    obtain ⟨draw, -, hpath⟩ := settled_checkThenCalculate h hshows
    obtain ⟨a, ha, rfl⟩ := hcontroller .add (.add x y) hpath
    obtain ⟨z, hz⟩ := hr
    obtain rfl : a = .ok (.decimal z) := by
      replace ha : a = (x.add y).map .decimal := ha
      rw [ha, hz]
      rfl
    exact ⟨_, hentity _⟩
  | multiply x y =>
    obtain ⟨draw, -, hpath⟩ := settled_checkThenCalculate h hshows
    obtain ⟨a, ha, rfl⟩ := hcontroller .multiply (.multiply x y) hpath
    obtain ⟨z, hz⟩ := hr
    obtain rfl : a = .ok (.decimal z) := by
      replace ha : a = (x.multiply y).map .decimal := ha
      rw [ha, hz]
      rfl
    exact ⟨_, hentity _⟩
  | prime n =>
    obtain ⟨draw, -, hpath⟩ := settled_calculateThenCheck h hshows
    obtain ⟨a, ⟨primes, -, rfl⟩, rfl⟩ := hcontroller .prime (.prime n) hpath
    exact ⟨_, hentity _⟩
  | fibonacci n =>
    obtain ⟨draw, -, hpath⟩ := settled_calculateThenCheck h hshows
    by_cases hsmall : n < 7
    · obtain ⟨tr', a, hpath', -, rfl⟩ := ofController_bind_returned hpath
      obtain ⟨_, tr₁, -, h₁⟩ := Prog.path_call_ret_iff.mp hpath'
      rw [if_pos hsmall, holds_fillFirstElements.get hr hsmall] at h₁
      obtain ⟨-, rfl⟩ := Prog.path_ret_ret_iff.mp h₁
      exact ⟨_, hentity _⟩
    · have heq : calculateThenCheck lib .initial draw (Controller.calculateFibonacci n)
          = calculateThenCheck lib .initial draw (enterAndLeave .fibonacci (.fibonacci n)) := by
        rw [calculateFibonacci_eq_enterAndLeave hsmall]
      rw [heq] at hpath
      obtain ⟨a, ⟨fuel, orders, fibMap, hloop, rfl⟩, rfl⟩ :=
        hcontroller .fibonacci (.fibonacci n) hpath
      rw [(fibLoop_get hposted (not_lt.mp hsmall) hloop).2]
      exact ⟨_, hentity _⟩
  | getWorkloadByType type => exact absurd hr id

/-! ### Every interleaving -/

/-- A call of the calculation service that nothing happens to on the way. -/
theorem callService_served {url : String} {data : Option (List (String × String))}
    {tr : List ClusterEvent} {a : Except PyError Response}
    (h : (callService spring lib url data).Path tr (.ret a))
    (hnetwork : ∀ failure, (⟨.network, some failure⟩ : ClusterEvent) ∉ tr) {r : RestRequest}
    (hread : spring.read url data = some r) :
    ∃ outcome tr', (r.concurrent lib).Path tr' (.ret outcome) ∧ tr = servedCall tr' ∧
      a = .ok (spring.response outcome) := by
  obtain ⟨failure, tr₁, rfl, h₁⟩ := Prog.path_call_ret_iff.mp h
  cases failure with
  | some failure => exact absurd List.mem_cons_self (hnetwork failure)
  | none =>
    obtain ⟨served, tr₂, tr₃, rfl, h₂, h₃⟩ := Prog.path_bind_ret h₁
    obtain ⟨failure, tr₄, rfl, h₄⟩ := Prog.path_call_ret_iff.mp h₃
    obtain ⟨rfl, rfl⟩ := Prog.path_ret_ret_iff.mp h₄
    cases failure with
    | some failure =>
      refine absurd ?_ (hnetwork failure)
      exact List.mem_cons_of_mem _ (List.mem_append_right _ List.mem_cons_self)
    | none =>
      rw [serveRequest, hread] at h₂
      obtain ⟨outcome, tr₅, tr₆, rfl, h₅, h₆⟩ := Prog.path_bind_ret h₂
      obtain ⟨rfl, rfl⟩ := Prog.path_ret_ret_iff.mp h₆
      obtain ⟨tr', hrequest, rfl⟩ := ofService_path h₅
      exact ⟨outcome, tr', hrequest, by simp [servedCall], rfl⟩

variable {ι : Type} [DecidableEq ι] {users : Users} {clients : ι → ClusterClient}
  {c : Pool ι ClusterState ClusterOp ClusterOp.Ans Response} {log : List (ClusterEntry ι)}

/-- **While nothing fails, whoever has paid gets the right result.** -/
theorem paid_answered (hT : 1 ≤ numThreads) (h200 : lib.httpStatus 200)
    (h : Pool.Run (clusterServe javaInt numThreads) (clusterStart spring lib users clients) log c)
    (hfault : ∀ i call, clients i ≠ .service (.fault call))
    (hnetwork : ∀ e ∈ log, ∀ failure, e.event ≠ ⟨.network, some failure⟩)
    {i : ι} {json : JsonObject} (hi : clients i = .mesh (.calculate2 (.object json)))
    {f : CalculateFields} (hfields : readFields json = .ok f) {t : String}
    (ht : f.calculationType = .str t) {r : RestRequest}
    (hasked : askedFor spring t f.firstNumber f.secondNumber = some r)
    (hr : r.HasResult numThreads)
    (hpaid : 1 ≤ (proj i log).countP acknowledgedCharge) {response : Response}
    (hret : c.prog i = .ret response) :
    response.status = 200 ∧ ∃ text, response.body = .text text ∧ RightText numThreads r text := by
  have hpath : ((clients i).prog spring lib).Path (proj i log) (.ret response) := by
    have hown := h.path i
    rw [hret] at hown
    exact hown
  rw [hi] at hpath
  obtain ⟨tr, hclient, hcarried⟩ := Prog.inline_path_ret hpath
  obtain ⟨q, hhandler, hanswer⟩ := answered_path hclient
  obtain ⟨a, rfl, rfl⟩ := hanswer response rfl
  rw [(inlined_begins hcarried.inlined).2] at hpaid
  rcases calculate2_cases hhandler with ⟨-, hunpaid⟩ |
    ⟨json', f', pre, tr', hjson, hf', rfl, hafter⟩
  · omega
  cases hjson
  cases hfields.symm.trans hf'
  rcases dispatch_cases hafter with ⟨-, hnone⟩ | ⟨t', url, data, ht', hread, rfl⟩
  · rw [hnone spring t ht] at hasked
    cases hasked
  cases ht.symm.trans ht'
  -- the call, and the request in it
  obtain ⟨before, call, hproj, hcall⟩ := carriedOut_relayed hcarried
  have hmem : ∀ ev ∈ call, ev ∈ proj i log := by
    intro ev hev
    rw [hproj]
    exact List.mem_append_right _ hev
  obtain ⟨outcome, tr', hrequest, rfl, rfl⟩ := callService_served hcall (by
    intro failure hfailure
    obtain ⟨e, he, -, hevent⟩ := mem_proj.mp (hmem _ hfailure)
    exact hnetwork e he failure hevent) ((hread spring).trans hasked)
  have hsettings : ∀ e ∈ log, e.pre.service.settings = .initial := by
    refine (h.kept (I := fun s => s.service.settings = .initial) ?_ rfl).2
    intro e he hpre
    exact (settings_of_setsNothing (h.only (client_setsNothing (hfault e.who)) e he rfl)
      (h.serves e he)).trans hpre
  have hserved : ∀ ev ∈ tr', ∃ s s', s.service.settings = .initial ∧
      clusterServe javaInt numThreads s (.service ev.op) ev.ans s' := by
    intro ev hev
    obtain ⟨e, he, -, hevent⟩ := mem_proj.mp (hmem _ (mem_servedCall hev))
    have hserve := h.serves e he
    have hpre := hsettings e he
    obtain ⟨who, op, ans, s, s'⟩ := e
    cases hevent
    exact ⟨s, s', hpre, hserve⟩
  have hcomputes : ∀ calculation result,
      (⟨.rest (.controller (.compute calculation)), result⟩ : ServiceEvent) ∈ tr' →
        Computes javaInt numThreads calculation result := by
    intro calculation result hev
    obtain ⟨s, s', -, hserve⟩ := hserved _ hev
    exact hserve.1.1.1
  have hposted := posted_of_askedFor hasked
  obtain ⟨body, rfl⟩ := request_served h200 hposted hr hrequest (by
    intro ev hev
    obtain ⟨s, s', hpre, hserve⟩ := hserved ev hev
    rw [← hpre]
    exact shows_of_serve hserve.1) hcomputes
  refine ⟨rfl, body.text, rfl, ?_⟩
  rcases request_right hT hposted hrequest rfl hcomputes with ⟨hnone, -⟩ | ⟨body', hsome, hright⟩
  · cases hnone
  · cases hsome
    exact hright

theorem paid_answered_fibonacci :
    ∃ (log : List (ClusterEntry Unit)) (c : Pool Unit ClusterState ClusterOp ClusterOp.Ans Response)
      (response : Response),
      Pool.Run (clusterServe javaInt 1) (clusterStart sampleSpring ⟨fun _ => true, id⟩
        (sampleUsers "ruslan" 150) fun _ => .mesh (.calculate2 fibonacciBody)) log c ∧
      c.prog () = .ret response ∧ 1 ≤ (proj () log).countP acknowledgedCharge ∧
      response.status = 200 ∧
      ∃ text, response.body = .text text ∧ RightText 1 (.fibonacci 3) text := by
  obtain ⟨log, c, charge, query, url, hrun, hret, hstatus, hproj⟩ := exists_calculated
  have hpaid : 1 ≤ (proj () log).countP acknowledgedCharge := by
    rw [hproj]
    refine List.countP_pos_iff.mpr ⟨_, List.mem_cons_of_mem _ List.mem_cons_self, ?_⟩
    exact beq_iff_eq.mpr hstatus
  have hnetwork : ∀ e ∈ log, ∀ failure, e.event ≠ ⟨.network, some failure⟩ := by
    intro e he failure hevent
    have hmem : (⟨.network, some failure⟩ : ClusterEvent) ∈ proj () log :=
      mem_proj.mpr ⟨e, he, rfl, hevent⟩
    rw [hproj] at hmem
    simp [fibonacciSteps] at hmem
  have hall := paid_answered le_rfl rfl hrun (fun _ => nofun) hnetwork rfl rfl rfl
    askedFor_fibonacci (show (0 : ℤ) ≤ 3 by decide) hpaid hret
  exact ⟨log, c, _, hrun, hret, hpaid, hall⟩

end ResilientMesh
