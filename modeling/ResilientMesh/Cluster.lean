/-
ResilientMesh/Cluster.lean

The mesh with the calculation service in it.  What the control-center asks of
that service is now carried out step by step: the request goes out, may fail on
the way, is read by Spring, runs among all other requests and calls of `/fault`,
and its answer may be lost on the way back.  Besides the clients of the mesh
there are those that call the calculation service themselves.

Open are what Spring makes of the text of a number and of an exception, and
what `HttpStatus` and `toUpperCase` are.

Main result: in its accounts, and in what its clients are told, every run of the
cluster is a run of the mesh (`cluster_refines_mesh`).
-/
import ResilientMesh.Inlining
import ResilientMesh.Mesh
import ResilientMesh.FaultRaces
import ResilientMesh.JavaInt

namespace ResilientMesh

/-! ### Texts -/

/-- The digits with a point before the last `scale` of them. -/
def plainNotation (digits : List Char) (scale : ℕ) : List Char :=
  if scale = 0 then digits
  else if scale < digits.length then
    digits.take (digits.length - scale) ++ '.' :: digits.drop (digits.length - scale)
  else "0.".toList ++ List.replicate (scale - digits.length) '0' ++ digits

/-- One digit, the others behind a point, and the exponent. -/
def scientificNotation (digits : List Char) (adjusted : ℤ) : List Char :=
  digits.take 1 ++ (if digits.length = 1 then [] else '.' :: digits.drop 1)
    ++ 'E' :: (if 0 < adjusted then ['+'] else []) ++ (toString adjusted).toList

/-- `BigDecimal.toString`. -/
def BigDecimal.toString (x : BigDecimal) : String :=
  let digits := (ToString.toString x.unscaled.natAbs).toList
  let adjusted := -x.scale + (digits.length - 1)
  let sign := if x.unscaled < 0 then ['-'] else []
  String.ofList (sign ++
    if 0 ≤ x.scale ∧ -6 ≤ adjusted then plainNotation digits x.scale.toNat
    else scientificNotation digits adjusted)

/-- `List.toString`. -/
def primesText (primes : List ℤ) : String :=
  "[" ++ ", ".intercalate (primes.map fun p => toString p) ++ "]"

/-- A body as text; a null has none. -/
def RestBody.text : RestBody → String
  | result (.decimal x) => x.toString
  | result (.number none) => "null"
  | result (.number (some x)) => toString x
  | result (.primes l) => primesText l
  | workload w => toString w
  | responseCode code => toString code

/-! ### Spring -/

/-- What is left open: the `Integer` that is read from a query as `n`, the
`BigDecimal` that is read from a JSON text, and the bodies of its own errors. -/
structure Spring where
  integer : List Char → Option ℤ
  integer_isInt : ∀ query n, integer query = some n → IsInt n
  decimal : String → Option BigDecimal
  badRequest : Body
  internalServerError : Body

/-- The `@RequestBody @Valid CalculationObject`. -/
def Spring.calculationObject (spring : Spring) (data : Option (List (String × String))) :
    Option (BigDecimal × BigDecimal) := do
  let object ← data
  let decimalOne ← object.lookup "decimalOne"
  let decimalTwo ← object.lookup "decimalTwo"
  return (← spring.decimal decimalOne, ← spring.decimal decimalTwo)

/-- The request that a posted address and object make, if they make one. -/
def Spring.read (spring : Spring) (url : String) (data : Option (List (String × String))) :
    Option RestRequest :=
  let path := url.toList.takeWhile (· ≠ '?')
  -- what is posted after the `?` is sent as `requests` sends it
  let query := sendQuery ((url.toList.dropWhile (· ≠ '?')).drop 1)
  if path = (calculationUrl ++ "add").toList then
    (spring.calculationObject data).map fun object => .add object.1 object.2
  else if path = (calculationUrl ++ "multiply").toList then
    (spring.calculationObject data).map fun object => .multiply object.1 object.2
  else if path = (calculationUrl ++ "prime").toList then
    (spring.integer query).map .prime
  else if path = (calculationUrl ++ "fibonacci").toList then
    (spring.integer query).map .fibonacci
  else none

/-- The response to a request that has ended. -/
def Spring.response (spring : Spring) : ServiceOutcome → Response
  | .error _ => ⟨500, spring.internalServerError⟩
  | .ok entity => ⟨entity.status.toNat, .text ((entity.body.map RestBody.text).getD "")⟩

/-! ### Steps -/

/-- What a thread of the cluster waits for: billing, a request that goes out to
the calculation service, the way there or back, and a step of that service. -/
inductive ClusterOp
  | billing (method : Method) (route : BillingRoute) (query : String)
  | post (url : String) (data : Option (List (String × String)))
  | network
  | service (op : ServiceOp)

/-- The way there or back may be answered with a failure. -/
abbrev ClusterOp.Ans : ClusterOp → Type
  | billing _ _ _ => Except PyError Response
  | post _ _ => Unit
  | network => Option (Except PyError Response)
  | service op => op.Ans

abbrev ClusterProg (α : Type) := Prog ClusterOp ClusterOp.Ans α

abbrev ClusterEvent := Event ClusterOp ClusterOp.Ans

/-- The accounts, and the calculation service. -/
structure ClusterState where
  users : Users
  service : ServiceState

/-- One step of the cluster. -/
def clusterServe (wrap : ℤ → ℤ) (numThreads : ℕ) : Server ClusterState ClusterOp ClusterOp.Ans :=
  fun s op a s' =>
    match op, a with
    | .billing method route query, a =>
      meshServe s.users (.billing method route query) a s'.users ∧ s'.service = s.service
    | .post _ _, _ => s' = s
    | .network, a => (∀ failure, a = some failure → Unserved failure) ∧ s' = s
    | .service op, a => serviceServe wrap numThreads s.service op a s'.service ∧ s'.users = s.users

/-! ### Programs -/

/-- The steps of the calculation service, as steps of the cluster. -/
def ofService {α : Type} : ServiceProg α → ClusterProg α
  | .ret a => .ret a
  | .call op next => .call (.service op) fun a => ofService (next a)

/-- What arrives at the calculation service. -/
def serveRequest (spring : Spring) (lib : RestLibrary) (url : String)
    (data : Option (List (String × String))) : ClusterProg Response :=
  match spring.read url data with
  | none => .ret ⟨400, spring.badRequest⟩
  | some r => (ofService (r.concurrent lib)).bind fun outcome => .ret (spring.response outcome)

/-- A call of the calculation service: there, and back. -/
def callService (spring : Spring) (lib : RestLibrary) (url : String)
    (data : Option (List (String × String))) : ClusterProg (Except PyError Response) :=
  .call .network fun failure =>
    match failure with
    | some failure => .ret failure
    | none =>
      (serveRequest spring lib url data).bind fun response =>
        .call .network fun failure => .ret (failure.getD (.ok response))

/-- What was posted last, and is not answered yet. -/
abbrev Posted := Option (String × Option (List (String × String)))

/-- How the control-center's calls are carried out. -/
def upstreamCalls (spring : Spring) (lib : RestLibrary) :
    Implementation Posted Upstream.Ans ClusterOp.Ans where
  impl posted op :=
    match op with
    | .billing method route query => .call (.billing method route query) .ret
    | .postCalculation url data => .call (.post url data) .ret
    | .awaitCalculation =>
      match posted with
      | some (url, data) => callService spring lib url data
      | none => .call .network fun failure => .ret (failure.getD (.error .connectionError))
  remember posted op :=
    match op with
    | .billing _ _ _ => posted
    | .postCalculation url data => some (url, data)
    | .awaitCalculation => none

/-- Who calls: a client of the mesh, or one of the calculation service. -/
inductive ClusterClient
  | mesh (client : Client)
  | service (client : ServiceClient)

def ClusterClient.prog (spring : Spring) (lib : RestLibrary) : ClusterClient → ClusterProg Response
  | mesh client => client.prog.inline (upstreamCalls spring lib) none
  | service client =>
    (ofService (client.prog lib)).bind fun outcome => .ret (spring.response outcome)

/-- The cluster before anything has happened. -/
def clusterStart {ι : Type} (spring : Spring) (lib : RestLibrary) (users : Users)
    (clients : ι → ClusterClient) : Pool ι ClusterState ClusterOp ClusterOp.Ans Response :=
  ⟨⟨users, ⟨.initial, fun _ => 0⟩⟩, fun i => (clients i).prog spring lib⟩

abbrev ClusterEntry (ι : Type) := Entry ι ClusterState ClusterOp ClusterOp.Ans

/-! ### What is seen of the accounts -/

/-- The call leaves the accounts alone. -/
def ClusterOp.OffAccounts : ClusterOp → Prop
  | billing _ _ _ => False
  | _ => True

variable {spring : Spring} {lib : RestLibrary} {wrap : ℤ → ℤ} {numThreads : ℕ}

theorem hidden_offAccounts (wrap : ℤ → ℤ) (numThreads : ℕ) :
    Prog.Hidden (clusterServe wrap numThreads) ClusterState.users ClusterOp.OffAccounts := by
  intro s op a s' hop hserve
  cases op with
  | billing method route query => exact absurd hop id
  | post url data => exact congrArg ClusterState.users (show s' = s from hserve)
  | network => exact congrArg ClusterState.users hserve.2
  | service op => exact hserve.2

theorem only_ofService {α : Type} (p : ServiceProg α) :
    (ofService p).Only ClusterOp.OffAccounts := by
  induction p with
  | ret a => exact .ret a
  | call op next ih => exact .call trivial fun a => ih a

theorem only_callService (url : String) (data : Option (List (String × String))) :
    (callService spring lib url data).Only ClusterOp.OffAccounts := by
  refine .call trivial ?_
  rintro (_ | failure)
  · refine Prog.Only.bind ?_ fun response => .call trivial fun failure => .ret _
    rw [serveRequest]
    cases spring.read url data with
    | none => exact .ret _
    | some r => exact (only_ofService _).bind fun outcome => .ret _
  · exact .ret failure

/-- **Of what the control-center asks, only a billing request is seen in the
accounts**, and it is one step. -/
theorem upstreamCalls_refines (spring : Spring) (lib : RestLibrary) (wrap : ℤ → ℤ)
    (numThreads : ℕ) :
    (upstreamCalls spring lib).Refines (clusterServe wrap numThreads) ClusterState.users
      meshServe where
  atomic := by
    intro posted op
    cases op with
    | billing method route query =>
      intro a
      exact ⟨trivial, fun s s' hserve => hserve.1⟩
    | postCalculation url data =>
      exact (Prog.Only.call trivial fun a => .ret a).atomic (hidden_offAccounts wrap numThreads)
        fun users a => rfl
    | awaitCalculation =>
      have honly : ((upstreamCalls spring lib).impl posted .awaitCalculation).Only
          ClusterOp.OffAccounts := by
        cases posted with
        | none => exact .call trivial fun failure => .ret _
        | some request => exact only_callService request.1 request.2
      exact honly.atomic (hidden_offAccounts wrap numThreads) fun users a => rfl
  steps := by
    intro posted op
    cases op with
    | billing method route query => exact Prog.not_returned_call _ _
    | postCalculation url data => exact Prog.not_returned_call _ _
    | awaitCalculation =>
      cases posted with
      | none => exact Prog.not_returned_call _ _
      | some request => exact Prog.not_returned_call _ _

/-- The clients of the mesh in the cluster; the others ask for nothing there. -/
def ClusterClient.client : ClusterClient → Client
  | mesh client => client
  | service _ => .billing .get .getAccountInfo ""

def ClusterClient.IsMesh : ClusterClient → Prop
  | mesh _ => True
  | service _ => False

variable {ι : Type} [DecidableEq ι] {users : Users} {clients : ι → ClusterClient}
  {c : Pool ι ClusterState ClusterOp ClusterOp.Ans Response} {log : List (ClusterEntry ι)}

/-- **The cluster is a mesh**: among any calls of the calculation service and
of `/fault`, the accounts go through the states of a run of the mesh, each change
is made by the same client, and a client that has been answered has been
answered the same there. -/
theorem cluster_refines_mesh
    (h : Pool.Run (clusterServe wrap numThreads) (clusterStart spring lib users clients) log c) :
    ∃ (log' : List (MeshEntry ι)) (c' : Pool ι Users Upstream Upstream.Ans Response),
      Pool.Run meshServe (meshStart users fun i => (clients i).client) log' c' ∧
      c'.state = c.state.users ∧
      (∀ i client response, clients i = .mesh client → c.prog i = .ret response →
        c'.prog i = .ret response) ∧
      Pool.SeenAs ClusterState.users log log' := by
  have hrefines := upstreamCalls_refines spring lib wrap numThreads
  have hmesh : ∀ i, (clients i).IsMesh → Prog.Simulates (upstreamCalls spring lib)
      (clusterServe wrap numThreads) ClusterState.users meshServe (clients i).client.prog
      ((clients i).prog spring lib) := by
    intro i hi
    cases hc : clients i with
    | mesh client => exact Prog.simulates_inline hrefines none _
    | service client =>
      rw [hc] at hi
      exact absurd hi id
  have hservice : ∀ i, ¬ (clients i).IsMesh →
      ((clients i).prog spring lib).Only ClusterOp.OffAccounts := by
    intro i hi
    cases hc : clients i with
    | mesh client =>
      rw [hc] at hi
      exact absurd trivial hi
    | service client => exact (only_ofService _).bind fun outcome => .ret _
  have hstart : (meshStart users fun i => (clients i).client).state = users := rfl
  obtain ⟨log', c', hrun, hstate, hprog, -, hseen⟩ :=
    h.inlined hrefines hstart hmesh (hidden_offAccounts wrap numThreads) hservice
  refine ⟨log', c', hrun, hstate, ?_, hseen⟩
  intro i client response hi hret
  have hsim := hprog i (by rw [hi]; trivial)
  rw [hret] at hsim
  exact hsim.eq_ret

/-- Spring, where it reads a 3. -/
def sampleSpring : Spring where
  integer query := if query = "n=3".toList then some 3 else none
  integer_isInt := by
    intro query n h
    split_ifs at h
    cases h
    constructor <;> norm_num
  decimal _ := none
  badRequest := .text ""
  internalServerError := .text ""

/-- A fault is being set while an account is opened. -/
def openingClients : Bool → ClusterClient
  | true => .mesh (.billing .post .createAccount "user=ruslan")
  | false => .service (.fault ⟨0, 502, 2, true⟩)

theorem cluster_refines_mesh_opening :
    ∃ log c, Pool.Run (clusterServe id 1)
        (clusterStart sampleSpring ⟨fun _ => true, id⟩ (fun _ => none) openingClients) log c ∧
      c.state.users (some "ruslan") = some 0 ∧ c.state.service.settings.responseCode = 502 ∧
      ∃ (log' : List (MeshEntry Bool)) (c' : Pool Bool Users Upstream Upstream.Ans Response),
        Pool.Run meshServe (meshStart (fun _ => none) fun i => (openingClients i).client) log' c' ∧
        c'.state = c.state.users ∧
        (∀ i client response, openingClients i = .mesh client → c.prog i = .ret response →
          c'.prog i = .ret response) ∧
        Pool.SeenAs ClusterState.users log log' := by
  let start : ServiceState := ⟨.initial, fun _ => 0⟩
  let faulty : ServiceState := ⟨{ FaultSettings.initial with responseCode := 502 }, fun _ => 0⟩
  have hfault : clusterServe id 1 ⟨fun _ => none, start⟩ (.service (.setResponseCode 502)) ()
      ⟨fun _ => none, faulty⟩ := ⟨rfl, rfl⟩
  have haccount : (serveBilling (fun _ => none) .createAccount
      (billingRequest .post "user=ruslan")).2 (some "ruslan") = some 0 := by decide +kernel
  have hserve : meshServe (fun _ => none) (.billing .post .createAccount "user=ruslan")
      (.ok (serveBilling (fun _ => none) .createAccount (billingRequest .post "user=ruslan")).1)
      (serveBilling (fun _ => none) .createAccount (billingRequest .post "user=ruslan")).2 :=
    .inl ⟨rfl, rfl⟩
  generalize serveBilling (fun _ => none) .createAccount (billingRequest .post "user=ruslan")
    = created at haccount hserve
  have hcreate : clusterServe id 1 ⟨fun _ => none, faulty⟩
      (.billing .post .createAccount "user=ruslan") (.ok created.1) ⟨created.2, faulty⟩ :=
    ⟨hserve, rfl⟩
  have hrun := ((Pool.Run.refl : Pool.Run (clusterServe id 1)
    (clusterStart sampleSpring ⟨fun _ => true, id⟩ (fun _ => none) openingClients) _ _).tail
      (.mk false _ rfl hfault)).tail (.mk true _ rfl hcreate)
  exact ⟨_, _, hrun, haccount, rfl, cluster_refines_mesh hrun⟩

end ResilientMesh
