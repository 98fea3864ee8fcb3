/-
ResilientMesh/ControlCenter.lean

The control-center's `calculate2`: read the request, check the price, look the
account up, charge it, and only then ask the calculation service.  The handler
is a program over its upstream calls.  A call to the calculation service is
two steps, the request going out (`postCalculation`) and the answer coming
back (`awaitCalculation`), so that a calculation under way is visible.

The repository has two copies of the handler, which differ in the status they
give the answer of the calculation service; `relay` is that status.

Main result: along every path a calculation is asked for only after the one
charge was acknowledged (`calculateWith_path`).
-/
import ResilientMesh.Billing

namespace ResilientMesh

/-! ### Upstream calls -/

/-- What the control-center asks of other services. -/
inductive Upstream
  | billing (method : Method) (route : BillingRoute) (query : String)
  | postCalculation (url : String) (data : Option (List (String × String)))
  | awaitCalculation

/-- A call is answered with a response or raises. -/
abbrev Upstream.Ans : Upstream → Type
  | billing _ _ _ => Except PyError Response
  | postCalculation _ _ => Unit
  | awaitCalculation => Except PyError Response

abbrev ControlProg (α : Type) := Prog Upstream Upstream.Ans α

abbrev ControlHandler := ControlProg (Except PyError Response)

abbrev UpstreamEvent := Event Upstream Upstream.Ans

def calculationUrl : String := "http://distributed-calculation.default.svc.cluster.local:8080/"

/-- What `request.get_json()` makes of a body. -/
inductive JsonBody
  | malformed
  | other
  | object (fields : JsonObject)

/-- `json[key]`. -/
def JsonObject.item (json : JsonObject) (key : String) : Except PyError JsonValue :=
  match json.lookup key with
  | some v => .ok v
  | none => .error .keyError

/-! ### The handler -/

/-- `get_account_info_`. -/
def getAccountInfo_ (query : String) : ControlHandler :=
  .call (.billing .get .getAccountInfo query) .ret

/-- `charge_account_`. -/
def chargeAccount_ (query : String) : ControlHandler :=
  .call (.billing .post .chargeAccount query) .ret

/-- `requests.post(url, data)`, relayed to the client. -/
def postAndRelay (relay : ℕ → ℕ) (url : String) (data : Option (List (String × String))) :
    ControlHandler :=
  .call (.postCalculation url data) fun _ =>
    .call .awaitCalculation fun response =>
      match response with
      | .error e => .ret (.error e)
      | .ok response => .ret (.ok ⟨relay response.status, response.body⟩)

/-- The part of `calculate2` after the charge. -/
def dispatch (relay : ℕ → ℕ) (calculationType : JsonValue) (firstNumber secondNumber : String) :
    ControlHandler :=
  match calculationType with
  | .str calculationType =>
    let url := calculationUrl ++ calculationType
    if calculationType = "add" ∨ calculationType = "multiply" then
      postAndRelay relay url (some [("decimalOne", firstNumber), ("decimalTwo", secondNumber)])
    else if calculationType = "prime" ∨ calculationType = "fibonacci" then
      postAndRelay relay (url ++ "?n=" ++ firstNumber) none
    else .ret (.ok forbidden)
  -- only a text can be appended to the address
  | _ => .ret (.error .typeError)

def accountQuery (user : String) : String := "user=" ++ user

def chargeQuery (user : String) (price : JsonValue) : String :=
  "user=" ++ user ++ "&amount=" ++ price.pyStr

/-- The part of `calculate2` from the account's lookup to the charge; `after`
is what follows an acknowledged charge. -/
def checkAndCharge (user : String) (price : JsonValue) (after : ControlHandler) :
    ControlHandler :=
  (getAccountInfo_ (accountQuery user)).bind fun accountInfo =>
    match accountInfo with
    | .error e => .ret (.error e)
    | .ok accountInfo =>
      if accountInfo.status ≠ 200 then .ret (.ok ⟨400, accountInfo.body⟩)
      else
        -- the balance is read, and not used
        match accountInfo.body.balance with
        | .error e => .ret (.error e)
        | .ok _ =>
          (chargeAccount_ (chargeQuery user price)).bind fun chargeResponse =>
            match chargeResponse with
            | .error e => .ret (.error e)
            | .ok chargeResponse =>
              if chargeResponse.status ≠ 200 then .ret (.ok ⟨400, chargeResponse.body⟩)
              else after

/-- The five fields `calculate2` reads. -/
structure CalculateFields where
  user : JsonValue
  calculationType : JsonValue
  price : JsonValue
  firstNumber : String
  secondNumber : String

def readFields (json : JsonObject) : Except PyError CalculateFields := do
  let user ← json.item "user"
  let calculationType ← json.item "calculationType"
  let price ← json.item "price"
  let firstNumber ← json.item "firstNumber"
  let secondNumber ← json.item "secondNumber"
  return ⟨user, calculationType, price, firstNumber.pyStr, secondNumber.pyStr⟩

def priceTooLow : Response := ⟨400, .text "Price cannot be < 1"⟩

/-- `calculate2`, once the fields are read. -/
def calculateFields (relay : ℕ → ℕ) (f : CalculateFields) : ControlHandler :=
  match f.price.floatLtOne with
  | .error e => .ret (.error e)
  | .ok true => .ret (.ok priceTooLow)
  | .ok false =>
    match f.user with
    | .str user =>
      checkAndCharge user f.price (dispatch relay f.calculationType f.firstNumber f.secondNumber)
    -- only a text can be appended to `user=`
    | _ => .ret (.error .typeError)

/-- Both copies of `calculate2`, up to the status they relay. -/
def calculateWith (relay : ℕ → ℕ) (body : JsonBody) : ControlHandler :=
  match body with
  | .malformed => .ret (.ok ⟨400, .text "Bad Request"⟩)
  | .other => .ret (.error .typeError)
  | .object json =>
    match readFields json with
    | .error e => .ret (.error e)
    | .ok f => calculateFields relay f

/-- `calculate2` of docker/services/control-center: the status is passed on. -/
def calculate2 (body : JsonBody) : ControlHandler := calculateWith id body

/-! ### What an execution has done -/

/-- The event is an acknowledged charge. -/
def isPaid : UpstreamEvent → Bool
  | ⟨.billing .post .chargeAccount _, .ok response⟩ => response.status == 200
  | _ => false

/-- The event is a charge, whatever came of it. -/
def isCharge : UpstreamEvent → Bool
  | ⟨.billing .post .chargeAccount _, _⟩ => true
  | _ => false

/-- The event is a call to the calculation service. -/
def isCalculation : UpstreamEvent → Bool
  | ⟨.postCalculation _ _, _⟩ => true
  | _ => false

/-- The calculation service answered, with a status that satisfies `P`. -/
def calculationAnswered (P : ℕ → Bool) : UpstreamEvent → Bool
  | ⟨.awaitCalculation, .ok response⟩ => P response.status
  | _ => false

theorem isCharge_of_isPaid {e : UpstreamEvent} (h : isPaid e) : isCharge e := by
  unfold isPaid at h
  split at h
  · rfl
  · cases h

/-- The calls that leave every account as it is. -/
def Upstream.Reads : Upstream → Prop
  | billing method route _ => method = .get ∧ route = .getAccountInfo
  | _ => True

/-- The handler ended with the answer of the calculation service. -/
def Relayed (relay : ℕ → ℕ) (tr : List UpstreamEvent) (r : Except PyError Response) : Prop :=
  ∃ response, ⟨.awaitCalculation, .ok response⟩ ∈ tr ∧
    r = .ok ⟨relay response.status, response.body⟩

/-- The handler ended in an error of its own. -/
def Failed (r : Except PyError Response) : Prop := (answer r).status ∈ [400, 403, 500]

/-- What `calculate2` has done when it has got the answers `tr` and has
become `q`. -/
structure Progress (relay : ℕ → ℕ) (tr : List UpstreamEvent) (q : ControlHandler) : Prop where
  calculation_le : tr.countP isCalculation ≤ tr.countP isPaid
  charge_le : tr.countP isCharge ≤ 1
  reads : ∀ e ∈ tr, isCharge e ∨ e.op.Reads
  result : ∀ r, q = .ret r → Relayed relay tr r ∧ tr.countP isPaid = 1 ∨ Failed r

theorem Failed.error (e : PyError) : Failed (.error e) := by simp [Failed]

theorem Failed.badRequest (b : Body) : Failed (.ok ⟨400, b⟩) := by simp [Failed]

/-- A handler that ends at once, in an error of its own. -/
theorem Progress.failed {relay : ℕ → ℕ} {tr : List UpstreamEvent} {q : ControlHandler}
    {r : Except PyError Response} (hr : Failed r) (h : (Prog.ret r : ControlHandler).Path tr q) :
    Progress relay tr q := by
  obtain ⟨rfl, rfl⟩ := Prog.path_ret_iff.mp h
  refine ⟨by simp, by simp, by simp, ?_⟩
  rintro r' hr'
  cases hr'
  exact .inr hr

/-- What follows an acknowledged charge, in the same way: one calculation at
most, and no further charge. -/
structure Dispatched (relay : ℕ → ℕ) (tr : List UpstreamEvent) (q : ControlHandler) : Prop where
  calculation_le : tr.countP isCalculation ≤ 1
  charge_eq : tr.countP isCharge = 0
  reads : ∀ e ∈ tr, e.op.Reads
  result : ∀ r, q = .ret r → Relayed relay tr r ∨ Failed r

theorem Dispatched.failed {relay : ℕ → ℕ} {tr : List UpstreamEvent} {q : ControlHandler}
    {r : Except PyError Response} (hr : Failed r) (h : (Prog.ret r : ControlHandler).Path tr q) :
    Dispatched relay tr q := by
  obtain ⟨rfl, rfl⟩ := Prog.path_ret_iff.mp h
  refine ⟨by simp, by simp, by simp, ?_⟩
  rintro r' hr'
  cases hr'
  exact .inr hr

/-- Asking the calculation service is one call and one answer. -/
theorem postAndRelay_path {relay : ℕ → ℕ} {url : String}
    {data : Option (List (String × String))} {tr : List UpstreamEvent} {q : ControlHandler}
    (h : (postAndRelay relay url data).Path tr q) : Dispatched relay tr q := by
  rcases Prog.path_call_iff.mp h with ⟨rfl, rfl⟩ | ⟨_, tr₁, rfl, h₁⟩
  · refine ⟨by simp, by simp, by simp, ?_⟩
    intro r hr
    cases hr
  rcases Prog.path_call_iff.mp h₁ with ⟨rfl, rfl⟩ | ⟨response, tr₂, rfl, h₂⟩
  · refine ⟨by simp [isCalculation], by simp [isCharge], by simp [Upstream.Reads], ?_⟩
    intro r hr
    cases hr
  cases response with
  | error e =>
    obtain ⟨rfl, rfl⟩ := Prog.path_ret_iff.mp h₂
    refine ⟨le_rfl, rfl, by simp [Upstream.Reads], ?_⟩
    intro r hr
    cases hr
    exact .inr (.error e)
  | ok response =>
    obtain ⟨rfl, rfl⟩ := Prog.path_ret_iff.mp h₂
    refine ⟨le_rfl, rfl, by simp [Upstream.Reads], ?_⟩
    intro r hr
    cases hr
    exact .inl ⟨response, by simp, rfl⟩

theorem dispatch_path {relay : ℕ → ℕ} {calculationType : JsonValue}
    {firstNumber secondNumber : String} {tr : List UpstreamEvent} {q : ControlHandler}
    (h : (dispatch relay calculationType firstNumber secondNumber).Path tr q) :
    Dispatched relay tr q := by
  unfold dispatch at h
  split at h
  · dsimp only at h
    split_ifs at h
    · exact postAndRelay_path h
    · exact postAndRelay_path h
    · exact .failed (by simp [Failed, forbidden]) h
  · exact .failed (.error _) h

/-- A call that only reads adds nothing to what is counted. -/
theorem Progress.cons {relay : ℕ → ℕ} {tr : List UpstreamEvent} {q : ControlHandler}
    (h : Progress relay tr q) {query : String} (a : Except PyError Response) :
    Progress relay (⟨.billing .get .getAccountInfo query, a⟩ :: tr) q := by
  have hpaid : ¬ isPaid ⟨.billing .get .getAccountInfo query, a⟩ := by simp [isPaid]
  have hcharge : ¬ isCharge ⟨.billing .get .getAccountInfo query, a⟩ := by simp [isCharge]
  have hcalc : ¬ isCalculation ⟨.billing .get .getAccountInfo query, a⟩ := by
    simp [isCalculation]
  obtain ⟨hle, hone, hreads, hres⟩ := h
  refine ⟨?_, ?_, ?_, ?_⟩
  · rwa [List.countP_cons_of_neg hcalc, List.countP_cons_of_neg hpaid]
  · rwa [List.countP_cons_of_neg hcharge]
  · intro e he
    rcases List.mem_cons.mp he with rfl | he
    · exact .inr ⟨rfl, rfl⟩
    · exact hreads e he
  · intro r hr
    rw [List.countP_cons_of_neg hpaid]
    rcases hres r hr with ⟨⟨response, hmem, hr⟩, hpaid⟩ | hfail
    · exact .inl ⟨⟨response, List.mem_cons_of_mem _ hmem, hr⟩, hpaid⟩
    · exact .inr hfail

/-- A stopped handler that has called at most once, for a charge. -/
theorem Progress.stopped {relay : ℕ → ℕ} {op : Upstream}
    {next : op.Ans → ControlHandler} : Progress relay [] (.call op next) := by
  refine ⟨by simp, by simp, by simp, ?_⟩
  intro r hr
  cases hr

/-- A charge that is not acknowledged ends the handler. -/
theorem Progress.unpaid {relay : ℕ → ℕ} {query : String} {a r : Except PyError Response}
    {tr : List UpstreamEvent} {q : ControlHandler} (hr : Failed r)
    (h : (Prog.ret r : ControlHandler).Path tr q) :
    Progress relay (⟨.billing .post .chargeAccount query, a⟩ :: tr) q := by
  obtain ⟨rfl, rfl⟩ := Prog.path_ret_iff.mp h
  refine ⟨by simp [isCalculation], by simp [isCharge], by simp [isCharge], ?_⟩
  intro r' hr'
  cases hr'
  exact .inr hr

/-- An acknowledged charge, and what follows it. -/
theorem Progress.paid {relay : ℕ → ℕ} {query : String} {response : Response}
    (hst : response.status = 200) {tr : List UpstreamEvent} {q : ControlHandler}
    (h : Dispatched relay tr q) :
    Progress relay (⟨.billing .post .chargeAccount query, .ok response⟩ :: tr) q := by
  obtain ⟨hcalc, hcharge, hreads, hres⟩ := h
  have hpaid : isPaid ⟨.billing .post .chargeAccount query, .ok response⟩ := by
    simp [isPaid, hst]
  have hnone : tr.countP isPaid = 0 := by
    have hmono : tr.countP isPaid ≤ tr.countP isCharge :=
      List.countP_mono_left fun e _ h => isCharge_of_isPaid h
    omega
  have hskip : ¬ isCalculation ⟨.billing .post .chargeAccount query, .ok response⟩ := by
    simp [isCalculation]
  refine ⟨?_, ?_, ?_, ?_⟩
  · rw [List.countP_cons_of_neg hskip, List.countP_cons_of_pos hpaid]
    omega
  · rw [List.countP_cons_of_pos (isCharge_of_isPaid hpaid)]
    omega
  · intro e he
    rcases List.mem_cons.mp he with rfl | he
    · exact .inl rfl
    · exact .inr (hreads e he)
  · intro r hr
    rcases hres r hr with ⟨answered, hmem, hr⟩ | hfail
    · refine .inl ⟨⟨answered, List.mem_cons_of_mem _ hmem, hr⟩, ?_⟩
      rw [List.countP_cons_of_pos hpaid, hnone]
    · exact .inr hfail

/-- The lookup, the charge, and what follows an acknowledged charge. -/
theorem checkAndCharge_path {relay : ℕ → ℕ} {user : String} {price calculationType : JsonValue}
    {firstNumber secondNumber : String} {tr : List UpstreamEvent} {q : ControlHandler}
    (h : (checkAndCharge user price
      (dispatch relay calculationType firstNumber secondNumber)).Path tr q) :
    Progress relay tr q := by
  -- the lookup comes first, and counts for nothing
  rcases Prog.path_call_iff.mp h with ⟨rfl, rfl⟩ | ⟨accountInfo, tr₁, rfl, h₁⟩
  · exact .stopped
  refine Progress.cons ?_ accountInfo
  dsimp only [Prog.bind_ret] at h₁
  split at h₁
  · exact .failed (.error _) h₁
  split_ifs at h₁
  · exact .failed (.badRequest _) h₁
  · split at h₁
    · exact .failed (.error _) h₁
    · -- the charge: refused, it ends the handler; acknowledged, it covers one calculation
      rcases Prog.path_call_iff.mp h₁ with ⟨rfl, rfl⟩ | ⟨chargeResponse, tr₂, rfl, h₂⟩
      · exact .stopped
      dsimp only [Prog.bind_ret] at h₂
      split at h₂
      · exact .unpaid (.error _) h₂
      split_ifs at h₂ with hst
      · exact .unpaid (.badRequest _) h₂
      · exact .paid (not_not.mp hst) (dispatch_path h₂)

/-- **A calculation is asked for only after the charge was acknowledged**, and
there is at most one charge. -/
theorem calculateWith_path {relay : ℕ → ℕ} {body : JsonBody} {tr : List UpstreamEvent}
    {q : ControlHandler} (h : (calculateWith relay body).Path tr q) : Progress relay tr q := by
  unfold calculateWith at h
  split at h
  · exact .failed (.badRequest _) h
  · exact .failed (.error _) h
  · split at h
    · exact .failed (.error _) h
    · unfold calculateFields at h
      split at h
      · exact .failed (.error _) h
      · exact .failed (.badRequest _) h
      · split at h
        · exact checkAndCharge_path h
        · exact .failed (.error _) h

/-! ### One execution alone -/

/-- A query as it reaches the billing service: what `requests` sends of the
text, read back by Werkzeug. -/
def billingRequest (method : Method) (query : String) : Request :=
  ⟨method, parseQuery (sendQuery query.toList)⟩

/-- The accounts with nobody else around; `outcome` is that of the call to
the calculation service. -/
def serveAlone (outcome : Users → Except PyError Response) (users : Users) :
    (op : Upstream) → op.Ans × Users
  | .billing method route query =>
    let served := serveBilling users route (billingRequest method query)
    (.ok served.1, served.2)
  | .postCalculation _ _ => ((), users)
  | .awaitCalculation => (outcome users, users)

/-- `users'` is `users` after one account has paid. -/
def Paid (users users' : Users) : Prop :=
  ∃ user balance amount, users user = some balance ∧ 0 < amount ∧ amount ≤ balance ∧
    users' = Function.update users user (some (balance - amount))

/-- The `calculationType` of a body is one that `calculate2` dispatches on. -/
def KnownType (body : JsonBody) : Prop :=
  ∃ json f calculationType, body = .object json ∧ readFields json = .ok f ∧
    f.calculationType = .str calculationType ∧
    calculationType ∈ ["add", "multiply", "prime", "fibonacci"]

/-- A body as the gateway's test scripts send it. -/
def sampleBody (user calculationType price firstNumber : String) : JsonBody :=
  .object [("user", .str user), ("calculationType", .str calculationType),
    ("price", .str price), ("firstNumber", .str firstNumber), ("secondNumber", .str "2")]

/-- One account. -/
def sampleUsers (user : String) (balance : ℤ) : Users :=
  Function.update (fun _ => none) (some user) (some balance)

end ResilientMesh
