/-
ResilientMesh/Forwarding.lean

The account routes of the control-center (docker/services).  Each hands the
query of its request on to the billing service and answers with the body that
came back; it gives `Response` no status, so the answer is a 200.

Main results: behind a route, billing is asked exactly what the client asked
(`run_handler`), so the accounts move as if the client had asked it
(`run_handler_users`); and the client is told what billing answered exactly if
billing accepts the request (`clientResponse_iff`).  Billing accepts no amount
of more than 4300 digits, which `int` does not read, and shows no balance of
more, which `json` does not write.
-/
import ResilientMesh.ControlCenter
import ResilientMesh.UrlEncode

namespace ResilientMesh

namespace ControlCenter

/-! ### Handlers -/

/-- `urlencode(request.args)`. -/
def queryParams (req : Request) : String := urlencode (firstItems req.args)

/-- `Response(response, mimetype='application/json')`: the body is passed on, and
the status is the default. -/
def jsonResponse (response : Except PyError Response) : ControlHandler :=
  match response with
  | .error e => .ret (.error e)
  | .ok response => .ret (.ok ⟨200, response.body⟩)

/-- One call to the billing service, and its answer. -/
def forward (method : Method) (route : BillingRoute) (req : Request) : ControlHandler :=
  .call (.billing method route (queryParams req)) jsonResponse

def addAccount (req : Request) : ControlHandler := forward .post .createAccount req

def depositAccount (req : Request) : ControlHandler := forward .post .depositAccount req

def chargeAccount (req : Request) : ControlHandler := forward .post .chargeAccount req

def getAccountInfo (req : Request) : ControlHandler :=
  (getAccountInfo_ (queryParams req)).bind jsonResponse

def removeAccount (req : Request) : ControlHandler := forward .delete .deleteAccount req

end ControlCenter

/-- The routes that hand their request on. -/
inductive AccountRoute
  | createAccount
  | depositAccount
  | chargeAccount
  | getAccountInfo
  | deleteAccount
  deriving DecidableEq

namespace AccountRoute

def handler : AccountRoute → Request → ControlHandler
  | createAccount => ControlCenter.addAccount
  | depositAccount => ControlCenter.depositAccount
  | chargeAccount => ControlCenter.chargeAccount
  | getAccountInfo => ControlCenter.getAccountInfo
  | deleteAccount => ControlCenter.removeAccount

/-- The route of the billing service behind a route. -/
def billing : AccountRoute → BillingRoute
  | createAccount => .createAccount
  | depositAccount => .depositAccount
  | chargeAccount => .chargeAccount
  | getAccountInfo => .getAccountInfo
  | deleteAccount => .deleteAccount

/-- The method a route asks billing with, the one it is registered for. -/
def method : AccountRoute → Method
  | createAccount => .post
  | depositAccount => .post
  | chargeAccount => .post
  | getAccountInfo => .get
  | deleteAccount => .delete

/-- Every route is one call. -/
theorem handler_eq_forward (route : AccountRoute) (req : Request) :
    route.handler req = ControlCenter.forward route.method route.billing req := by
  cases route <;> rfl

/-- The request of a client, put to billing directly. -/
def direct (route : AccountRoute) (req : Request) : Request := ⟨route.method, req.args⟩

end AccountRoute

/-! ### The request that is handed on -/

/-- A billing handler sees of a request its method, its user and its amount. -/
theorem billing_congr {req req' : Request} (hmethod : req.method = req'.method)
    (huser : req.get "user" = req'.get "user") (hamount : req.get "amount" = req'.get "amount")
    (route : BillingRoute) : billing route req = billing route req' := by
  cases route with
  | isUserExists =>
    show isUserExists req = isUserExists req'
    rw [isUserExists, isUserExists, hmethod, huser]
    apply if_congr Iff.rfl _ rfl
    apply congrArg (Prog.call _)
    funext present
    cases present <;> rfl
  | createAccount =>
    show addAccount req = addAccount req'
    rw [addAccount, addAccount, hmethod, huser]
  | depositAccount =>
    show depositAccount req = depositAccount req'
    rw [depositAccount, depositAccount, hmethod, huser, hamount]
  | chargeAccount =>
    show chargeAccount req = chargeAccount req'
    rw [chargeAccount, chargeAccount, hmethod, huser, hamount]
  | getAccountInfo =>
    show getAccountInfo req = getAccountInfo req'
    rw [getAccountInfo, getAccountInfo, hmethod, huser]
  | deleteAccount =>
    show removeAccount req = removeAccount req'
    rw [removeAccount, removeAccount, hmethod, huser]

/-- **No field is changed on the way.** -/
theorem get_billingRequest (method : Method) (req : Request) (key : String) :
    (billingRequest method (ControlCenter.queryParams req)).get key = req.get key := by
  show (parseQuery (sendQuery (ControlCenter.queryParams req).toList)).lookup key
    = req.args.lookup key
  rw [ControlCenter.queryParams, parseQuery_urlencode, lookup_firstItems]

theorem serveBilling_forwarded (users : Users) (route : AccountRoute) (req : Request) :
    serveBilling users route.billing
        (billingRequest route.method (ControlCenter.queryParams req))
      = serveBilling users route.billing (route.direct req) := by
  have hsame : billing route.billing
      (billingRequest route.method (ControlCenter.queryParams req))
        = billing route.billing (route.direct req) := by
    apply billing_congr
    · rfl
    · exact get_billingRequest route.method req "user"
    · exact get_billingRequest route.method req "amount"
  rw [serveBilling, serveBilling, hsame]

/-! ### What the client sees -/

variable (outcome : Users → Except PyError Response)

/-- **The body and the accounts are billing's, the status is 200.** -/
theorem run_handler (users : Users) (route : AccountRoute) (req : Request) :
    (route.handler req).run (serveAlone outcome) users
      = (.ok ⟨200, (serveBilling users route.billing (route.direct req)).1.body⟩,
          (serveBilling users route.billing (route.direct req)).2) := by
  rw [AccountRoute.handler_eq_forward, ControlCenter.forward, Prog.run_call]
  dsimp only [serveAlone]
  rw [serveBilling_forwarded]
  rfl

/-- The accounts move as if billing had been asked directly. -/
theorem run_handler_users (users : Users) (route : AccountRoute) (req : Request) :
    ((route.handler req).run (serveAlone outcome) users).2
      = (movement users route.billing (route.direct req)).apply users := by
  rw [run_handler]
  exact serveBilling_users users route.billing (route.direct req)

/-- What the client of a route receives. -/
def clientResponse (users : Users) (route : AccountRoute) (req : Request) : Response :=
  answer ((route.handler req).run (serveAlone outcome) users).1

/-- Billing accepts the request: an account is opened once, what is paid in or
out can be paid, and there is an account to show or to delete.  What is shown
has no more digits than can be written. -/
def Accepted (users : Users) (route : AccountRoute) (req : Request) : Prop :=
  let user := req.get "user"
  match route with
  | .createAccount => users user = none
  | .depositAccount => ∃ amount balance, payable req = some amount ∧ users user = some balance ∧
      FitsDigits (balance + amount)
  | .chargeAccount => ∃ amount balance, payable req = some amount ∧ users user = some balance ∧
      amount ≤ balance ∧ FitsDigits (balance - amount)
  | .getAccountInfo => ∃ balance, users user = some balance ∧ FitsDigits balance
  | .deleteAccount => ∃ balance, users user = some balance

/-- **Billing answers 200 exactly to what it accepts.** -/
theorem serveBilling_ok_iff (users : Users) (route : AccountRoute) (req : Request) :
    (serveBilling users route.billing (route.direct req)).1.status = 200
      ↔ Accepted users route req := by
  have huser : (route.direct req).get "user" = req.get "user" := rfl
  have hpay : payable (route.direct req) = payable req := rfl
  cases route with
  | createAccount =>
    apply (run_addAccount users (AccountRoute.direct .createAccount req)).2.trans
    rw [movement, huser, Accepted]
    by_cases hnone : users (req.get "user") = none
    · rw [if_pos ⟨rfl, hnone⟩, Movement.apply, showable_some (Function.update_self ..)]
      exact iff_of_true ⟨by rintro ⟨⟩, fitsDigits_zero⟩ hnone
    · rw [if_neg fun h => hnone h.2]
      exact iff_of_false (fun h => h.1 rfl) hnone
  | depositAccount =>
    apply (run_depositAccount users (AccountRoute.direct .depositAccount req)).2.trans
    rw [movement, huser, hpay]
    cases hamount : payable req with
    | none => simp [Accepted, hamount]
    | some amount =>
      cases hbalance : users (req.get "user") with
      | none => simp [Accepted, hbalance]
      | some balance =>
        have hpost : (AccountRoute.direct .depositAccount req).method = .post := rfl
        dsimp only
        rw [if_pos hpost, showable_some (Movement.deposit_self amount hbalance)]
        simp [Accepted, hamount, hbalance]
  | chargeAccount =>
    apply (run_chargeAccount users (AccountRoute.direct .chargeAccount req)).2.trans
    rw [movement, huser, hpay]
    cases hamount : payable req with
    | none => simp [Accepted, hamount]
    | some amount =>
      cases hbalance : users (req.get "user") with
      | none => simp [Accepted, hbalance]
      | some balance =>
        by_cases hle : amount ≤ balance
        · dsimp only
          rw [if_pos ⟨rfl, hle⟩, showable_some (Movement.charge_self amount hbalance)]
          simp [Accepted, hamount, hbalance, hle]
        · simp [Accepted, hamount, hbalance, hle]
  | getAccountInfo =>
    apply (run_getAccountInfo users (AccountRoute.direct .getAccountInfo req)).2.trans
    rw [huser]
    simp [AccountRoute.direct, AccountRoute.method, Accepted]
  | deleteAccount =>
    apply (run_removeAccount users (AccountRoute.direct .deleteAccount req)).2.trans
    rw [movement, huser, Accepted, ← Option.isSome_iff_exists]
    by_cases hsome : (users (req.get "user")).isSome
    · rw [if_pos ⟨rfl, hsome⟩]
      exact iff_of_true ⟨by rintro ⟨⟩, showable_none (Function.update_self ..)⟩ hsome
    · rw [if_neg fun h => hsome h.2]
      exact iff_of_false (fun h => h.1 rfl) hsome

/-- **The client is told what billing answered exactly if billing accepts the
request**: a refusal reaches it as a 200. -/
theorem clientResponse_iff (users : Users) (route : AccountRoute) (req : Request) :
    clientResponse outcome users route req
        = (serveBilling users route.billing (route.direct req)).1
      ↔ Accepted users route req := by
  rw [← serveBilling_ok_iff, clientResponse, run_handler, answer_ok]
  generalize (serveBilling users route.billing (route.direct req)).1 = response
  constructor
  · intro h
    rw [← h]
  · intro hst
    rw [← hst]

/-- An unknown user's account is looked up with success. -/
theorem clientResponse_unknown :
    ¬ ∀ (outcome : Users → Except PyError Response) (users : Users) (route : AccountRoute)
      (req : Request),
      clientResponse outcome users route req
        = (serveBilling users route.billing (route.direct req)).1 := by
  intro h
  have hsame := congrArg Response.status
    (h (fun _ => .error .connectionError) (fun _ => none) .getAccountInfo
      ⟨.get, [("user", "ruslan")]⟩)
  -- billing refuses the lookup, and the client is told 200
  rw [clientResponse, run_handler, answer_ok] at hsame
  revert hsame
  decide +kernel

end ResilientMesh
