/-
ResilientMesh/Billing.lean

The billing service.  Its state is the dictionary `users`; a handler is a
program over the dictionary's four primitive operations, in the order the
source makes them, so that it can be run alone as one atomic step
(`serveBilling`) or step by step among others.

The key of an account is `Option String`: a request without a `user` field
gives the key `None`, which the dictionary accepts like any other.

The account is shown after it was written, and a balance of more than 4300
digits cannot be: such a request is answered 500 although it has moved money.

Main results: alone, a handler does exactly one movement of the ledger
(`serveBilling_users`), one the ledger admits (`movement_allowed`), and a refused
request moves nothing, unless what it leaves cannot be shown
(`serveBilling_refused`).
-/
import ResilientMesh.Http
import ResilientMesh.Interaction
import ResilientMesh.Ledger

namespace ResilientMesh

/-! ### The dictionary -/

abbrev UserKey := Option String

abbrev Users := Ledger UserKey ℤ

/-- The primitive operations on `users`. -/
inductive UsersOp
  | contains (user : UserKey)
  | getItem (user : UserKey)
  | setItem (user : UserKey) (balance : ℤ)
  | delItem (user : UserKey)

/-- What they give back; a missing key is a `KeyError`. -/
def UsersOp.Ans : UsersOp → Type
  | contains _ => Bool
  | getItem _ => Option ℤ
  | setItem _ _ => Unit
  | delItem _ => Bool

/-- A dictionary does what it is asked. -/
def usersServe (users : Users) : (op : UsersOp) → op.Ans × Users
  | .contains user => ((users user).isSome, users)
  | .getItem user => (users user, users)
  | .setItem user balance => ((), Function.update users user (some balance))
  | .delItem user => ((users user).isSome, Function.update users user none)

abbrev BillingProg (α : Type) := Prog UsersOp UsersOp.Ans α

/-- A handler ends in a response or an exception. -/
abbrev BillingHandler := BillingProg (Except PyError Response)

/-! ### Helpers -/

/-- `try_to_int`: only `ValueError` is caught, so a missing amount raises. -/
def tryToInt : Option String → Except PyError (Option ℤ)
  | none => .error .typeError
  | some amount => .ok (pyInt amount.toList)

def userJson : UserKey → JsonValue
  | none => .null
  | some user => .str user

def accountInfo (user : UserKey) (balance : ℤ) : Body :=
  .object [("name", userJson user), ("balance", .int balance)]

/-- `get_account_info_by_username`. -/
def getAccountInfoByUsername (user : UserKey) : BillingProg (Except PyError Body) :=
  .call (.getItem user) fun balance =>
    match balance with
    | none => .ret (.error .keyError)
    | some balance => .ret (.ok (accountInfo user balance))

/-- A response around a body that may have failed to be built, or fails to be
written. -/
def makeResponse (body : Except PyError Body) (code : ℕ) : Except PyError Response :=
  body.bind fun body => if body.writable then .ok ⟨code, body⟩ else .error .valueError

theorem makeResponse_ok {body : Body} (h : body.writable = true) (code : ℕ) :
    makeResponse (.ok body) code = .ok ⟨code, body⟩ := if_pos h

/-- A message with the user's name in it; `None` cannot be concatenated. -/
def userMessage (pre : String) (user : UserKey) (post : String) : Except PyError String :=
  match user with
  | none => .error .typeError
  | some user => .ok (pre ++ user ++ post)

def errorBody (msg : String) : Body := .object [("Error", .str msg)]

def doesNotExist (user : UserKey) : Except PyError Response :=
  makeResponse ((userMessage "User " user " does not exist.").map errorBody) 400

def badAmount : Response := ⟨400, errorBody "Amount is not a number or negative."⟩

def insufficientFunds : Response :=
  ⟨400, errorBody "Account balance cannot be charged (Reason: Insufficient funds)"⟩

/-! ### Handlers -/

def isUserExists (req : Request) : BillingHandler :=
  if req.method = .get then
    .call (.contains (req.get "user")) fun present =>
      match present with
      | true => .ret (.ok ⟨200, .text ""⟩)
      | false => .ret (.ok ⟨404, .text ""⟩)
  else .ret (.ok forbidden)

def addAccount (req : Request) : BillingHandler :=
  if req.method = .post then
    let user := req.get "user"
    .call (.contains user) fun present =>
      match present with
      | true =>
        .ret (makeResponse ((userMessage "User " user " is already registered.").map errorBody) 400)
      | false =>
        -- a new account holds nothing
        .call (.setItem user 0) fun _ =>
          (getAccountInfoByUsername user).bind fun body => .ret (makeResponse body 200)
  else .ret (.ok forbidden)

def depositAccount (req : Request) : BillingHandler :=
  if req.method = .post then
    let user := req.get "user"
    -- the amount is read before the user is looked up, and may raise
    match tryToInt (req.get "amount") with
    | .error e => .ret (.error e)
    | .ok amount =>
      .call (.contains user) fun present =>
        match present with
        | true =>
          match amount with
          | none => .ret (.ok badAmount)
          | some amount =>
            if amount ≤ 0 then .ret (.ok badAmount)
            else .call (.getItem user) fun balance =>
              match balance with
              | none => .ret (.error .keyError)
              | some balance =>
                .call (.setItem user (balance + amount)) fun _ =>
                  (getAccountInfoByUsername user).bind fun body => .ret (makeResponse body 200)
        | false => .ret (doesNotExist user)
  else .ret (.ok forbidden)

def chargeAccount (req : Request) : BillingHandler :=
  if req.method = .post then
    let user := req.get "user"
    match tryToInt (req.get "amount") with
    | .error e => .ret (.error e)
    | .ok amount =>
      .call (.contains user) fun present =>
        match present with
        | true =>
          match amount with
          | none => .ret (.ok badAmount)
          | some amount =>
            if amount ≤ 0 then .ret (.ok badAmount)
            else .call (.getItem user) fun balance =>
              match balance with
              -- only if the account was deleted since it was seen
              | none => .ret (.error .keyError)
              | some balance =>
                let diff := balance - amount
                if diff < 0 then .ret (.ok insufficientFunds)
                else .call (.setItem user diff) fun _ =>
                  (getAccountInfoByUsername user).bind fun body => .ret (makeResponse body 200)
        | false => .ret (doesNotExist user)
  else .ret (.ok forbidden)

def getAccountInfo (req : Request) : BillingHandler :=
  if req.method = .get then
    let user := req.get "user"
    .call (.contains user) fun present =>
      match present with
      | true => (getAccountInfoByUsername user).bind fun body => .ret (makeResponse body 200)
      | false => .ret (doesNotExist user)
  else .ret (.ok forbidden)

def removeAccount (req : Request) : BillingHandler :=
  if req.method = .delete then
    let user := req.get "user"
    .call (.contains user) fun present =>
      match present with
      | true =>
        .call (.delItem user) fun removed =>
          match removed with
          | true => .ret (.ok ⟨200, .text "User was successfully deleted."⟩)
          | false => .ret (.error .keyError)
      | false =>
        .ret (makeResponse ((userMessage "User " user " does not exist.").map .text) 404)
  else .ret (.ok forbidden)

/-- The routes of the billing service that look at `users`. -/
inductive BillingRoute
  | isUserExists
  | createAccount
  | depositAccount
  | chargeAccount
  | getAccountInfo
  | deleteAccount
  deriving DecidableEq

def billing : BillingRoute → Request → BillingHandler
  | .isUserExists => isUserExists
  | .createAccount => addAccount
  | .depositAccount => depositAccount
  | .chargeAccount => chargeAccount
  | .getAccountInfo => getAccountInfo
  | .deleteAccount => removeAccount

/-- A request served alone: the response and the accounts after it. -/
def serveBilling (users : Users) (route : BillingRoute) (req : Request) : Response × Users :=
  let r := (billing route req).run usersServe users
  (answer r.1, r.2)

/-! ### What a request does to the ledger -/

/-- The amount of a request that can be paid in or out. -/
def payable (req : Request) : Option ℤ :=
  match tryToInt (req.get "amount") with
  | .ok (some amount) => if amount ≤ 0 then none else some amount
  | _ => none

/-- The movement that a request is. -/
def movement (users : Users) (route : BillingRoute) (req : Request) : Movement UserKey ℤ :=
  let user := req.get "user"
  match route with
  | .isUserExists => .keep
  | .getAccountInfo => .keep
  | .createAccount =>
    if req.method = .post ∧ users user = none then .create user else .keep
  | .depositAccount =>
    match payable req, users user with
    | some amount, some _ => if req.method = .post then .deposit user amount else .keep
    | _, _ => .keep
  | .chargeAccount =>
    match payable req, users user with
    | some amount, some balance =>
      if req.method = .post ∧ amount ≤ balance then .charge user amount else .keep
    | _, _ => .keep
  | .deleteAccount =>
    if req.method = .delete ∧ (users user).isSome then .delete user else .keep

theorem payable_eq_some_iff {req : Request} {amount : ℤ} :
    payable req = some amount ↔ tryToInt (req.get "amount") = .ok (some amount) ∧ 0 < amount := by
  rw [payable]
  split
  · rename_i named hnamed
    rw [hnamed, Except.ok.injEq, Option.some.injEq]
    by_cases hle : named ≤ 0
    · rw [if_pos hle]
      exact iff_of_false (Option.some_ne_none _).symm fun h => not_lt.mpr hle (h.1 ▸ h.2)
    · rw [if_neg hle, Option.some.injEq]
      exact ⟨fun h => ⟨h, h ▸ not_le.mp hle⟩, And.left⟩
  · rename_i hnot
    exact iff_of_false (Option.some_ne_none _).symm fun h => hnot amount h.1

theorem payable_pos {req : Request} {amount : ℤ} (h : payable req = some amount) : 0 < amount :=
  (payable_eq_some_iff.mp h).2

/-- What can be read can be written. -/
theorem payable_fits {req : Request} {amount : ℤ} (h : payable req = some amount) :
    FitsDigits amount := by
  have hnamed := (payable_eq_some_iff.mp h).1
  cases htext : req.get "amount" with
  | none =>
    rw [htext] at hnamed
    cases hnamed
  | some text =>
    rw [htext, tryToInt, Except.ok.injEq] at hnamed
    exact fitsDigits_of_pyInt hnamed

theorem payable_error {req : Request} {e : PyError} (h : tryToInt (req.get "amount") = .error e) :
    payable req = none := by
  rw [payable, h]

/-- A named amount that is not positive cannot be paid in or out. -/
theorem payable_eq_none {req : Request} {amount : Option ℤ}
    (h : tryToInt (req.get "amount") = .ok amount) (hbad : ∀ a, amount = some a → a ≤ 0) :
    payable req = none := by
  by_contra hne
  obtain ⟨a, ha⟩ := Option.ne_none_iff_exists'.mp hne
  obtain ⟨hnamed, hpos⟩ := payable_eq_some_iff.mp ha
  rw [h] at hnamed
  exact not_lt.mpr (hbad a (Except.ok.inj hnamed)) hpos

/-- What a request moves, and when. -/
inductive Moves (users : Users) (req : Request) : BillingRoute → Movement UserKey ℤ → Prop
  | keep (route : BillingRoute) : Moves users req route .keep
  | create : req.method = .post → users (req.get "user") = none →
      Moves users req .createAccount (.create (req.get "user"))
  | deposit {amount balance : ℤ} : req.method = .post → payable req = some amount →
      users (req.get "user") = some balance →
      Moves users req .depositAccount (.deposit (req.get "user") amount)
  | charge {amount balance : ℤ} : req.method = .post → payable req = some amount →
      users (req.get "user") = some balance → amount ≤ balance →
      Moves users req .chargeAccount (.charge (req.get "user") amount)
  | delete {balance : ℤ} : req.method = .delete → users (req.get "user") = some balance →
      Moves users req .deleteAccount (.delete (req.get "user"))

/-- **All that a request can move.** -/
theorem movement_moves (users : Users) (route : BillingRoute) (req : Request) :
    Moves users req route (movement users route req) := by
  cases route with
  | isUserExists => exact .keep _
  | getAccountInfo => exact .keep _
  | createAccount =>
    rw [movement]
    split_ifs with h
    · exact .create h.1 h.2
    · exact .keep _
  | deleteAccount =>
    rw [movement]
    split_ifs with h
    · obtain ⟨balance, hbalance⟩ := Option.isSome_iff_exists.mp h.2
      exact .delete h.1 hbalance
    · exact .keep _
  | depositAccount =>
    rw [movement]
    split
    · rename_i amount balance hpay huser
      split_ifs with hpost
      · exact .deposit hpost hpay huser
      · exact .keep _
    · exact .keep _
  | chargeAccount =>
    rw [movement]
    split
    · rename_i amount balance hpay huser
      split_ifs with h
      · exact .charge h.1 hpay huser h.2
      · exact .keep _
    · exact .keep _

theorem Moves.allowed {users : Users} {route : BillingRoute} {req : Request}
    {m : Movement UserKey ℤ} (h : Moves users req route m) : m.Allowed users := by
  cases h with
  | keep => trivial
  | create _ hnone => exact hnone
  | deposit _ hpay huser => exact ⟨payable_pos hpay, _, huser⟩
  | charge _ hpay huser hle => exact ⟨payable_pos hpay, _, huser, hle⟩
  | delete _ huser => exact ⟨_, huser⟩

/-- **A request is an admissible movement.** -/
theorem movement_allowed (users : Users) (route : BillingRoute) (req : Request) :
    (movement users route req).Allowed users := (movement_moves users route req).allowed

/-- Without an amount, or without the account, nothing is paid. -/
theorem movement_payment_keep {users : Users} {route : BillingRoute} {req : Request}
    (hroute : route = .depositAccount ∨ route = .chargeAccount)
    (h : payable req = none ∨ users (req.get "user") = none) :
    movement users route req = .keep := by
  have hmoves := movement_moves users route req
  generalize movement users route req = m at hmoves
  cases hmoves with
  | keep => rfl
  | create _ _ => simp at hroute
  | delete _ _ => simp at hroute
  | deposit _ hpay huser => simp [hpay, huser] at h
  | charge _ hpay huser _ => simp [hpay, huser] at h

@[simp] theorem run_getAccountInfoByUsername (users : Users) (user : UserKey) :
    (getAccountInfoByUsername user).run usersServe users
      = (match users user with
          | none => .error .keyError
          | some balance => .ok (accountInfo user balance), users) := by
  simp only [getAccountInfoByUsername, Prog.run_call, usersServe]
  cases users user <;> rfl

/-- A message about a user is an error response, or fails to be built. -/
theorem message_refused {code : ℕ} (hcode : code ≠ 200) (user : UserKey) (pre post : String)
    (f : String → Body) :
    (answer (makeResponse ((userMessage pre user post).map f) code)).status ≠ 200 := by
  cases user with
  | none => exact (by decide : 500 ≠ 200)
  | some user =>
    show (answer (if (f (pre ++ user ++ post)).writable then _ else _)).status ≠ 200
    split_ifs
    · exact hcode
    · exact (by decide : 500 ≠ 200)

theorem doesNotExist_refused (user : UserKey) : (answer (doesNotExist user)).status ≠ 200 :=
  message_refused (by decide : 400 ≠ 200) user "User " " does not exist." errorBody

/-- The account is there to be shown, or is not there: its balance is not too
long to be written. -/
def Showable (users : Users) (user : UserKey) : Prop :=
  ∀ balance, users user = some balance → FitsDigits balance

theorem showable_some {users : Users} {user : UserKey} {balance : ℤ}
    (h : users user = some balance) : Showable users user ↔ FitsDigits balance := by
  rw [Showable, h]
  exact ⟨fun hall => hall balance rfl, fun hfits _ heq => Option.some.inj heq ▸ hfits⟩

theorem showable_none {users : Users} {user : UserKey} (h : users user = none) :
    Showable users user := by
  intro balance hbalance
  rw [h] at hbalance
  cases hbalance

/-- The answer with the account in it. -/
def shownAccount (user : UserKey) (balance : ℤ) : Except PyError Response :=
  makeResponse (.ok (accountInfo user balance)) 200

theorem shownAccount_eq {balance : ℤ} (h : FitsDigits balance) (user : UserKey) :
    shownAccount user balance = .ok ⟨200, accountInfo user balance⟩ := by
  apply makeResponse_ok
  cases user <;> simp [accountInfo, Body.writable, JsonValue.writable, userJson, h]

theorem shownAccount_error {balance : ℤ} (h : ¬FitsDigits balance) (user : UserKey) :
    shownAccount user balance = .error .valueError := by
  have hnot : ¬(accountInfo user balance).writable = true := by
    simp [accountInfo, Body.writable, JsonValue.writable, h]
  exact if_neg hnot

theorem shownAccount_status (user : UserKey) (balance : ℤ) :
    (answer (shownAccount user balance)).status = 200 ↔ FitsDigits balance := by
  by_cases h : FitsDigits balance
  · rw [shownAccount_eq h]
    exact iff_of_true rfl h
  · rw [shownAccount_error h]
    exact iff_of_false (by decide) h

/-! ### What the handlers share -/

/-- How a handler ends that sets a balance: it shows the account. -/
def settle (user : UserKey) (balance : ℤ) : BillingHandler :=
  .call (.setItem user balance) fun _ =>
    (getAccountInfoByUsername user).bind fun body => .ret (makeResponse body 200)

theorem run_settle (users : Users) (user : UserKey) (balance : ℤ) :
    (settle user balance).run usersServe users
      = (shownAccount user balance, Function.update users user (some balance)) := by
  simp [settle, usersServe, Prog.run_bind, shownAccount]

/-- What a deposit and a charge have in common: the account must be there and
the amount be one, and then the balance is read. -/
def payment (user : UserKey) (amount : Option ℤ) (pay : ℤ → ℤ → BillingHandler) : BillingHandler :=
  .call (.contains user) fun present =>
    match present with
    | true =>
      match amount with
      | none => .ret (.ok badAmount)
      | some amount =>
        if amount ≤ 0 then .ret (.ok badAmount)
        else .call (.getItem user) fun balance =>
          match balance with
          | none => .ret (.error .keyError)
          | some balance => pay amount balance
    | false => .ret (doesNotExist user)

section Payment

variable {users : Users} {user : UserKey} {amount : Option ℤ} {pay : ℤ → ℤ → BillingHandler}

theorem run_payment_absent (h : users user = none) :
    (payment user amount pay).run usersServe users = (doesNotExist user, users) := by
  simp [payment, usersServe, h]

theorem run_payment_bad {balance : ℤ} (h : users user = some balance)
    (hbad : ∀ a, amount = some a → a ≤ 0) :
    (payment user amount pay).run usersServe users = (.ok badAmount, users) := by
  cases amount with
  | none => simp [payment, usersServe, h]
  | some amount => simp [payment, usersServe, h, hbad amount rfl]

theorem run_payment_due {balance a : ℤ} (h : users user = some balance) (hpos : 0 < a) :
    (payment user (some a) pay).run usersServe users = (pay a balance).run usersServe users := by
  simp [payment, usersServe, h, not_le.mpr hpos]

end Payment

section Handled

variable {users : Users} {req : Request} {amount : Option ℤ}

theorem depositAccount_eq (hpost : req.method = .post)
    (h : tryToInt (req.get "amount") = .ok amount) :
    depositAccount req = payment (req.get "user") amount fun amount balance =>
      settle (req.get "user") (balance + amount) := by
  rw [depositAccount, if_pos hpost, h]
  rfl

theorem chargeAccount_eq (hpost : req.method = .post)
    (h : tryToInt (req.get "amount") = .ok amount) :
    chargeAccount req = payment (req.get "user") amount fun amount balance =>
      if balance - amount < 0 then .ret (.ok insufficientFunds)
      else settle (req.get "user") (balance - amount) := by
  rw [chargeAccount, if_pos hpost, h]
  rfl

theorem depositAccount_error (hpost : req.method = .post) {e : PyError}
    (h : tryToInt (req.get "amount") = .error e) : depositAccount req = .ret (.error e) := by
  rw [depositAccount, if_pos hpost, h]

theorem chargeAccount_error (hpost : req.method = .post) {e : PyError}
    (h : tryToInt (req.get "amount") = .error e) : chargeAccount req = .ret (.error e) := by
  rw [chargeAccount, if_pos hpost, h]

theorem run_addAccount_new (hpost : req.method = .post) (h : users (req.get "user") = none) :
    (addAccount req).run usersServe users
      = (shownAccount (req.get "user") 0, Function.update users (req.get "user") (some 0)) := by
  rw [addAccount, if_pos hpost, ← run_settle]
  simp [usersServe, h, settle]

theorem run_addAccount_taken (hpost : req.method = .post) {balance : ℤ}
    (h : users (req.get "user") = some balance) :
    (addAccount req).run usersServe users
      = (makeResponse ((userMessage "User " (req.get "user") " is already registered.").map
          errorBody) 400, users) := by
  simp [addAccount, hpost, usersServe, h]

theorem run_removeAccount_found (hdel : req.method = .delete) {balance : ℤ}
    (h : users (req.get "user") = some balance) :
    (removeAccount req).run usersServe users
      = (.ok ⟨200, .text "User was successfully deleted."⟩,
          Function.update users (req.get "user") none) := by
  simp [removeAccount, hdel, usersServe, h]

theorem run_removeAccount_absent (hdel : req.method = .delete)
    (h : users (req.get "user") = none) :
    (removeAccount req).run usersServe users
      = (makeResponse ((userMessage "User " (req.get "user") " does not exist.").map .text) 404,
          users) := by
  simp [removeAccount, hdel, usersServe, h]

end Handled

/-! ### The handlers, run alone

A request that may change the accounts is its movement, and is answered 200
exactly if the movement is a real one and leaves a balance that can be shown. -/

/-- `f` is its movement of the account of `user`, and is answered 200 exactly
if it moves something and what it leaves can be shown. -/
def IsMovement (users : Users) (user : UserKey) (f : BillingHandler) (m : Movement UserKey ℤ) :
    Prop :=
  (f.run usersServe users).2 = m.apply users ∧
    ((answer (f.run usersServe users).1).status = 200 ↔
      m ≠ .keep ∧ Showable (m.apply users) user)

section IsMovement

variable {users : Users} {user : UserKey} {f : BillingHandler} {m : Movement UserKey ℤ}

theorem isMovement_keep {outcome : Except PyError Response}
    (hrun : f.run usersServe users = (outcome, users)) (hst : (answer outcome).status ≠ 200) :
    IsMovement users user f .keep := by
  rw [IsMovement, hrun]
  exact ⟨rfl, iff_of_false hst fun h => h.1 rfl⟩

theorem isMovement_shown {balance : ℤ}
    (hrun : f.run usersServe users = (shownAccount user balance, m.apply users)) (hm : m ≠ .keep)
    (hbalance : m.apply users user = some balance) :
    IsMovement users user f m := by
  rw [IsMovement, hrun, showable_some hbalance, shownAccount_status]
  exact ⟨rfl, fun h => ⟨hm, h⟩, And.right⟩

theorem isMovement_moved {body : Body}
    (hrun : f.run usersServe users = (.ok ⟨200, body⟩, m.apply users))
    (hm : m ≠ .keep) (hnone : m.apply users user = none) : IsMovement users user f m := by
  rw [IsMovement, hrun]
  exact ⟨rfl, iff_of_true rfl ⟨hm, showable_none hnone⟩⟩

end IsMovement

theorem forbidden_refused : (answer (.ok forbidden)).status ≠ 200 := by decide

theorem error_refused (e : PyError) : (answer (.error e)).status ≠ 200 := by
  rw [answer_error_status]
  decide

/-- A payment that is not one moves nothing; so what is left is to look at
those that are. -/
theorem isMovement_payment {users : Users} {route : BillingRoute} {req : Request}
    {f : BillingHandler} {pay : ℤ → ℤ → BillingHandler}
    (hroute : route = .depositAccount ∨ route = .chargeAccount)
    (herror : ∀ e, tryToInt (req.get "amount") = .error e → f = .ret (.error e))
    (heq : ∀ amount, tryToInt (req.get "amount") = .ok amount →
      f = payment (req.get "user") amount pay)
    (hpay : ∀ a balance, payable req = some a → users (req.get "user") = some balance →
      IsMovement users (req.get "user") (pay a balance) (movement users route req)) :
    IsMovement users (req.get "user") f (movement users route req) := by
  cases hint : tryToInt (req.get "amount") with
  | error e =>
    rw [herror e hint, movement_payment_keep hroute (.inl (payable_error hint))]
    exact isMovement_keep rfl (error_refused e)
  | ok amount =>
    rw [heq amount hint]
    cases huser : users (req.get "user") with
    | none =>
      rw [movement_payment_keep hroute (.inr huser)]
      exact isMovement_keep (run_payment_absent huser) (doesNotExist_refused _)
    | some balance =>
      by_cases hbad : ∀ a, amount = some a → a ≤ 0
      · rw [movement_payment_keep hroute (.inl (payable_eq_none hint hbad))]
        exact isMovement_keep (run_payment_bad huser hbad) (by decide)
      · push Not at hbad
        obtain ⟨a, rfl, hpos⟩ := hbad
        have hdue := hpay a balance (payable_eq_some_iff.mpr ⟨hint, hpos⟩) huser
        rw [IsMovement, ← run_payment_due huser hpos] at hdue
        exact hdue

theorem run_addAccount (users : Users) (req : Request) :
    IsMovement users (req.get "user") (addAccount req) (movement users .createAccount req) := by
  by_cases hpost : req.method = .post
  · cases huser : users (req.get "user") with
    | none =>
      have hmove : movement users .createAccount req = .create (req.get "user") :=
        if_pos ⟨hpost, huser⟩
      rw [hmove]
      exact isMovement_shown (run_addAccount_new hpost huser) (by rintro ⟨⟩)
        (Function.update_self ..)
    | some balance =>
      have hmove : movement users .createAccount req = .keep :=
        if_neg fun h => Option.some_ne_none balance (huser.symm.trans h.2)
      rw [hmove]
      exact isMovement_keep (run_addAccount_taken hpost huser)
        (message_refused (by decide : 400 ≠ 200) _ "User " " is already registered." errorBody)
  · have hmove : movement users .createAccount req = .keep := if_neg fun h => hpost h.1
    have hrun : addAccount req = .ret (.ok forbidden) := if_neg hpost
    rw [hmove, hrun]
    exact isMovement_keep rfl forbidden_refused

theorem run_depositAccount (users : Users) (req : Request) :
    IsMovement users (req.get "user") (depositAccount req)
      (movement users .depositAccount req) := by
  by_cases hpost : req.method = .post
  · apply isMovement_payment (.inl rfl) (fun _ => depositAccount_error hpost)
      fun _ => depositAccount_eq hpost
    intro a balance hpay huser
    have hmove : movement users .depositAccount req = .deposit (req.get "user") a := by
      rw [movement, hpay, huser]
      exact if_pos hpost
    have happly : Function.update users (req.get "user") (some (balance + a))
        = (Movement.deposit (req.get "user") a).apply users := by
      rw [Movement.apply, huser, Option.map_some]
    have hrun := run_settle users (req.get "user") (balance + a)
    rw [happly] at hrun
    rw [hmove]
    exact isMovement_shown hrun (by rintro ⟨⟩) (Movement.deposit_self a huser)
  · have hmove : movement users .depositAccount req = .keep := by
      rw [movement]
      split
      · exact if_neg hpost
      · rfl
    have hrun : depositAccount req = .ret (.ok forbidden) := if_neg hpost
    rw [hmove, hrun]
    exact isMovement_keep rfl forbidden_refused

theorem run_chargeAccount (users : Users) (req : Request) :
    IsMovement users (req.get "user") (chargeAccount req) (movement users .chargeAccount req) := by
  by_cases hpost : req.method = .post
  · apply isMovement_payment (.inr rfl) (fun _ => chargeAccount_error hpost)
      fun _ => chargeAccount_eq hpost
    intro a balance hpay huser
    -- the source compares the difference with 0, the ledger the amount with the balance
    by_cases hle : a ≤ balance
    · have hmove : movement users .chargeAccount req = .charge (req.get "user") a := by
        rw [movement, hpay, huser]
        exact if_pos ⟨hpost, hle⟩
      have happly : Function.update users (req.get "user") (some (balance - a))
          = (Movement.charge (req.get "user") a).apply users := by
        rw [Movement.apply, huser, Option.map_some]
      have hrun := run_settle users (req.get "user") (balance - a)
      rw [happly] at hrun
      rw [hmove, if_neg (not_lt.mpr (Int.sub_nonneg.mpr hle))]
      exact isMovement_shown hrun (by rintro ⟨⟩) (Movement.charge_self a huser)
    · have hmove : movement users .chargeAccount req = .keep := by
        rw [movement, hpay, huser]
        exact if_neg fun h => hle h.2
      rw [hmove, if_pos (Int.sub_neg_of_lt (not_le.mp hle))]
      exact isMovement_keep rfl (by decide)
  · have hmove : movement users .chargeAccount req = .keep := by
      rw [movement]
      split
      · exact if_neg fun h => hpost h.1
      · rfl
    have hrun : chargeAccount req = .ret (.ok forbidden) := if_neg hpost
    rw [hmove, hrun]
    exact isMovement_keep rfl forbidden_refused

theorem run_removeAccount (users : Users) (req : Request) :
    IsMovement users (req.get "user") (removeAccount req) (movement users .deleteAccount req) := by
  by_cases hdel : req.method = .delete
  · cases huser : users (req.get "user") with
    | some balance =>
      have hmove : movement users .deleteAccount req = .delete (req.get "user") :=
        if_pos ⟨hdel, Option.isSome_iff_exists.mpr ⟨balance, huser⟩⟩
      rw [hmove]
      exact isMovement_moved (run_removeAccount_found hdel huser) (by rintro ⟨⟩)
        (Function.update_self ..)
    | none =>
      have hmove : movement users .deleteAccount req = .keep :=
        if_neg fun h => Option.isSome_iff_ne_none.mp h.2 huser
      rw [hmove]
      exact isMovement_keep (run_removeAccount_absent hdel huser)
        (message_refused (by decide : 404 ≠ 200) _ "User " " does not exist." .text)
  · have hmove : movement users .deleteAccount req = .keep := if_neg fun h => hdel h.1
    have hrun : removeAccount req = .ret (.ok forbidden) := if_neg hdel
    rw [hmove, hrun]
    exact isMovement_keep rfl forbidden_refused

/-- A lookup of an account there is shows its balance, if it can be written. -/
theorem run_getAccountInfo_found {users : Users} {req : Request} {balance : ℤ}
    (hget : req.method = .get) (huser : users (req.get "user") = some balance) :
    (getAccountInfo req).run usersServe users = (shownAccount (req.get "user") balance, users) := by
  simp [getAccountInfo, hget, usersServe, huser, Prog.run_bind, shownAccount]

theorem run_getAccountInfo_absent {users : Users} {req : Request} (hget : req.method = .get)
    (huser : users (req.get "user") = none) :
    (getAccountInfo req).run usersServe users = (doesNotExist (req.get "user"), users) := by
  simp [getAccountInfo, hget, usersServe, huser]

/-- A lookup changes nothing and shows exactly the accounts there are whose
balance can be written. -/
theorem run_getAccountInfo (users : Users) (req : Request) :
    ((getAccountInfo req).run usersServe users).2 = users ∧
      ((answer ((getAccountInfo req).run usersServe users).1).status = 200 ↔
        req.method = .get ∧ ∃ balance, users (req.get "user") = some balance ∧
          FitsDigits balance) := by
  by_cases hget : req.method = .get
  swap
  · simp [getAccountInfo, hget, forbidden]
  cases huser : users (req.get "user") with
  | some balance =>
    rw [run_getAccountInfo_found hget huser, shownAccount_status]
    simp [hget]
  | none =>
    rw [run_getAccountInfo_absent hget huser]
    simp [doesNotExist_refused (req.get "user")]

theorem run_isUserExists (users : Users) (req : Request) :
    ((isUserExists req).run usersServe users).2 = users := by
  unfold isUserExists
  split_ifs
  · cases huser : users (req.get "user") <;> simp [usersServe, huser]
  · rfl

/-! ### One request as one step -/

/-- **A request is one movement of the ledger.** -/
theorem serveBilling_users (users : Users) (route : BillingRoute) (req : Request) :
    (serveBilling users route req).2 = (movement users route req).apply users := by
  cases route with
  | isUserExists => exact run_isUserExists users req
  | createAccount => exact (run_addAccount users req).1
  | depositAccount => exact (run_depositAccount users req).1
  | chargeAccount => exact (run_chargeAccount users req).1
  | getAccountInfo => exact (run_getAccountInfo users req).1
  | deleteAccount => exact (run_removeAccount users req).1

theorem movement_of_refused {users : Users} {route : BillingRoute} {req : Request}
    (h : (serveBilling users route req).1.status ≠ 200)
    (hshow : Showable (serveBilling users route req).2 (req.get "user")) :
    movement users route req = .keep := by
  rw [serveBilling_users] at hshow
  -- a movement that moves something would have been answered 200
  have key : ∀ {f : BillingHandler},
      IsMovement users (req.get "user") f (movement users route req) →
      (answer (f.run usersServe users).1).status ≠ 200 → movement users route req = .keep := by
    intro f hm hst
    by_contra hne
    exact hst (hm.2.mpr ⟨hne, hshow⟩)
  cases route with
  | isUserExists => rfl
  | createAccount => exact key (run_addAccount users req) h
  | depositAccount => exact key (run_depositAccount users req) h
  | chargeAccount => exact key (run_chargeAccount users req) h
  | getAccountInfo => rfl
  | deleteAccount => exact key (run_removeAccount users req) h

/-- **A refused request moves nothing**, unless what it leaves cannot be shown. -/
theorem serveBilling_refused {users : Users} {route : BillingRoute} {req : Request}
    (h : (serveBilling users route req).1.status ≠ 200)
    (hshow : Showable (serveBilling users route req).2 (req.get "user")) :
    (serveBilling users route req).2 = users := by
  rw [serveBilling_users, movement_of_refused h hshow, Movement.apply_keep]

/-- **Every request keeps the accounts solvent.** -/
theorem serveBilling_solvent {users : Users} (h : users.Solvent) (route : BillingRoute)
    (req : Request) : Ledger.Solvent (serveBilling users route req).2 := by
  rw [serveBilling_users]
  exact (movement_allowed users route req).solvent h

/-- A charge is acknowledged only if the account exists and holds the amount,
and then takes exactly that amount from it. -/
theorem serveBilling_charge {users : Users} {req : Request}
    (h : (serveBilling users .chargeAccount req).1.status = 200) :
    ∃ amount balance, payable req = some amount ∧ users (req.get "user") = some balance ∧
      0 < amount ∧ amount ≤ balance ∧
      (serveBilling users .chargeAccount req).2
        = Function.update users (req.get "user") (some (balance - amount)) := by
  have hne : movement users .chargeAccount req ≠ .keep :=
    ((run_chargeAccount users req).2.mp h).1
  have hallow := movement_allowed users .chargeAccount req
  have husers := serveBilling_users users .chargeAccount req
  have hmoves := movement_moves users .chargeAccount req
  generalize movement users .chargeAccount req = m at hne hallow husers hmoves
  cases hmoves with
  | keep => exact absurd rfl hne
  | charge _ hpay _ _ =>
    obtain ⟨balance, huser, hpos, hle, happly⟩ := hallow.charge_eq
    exact ⟨_, balance, hpay, huser, hpos, hle, husers.trans happly⟩

/-! ### Balances that can be shown -/

/-- The request is no deposit that is accepted and brings its account to more
digits than can be written. -/
def DepositFits (users : Users) (route : BillingRoute) (req : Request) : Prop :=
  route = .depositAccount → req.method = .post → ∀ amount balance, payable req = some amount →
    users (req.get "user") = some balance → FitsDigits (balance + amount)

/-- **Only a deposit leaves a balance that cannot be shown**: any other request
makes a balance smaller, or opens an account at 0. -/
theorem DepositFits.showable {users : Users} {route : BillingRoute} {req : Request}
    (h : DepositFits users route req) (hshow : Showable users (req.get "user")) :
    Showable (serveBilling users route req).2 (req.get "user") := by
  rw [serveBilling_users]
  have hmoves := movement_moves users route req
  generalize movement users route req = m at hmoves
  cases hmoves with
  | keep => exact hshow
  | create _ _ => exact (showable_some (Function.update_self ..)).mpr fitsDigits_zero
  | @deposit amount balance hpost hpay huser =>
    refine (showable_some (Movement.deposit_self amount huser)).mpr ?_
    exact h rfl hpost amount balance hpay huser
  | @charge amount balance _ hpay huser hle =>
    refine (showable_some (Movement.charge_self amount huser)).mpr ?_
    exact fitsDigits_le (hshow balance huser) (Int.sub_nonneg.mpr hle)
      (Int.sub_le_self balance (payable_pos hpay).le)
  | delete _ _ => exact showable_none (Function.update_self ..)

theorem depositFits_of_ne {users : Users} {route : BillingRoute} {req : Request}
    (h : route ≠ .depositAccount) : DepositFits users route req :=
  fun hroute => absurd hroute h

/-- A deposit that does not fit is refused, and has been paid in. -/
theorem deposit_unshown {users : Users} {route : BillingRoute} {req : Request}
    (h : ¬DepositFits users route req) :
    (serveBilling users route req).1.status ≠ 200 ∧ (serveBilling users route req).2 ≠ users := by
  unfold DepositFits at h
  push Not at h
  obtain ⟨rfl, hpost, amount, balance, hpay, huser, hlong⟩ := h
  have hmove : movement users .depositAccount req = .deposit (req.get "user") amount := by
    rw [movement, hpay, huser]
    exact if_pos hpost
  have hafter := Movement.deposit_self amount huser
  constructor
  · intro hst
    have hshow := ((run_depositAccount users req).2.mp hst).2
    rw [hmove] at hshow
    exact hlong ((showable_some hafter).mp hshow)
  · intro hsame
    rw [serveBilling_users, hmove] at hsame
    rw [hsame, huser] at hafter
    have hpos := payable_pos hpay
    have heq : balance = balance + amount := Option.some.inj hafter
    omega

end ResilientMesh
