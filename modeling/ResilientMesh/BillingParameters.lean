/-
ResilientMesh/BillingParameters.lean

Requests to billing that leave a parameter out.  A missing parameter is
`None`, which is a key of the dictionary like any other, no number and no text:
the handlers open an account for it, or fail in `int` or in building a message.

A request with all its parameters is answered whatever they say, unless the
balance that it would show is too long to be written: `int` and `json` take 4300
digits and no more.  One without a user can still be refused, if the key `None`
is there to be found.

Main result: `answers_safely_iff`.
-/
import ResilientMesh.Forwarding

namespace ResilientMesh

/-! ### What is asked of an answer -/

/-- The amount is a parameter of the route. -/
def AccountRoute.TakesAmount : AccountRoute → Prop
  | depositAccount => True
  | chargeAccount => True
  | _ => False

/-- A parameter of the route is not there. -/
def MissingParameter (route : AccountRoute) (req : Request) : Prop :=
  req.get "user" = none ∨ route.TakesAmount ∧ req.get "amount" = none

/-- Billing, asked with the method of the route: the outcome, and the accounts
after it. -/
def handled (users : Users) (route : AccountRoute) (req : Request) :
    Except PyError Response × Users :=
  (billing route.billing (route.direct req)).run usersServe users

/-- The outcome is a response, and a client error if a parameter is missing. -/
def Refuses (missing : Prop) (outcome : Except PyError Response) : Prop :=
  ∃ r, outcome = .ok r ∧ (missing → 400 ≤ r.status ∧ r.status < 500)

/-- The request is answered without an exception, a missing parameter as a
client error, and every new key is a text that the client sent as the user. -/
structure AnswersSafely (users : Users) (route : AccountRoute) (req : Request) : Prop where
  response : Refuses (MissingParameter route req) (handled users route req).1
  keys : ∀ key, ((handled users route req).2 key).isSome → (users key).isSome ∨
    ∃ user, key = some user ∧ req.get "user" = some user

/-- The parameters of the request are there, and the balance that is shown can
be written; or its amount is there, and the key `None`, from which that amount
cannot be taken or to which it cannot be paid. -/
def ParametersFit (users : Users) (route : AccountRoute) (req : Request) : Prop :=
  let user := req.get "user"
  match route with
  | .depositAccount => req.get "amount" ≠ none ∧
      (user ≠ none ∧ (∀ amount balance, payable req = some amount → users user = some balance →
          FitsDigits (balance + amount)) ∨
        user = none ∧ (users none).isSome ∧ payable req = none)
  | .chargeAccount => req.get "amount" ≠ none ∧
      (user ≠ none ∧ (∀ amount balance, payable req = some amount → users user = some balance →
          amount ≤ balance → FitsDigits (balance - amount)) ∨
        user = none ∧ ∃ balance, users none = some balance ∧
          ∀ amount, payable req = some amount → balance < amount)
  | .getAccountInfo => user ≠ none ∧ Showable users user
  | _ => user ≠ none

/-! ### Outcomes -/

theorem refuses_ok {missing : Prop} {r : Response} :
    Refuses missing (.ok r) ↔ (missing → 400 ≤ r.status ∧ r.status < 500) := by
  constructor
  · rintro ⟨r', heq, h⟩
    cases heq
    exact h
  · exact fun h => ⟨r, rfl, h⟩

theorem not_refuses_error (missing : Prop) (e : PyError) : ¬ Refuses missing (.error e) := by
  rintro ⟨r, heq, -⟩
  cases heq

variable {users : Users} {req : Request}

/-- A message about a user is a client error, or fails to be built without
one. -/
theorem refuses_message {missing : Prop} {code : ℕ} (hcode : 400 ≤ code ∧ code < 500)
    (user : UserKey) (pre post : String) {f : String → Body} (hf : ∀ s, (f s).writable = true) :
    Refuses missing (makeResponse ((userMessage pre user post).map f) code) ↔ user ≠ none := by
  cases user with
  | none => exact iff_of_false (not_refuses_error missing _) (not_not.mpr rfl)
  | some user =>
    have hmade : makeResponse ((userMessage pre (some user) post).map f) code
        = .ok ⟨code, f (pre ++ user ++ post)⟩ := makeResponse_ok (hf _) code
    rw [hmade]
    exact iff_of_true (refuses_ok.mpr fun _ => hcode) (Option.some_ne_none user)

theorem refuses_doesNotExist {missing : Prop} (user : UserKey) :
    Refuses missing (doesNotExist user) ↔ user ≠ none :=
  refuses_message ⟨by decide, by decide⟩ user "User " " does not exist." fun _ => rfl

/-- A 200 is right if nothing is missing. -/
theorem refuses_success {missing : Prop} {body : Body} :
    Refuses missing (.ok ⟨200, body⟩) ↔ ¬ missing := by
  rw [refuses_ok]
  constructor
  · intro h hmissing
    have hstatus : (400 : ℕ) ≤ 200 := (h hmissing).1
    exact absurd hstatus (by decide)
  · exact fun h hmissing => absurd hmissing h

/-- An account that is shown is right if nothing is missing, and it can be
written. -/
theorem refuses_shownAccount {missing : Prop} (user : UserKey) (balance : ℤ) :
    Refuses missing (shownAccount user balance) ↔ ¬ missing ∧ FitsDigits balance := by
  by_cases hfits : FitsDigits balance
  · rw [shownAccount_eq hfits, refuses_success, and_iff_left hfits]
  · rw [shownAccount_error hfits]
    exact iff_of_false (not_refuses_error missing _) fun h => hfits h.2

/-- A 400 always is. -/
theorem refuses_badRequest {missing : Prop} {body : Body} : Refuses missing (.ok ⟨400, body⟩) := by
  rw [refuses_ok]
  exact fun _ => ⟨le_rfl, by norm_num⟩

section Handlers

variable {missing : Prop}

theorem refuses_addAccount (hpost : req.method = .post)
    (hmissing : ¬ missing ↔ req.get "user" ≠ none) :
    Refuses missing ((addAccount req).run usersServe users).1 ↔ req.get "user" ≠ none := by
  cases hbalance : users (req.get "user") with
  | none =>
    rw [run_addAccount_new hpost hbalance, refuses_shownAccount, hmissing,
      and_iff_left fitsDigits_zero]
  | some balance =>
    rw [run_addAccount_taken hpost hbalance]
    exact refuses_message ⟨by decide, by decide⟩ _ _ _ fun _ => rfl

theorem refuses_getAccountInfo (hget : req.method = .get)
    (hmissing : ¬ missing ↔ req.get "user" ≠ none) :
    Refuses missing ((getAccountInfo req).run usersServe users).1 ↔
      req.get "user" ≠ none ∧ Showable users (req.get "user") := by
  cases hbalance : users (req.get "user") with
  | none =>
    rw [run_getAccountInfo_absent hget hbalance, and_iff_left (showable_none hbalance)]
    exact refuses_doesNotExist _
  | some balance =>
    rw [run_getAccountInfo_found hget hbalance, refuses_shownAccount, hmissing,
      showable_some hbalance]

theorem refuses_removeAccount (hdel : req.method = .delete)
    (hmissing : ¬ missing ↔ req.get "user" ≠ none) :
    Refuses missing ((removeAccount req).run usersServe users).1 ↔ req.get "user" ≠ none := by
  cases hbalance : users (req.get "user") with
  | none =>
    rw [run_removeAccount_absent hdel hbalance]
    exact refuses_message ⟨by decide, by decide⟩ _ _ _ fun _ => rfl
  | some balance => rw [run_removeAccount_found hdel hbalance, refuses_success, hmissing]

/-- A payment needs an amount, and a user unless the account is there; then it
is as right as what `pay` answers. -/
theorem refuses_payment {f : BillingHandler} {pay : ℤ → ℤ → BillingHandler}
    (herror : ∀ e, tryToInt (req.get "amount") = .error e → f = .ret (.error e))
    (heq : ∀ amount, tryToInt (req.get "amount") = .ok amount →
      f = payment (req.get "user") amount pay) :
    Refuses missing (f.run usersServe users).1 ↔
      req.get "amount" ≠ none ∧ (users (req.get "user") = none → req.get "user" ≠ none) ∧
        ∀ a balance, payable req = some a → users (req.get "user") = some balance →
          Refuses missing ((pay a balance).run usersServe users).1 := by
  cases hamount : req.get "amount" with
  | none =>
    rw [herror .typeError (by rw [hamount]; rfl)]
    exact iff_of_false (not_refuses_error missing _) fun h => h.1 rfl
  | some text =>
    have hint : tryToInt (req.get "amount") = .ok (pyInt text.toList) := by
      rw [hamount]
      rfl
    have hthere : some text ≠ none := Option.some_ne_none text
    rw [heq _ hint]
    cases huser : users (req.get "user") with
    | none =>
      rw [run_payment_absent huser, refuses_doesNotExist]
      exact ⟨fun h => ⟨hthere, fun _ => h, fun _ _ _ hbalance => by cases hbalance⟩,
        fun h => h.2.1 rfl⟩
    | some balance =>
      have hfound : some balance ≠ none := Option.some_ne_none balance
      by_cases hbad : ∀ a, pyInt text.toList = some a → a ≤ 0
      · rw [run_payment_bad huser hbad, payable_eq_none hint hbad]
        exact iff_of_true refuses_badRequest
          ⟨hthere, fun h => absurd h hfound, fun _ _ hpay => by cases hpay⟩
      · push Not at hbad
        obtain ⟨a, ha, hpos⟩ := hbad
        rw [ha] at hint ⊢
        rw [run_payment_due huser hpos, payable_eq_some_iff.mpr ⟨hint, hpos⟩]
        constructor
        · intro h
          refine ⟨hthere, fun h => absurd h hfound, ?_⟩
          rintro a' balance' ⟨⟩ ⟨⟩
          exact h
        · exact fun h => h.2.2 a balance rfl rfl

theorem refuses_settle (user : UserKey) (balance : ℤ) :
    Refuses missing ((settle user balance).run usersServe users).1 ↔
      ¬ missing ∧ FitsDigits balance := by
  rw [run_settle, refuses_shownAccount]

theorem refuses_depositAccount (hpost : req.method = .post)
    (hmissing : ¬ missing ↔ req.get "user" ≠ none ∧ req.get "amount" ≠ none) :
    Refuses missing ((depositAccount req).run usersServe users).1 ↔
      ParametersFit users .depositAccount req := by
  rw [refuses_payment (fun _ => depositAccount_error hpost) fun _ => depositAccount_eq hpost,
    ParametersFit]
  simp only [refuses_settle, hmissing]
  apply and_congr_right
  intro hamount
  cases req.get "user" with
  | some user => simp [hamount]
  | none =>
    cases users none with
    | none => simp
    | some balance => simp [Option.eq_none_iff_forall_ne_some]

theorem refuses_chargeAccount (hpost : req.method = .post)
    (hmissing : ¬ missing ↔ req.get "user" ≠ none ∧ req.get "amount" ≠ none) :
    Refuses missing ((chargeAccount req).run usersServe users).1 ↔
      ParametersFit users .chargeAccount req := by
  have hpay : ∀ (user : UserKey) (a balance : ℤ),
      Refuses missing ((if balance - a < 0 then .ret (.ok insufficientFunds)
        else settle user (balance - a) : BillingHandler).run usersServe users).1 ↔
          balance < a ∨ ¬ missing ∧ FitsDigits (balance - a) := by
    intro user a balance
    by_cases hlt : balance < a
    · rw [if_pos (Int.sub_neg_of_lt hlt)]
      exact iff_of_true refuses_badRequest (.inl hlt)
    · rw [if_neg (not_lt.mpr (Int.sub_nonneg.mpr (not_lt.mp hlt))), refuses_settle,
        or_iff_right hlt]
  rw [refuses_payment (fun _ => chargeAccount_error hpost) fun _ => chargeAccount_eq hpost,
    ParametersFit]
  simp only [hpay, hmissing]
  apply and_congr_right
  intro hamount
  cases req.get "user" with
  | some user =>
    have hthere : some user ≠ none := Option.some_ne_none user
    constructor
    · rintro ⟨-, h⟩
      refine .inl ⟨hthere, fun amount balance ha hb hle => ?_⟩
      exact ((h amount balance ha hb).resolve_left (not_lt.mpr hle)).2
    · rintro (⟨-, h⟩ | ⟨hnone, -⟩)
      · refine ⟨fun _ => hthere, fun amount balance ha hb => ?_⟩
        rcases lt_or_ge balance amount with hlt | hle
        · exact .inl hlt
        · exact .inr ⟨⟨hthere, hamount⟩, h amount balance ha hb hle⟩
      · exact absurd hnone hthere
  | none =>
    cases users none with
    | none => simp
    | some balance => simp

end Handlers

/-- What is missing on a route without an amount, and on one with it. -/
theorem not_missingParameter (route : AccountRoute) (req : Request) :
    (¬ route.TakesAmount → (¬ MissingParameter route req ↔ req.get "user" ≠ none)) ∧
      (route.TakesAmount →
        (¬ MissingParameter route req ↔ req.get "user" ≠ none ∧ req.get "amount" ≠ none)) := by
  rw [MissingParameter]
  constructor
  · intro h
    rw [or_iff_left fun hboth => h hboth.1]
  · intro h
    rw [and_iff_right h, not_or]

/-- **The outcome of a request is a response as it should be exactly if its
parameters fit.** -/
theorem refuses_iff (users : Users) (route : AccountRoute) (req : Request) :
    Refuses (MissingParameter route req) (handled users route req).1 ↔
      ParametersFit users route req := by
  obtain ⟨huser, hboth⟩ := not_missingParameter route req
  cases route with
  | createAccount =>
    show Refuses _
      ((addAccount (AccountRoute.direct .createAccount req)).run usersServe users).1 ↔ _
    exact refuses_addAccount rfl (huser id)
  | depositAccount =>
    show Refuses _ ((depositAccount (AccountRoute.direct .depositAccount req)).run usersServe
      users).1 ↔ _
    exact refuses_depositAccount rfl (hboth trivial)
  | chargeAccount =>
    show Refuses _ ((chargeAccount (AccountRoute.direct .chargeAccount req)).run usersServe
      users).1 ↔ _
    exact refuses_chargeAccount rfl (hboth trivial)
  | getAccountInfo =>
    show Refuses _ ((getAccountInfo (AccountRoute.direct .getAccountInfo req)).run usersServe
      users).1 ↔ _
    exact refuses_getAccountInfo rfl (huser id)
  | deleteAccount =>
    show Refuses _ ((removeAccount (AccountRoute.direct .deleteAccount req)).run usersServe
      users).1 ↔ _
    exact refuses_removeAccount rfl (huser id)

/-! ### Keys -/

/-- Only a request for an account opens one, and for its own user. -/
theorem movement_eq_create {route : BillingRoute} {key : UserKey}
    (h : movement users route req = .create key) :
    route = .createAccount ∧ key = req.get "user" := by
  have hmoves := movement_moves users route req
  rw [h] at hmoves
  cases hmoves
  exact ⟨rfl, rfl⟩

/-- **A request adds no key but its user's**, and that on `createAccount`
alone. -/
theorem isSome_handled (route : AccountRoute) {key : UserKey}
    (h : ((handled users route req).2 key).isSome) :
    (users key).isSome ∨ route = .createAccount ∧ key = req.get "user" := by
  have husers : (handled users route req).2
      = (movement users route.billing (route.direct req)).apply users :=
    serveBilling_users users route.billing (route.direct req)
  rw [husers] at h
  rcases Movement.isSome_apply h with hold | hcreate
  · exact .inl hold
  · obtain ⟨hroute, rfl⟩ := movement_eq_create hcreate
    cases route with
    | createAccount => exact .inr ⟨rfl, rfl⟩
    | depositAccount => cases hroute
    | chargeAccount => cases hroute
    | getAccountInfo => cases hroute
    | deleteAccount => cases hroute

/-- **A request is answered as it should be exactly if its parameters fit.** -/
theorem answers_safely_iff (users : Users) (route : AccountRoute) (req : Request) :
    AnswersSafely users route req ↔ ParametersFit users route req := by
  constructor
  · intro h
    exact (refuses_iff users route req).mp h.response
  · intro hfit
    refine ⟨(refuses_iff users route req).mpr hfit, ?_⟩
    intro key hkey
    rcases isSome_handled route hkey with hold | ⟨rfl, rfl⟩
    · exact .inl hold
    · -- an account is opened for a user that was sent
      have huser : req.get "user" ≠ none := hfit
      obtain ⟨user, hsome⟩ := Option.ne_none_iff_exists'.mp huser
      exact .inr ⟨user, hsome, hsome⟩

/-- An account is opened for nobody. -/
theorem answers_unsafely :
    ¬ ∀ (users : Users) (route : AccountRoute) (req : Request), AnswersSafely users route req := by
  intro h
  have hkeys := (h (fun _ => none) .createAccount ⟨.post, []⟩).keys none
  have hopened : ((handled (fun _ => none) .createAccount ⟨.post, []⟩).2 none).isSome := by
    decide +kernel
  rcases hkeys hopened with hold | ⟨user, hnone, -⟩
  · cases hold
  · cases hnone

end ResilientMesh
