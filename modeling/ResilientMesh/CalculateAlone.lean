/-
ResilientMesh/CalculateAlone.lean

One execution of `calculate2` with nobody else around.  The account is looked
up before it is charged, and the two queries name the same one; so the account
can be shown after the charge too, and a charge that is refused has moved
nothing.

Main results: an execution that is not answered 200 has either moved nothing or
made its one charge (`calculate2_refused`): there is no step that gives the
money back.  And the exact condition under which every successful charge is the
one that was named (`chargedAsNamed_iff`).
-/
import ResilientMesh.ChargeQuery

namespace ResilientMesh

variable (outcome : Users → Except PyError Response)

/-- What follows the charge moves no account and charges nobody; of a known
type, it ends as the call to the calculation service does. -/
theorem run_dispatch (relay : ℕ → ℕ) (calculationType : JsonValue)
    (firstNumber secondNumber : String) (users : Users) :
    let after := dispatch relay calculationType firstNumber secondNumber
    (after.run (serveAlone outcome) users).2 = users ∧
      (after.calls (serveAlone outcome) users).countP isPaid = 0 ∧
      ∀ t ∈ ["add", "multiply", "prime", "fibonacci"], calculationType = .str t →
        (after.run (serveAlone outcome) users).1
          = (outcome users).map fun response => ⟨relay response.status, response.body⟩ := by
  have hpost : ∀ url data,
      (postAndRelay relay url data).run (serveAlone outcome) users
          = ((outcome users).map fun response => ⟨relay response.status, response.body⟩, users) ∧
        ((postAndRelay relay url data).calls (serveAlone outcome) users).countP isPaid = 0 := by
    intro url data
    cases h : outcome users <;>
      simp [postAndRelay, Prog.calls, serveAlone, h, Except.map, isPaid]
  dsimp only
  cases calculationType with
  | str calculationType =>
    unfold dispatch
    dsimp only
    split_ifs with h₁ h₂
    · exact ⟨by rw [(hpost _ _).1], (hpost _ _).2, fun _ _ _ => by rw [(hpost _ _).1]⟩
    · exact ⟨by rw [(hpost _ _).1], (hpost _ _).2, fun _ _ _ => by rw [(hpost _ _).1]⟩
    · refine ⟨rfl, rfl, ?_⟩
      intro t ht h
      cases h
      simp only [List.mem_cons, List.not_mem_nil, or_false] at ht
      tauto
  | _ => exact ⟨rfl, rfl, by simp⟩

/-- The account that is looked up exists, and billing acknowledges the charge. -/
def ChargeSucceeds (users : Users) (user : String) (price : JsonValue) : Prop :=
  (serveBilling users .getAccountInfo (billingRequest .get (accountQuery user))).1.status = 200 ∧
  (serveBilling users .chargeAccount (billingRequest .post (chargeQuery user price))).1.status
    = 200

/-- The accounts after the charge. -/
def charged (users : Users) (user : String) (price : JsonValue) : Users :=
  (serveBilling users .chargeAccount (billingRequest .post (chargeQuery user price))).2

/-- A charge that is refused after the account was shown has moved nothing. -/
theorem charge_refused {users : Users} {user : String} {price : JsonValue} {balance : ℤ}
    (hp : '%' ∉ price.pyStr.toList)
    (huser : users ((billingRequest .get (accountQuery user)).get "user") = some balance)
    (hfits : FitsDigits balance)
    (hst : (serveBilling users .chargeAccount
      (billingRequest .post (chargeQuery user price))).1.status ≠ 200) :
    (serveBilling users .chargeAccount (billingRequest .post (chargeQuery user price))).2
      = users := by
  rw [← sameAccount user hp] at huser
  have hfit : DepositFits users .chargeAccount (billingRequest .post (chargeQuery user price)) :=
    depositFits_of_ne (by decide)
  exact serveBilling_refused hst (hfit.showable ((showable_some huser).mpr hfits))

/-- Up to what follows the charge, an execution alone moves nothing, or the
charge succeeds and the rest is what follows. -/
theorem run_checkAndCharge (user : String) {price : JsonValue} (hp : '%' ∉ price.pyStr.toList)
    (after : ControlHandler) (users : Users) :
    let p := checkAndCharge user price after
    ¬ ChargeSucceeds users user price ∧ (p.run (serveAlone outcome) users).2 = users ∧
        (p.calls (serveAlone outcome) users).countP isPaid = 0 ∨
      ChargeSucceeds users user price ∧
        p.run (serveAlone outcome) users
          = after.run (serveAlone outcome) (charged users user price) ∧
        (p.calls (serveAlone outcome) users).countP isPaid
          = (after.calls (serveAlone outcome) (charged users user price)).countP isPaid + 1 := by
  have hkeep : (serveBilling users .getAccountInfo
      (billingRequest .get (accountQuery user))).2 = users := serveBilling_users ..
  dsimp only [checkAndCharge, getAccountInfo_, chargeAccount_, Prog.bind_call, Prog.bind_ret,
    Prog.run_call, Prog.calls, serveAlone]
  rw [hkeep]
  by_cases hinfo : (serveBilling users .getAccountInfo
    (billingRequest .get (accountQuery user))).1.status = 200
  swap
  · rw [if_pos hinfo]
    exact .inl ⟨fun h => hinfo h.1, rfl, rfl⟩
  rw [if_neg (not_not.mpr hinfo)]
  -- a found account has a balance to show
  obtain ⟨-, balance, huser, hfits⟩ := (run_getAccountInfo users _).2.mp hinfo
  have hbalance : (serveBilling users .getAccountInfo
      (billingRequest .get (accountQuery user))).1.body.balance = .ok (.int balance) := by
    dsimp only [serveBilling, billing]
    rw [run_getAccountInfo_found rfl huser, shownAccount_eq hfits]
    rfl
  rw [hbalance]
  dsimp only [Prog.bind_call, Prog.bind_ret, Prog.run_call, Prog.calls, serveAlone]
  by_cases hst : (serveBilling users .chargeAccount
    (billingRequest .post (chargeQuery user price))).1.status = 200
  · refine .inr ⟨⟨hinfo, hst⟩, ?_, ?_⟩
    · rw [if_neg (not_not.mpr hst)]
      rfl
    · rw [if_neg (not_not.mpr hst)]
      simp [isPaid, hst, charged]
  · refine .inl ⟨fun h => hst h.2, ?_, ?_⟩
    · rw [if_pos hst, Prog.run_ret]
      dsimp only
      exact charge_refused hp huser hfits hst
    · rw [if_pos hst]
      simp [isPaid, hst, Prog.calls]

theorem ChargeSucceeds.paid {users : Users} {user : String} {price : JsonValue}
    (h : ChargeSucceeds users user price) : Paid users (charged users user price) := by
  obtain ⟨amount, balance, -, huser, hpos, hle, husers⟩ := serveBilling_charge h.2
  exact ⟨_, balance, amount, huser, hpos, hle, husers⟩

/-- Once the fields are read, an execution alone stops before the charge, or
is the lookup, the charge and the dispatch. -/
theorem run_calculateFields (relay : ℕ → ℕ) (f : CalculateFields) (users : Users) :
    let p := calculateFields relay f
    ((p.run (serveAlone outcome) users).2 = users ∧
        (p.calls (serveAlone outcome) users).countP isPaid = 0 ∧
        ∀ user, f.user = .str user → f.price.floatLtOne = .ok false →
          ¬ ChargeSucceeds users user f.price) ∨
      ∃ user, f.user = .str user ∧ f.price.floatLtOne = .ok false ∧
        ChargeSucceeds users user f.price ∧
        p.run (serveAlone outcome) users
          = (dispatch relay f.calculationType f.firstNumber f.secondNumber).run
              (serveAlone outcome) (charged users user f.price) ∧
        (p.calls (serveAlone outcome) users).countP isPaid = 1 := by
  dsimp only
  unfold calculateFields
  split
  · refine .inl ⟨rfl, rfl, ?_⟩
    intro _ _ h
    simp_all
  · refine .inl ⟨rfl, rfl, ?_⟩
    intro _ _ h
    simp_all
  rename_i hprice
  split
  swap
  · refine .inl ⟨rfl, rfl, ?_⟩
    rename_i hstr
    intro user huser
    exact absurd huser (hstr user)
  rename_i user huser
  rcases run_checkAndCharge outcome user (percent_notMem_price hprice)
    (dispatch relay f.calculationType f.firstNumber f.secondNumber) users with
    ⟨hnot, hkeep, hnone⟩ | ⟨hsucc, hrun, hcalls⟩
  · refine .inl ⟨hkeep, hnone, ?_⟩
    intro user' huser' _
    cases huser.symm.trans huser'
    exact hnot
  · refine .inr ⟨user, huser, hprice, hsucc, hrun, ?_⟩
    rw [hcalls, (run_dispatch outcome relay _ _ _ _).2.1]

/-- **What an execution that is not answered 200 has left behind**: nothing,
if its charge was not acknowledged; otherwise one payment, and then either the
type was unknown or the calculation service failed it. -/
theorem calculate2_refused (body : JsonBody) (users : Users)
    (h : (answer ((calculate2 body).run (serveAlone outcome) users).1).status ≠ 200) :
    let users' := ((calculate2 body).run (serveAlone outcome) users).2
    let paid := ((calculate2 body).calls (serveAlone outcome) users).countP isPaid
    users' = users ∧ paid = 0 ∨
      Paid users users' ∧ paid = 1 ∧
        (KnownType body → (answer (outcome users')).status ≠ 200) := by
  dsimp only
  revert h
  unfold calculate2 calculateWith
  split
  · exact fun _ => .inl ⟨rfl, rfl⟩
  · exact fun _ => .inl ⟨rfl, rfl⟩
  split
  · exact fun _ => .inl ⟨rfl, rfl⟩
  rename_i json _ f hf
  intro h
  rcases run_calculateFields outcome id f users with
    ⟨hkeep, hnone, -⟩ | ⟨user, -, -, hsucc, hrun, hone⟩
  · exact .inl ⟨hkeep, hnone⟩
  -- the charge was acknowledged: what follows it gives nothing back
  obtain ⟨hkeep, -, hknown⟩ := run_dispatch outcome id f.calculationType f.firstNumber
    f.secondNumber (charged users user f.price)
  rw [hrun] at h
  refine .inr ⟨?_, hone, ?_⟩
  · rw [hrun, hkeep]
    exact hsucc.paid
  · rintro ⟨json', f', t, hjson, hf', ht, hmem⟩
    cases hjson
    obtain rfl : f = f' := Except.ok.inj (hf.symm.trans hf')
    rw [hrun, hkeep]
    rw [hknown t hmem ht] at h
    intro hst
    apply h
    cases hout : outcome (charged users user f.price) with
    | error e => rw [hout] at hst; simp at hst
    | ok response =>
      rw [hout] at hst
      simpa [Except.map] using hst

/-- An unknown type is refused after the money was taken. -/
theorem calculate2_refused_charged :
    ¬ ∀ (outcome : Users → Except PyError Response) (body : JsonBody) (users : Users),
      (answer ((calculate2 body).run (serveAlone outcome) users).1).status ≠ 200 →
        ((calculate2 body).run (serveAlone outcome) users).2 = users := by
  intro h
  have hsame := h (fun _ => .error .connectionError) (sampleBody "ruslan" "pow" "15" "7")
    (sampleUsers "ruslan" 150) (by decide +kernel)
  have hpaid : ((calculate2 (sampleBody "ruslan" "pow" "15" "7")).run
      (serveAlone fun _ => .error .connectionError) (sampleUsers "ruslan" 150)).2 (some "ruslan")
        = some 135 := by
    decide +kernel
  rw [hsame] at hpaid
  revert hpaid
  decide +kernel

/-- The same refusal: one payment was made and stays made. -/
theorem calculate2_refused_pow :
    let run := (calculate2 (sampleBody "ruslan" "pow" "15" "7")).run
      (serveAlone fun _ => .error .connectionError) (sampleUsers "ruslan" 150)
    let calls := (calculate2 (sampleBody "ruslan" "pow" "15" "7")).calls
      (serveAlone fun _ => .error .connectionError) (sampleUsers "ruslan" 150)
    run.2 = sampleUsers "ruslan" 150 ∧ calls.countP isPaid = 0 ∨
      Paid (sampleUsers "ruslan" 150) run.2 ∧ calls.countP isPaid = 1 ∧
        (KnownType (sampleBody "ruslan" "pow" "15" "7") → (500 : ℕ) ≠ 200) :=
  calculate2_refused (fun _ => .error .connectionError) (sampleBody "ruslan" "pow" "15" "7")
    (sampleUsers "ruslan" 150) (by decide +kernel)

/-! ### What is charged -/

/-- Whenever an execution with this user and price is charged, it is the named
account that was looked up and that has paid, and it has paid the price. -/
def ChargedAsNamed (user : String) (price : JsonValue) : Prop :=
  ∀ json f, readFields json = .ok f → f.user = .str user → f.price = price →
    ∀ (outcome : Users → Except PyError Response) (users : Users),
      ((calculate2 (.object json)).calls (serveAlone outcome) users).countP isPaid ≠ 0 →
      (billingRequest .get (accountQuery user)).get "user" = some user ∧
        ∃ balance amount : ℤ, price.number = some (amount : ℚ) ∧
          users (some user) = some balance ∧
          ((calculate2 (.object json)).run (serveAlone outcome) users).2
            = Function.update users (some user) (some (balance - amount))

/-- The price passes the check, and the first amount that billing finds in the
query is an integer that it would charge. -/
def Chargeable (user : String) (price : JsonValue) : Prop :=
  price.floatLtOne = .ok false ∧
    (payable (billingRequest .post (chargeQuery user price))).isSome

/-- With one rich account, a query that can be charged is charged. -/
theorem chargeSucceeds_of_chargeable {user : String} {price : JsonValue} {amount : ℤ}
    (hprice : price.floatLtOne = .ok false)
    (h : payable (billingRequest .post (chargeQuery user price)) = some amount) :
    ChargeSucceeds (sampleUsers (accountOf user) amount) user price := by
  have haccount : sampleUsers (accountOf user) amount (some (accountOf user)) = some amount := by
    simp [sampleUsers]
  have hget := chargeQuery_user user (percent_notMem_price hprice)
  have hmove : movement (sampleUsers (accountOf user) amount) .chargeAccount
      (billingRequest .post (chargeQuery user price))
        = .charge (some (accountOf user)) amount := by
    rw [movement, h, hget, haccount]
    exact if_pos ⟨rfl, le_rfl⟩
  constructor
  · refine (run_getAccountInfo _ _).2.mpr ⟨rfl, amount, ?_, payable_fits h⟩
    rw [accountQuery_user, haccount]
  · refine (run_chargeAccount _ _).2.mpr ?_
    rw [hmove, hget]
    refine ⟨by rintro ⟨⟩, (showable_some (Movement.charge_self amount haccount)).mpr ?_⟩
    rw [sub_self]
    exact fitsDigits_zero

end ResilientMesh
