/-
ResilientMesh/BillingHistory.lean

The billing service over its whole life: any requests, one after another, from
the empty dictionary it starts with.  Every request leaves an entry with the
accounts before it, the response, and the accounts after it.

What a request is taken to have done is read off the request and its status
alone (`BillingEntry.acknowledged`).

A deposit may leave a balance that is too long to be written: it is kept, and
its request answered 500.  The accounts are those that the acknowledged
requests account for as long as there is none (`billingHistory_explained`), and
exactly then is every refused request one that changed nothing
(`users_of_history_iff`).
-/
import ResilientMesh.Billing
import ResilientMesh.LedgerHistory

namespace ResilientMesh

/-! ### What a request asks for -/

/-- The amount a request names, where that is a number. -/
def namedAmount (req : Request) : ℤ :=
  match tryToInt (req.get "amount") with
  | .ok (some amount) => amount
  | _ => 0

/-- What a request asks for, be it granted or not. -/
def asked (route : BillingRoute) (req : Request) : Movement UserKey ℤ :=
  let user := req.get "user"
  match route with
  | .isUserExists => .keep
  | .createAccount => .create user
  | .depositAccount => .deposit user (namedAmount req)
  | .chargeAccount => .charge user (namedAmount req)
  | .getAccountInfo => .keep
  | .deleteAccount => .delete user

theorem namedAmount_eq {req : Request} {amount : ℤ} (h : payable req = some amount) :
    namedAmount req = amount := by
  rw [namedAmount, (payable_eq_some_iff.mp h).1]

theorem Moves.eq_asked {users : Users} {route : BillingRoute} {req : Request}
    {m : Movement UserKey ℤ} (h : Moves users req route m) (hne : m ≠ .keep) :
    m = asked route req := by
  cases h with
  | keep => exact absurd rfl hne
  | create _ _ => rfl
  | deposit _ hpay _ => rw [asked, namedAmount_eq hpay]
  | charge _ hpay _ _ => rw [asked, namedAmount_eq hpay]
  | delete _ _ => rfl

/-- **What is moved at all is what was asked for.** -/
theorem movement_eq_asked {users : Users} {route : BillingRoute} {req : Request}
    (h : movement users route req ≠ .keep) : movement users route req = asked route req :=
  (movement_moves users route req).eq_asked h

/-! ### Histories -/

/-- A request that was served: the accounts before it and after it. -/
structure BillingEntry where
  route : BillingRoute
  req : Request
  pre : Users
  response : Response
  post : Users

/-- What the client has been told was done: a request answered 200 was
granted, any other did nothing. -/
def BillingEntry.acknowledged (e : BillingEntry) : Movement UserKey ℤ :=
  if e.response.status = 200 then asked e.route e.req else .keep

/-- Serve one more request. -/
def serveNext (served : List BillingEntry × Users) (call : BillingRoute × Request) :
    List BillingEntry × Users :=
  let after := serveBilling served.2 call.1 call.2
  (served.1 ++ [⟨call.1, call.2, served.2, after.1, after.2⟩], after.2)

/-- Serve the requests one after another, from the empty dictionary. -/
def billingHistory (calls : List (BillingRoute × Request)) : List BillingEntry × Users :=
  calls.foldl serveNext ([], fun _ => none)

theorem billingHistory_concat (calls : List (BillingRoute × Request))
    (call : BillingRoute × Request) :
    billingHistory (calls ++ [call]) = serveNext (billingHistory calls) call := List.foldl_concat ..

/-- A request that is answered 200 was granted what it asked for. -/
theorem asked_of_ok {users : Users} {route : BillingRoute} {req : Request}
    (h : (serveBilling users route req).1.status = 200) :
    asked route req = movement users route req := by
  cases route with
  | isUserExists => rfl
  | createAccount => exact (movement_eq_asked ((run_addAccount users req).2.mp h).1).symm
  | depositAccount => exact (movement_eq_asked ((run_depositAccount users req).2.mp h).1).symm
  | chargeAccount => exact (movement_eq_asked ((run_chargeAccount users req).2.mp h).1).symm
  | getAccountInfo => rfl
  | deleteAccount => exact (movement_eq_asked ((run_removeAccount users req).2.mp h).1).symm

/-- **The client is told what was done**, if what it leaves can be shown. -/
theorem acknowledged_eq {users : Users} (post : Users) {route : BillingRoute} {req : Request}
    (hshow : Showable (serveBilling users route req).2 (req.get "user")) :
    (BillingEntry.mk route req users (serveBilling users route req).1 post).acknowledged
      = movement users route req := by
  rw [BillingEntry.acknowledged]
  split_ifs with hst
  · exact asked_of_ok hst
  · exact (movement_of_refused hst hshow).symm

/-- A request touches the account of its user only. -/
theorem not_touches_movement {users : Users} {route : BillingRoute} {req : Request} {u : UserKey}
    (h : req.get "user" ≠ u) : ¬ (movement users route req).Touches u := by
  by_cases hkeep : movement users route req = .keep
  · rw [hkeep]
    exact id
  · rw [movement_eq_asked hkeep]
    cases route with
    | isUserExists => exact id
    | getAccountInfo => exact id
    | _ => exact fun htouch => h htouch.symm

/-- Every entry of a history is one request, served alone. -/
theorem served_history {calls : List (BillingRoute × Request)} {e : BillingEntry}
    (he : e ∈ (billingHistory calls).1) :
    e.response = (serveBilling e.pre e.route e.req).1 ∧
      e.post = (serveBilling e.pre e.route e.req).2 := by
  induction calls using List.reverseRecOn with
  | nil => cases he
  | append_singleton calls call ih =>
    rw [billingHistory_concat] at he
    rcases List.mem_append.mp he with he | he
    · exact ih he
    · obtain rfl := List.mem_singleton.mp he
      exact ⟨rfl, rfl⟩

/-! ### Balances that can be shown -/

/-- Every account can be shown. -/
def AllShowable (users : Users) : Prop := ∀ user, Showable users user

theorem DepositFits.allShowable {users : Users} (hall : AllShowable users) {route : BillingRoute}
    {req : Request} (h : DepositFits users route req) :
    AllShowable (serveBilling users route req).2 := by
  intro user
  by_cases huser : req.get "user" = user
  · rw [← huser]
    exact h.showable (hall _)
  · rw [Showable, serveBilling_users,
      Movement.apply_of_not_touches (not_touches_movement huser)]
    exact hall user

/-- As long as every deposit fits, every balance can be shown, and the accounts
were reached by what was acknowledged. -/
theorem billingHistory_explained {calls : List (BillingRoute × Request)}
    (h : ∀ e ∈ (billingHistory calls).1, DepositFits e.pre e.route e.req) :
    AllShowable (billingHistory calls).2 ∧
      Ledger.Reached ((billingHistory calls).1.map BillingEntry.acknowledged)
        (billingHistory calls).2 ∧
      ∀ e ∈ (billingHistory calls).1, AllShowable e.post := by
  induction calls using List.reverseRecOn with
  | nil =>
    refine ⟨fun user => showable_none rfl, .nil, fun e he => ?_⟩
    cases he
  | append_singleton calls call ih =>
    rw [billingHistory_concat] at h ⊢
    obtain ⟨hall, hreached, hposts⟩ := ih fun e he => h e (List.mem_append_left _ he)
    have hfits : DepositFits (billingHistory calls).2 call.1 call.2 :=
      h _ (List.mem_append_right _ List.mem_cons_self)
    have hshow := hfits.allShowable hall
    refine ⟨hshow, ?_, ?_⟩
    · show Ledger.Reached (((billingHistory calls).1 ++ [_]).map _) _
      rw [List.map_append, List.map_singleton, acknowledged_eq _ (hshow _)]
      show Ledger.Reached _ (serveBilling (billingHistory calls).2 call.1 call.2).2
      rw [serveBilling_users]
      exact hreached.snoc (movement_allowed _ _ _)
    · intro e he
      rcases List.mem_append.mp he with he | he
      · exact hposts e he
      · obtain rfl := List.mem_singleton.mp he
        exact hshow

/-! ### The accounts, request after request -/

/-- The accounts are what the history accounts for: an account is there exactly
if the last acknowledged creation or deletion of it is a creation; it then holds
its acknowledged deposits since, less its charges, which is never negative.  A
request that is not answered 200 left all accounts as they were, and a request
for another user this one. -/
structure AccountedFor (log : List BillingEntry) (users : Users) : Prop where
  there : ∀ u, (users u).isSome ↔
    ∃ m, Movement.lastTurn u (log.map BillingEntry.acknowledged) = some m ∧ m.opens u
  balance : ∀ u balance, users u = some balance →
    balance = Movement.balance u (Movement.sinceTurn u (log.map BillingEntry.acknowledged)) ∧
      0 ≤ balance
  refused : ∀ e ∈ log, e.response.status ≠ 200 → e.post = e.pre
  others : ∀ e ∈ log, ∀ u, e.req.get "user" ≠ u → e.post u = e.pre u

/-- A deposit that does not fit is not accounted for. -/
theorem AccountedFor.depositFits {calls : List (BillingRoute × Request)}
    (h : AccountedFor (billingHistory calls).1 (billingHistory calls).2) :
    ∀ e ∈ (billingHistory calls).1, DepositFits e.pre e.route e.req := by
  intro e he
  obtain ⟨hresponse, hpost⟩ := served_history he
  by_contra hlong
  obtain ⟨hst, hmoved⟩ := deposit_unshown hlong
  rw [← hresponse] at hst
  exact hmoved (hpost.symm.trans (h.refused e he hst))

/-- **The accounts are what the history accounts for exactly if no deposit of
it brings an account to more digits than can be written.** -/
theorem users_of_history_iff (calls : List (BillingRoute × Request)) :
    AccountedFor (billingHistory calls).1 (billingHistory calls).2 ↔
      ∀ e ∈ (billingHistory calls).1, DepositFits e.pre e.route e.req := by
  constructor
  · exact AccountedFor.depositFits
  · intro h
    obtain ⟨-, hreached, hposts⟩ := billingHistory_explained h
    refine ⟨hreached.isSome_iff, ?_, ?_, ?_⟩
    · intro u balance hbalance
      exact ⟨hreached.eq_balance hbalance, hreached.solvent u balance hbalance⟩
    · intro e he hst
      obtain ⟨hresponse, hpost⟩ := served_history he
      have hshow := hposts e he (e.req.get "user")
      rw [hpost] at hshow ⊢
      exact serveBilling_refused (by rwa [← hresponse]) hshow
    · intro e he u hne
      obtain ⟨-, hpost⟩ := served_history he
      rw [hpost, serveBilling_users]
      exact Movement.apply_of_not_touches (not_touches_movement hne)

/-- A deposit of an amount that is written in decimal. -/
def depositOfDigits (amount : ℕ) : Request :=
  ⟨.post, [("user", "ruslan"), ("amount", toString amount)]⟩

/-- An account is opened, and the amount paid in twice. -/
def depositedTwice (amount : ℕ) : List (BillingRoute × Request) :=
  [(.createAccount, ⟨.post, [("user", "ruslan")]⟩), (.depositAccount, depositOfDigits amount)]
    ++ [(.depositAccount, depositOfDigits amount)]

section DepositedTwice

variable {amount : ℕ}

theorem payable_depositOfDigits (hpos : 0 < amount) (hfits : FitsDigits amount) :
    payable (depositOfDigits amount) = some (amount : ℤ) := by
  refine payable_eq_some_iff.mpr ⟨?_, Int.natCast_pos.mpr hpos⟩
  show Except.ok (pyInt (Nat.repr amount).toList) = _
  rw [Nat.toList_repr, pyInt_toDigits hfits]

/-- What the first of the deposits leaves. -/
theorem users_depositOfDigits (hpay : payable (depositOfDigits amount) = some (amount : ℤ)) :
    (billingHistory [(.createAccount, ⟨.post, [("user", "ruslan")]⟩),
      (.depositAccount, depositOfDigits amount)]).2 (some "ruslan") = some (0 + amount : ℤ) := by
  have hopened : (serveBilling (fun _ => none) .createAccount ⟨.post, [("user", "ruslan")]⟩).2
      (some "ruslan") = some 0 := by decide +kernel
  show (serveBilling (serveBilling (fun _ => none) .createAccount
    ⟨.post, [("user", "ruslan")]⟩).2 .depositAccount (depositOfDigits amount)).2 (some "ruslan") = _
  generalize (serveBilling (fun _ => none) .createAccount ⟨.post, [("user", "ruslan")]⟩).2 = opened
    at hopened
  have huser : (depositOfDigits amount).get "user" = some "ruslan" := rfl
  have hmove : movement opened .depositAccount (depositOfDigits amount)
      = .deposit (some "ruslan") (amount : ℤ) := by
    rw [movement, hpay, huser, hopened]
    exact if_pos rfl
  rw [serveBilling_users, hmove, Movement.deposit_self _ hopened]

/-- The second is answered 500, and has been paid in. -/
theorem not_accountedFor_of_long (hpay : payable (depositOfDigits amount) = some (amount : ℤ))
    (hlong : ¬ FitsDigits (0 + amount + amount)) :
    ¬ AccountedFor (billingHistory (depositedTwice amount)).1
      (billingHistory (depositedTwice amount)).2 := by
  intro h
  have hfits := h.depositFits
  rw [depositedTwice, billingHistory_concat] at hfits
  exact hlong (hfits _ (List.mem_append_right _ (List.mem_singleton_self _)) rfl rfl _ _ hpay
    (users_depositOfDigits hpay))

end DepositedTwice

/-- The largest number that can be written, paid in twice. -/
theorem not_accountedFor_depositedTwice :
    ¬ AccountedFor (billingHistory (depositedTwice (10 ^ maxStrDigits - 1))).1
      (billingHistory (depositedTwice (10 ^ maxStrDigits - 1))).2 := by
  have hlimit : 1 < 10 ^ maxStrDigits := Nat.one_lt_pow (by decide) (by decide)
  have hfits : ∀ limit : ℕ, 1 < limit → 0 < limit - 1 ∧ ((limit - 1 : ℕ) : ℤ).natAbs < limit ∧
      ¬ (0 + ((limit - 1 : ℕ) : ℤ) + ((limit - 1 : ℕ) : ℤ)).natAbs < limit := by
    intro limit hlt
    omega
  obtain ⟨hpos, hfits, hlong⟩ := hfits _ hlimit
  exact not_accountedFor_of_long (payable_depositOfDigits hpos hfits) hlong

end ResilientMesh
