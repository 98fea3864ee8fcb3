/-
ResilientMesh/BillingLosses.lean

Billing requests at the same time, in any interleaving of their steps.  Without
a lock an update may be lost (`deposit_lost`); this file is about what cannot
happen all the same.

Main results: every account is as some of the requests leave it, one after
another (`accounts_explained`); so no balance is negative, and none is more
than what was there and was paid in (`accounts_bounded`); and a handler meets a
`KeyError` only if another request has deleted the account (`keyError_deleted`).
-/
import ResilientMesh.BillingRaces
import ResilientMesh.LostUpdates
import ResilientMesh.RelyGuarantee

namespace ResilientMesh

/-! ### The handlers go by their last read -/

/-- What a write leaves in its account. -/
def UsersOp.written : UsersOp → Option ℤ
  | contains _ => none
  | getItem _ => none
  | setItem _ balance => some balance
  | delItem _ => none

theorem usersCells_blind : usersCells.Blind UsersOp.written := by
  refine ⟨?_⟩
  intro users op hwrites
  cases op with
  | contains user => cases hwrites
  | getItem user => cases hwrites
  | setItem user balance => rfl
  | delItem user => rfl

section Handlers

variable {user : UserKey} {told : Users → Prop}

/-- A program on the account of `user` that writes by its last read. -/
abbrev ByLastRead (user : UserKey) (told : Users → Prop) (p : BillingHandler) : Prop :=
  usersCells.Decisive user told p

theorem byLastRead_ret (r : Except PyError Response) : ByLastRead user told (.ret r) :=
  .reader (.ret r)

theorem byLastRead_contains {next : Bool → BillingHandler}
    (h : ∀ present, ByLastRead user (fun users => (users user).isSome = present) (next present)) :
    ByLastRead user (fun _ => True) (.call (.contains user) next) :=
  .read rfl rfl (fun _ _ => trivial) fun _ => h _

theorem byLastRead_settle (balance : ℤ) : ByLastRead user told (settle user balance) :=
  .write rfl rfl fun _ => reader_accountInfo user

/-- The balance that a payment reads tells it that the account is there. -/
theorem byLastRead_payment {amount : Option ℤ} {pay : ℤ → ℤ → BillingHandler}
    (hpay : ∀ amount balance told, ByLastRead user told (pay amount balance)) :
    ByLastRead user (fun _ => True) (payment user amount pay) := by
  apply byLastRead_contains
  rintro (_ | _)
  · exact byLastRead_ret _
  cases amount with
  | none => exact byLastRead_ret _
  | some amount =>
    dsimp only
    split_ifs
    · exact byLastRead_ret _
    refine .read rfl rfl ?_ ?_
    · intro users hnot
      dsimp only [usersCells, usersServe] at hnot
      cases huser : users user with
      | none =>
        rw [huser] at hnot
        exact absurd (.ret _) hnot
      | some balance => rfl
    · intro users
      dsimp only [usersCells, usersServe]
      cases users user with
      | none => exact byLastRead_ret _
      | some balance => exact hpay amount balance _

theorem byLastRead_addAccount (req : Request) :
    ByLastRead (req.get "user") (fun _ => True) (addAccount req) := by
  rw [addAccount]
  split_ifs
  · apply byLastRead_contains
    rintro (_ | _)
    · exact byLastRead_settle 0
    · exact byLastRead_ret _
  · exact byLastRead_ret _

theorem byLastRead_depositAccount (req : Request) :
    ByLastRead (req.get "user") (fun _ => True) (depositAccount req) := by
  by_cases hpost : req.method = .post
  · cases hint : tryToInt (req.get "amount") with
    | error e =>
      rw [depositAccount_error hpost hint]
      exact byLastRead_ret _
    | ok amount =>
      rw [depositAccount_eq hpost hint]
      exact byLastRead_payment fun amount balance told => byLastRead_settle _
  · rw [depositAccount, if_neg hpost]
    exact byLastRead_ret _

theorem byLastRead_chargeAccount (req : Request) :
    ByLastRead (req.get "user") (fun _ => True) (chargeAccount req) := by
  by_cases hpost : req.method = .post
  · cases hint : tryToInt (req.get "amount") with
    | error e =>
      rw [chargeAccount_error hpost hint]
      exact byLastRead_ret _
    | ok amount =>
      rw [chargeAccount_eq hpost hint]
      apply byLastRead_payment
      intro amount balance told
      split_ifs
      · exact byLastRead_ret _
      · exact byLastRead_settle _
  · rw [chargeAccount, if_neg hpost]
    exact byLastRead_ret _

theorem byLastRead_removeAccount (req : Request) :
    ByLastRead (req.get "user") (fun _ => True) (removeAccount req) := by
  rw [removeAccount]
  split_ifs
  · apply byLastRead_contains
    rintro (_ | _)
    · exact byLastRead_ret _
    · refine .write rfl rfl ?_
      rintro (_ | _)
      · exact .ret _
      · exact .ret _
  · exact byLastRead_ret _

theorem byLastRead_getAccountInfo (req : Request) :
    ByLastRead (req.get "user") (fun _ => True) (getAccountInfo req) := by
  rw [getAccountInfo]
  split_ifs
  · apply byLastRead_contains
    rintro (_ | _)
    · exact byLastRead_ret _
    · exact .reader (reader_accountInfo _)
  · exact byLastRead_ret _

theorem byLastRead_isUserExists (req : Request) :
    ByLastRead (req.get "user") (fun _ => True) (isUserExists req) := by
  rw [isUserExists]
  split_ifs
  · apply byLastRead_contains
    rintro (_ | _)
    · exact byLastRead_ret _
    · exact byLastRead_ret _
  · exact byLastRead_ret _

/-- **What a handler writes it decides by what it has read last.** -/
theorem byLastRead_billing (route : BillingRoute) (req : Request) :
    ByLastRead (req.get "user") (fun _ => True) (billing route req) := by
  cases route with
  | isUserExists => exact byLastRead_isUserExists req
  | createAccount => exact byLastRead_addAccount req
  | depositAccount => exact byLastRead_depositAccount req
  | chargeAccount => exact byLastRead_chargeAccount req
  | getAccountInfo => exact byLastRead_getAccountInfo req
  | deleteAccount => exact byLastRead_removeAccount req

end Handlers

/-! ### Every interleaving -/

variable {ι : Type} [DecidableEq ι] {requests : ι → BillingRoute × Request} {users : Users}
  {log : List (Entry ι Users UsersOp UsersOp.Ans)}
  {c : Pool ι Users UsersOp UsersOp.Ans (Except PyError Response)}

/-- The writers of an account, in an order that explains it. -/
theorem explained_account
    (h : Pool.Run (Pool.computed usersServe) (billingPool requests users) log c) (user : UserKey) :
    ∃ ord, usersCells.Writers (fun i => (requests i).2.get "user") log user ord ∧
      (serveInOrder requests ord users).2 user = c.state user := by
  obtain ⟨ord, hord, hcell⟩ := (Cells.explained usersCells_blind
    (fun i => byLastRead_billing (requests i).1 (requests i).2) h).cells user
  refine ⟨ord, hord, ?_⟩
  rw [serveInOrder_eq]
  exact hcell

/-- **Every account is as some requests for it leave it, one after another**,
each of them at most once and each having written: what the races may do is to
lose the others. -/
theorem accounts_explained
    (h : Pool.Run (Pool.computed usersServe) (billingPool requests users) log c) (user : UserKey) :
    ∃ ord : List ι, ord.Nodup ∧
      (∀ i ∈ ord, (requests i).2.get "user" = user ∧
        ∃ w ∈ log, w.who = i ∧ w.op.reads = false) ∧
      (serveInOrder requests ord users).2 user = c.state user := by
  obtain ⟨ord, hord, hcell⟩ := explained_account h user
  exact ⟨ord, hord.nodup, fun i hi => ⟨hord.account_eq i hi, hord.hasWritten i hi⟩, hcell⟩

/-- Where one of two deposits is lost, the account is as the other leaves it. -/
theorem accounts_explained_lost :
    let played := Pool.play usersServe lostDepositSchedule (billingPool twoDeposits emptyAccount)
    ∃ ord : List Bool, ord.Nodup ∧
      (∀ i ∈ ord, (twoDeposits i).2.get "user" = some "ruslan" ∧
        ∃ w ∈ played.1, w.who = i ∧ w.op.reads = false) ∧
      (serveInOrder twoDeposits ord emptyAccount).2 (some "ruslan")
        = played.2.state (some "ruslan") :=
  accounts_explained (Pool.run_play usersServe lostDepositSchedule _) (some "ruslan")

/-! ### No money is made -/

/-- What a request can pay into the account of `user`. -/
def depositOf (user : UserKey) (request : BillingRoute × Request) : ℤ :=
  if request.1 = .depositAccount ∧ request.2.get "user" = user then (payable request.2).getD 0
  else 0

theorem depositOf_nonneg (user : UserKey) (request : BillingRoute × Request) :
    0 ≤ depositOf user request := by
  rw [depositOf]
  split_ifs
  · cases hpay : payable request.2 with
    | none => exact le_rfl
    | some amount => exact (payable_pos hpay).le
  · exact le_rfl

/-- What an account holds, where none there is is nothing. -/
def held (users : Users) (user : UserKey) : ℤ := (users user).getD 0

theorem held_nonneg {users : Users} (h : users.Solvent) (user : UserKey) : 0 ≤ held users user := by
  rw [held]
  cases huser : users user with
  | none => exact le_rfl
  | some balance => exact h user balance huser

/-- One request adds no more than it can pay in. -/
theorem held_serveBilling_le {users : Users} (h : users.Solvent) (request : BillingRoute × Request)
    (user : UserKey) :
    held (serveBilling users request.1 request.2).2 user
      ≤ held users user + depositOf user request := by
  have hnonneg := depositOf_nonneg user request
  obtain ⟨route, req⟩ := request
  show held (serveBilling users route req).2 user ≤ _
  rw [serveBilling_users]
  have hmoves := movement_moves users route req
  generalize movement users route req = m at hmoves
  by_cases huser : req.get "user" = user
  · subst huser
    cases hmoves with
    | keep =>
      rw [Movement.apply_keep]
      exact le_add_of_nonneg_right hnonneg
    | create _ _ =>
      rw [held, Movement.apply, Function.update_self]
      exact add_nonneg (held_nonneg h _) hnonneg
    | deposit _ hpay huser =>
      rw [held, Movement.apply, Function.update_self, held, huser, depositOf, hpay]
      simp
    | charge _ hpay huser _ =>
      rw [held, Movement.apply, Function.update_self, held, huser]
      have hpos := payable_pos hpay
      simp only [Option.map_some, Option.getD_some]
      linarith
    | delete _ _ =>
      rw [held, Movement.apply, Function.update_self]
      exact add_nonneg (held_nonneg h _) hnonneg
  · -- a request for another account
    have hother : ¬ m.Touches user := by
      cases hmoves with
      | keep => exact id
      | create _ _ => exact fun htouch => huser htouch.symm
      | deposit _ _ _ => exact fun htouch => huser htouch.symm
      | charge _ _ _ _ => exact fun htouch => huser htouch.symm
      | delete _ _ => exact fun htouch => huser htouch.symm
    rw [held, Movement.apply_of_not_touches hother]
    exact le_add_of_nonneg_right hnonneg

omit [DecidableEq ι] in
/-- Requests one after another keep the accounts solvent, and add no more than
they can pay in. -/
theorem held_serveInOrder_le (requests : ι → BillingRoute × Request) (ord : List ι) {users : Users}
    (h : users.Solvent) (user : UserKey) :
    Ledger.Solvent (serveInOrder requests ord users).2 ∧
      held (serveInOrder requests ord users).2 user
        ≤ held users user + (ord.map fun i => depositOf user (requests i)).sum := by
  induction ord generalizing users with
  | nil => exact ⟨h, (add_zero _).symm.le⟩
  | cons i ord ih =>
    obtain ⟨hsolvent, hle⟩ := ih (serveBilling_solvent h (requests i).1 (requests i).2)
    refine ⟨hsolvent, ?_⟩
    calc held (serveInOrder requests (i :: ord) users).2 user
        ≤ held (serveBilling users (requests i).1 (requests i).2).2 user
            + (ord.map fun i => depositOf user (requests i)).sum := hle
      _ ≤ held users user + depositOf user (requests i)
            + (ord.map fun i => depositOf user (requests i)).sum := by
          gcongr
          exact held_serveBilling_le h (requests i) user
      _ = held users user + ((i :: ord).map fun i => depositOf user (requests i)).sum := by
          rw [List.map_cons, List.sum_cons, add_assoc]

/-- **Races make no money.**  In every interleaving no balance is negative, and
none is more than what was there and what the requests that have begun can pay
in. -/
theorem accounts_bounded
    (h : Pool.Run (Pool.computed usersServe) (billingPool requests users) log c)
    (hsolvent : users.Solvent) {user : UserKey} {balance : ℤ} (hb : c.state user = some balance) :
    0 ≤ balance ∧
      balance ≤ held users user + ∑ i ∈ Pool.ids log, depositOf user (requests i) := by
  obtain ⟨ord, hord, hcell⟩ := explained_account h user
  obtain ⟨hkept, hle⟩ := held_serveInOrder_le requests ord hsolvent user
  rw [held, hcell, hb, Option.getD_some] at hle
  refine ⟨hkept user balance (hcell.trans hb), hle.trans ?_⟩
  -- the requests of the order are some of those that have begun
  rw [← List.sum_toFinset _ hord.nodup]
  apply add_le_add_right
  apply Finset.sum_le_sum_of_subset_of_nonneg
  · intro i hi
    obtain ⟨w, hw, hwho, -⟩ := hord.hasWritten i (List.mem_toFinset.mp hi)
    exact Pool.mem_ids.mpr ⟨w, hw, hwho⟩
  · exact fun i _ _ => depositOf_nonneg user (requests i)

/-- Of the deposits of five and seven one is lost, and the account holds no
more than twelve. -/
theorem accounts_bounded_lost :
    (7 : ℤ) ≤ held emptyAccount (some "ruslan") + ∑ i ∈ Pool.ids
      (Pool.play usersServe lostDepositSchedule (billingPool twoDeposits emptyAccount)).1,
        depositOf (some "ruslan") (twoDeposits i) :=
  (accounts_bounded (Pool.run_play usersServe lostDepositSchedule _)
    (Ledger.solvent_empty.update _ (by simp)) (by decide +kernel)).2

/-! ### Exceptions -/

/-- A handler on the account of `user` that ends in a `KeyError` only where the
account is gone after it was there; `shown` says that it was. -/
inductive Guarded (user : UserKey) : Bool → BillingHandler → Prop
  | ret {shown : Bool} {r : Except PyError Response} : r ≠ .error .keyError →
      Guarded user shown (.ret r)
  | contains {shown : Bool} {next : Bool → BillingHandler} : Guarded user false (next false) →
      Guarded user true (next true) → Guarded user shown (.call (.contains user) next)
  | getItem {next : Option ℤ → BillingHandler} :
      (∀ balance, Guarded user true (next (some balance))) →
      Guarded user true (.call (.getItem user) next)
  | setItem {shown : Bool} {balance : ℤ} {next : Unit → BillingHandler} :
      Guarded user true (next ()) → Guarded user shown (.call (.setItem user balance) next)
  | delItem {next : Bool → BillingHandler} : Guarded user false (next true) →
      Guarded user true (.call (.delItem user) next)

section Guarded

variable {user : UserKey} {shown : Bool}

/-- A body that cannot be written is another error. -/
theorem makeResponse_ne_keyError {body : Except PyError Body} (h : body ≠ .error .keyError)
    (code : ℕ) : makeResponse body code ≠ .error .keyError := by
  cases body with
  | error e => exact fun heq => h (congrArg _ (Except.error.inj heq))
  | ok body =>
    show (if body.writable then Except.ok (⟨code, body⟩ : Response) else .error PyError.valueError)
      ≠ _
    split_ifs
    · rintro ⟨⟩
    · rintro ⟨⟩

theorem userMessage_ne_keyError (pre post : String) (code : ℕ) (f : String → Body) :
    makeResponse ((userMessage pre user post).map f) code ≠ .error .keyError := by
  apply makeResponse_ne_keyError
  cases user with
  | none => rintro ⟨⟩
  | some user => rintro ⟨⟩

theorem tryToInt_ne_keyError {amount : Option String} {e : PyError}
    (h : tryToInt amount = .error e) :
    e ≠ .keyError := by
  cases amount with
  | none =>
    cases h
    decide
  | some amount => cases h

theorem guarded_accountInfo :
    Guarded user true
      ((getAccountInfoByUsername user).bind fun body => .ret (makeResponse body 200)) :=
  .getItem fun _ => .ret (makeResponse_ne_keyError (by rintro ⟨⟩) 200)

theorem guarded_settle (balance : ℤ) : Guarded user shown (settle user balance) :=
  .setItem guarded_accountInfo

theorem guarded_payment {amount : Option ℤ} {pay : ℤ → ℤ → BillingHandler}
    (hpay : ∀ amount balance, Guarded user true (pay amount balance)) :
    Guarded user shown (payment user amount pay) := by
  apply Guarded.contains
  · exact .ret (userMessage_ne_keyError _ _ _ _)
  cases amount with
  | none => exact .ret (by rintro ⟨⟩)
  | some amount =>
    dsimp only
    split_ifs
    · exact .ret (by rintro ⟨⟩)
    · exact .getItem fun balance => hpay amount balance

/-- **Every handler is guarded**: it has seen the account before it relies on
it. -/
theorem guarded_billing (route : BillingRoute) (req : Request) :
    Guarded (req.get "user") false (billing route req) := by
  have hforbidden : Guarded (req.get "user") false (.ret (.ok forbidden)) := .ret (by rintro ⟨⟩)
  cases route with
  | isUserExists =>
    show Guarded _ _ (isUserExists req)
    rw [isUserExists]
    split_ifs
    · exact .contains (.ret (by rintro ⟨⟩)) (.ret (by rintro ⟨⟩))
    · exact hforbidden
  | createAccount =>
    show Guarded _ _ (addAccount req)
    rw [addAccount]
    split_ifs
    · exact .contains (guarded_settle 0) (.ret (userMessage_ne_keyError _ _ _ _))
    · exact hforbidden
  | depositAccount =>
    show Guarded _ _ (depositAccount req)
    by_cases hpost : req.method = .post
    · cases hint : tryToInt (req.get "amount") with
      | error e =>
        rw [depositAccount_error hpost hint]
        exact .ret fun h => tryToInt_ne_keyError hint (Except.error.inj h)
      | ok amount =>
        rw [depositAccount_eq hpost hint]
        exact guarded_payment fun amount balance => guarded_settle _
    · rw [depositAccount, if_neg hpost]
      exact hforbidden
  | chargeAccount =>
    show Guarded _ _ (chargeAccount req)
    by_cases hpost : req.method = .post
    · cases hint : tryToInt (req.get "amount") with
      | error e =>
        rw [chargeAccount_error hpost hint]
        exact .ret fun h => tryToInt_ne_keyError hint (Except.error.inj h)
      | ok amount =>
        rw [chargeAccount_eq hpost hint]
        apply guarded_payment
        intro amount balance
        split_ifs
        · exact .ret (by rintro ⟨⟩)
        · exact guarded_settle _
    · rw [chargeAccount, if_neg hpost]
      exact hforbidden
  | getAccountInfo =>
    show Guarded _ _ (getAccountInfo req)
    rw [getAccountInfo]
    split_ifs
    · exact .contains (.ret (userMessage_ne_keyError _ _ _ _)) guarded_accountInfo
    · exact hforbidden
  | deleteAccount =>
    show Guarded _ _ (removeAccount req)
    rw [removeAccount]
    split_ifs
    · exact .contains (.ret (userMessage_ne_keyError _ _ _ _)) (.delItem (.ret (by rintro ⟨⟩)))
    · exact hforbidden

end Guarded

/-- An account that is there stays there, if it is not taken away. -/
theorem isSome_or_deletion {user : UserKey} {users : Users} (h : (users user).isSome)
    (op : UsersOp) : ((usersServe users op).2 user).isSome ∨
      (⟨op, (usersServe users op).1⟩ : Event UsersOp UsersOp.Ans) = ⟨.delItem user, true⟩ := by
  cases op with
  | contains user' => exact .inl h
  | getItem user' => exact .inl h
  | setItem user' balance =>
    left
    show (Function.update users user' (some balance) user).isSome
    by_cases huser : user = user'
    · rw [huser, Function.update_self]
      rfl
    · rwa [Function.update_of_ne huser]
  | delItem user' =>
    by_cases huser : user = user'
    · subst huser
      right
      show (⟨.delItem user, (users user).isSome⟩ : Event UsersOp UsersOp.Ans) = _
      rw [h]
    · left
      show (Function.update users user' none user).isSome
      rwa [Function.update_of_ne huser]

/-- The event shows that the account is there: a test that finds it, a read of
it, or a write. -/
def Sights (user : UserKey) : Event UsersOp UsersOp.Ans → Prop
  | ⟨.contains user', present⟩ => user' = user ∧ present = true
  | ⟨.getItem user', balance⟩ => user' = user ∧ balance ≠ none
  | ⟨.setItem user' _, _⟩ => user' = user
  | ⟨.delItem _, _⟩ => False

/-- The event takes the account for granted, and it is not there. -/
def Misses (user : UserKey) : Event UsersOp UsersOp.Ans → Prop
  | ⟨.getItem user', balance⟩ => user' = user ∧ balance = none
  | ⟨.delItem user', removed⟩ => user' = user ∧ removed = false
  | ⟨.contains _, _⟩ => False
  | ⟨.setItem _ _, _⟩ => False

/-- Request `i` saw the account and then missed it: it took no step in between,
and another request deleted the account there. -/
def MissedAfterDeletion (user : UserKey) (i : ι) (log : List (Entry ι Users UsersOp UsersOp.Ans)) :
    Prop :=
  ∃ before seen between missed after, log = before ++ seen :: (between ++ missed :: after) ∧
    seen.who = i ∧ Sights user seen.event ∧ missed.who = i ∧ Misses user missed.event ∧
    (∀ e ∈ between, e.who ≠ i) ∧ ∃ e ∈ between, e.event = ⟨.delItem user, true⟩

/-- Since request `i` last took a step, in which it saw the account, that is
there or was deleted. -/
def SeenLast (user : UserKey) (i : ι) (log : List (Entry ι Users UsersOp UsersOp.Ans))
    (users : Users) : Prop :=
  ∃ before seen between, log = before ++ seen :: between ∧ seen.who = i ∧
    Sights user seen.event ∧ (∀ e ∈ between, e.who ≠ i) ∧
    ((users user).isSome ∨ ∃ e ∈ between, e.event = ⟨.delItem user, true⟩)

section SeenLast

variable {user : UserKey} {i : ι} {e : Entry ι Users UsersOp UsersOp.Ans}

omit [DecidableEq ι] in
theorem MissedAfterDeletion.concat (h : MissedAfterDeletion user i log) :
    MissedAfterDeletion user i (log ++ [e]) := by
  obtain ⟨before, seen, between, missed, after, rfl, h⟩ := h
  exact ⟨before, seen, between, missed, after ++ [e], by simp, h⟩

omit [DecidableEq ι] in
theorem seenLast_own (hwho : e.who = i) (hsights : Sights user e.event)
    (hthere : (e.post user).isSome) : SeenLast user i (log ++ [e]) e.post :=
  ⟨log, e, [], rfl, hwho, hsights, fun _ he => absurd he List.not_mem_nil, .inl hthere⟩

omit [DecidableEq ι] in
/-- What another request does to the account of `i`: it may delete it. -/
theorem SeenLast.other (h : SeenLast user i log e.pre)
    (hserve : usersServe e.pre e.op = (e.ans, e.post)) (hwho : e.who ≠ i) :
    SeenLast user i (log ++ [e]) e.post := by
  obtain ⟨before, seen, between, rfl, hseen, hsights, hbetween, hthere⟩ := h
  refine ⟨before, seen, between ++ [e], by simp, hseen, hsights, ?_, ?_⟩
  · intro e' he'
    rcases List.mem_append.mp he' with he' | he'
    · exact hbetween e' he'
    · rwa [List.mem_singleton.mp he']
  · rcases hthere with hthere | ⟨d, hd, hdel⟩
    · have hkept := isSome_or_deletion hthere e.op
      rw [hserve] at hkept
      exact hkept.imp_right fun hdel => ⟨e, List.mem_append_right _ List.mem_cons_self, hdel⟩
    · exact .inr ⟨d, List.mem_append_left _ hd, hdel⟩

omit [DecidableEq ι] in
theorem SeenLast.missed (h : SeenLast user i log e.pre) (hnone : e.pre user = none)
    (hwho : e.who = i) (hmisses : Misses user e.event) :
    MissedAfterDeletion user i (log ++ [e]) := by
  obtain ⟨before, seen, between, rfl, hseen, hsights, hbetween, hthere⟩ := h
  have hdeleted := hthere.resolve_left (by rw [hnone]; exact Bool.false_ne_true)
  exact ⟨before, seen, between, e, [], by simp, hseen, hsights, hwho, hmisses, hbetween, hdeleted⟩

end SeenLast

omit [DecidableEq ι] in
/-- One step of a guarded handler: it stays guarded, and has seen the account
where it takes it for granted, or it misses an account that was deleted. -/
theorem Guarded.step {user : UserKey} {shown : Bool} {i : ι} {op : UsersOp}
    {next : op.Ans → BillingHandler} (h : Guarded user shown (.call op next)) {users : Users}
    (hseen : shown = true → SeenLast user i log users) :
    let e : Entry ι Users UsersOp UsersOp.Ans :=
      ⟨i, op, (usersServe users op).1, users, (usersServe users op).2⟩
    MissedAfterDeletion user i (log ++ [e]) ∨
      ∃ shown', Guarded user shown' (next e.ans) ∧
        (shown' = true → SeenLast user i (log ++ [e]) e.post) := by
  dsimp only
  cases h with
  | @contains _ next hfalse htrue =>
    right
    show ∃ shown', Guarded user shown' (next (users user).isSome) ∧ _
    cases hsome : (users user).isSome with
    | false => exact ⟨false, hfalse, Bool.false_ne_true.elim⟩
    | true =>
      refine ⟨true, htrue, fun _ => ?_⟩
      exact seenLast_own rfl ⟨rfl, hsome⟩ hsome
  | @getItem next hnext =>
    have hlast := hseen rfl
    cases hbalance : users user with
    | none => exact .inl (hlast.missed hbalance rfl ⟨rfl, hbalance⟩)
    | some balance =>
      right
      show ∃ shown', Guarded user shown' (next (users user)) ∧ _
      rw [hbalance]
      refine ⟨true, hnext balance, fun _ => ?_⟩
      have hthere : users user ≠ none := by
        rw [hbalance]
        exact Option.some_ne_none balance
      exact seenLast_own rfl ⟨rfl, hthere⟩ (Option.isSome_iff_ne_none.mpr hthere)
  | @setItem _ balance _ hnext =>
    right
    refine ⟨true, hnext, fun _ => seenLast_own rfl rfl ?_⟩
    show (Function.update users user (some balance) user).isSome
    rw [Function.update_self]
    rfl
  | @delItem next hnext =>
    have hlast := hseen rfl
    cases hsome : (users user).isSome with
    | false =>
      have hnone : users user = none :=
        Option.isNone_iff_eq_none.mp (Option.isSome_eq_false_iff.mp hsome)
      exact .inl (hlast.missed hnone rfl ⟨rfl, hsome⟩)
    | true =>
      right
      show ∃ shown', Guarded user shown' (next (users user).isSome) ∧ _
      rw [hsome]
      exact ⟨false, hnext, Bool.false_ne_true.elim⟩

/-- **A guarded handler among others**: it has missed an account that was
deleted, or is still guarded. -/
theorem guarded_run
    (h : Pool.Run (Pool.computed usersServe) (billingPool requests users) log c) (i : ι) :
    MissedAfterDeletion ((requests i).2.get "user") i log ∨
      ∃ shown, Guarded ((requests i).2.get "user") shown (c.prog i) ∧
        (shown = true → SeenLast ((requests i).2.get "user") i log c.state) := by
  induction h with
  | refl => exact .inr ⟨false, guarded_billing _ _, Bool.false_ne_true.elim⟩
  | @tail log c c' e _ hstep ih =>
    rcases ih with hmissed | ⟨shown, hguarded, hseen⟩
    · exact .inl hmissed.concat
    cases hstep with
    | @mk j op next ans s hprog hserve =>
      by_cases hij : j = i
      · subst hij
        rw [hprog] at hguarded
        obtain ⟨rfl, rfl⟩ := Prod.mk.inj hserve
        have hstep := hguarded.step hseen
        rw [Pool.resume_prog_self, Pool.resume_state]
        exact hstep
      · rw [Pool.resume_prog_ne _ _ _ (Ne.symm hij), Pool.resume_state]
        refine .inr ⟨shown, hguarded, fun hshown => ?_⟩
        exact (hseen hshown).other (e := ⟨j, op, ans, c.state, s⟩) hserve hij

/-- **A `KeyError` comes of a deletion only.**  In every interleaving, if a
handler ends in one, then between two steps of it that follow each other, in
the first of which it saw the account of its user and in the second missed it,
another request has deleted that account. -/
theorem keyError_deleted
    (h : Pool.Run (Pool.computed usersServe) (billingPool requests users) log c) {i : ι}
    (hi : c.prog i = .ret (.error .keyError)) :
    ∃ before seen between missed after, log = before ++ seen :: (between ++ missed :: after) ∧
      seen.who = i ∧ Sights ((requests i).2.get "user") seen.event ∧
      missed.who = i ∧ Misses ((requests i).2.get "user") missed.event ∧
      (∀ e ∈ between, e.who ≠ i) ∧
      ∃ e ∈ between, e.event = ⟨.delItem ((requests i).2.get "user"), true⟩ := by
  rcases guarded_run h i with hmissed | ⟨shown, hguarded, -⟩
  · exact hmissed
  · rw [hi] at hguarded
    cases hguarded with
    | ret hne => exact absurd rfl hne

/-- One looks up an account that another deletes. -/
def lookupAndDelete (i : Bool) : BillingRoute × Request :=
  if i then (.deleteAccount, ⟨.delete, [("user", "ruslan")]⟩)
  else (.getAccountInfo, ⟨.get, [("user", "ruslan")]⟩)

/-- The lookup sees the account, and finds it gone. -/
theorem keyError_deleted_lookup :
    ∃ before seen between missed after,
      (Pool.play usersServe [false, true, true, false]
        (billingPool lookupAndDelete emptyAccount)).1
          = before ++ seen :: (between ++ missed :: after) ∧
      seen.who = false ∧ Sights (some "ruslan") seen.event ∧
      missed.who = false ∧ Misses (some "ruslan") missed.event ∧
      (∀ e ∈ between, e.who ≠ false) ∧
      ∃ e ∈ between, e.event = ⟨.delItem (some "ruslan"), true⟩ :=
  keyError_deleted (Pool.run_play usersServe [false, true, true, false] _) rfl

end ResilientMesh
