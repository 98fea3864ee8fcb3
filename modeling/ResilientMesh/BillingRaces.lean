/-
ResilientMesh/BillingRaces.lean

Billing requests at the same time.  Every membership test, read, write and
deletion of an account is a step of its own, and nothing keeps a request from
stepping in between those of another.

Every handler is a transaction on the account of its user
(`onAccount_billing`), so `ResilientMesh.Serial` says when that does no harm.

Main result: if no request steps on an account that is no longer as it has left
it or found it, then the responses and the balances are those of some order of
the requests (`served_in_some_order`).
-/
import ResilientMesh.Billing
import ResilientMesh.Serial

namespace ResilientMesh

/-! ### The accounts as cells -/

/-- The account that an operation is about. -/
def UsersOp.user : UsersOp → UserKey
  | contains user => user
  | getItem user => user
  | setItem user _ => user
  | delItem user => user

/-- The membership test and the read. -/
def UsersOp.reads : UsersOp → Bool
  | contains _ => true
  | getItem _ => true
  | setItem _ _ => false
  | delItem _ => false

instance : (op : UsersOp) → DecidableEq op.Ans
  | .contains _ => inferInstanceAs (DecidableEq Bool)
  | .getItem _ => inferInstanceAs (DecidableEq (Option ℤ))
  | .setItem _ _ => inferInstanceAs (DecidableEq Unit)
  | .delItem _ => inferInstanceAs (DecidableEq Bool)

def usersCells : Cells UserKey (Option ℤ) UsersOp UsersOp.Ans where
  serve := usersServe
  key := UsersOp.user
  reads := UsersOp.reads
  unchanged := by
    intro users op hreads
    cases op with
    | contains user => rfl
    | getItem user => rfl
    | setItem user balance => cases hreads
    | delItem user => cases hreads
  answer := by
    intro users users' op hreads hsame
    cases op with
    | contains user => exact congrArg Option.isSome hsame
    | getItem user => exact hsame
    | setItem user balance => cases hreads
    | delItem user => cases hreads

/-! ### The handlers as transactions -/

section Handlers

variable {user : UserKey}

/-- A program on the account of `user`. -/
abbrev OnAccount (user : UserKey) (p : BillingHandler) : Prop := usersCells.Transaction user p

theorem onAccount_contains {next : Bool → BillingHandler} (hfalse : OnAccount user (next false))
    (htrue : OnAccount user (next true)) : OnAccount user (.call (.contains user) next) := by
  refine .read rfl rfl ?_
  rintro (_ | _)
  · exact hfalse
  · exact htrue

theorem reader_accountInfo (user : UserKey) :
    usersCells.Reader user
      ((getAccountInfoByUsername user).bind fun body => .ret (makeResponse body 200)) := by
  refine .call rfl rfl ?_
  rintro (_ | balance)
  · exact .ret _
  · exact .ret _

theorem onAccount_settle (balance : ℤ) : OnAccount user (settle user balance) :=
  .write rfl rfl fun _ => reader_accountInfo user

theorem onAccount_payment {amount : Option ℤ} {pay : ℤ → ℤ → BillingHandler}
    (hpay : ∀ amount balance, OnAccount user (pay amount balance)) :
    OnAccount user (payment user amount pay) := by
  apply onAccount_contains (.ret _)
  cases amount with
  | none => exact .ret _
  | some amount =>
    dsimp only
    split_ifs
    · exact .ret _
    · refine .read rfl rfl ?_
      rintro (_ | balance)
      · exact .ret _
      · exact hpay amount balance

theorem onAccount_addAccount (req : Request) : OnAccount (req.get "user") (addAccount req) := by
  rw [addAccount]
  split_ifs
  · exact onAccount_contains (onAccount_settle 0) (.ret _)
  · exact .ret _

theorem onAccount_depositAccount (req : Request) :
    OnAccount (req.get "user") (depositAccount req) := by
  by_cases hpost : req.method = .post
  · cases hint : tryToInt (req.get "amount") with
    | error e =>
      rw [depositAccount_error hpost hint]
      exact .ret _
    | ok amount =>
      rw [depositAccount_eq hpost hint]
      exact onAccount_payment fun amount balance => onAccount_settle _
  · rw [depositAccount, if_neg hpost]
    exact .ret _

theorem onAccount_chargeAccount (req : Request) :
    OnAccount (req.get "user") (chargeAccount req) := by
  by_cases hpost : req.method = .post
  · cases hint : tryToInt (req.get "amount") with
    | error e =>
      rw [chargeAccount_error hpost hint]
      exact .ret _
    | ok amount =>
      rw [chargeAccount_eq hpost hint]
      apply onAccount_payment
      intro amount balance
      split_ifs
      · exact .ret _
      · exact onAccount_settle _
  · rw [chargeAccount, if_neg hpost]
    exact .ret _

theorem onAccount_removeAccount (req : Request) :
    OnAccount (req.get "user") (removeAccount req) := by
  rw [removeAccount]
  split_ifs
  · apply onAccount_contains (.ret _)
    refine .write rfl rfl ?_
    rintro (_ | _)
    · exact .ret _
    · exact .ret _
  · exact .ret _

theorem onAccount_getAccountInfo (req : Request) :
    OnAccount (req.get "user") (getAccountInfo req) := by
  rw [getAccountInfo]
  split_ifs
  · exact onAccount_contains (.ret _) (reader_accountInfo _).transaction
  · exact .ret _

theorem onAccount_isUserExists (req : Request) :
    OnAccount (req.get "user") (isUserExists req) := by
  rw [isUserExists]
  split_ifs
  · exact onAccount_contains (.ret _) (.ret _)
  · exact .ret _

/-- **A handler is a transaction on the account of its user.** -/
theorem onAccount_billing (route : BillingRoute) (req : Request) :
    OnAccount (req.get "user") (billing route req) := by
  cases route with
  | isUserExists => exact onAccount_isUserExists req
  | createAccount => exact onAccount_addAccount req
  | depositAccount => exact onAccount_depositAccount req
  | chargeAccount => exact onAccount_chargeAccount req
  | getAccountInfo => exact onAccount_getAccountInfo req
  | deleteAccount => exact onAccount_removeAccount req

end Handlers

/-! ### Requests at the same time, and in order -/

variable {ι : Type}

/-- The requests, none of them begun. -/
def billingPool (requests : ι → BillingRoute × Request) (users : Users) :
    Pool ι Users UsersOp UsersOp.Ans (Except PyError Response) :=
  ⟨users, fun i => billing (requests i).1 (requests i).2⟩

/-- The requests one after another, in the given order. -/
def serveInOrder (requests : ι → BillingRoute × Request) :
    List ι → Users → List (ι × Response) × Users
  | [], users => ([], users)
  | i :: ord, users =>
    let first := serveBilling users (requests i).1 (requests i).2
    let rest := serveInOrder requests ord first.2
    ((i, first.1) :: rest.1, rest.2)

theorem serveInOrder_eq (requests : ι → BillingRoute × Request) (ord : List ι) (users : Users) :
    serveInOrder requests ord users =
      ((usersCells.serially (billingPool requests users).prog ord users).1.map
          fun result => (result.1, answer result.2),
        (usersCells.serially (billingPool requests users).prog ord users).2) := by
  induction ord generalizing users with
  | nil => rfl
  | cons i ord ih =>
    rw [serveInOrder, ih]
    rfl

theorem mem_of_mem_serveInOrder {requests : ι → BillingRoute × Request} {ord : List ι}
    {users : Users} {i : ι} {response : Response}
    (h : (i, response) ∈ (serveInOrder requests ord users).1) : i ∈ ord := by
  rw [serveInOrder_eq] at h
  obtain ⟨⟨j, result⟩, hmem, heq⟩ := List.mem_map.mp h
  obtain ⟨rfl, -⟩ := Prod.mk.inj heq
  exact Cells.mem_of_mem_serially hmem

/-- The accounts are as some order of the requests of `I` leaves them, and
every request of `I` that was answered was answered as in that order; none is
in it twice.  Only one that is still running may be left out. -/
def InSomeOrder (requests : ι → BillingRoute × Request) (users : Users) (I : Finset ι)
    (c : Pool ι Users UsersOp UsersOp.Ans (Except PyError Response)) : Prop :=
  ∃ ord : List ι, ord.Nodup ∧ (∀ i ∈ ord, i ∈ I) ∧
    (serveInOrder requests ord users).2 = c.state ∧
    ∀ i ∈ I, ∀ result, c.prog i = .ret result →
      (i, answer result) ∈ (serveInOrder requests ord users).1

variable [DecidableEq ι] {requests : ι → BillingRoute × Request} {users : Users}
  {log : List (Entry ι Users UsersOp UsersOp.Ans)}
  {c : Pool ι Users UsersOp UsersOp.Ans (Except PyError Response)}

/-- **Requests that do not disturb each other are served in some order.**
Whenever one of them takes a step, its account is as its own write left it, or,
if it has not written yet, the membership test and the read it has made would
answer the same again. -/
theorem served_in_some_order {I : Finset ι}
    (h : Pool.Run (Pool.computed usersServe) (billingPool requests users) log c)
    (hI : Pool.ids log ⊆ I) (hfresh : usersCells.FreshFrom [] log) :
    InSomeOrder requests users I c := by
  obtain ⟨ord, hnodup, hwithin, hstate, hresults⟩ :=
    hfresh.serial (fun i _ => onAccount_billing (requests i).1 (requests i).2) h hI
  refine ⟨ord, hnodup, hwithin, ?_, ?_⟩
  · rw [serveInOrder_eq]
    exact hstate
  · intro i hi result hret
    rw [serveInOrder_eq]
    exact List.mem_map.mpr ⟨(i, result), hresults i hi result hret, rfl⟩

/-- Five and seven for one account. -/
def twoDeposits (i : Bool) : BillingRoute × Request :=
  (.depositAccount, ⟨.post, [("user", "ruslan"), ("amount", if i then "7" else "5")]⟩)

/-- An account that holds nothing. -/
def emptyAccount : Users := Function.update (fun _ => none) (some "ruslan") (some 0)

/-- Both see the account, and then one after the other pays in. -/
def depositSchedule : List Bool := [false, true, false, false, false, true, true, true]

theorem served_in_some_order_twoDeposits :
    InSomeOrder twoDeposits emptyAccount Finset.univ
      (Pool.play usersServe depositSchedule (billingPool twoDeposits emptyAccount)).2 :=
  served_in_some_order (Pool.run_play usersServe depositSchedule _) (Finset.subset_univ _)
    (by decide +kernel)

/-- Both read the balance before either writes it. -/
def lostDepositSchedule : List Bool := [false, true, false, true, false, false, true, true]

/-- Both are answered 200, and the account holds seven. -/
theorem deposit_lost :
    ¬ ∀ (requests : Bool → BillingRoute × Request) (users : Users)
      (log : List (Entry Bool Users UsersOp UsersOp.Ans))
      (c : Pool Bool Users UsersOp UsersOp.Ans (Except PyError Response)),
      Pool.Run (Pool.computed usersServe) (billingPool requests users) log c → c.Finished →
        InSomeOrder requests users Finset.univ c := by
  intro h
  have hfinished : (Pool.play usersServe lostDepositSchedule
      (billingPool twoDeposits emptyAccount)).2.Finished := by
    intro i
    revert i
    decide +kernel
  obtain ⟨ord, hnodup, -, hstate, hresults⟩ :=
    h twoDeposits emptyAccount _ _ (Pool.run_play usersServe lostDepositSchedule _) hfinished
  -- both have a place in the order
  have hmem : ∀ i, i ∈ ord := by
    intro i
    have hi := hfinished i
    have hresult := hresults i (Finset.mem_univ i)
    cases hprog : (Pool.play usersServe lostDepositSchedule
        (billingPool twoDeposits emptyAccount)).2.prog i with
    | call op next =>
      rw [hprog] at hi
      exact hi.elim
    | ret result => exact mem_of_mem_serveInOrder (hresult result hprog)
  -- and either way the account would hold twelve
  have hperm : ord.Perm [false, true] := by
    apply (List.perm_ext_iff_of_nodup hnodup (by decide)).mpr
    intro i
    exact iff_of_true (hmem i) (by cases i <;> decide)
  obtain ⟨i, j, rfl⟩ := List.length_eq_two.mp hperm.length_eq
  have htwelve : ∀ i j : Bool, [i, j].Nodup →
      (serveInOrder twoDeposits [i, j] emptyAccount).2 (some "ruslan") = some 12 := by
    decide +kernel
  have hlost := congrFun hstate (some "ruslan")
  rw [htwelve i j hnodup] at hlost
  revert hlost
  decide +kernel

end ResilientMesh
