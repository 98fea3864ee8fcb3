/-
ResilientMesh/DriverProgress.lean

A simulation in a mesh that loses nothing.  Every call is served, so it gets to
its first request, and by then each of its users holds 1100
(`simulate_starts`).  The request then looks its account up and charges it
(`request_charges`).
-/
import ResilientMesh.DriverRuns

namespace ResilientMesh

open Driver

/-! ### Billing, asked by the driver -/

variable {accounts : Users} {req : Request} {user : UserKey}

theorem serve_create (hpost : req.method = .post) (huser : req.get "user" = user)
    (hnew : accounts user = none) :
    (serveBilling accounts .createAccount req).2 = Function.update accounts user (some 0) := by
  rw [serveBilling_users, movement, huser, if_pos ⟨hpost, hnew⟩, Movement.apply]

theorem serve_deposit (hpost : req.method = .post) (huser : req.get "user" = user) {amount b : ℤ}
    (hpay : payable req = some amount) (hb : accounts user = some b)
    (hfits : FitsDigits (b + amount)) :
    (serveBilling accounts .depositAccount req).1.status = 200 ∧
      (serveBilling accounts .depositAccount req).2
        = Function.update accounts user (some (b + amount)) := by
  have hmove : movement accounts .depositAccount req = .deposit user amount := by
    rw [movement, hpay, huser, hb]
    exact if_pos hpost
  refine ⟨(run_depositAccount accounts req).2.mpr ?_, ?_⟩
  · rw [hmove, huser]
    exact ⟨by rintro ⟨⟩, (showable_some (Movement.deposit_self amount hb)).mpr hfits⟩
  · rw [serveBilling_users, hmove, Movement.apply, hb, Option.map_some]

/-! ### Alone -/

variable {σ : Type} [DecidableEq σ] {α β : Type} {p q r : DriverProg σ α}
  {s s' s'' : DriverState σ}

/-- `Goes p s q s'`: alone, and with every deposit acknowledged, `p` in `s`
becomes `q` in `s'`. -/
def Goes (p : DriverProg σ α) (s : DriverState σ) (q : DriverProg σ α) (s' : DriverState σ) :
    Prop :=
  ∃ tr, Prog.Path p tr q ∧ Pool.Serves driverServe s tr s' ∧
    ∀ ev ∈ tr, asksDeposit ev → (driverAttempt ev).acknowledged

theorem Goes.refl (p : DriverProg σ α) (s : DriverState σ) : Goes p s p s :=
  ⟨[], .nil p, .nil s, fun _ h => absurd h List.not_mem_nil⟩

theorem Goes.trans (h : Goes p s q s') (h' : Goes q s' r s'') : Goes p s r s'' := by
  obtain ⟨tr, hpath, hserves, hack⟩ := h
  obtain ⟨tr', hpath', hserves', hack'⟩ := h'
  exact ⟨tr ++ tr', hpath.trans hpath', hserves.append hserves',
    List.forall_mem_append.mpr ⟨hack, hack'⟩⟩

theorem Goes.inside (h : Goes p s q s') (f : α → DriverProg σ β) :
    Goes (p.bind f) s (q.bind f) s' := by
  obtain ⟨tr, hpath, hserves, hack⟩ := h
  exact ⟨tr, hpath.inside f, hserves, hack⟩

/-- A call that is no deposit. -/
theorem goes_call (op : DriverOp σ) {next : op.Ans → DriverProg σ α} (ans : op.Ans)
    (h : driverServe s op ans s') (hquiet : asksDeposit (⟨op, ans⟩ : DriverEvent σ) = false) :
    Goes (.call op next) s (next ans) s' := by
  refine ⟨[⟨op, ans⟩], .cons ans (.nil _), .cons h (.nil _), ?_⟩
  intro ev hev hasks
  rw [List.mem_singleton.mp hev, hquiet] at hasks
  cases hasks

/-! ### A posted request -/

omit [DecidableEq σ] in
theorem path_ofControl {p q : ControlProg α} {tr : List UpstreamEvent} (h : p.Path tr q) :
    (ofControl p).Path (tr.map (upstreamEvent (σ := σ))) (ofControl q) := by
  induction h with
  | nil p => exact .nil _
  | @cons op _ a _ _ _ ih => exact .cons (show (DriverOp.upstream op).Ans (σ := σ) from a) ih

/-- A request to billing, through the control-center, is served. -/
theorem goes_forward (attempts : ℕ) (route : BillingRoute) (req : Request)
    (hdeposit : route = .depositAccount → (serveBilling s.accounts route
      (billingRequest .post (ControlCenter.queryParams req))).1.status = 200) :
    ∃ response, Goes (requestsPost attempts (ControlCenter.forward .post route req)) s
      (.ret (.ok response)) { s with accounts := (serveBilling s.accounts route
        (billingRequest .post (ControlCenter.queryParams req))).2 } := by
  have hmesh : meshServe s.accounts
      (.billing .post route (ControlCenter.queryParams req)) (.ok _) _ := meshServe_served ..
  generalize serveBilling s.accounts route
    (billingRequest .post (ControlCenter.queryParams req)) = served at hdeposit hmesh ⊢
  refine ⟨⟨200, served.1.body⟩, ?_⟩
  have hcontrol : (withRetries attempts (answered (ControlCenter.forward .post route req))).Path
      [⟨.billing .post route (ControlCenter.queryParams req), .ok served.1⟩]
      (.ret ⟨200, served.1.body⟩) := by
    have hret : ∀ response, (Prog.ret response : ControlProg Response).Path [] (.ret response) :=
      fun _ => .nil _
    cases attempts with
    | zero => exact Prog.path_cons_iff.mpr (hret _)
    | succ n => exact Prog.path_cons_iff.mpr (hret _)
  have hgoes : Goes (ofControl (withRetries attempts
      (answered (ControlCenter.forward .post route req)))) s (.ret ⟨200, served.1.body⟩)
      { s with accounts := served.2 } := by
    refine ⟨_, path_ofControl hcontrol, .cons ⟨hmesh, rfl⟩ (.nil _), ?_⟩
    intro ev hev hasks
    obtain rfl := List.mem_singleton.mp hev
    cases route with
    | depositAccount => exact decide_eq_true (hdeposit rfl)
    | _ => cases hasks
  refine (goes_call .connect (.ok ()) rfl rfl).trans ?_
  refine (hgoes.inside _).trans ?_
  exact goes_call .receive (.ok ()) rfl rfl

/-! ### A round -/

theorem goes_orRaise {p : DriverProg σ (Except PyError α)} {a : α}
    {next : α → DriverProg σ (Except PyError β)} {q : DriverProg σ (Except PyError β)}
    (h : Goes p s (.ret (.ok a)) s') (h' : Goes (next a) s' q s'') :
    Goes (orRaise p next) s q s'' :=
  (h.inside _).trans h'

theorem goes_deposit (attempts : ℕ) {u : String} (hu : Plain u) {amount b : ℤ} (hpos : 0 < amount)
    (hsmall : amount ≤ 1000) (hb : s.accounts (some u) = some b)
    (hfits : FitsDigits (b + amount)) :
    ∃ response, Goes (postDeposit attempts amount u) s (.ret (.ok response))
      { s with accounts := Function.update s.accounts (some u) (some (b + amount)) } := by
  have hpost : (billingRequest .post (depositQuery u amount)).method = .post := rfl
  obtain ⟨hst, haccounts⟩ := serve_deposit hpost (depositQuery_user hu amount)
    (payable_depositQuery hu hpos (fitsDigits_amount hpos hsmall)) hb hfits
  rw [← haccounts]
  exact goes_forward attempts .depositAccount _ fun _ => hst

theorem goes_openAccount (attempts : ℕ) {u : String} (hu : Plain u)
    (hnew : s.accounts (some u) = none) :
    Goes (openAccount attempts u) s (.ret (.ok ()))
      { s with accounts := Function.update s.accounts (some u) (some 1000) } := by
  have huser : (billingRequest .post
      (ControlCenter.queryParams (billingRequest .post ("user=" ++ u)))).get "user" = some u := by
    rw [get_billingRequest]
    exact (accountQuery_user u).trans (congrArg some ((accountOf_eq_iff u).mpr hu))
  obtain ⟨created, hcreate⟩ := goes_forward (s := s) attempts .createAccount
    (billingRequest .post ("user=" ++ u)) (by rintro ⟨⟩)
  rw [serve_create rfl huser hnew] at hcreate
  obtain ⟨paid, hdeposit⟩ := goes_deposit
    (s := { s with accounts := Function.update s.accounts (some u) (some 0) }) attempts hu
    (show (0 : ℤ) < 1000 by decide) le_rfl (Function.update_self ..)
    (fitsDigits_amount (by decide) (by decide))
  rw [Function.update_idem] at hdeposit
  exact goes_orRaise hcreate (goes_orRaise hdeposit (.refl _ _))

theorem goes_fillAccount (attempts : ℕ) {u : String} (hu : Plain u) {b : ℤ}
    (hfits : FitsDigits (b + 100)) (hb : s.accounts (some u) = some b) :
    Goes (fillAccount attempts u) s (.ret (.ok ()))
      { s with accounts := Function.update s.accounts (some u) (some (b + 100)) } := by
  obtain ⟨paid, hdeposit⟩ := goes_deposit attempts hu (show (0 : ℤ) < 100 by decide) (by decide)
    hb hfits
  exact goes_orRaise hdeposit (.refl _ _)

/-- The accounts, with `w` in those of `us`. -/
def withUsers (us : List String) (w : Option ℤ) (accounts : Users) : Users :=
  us.foldl (fun accounts u => Function.update accounts (some u) w) accounts

theorem withUsers_of_notMem {us : List String} {w : Option ℤ} {user : UserKey}
    (h : ∀ u ∈ us, user ≠ some u) (accounts : Users) :
    withUsers us w accounts user = accounts user := by
  induction us generalizing accounts with
  | nil => rfl
  | cons u rest ih =>
    refine (ih (fun u' hu' => h u' (List.mem_cons_of_mem _ hu')) _).trans ?_
    exact Function.update_of_ne (h u List.mem_cons_self) _ _

theorem withUsers_of_mem {us : List String} {w : Option ℤ} {u : String} (hu : u ∈ us)
    (accounts : Users) : withUsers us w accounts (some u) = w := by
  induction us generalizing accounts with
  | nil => cases hu
  | cons u' rest ih =>
    by_cases hrest : u ∈ rest
    · exact ih hrest _
    · obtain rfl := (List.mem_cons.mp hu).resolve_right hrest
      refine (withUsers_of_notMem ?_ (Function.update accounts (some u) w)).trans
        (Function.update_self ..)
      rintro u' hmem ⟨⟩
      exact hrest hmem

/-- A loop over users that takes each account from `v` to `w`. -/
theorem goes_forUsers {request : String → DriverProg σ (Except PyError Unit)} {v w : Option ℤ}
    {us : List String} (hrequest : ∀ u ∈ us, ∀ s : DriverState σ, s.accounts (some u) = v →
      Goes (request u) s (.ret (.ok ()))
        { s with accounts := Function.update s.accounts (some u) w })
    (hnodup : us.Nodup) (hv : ∀ u ∈ us, s.accounts (some u) = v) :
    Goes (forUsers request us) s (.ret (.ok ()))
      { s with accounts := withUsers us w s.accounts } := by
  induction us generalizing s with
  | nil => exact .refl _ _
  | cons u rest ih =>
    obtain ⟨hnew, hrest⟩ := List.nodup_cons.mp hnodup
    refine goes_orRaise (hrequest u List.mem_cons_self s (hv u List.mem_cons_self)) ?_
    refine ih (fun u' hu' => hrequest u' (List.mem_cons_of_mem _ hu')) hrest fun u' hu' => ?_
    have hne : some u' ≠ some u := by
      rintro ⟨⟩
      exact hnew hu'
    exact (Function.update_of_ne hne _ _).trans (hv u' (List.mem_cons_of_mem _ hu'))

/-- Anything that can be drawn may be drawn. -/
theorem goes_getRandomBody (body : RequestBody) (huser : body.user ∈ Driver.users)
    (hcalculation : body.calculation ∈ calculationType) (hprice : 1 ≤ body.price ∧ body.price ≤ 100)
    (hfirst : 100 ≤ body.firstNumber ∧ body.firstNumber ≤ 30000)
    (hsecond : 100 ≤ body.secondNumber ∧ body.secondNumber ≤ 30000) (s : DriverState σ) :
    Goes getRandomBody s (.ret body.text) s := by
  refine (goes_call (.choice Driver.users) body.user ⟨huser, rfl⟩ rfl).trans ?_
  refine (goes_call (.choice calculationType) body.calculation ⟨hcalculation, rfl⟩ rfl).trans ?_
  refine (goes_call (.randint 1 100) body.price ⟨hprice.1, hprice.2, rfl⟩ rfl).trans ?_
  refine (goes_call (.randint 100 30000) body.firstNumber ⟨hfirst.1, hfirst.2, rfl⟩
    rfl).trans ?_
  exact goes_call (.randint 100 30000) body.secondNumber ⟨hsecond.1, hsecond.2, rfl⟩ rfl

/-- **A simulation gets to its first request**, and by then each of its users
holds 1100. -/
theorem simulate_starts (attempts fuel : ℕ) (i : σ) (req : Request) {ip port : String}
    (hip : req.get "ip" = some ip) (hport : req.get "port" = some port)
    (hnew : ∀ u ∈ Driver.users, s.accounts (some u) = none) {body : RequestBody}
    (hbody : ∀ s : DriverState σ, Goes getRandomBody s (.ret body.text) s) :
    ∃ q, Goes (simulate attempts (fuel + 1) i req) s q
      ⟨withUsers Driver.users (some 1100) (withUsers Driver.users (some 1000) s.accounts),
        .bool false,
        ((i, 0), body.text) :: s.pending⟩ := by
  have hnodup : Driver.users.Nodup := by decide
  have hopen := goes_forUsers (s := { s with shouldStop := .bool false })
    (fun u hu s => goes_openAccount (s := s) attempts (users_plain u hu)) hnodup hnew
  have hfill := goes_forUsers
    (s := ⟨withUsers Driver.users (some 1000) s.accounts, .bool false, s.pending⟩)
    (fun u hu s => goes_fillAccount (s := s) attempts (users_plain u hu) fitsDigits_filled) hnodup
    fun u hu => withUsers_of_mem hu _
  have hround : simulateFrom attempts i (req.get "duration") 0 (fuel + 1) 0
      = .call .shouldStop fun stop => if stop then .ret (.ok (some createResponseOk))
        else orRaise (forUsers (fillAccount attempts) Driver.users) fun _ => _ := rfl
  have hsimulate : simulate attempts (fuel + 1) i req
      = .call .currentTimeSeconds fun startTime => .call (.setShouldStop (.bool false)) fun _ =>
        orRaise (forUsers (openAccount attempts) Driver.users) fun _ =>
          simulateFrom attempts i (req.get "duration") startTime (fuel + 1) 0 := by
    rw [simulate, hip, hport]
  rw [hsimulate]
  apply Exists.intro
  apply (goes_call .currentTimeSeconds 0 rfl rfl).trans
  apply (goes_call (.setShouldStop (.bool false)) () rfl rfl).trans
  apply goes_orRaise hopen
  rw [hround]
  apply (goes_call .shouldStop false ⟨rfl, rfl⟩ rfl).trans
  apply goes_orRaise hfill
  apply (Goes.inside (hbody _) _).trans
  exact goes_call (.start i 0 body.text) () rfl rfl

/-! ### A request -/

theorem checkAndCharge_charges (user : String) (price : JsonValue) (after : ControlHandler)
    {info : Response} (hst : info.status = 200) {balance : JsonValue}
    (hbalance : info.body.balance = .ok balance) (answer : Except PyError Response) :
    ∃ q, (checkAndCharge user price after).Path
      [⟨.billing .get .getAccountInfo (accountQuery user), .ok info⟩,
        ⟨.billing .post .chargeAccount (chargeQuery user price), answer⟩] q := by
  have hnot : ¬ info.status ≠ 200 := not_not.mpr hst
  apply Exists.intro
  apply Prog.path_cons_iff.mpr
  dsimp only [Prog.bind_ret]
  rw [if_neg hnot, hbalance]
  apply Prog.path_cons_iff.mpr
  exact .nil _

theorem withRetries_inside {request q : ControlProg Response} {tr : List UpstreamEvent}
    (h : request.Path tr q) (attempts : ℕ) : ∃ q', (withRetries attempts request).Path tr q' := by
  cases attempts with
  | zero => exact ⟨q, h⟩
  | succ attempts => exact ⟨_, h.inside _⟩

/-- **A request that was started looks its account up, and charges it.** -/
theorem request_charges (py : PyJson) (attempts : ℕ) (i : σ) (k : ℕ) (body : RequestBody)
    (huser : body.user ∈ Driver.users) (hcalculation : body.calculation ∈ calculationType)
    (hlow : 1 ≤ body.price) (hhigh : body.price ≤ 100) {b : ℤ}
    (hb : s.accounts (some body.user) = some b) (hfits : FitsDigits b)
    (hpending : ((i, k), body.text) ∈ s.pending) :
    ∃ tr q s', Prog.Path (randomRequest py attempts i k) tr q ∧ Pool.Serves driverServe s tr s' ∧
      tr.countP (onUpstream isCharge) = 1 ∧
      tr.countP (onUpstream (calculationAnswered gatewayError)) = 0 := by
  have hplain := users_plain _ huser
  have hinfo : serveBilling s.accounts .getAccountInfo
      (billingRequest .get (accountQuery body.user))
      = (⟨200, accountInfo (some body.user) b⟩, s.accounts) := by
    have hget : (billingRequest .get (accountQuery body.user)).get "user" = some body.user :=
      (accountQuery_user _).trans (congrArg some ((accountOf_eq_iff _).mpr hplain))
    rw [serveBilling, billing, run_getAccountInfo_found rfl (by rw [hget]; exact hb), hget,
      shownAccount_eq hfits, answer_ok]
  -- what the four calls are answered
  have hrun : driverServe s (.run i k) body.text
      { s with pending := s.pending.erase ((i, k), body.text) } := ⟨hpending, rfl⟩
  generalize hs₁ : ({ s with pending := s.pending.erase ((i, k), body.text) } : DriverState σ) = s₁
    at hrun
  have haccounts : s₁.accounts = s.accounts := by rw [← hs₁]
  have hlookup : driverServe s₁
      (.upstream (.billing .get .getAccountInfo (accountQuery body.user)))
      (.ok ⟨200, accountInfo (some body.user) b⟩) s₁ := by
    have hmesh := meshServe_served s.accounts .get .getAccountInfo (accountQuery body.user)
    rw [hinfo, ← haccounts] at hmesh
    exact ⟨hmesh, rfl⟩
  have hmesh := meshServe_served s₁.accounts .post .chargeAccount
    (chargeQuery body.user (.int body.price))
  generalize serveBilling s₁.accounts .chargeAccount
    (billingRequest .post (chargeQuery body.user (.int body.price))) = served at hmesh
  have hcharge : driverServe s₁
      (.upstream (.billing .post .chargeAccount (chargeQuery body.user (.int body.price))))
      (.ok served.1) { s₁ with accounts := served.2 } := ⟨hmesh, rfl⟩
  -- and that the request makes them
  obtain ⟨q, hpath⟩ := checkAndCharge_charges body.user (.int body.price)
    (dispatch id (.str body.calculation) (toString body.firstNumber) (toString body.secondNumber))
    (show (⟨200, accountInfo (some body.user) b⟩ : Response).status = 200 from rfl) rfl
    (.ok served.1)
  obtain ⟨q', hretries⟩ := withRetries_inside (hpath.inside fun r => .ret (answer r)) attempts
  have hpost : ∃ q', (requestsPost attempts (calculate2 (py.getJson body.text))).Path
      (⟨.connect, Except.ok ()⟩ :: List.map (upstreamEvent (σ := σ))
        [⟨.billing .get .getAccountInfo (accountQuery body.user),
            .ok ⟨200, accountInfo (some body.user) b⟩⟩,
          ⟨.billing .post .chargeAccount (chargeQuery body.user (.int body.price)),
            .ok served.1⟩]) q' := by
    rw [calculate2_requestBody py (drawn_unescaped.1 _ huser) (drawn_unescaped.2 _ hcalculation)
      hlow hhigh]
    apply Exists.intro
    apply Prog.path_cons_iff.mpr
    exact (path_ofControl hretries).inside _
  obtain ⟨q₁, hpost⟩ := hpost
  exact ⟨_, _, _, Prog.path_cons_iff.mpr (hpost.inside _),
    .cons hrun (.cons rfl (.cons hlookup (.cons hcharge (.nil _)))), rfl, rfl⟩

end ResilientMesh
