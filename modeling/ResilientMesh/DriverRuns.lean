/-
ResilientMesh/DriverRuns.lean

The driver among others: what each of its steps moves, what its threads have
done in every interleaving, and how often.  A thread runs only once it was
started, and with the body it was started with (`started_run`); before that,
100 was paid in for every user (`starts_le`).
-/
import ResilientMesh.DriverPaths

namespace ResilientMesh

open Driver

variable {σ ρ κ : Type}

/-! ### One step -/

theorem payable_chargeQuery_int {user : String} (h : Plain user) {n : ℤ} (hpos : 0 < n)
    (hfits : FitsDigits n) :
    payable (billingRequest .post (chargeQuery user (.int n))) = some n := by
  obtain ⟨k, rfl⟩ := Int.eq_ofNat_of_zero_le hpos.le
  have htext : (JsonValue.int (k : ℤ)).pyStr.toList = Nat.toDigits 10 k := Nat.toList_repr
  have hplus : '+' ∉ Nat.toDigits 10 k := fun hc =>
    absurd (Nat.isDigit_of_mem_toDigits (by decide) (by decide) hc) (by decide)
  have hamount := chargeQuery_amount h (price_chars_int (k : ℤ))
  rw [htext, map_plusToSpace_eq_self hplus] at hamount
  rw [payable_eq_some_iff, hamount, tryToInt, String.toList_ofList, pyInt_toDigits hfits]
  exact ⟨rfl, hpos⟩

theorem chargeQuery_user_int {user : String} (h : Plain user) (n : ℤ) :
    (billingRequest .post (chargeQuery user (.int n))).get "user" = some user := by
  have hprice : '%' ∉ (JsonValue.int n).pyStr.toList := fun hc => (price_chars_int n _ hc).2.2 rfl
  rw [chargeQuery_user user hprice, (accountOf_eq_iff user).mpr h]

/-- A charge as the driver's requests send it. -/
theorem wanted_charge {user : String} (h : Plain user) {n : ℤ} (hpos : 0 < n)
    (hfits : FitsDigits n) :
    wanted .chargeAccount (billingRequest .post (chargeQuery user (.int n)))
      = .charge (some user) n := by
  rw [wanted, payable_chargeQuery_int h hpos hfits, chargeQuery_user_int h]
  rfl

theorem depositQuery_get (u : String) (amount : ℤ) (key : String) :
    (billingRequest .post (depositQuery u amount)).get key
      = (billingRequest .post (chargeQuery u (.int amount))).get key :=
  get_billingRequest .post _ key

theorem depositQuery_user {u : String} (h : Plain u) (amount : ℤ) :
    (billingRequest .post (depositQuery u amount)).get "user" = some u := by
  rw [depositQuery_get, chargeQuery_user_int h]

theorem payable_depositQuery {u : String} (h : Plain u) {amount : ℤ} (hpos : 0 < amount)
    (hfits : FitsDigits amount) :
    payable (billingRequest .post (depositQuery u amount)) = some amount := by
  rw [← payable_chargeQuery_int h hpos hfits, payable, payable, depositQuery_get]

/-- A deposit as the driver sends it, and the control-center hands it on. -/
theorem wanted_deposit {u : String} (h : Plain u) {amount : ℤ} (hpos : 0 < amount)
    (hfits : FitsDigits amount) :
    wanted .depositAccount (billingRequest .post (depositQuery u amount))
      = .deposit (some u) amount := by
  rw [wanted, payable_depositQuery h hpos hfits, depositQuery_user h]
  rfl

/-- The users of the driver are sent as they are. -/
theorem users_plain : ∀ u ∈ Driver.users, Plain u := by
  decide +kernel

theorem fitsDigits_filled : FitsDigits 1100 := by
  decide +kernel

/-- The amounts of the driver have few digits. -/
theorem fitsDigits_amount {n : ℤ} (hpos : 0 < n) (hle : n ≤ 1000) : FitsDigits n :=
  fitsDigits_le fitsDigits_filled hpos.le (hle.trans (by decide))

/-- The event as an attempt to move something. -/
def driverAttempt : DriverEvent σ → Attempt UserKey ℤ
  | ⟨.upstream op, ans⟩ => attemptOf ⟨op, ans⟩
  | _ => ⟨.keep, false, proper_keep⟩

theorem driverAttempt_billing (method : Method) (route : BillingRoute) (query : String)
    (ans : Except PyError Response) :
    (driverAttempt (σ := σ) ⟨.upstream (.billing method route query), ans⟩).move
      = wanted route (billingRequest method query) := rfl

theorem driverServe_attempt [DecidableEq σ] {s s' : DriverState σ} {op : DriverOp σ} {ans : op.Ans}
    (h : driverServe s op ans s') :
    (driverAttempt ⟨op, ans⟩).move.Allowed s.accounts ∧
        s'.accounts = (driverAttempt ⟨op, ans⟩).move.apply s.accounts ∨
      (driverAttempt ⟨op, ans⟩).acknowledged = false ∧ s'.accounts = s.accounts := by
  cases op with
  | upstream op => exact meshServe_attempt h.1
  | connect => exact .inr ⟨rfl, by rw [show s' = s from h]⟩
  | receive => exact .inr ⟨rfl, by rw [show s' = s from h]⟩
  | setShouldStop flag => exact .inr ⟨rfl, by rw [show s' = _ from h]⟩
  | shouldStop => exact .inr ⟨rfl, by rw [h.2]⟩
  | choice options => exact .inr ⟨rfl, by rw [h.2]⟩
  | randint low high => exact .inr ⟨rfl, by rw [h.2.2]⟩
  | start i k body => exact .inr ⟨rfl, by rw [show s' = _ from h]⟩
  | run i k => exact .inr ⟨rfl, by rw [h.2]⟩
  | getAnalytics => exact .inr ⟨rfl, by rw [show s' = s from h]⟩
  | currentTimeSeconds => exact .inr ⟨rfl, by rw [show s' = s from h]⟩
  | sleep => exact .inr ⟨rfl, by rw [show s' = s from h]⟩

theorem fits_of_serve [DecidableEq σ] {s s' : DriverState σ} {op : DriverOp σ} {ans : op.Ans}
    (h : driverServe s op ans s') : Fits (⟨op, ans⟩ : DriverEvent σ) := by
  cases op with
  | choice options => exact h.1
  | randint low high => exact ⟨h.1, h.2.1⟩
  | _ => trivial

/-- A charge of an account that holds the amount takes it, and is answered 200
if the account could be shown. -/
theorem charge_served {accounts : Users} {user : String} (h : Plain user) {n b : ℤ} (hpos : 0 < n)
    (hfits : FitsDigits n) (hb : accounts (some user) = some b) (hle : n ≤ b) :
    let req := billingRequest .post (chargeQuery user (.int n))
    movement accounts .chargeAccount req ≠ .keep ∧
      (Showable accounts (req.get "user") →
        (serveBilling accounts .chargeAccount req).1.status = 200) := by
  have hget := chargeQuery_user_int h n
  have hmove : movement accounts .chargeAccount (billingRequest .post (chargeQuery user (.int n)))
      = .charge (some user) n := by
    rw [movement, payable_chargeQuery_int h hpos hfits, hget, hb]
    exact if_pos ⟨rfl, hle⟩
  have hmoved : movement accounts .chargeAccount
      (billingRequest .post (chargeQuery user (.int n))) ≠ .keep := by
    rw [hmove]
    rintro ⟨⟩
  refine ⟨hmoved, fun hshow => ?_⟩
  have hfit : DepositFits accounts .chargeAccount
      (billingRequest .post (chargeQuery user (.int n))) := depositFits_of_ne (by decide)
  have hafter := hfit.showable hshow
  rw [serveBilling_users] at hafter
  exact (run_chargeAccount accounts _).2.mpr ⟨hmoved, hafter⟩

/-! ### What simulations and requests move -/

/-- Opening and paying in takes nothing out, and closes nothing. -/
theorem payIn_moves {route : BillingRoute}
    (hroute : route = .createAccount ∨ route = .depositAccount)
    (query : String) (ans : Except PyError Response) (user : UserKey) :
    let ev : DriverEvent σ := ⟨.upstream (.billing .post route query), ans⟩
    (driverAttempt ev).move.paidOut user = 0 ∧ (driverAttempt ev).move.closes user = false := by
  dsimp only
  rw [driverAttempt_billing]
  rcases hroute with rfl | rfl
  · rw [wanted]
    split_ifs <;> exact ⟨rfl, rfl⟩
  · rw [wanted]
    split
    · split_ifs <;> exact ⟨rfl, rfl⟩
    · exact ⟨rfl, rfl⟩

theorem simulateStep_moves {ev : DriverEvent σ} (h : SimulateStep ev.op) (user : UserKey) :
    (driverAttempt ev).move.paidOut user = 0 ∧ (driverAttempt ev).move.closes user = false := by
  obtain ⟨op, ans⟩ := ev
  cases op with
  | upstream op =>
    obtain ⟨u, hu, rfl | rfl | rfl⟩ := h
    · exact payIn_moves (.inl rfl) _ ans user
    · exact payIn_moves (.inr rfl) _ ans user
    · exact payIn_moves (.inr rfl) _ ans user
  | _ => exact ⟨rfl, rfl⟩

/-- A request takes at most 100 out for each charge, and closes nothing. -/
theorem requestStep_moves {body : RequestBody} (huser : body.user ∈ Driver.users)
    (hlow : 1 ≤ body.price) (hhigh : body.price ≤ 100) {ev : DriverEvent σ}
    (h : RequestStep body ev.op) (user : UserKey) :
    (driverAttempt ev).move.paidOut user ≤ (if onUpstream isCharge ev then 100 else 0) ∧
      (driverAttempt ev).move.closes user = false := by
  obtain ⟨op, ans⟩ := ev
  cases op with
  | upstream op =>
    rcases h with rfl | hreads
    · have hfits := fitsDigits_amount hlow (hhigh.trans (by decide))
      have hcharge : onUpstream isCharge
          (⟨.upstream (.billing .post .chargeAccount (chargeQuery body.user (.int body.price))),
            ans⟩ : DriverEvent σ) = true := rfl
      rw [driverAttempt_billing, wanted_charge (users_plain _ huser) hlow hfits, if_pos hcharge,
        Movement.paidOut]
      refine ⟨?_, rfl⟩
      split_ifs
      · exact hhigh
      · exact Int.le_of_lt (by decide)
    · have hkeep : (driverAttempt (⟨.upstream op, ans⟩ : DriverEvent σ)).move = .keep := by
        cases op with
        | billing method route query =>
          obtain ⟨rfl, rfl⟩ := hreads
          rfl
        | _ => rfl
      rw [hkeep]
      refine ⟨?_, rfl⟩
      show (0 : ℤ) ≤ _
      split_ifs
      · exact Int.le_of_lt (by decide)
      · exact le_rfl
  | _ => exact ⟨le_rfl, rfl⟩

/-- What a simulation's deposit pays in. -/
theorem isDeposit_paidIn {ev : DriverEvent σ} {u : String} (hu : u ∈ Driver.users) {amount : ℤ}
    (hpos : 0 < amount) (hfits : FitsDigits amount) (h : isDeposit u amount ev) :
    (driverAttempt ev).move.paidIn (some u) = amount := by
  unfold isDeposit at h
  split at h
  · rename_i query ans
    obtain rfl : query = depositQuery u amount := of_decide_eq_true h
    rw [driverAttempt_billing, wanted_deposit (users_plain u hu) hpos hfits]
    exact if_pos rfl
  · cases h

/-! ### Every interleaving -/

def DriverThread.isRequest : DriverThread σ ρ κ → Bool
  | request _ _ => true
  | _ => false

def DriverThread.isSimulate : DriverThread σ ρ κ → Bool
  | simulate _ => true
  | _ => false

def DriverThread.isClient : DriverThread σ ρ κ → Bool
  | client _ => true
  | _ => false

/-- The event is the call of a deposit. -/
def asksDeposit : DriverEvent σ → Bool
  | ⟨.upstream (.billing .post .depositAccount _), _⟩ => true
  | _ => false

def isRun : DriverEvent σ → Bool
  | ⟨.run _ _, _⟩ => true
  | _ => false

section Runs

variable [DecidableEq σ] [DecidableEq ρ] [DecidableEq κ] {setup : DriverSetup σ ρ κ}
  {accounts : Users} {log : List (DriverEntry σ ρ κ)}
  {c : Pool (DriverThread σ ρ κ) (DriverState σ) (DriverOp σ) DriverOp.Ans DriverOutcome}

/-- The steps of a thread that is no simulation. -/
def NoStart : DriverOp σ → Prop
  | .start _ _ _ => False
  | _ => True

omit [DecidableEq σ] [DecidableEq ρ] [DecidableEq κ] in
theorem only_noStart {i : DriverThread σ ρ κ} (h : i.isSimulate = false) :
    (setup.prog i).Only NoStart := by
  cases i with
  | simulate s => cases h
  | request s k =>
    refine .call trivial fun body => only_orRaise ?_ fun _ => .ret _
    exact only_requestsPost _ trivial trivial (Prog.only_of_forall (fun _ => trivial) _)
  | stop r => exact .call trivial fun _ => .ret _
  | client j => exact only_ofControl (Prog.only_of_forall (fun _ => trivial) _)

omit [DecidableEq σ] [DecidableEq ρ] [DecidableEq κ] in
/-- **A thread is started by a simulation**, which has paid for it. -/
theorem start_path {i : DriverThread σ ρ κ} {tr : List (DriverEvent σ)}
    {q : DriverProg σ DriverOutcome} (h : (setup.prog i).Path tr q) (hfits : ∀ ev ∈ tr, Fits ev)
    {u : String} (hu : u ∈ Driver.users) :
    Rounds u tr ∧ (0 < tr.countP isStart → i.isSimulate ∧ ∃ ev ∈ tr, isDeposit u 1000 ev) := by
  cases hi : i.isSimulate with
  | true =>
    cases i with
    | simulate s =>
      obtain ⟨hrounds, hopened⟩ := simulate_path hu h hfits
      exact ⟨hrounds, fun hpos => ⟨rfl, hopened hpos⟩⟩
    | _ => cases hi
  | false =>
    have hnot := (only_noStart hi).path h
    have hzero : tr.countP isStart = 0 := by
      refine List.countP_eq_zero.mpr fun ev hev hstart => ?_
      unfold isStart at hstart
      split at hstart
      · exact hnot _ hev
      · cases hstart
    refine ⟨⟨hzero ▸ Nat.zero_le _, ?_⟩, fun hpos => absurd hzero hpos.ne'⟩
    exact fun s k body hmem => (hnot _ hmem).elim

/-- What was answered in a run fits. -/
theorem fits_run (h : Pool.Run driverServe (driverStart setup accounts) log c)
    (i : DriverThread σ ρ κ) : ∀ ev ∈ proj i log, Fits ev := by
  intro ev hev
  obtain ⟨e, he, -, rfl⟩ := mem_proj.mp hev
  exact fits_of_serve (h.serves e he)

theorem thread_path (h : Pool.Run driverServe (driverStart setup accounts) log c)
    (i : DriverThread σ ρ κ) : (setup.prog i).Path (proj i log) (c.prog i) := h.path i

/-- Every request that is started is one as it is drawn. -/
theorem drawn_start (h : Pool.Run driverServe (driverStart setup accounts) log c) :
    ∀ e ∈ log, ∀ s k body, e.event = ⟨.start s k body, ()⟩ → Drawn body := by
  intro e he s k body hevent
  have hrounds := (start_path (thread_path h e.who) (fits_run h e.who)
    (show "ruslan" ∈ Driver.users by decide)).1
  exact hrounds.drawn s k body (mem_proj.mpr ⟨e, he, rfl, hevent⟩)

/-- What the threads know of those that were started: of the log, and of what
is pending. -/
structure Started (log : List (DriverEntry σ ρ κ)) (pending : List ((σ × ℕ) × String)) : Prop where
  count : (log.countP fun e => isRun e.event) + pending.length
    = log.countP fun e => isStart e.event
  pending : ∀ p ∈ pending, Drawn p.2
  run : ∀ e ∈ log, ∀ s k text, e.event = ⟨.run s k, text⟩ → Drawn text

omit [DecidableEq σ] [DecidableEq ρ] [DecidableEq κ] in
/-- A step that starts and runs nothing. -/
theorem Started.other {pending : List ((σ × ℕ) × String)} (h : Started log pending)
    {e : DriverEntry σ ρ κ} (hstart : isStart e.event = false) (hrun : isRun e.event = false) :
    Started (log ++ [e]) pending := by
  refine ⟨?_, h.pending, ?_⟩
  · rw [List.countP_append, List.countP_append, List.countP_singleton, List.countP_singleton,
      hstart, hrun]
    exact h.count
  · intro e' he' s k text hevent
    rcases List.mem_append.mp he' with he' | he'
    · exact h.run e' he' s k text hevent
    · rw [List.mem_singleton.mp he'] at hevent
      rw [hevent] at hrun
      cases hrun

/-- **A thread runs once it was started**, and with the body it was started
with. -/
theorem started_run (h : Pool.Run driverServe (driverStart setup accounts) log c)
    (hdrawn : ∀ e ∈ log, ∀ s k body, e.event = ⟨.start s k body, ()⟩ → Drawn body) :
    Started log c.state.pending := by
  induction h with
  | refl =>
    exact ⟨rfl, fun p hp => absurd hp List.not_mem_nil,
      fun e he => absurd he List.not_mem_nil⟩
  | @tail log c c' e _ hstep ih =>
    have hbefore := ih fun e' he' => hdrawn e' (List.mem_append_left _ he')
    have hlast := hdrawn e (List.mem_append_right _ (List.mem_singleton_self e))
    cases hstep with
    | @mk i op next ans s' hprog hserve =>
      cases op with
      | start s k body =>
        obtain rfl : s' = { c.state with pending := ((s, k), body) :: c.state.pending } := hserve
        refine ⟨?_, ?_, ?_⟩
        · rw [List.countP_append, List.countP_append]
          show _ + 0 + (c.state.pending.length + 1) = _ + 1
          rw [← hbefore.count]
          rfl
        · intro p hp
          rcases List.mem_cons.mp hp with rfl | hp
          · exact hlast s k body rfl
          · exact hbefore.pending p hp
        · intro e' he' s k text hevent
          rcases List.mem_append.mp he' with he' | he'
          · exact hbefore.run e' he' s k text hevent
          · rw [List.mem_singleton.mp he'] at hevent
            cases hevent
      | run s k =>
        obtain ⟨hmem, hs'⟩ := hserve
        subst hs'
        refine ⟨?_, ?_, ?_⟩
        · rw [List.countP_append, List.countP_append]
          show _ + 1 + (c.state.pending.erase ((s, k), ans)).length = _ + 0
          rw [List.length_erase_of_mem hmem, ← hbefore.count]
          have hpos := List.length_pos_of_mem hmem
          omega
        · exact fun p hp => hbefore.pending p (List.mem_of_mem_erase hp)
        · intro e' he' s' k' text hevent
          rcases List.mem_append.mp he' with he' | he'
          · exact hbefore.run e' he' s' k' text hevent
          · rw [List.mem_singleton.mp he'] at hevent
            cases hevent
            exact hbefore.pending _ hmem
      | upstream op =>
        rw [show s' = _ from hserve.2]
        exact hbefore.other rfl rfl
      | setShouldStop flag =>
        rw [show s' = _ from hserve]
        exact hbefore.other rfl rfl
      | shouldStop =>
        rw [show s' = _ from hserve.2]
        exact hbefore.other rfl rfl
      | choice options =>
        rw [show s' = _ from hserve.2]
        exact hbefore.other rfl rfl
      | randint low high =>
        rw [show s' = _ from hserve.2.2]
        exact hbefore.other rfl rfl
      | connect =>
        rw [show s' = _ from hserve]
        exact hbefore.other rfl rfl
      | receive =>
        rw [show s' = _ from hserve]
        exact hbefore.other rfl rfl
      | getAnalytics =>
        rw [show s' = _ from hserve]
        exact hbefore.other rfl rfl
      | currentTimeSeconds =>
        rw [show s' = _ from hserve]
        exact hbefore.other rfl rfl
      | sleep =>
        rw [show s' = _ from hserve]
        exact hbefore.other rfl rfl

/-! ### The balance of a user -/

/-- The threads' attempts. -/
def driverAttempts (log : List (DriverEntry σ ρ κ)) : List (Attempt UserKey ℤ) :=
  log.map fun e => driverAttempt e.event

theorem driver_attempted (h : Pool.Run driverServe (driverStart setup accounts) log c) :
    Ledger.Attempted accounts (driverAttempts log) c.state.accounts := by
  induction h with
  | refl => exact .nil
  | tail _ hstep ih =>
    rw [driverAttempts, List.map_append, ← driverAttempts]
    cases hstep with
    | mk i ans _ hserve =>
      rcases driverServe_attempt hserve with ⟨hallow, happly⟩ | ⟨hunknown, hsame⟩
      · rw [Pool.resume_state, happly]
        exact ih.made _ hallow
      · rw [Pool.resume_state, hsame]
        exact ih.lost _ hunknown

/-- A request charges once, and once more for every gateway error. -/
theorem charges_le (h : Pool.Run driverServe (driverStart setup accounts) log c) :
    (log.countP fun e => e.who.isRequest && onUpstream isCharge e.event)
      ≤ (log.countP fun e =>
          e.who.isRequest && onUpstream (calculationAnswered gatewayError) e.event)
        + log.countP fun e => isRun e.event := by
  have hcharges := Pool.countP_log (fun (i : DriverThread σ ρ κ) ev =>
    i.isRequest && onUpstream isCharge ev) log _ subset_rfl
  have herrors := Pool.countP_log (fun (i : DriverThread σ ρ κ) ev =>
    i.isRequest && onUpstream (calculationAnswered gatewayError) ev) log _ subset_rfl
  have hruns := Pool.countP_log (fun (_ : DriverThread σ ρ κ) ev => isRun ev) log _ subset_rfl
  rw [hcharges, herrors, hruns, ← Finset.sum_add_distrib]
  refine Finset.sum_le_sum fun i _ => ?_
  cases i with
  | request s k =>
    rcases randomRequest_path (thread_path h (.request s k)) with hnil | ⟨text, tr', hproj, hle, -⟩
    · rw [hnil]
      exact le_rfl
    · rw [hproj]
      rw [List.countP_cons_of_neg Bool.false_ne_true, List.countP_cons_of_neg Bool.false_ne_true,
        List.countP_cons_of_pos rfl]
      exact hle.trans (Nat.add_le_add_left (Nat.le_add_left 1 _) _)
  | simulate s =>
    exact (List.countP_eq_zero.mpr fun _ _ => Bool.false_ne_true).trans_le (Nat.zero_le _)
  | stop r => exact (List.countP_eq_zero.mpr fun _ _ => Bool.false_ne_true).trans_le (Nat.zero_le _)
  | client j =>
    exact (List.countP_eq_zero.mpr fun _ _ => Bool.false_ne_true).trans_le (Nat.zero_le _)

/-- Before a thread is started, 100 was paid in for every user. -/
theorem starts_le (h : Pool.Run driverServe (driverStart setup accounts) log c) {u : String}
    (hu : u ∈ Driver.users) :
    (log.countP fun e => isStart e.event)
      ≤ log.countP fun e => e.who.isSimulate && isDeposit u 100 e.event := by
  refine Pool.countP_log_le (fun _ ev => isStart ev)
    (fun i ev => i.isSimulate && isDeposit u 100 ev) log fun i => ?_
  obtain ⟨hrounds, hopened⟩ := start_path (thread_path h i) (fits_run h i) hu
  rcases Nat.eq_zero_or_pos ((proj i log).countP isStart) with hzero | hpos
  · rw [hzero]
    exact Nat.zero_le _
  · rw [(hopened hpos).1]
    exact hrounds.starts_le

/-- Before any thread is started, every account was opened with 1000. -/
theorem opened_pos (h : Pool.Run driverServe (driverStart setup accounts) log c) {u : String}
    (hu : u ∈ Driver.users) (hpos : 0 < log.countP fun e => isStart e.event) :
    0 < log.countP fun e => e.who.isSimulate && isDeposit u 1000 e.event := by
  obtain ⟨e, he, hstart⟩ := List.countP_pos_iff.mp hpos
  have hmem : e.event ∈ proj e.who log := mem_proj.mpr ⟨e, he, rfl, rfl⟩
  obtain ⟨hsimulate, ev, hev, hdeposit⟩ :=
    (start_path (thread_path h e.who) (fits_run h e.who) hu).2
      (List.countP_pos_iff.mpr ⟨_, hmem, hstart⟩)
  obtain ⟨e', he', hwho, rfl⟩ := mem_proj.mp hev
  refine List.countP_pos_iff.mpr ⟨e', he', ?_⟩
  rw [hwho, hsimulate, hdeposit]
  rfl

end Runs

end ResilientMesh
