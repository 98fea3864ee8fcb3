/-
ResilientMesh/MeshAccounts.lean

What the clients of the mesh know of an account.  A billing request that is
not answered 200 may have been carried out all the same, when it failed on the
way back or left a balance too long to be shown; the control-center then answers
that the payment failed.

Main result, for every interleaving: an account that nobody asks to delete is
there once its creation was acknowledged, and holds at least its acknowledged
deposits less all charges that were sent, and at most all deposits that were
sent less its acknowledged charges (`mesh_balance`).
-/
import ResilientMesh.LedgerDoubts
import ResilientMesh.BillingHistory
import ResilientMesh.Mesh

namespace ResilientMesh

/-! ### What a request can move -/

/-- The movement that a request is if it is granted. -/
def wanted (route : BillingRoute) (req : Request) : Movement UserKey ℤ :=
  let user := req.get "user"
  match route with
  | .isUserExists => .keep
  | .getAccountInfo => .keep
  | .createAccount => if req.method = .post then .create user else .keep
  | .depositAccount =>
    match payable req with
    | some amount => if req.method = .post then .deposit user amount else .keep
    | none => .keep
  | .chargeAccount =>
    match payable req with
    | some amount => if req.method = .post then .charge user amount else .keep
    | none => .keep
  | .deleteAccount => if req.method = .delete then .delete user else .keep

theorem Moves.eq_wanted {users : Users} {route : BillingRoute} {req : Request}
    {m : Movement UserKey ℤ} (h : Moves users req route m) : m = .keep ∨ m = wanted route req := by
  cases h with
  | keep => exact .inl rfl
  | create hpost _ => exact .inr (if_pos hpost).symm
  | deposit hpost hpay _ =>
    rw [wanted, hpay]
    exact .inr (if_pos hpost).symm
  | charge hpost hpay _ _ =>
    rw [wanted, hpay]
    exact .inr (if_pos hpost).symm
  | delete hdel _ => exact .inr (if_pos hdel).symm

theorem proper_keep : (.keep : Movement UserKey ℤ).Proper := fun _ => ⟨le_rfl, le_rfl⟩

/-- No request is for a negative amount. -/
theorem wanted_proper (route : BillingRoute) (req : Request) : (wanted route req).Proper := by
  cases route with
  | isUserExists => exact proper_keep
  | getAccountInfo => exact proper_keep
  | createAccount =>
    rw [wanted]
    split_ifs
    · exact fun _ => ⟨le_rfl, le_rfl⟩
    · exact proper_keep
  | deleteAccount =>
    rw [wanted]
    split_ifs
    · exact fun _ => ⟨le_rfl, le_rfl⟩
    · exact proper_keep
  | depositAccount =>
    rw [wanted]
    split
    · rename_i amount hpay
      split_ifs
      · intro k
        refine ⟨?_, le_rfl⟩
        rw [Movement.paidIn]
        split_ifs
        · exact (payable_pos hpay).le
        · exact le_rfl
      · exact proper_keep
    · exact proper_keep
  | chargeAccount =>
    rw [wanted]
    split
    · rename_i amount hpay
      split_ifs
      · intro k
        refine ⟨le_rfl, ?_⟩
        rw [Movement.paidOut]
        split_ifs
        · exact (payable_pos hpay).le
        · exact le_rfl
      · exact proper_keep
    · exact proper_keep

/-! ### One step -/

/-- The caller was told that its request was carried out. -/
def acknowledges : Except PyError Response → Bool
  | .ok response => response.status = 200
  | .error _ => false

theorem acknowledges_of_unserved {ans : Except PyError Response} (h : Unserved ans) :
    acknowledges ans = false := by
  cases ans with
  | error e => rfl
  | ok response => exact decide_eq_false h

/-- The event as an attempt to move something. -/
def attemptOf : UpstreamEvent → Attempt UserKey ℤ
  | ⟨.billing method route query, ans⟩ =>
    ⟨wanted route (billingRequest method query), acknowledges ans, wanted_proper _ _⟩
  | ⟨.postCalculation _ _, _⟩ => ⟨.keep, false, proper_keep⟩
  | ⟨.awaitCalculation, _⟩ => ⟨.keep, false, proper_keep⟩

/-- A request that asks for nothing wants nothing. -/
theorem wanted_of_asked {route : BillingRoute} {req : Request} (h : asked route req = .keep) :
    wanted route req = .keep := by
  cases route with
  | isUserExists => rfl
  | getAccountInfo => rfl
  | createAccount => cases h
  | depositAccount => cases h
  | chargeAccount => cases h
  | deleteAccount => cases h

/-- A request that is served is refused, or moves what it wants. -/
theorem serveBilling_wanted (users : Users) (route : BillingRoute) (req : Request) :
    (serveBilling users route req).1.status ≠ 200 ∧ (serveBilling users route req).2 = users ∨
      (wanted route req).Allowed users ∧
        (serveBilling users route req).2 = (wanted route req).apply users := by
  have hserved := serveBilling_users users route req
  have hallow := movement_allowed users route req
  rcases (movement_moves users route req).eq_wanted with hkeep | hwanted
  · rw [hkeep, Movement.apply_keep] at hserved
    by_cases hst : (serveBilling users route req).1.status = 200
    · -- it was granted what it asked for, which is nothing
      rw [wanted_of_asked ((asked_of_ok hst).trans hkeep)]
      exact .inr ⟨trivial, hserved⟩
    · exact .inl ⟨hst, hserved⟩
  · rw [← hwanted]
    exact .inr ⟨hallow, hserved⟩

/-- **A step of the mesh is an attempt, made or lost.** -/
theorem meshServe_attempt {users users' : Users} {op : Upstream} {ans : op.Ans}
    (h : meshServe users op ans users') :
    (attemptOf ⟨op, ans⟩).move.Allowed users ∧ users' = (attemptOf ⟨op, ans⟩).move.apply users ∨
      (attemptOf ⟨op, ans⟩).acknowledged = false ∧ users' = users := by
  cases op with
  | postCalculation url data => exact .inr ⟨rfl, h⟩
  | awaitCalculation => exact .inr ⟨rfl, h⟩
  | billing method route query =>
    have hserved := serveBilling_wanted users route (billingRequest method query)
    rcases h with ⟨rfl, rfl⟩ | ⟨hunserved, rfl | rfl⟩
    · rcases hserved with ⟨hst, hsame⟩ | hmoved
      · exact .inr ⟨decide_eq_false hst, hsame⟩
      · exact .inl hmoved
    · exact .inr ⟨acknowledges_of_unserved hunserved, rfl⟩
    · rcases hserved with ⟨-, hsame⟩ | hmoved
      · exact .inr ⟨acknowledges_of_unserved hunserved, hsame⟩
      · exact .inl hmoved

/-! ### Every interleaving -/

variable {ι : Type*} [DecidableEq ι] {clients : ι → Client} {users : Users}
  {log : List (MeshEntry ι)} {c : Pool ι Users Upstream Upstream.Ans Response}

/-- What the clients have attempted. -/
def attempts (log : List (MeshEntry ι)) : List (Attempt UserKey ℤ) :=
  log.map fun e => attemptOf e.event

theorem mesh_attempted (h : Pool.Run meshServe (meshStart users clients) log c) :
    Ledger.Attempted users (attempts log) c.state := by
  induction h with
  | refl => exact .nil
  | tail _ hstep ih =>
    rw [attempts, List.map_append, ← attempts]
    cases hstep with
    | mk i ans _ hserve =>
      rcases meshServe_attempt hserve with ⟨hallow, rfl⟩ | ⟨hunknown, rfl⟩
      · exact ih.made _ hallow
      · exact ih.lost _ hunknown

/-- **What the clients know of an account**, in every state of every
interleaving, unless one of them asks to delete it. -/
theorem mesh_balance (h : Pool.Run meshServe (meshStart users clients) log c) {user : UserKey}
    (hdelete : ∀ a ∈ attempts log, ¬ a.move.closes user) :
    Ledger.Known users (attempts log) c.state user :=
  (mesh_attempted h).known hdelete

/-- The account of `sampleClients`, opened and filled. -/
theorem mesh_balance_sample :
    ∃ (log : List (MeshEntry (Fin 3))) (c : Pool (Fin 3) Users Upstream Upstream.Ans Response),
      Pool.Run meshServe (meshStart (fun _ => none) sampleClients) log c ∧
      Attempt.lowest (attempts log) (some "ruslan") = 150 ∧
      Ledger.Known (fun _ => none) (attempts log) c.state (some "ruslan") := by
  have hserve := meshServe_alone (failsAt "ruslan" 0)
  obtain ⟨c₁, hrun₁, hstate₁, -, hprog₁⟩ := Pool.exists_run_alone _ hserve 0 _
    (meshStart (fun _ => none) sampleClients) rfl
  obtain ⟨c₂, hrun₂, -⟩ := Pool.exists_run_alone _ hserve 1 _ c₁ (hprog₁ 1 (by decide))
  rw [hstate₁] at hrun₂
  exact ⟨_, c₂, hrun₁.trans hrun₂, by decide +kernel,
    mesh_balance (hrun₁.trans hrun₂) (by decide +kernel)⟩

end ResilientMesh
