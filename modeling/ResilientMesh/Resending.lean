/-
ResilientMesh/Resending.lean

Requests that are sent again.  A sender waits for one attempt of its request.
If the answer asks for it, or if the sender gives the attempt up, it sends the
request again, a limited number of times.  To give an attempt up is no more
than to wait for it no longer: it goes on, beside the attempts after it.

The attempts of all senders are the threads of one pool, where thread `(i, k)`
is attempt `k` of sender `i`.  So the attempts that are made, whenever they are
made, are a run of that pool (`Run.pool`), and what is known of its runs is
known of them.

Main result: what every attempt does at most once, a sender's request does at
most once, and once more for every attempt that was sent again
(`Run.countP_le`).  Nothing in this file knows the services.
-/
import ResilientMesh.Pool

namespace ResilientMesh

universe u v w

/-- A sender waits for an attempt, or has an answer. -/
inductive Sender (α : Type w)
  | waiting (attempt : ℕ)
  | answered (attempt : ℕ) (answer : α)

/-- The last attempt that was sent. -/
def Sender.attempt {α : Type w} : Sender α → ℕ
  | waiting attempt => attempt
  | answered attempt _ => attempt

/-- When a request is sent again, how often, and what stands for the answer of
a last attempt that is given up. -/
structure ResendPolicy (ι : Type*) (α : Type w) where
  again : α → Bool
  limit : ι → ℕ
  givenUp : α → Prop

/-- The attempts, and their senders. -/
structure Resending (ι σ : Type*) (Op : Type u) (Ans : Op → Type v) (α : Type w) where
  pool : Pool (ι × ℕ) σ Op Ans α
  sender : ι → Sender α

/-- A step of an attempt, or of a sender: it sends its request again, after an
answer or without one, or takes what there is for the answer. -/
inductive ResendEvent (ι σ : Type*) (Op : Type u) (Ans : Op → Type v) (α : Type w)
  | served (e : Entry (ι × ℕ) σ Op Ans)
  | resent (i : ι) (attempt : ℕ) (answer : Option α)
  | answered (i : ι) (attempt : ℕ) (answer : α)

variable {ι σ : Type*} [DecidableEq ι] {Op : Type u} {Ans : Op → Type v} {α : Type w}

namespace Resending

/-- The sender turns to something else. -/
def turn (s : Resending ι σ Op Ans α) (i : ι) (sender : Sender α) : Resending ι σ Op Ans α :=
  ⟨s.pool, Function.update s.sender i sender⟩

/-- The attempts before any is sent again. -/
def start (pool : Pool (ι × ℕ) σ Op Ans α) : Resending ι σ Op Ans α :=
  ⟨pool, fun _ => .waiting 0⟩

/-- One step.  An attempt that was sent may go on at any time, and a sender may
give up at any time. -/
inductive Step (S : Server σ Op Ans) (policy : ResendPolicy ι α) :
    Resending ι σ Op Ans α → ResendEvent ι σ Op Ans α → Resending ι σ Op Ans α → Prop
  | served {s : Resending ι σ Op Ans α} {e : Entry (ι × ℕ) σ Op Ans}
      {pool : Pool (ι × ℕ) σ Op Ans α} :
      Pool.Step S s.pool e pool → e.who.2 ≤ (s.sender e.who.1).attempt →
      Step S policy s (.served e) ⟨pool, s.sender⟩
  | again {s : Resending ι σ Op Ans α} {i : ι} {attempt : ℕ} {answer : α} :
      s.sender i = .waiting attempt → attempt < policy.limit i →
      s.pool.prog (i, attempt) = .ret answer → policy.again answer →
      Step S policy s (.resent i attempt (some answer)) (s.turn i (.waiting (attempt + 1)))
  | giveUp {s : Resending ι σ Op Ans α} {i : ι} {attempt : ℕ} :
      s.sender i = .waiting attempt → attempt < policy.limit i →
      Step S policy s (.resent i attempt none) (s.turn i (.waiting (attempt + 1)))
  | take {s : Resending ι σ Op Ans α} {i : ι} {attempt : ℕ} {answer : α} :
      s.sender i = .waiting attempt → s.pool.prog (i, attempt) = .ret answer →
      (policy.again answer → attempt = policy.limit i) →
      Step S policy s (.answered i attempt answer) (s.turn i (.answered attempt answer))
  | fail {s : Resending ι σ Op Ans α} {i : ι} {answer : α} :
      s.sender i = .waiting (policy.limit i) → policy.givenUp answer →
      Step S policy s (.answered i (policy.limit i) answer)
        (s.turn i (.answered (policy.limit i) answer))

/-- A run with its log. -/
inductive Run (S : Server σ Op Ans) (policy : ResendPolicy ι α) (s₀ : Resending ι σ Op Ans α) :
    List (ResendEvent ι σ Op Ans α) → Resending ι σ Op Ans α → Prop
  | refl : Run S policy s₀ [] s₀
  | tail {log : List (ResendEvent ι σ Op Ans α)} {s s' : Resending ι σ Op Ans α}
      {ev : ResendEvent ι σ Op Ans α} :
      Run S policy s₀ log s → Step S policy s ev s' → Run S policy s₀ (log ++ [ev]) s'

/-! ### What a log says -/

/-- The step of an attempt. -/
def servedEntry : ResendEvent ι σ Op Ans α → Option (Entry (ι × ℕ) σ Op Ans)
  | .served e => some e
  | _ => none

/-- The steps of the attempts. -/
def served (log : List (ResendEvent ι σ Op Ans α)) : List (Entry (ι × ℕ) σ Op Ans) :=
  log.filterMap servedEntry

/-- The request of sender `i` is sent again. -/
def isResent (i : ι) : ResendEvent ι σ Op Ans α → Bool
  | .resent j _ _ => j = i
  | _ => false

/-- How often the request of sender `i` was sent again. -/
def resent (i : ι) (log : List (ResendEvent ι σ Op Ans α)) : ℕ := log.countP (isResent i)

omit [DecidableEq ι] in
theorem served_append (log log' : List (ResendEvent ι σ Op Ans α)) :
    served (log ++ log') = served log ++ served log' := List.filterMap_append

theorem resent_append (i : ι) (log log' : List (ResendEvent ι σ Op Ans α)) :
    resent i (log ++ log') = resent i log + resent i log' := List.countP_append

/-! ### Runs -/

variable {S : Server σ Op Ans} {policy : ResendPolicy ι α} {s₀ s s' s'' : Resending ι σ Op Ans α}
  {log log' : List (ResendEvent ι σ Op Ans α)} {ev : ResendEvent ι σ Op Ans α}

theorem Run.trans (h : Run S policy s₀ log s) (h' : Run S policy s log' s') :
    Run S policy s₀ (log ++ log') s' := by
  induction h' with
  | refl => rwa [List.append_nil]
  | tail _ hstep ih => exact List.append_assoc .. ▸ ih.tail hstep

/-- **The steps of the attempts are a run of their pool.** -/
theorem Run.pool (h : Run S policy s₀ log s) : Pool.Run S s₀.pool (served log) s.pool := by
  induction h with
  | refl => exact .refl
  | tail _ hstep ih =>
    rw [served_append]
    cases hstep with
    | served hstep _ => exact ih.tail hstep
    | again => exact (List.append_nil _).symm ▸ ih
    | giveUp => exact (List.append_nil _).symm ▸ ih
    | take => exact (List.append_nil _).symm ▸ ih
    | fail => exact (List.append_nil _).symm ▸ ih

/-- Attempts that were sent may run, while no sender does anything. -/
theorem run_of_pool {plog : List (Entry (ι × ℕ) σ Op Ans)} {c : Pool (ι × ℕ) σ Op Ans α}
    (h : Pool.Run S s.pool plog c) (hsent : ∀ e ∈ plog, e.who.2 ≤ (s.sender e.who.1).attempt) :
    Run S policy s (plog.map .served) ⟨c, s.sender⟩ := by
  induction h with
  | refl => exact .refl
  | @tail plog c c' e _ hstep ih =>
    rw [List.map_append]
    refine (ih fun e' he' => hsent e' (List.mem_append_left _ he')).tail (.served hstep ?_)
    exact hsent e (List.mem_append_right _ (List.mem_singleton_self e))

theorem run_play {serve : σ → (op : Op) → Ans op × σ}
    (hS : ∀ s op, S s op (serve s op).1 (serve s op).2) (schedule : List (ι × ℕ))
    (hsent : ∀ t ∈ schedule, t.2 ≤ (s.sender t.1).attempt) :
    Run S policy s ((Pool.play serve schedule s.pool).1.map .served)
      ⟨(Pool.play serve schedule s.pool).2, s.sender⟩ := by
  refine run_of_pool ((Pool.run_play serve schedule s.pool).mono ?_) ?_
  · intro s op a s' hcomputed
    obtain ⟨rfl, rfl⟩ := Prod.mk.inj (show serve s op = (a, s') from hcomputed)
    exact hS s op
  · intro e he
    exact hsent _ (Pool.who_of_mem_play he)

/-- What a sender turns to is there, and the others are as they were. -/
theorem attempt_turn (i j : ι) (sender : Sender α) :
    ((s.turn i sender).sender j).attempt
      = if j = i then sender.attempt else (s.sender j).attempt := by
  show (Function.update s.sender i sender j).attempt = _
  by_cases hj : j = i
  · rw [if_pos hj, hj, Function.update_self]
  · rw [if_neg hj, Function.update_of_ne hj]

/-- To send a request again is to go on to its next attempt. -/
theorem attempt_resent {j : ι} {attempt : ℕ} (h : s.sender j = .waiting attempt)
    (answer : Option α) (i : ι) :
    ((s.turn j (.waiting (attempt + 1))).sender i).attempt
      = (s.sender i).attempt
        + resent i [(.resent j attempt answer : ResendEvent ι σ Op Ans α)] := by
  rw [attempt_turn, resent, List.countP_singleton, isResent]
  by_cases hij : i = j
  · rw [if_pos hij, hij, h, if_pos (decide_eq_true rfl)]
    rfl
  · rw [if_neg hij, if_neg (by simpa using Ne.symm hij), Nat.add_zero]

/-- To take an answer is to stay with the attempt. -/
theorem attempt_answered {j : ι} {attempt : ℕ} (h : s.sender j = .waiting attempt) (answer : α)
    (i : ι) :
    ((s.turn j (.answered attempt answer)).sender i).attempt = (s.sender i).attempt := by
  rw [attempt_turn]
  split_ifs with hij
  · rw [hij, h]
    rfl
  · rfl

theorem Step.attempt (h : Step S policy s ev s') (i : ι) :
    (s'.sender i).attempt = (s.sender i).attempt + resent i [ev] := by
  cases h with
  | served _ _ => rfl
  | again hj _ _ _ => exact attempt_resent hj _ i
  | giveUp hj _ => exact attempt_resent hj _ i
  | take hj _ _ => exact attempt_answered hj _ i
  | fail hj _ => exact attempt_answered hj _ i

theorem Step.attempt_le (h : Step S policy s ev s') (i : ι)
    (hle : (s.sender i).attempt ≤ policy.limit i) : (s'.sender i).attempt ≤ policy.limit i := by
  cases h with
  | served _ _ => exact hle
  | @again j attempt answer hj hlt _ _ =>
    rw [attempt_turn]
    split_ifs with hij
    · exact hij ▸ hlt
    · exact hle
  | @giveUp j attempt hj hlt =>
    rw [attempt_turn]
    split_ifs with hij
    · exact hij ▸ hlt
    · exact hle
  | take hj _ _ => exact (attempt_answered hj _ i).trans_le hle
  | fail hj _ => exact (attempt_answered hj _ i).trans_le hle

variable {pool₀ : Pool (ι × ℕ) σ Op Ans α}

/-- The attempt that a sender waits for is the number of times it has sent its
request again. -/
theorem Run.attempt (h : Run S policy (start pool₀) log s) (i : ι) :
    (s.sender i).attempt = resent i log := by
  induction h with
  | refl => rfl
  | tail _ hstep ih => rw [hstep.attempt, ih, resent_append]

theorem Run.resent_le (h : Run S policy (start pool₀) log s) (i : ι) :
    resent i log ≤ policy.limit i := by
  rw [← h.attempt]
  induction h with
  | refl => exact Nat.zero_le _
  | tail _ hstep ih => exact hstep.attempt_le i ih

/-- Only attempts that were sent take steps. -/
theorem Run.attempt_le (h : Run S policy (start pool₀) log s) :
    ∀ e ∈ served log, e.who.2 ≤ resent e.who.1 log := by
  induction h with
  | refl =>
    intro e he
    cases he
  | @tail log s s' ev hrun hstep ih =>
    intro e he
    rw [resent_append]
    rw [served_append] at he
    rcases List.mem_append.mp he with he | he
    · exact (ih e he).trans (Nat.le_add_right _ _)
    · cases hstep with
      | served _ hle =>
        obtain rfl := List.mem_singleton.mp he
        rw [hrun.attempt] at hle
        exact hle.trans (Nat.le_add_right _ _)
      | again => cases he
      | giveUp => cases he
      | take => cases he
      | fail => cases he

/-- An attempt that has returned stays where it is. -/
theorem Step.returned (h : Step S policy s ev s') {t : ι × ℕ} {answer : α}
    (hret : s.pool.prog t = .ret answer) : s'.pool.prog t = .ret answer := by
  cases h with
  | served hstep _ =>
    cases hstep with
    | mk j a hprog _ =>
      have hne : t ≠ j := by
        rintro rfl
        rw [hret] at hprog
        cases hprog
      rw [Pool.resume_prog_ne _ _ _ hne]
      exact hret
  | again => exact hret
  | giveUp => exact hret
  | take => exact hret
  | fail => exact hret

/-- An answer after which the request was sent again asks for it, and is the
attempt's. -/
theorem Run.again (h : Run S policy (start pool₀) log s) {i : ι} {attempt : ℕ} {answer : α}
    (hmem : ResendEvent.resent i attempt (some answer) ∈ log) :
    policy.again answer ∧
      (pool₀.prog (i, attempt)).Path (proj (i, attempt) (served log)) (.ret answer) := by
  have hboth : policy.again answer ∧ s.pool.prog (i, attempt) = .ret answer := by
    induction h with
    | refl => cases hmem
    | tail _ hstep ih =>
      rcases List.mem_append.mp hmem with hmem | hmem
      · obtain ⟨hagain, hret⟩ := ih hmem
        exact ⟨hagain, hstep.returned hret⟩
      · obtain rfl := List.mem_singleton.mp hmem
        cases hstep with
        | again _ _ hret hagain => exact ⟨hagain, hret⟩
  refine ⟨hboth.1, ?_⟩
  rw [← hboth.2]
  exact h.pool.path (i, attempt)

/-- **What an attempt does at most once, a request does at most once and once
more for every time that it was sent again.** -/
theorem Run.countP_le (h : Run S policy (start pool₀) log s) (i : ι) (p : Event Op Ans → Bool)
    (hone : ∀ k, (proj (i, k) (served log)).countP p ≤ 1) :
    ((served log).countP fun e => e.who.1 = i && p e.event) ≤ resent i log + 1 := by
  -- the attempts of the request that have done anything are among those sent
  have hcard : ((Pool.ids (served log)).filter fun t => t.1 = i).card ≤ resent i log + 1 := by
    rw [← Finset.card_range (resent i log + 1)]
    refine Finset.card_le_card_of_injOn Prod.snd ?_ ?_
    · intro t ht
      obtain ⟨hids, rfl⟩ := Finset.mem_filter.mp ht
      obtain ⟨e, he, rfl⟩ := Pool.mem_ids.mp hids
      exact Finset.mem_coe.mpr (Finset.mem_range.mpr (Nat.lt_succ_of_le (h.attempt_le e he)))
    · intro t ht t' ht' hsnd
      exact Prod.ext ((Finset.mem_filter.mp ht).2.trans (Finset.mem_filter.mp ht').2.symm) hsnd
  calc (served log).countP (fun e => e.who.1 = i && p e.event)
      = ∑ t ∈ Pool.ids (served log), (proj t (served log)).countP fun ev => t.1 = i && p ev :=
        Pool.countP_log (fun (t : ι × ℕ) ev => t.1 = i && p ev) _ _ subset_rfl
    _ ≤ ∑ t ∈ Pool.ids (served log), if t.1 = i then 1 else 0 := by
        refine Finset.sum_le_sum fun t _ => ?_
        by_cases ht : t.1 = i
        · obtain ⟨j, k⟩ := t
          obtain rfl : j = i := ht
          simpa using hone k
        · simp [ht]
    _ = ((Pool.ids (served log)).filter fun t => t.1 = i).card := by
        rw [Finset.card_filter]
    _ ≤ resent i log + 1 := hcard

end Resending

end ResilientMesh
