/-
ResilientMesh/LedgerHistory.lean

A ledger and the movements it came from.  An account is there exactly if the
last movement that opened or closed it opened it, and then it holds what was
paid in since, less what was paid out (`Ledger.Reached.lookup`).

Nothing in this file knows the services.
-/
import ResilientMesh.Ledger

namespace ResilientMesh

variable {K V : Type*} [DecidableEq K] [AddCommGroup V]

namespace Movement

/-! ### One movement, seen from one account -/

/-- The movement opens account `k`. -/
def opens (k : K) : Movement K V → Bool
  | create k' => k' = k
  | _ => false

/-- The movement closes account `k`. -/
def closes (k : K) : Movement K V → Bool
  | delete k' => k' = k
  | _ => false

/-- What the movement pays into account `k`. -/
def paidIn (k : K) : Movement K V → V
  | deposit k' a => if k' = k then a else 0
  | _ => 0

/-- What the movement takes from account `k`. -/
def paidOut (k : K) : Movement K V → V
  | charge k' a => if k' = k then a else 0
  | _ => 0

/-- **One account through one movement.** -/
theorem apply_at (l : Ledger K V) (m : Movement K V) (k : K) :
    m.apply l k = if m.opens k then some 0 else if m.closes k then none
      else (l k).map fun b => b + m.paidIn k - m.paidOut k := by
  have hkeep : (l k).map (fun b => b + 0 - 0) = l k := by
    simp
  cases m with
  | keep => exact hkeep.symm
  | create k' =>
    by_cases hk : k' = k
    · subst hk
      simp [apply, opens]
    · simp [apply, opens, closes, paidIn, paidOut, hk, Ne.symm hk]
  | deposit k' a =>
    by_cases hk : k' = k
    · subst hk
      simp [apply, opens, closes, paidIn, paidOut]
    · simp [apply, opens, closes, paidIn, paidOut, hk, Ne.symm hk]
  | charge k' a =>
    by_cases hk : k' = k
    · subst hk
      simp [apply, opens, closes, paidIn, paidOut]
    · simp [apply, opens, closes, paidIn, paidOut, hk, Ne.symm hk]
  | delete k' =>
    by_cases hk : k' = k
    · subst hk
      simp [apply, opens, closes]
    · simp [apply, opens, closes, paidIn, paidOut, hk, Ne.symm hk]

/-! ### A history, seen from one account -/

/-- The movement opens or closes account `k`. -/
def turns (k : K) (m : Movement K V) : Bool := m.opens k || m.closes k

/-- The last movement that opened or closed account `k`. -/
def lastTurn (k : K) (ms : List (Movement K V)) : Option (Movement K V) :=
  (ms.filter (turns k)).getLast?

/-- The movements since account `k` was last opened or closed. -/
def sinceTurn (k : K) (ms : List (Movement K V)) : List (Movement K V) :=
  ms.rtakeWhile fun m => !m.turns k

/-- What was paid into account `k`, less what was taken from it. -/
def balance (k : K) (ms : List (Movement K V)) : V :=
  (ms.map (paidIn k)).sum - (ms.map (paidOut k)).sum

omit [AddCommGroup V] in
theorem lastTurn_concat (k : K) (ms : List (Movement K V)) (m : Movement K V) :
    lastTurn k (ms ++ [m]) = if m.turns k then some m else lastTurn k ms := by
  unfold lastTurn
  rw [List.filter_append, List.filter_singleton]
  cases m.turns k with
  | true => exact List.getLast?_concat
  | false => exact congrArg List.getLast? (List.append_nil _)

omit [AddCommGroup V] in
theorem sinceTurn_concat (k : K) (ms : List (Movement K V)) (m : Movement K V) :
    sinceTurn k (ms ++ [m]) = if m.turns k then [] else sinceTurn k ms ++ [m] := by
  unfold sinceTurn
  rw [List.rtakeWhile_concat]
  cases m.turns k <;> rfl

@[simp] theorem balance_nil (k : K) : balance k ([] : List (Movement K V)) = 0 := sub_zero 0

theorem balance_concat (k : K) (ms : List (Movement K V)) (m : Movement K V) :
    balance k (ms ++ [m]) = balance k ms + m.paidIn k - m.paidOut k := by
  unfold balance
  rw [List.map_append, List.map_append, List.sum_append, List.sum_append, List.map_singleton,
    List.map_singleton, List.sum_singleton, List.sum_singleton]
  abel

end Movement

open Movement

variable [LinearOrder V]

/-- `Reached ms l`: the movements `ms`, each one admitted, lead from nothing to
`l`. -/
inductive Ledger.Reached : List (Movement K V) → Ledger K V → Prop
  | nil : Reached [] fun _ => none
  | snoc {ms : List (Movement K V)} {l : Ledger K V} {m : Movement K V} :
      Reached ms l → m.Allowed l → Reached (ms ++ [m]) (m.apply l)

namespace Ledger.Reached

variable {ms : List (Movement K V)} {l : Ledger K V}

/-- **What a history has made of an account.** -/
theorem lookup (h : Reached ms l) (k : K) :
    l k = if ∃ m, lastTurn k ms = some m ∧ m.opens k then some (balance k (sinceTurn k ms))
      else none := by
  induction h with
  | nil => simp [lastTurn]
  | @snoc ms l m _ _ ih =>
    rw [apply_at, lastTurn_concat, sinceTurn_concat]
    -- the last movement opens the account, or closes it, or leaves its turn as it was
    by_cases hopen : m.opens k
    · have hturn : m.turns k = true := by simp [turns, hopen]
      rw [if_pos hopen, if_pos hturn, if_pos hturn, if_pos ⟨m, rfl, hopen⟩, balance_nil]
    · rw [if_neg hopen]
      by_cases hclose : m.closes k
      · have hturn : m.turns k = true := by simp [turns, hclose]
        rw [if_pos hclose, if_pos hturn, if_neg]
        rintro ⟨m', hm', hopen'⟩
        obtain rfl := Option.some.inj hm'
        exact hopen hopen'
      · have hturn : ¬ m.turns k = true := by simp [turns, hopen, hclose]
        rw [if_neg hclose, if_neg hturn, if_neg hturn, ih, balance_concat]
        split_ifs <;> rfl

/-- An account is there exactly if it was opened last. -/
theorem isSome_iff (h : Reached ms l) (k : K) :
    (l k).isSome ↔ ∃ m, lastTurn k ms = some m ∧ m.opens k := by
  rw [h.lookup k]
  split_ifs with hopen
  · exact iff_of_true rfl hopen
  · exact iff_of_false Bool.false_ne_true hopen

/-- What an account holds was paid in since it was opened, and not taken. -/
theorem eq_balance (h : Reached ms l) {k : K} {b : V} (hb : l k = some b) :
    b = balance k (sinceTurn k ms) := by
  rw [h.lookup k] at hb
  split_ifs at hb
  exact (Option.some.inj hb).symm

theorem solvent [IsOrderedAddMonoid V] (h : Reached ms l) : Solvent l := by
  induction h with
  | nil => exact Ledger.solvent_empty
  | snoc _ hm ih => exact hm.solvent ih

end Ledger.Reached

end ResilientMesh
