/-
ResilientMesh/LedgerDoubts.lean

A ledger seen by those who ask for its movements.  An acknowledged movement
was made.  One that was not acknowledged may have been made all the same, when
the acknowledgement was lost, so of every balance two bounds are known.

Main result: an account that nobody asked to close holds at least what was
paid in with acknowledgement, less all that was asked to be paid out, and at
most the same with the roles exchanged (`Ledger.Attempted.known`).

Nothing in this file knows the services.
-/
import ResilientMesh.LedgerHistory

namespace ResilientMesh

variable {K V : Type*} [DecidableEq K] [AddCommGroup V] [LinearOrder V]

/-- No amount that is moved is negative. -/
def Movement.Proper (m : Movement K V) : Prop := ∀ k, 0 ≤ m.paidIn k ∧ 0 ≤ m.paidOut k

/-- A movement that was asked for, and whether that was acknowledged. -/
structure Attempt (K V : Type*) [DecidableEq K] [AddCommGroup V] [LinearOrder V] where
  move : Movement K V
  acknowledged : Bool
  proper : move.Proper

namespace Attempt

variable (attempts : List (Attempt K V))

/-- What the movements asked for come to. -/
def asked (f : Movement K V → V) : V := (attempts.map fun a => f a.move).sum

/-- What the acknowledged ones come to. -/
def confirmed (f : Movement K V → V) : V :=
  (attempts.map fun a => if a.acknowledged then f a.move else 0).sum

/-- What account `k` has gained at least. -/
def lowest (k : K) : V := confirmed attempts (·.paidIn k) - asked attempts (·.paidOut k)

/-- What account `k` has gained at most. -/
def highest (k : K) : V := asked attempts (·.paidIn k) - confirmed attempts (·.paidOut k)

variable {attempts}

theorem asked_concat (f : Movement K V → V) (a : Attempt K V) :
    asked (attempts ++ [a]) f = asked attempts f + f a.move := by
  rw [asked, List.map_append, List.sum_append, List.map_singleton, List.sum_singleton, ← asked]

theorem confirmed_concat (f : Movement K V → V) (a : Attempt K V) :
    confirmed (attempts ++ [a]) f = confirmed attempts f
      + if a.acknowledged then f a.move else 0 := by
  rw [confirmed, List.map_append, List.sum_append, List.map_singleton, List.sum_singleton,
    ← confirmed]

end Attempt

namespace Ledger

open Attempt

/-- `Attempted l₀ attempts l`: the attempts, each made or lost, lead from `l₀`
to `l`. -/
inductive Attempted (l₀ : Ledger K V) : List (Attempt K V) → Ledger K V → Prop
  | nil : Attempted l₀ [] l₀
  | made {attempts : List (Attempt K V)} {l : Ledger K V} (a : Attempt K V) :
      Attempted l₀ attempts l → a.move.Allowed l → Attempted l₀ (attempts ++ [a]) (a.move.apply l)
  | lost {attempts : List (Attempt K V)} {l : Ledger K V} (a : Attempt K V) :
      Attempted l₀ attempts l → a.acknowledged = false → Attempted l₀ (attempts ++ [a]) l

/-- What is known of account `k`: that it is there, if it was there or was
opened with acknowledgement, and the bounds of what it holds. -/
structure Known (l₀ : Ledger K V) (attempts : List (Attempt K V)) (l : Ledger K V) (k : K) :
    Prop where
  there : (l₀ k).isSome ∨ (∃ a ∈ attempts, a.acknowledged ∧ a.move.opens k) → (l k).isSome
  low : (l₀ k).getD 0 + lowest attempts k ≤ (l k).getD 0
  high : (l k).getD 0 ≤ (l₀ k).getD 0 + highest attempts k

/-- An account moves by what is paid in and out, as long as it is not closed. -/
theorem getD_apply {l : Ledger K V} {m : Movement K V} {k : K} (h : m.Allowed l)
    (hclose : ¬ m.closes k) :
    (m.apply l k).getD 0 = (l k).getD 0 + m.paidIn k - m.paidOut k := by
  rw [Movement.apply_at, if_neg hclose]
  cases m with
  | keep => simp [Movement.opens, Movement.paidIn, Movement.paidOut]
  | delete k' => simp [Movement.opens, Movement.paidIn, Movement.paidOut]
  | create k' =>
    have hnone : l k' = none := h
    by_cases hk : k' = k
    · subst hk
      simp [Movement.opens, Movement.paidIn, Movement.paidOut, hnone]
    · simp [Movement.opens, Movement.paidIn, Movement.paidOut, hk]
  | deposit k' a =>
    obtain ⟨-, b, hb⟩ := h
    by_cases hk : k' = k
    · subst hk
      simp [Movement.opens, Movement.paidOut, hb]
    · simp [Movement.opens, Movement.paidIn, Movement.paidOut, hk]
  | charge k' a =>
    obtain ⟨-, b, hb, -⟩ := h
    by_cases hk : k' = k
    · subst hk
      simp [Movement.opens, Movement.paidIn, hb]
    · simp [Movement.opens, Movement.paidIn, Movement.paidOut, hk]

omit [LinearOrder V] in
/-- An account stays there, unless it is closed, and is there once opened. -/
theorem isSome_apply_of_not_closes {l : Ledger K V} {m : Movement K V} {k : K}
    (hclose : ¬ m.closes k) (h : (l k).isSome ∨ m.opens k) : (m.apply l k).isSome := by
  rw [Movement.apply_at, if_neg hclose]
  split_ifs with hopen
  · rfl
  · rw [Option.isSome_map]
    exact h.resolve_right hopen

variable [IsOrderedAddMonoid V]

/-- **What the asking side knows of an account that nobody asked to close.** -/
theorem Attempted.known {l₀ l : Ledger K V} {attempts : List (Attempt K V)}
    (h : Attempted l₀ attempts l) {k : K} (hclose : ∀ a ∈ attempts, ¬ a.move.closes k) :
    Known l₀ attempts l k := by
  induction h with
  | nil =>
    refine ⟨?_, ?_, ?_⟩
    · rintro (h | ⟨a, ha, -⟩)
      · exact h
      · cases ha
    · simp [lowest, confirmed, asked]
    · simp [highest, confirmed, asked]
  | @made attempts l a _ hallow ih =>
    obtain ⟨hthere, hlow, hhigh⟩ := ih fun a' ha' => hclose a' (List.mem_append_left _ ha')
    have hkeeps : ¬ a.move.closes k :=
      hclose a (List.mem_append_right _ (List.mem_singleton_self a))
    obtain ⟨hin, hout⟩ := a.proper k
    have hbalance := getD_apply hallow hkeeps
    refine ⟨?_, ?_, ?_⟩
    · intro h
      refine isSome_apply_of_not_closes hkeeps ?_
      rcases h with h | ⟨a', ha', hopened⟩
      · exact .inl (hthere (.inl h))
      rcases List.mem_append.mp ha' with ha' | ha'
      · exact .inl (hthere (.inr ⟨a', ha', hopened⟩))
      · obtain rfl := List.mem_singleton.mp ha'
        exact .inr hopened.2
    · have hle : (if a.acknowledged then a.move.paidIn k else 0) ≤ a.move.paidIn k := by
        split_ifs
        · exact le_rfl
        · exact hin
      calc (l₀ k).getD 0 + lowest (attempts ++ [a]) k
          = (l₀ k).getD 0 + lowest attempts k
              + (if a.acknowledged then a.move.paidIn k else 0) - a.move.paidOut k := by
            rw [lowest, lowest, confirmed_concat, asked_concat]
            abel
        _ ≤ (l k).getD 0 + a.move.paidIn k - a.move.paidOut k :=
            sub_le_sub_right (add_le_add hlow hle) _
        _ = (a.move.apply l k).getD 0 := hbalance.symm
    · have hle : (if a.acknowledged then a.move.paidOut k else 0) ≤ a.move.paidOut k := by
        split_ifs
        · exact le_rfl
        · exact hout
      calc (a.move.apply l k).getD 0
          = (l k).getD 0 + a.move.paidIn k - a.move.paidOut k := hbalance
        _ ≤ (l₀ k).getD 0 + highest attempts k + a.move.paidIn k
              - (if a.acknowledged then a.move.paidOut k else 0) :=
            sub_le_sub (add_le_add_left hhigh _) hle
        _ = (l₀ k).getD 0 + highest (attempts ++ [a]) k := by
            rw [highest, highest, confirmed_concat, asked_concat]
            abel
  | @lost attempts l a _ hunknown ih =>
    obtain ⟨hthere, hlow, hhigh⟩ := ih fun a' ha' => hclose a' (List.mem_append_left _ ha')
    obtain ⟨hin, hout⟩ := a.proper k
    have hno : ¬ a.acknowledged = true := by rw [hunknown]; exact Bool.false_ne_true
    refine ⟨?_, ?_, ?_⟩
    · rintro (h | ⟨a', ha', hopened⟩)
      · exact hthere (.inl h)
      rcases List.mem_append.mp ha' with ha' | ha'
      · exact hthere (.inr ⟨a', ha', hopened⟩)
      · obtain rfl := List.mem_singleton.mp ha'
        exact absurd hopened.1 hno
    · refine le_trans (add_le_add_right ?_ _) hlow
      rw [lowest, lowest, confirmed_concat, asked_concat, if_neg hno, add_zero]
      exact sub_le_sub_left (le_add_of_nonneg_right hout) _
    · refine le_trans hhigh (add_le_add_right ?_ _)
      rw [highest, highest, confirmed_concat, asked_concat, if_neg hno, add_zero]
      exact sub_le_sub_right (le_add_of_nonneg_right hin) _

end Ledger

end ResilientMesh
