/-
ResilientMesh/Ledger.lean

Accounts in the abstract: a partial map from keys to balances, and the five
ways one request may move it.  A movement says what it needs of the ledger it
is applied to (`Movement.Allowed`); an allowed movement keeps every balance
non-negative (`Movement.Allowed.solvent`) and touches one key only
(`Movement.apply_of_not_touches`).

Nothing in this file knows the services.
-/
import Mathlib

namespace ResilientMesh

/-- The balance of every account there is. -/
abbrev Ledger (K V : Type*) := K → Option V

/-- What one request does to a ledger. -/
inductive Movement (K V : Type*)
  | keep
  | create (k : K)
  | deposit (k : K) (a : V)
  | charge (k : K) (a : V)
  | delete (k : K)
  deriving DecidableEq

variable {K V : Type*} [DecidableEq K] [AddCommGroup V]

namespace Movement

/-- The ledger after a movement. -/
def apply (l : Ledger K V) : Movement K V → Ledger K V
  | keep => l
  | create k => Function.update l k (some 0)
  | deposit k a => Function.update l k ((l k).map (· + a))
  | charge k a => Function.update l k ((l k).map (· - a))
  | delete k => Function.update l k none

/-- The accounts a movement may change. -/
def Touches : Movement K V → K → Prop
  | keep, _ => False
  | create k, k' => k' = k
  | deposit k _, k' => k' = k
  | charge k _, k' => k' = k
  | delete k, k' => k' = k

@[simp] theorem apply_keep (l : Ledger K V) : apply l (keep : Movement K V) = l := rfl

theorem deposit_self {l : Ledger K V} {k : K} {b : V} (a : V) (h : l k = some b) :
    (deposit k a).apply l k = some (b + a) := by
  rw [apply, Function.update_self, h, Option.map_some]

theorem charge_self {l : Ledger K V} {k : K} {b : V} (a : V) (h : l k = some b) :
    (charge k a).apply l k = some (b - a) := by
  rw [apply, Function.update_self, h, Option.map_some]

/-- Every other account is left alone. -/
theorem apply_of_not_touches {l : Ledger K V} {m : Movement K V} {k : K} (h : ¬ m.Touches k) :
    m.apply l k = l k := by
  cases m <;> simp_all [apply, Touches]

/-- An account that is there was there, or is the one opened. -/
theorem isSome_apply {l : Ledger K V} {m : Movement K V} {k : K} (h : (m.apply l k).isSome) :
    (l k).isSome ∨ m = create k := by
  by_cases htouch : m.Touches k
  swap
  · rw [apply_of_not_touches htouch] at h
    exact .inl h
  cases m with
  | keep => exact htouch.elim
  | create k' =>
    obtain rfl : k = k' := htouch
    exact .inr rfl
  | deposit k' a =>
    obtain rfl : k = k' := htouch
    rw [apply, Function.update_self, Option.isSome_map] at h
    exact .inl h
  | charge k' a =>
    obtain rfl : k = k' := htouch
    rw [apply, Function.update_self, Option.isSome_map] at h
    exact .inl h
  | delete k' =>
    obtain rfl : k = k' := htouch
    rw [apply, Function.update_self] at h
    cases h

variable [LinearOrder V]

/-- A movement that the ledger admits: accounts are opened once, amounts are
positive, and nothing is taken that is not there. -/
def Allowed (l : Ledger K V) : Movement K V → Prop
  | keep => True
  | create k => l k = none
  | deposit k a => 0 < a ∧ ∃ b, l k = some b
  | charge k a => 0 < a ∧ ∃ b, l k = some b ∧ a ≤ b
  | delete k => ∃ b, l k = some b

/-- What an allowed charge takes was there, and is gone after it. -/
theorem Allowed.charge_eq {l : Ledger K V} {k : K} {a : V} (h : (charge k a).Allowed l) :
    ∃ b, l k = some b ∧ 0 < a ∧ a ≤ b ∧
      (charge k a).apply l = Function.update l k (some (b - a)) := by
  obtain ⟨ha, b, hb, hab⟩ := h
  exact ⟨b, hb, ha, hab, by simp [apply, hb]⟩

end Movement

/-- No balance is negative. -/
def Ledger.Solvent [LinearOrder V] (l : Ledger K V) : Prop := ∀ k b, l k = some b → 0 ≤ b

omit [DecidableEq K] in
theorem Ledger.solvent_empty [LinearOrder V] : Ledger.Solvent (fun _ : K => (none : Option V)) := by
  intro k b h
  cases h

theorem Ledger.Solvent.update [LinearOrder V] {l : Ledger K V} (h : l.Solvent) (k : K)
    {v : Option V} (hv : ∀ b, v = some b → 0 ≤ b) : Ledger.Solvent (Function.update l k v) := by
  intro k' b hb
  by_cases hk : k' = k
  · subst hk
    exact hv b (by simpa using hb)
  · exact h k' b (by simpa [hk] using hb)

/-- **Allowed movements keep a ledger solvent.** -/
theorem Movement.Allowed.solvent [LinearOrder V] [IsOrderedAddMonoid V] {l : Ledger K V}
    {m : Movement K V} (hm : m.Allowed l) (h : l.Solvent) : Ledger.Solvent (m.apply l) := by
  cases m with
  | keep => exact h
  | create k =>
    refine h.update k fun b hb => ?_
    obtain rfl := Option.some.inj hb
    exact le_rfl
  | deposit k a =>
    obtain ⟨ha, b, hb⟩ := hm
    refine h.update k fun b' hb' => ?_
    rw [hb, Option.map_some] at hb'
    obtain rfl := Option.some.inj hb'
    exact add_nonneg (h k b hb) ha.le
  | charge k a =>
    obtain ⟨-, b, hb, hab⟩ := hm
    refine h.update k fun b' hb' => ?_
    rw [hb, Option.map_some] at hb'
    obtain rfl := Option.some.inj hb'
    exact sub_nonneg.mpr hab
  | delete k => exact h.update k (by simp)

end ResilientMesh
