/-
ResilientMesh/RegistryKeys.lean

The keys of the registry: `"http://" + msName + ":" + msPort`, with nothing
escaped.  A name may have colons and digits of its own, but a port has no
colon, so the last colon of a key ends the name, and what follows it is the
decimal form of one number only.

An entry stands under the key of its own fields, in every run of calls and
between the steps of any sweeps and registrations (`keyed_sweepRun`).  So a key that
is removed takes the entries of its name and port with it, and no others.

Main result: `url_identifies`.
-/
import ResilientMesh.Sweep

namespace ResilientMesh

/-! ### A number after a separator -/

/-- What is cut at a separator is cut at the last one, if the second part has
none. -/
theorem append_cons_inj_of_notMem_right {α : Type*} {sep : α} {p p' q q' : List α} (hq : sep ∉ q)
    (hq' : sep ∉ q') : p ++ sep :: q = p' ++ sep :: q' ↔ p = p' ∧ q = q' := by
  constructor
  · intro h
    rcases List.append_eq_append_iff.mp h with ⟨a, rfl, ha⟩ | ⟨a, rfl, ha⟩
    · cases a with
      | nil => exact ⟨(List.append_nil p).symm, (List.cons.inj ha).2⟩
      | cons x a =>
        -- the separator of the second text would stand within `q`
        obtain ⟨-, rfl⟩ := List.cons.inj ha
        exact absurd (List.mem_append_right a List.mem_cons_self) hq
    · cases a with
      | nil => exact ⟨List.append_nil p', ((List.cons.inj ha).2).symm⟩
      | cons x a =>
        obtain ⟨-, rfl⟩ := List.cons.inj ha
        exact absurd (List.mem_append_right a List.mem_cons_self) hq'
  · rintro ⟨rfl, rfl⟩
    rfl

theorem toDigits_injective : Function.Injective (Nat.toDigits 10) := by
  intro n n' h
  -- the digits are read back
  calc n = Nat.ofDigitChars 10 (Nat.toDigits 10 n) 0 := Nat.ofDigitChars_ten_toDigits.symm
    _ = Nat.ofDigitChars 10 (Nat.toDigits 10 n') 0 := by rw [h]
    _ = n' := Nat.ofDigitChars_ten_toDigits

/-- **A text, a separator and a number** give away the text and the number, if
the separator is no digit. -/
theorem append_sep_toDigits_inj {sep : Char} (hsep : sep.isDigit = false) {p p' : List Char}
    {n n' : ℕ} :
    p ++ sep :: Nat.toDigits 10 n = p' ++ sep :: Nat.toDigits 10 n' ↔ p = p' ∧ n = n' := by
  have hnot : ∀ n, sep ∉ Nat.toDigits 10 n := by
    intro n hmem
    have hdigit := Nat.isDigit_of_mem_toDigits (by decide) (by decide) hmem
    rw [hsep] at hdigit
    cases hdigit
  rw [append_cons_inj_of_notMem_right (hnot n) (hnot n'), toDigits_injective.eq_iff]

/-! ### URLs -/

theorem toList_getUrlFromMsInfo (msInfo : MicroserviceInfo) :
    (getUrlFromMsInfo msInfo).toList
      = "http://".toList ++ (msInfo.msName.toList ++ ':' :: Nat.toDigits 10 msInfo.msPort) := by
  have hport : (toString msInfo.msPort).toList = Nat.toDigits 10 msInfo.msPort := Nat.toList_repr
  have hcolon : ":".toList = [':'] := rfl
  rw [getUrlFromMsInfo, String.toList_append, String.toList_append, String.toList_append, hport,
    hcolon, List.append_assoc, List.append_assoc, List.singleton_append]

/-- **A URL is that of one name and one port.** -/
theorem getUrlFromMsInfo_eq_iff {i j : MicroserviceInfo} :
    getUrlFromMsInfo i = getUrlFromMsInfo j ↔ i.msName = j.msName ∧ i.msPort = j.msPort := by
  rw [← String.toList_inj, toList_getUrlFromMsInfo, toList_getUrlFromMsInfo,
    List.append_cancel_left_eq,
    append_sep_toDigits_inj rfl, String.toList_inj]

/-! ### Deregistering -/

variable {java : Java} {registry : Registry}

/-- What is deregistered with a service are the entries of its name and port;
all others stay, in their order. -/
def DeregistersOwn (registry : Registry) : Prop :=
  ∀ msInfo : MicroserviceInfo,
    (deregisterMicroservice registry (getUrlFromMsInfo msInfo)).2.values
      = registry.values.filter fun stored =>
          ¬ (stored.msName = msInfo.msName ∧ stored.msPort = msInfo.msPort)

theorem deregistersOwn_of_keyed (h : registry.Keyed getUrlFromMsInfo) :
    DeregistersOwn registry := by
  intro msInfo
  simp only [← getUrlFromMsInfo_eq_iff]
  rw [deregisterMicroservice_registry]
  exact h.values_erase (getUrlFromMsInfo msInfo)

/-- A step of a sweep or a registration keeps the entries under their URLs. -/
theorem keyed_step {s : SweepState} (op : SweepOp) (h : s.registry.Keyed getUrlFromMsInfo) :
    ListMap.Keyed getUrlFromMsInfo (s.step op).registry := by
  cases op with
  | registerMicroservice msInfo => exact keyed_registerMicroservice msInfo h
  | iterator => exact h
  | next expectedModCount => exact h
  | checkHealth msUrl => exact h
  | deregisterMicroservice msUrl => exact keyed_deregisterMicroservice msUrl h

/-- And so do any sweeps and registrations at the same time. -/
theorem keyed_sweepRun {ι : Type} [DecidableEq ι] {clients : ι → RegistryClient}
    {log : List (SweepEntry ι)}
    {c : Pool ι SweepState SweepOp SweepOp.Ans (Except SweepException Unit)}
    (hkeyed : registry.Keyed getUrlFromMsInfo)
    (h : Pool.Run (sweepServer java) (sweepStart registry clients) log c) :
    c.state.registry.Keyed getUrlFromMsInfo := by
  apply h.invariant (I := fun s => s.registry.Keyed getUrlFromMsInfo) _ hkeyed
  rintro s op a s' hs ⟨-, rfl⟩
  exact keyed_step op hs

/-- **A URL stands for one name and one port**, so that deregistering it leaves
the entries of every other: after any calls, and at any moment of sweeps and
registrations that go on side by side after them. -/
theorem url_identifies (java : Java) :
    (∀ i j : MicroserviceInfo,
      getUrlFromMsInfo i = getUrlFromMsInfo j ↔ i.msName = j.msName ∧ i.msPort = j.msPort) ∧
    ∀ calls registry, RegistryRun java calls registry →
      DeregistersOwn registry ∧
        ∀ (ι : Type) [DecidableEq ι] (clients : ι → RegistryClient) (log : List (SweepEntry ι))
          (c : Pool ι SweepState SweepOp SweepOp.Ans (Except SweepException Unit)),
          Pool.Run (sweepServer java) (sweepStart registry clients) log c →
            DeregistersOwn c.state.registry := by
  refine ⟨fun i j => getUrlFromMsInfo_eq_iff, ?_⟩
  intro calls registry hrun
  refine ⟨deregistersOwn_of_keyed hrun.keyed, ?_⟩
  intro ι _ clients log c hpool
  exact deregistersOwn_of_keyed (keyed_sweepRun hrun.keyed hpool)

end ResilientMesh
