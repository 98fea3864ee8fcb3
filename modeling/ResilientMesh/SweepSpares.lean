/-
ResilientMesh/SweepSpares.lean

What a sweep on its own leaves alone.  A probe is a bounded retry: its answer
is that of the first attempt that does not throw, and null if none is left
(`retryFrom_eq_iff`).  The first loop of the sweep only collects URLs, so an
exception there leaves the registry as it was; the second removes each of them
with its whole list, and finds every one of them still there
(`deregisterAll_eq`).

Main result: `sweep_spares_live`.
-/
import ResilientMesh.RegistryHistory

namespace ResilientMesh

variable {java : Java} {instances : Instances} {registry : Registry}

/-! ### The retry -/

/-- The attempt threw. -/
def Throws (answer : Except RemoteException (Option String)) : Prop := ∃ e, answer = .error e

/-- Of so many attempts, the first that did not throw returned `answer`. -/
def FirstAnswer (health : ℕ → Except RemoteException (Option String)) (attempts : ℕ)
    (answer : Option String) : Prop :=
  ∃ k < attempts, (∀ i < k, Throws (health i)) ∧ health k = .ok answer

/-- All of so many attempts threw. -/
def AllThrew (health : ℕ → Except RemoteException (Option String)) (attempts : ℕ) : Prop :=
  ∀ k < attempts, Throws (health k)

/-- The first attempt throws, and what follows is the same for the others. -/
theorem firstAnswer_succ {health : ℕ → Except RemoteException (Option String)} {attempts : ℕ}
    {answer : Option String} {e : RemoteException} (h : health 0 = .error e) :
    FirstAnswer health (attempts + 1) answer ↔
      FirstAnswer (fun k => health (k + 1)) attempts answer := by
  constructor
  · rintro ⟨k, hk, hbefore, hanswer⟩
    cases k with
    | zero =>
      rw [h] at hanswer
      cases hanswer
    | succ k =>
      exact ⟨k, Nat.lt_of_succ_lt_succ hk, fun i hi => hbefore (i + 1) (Nat.succ_lt_succ hi),
        hanswer⟩
  · rintro ⟨k, hk, hbefore, hanswer⟩
    refine ⟨k + 1, Nat.succ_lt_succ hk, ?_, hanswer⟩
    intro i hi
    cases i with
    | zero => exact ⟨e, h⟩
    | succ i => exact hbefore i (Nat.lt_of_succ_lt_succ hi)

theorem allThrew_succ {health : ℕ → Except RemoteException (Option String)} {attempts : ℕ}
    {e : RemoteException} (h : health 0 = .error e) :
    AllThrew health (attempts + 1) ↔ AllThrew (fun k => health (k + 1)) attempts := by
  constructor
  · intro hall k hk
    exact hall (k + 1) (Nat.succ_lt_succ hk)
  · intro hall k hk
    cases k with
    | zero => exact ⟨e, h⟩
    | succ k => exact hall k (Nat.lt_of_succ_lt_succ hk)

theorem retryFrom_succ (health : ℕ → Except RemoteException (Option String)) (attempts k : ℕ) :
    retryFrom health attempts (k + 1) = retryFrom (fun i => health (i + 1)) attempts k := by
  induction attempts generalizing k with
  | zero => rfl
  | succ attempts ih =>
    rw [retryFrom, retryFrom]
    cases health (k + 1) with
    | error e => exact ih (k + 1)
    | ok answer => rfl

/-- **The answer of a retry** is that of the first attempt that did not throw,
and null if all of them threw. -/
theorem retryFrom_eq_iff (health : ℕ → Except RemoteException (Option String)) (attempts : ℕ)
    (answer : Option String) :
    retryFrom health attempts 0 = answer ↔
      FirstAnswer health attempts answer ∨ (AllThrew health attempts ∧ answer = none) := by
  induction attempts generalizing health with
  | zero =>
    have hnone : ¬ FirstAnswer health 0 answer := by
      rintro ⟨k, hk, -⟩
      exact absurd hk (Nat.not_lt_zero k)
    have hall : AllThrew health 0 := fun k hk => absurd hk (Nat.not_lt_zero k)
    rw [retryFrom, or_iff_right hnone, and_iff_right hall]
    exact eq_comm
  | succ attempts ih =>
    rw [retryFrom]
    cases h : health 0 with
    | error e =>
      show retryFrom health attempts (0 + 1) = answer ↔ _
      rw [retryFrom_succ, ih, firstAnswer_succ h, allThrew_succ h]
    | ok answer' =>
      have hnot : ¬ AllThrew health (attempts + 1) := by
        intro hall
        obtain ⟨e, he⟩ := hall 0 (Nat.succ_pos attempts)
        rw [h] at he
        cases he
      rw [or_iff_left fun hboth => hnot hboth.1]
      constructor
      · rintro rfl
        exact ⟨0, Nat.succ_pos attempts, fun i hi => absurd hi (Nat.not_lt_zero i), h⟩
      · rintro ⟨k, -, hbefore, hanswer⟩
        cases k with
        | zero =>
          rw [h] at hanswer
          cases hanswer
          rfl
        | succ k =>
          obtain ⟨e, he⟩ := hbefore 0 (Nat.succ_pos k)
          rw [h] at he
          cases he

/-! ### What is removed -/

/-- The probes of the URL say that it is dead: the first attempt that did not
throw returned something else than OK, or all three threw. -/
def ProbedDead (instances : Instances) (msUrl : String) : Prop :=
  (∃ answer, answer ≠ some "OK" ∧ FirstAnswer (instances.health msUrl) 3 answer) ∨
    AllThrew (instances.health msUrl) 3

theorem dead_iff_probedDead {msUrl : String} :
    Dead instances msUrl ↔ ProbedDead instances msUrl := by
  have hretry := retryFrom_eq_iff (instances.health msUrl) 3
  constructor
  · intro hdead
    rcases (hretry _).mp rfl with hfirst | ⟨hall, -⟩
    · exact .inl ⟨_, hdead, hfirst⟩
    · exact .inr hall
  · rintro (⟨answer, hne, hfirst⟩ | hall)
    · have hanswer : retryWhenError instances msUrl = answer := (hretry answer).mpr (.inl hfirst)
      show retryWhenError instances msUrl ≠ some "OK"
      rw [hanswer]
      exact hne
    · have hanswer : retryWhenError instances msUrl = none := (hretry none).mpr (.inr ⟨hall, rfl⟩)
      show retryWhenError instances msUrl ≠ some "OK"
      rw [hanswer]
      exact Option.some_ne_none "OK" |>.symm

/-- A sweep ends well, or refuses a key and leaves everything as it was. -/
theorem removeDeadMicroservices_ends (java : Java) (instances : Instances) (registry : Registry) :
    (removeDeadMicroservices java instances registry).1 = .ok () ∨
      removeDeadMicroservices java instances registry = (.error .illegalArgument, registry) := by
  by_cases haccepted : ∀ msUrl ∈ registry.keys, java.uriCreate msUrl
  · left
    rw [removeDeadMicroservices, toRemove_of_accepted haccepted]
    show (deregisterAll _ registry).1 = .ok ()
    rw [deregisterAll_eq (registry.keys_nodup.filter _)
      fun u hu => AList.mem_keys.mpr (List.mem_of_mem_filter hu)]
  · right
    push Not at haccepted
    obtain ⟨msUrl, hmem, hrefused⟩ := haccepted
    exact sweep_of_refused instances hmem (Bool.eq_false_iff.mpr hrefused)

/-- **A sweep on its own never removes a live service**: every URL keeps its
list, or it was there, is gone, and its probes said that it is dead.  If it
throws, the registry is as it was; and it never meets a null. -/
theorem sweep_spares_live (java : Java) (instances : Instances) (registry : Registry) :
    (∀ msUrl,
      (removeDeadMicroservices java instances registry).2.lookup msUrl = registry.lookup msUrl ∨
        (msUrl ∈ registry ∧ msUrl ∉ (removeDeadMicroservices java instances registry).2 ∧
          ProbedDead instances msUrl)) ∧
      (∀ e, (removeDeadMicroservices java instances registry).1 = .error e →
        (removeDeadMicroservices java instances registry).2 = registry) ∧
      (removeDeadMicroservices java instances registry).1 ≠ .error .nullPointer := by
  refine ⟨?_, ?_, ?_⟩
  · intro msUrl
    rcases lookup_removeDeadMicroservices instances registry msUrl with hnone | hsame
    · by_cases hmem : msUrl ∈ registry
      · right
        have hgone : msUrl ∉ (removeDeadMicroservices java instances registry).2 :=
          AList.lookup_eq_none.mp hnone
        refine ⟨hmem, hgone, ?_⟩
        by_cases haccepted : ∀ u ∈ registry.keys, java.uriCreate u
        · have hleft := sweep_of_accepted instances haccepted msUrl
          by_contra hlive
          exact hgone (hleft.mpr ⟨hmem, fun hdead => hlive (dead_iff_probedDead.mp hdead)⟩)
        · push Not at haccepted
          obtain ⟨u, hu, hrefused⟩ := haccepted
          rw [sweep_of_refused instances hu (Bool.eq_false_iff.mpr hrefused)] at hgone
          exact absurd hmem hgone
      · left
        rw [hnone, AList.lookup_eq_none.mpr hmem]
    · exact .inl hsame
  · intro e he
    rcases removeDeadMicroservices_ends java instances registry with hok | habort
    · rw [hok] at he
      cases he
    · rw [habort]
  · intro hnull
    rcases removeDeadMicroservices_ends java instances registry with hok | habort
    · rw [hok] at hnull
      cases hnull
    · rw [habort] at hnull
      cases hnull

end ResilientMesh
