/-
ResilientMesh/Sweep.lean

The sweep while registrations go on.  The sweep iterates over the live key set,
probes one URL after the other, and removes those that failed when all have
been probed; a registration is one step between any two of these.  The
iterator is fail-fast: it compares the map's `modCount`, which every added and
every removed key advances, with the one it was made at.

Alone, the steps of a sweep are one sweep (`run_sweep`).
-/
import ResilientMesh.RegistryRuns
import ResilientMesh.Pool

namespace ResilientMesh

/-! ### The shared map -/

/-- `registeredMicroservices`, and how often its keys have changed. -/
structure SweepState where
  registry : Registry
  modCount : ℕ

inductive SweepException
  | concurrentModification
  | registry (e : RegistryException)
  deriving DecidableEq

/-- The atomic steps of registrations and sweeps. -/
inductive SweepOp
  | registerMicroservice (msInfo : MicroserviceInfo)
  | iterator
  | next (expectedModCount : ℕ)
  | checkHealth (msUrl : String)
  | deregisterMicroservice (msUrl : String)
  deriving DecidableEq

/-- An iterator is the keys in its order, and the `modCount` it expects; it
goes on if the map has no other one. -/
abbrev SweepOp.Ans : SweepOp → Type
  | registerMicroservice _ => Except RegistryException Unit
  | iterator => List String × ℕ
  | next _ => Bool
  | checkHealth _ => Except RegistryException (Option String)
  | deregisterMicroservice _ => Except RegistryException Unit

/-- The map after a step. -/
def SweepState.step (s : SweepState) : SweepOp → SweepState
  | .registerMicroservice msInfo =>
    -- replacing the list of a key there is does not count
    ⟨(registerMicroservice s.registry msInfo).2,
      if getUrlFromMsInfo msInfo ∈ s.registry then s.modCount else s.modCount + 1⟩
  | .deregisterMicroservice msUrl =>
    ⟨(deregisterMicroservice s.registry msUrl).2,
      if msUrl ∈ s.registry then s.modCount + 1 else s.modCount⟩
  | _ => s

/-- What a step may give back: the keys come in any order, and an instance may
be well at one time and not at another. -/
def SweepState.Answers (java : Java) (s : SweepState) : (op : SweepOp) → op.Ans → Prop
  | .registerMicroservice msInfo, a => a = (registerMicroservice s.registry msInfo).1
  | .iterator, a => a.1.Perm s.registry.keys ∧ a.2 = s.modCount
  | .next expectedModCount, a => a = decide (s.modCount = expectedModCount)
  | .checkHealth msUrl, a => ∃ instances, a = checkHealth java instances msUrl
  | .deregisterMicroservice msUrl, a => a = (deregisterMicroservice s.registry msUrl).1

def sweepServer (java : Java) : Server SweepState SweepOp SweepOp.Ans :=
  fun s op a s' => s.Answers java op a ∧ s' = s.step op

/-! ### Programs -/

abbrev SweepProg := Prog SweepOp SweepOp.Ans (Except SweepException Unit)

abbrev SweepEvent := Event SweepOp SweepOp.Ans

abbrev SweepEntry (ι : Type) := Entry ι SweepState SweepOp SweepOp.Ans

namespace Concurrent

/-- A registration is one step. -/
def registerMicroservice (msInfo : MicroserviceInfo) : SweepProg :=
  .call (.registerMicroservice msInfo) fun r => .ret (r.mapError .registry)

/-- The second loop of the sweep. -/
def removeLoop : List String → SweepProg
  | [] => .ret (.ok ())
  | msUrl :: rest =>
    .call (.deregisterMicroservice msUrl) fun r =>
      match r with
      | .error e => .ret (.error (.registry e))
      | .ok () => removeLoop rest

/-- The first loop of the sweep, with the URLs still to come and those to
remove. -/
def probeLoop (expectedModCount : ℕ) : List String → List String → SweepProg
  | [], toRemove => removeLoop toRemove
  | msUrl :: rest, toRemove =>
    .call (.next expectedModCount) fun unmodified =>
      match unmodified with
      | false => .ret (.error .concurrentModification)
      | true =>
        .call (.checkHealth msUrl) fun r =>
          match r with
          | .ok answer =>
            if answer ≠ some "OK" then probeLoop expectedModCount rest (toRemove ++ [msUrl])
            else probeLoop expectedModCount rest toRemove
          | .error (.remote .resourceAccess) =>
            probeLoop expectedModCount rest (toRemove ++ [msUrl])
          | .error e => .ret (.error (.registry e))

def removeDeadMicroservices : SweepProg :=
  .call .iterator fun keys => probeLoop keys.2 keys.1 []

end Concurrent

/-- Who works on the registry. -/
inductive RegistryClient
  | register (msInfo : MicroserviceInfo)
  | sweep

def RegistryClient.prog : RegistryClient → SweepProg
  | register msInfo => Concurrent.registerMicroservice msInfo
  | sweep => Concurrent.removeDeadMicroservices

/-- Everyone is about to begin. -/
def sweepStart {ι : Type} (registry : Registry) (clients : ι → RegistryClient) :
    Pool ι SweepState SweepOp SweepOp.Ans (Except SweepException Unit) :=
  ⟨⟨registry, 0⟩, fun i => (clients i).prog⟩

/-! ### One sweep alone -/

/-- Keys in the order of the map, and instances that do not change. -/
def sweepServe (java : Java) (instances : Instances) (s : SweepState) :
    (op : SweepOp) → op.Ans × SweepState
  | .registerMicroservice msInfo =>
    ((registerMicroservice s.registry msInfo).1, s.step (.registerMicroservice msInfo))
  | .iterator => ((s.registry.keys, s.modCount), s)
  | .next expectedModCount => (decide (s.modCount = expectedModCount), s)
  | .checkHealth msUrl => (checkHealth java instances msUrl, s)
  | .deregisterMicroservice msUrl =>
    ((deregisterMicroservice s.registry msUrl).1, s.step (.deregisterMicroservice msUrl))

theorem sweepServe_answers (java : Java) (instances : Instances) (s : SweepState) (op : SweepOp) :
    sweepServer java s op (sweepServe java instances s op).1
      (sweepServe java instances s op).2 := by
  cases op with
  | registerMicroservice msInfo => exact ⟨rfl, rfl⟩
  | iterator => exact ⟨⟨List.Perm.refl _, rfl⟩, rfl⟩
  | next expectedModCount => exact ⟨rfl, rfl⟩
  | checkHealth msUrl => exact ⟨⟨instances, rfl⟩, rfl⟩
  | deregisterMicroservice msUrl => exact ⟨rfl, rfl⟩

/-- A played run is a run. -/
theorem run_sweepServe {ι : Type} [DecidableEq ι] (java : Java) (instances : Instances)
    (schedule : List ι) (c : Pool ι SweepState SweepOp SweepOp.Ans (Except SweepException Unit)) :
    Pool.Run (sweepServer java) c (Pool.play (sweepServe java instances) schedule c).1
      (Pool.play (sweepServe java instances) schedule c).2 := by
  apply Pool.Run.mono _ (Pool.run_play _ schedule c)
  intro s op a s' hserve
  obtain ⟨rfl, rfl⟩ := Prod.mk.inj hserve
  exact sweepServe_answers java instances s op

/-- The outcome of a sweep, and the registry it leaves. -/
def sweepResult (r : Except RegistryException Unit × Registry) :
    Except SweepException Unit × Registry :=
  (r.1.mapError .registry, r.2)

/-- The same, of a program. -/
def progResult (java : Java) (instances : Instances) (p : SweepProg) (s : SweepState) :
    Except SweepException Unit × Registry :=
  ((p.run (sweepServe java instances) s).1, (p.run (sweepServe java instances) s).2.registry)

variable {java : Java} {instances : Instances}

theorem run_removeLoop (urls : List String) (s : SweepState) :
    progResult java instances (Concurrent.removeLoop urls) s
      = sweepResult (deregisterAll urls s.registry) := by
  induction urls generalizing s with
  | nil => rfl
  | cons msUrl rest ih =>
    have hnext := ih (s.step (.deregisterMicroservice msUrl))
    have hreg : (s.step (.deregisterMicroservice msUrl)).registry
        = (deregisterMicroservice s.registry msUrl).2 := rfl
    rw [progResult] at hnext ⊢
    rw [Concurrent.removeLoop, Prog.run_call, deregisterAll]
    dsimp only [sweepServe]
    rw [hreg] at hnext
    rcases hserve : deregisterMicroservice s.registry msUrl with ⟨_ | _, registry⟩
    · show (_, (s.step (.deregisterMicroservice msUrl)).registry) = _
      rw [hreg, hserve]
      rfl
    · rw [hserve] at hnext
      exact hnext

theorem run_probeLoop (urls dead : List String) (s : SweepState) :
    progResult java instances (Concurrent.probeLoop s.modCount urls dead) s
      = match toRemove java instances urls with
        | .error e => sweepResult (.error e, s.registry)
        | .ok urls => sweepResult (deregisterAll (dead ++ urls) s.registry) := by
  induction urls generalizing dead with
  | nil =>
    show _ = sweepResult (deregisterAll (dead ++ []) s.registry)
    rw [List.append_nil]
    exact run_removeLoop dead s
  | cons msUrl rest ih =>
    have hdead : progResult java instances
        (Concurrent.probeLoop s.modCount rest (dead ++ [msUrl])) s
          = match (toRemove java instances rest).map fun urls => msUrl :: urls with
            | .error e => sweepResult (.error e, s.registry)
            | .ok urls => sweepResult (deregisterAll (dead ++ urls) s.registry) := by
      rw [ih]
      cases toRemove java instances rest with
      | error e => rfl
      | ok urls =>
        show sweepResult (deregisterAll (dead ++ [msUrl] ++ urls) s.registry)
          = sweepResult (deregisterAll (dead ++ msUrl :: urls) s.registry)
        rw [List.append_assoc, List.singleton_append]
    have halive := ih dead
    rw [progResult] at hdead halive ⊢
    rw [Concurrent.probeLoop, Prog.run_call, toRemove]
    dsimp only [sweepServe]
    rw [decide_eq_true rfl]
    dsimp only [Prog.run_call, sweepServe]
    cases checkHealth java instances msUrl with
    | ok answer =>
      dsimp only
      split_ifs
      · exact hdead
      · exact halive
    | error e =>
      rcases e with _ | _ | _ | _ | _
      · rfl
      · rfl
      · rfl
      · exact hdead
      · rfl

/-- **Alone, the steps of a sweep are one sweep.** -/
theorem run_sweep (s : SweepState) :
    progResult java instances Concurrent.removeDeadMicroservices s
      = sweepResult (removeDeadMicroservices java instances s.registry) := by
  apply (run_probeLoop s.registry.keys [] s).trans
  rw [removeDeadMicroservices]
  cases toRemove java instances s.registry.keys <;> rfl

end ResilientMesh
