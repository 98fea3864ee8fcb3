/-
ResilientMesh/RegistryLookup.lean

What a lookup by function depends on.  It asks every calculation instance for
its workload, of whatever function, and filters by function after that; so one
that does not report ends the lookup for all of them.

Main results: if all instances of the wanted function report, the lookup finds
exactly the entries of that function if and only if all the other calculation
instances report as well (`lookup_serves_iff`).  And if all would answer an
integer, every calculation entry is given the workload that its own instance
reported, nothing else changes, and the entries of the function are returned as
they then are, if and only if `URI.create` accepts the URL of every calculation
entry (`lookup_refreshes_iff`).
-/
import ResilientMesh.RegistryRuns

namespace ResilientMesh

variable {java : Java} {instances : Instances}

/-- The instance reports a workload for its `j`-th entry. -/
def Reports (java : Java) (instances : Instances) (j : ℕ) (msInfo : MicroserviceInfo) : Prop :=
  ∃ workload, getWorkload java instances j msInfo = .ok (some workload)

instance (java : Java) (instances : Instances) (j : ℕ) (msInfo : MicroserviceInfo) :
    Decidable (Reports java instances j msInfo) :=
  match h : getWorkload java instances j msInfo with
  | .ok (some workload) => isTrue ⟨workload, h⟩
  | .ok none => isFalse fun ⟨_, hw⟩ => by
    rw [h] at hw
    cases hw
  | .error _ => isFalse fun ⟨_, hw⟩ => by
    rw [h] at hw
    cases hw

/-- `"calculation".equalsIgnoreCase(msInfo.getMsType())`. -/
def isCalculationEntry (java : Java) (msInfo : MicroserviceInfo) : Bool :=
  equalsIgnoreCase java "calculation" msInfo.msType

/-- `function.equalsIgnoreCase(msInfo.getMsFunction())`. -/
def hasFunction (java : Java) (function : String) (msInfo : MicroserviceInfo) : Bool :=
  equalsIgnoreCase java function msInfo.msFunction

/-- Every calculation entry that `p` holds of reports its workload. -/
def AllReport (java : Java) (instances : Instances) (registry : Registry)
    (p : MicroserviceInfo → Bool) : Prop :=
  ∀ e ∈ registry.entries, ∀ i ∈ e.2.zipIdx,
    isCalculationEntry java i.1 → p i.1 → Reports java instances i.2 i.1

instance (java : Java) (instances : Instances) (registry : Registry) (p : MicroserviceInfo → Bool) :
    Decidable (AllReport java instances registry p) :=
  inferInstanceAs (Decidable (∀ e ∈ registry.entries, ∀ i ∈ e.2.zipIdx,
    isCalculationEntry java i.1 → p i.1 → Reports java instances i.2 i.1))

/-- The lookup ends well, with exactly the entries of the function. -/
def Finds (java : Java) (instances : Instances) (registry : Registry) (function : String) : Prop :=
  ∃ services,
    (getRegisteredServicesByFunction java instances registry (some function)).1 = .ok services ∧
      services.map MicroserviceInfo.service
        = (registry.values.filter (hasFunction java function)).map MicroserviceInfo.service

/-- The entries of the function decide: if they report, they are found. -/
def LookupServes (java : Java) (instances : Instances) (registry : Registry) (function : String) :
    Prop :=
  AllReport java instances registry (hasFunction java function) →
    Finds java instances registry function

/-! ### One entry -/

/-- An entry is refreshed exactly if it reports, or is no calculation. -/
theorem refreshWorkload_ok_iff {msUrl : String} {j : ℕ} {msInfo : MicroserviceInfo} :
    (∃ msInfo', refreshWorkload java instances msUrl j msInfo = .ok msInfo') ↔
      (isCalculationEntry java msInfo → Reports java instances j msInfo) := by
  unfold refreshWorkload isCalculationEntry Reports
  split_ifs with hcalc
  · cases getWorkload java instances j msInfo with
    | error e => simp [hcalc]
    | ok workload => cases workload <;> simp [hcalc]
  · simp [hcalc]

/-! ### The whole registry -/

/-- The services that a function selects do not depend on the workloads. -/
theorem services_filter {l l' : List MicroserviceInfo} (function : String)
    (h : l.map MicroserviceInfo.service = l'.map MicroserviceInfo.service) :
    (l.filter (hasFunction java function)).map MicroserviceInfo.service
      = (l'.filter (hasFunction java function)).map MicroserviceInfo.service := by
  have hcomp : hasFunction java function
      = (fun s => equalsIgnoreCase java function s.2.2.2.1) ∘ MicroserviceInfo.service := rfl
  rw [hcomp, ← List.filter_map, ← List.filter_map, h]

theorem edit_ends_iff (registry : Registry) :
    (registry.edit (refreshWorkload java instances)).2 = none ↔
      AllReport java instances registry fun _ => true := by
  rw [ListMap.edit_eq_none_iff]
  simp only [refreshWorkload_ok_iff, AllReport, forall_const]

/-- **A lookup ends well exactly if every calculation entry reports**, and then
it finds exactly the entries of its function. -/
theorem finds_iff (registry : Registry) (function : String) :
    Finds java instances registry function ↔ AllReport java instances registry fun _ => true := by
  rw [← edit_ends_iff]
  unfold Finds getRegisteredServicesByFunction
  cases hend : (registry.edit (refreshWorkload java instances)).2 with
  | some e => simp [hend]
  | none =>
    simp only [hend]
    refine iff_of_true ⟨_, rfl, ?_⟩ trivial
    apply services_filter function
    exact ListMap.map_values_edit (fun _ _ _ _ hv => refreshWorkload_service hv) registry

/-- **The entries of the function decide exactly if one of them does not
report, or every calculation entry does.** -/
theorem lookup_serves_iff (java : Java) (instances : Instances) (registry : Registry)
    (function : String) :
    LookupServes java instances registry function ↔
      ¬ AllReport java instances registry (hasFunction java function) ∨
        AllReport java instances registry fun _ => true := by
  rw [LookupServes, finds_iff]
  exact imp_iff_not_or

/-- An instance of another function that does not report: the calculation
service knows no `pow`. -/
def powFails : Instances :=
  ⟨fun _ _ => .ok (some "OK"), fun _ function _ =>
    if function = "pow" then .error .other else .ok (some 7)⟩

/-- One instance that adds, and one that is registered for `pow`. -/
def addAndPow : Registry :=
  ((∅ : Registry).push "http://a:8080" (sampleService "a")).push "http://b:8080"
    { sampleService "b" with msFunction := "pow" }

/-- The lookup of `add` fails for `pow`. -/
theorem lookup_fails_for_pow :
    ¬ ∀ (java : Java) (instances : Instances) (registry : Registry) (function : String),
      LookupServes java instances registry function := by
  intro h
  have hadd : AllReport sampleJava powFails addAndPow (hasFunction sampleJava "add") := by
    decide +kernel
  obtain ⟨services, hok, -⟩ := h sampleJava powFails addAndPow "add" hadd
  have hfails : (getRegisteredServicesByFunction sampleJava powFails addAndPow (some "add")).1
      = .error (.remote .other) := by
    decide +kernel
  rw [hfails] at hok
  cases hok

/-! ### What a lookup returns -/

/-- The entry with the workload that its own instance reported for its own
function, as the `j`-th of its URL. -/
def withReported (instances : Instances) (j : ℕ) (msInfo : MicroserviceInfo) : MicroserviceInfo :=
  match instances.workload (getUrlFromMsInfo msInfo) msInfo.msFunction j with
  | .ok (some workload) => { msInfo with workload := workload }
  | _ => msInfo

/-- The registry with the workloads reported: the calculation entries have
them, and everything else is as it was. -/
def refreshed (java : Java) (instances : Instances) (registry : Registry) : Registry :=
  registry.mapIdx fun _ j msInfo =>
    if isCalculationEntry java msInfo then withReported instances j msInfo else msInfo

/-- An entry that reports is refreshed with what it reports. -/
theorem refreshWorkload_eq {msUrl : String} {j : ℕ} {msInfo : MicroserviceInfo}
    (h : isCalculationEntry java msInfo → Reports java instances j msInfo) :
    refreshWorkload java instances msUrl j msInfo =
      .ok (if isCalculationEntry java msInfo then withReported instances j msInfo else msInfo) := by
  by_cases hcalc : isCalculationEntry java msInfo = true
  · obtain ⟨workload, hworkload⟩ := h hcalc
    have hremote : instances.workload (getUrlFromMsInfo msInfo) msInfo.msFunction j
        = .ok (some workload) := by
      rw [getWorkload] at hworkload
      split_ifs at hworkload
      split at hworkload
      · cases hworkload
      · rename_i answer hanswer
        cases hworkload
        exact hanswer
    have hequals : equalsIgnoreCase java "calculation" msInfo.msType = true := hcalc
    rw [if_pos hcalc, withReported, hremote, refreshWorkload, if_pos hequals, hworkload]
  · rw [if_neg hcalc]
    exact if_neg hcalc

/-- Every workload call that is made for a calculation entry would return an
integer. -/
def AllAnswer (java : Java) (instances : Instances) (registry : Registry) : Prop :=
  ∀ e ∈ registry.entries, ∀ i ∈ e.2.zipIdx, isCalculationEntry java i.1 →
    ∃ workload, instances.workload (getUrlFromMsInfo i.1) i.1.msFunction i.2 = .ok (some workload)

/-- The lookup returns the entries of its function, in the order of iteration,
as they are in the registry with the workloads reported; and that registry is
what it leaves. -/
def Refreshes (java : Java) (instances : Instances) (registry : Registry) (function : String) :
    Prop :=
  getRegisteredServicesByFunction java instances registry (some function) =
    (.ok ((refreshed java instances registry).values.filter (hasFunction java function)),
      refreshed java instances registry)

/-- An instance that would answer an integer reports exactly if its URL is
accepted. -/
theorem reports_iff {j : ℕ} {msInfo : MicroserviceInfo} {workload : ℤ}
    (h : instances.workload (getUrlFromMsInfo msInfo) msInfo.msFunction j = .ok (some workload)) :
    Reports java instances j msInfo ↔ java.uriCreate (getUrlFromMsInfo msInfo) := by
  rw [Reports, getWorkload, h]
  split_ifs with huri
  · exact iff_of_true ⟨workload, rfl⟩ huri
  · refine iff_of_false ?_ huri
    rintro ⟨_, hok⟩
    cases hok

/-- A lookup ends well as it should exactly if every calculation entry reports. -/
theorem refreshes_iff_allReport (registry : Registry) (function : String) :
    Refreshes java instances registry function ↔
      AllReport java instances registry fun _ => true := by
  constructor
  · intro h
    rw [Refreshes, getRegisteredServicesByFunction] at h
    rw [← edit_ends_iff]
    cases hend : (registry.edit (refreshWorkload java instances)).2 with
    | none => rfl
    | some e =>
      rw [hend] at h
      cases (Prod.mk.inj h).1
  · intro h
    have hedit : registry.edit (refreshWorkload java instances)
        = (refreshed java instances registry, none) := by
      apply ListMap.edit_eq
      intro e he p hp
      exact refreshWorkload_eq fun hcalc => h e he p hp hcalc rfl
    rw [Refreshes, getRegisteredServicesByFunction, hedit]
    rfl

/-- **If every workload call would return an integer, a lookup returns and
leaves what it should exactly if `URI.create` accepts the URL of every
calculation entry.** -/
theorem lookup_refreshes_iff {java : Java} {instances : Instances} {registry : Registry}
    (h : AllAnswer java instances registry) (function : String) :
    Refreshes java instances registry function ↔
      ∀ msInfo ∈ registry.values, isCalculationEntry java msInfo →
        java.uriCreate (getUrlFromMsInfo msInfo) := by
  rw [refreshes_iff_allReport]
  constructor
  · intro hreport msInfo hmem hcalc
    obtain ⟨e, he, hin⟩ := ListMap.mem_values.mp hmem
    obtain ⟨j, hj⟩ := List.mem_iff_getElem?.mp hin
    replace hj : (msInfo, j) ∈ e.2.zipIdx := List.mk_mem_zipIdx_iff_getElem?.mpr hj
    obtain ⟨workload, hworkload⟩ := h e he (msInfo, j) hj hcalc
    exact (reports_iff hworkload).mp (hreport e he (msInfo, j) hj hcalc rfl)
  · intro huri e he i hi hcalc _
    obtain ⟨workload, hworkload⟩ := h e he i hi hcalc
    have hmem : i.1 ∈ registry.values :=
      ListMap.mem_values.mpr ⟨e, he, List.fst_mem_of_mem_zipIdx hi⟩
    exact (reports_iff hworkload).mpr (huri i.1 hmem hcalc)

/-- Two instances that report 7, of which one adds. -/
theorem lookup_refreshes_iff_add :
    Refreshes sampleJava sampleInstances addAndPow "add" ↔
      ∀ msInfo ∈ addAndPow.values, isCalculationEntry sampleJava msInfo →
        sampleJava.uriCreate (getUrlFromMsInfo msInfo) :=
  lookup_refreshes_iff (fun _ _ _ _ _ => ⟨7, rfl⟩) "add"

/-- A service whose name has a space would report, and its URL is refused. -/
theorem lookup_fails_for_space :
    ¬ ∀ (java : Java) (instances : Instances) (registry : Registry) (function : String),
      AllAnswer java instances registry → Refreshes java instances registry function := by
  intro h
  have hrefreshes := h sampleJava sampleInstances
    ((∅ : Registry).push "http://a b:8080" (sampleService "a b")) "add" fun _ _ _ _ _ => ⟨7, rfl⟩
  have hfails : (getRegisteredServicesByFunction sampleJava sampleInstances
      ((∅ : Registry).push "http://a b:8080" (sampleService "a b")) (some "add")).1
        = .error .illegalArgument := by
    decide +kernel
  rw [Refreshes] at hrefreshes
  rw [hrefreshes] at hfails
  cases hfails

end ResilientMesh
