/-
ResilientMesh/RegistryRuns.lean

What holds of the registry in every run of calls.  Every entry is stored under
the URL of its own fields (`RegistryRun.keyed`), and no call but a registration
adds an entry or changes which service it is (`services_serveRegistry`).

Main results: no service is stored twice, and none is registered again, exactly
as long as no registration meets an entry of its service with another workload
(`noTwins_iff`); and a sweep removes every dead URL exactly if `URI.create`
accepts every key, or none is dead (`sweep_removes_dead_iff`).
-/
import ResilientMesh.Registry

namespace ResilientMesh

variable {java : Java} {registry : Registry}

/-! ### Keys -/

/-- The URL says nothing of the workload. -/
theorem getUrlFromMsInfo_congr {i j : MicroserviceInfo} (h : i.service = j.service) :
    getUrlFromMsInfo i = getUrlFromMsInfo j := by
  have hname : i.msName = j.msName := congrArg Prod.fst h
  have hport : i.msPort = j.msPort := congrArg (fun s => s.2.1) h
  rw [getUrlFromMsInfo, getUrlFromMsInfo, hname, hport]

/-- A lookup sets workloads, and nothing else. -/
theorem refreshWorkload_service {instances : Instances} {msUrl : String} {j : ℕ}
    {msInfo msInfo' : MicroserviceInfo}
    (h : refreshWorkload java instances msUrl j msInfo = .ok msInfo') :
    msInfo'.service = msInfo.service := by
  unfold refreshWorkload at h
  split at h
  · split at h
    · cases h
    · cases h
    · cases h
      rfl
  · cases h
    rfl

theorem keyed_edit {instances : Instances} (h : registry.Keyed getUrlFromMsInfo) :
    ListMap.Keyed getUrlFromMsInfo (registry.edit (refreshWorkload java instances)).1 :=
  h.edit fun _ _ _ _ hv => getUrlFromMsInfo_congr (refreshWorkload_service hv)

/-- A registered URL goes, and then the others. -/
theorem deregisterAll_cons {msUrl : String} (h : msUrl ∈ registry) (rest : List String) :
    deregisterAll (msUrl :: rest) registry = deregisterAll rest (registry.erase msUrl) := by
  obtain ⟨l, hl⟩ := Option.isSome_iff_exists.mp (AList.lookup_isSome.mpr h)
  rw [deregisterAll, deregisterMicroservice, hl]

/-- One that is not registered is where it ends. -/
theorem deregisterAll_cons_of_notMem {msUrl : String} (h : msUrl ∉ registry)
    (rest : List String) :
    deregisterAll (msUrl :: rest) registry = (.error .nullPointer, registry) := by
  rw [deregisterAll, deregisterMicroservice, AList.lookup_eq_none.mpr h]

/-- Deregistering leaves a part of the registry. -/
theorem entries_deregisterAll (urls : List String) (registry : Registry) :
    (deregisterAll urls registry).2.entries.Sublist registry.entries := by
  induction urls generalizing registry with
  | nil => exact List.Sublist.refl _
  | cons msUrl rest ih =>
    by_cases hmem : msUrl ∈ registry
    · rw [deregisterAll_cons hmem]
      exact (ih (registry.erase msUrl)).trans (List.kerase_sublist msUrl _)
    · rw [deregisterAll_cons_of_notMem hmem]

/-- A registration is refused, or stores the info under its URL. -/
theorem registerMicroservice_cases (registry : Registry) (msInfo : MicroserviceInfo) :
    (∃ e, registerMicroservice registry msInfo = (.error e, registry)) ∨
      registerMicroservice registry msInfo
        = (.ok (), registry.push (getUrlFromMsInfo msInfo) msInfo) := by
  unfold registerMicroservice
  dsimp only
  split
  · exact .inl ⟨_, rfl⟩
  · exact .inr rfl

theorem deregisterMicroservice_cases (registry : Registry) (msUrl : String) :
    (msUrl ∉ registry ∧ deregisterMicroservice registry msUrl = (.error .nullPointer, registry)) ∨
      (msUrl ∈ registry ∧
        deregisterMicroservice registry msUrl = (.ok (), registry.erase msUrl)) := by
  rw [deregisterMicroservice]
  cases hl : registry.lookup msUrl with
  | none => exact .inl ⟨AList.lookup_eq_none.mp hl, rfl⟩
  | some l => exact .inr ⟨AList.lookup_isSome.mp (by rw [hl]; rfl), rfl⟩

/-- Either way the URL is gone after it. -/
theorem deregisterMicroservice_registry (registry : Registry) (msUrl : String) :
    (deregisterMicroservice registry msUrl).2 = registry.erase msUrl := by
  rcases deregisterMicroservice_cases registry msUrl with ⟨hnot, heq⟩ | ⟨-, heq⟩
  · rw [heq, ListMap.erase_of_notMem hnot]
  · rw [heq]

theorem keyed_registerMicroservice (msInfo : MicroserviceInfo)
    (h : registry.Keyed getUrlFromMsInfo) :
    ListMap.Keyed getUrlFromMsInfo (registerMicroservice registry msInfo).2 := by
  rcases registerMicroservice_cases registry msInfo with ⟨e, heq⟩ | heq
  · rw [heq]
    exact h
  · rw [heq]
    exact h.push rfl

theorem keyed_deregisterMicroservice (msUrl : String) (h : registry.Keyed getUrlFromMsInfo) :
    ListMap.Keyed getUrlFromMsInfo (deregisterMicroservice registry msUrl).2 := by
  rw [deregisterMicroservice_registry]
  exact h.sublist (List.kerase_sublist msUrl _)

/-- **Every call keeps the entries under their own URLs.** -/
theorem keyed_serveRegistry (call : RegistryCall) (h : registry.Keyed getUrlFromMsInfo) :
    (serveRegistry java call registry).2.Keyed getUrlFromMsInfo := by
  cases call with
  | registerMicroservice msInfo => exact keyed_registerMicroservice msInfo h
  | getRegisteredServicesByFunction instances function =>
    cases function with
    | none => exact h
    | some function =>
      simp only [serveRegistry, getRegisteredServicesByFunction]
      split
      · exact keyed_edit h
      · exact keyed_edit h
  | getMetrics instances => exact h
  | removeDeadMicroservices instances =>
    simp only [serveRegistry, removeDeadMicroservices]
    split
    · exact h
    · exact h.sublist (entries_deregisterAll _ registry)

theorem RegistryRun.keyed {log : List RegistryEntry} (h : RegistryRun java log registry) :
    registry.Keyed getUrlFromMsInfo := by
  induction h with
  | init => exact ListMap.Keyed.empty _
  -- the call may find the entries in another order, which the keys do not mind
  | call call _ hperm _ ih => exact keyed_serveRegistry call (ih.perm hperm)

/-! ### Twins -/

/-- No service is stored twice. -/
def NoTwins (registry : Registry) : Prop := (registry.values.map MicroserviceInfo.service).Nodup

/-- The service is still registered, with whatever workload. -/
def Known (registry : Registry) (msInfo : MicroserviceInfo) : Prop :=
  ∃ i ∈ registry.values, i.service = msInfo.service

theorem eq_of_service {i j : MicroserviceInfo} (h : i.service = j.service)
    (hw : i.workload = j.workload) : i = j := by
  obtain ⟨n, p, d, f, t, w⟩ := i
  obtain ⟨n', p', d', f', t', w'⟩ := j
  simp only [MicroserviceInfo.service, Prod.mk.injEq] at h
  obtain ⟨rfl, rfl, rfl, rfl, rfl⟩ := h
  obtain rfl : w = w' := hw
  rfl

/-- The duplicate check finds exactly the objects that are equal in all six
fields. -/
theorem registerMicroservice_eq (h : registry.Keyed getUrlFromMsInfo) (msInfo : MicroserviceInfo) :
    registerMicroservice registry msInfo =
      if msInfo ∈ registry.values then (.error .serviceAlreadyRegistered, registry)
      else (.ok (), registry.push (getUrlFromMsInfo msInfo) msInfo) := by
  have hunder : msInfo ∈ registry.values ↔ msInfo ∈ registry.under (getUrlFromMsInfo msInfo) :=
    ⟨h.mem_under, ListMap.mem_values_of_mem_under⟩
  have hcheck : isServiceRegistered registry msInfo (getUrlFromMsInfo msInfo) =
      if msInfo ∈ registry.under (getUrlFromMsInfo msInfo) then .error .serviceAlreadyRegistered
      else .ok () := by
    unfold isServiceRegistered ListMap.under
    cases registry.lookup (getUrlFromMsInfo msInfo) with
    | none => simp
    | some l => simp
  rw [registerMicroservice, hcheck]
  simp only [hunder]
  split_ifs <;> rfl

/-- A registration is refused, or stores the info. -/
theorem serveRegistry_register (h : registry.Keyed getUrlFromMsInfo) (msInfo : MicroserviceInfo) :
    serveRegistry java (.registerMicroservice msInfo) registry =
      if msInfo ∈ registry.values then (.error .serviceAlreadyRegistered, registry)
      else (.ok .done, registry.push (getUrlFromMsInfo msInfo) msInfo) := by
  rw [serveRegistry, registerMicroservice_eq h]
  split_ifs <;> rfl

/-- **No other call adds a service.** -/
theorem services_serveRegistry {call : RegistryCall}
    (hcall : ∀ msInfo, call ≠ .registerMicroservice msInfo) :
    ((serveRegistry java call registry).2.values.map MicroserviceInfo.service).Sublist
      (registry.values.map MicroserviceInfo.service) := by
  have hedit : ∀ instances : Instances,
      (registry.edit (refreshWorkload java instances)).1.values.map MicroserviceInfo.service
        = registry.values.map MicroserviceInfo.service := fun instances =>
    ListMap.map_values_edit (fun _ _ _ _ hv => refreshWorkload_service hv) registry
  cases call with
  | registerMicroservice msInfo => exact absurd rfl (hcall msInfo)
  | getRegisteredServicesByFunction instances function =>
    cases function with
    | none => exact List.Sublist.refl _
    | some function =>
      simp only [serveRegistry, getRegisteredServicesByFunction]
      split
      · exact hedit instances ▸ List.Sublist.refl _
      · exact hedit instances ▸ List.Sublist.refl _
  | getMetrics instances => exact List.Sublist.refl _
  | removeDeadMicroservices instances =>
    simp only [serveRegistry, removeDeadMicroservices]
    split
    · exact List.Sublist.refl _
    · exact (ListMap.values_sublist (entries_deregisterAll _ registry)).map _

theorem NoTwins.perm {registry' : Registry} (h : NoTwins registry)
    (hperm : registry.entries.Perm registry'.entries) : NoTwins registry' :=
  ((ListMap.values_perm_of_entries hperm).map _).nodup_iff.mp h

/-- A push makes a twin exactly if the service is known. -/
theorem noTwins_push (msUrl : String) (msInfo : MicroserviceInfo) :
    NoTwins (registry.push msUrl msInfo) ↔ NoTwins registry ∧ ¬ Known registry msInfo := by
  have hperm := (registry.values_push msUrl msInfo).map MicroserviceInfo.service
  unfold NoTwins
  rw [hperm.nodup_iff, List.map_append, List.map_singleton, List.nodup_append]
  simp [Known]

/-! ### Replaying calls -/

/-- The entry of a call made on `registry`. -/
def RegistryCall.entry (java : Java) (call : RegistryCall) (registry : Registry) : RegistryEntry :=
  ⟨call, registry, (serveRegistry java call registry).1, (serveRegistry java call registry).2⟩

/-- The registry after calls one after another. -/
def serveAll (java : Java) : List RegistryCall → Registry → Registry
  | [], registry => registry
  | call :: rest, registry => serveAll java rest (serveRegistry java call registry).2

/-- What was recorded of them. -/
def logAll (java : Java) : List RegistryCall → Registry → List RegistryEntry
  | [], _ => []
  | call :: rest, registry =>
    call.entry java registry :: logAll java rest (serveRegistry java call registry).2

/-- Calls that leave the order of iteration alone are a run. -/
theorem run_serveAll (java : Java) (calls : List RegistryCall)
    (hvalid : ∀ call ∈ calls, call.Valid) :
    RegistryRun java (logAll java calls ∅) (serveAll java calls ∅) := by
  have key : ∀ calls : List RegistryCall, (∀ call ∈ calls, call.Valid) →
      ∀ log registry, RegistryRun java log registry →
        RegistryRun java (log ++ logAll java calls registry) (serveAll java calls registry) := by
    intro calls
    induction calls with
    | nil =>
      intro _ log registry h
      rw [logAll, List.append_nil]
      exact h
    | cons call rest ih =>
      intro hvalid log registry h
      rw [logAll, List.append_cons]
      exact ih (fun c hc => hvalid c (List.mem_cons_of_mem _ hc)) _ _
        (.call call h (List.Perm.refl _) (hvalid call List.mem_cons_self))
  exact key calls hvalid [] ∅ .init

/-- A library that accepts URIs without spaces, and compares letters as they
are. -/
def sampleJava : Java := ⟨fun s => ' ' ∉ s.toList, id⟩

/-- Every instance reports a workload of 7, and none is healthy. -/
def sampleInstances : Instances := ⟨fun _ _ => .error .resourceAccess, fun _ _ _ => .ok (some 7)⟩

def sampleService (msName : String) : MicroserviceInfo :=
  ⟨msName, 8080, "Addition of two numbers.", "add", "calculation", 0⟩

theorem sampleService_valid {msName : String} (h : 1 ≤ msName.length) :
    (sampleService msName).Valid where
  msName := h
  msPort := by
    show 1 ≤ 8080 ∧ 8080 ≤ 65535
    decide
  msDescription := by
    show 1 ≤ "Addition of two numbers.".length
    decide
  msFunction := by
    show 1 ≤ "add".length
    decide
  msType := by
    show 1 ≤ "calculation".length
    decide

theorem sampleCall_valid {msName : String} (h : 1 ≤ msName.length) :
    (RegistryCall.registerMicroservice (sampleService msName)).Valid :=
  sampleService_valid h

/-! ### Registering again -/

/-- Around one call there are no twins, and a service that is known is
refused. -/
structure RegistryEntry.Sound (e : RegistryEntry) : Prop where
  pre : NoTwins e.pre
  post : NoTwins e.post
  rejects : ∀ msInfo, e.call = .registerMicroservice msInfo → Known e.pre msInfo →
    e.answer = .error .serviceAlreadyRegistered

/-- If the call is a registration, every stored entry of the service has the
workload that is registered now. -/
def RegistryEntry.Agrees (e : RegistryEntry) : Prop :=
  ∀ msInfo, e.call = .registerMicroservice msInfo →
    ∀ i ∈ e.pre.values, i.service = msInfo.service → i.workload = msInfo.workload

/-- **One call, from a registry without twins.** -/
theorem sound_entry_iff (hkeyed : registry.Keyed getUrlFromMsInfo) (hno : NoTwins registry)
    (call : RegistryCall) :
    (call.entry java registry).Sound ↔ (call.entry java registry).Agrees := by
  by_cases hcall : ∃ msInfo, call = .registerMicroservice msInfo
  swap
  · -- no other call adds a service
    push Not at hcall
    refine ⟨fun _ msInfo h => absurd h (hcall msInfo), fun _ => ⟨hno, ?_, ?_⟩⟩
    · exact hno.sublist (services_serveRegistry hcall)
    · exact fun msInfo h => absurd h (hcall msInfo)
  obtain ⟨msInfo, rfl⟩ := hcall
  have hserve := @serveRegistry_register java _ hkeyed msInfo
  by_cases hmem : msInfo ∈ registry.values
  · -- the very object is there: refused, and alone
    rw [if_pos hmem] at hserve
    constructor
    · rintro - msInfo' heq i hi hservice
      cases heq
      rw [List.inj_on_of_nodup_map hno hi hmem hservice]
    · intro _
      refine ⟨hno, ?_, ?_⟩
      · rw [RegistryCall.entry, hserve]
        exact hno
      · intro _ _ _
        rw [RegistryCall.entry, hserve]
  · rw [if_neg hmem] at hserve
    have hpost : NoTwins (RegistryCall.entry java (.registerMicroservice msInfo) registry).post ↔
        ¬ Known registry msInfo := by
      rw [RegistryCall.entry, hserve]
      exact (noTwins_push _ _).trans (and_iff_right hno)
    constructor
    · rintro hsound msInfo' heq i hi hservice
      cases heq
      exact absurd ⟨i, hi, hservice⟩ (hpost.mp hsound.post)
    · intro hagrees
      -- an entry of the service would be the object itself
      have hunknown : ¬ Known registry msInfo := by
        rintro ⟨i, hi, hservice⟩
        exact hmem (eq_of_service hservice (hagrees msInfo rfl i hi hservice) ▸ hi)
      refine ⟨hno, hpost.mpr hunknown, ?_⟩
      intro msInfo' heq hknown
      cases heq
      exact absurd hknown hunknown

/-- **No service is ever stored twice, and none that is known is registered
again, exactly as long as every registration agrees** with what is stored of
its service: the duplicate check sees the workload as well. -/
theorem noTwins_iff {log : List RegistryEntry} (h : RegistryRun java log registry) :
    (NoTwins registry ∧ ∀ e ∈ log, e.Sound) ↔ ∀ e ∈ log, e.Agrees := by
  induction h with
  | init => simp [NoTwins, ListMap.values]
  | @call log registry pre call hrun hperm _ ih =>
    have hkeyed : pre.Keyed getUrlFromMsInfo := hrun.keyed.perm hperm
    constructor
    · rintro ⟨-, hsound⟩
      have hlast : (call.entry java pre).Sound := hsound _ (List.mem_append_right _ (by
        exact List.mem_singleton_self _))
      have hbefore : NoTwins registry := hlast.pre.perm hperm.symm
      have hagrees := ih.mp ⟨hbefore, fun e he => hsound e (List.mem_append_left _ he)⟩
      intro e he
      rcases List.mem_append.mp he with he | he
      · exact hagrees e he
      · rw [List.mem_singleton.mp he]
        exact (sound_entry_iff hkeyed hlast.pre call).mp hlast
    · intro hagrees
      obtain ⟨hno, hsound⟩ := ih.mpr fun e he => hagrees e (List.mem_append_left _ he)
      have hlast : (call.entry java pre).Sound :=
        (sound_entry_iff hkeyed (hno.perm hperm) call).mpr
          (hagrees _ (List.mem_append_right _ (List.mem_singleton_self _)))
      refine ⟨hlast.post, ?_⟩
      intro e he
      rcases List.mem_append.mp he with he | he
      · exact hsound e he
      · rw [List.mem_singleton.mp he]
        exact hlast

/-- A registration, a lookup and the same registration. -/
def registerTwice : List RegistryCall :=
  [.registerMicroservice (sampleService "a"),
    .getRegisteredServicesByFunction sampleInstances (some "add"),
    .registerMicroservice (sampleService "a")]

theorem registerTwice_valid : ∀ call ∈ registerTwice, call.Valid := by
  intro call hcall
  simp only [registerTwice, List.mem_cons, List.not_mem_nil, or_false] at hcall
  rcases hcall with rfl | rfl | rfl
  · exact sampleCall_valid (by decide)
  · trivial
  · exact sampleCall_valid (by decide)

theorem noTwins_iff_registerTwice :
    (NoTwins (serveAll sampleJava registerTwice ∅) ∧
        ∀ e ∈ logAll sampleJava registerTwice ∅, e.Sound) ↔
      ∀ e ∈ logAll sampleJava registerTwice ∅, e.Agrees :=
  noTwins_iff (run_serveAll sampleJava registerTwice registerTwice_valid)

/-- A lookup between two registrations, and the service is stored twice. -/
theorem twins_after_lookup :
    ¬ ∀ (java : Java) (log : List RegistryEntry) (registry : Registry),
      RegistryRun java log registry → NoTwins registry := by
  intro h
  have hno := h _ _ _ (run_serveAll sampleJava registerTwice registerTwice_valid)
  unfold NoTwins at hno
  revert hno
  decide +kernel

/-! ### The sweep -/

/-- In three attempts the instance does not answer OK. -/
def Dead (instances : Instances) (msUrl : String) : Prop :=
  retryWhenError instances msUrl ≠ some "OK"

instance (instances : Instances) : DecidablePred (Dead instances) :=
  fun _ => inferInstanceAs (Decidable (_ ≠ _))

/-- With every key accepted, the probe loop collects the dead ones. -/
theorem toRemove_of_accepted {instances : Instances} {urls : List String}
    (h : ∀ msUrl ∈ urls, java.uriCreate msUrl) :
    toRemove java instances urls = .ok (urls.filter fun msUrl => Dead instances msUrl) := by
  induction urls with
  | nil => rfl
  | cons msUrl rest ih =>
    have hcheck : checkHealth java instances msUrl = .ok (retryWhenError instances msUrl) := by
      rw [checkHealth, if_pos (h msUrl List.mem_cons_self)]
    rw [toRemove, hcheck, ih fun u hu => h u (List.mem_cons_of_mem _ hu)]
    by_cases hdead : Dead instances msUrl
    · rw [List.filter_cons_of_pos (by simpa using hdead)]
      exact if_pos hdead
    · rw [List.filter_cons_of_neg (by simpa using hdead)]
      exact if_neg hdead

/-- **One key that is refused ends the probe loop**, wherever it stands: its
exception is not the one that is caught. -/
theorem toRemove_of_refused {instances : Instances} {urls : List String} {msUrl : String}
    (hmem : msUrl ∈ urls) (h : java.uriCreate msUrl = false) :
    toRemove java instances urls = .error .illegalArgument := by
  induction urls with
  | nil => cases hmem
  | cons first rest ih =>
    by_cases hfirst : java.uriCreate first
    · -- the loop passes a key that is accepted, dead or not, and meets the other one later
      have hrest : msUrl ∈ rest := by
        rcases List.mem_cons.mp hmem with rfl | hrest
        · rw [h] at hfirst
          cases hfirst
        · exact hrest
      rw [toRemove, checkHealth, if_pos hfirst, ih hrest]
      exact ite_self _
    · rw [toRemove, checkHealth, if_neg hfirst]

/-- **Distinct keys are deregistered one after the other**: each is still there
when its turn comes. -/
theorem deregisterAll_eq {urls : List String} (hnodup : urls.Nodup)
    (hurls : ∀ msUrl ∈ urls, msUrl ∈ registry) :
    deregisterAll urls registry
      = (.ok (), urls.foldl (fun registry msUrl => registry.erase msUrl) registry) := by
  induction urls generalizing registry with
  | nil => rfl
  | cons first rest ih =>
    obtain ⟨hfirst, hnodup⟩ := List.nodup_cons.mp hnodup
    rw [deregisterAll_cons (hurls first List.mem_cons_self)]
    apply ih hnodup
    intro u hu
    refine AList.mem_erase.mpr ⟨?_, hurls u (List.mem_cons_of_mem _ hu)⟩
    rintro rfl
    exact hfirst hu

theorem mem_foldl_erase (urls : List String) (registry : Registry) (msUrl : String) :
    msUrl ∈ urls.foldl (fun registry msUrl => registry.erase msUrl) registry ↔
      msUrl ∈ registry ∧ msUrl ∉ urls := by
  induction urls generalizing registry with
  | nil => simp
  | cons first rest ih =>
    rw [List.foldl_cons, ih, AList.mem_erase, List.mem_cons]
    tauto

/-- Nothing else is deregistered. -/
theorem mem_deregisterAll {urls : List String} (hnodup : urls.Nodup)
    (hurls : ∀ msUrl ∈ urls, msUrl ∈ registry) (msUrl : String) :
    msUrl ∈ (deregisterAll urls registry).2 ↔ msUrl ∈ registry ∧ msUrl ∉ urls := by
  rw [deregisterAll_eq hnodup hurls]
  exact mem_foldl_erase urls registry msUrl

/-- If every key is accepted, the sweep leaves the keys that are not dead. -/
theorem sweep_of_accepted (instances : Instances)
    (h : ∀ msUrl ∈ registry.keys, java.uriCreate msUrl) (msUrl : String) :
    msUrl ∈ (removeDeadMicroservices java instances registry).2 ↔
      msUrl ∈ registry ∧ ¬ Dead instances msUrl := by
  rw [removeDeadMicroservices, toRemove_of_accepted h]
  show msUrl ∈ (deregisterAll _ registry).2 ↔ _
  rw [mem_deregisterAll (registry.keys_nodup.filter _)
    fun u hu => AList.mem_keys.mpr (List.mem_of_mem_filter hu)]
  rw [List.mem_filter, ← AList.mem_keys]
  simp only [decide_eq_true_eq]
  tauto

/-- If one is refused, the sweep leaves them all. -/
theorem sweep_of_refused (instances : Instances) {msUrl : String}
    (hmem : msUrl ∈ registry.keys) (h : java.uriCreate msUrl = false) :
    removeDeadMicroservices java instances registry = (.error .illegalArgument, registry) := by
  rw [removeDeadMicroservices, toRemove_of_refused hmem h]

/-- **The sweep removes every dead URL exactly if `URI.create` accepts every
key, or none is dead.** -/
theorem sweep_removes_dead_iff (java : Java) (instances : Instances) (registry : Registry) :
    (∀ msUrl ∈ registry, Dead instances msUrl →
        msUrl ∉ (removeDeadMicroservices java instances registry).2) ↔
      (∀ msUrl ∈ registry, java.uriCreate msUrl) ∨ ∀ msUrl ∈ registry, ¬ Dead instances msUrl := by
  constructor
  · intro hswept
    by_contra hnot
    push Not at hnot
    obtain ⟨⟨odd, hodd, hrefused⟩, msUrl, hmem, hdead⟩ := hnot
    have hsame := sweep_of_refused instances (AList.mem_keys.mp hodd)
      (Bool.eq_false_iff.mpr hrefused)
    refine hswept msUrl hmem hdead ?_
    rw [hsame]
    exact hmem
  · rintro (haccepted | halive) msUrl hmem hdead
    · have hleft := sweep_of_accepted instances
        (fun u hu => haccepted u (AList.mem_keys.mpr hu)) msUrl
      intro hstays
      exact (hleft.mp hstays).2 hdead
    · exact absurd hdead (halive msUrl hmem)

/-- One name with a space, and another service that is dead stays. -/
theorem dead_stays :
    ¬ ∀ (java : Java) (log : List RegistryEntry) (registry : Registry) (instances : Instances),
      RegistryRun java log registry → ∀ msUrl ∈ registry, Dead instances msUrl →
        msUrl ∉ (removeDeadMicroservices java instances registry).2 := by
  intro h
  have hrun := run_serveAll sampleJava
    [.registerMicroservice (sampleService "a b"), .registerMicroservice (sampleService "c")] (by
    intro call hcall
    simp only [List.mem_cons, List.not_mem_nil, or_false] at hcall
    rcases hcall with rfl | rfl
    · exact sampleCall_valid (by decide)
    · exact sampleCall_valid (by decide))
  have hgone := h _ _ _ sampleInstances hrun "http://c:8080"
  revert hgone
  decide +kernel

end ResilientMesh
