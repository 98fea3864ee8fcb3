/-
ResilientMesh/RegistryHistory.lean

The registry and the calls it came from.  What is stored under a URL is, in
order, what was accepted for it since it was last removed
(`under_serveRegistry` for one call); only the sweep removes
(`removes_serveRegistry`), and nothing else a call does touches a key or a list,
whether it ends well or throws (`shape_of_keeps`).

Main result: `registry_of_history`.
-/
import ResilientMesh.RegistryRuns

namespace ResilientMesh

variable {java : Java} {registry : Registry}

/-! ### What a call is taken to have done -/

abbrev Service := String × ℕ × String × String × String

namespace RegistryEntry

/-- The service that the call registered under the URL, if it did. -/
def accepted (msUrl : String) (e : RegistryEntry) : List Service :=
  match e.call, e.answer with
  | .registerMicroservice msInfo, .ok _ =>
    if getUrlFromMsInfo msInfo = msUrl then [msInfo.service] else []
  | _, _ => []

/-- The call removed the URL. -/
def Removes (msUrl : String) (e : RegistryEntry) : Prop := msUrl ∈ e.pre ∧ msUrl ∉ e.post

instance (msUrl : String) : DecidablePred (Removes msUrl) :=
  fun _ => inferInstanceAs (Decidable (_ ∧ _))

/-- A rejected registration, a lookup, or a call for the metrics. -/
def Keeps (e : RegistryEntry) : Prop :=
  match e.call with
  | .registerMicroservice _ => ∃ exception, e.answer = .error exception
  | .getRegisteredServicesByFunction _ _ => True
  | .getMetrics _ => True
  | .removeDeadMicroservices _ => False

end RegistryEntry

/-- What was registered under the URL since it was last removed. -/
def acceptedSince (msUrl : String) (log : List RegistryEntry) : List Service :=
  (log.rtakeWhile fun e => !decide (e.Removes msUrl)).flatMap (RegistryEntry.accepted msUrl)

theorem acceptedSince_concat (msUrl : String) (log : List RegistryEntry) (e : RegistryEntry) :
    acceptedSince msUrl (log ++ [e])
      = if e.Removes msUrl then [] else acceptedSince msUrl log ++ e.accepted msUrl := by
  rw [acceptedSince]
  rw [List.rtakeWhile_concat]
  by_cases h : e.Removes msUrl
  · rw [if_pos h, decide_eq_true h]
    rfl
  · rw [if_neg h, decide_eq_false h]
    exact List.flatMap_append.trans (congrArg _ (List.append_nil _))

/-! ### One call -/

/-- What is registered shows in the services under its URL. -/
theorem services_under_push (msInfo : MicroserviceInfo) (msUrl : String) :
    ((registry.push (getUrlFromMsInfo msInfo) msInfo).under msUrl).map MicroserviceInfo.service
      = (registry.under msUrl).map MicroserviceInfo.service
        ++ if getUrlFromMsInfo msInfo = msUrl then [msInfo.service] else [] := by
  rw [ListMap.under_push, List.map_append]
  split_ifs <;> rfl

/-- A URL is deregistered with all its services, or left as it is. -/
theorem lookup_deregisterAll (urls : List String) (registry : Registry) (msUrl : String) :
    (deregisterAll urls registry).2.lookup msUrl = none ∨
      (deregisterAll urls registry).2.lookup msUrl = registry.lookup msUrl := by
  induction urls generalizing registry with
  | nil => exact .inr rfl
  | cons first rest ih =>
    by_cases hmem : first ∈ registry
    · rw [deregisterAll_cons hmem]
      rcases ih (registry.erase first) with hnone | hsame
      · exact .inl hnone
      · by_cases hfirst : msUrl = first
        · subst hfirst
          exact .inl (hsame.trans (AList.lookup_erase msUrl registry))
        · exact .inr (hsame.trans (AList.lookup_erase_ne hfirst))
    · rw [deregisterAll_cons_of_notMem hmem]
      exact .inr rfl

theorem lookup_removeDeadMicroservices (instances : Instances) (registry : Registry)
    (msUrl : String) :
    (removeDeadMicroservices java instances registry).2.lookup msUrl = none ∨
      (removeDeadMicroservices java instances registry).2.lookup msUrl = registry.lookup msUrl := by
  rw [removeDeadMicroservices]
  split
  · exact .inr rfl
  · exact lookup_deregisterAll _ registry msUrl

/-- A rejected registration, a lookup and a call for the metrics keep the keys,
and the services under them. -/
theorem shape_of_keeps (hkeyed : registry.Keyed getUrlFromMsInfo) {call : RegistryCall}
    (h : (call.entry java registry).Keeps) :
    (serveRegistry java call registry).2.shape MicroserviceInfo.service
      = registry.shape MicroserviceInfo.service := by
  have hedit : ∀ instances : Instances,
      (registry.edit (refreshWorkload java instances)).1.shape MicroserviceInfo.service
        = registry.shape MicroserviceInfo.service := fun instances =>
    ListMap.shape_edit (fun _ _ _ _ hv => refreshWorkload_service hv) registry
  cases call with
  | registerMicroservice msInfo =>
    obtain ⟨exception, herr⟩ := h
    change (serveRegistry java (.registerMicroservice msInfo) registry).1 = _ at herr
    rw [serveRegistry_register hkeyed] at herr ⊢
    split_ifs at herr ⊢
    rfl
  | getRegisteredServicesByFunction instances function =>
    cases function with
    | none => rfl
    | some function =>
      -- the edit stays, whether the lookup fails in it or not
      simp only [serveRegistry, getRegisteredServicesByFunction]
      split
      · exact hedit instances
      · exact hedit instances
  | getMetrics instances => rfl
  | removeDeadMicroservices instances => exact h.elim

theorem accepted_of_keeps {e : RegistryEntry} (h : e.Keeps) (msUrl : String) :
    e.accepted msUrl = [] := by
  rw [RegistryEntry.Keeps] at h
  rw [RegistryEntry.accepted]
  split
  · rename_i hcall hanswer
    rw [hcall] at h
    obtain ⟨exception, herr⟩ := h
    rw [hanswer] at herr
    cases herr
  · rfl

/-- What keeps the services keeps them under every URL. -/
theorem under_of_keeps (hkeyed : registry.Keyed getUrlFromMsInfo) {call : RegistryCall}
    (hkeeps : (call.entry java registry).Keeps) (msUrl : String) :
    ¬ (call.entry java registry).Removes msUrl ∧
      ((serveRegistry java call registry).2.under msUrl).map MicroserviceInfo.service
        = (registry.under msUrl).map MicroserviceInfo.service := by
  have hshape := shape_of_keeps hkeyed hkeeps
  refine ⟨?_, by rw [ListMap.map_under, hshape, ← ListMap.map_under]⟩
  rintro ⟨hpre, hpost⟩
  apply hpost
  rw [ListMap.mem_iff_shape MicroserviceInfo.service] at hpre ⊢
  exact hshape ▸ hpre

/-- An accepted registration removes nothing. -/
theorem not_removes_register {msInfo : MicroserviceInfo} (msUrl : String)
    (hserve : serveRegistry java (.registerMicroservice msInfo) registry
      = (.ok .done, registry.push (getUrlFromMsInfo msInfo) msInfo)) :
    ¬ (RegistryCall.entry java (.registerMicroservice msInfo) registry).Removes msUrl := by
  rintro ⟨hpre, hpost⟩
  apply hpost
  show msUrl ∈ (serveRegistry java (.registerMicroservice msInfo) registry).2
  rw [hserve]
  exact ListMap.mem_push.mpr (.inr hpre)

/-- A sweep accepts nothing, and leaves what it does not remove. -/
theorem under_removeDeadMicroservices (instances : Instances) {msUrl : String}
    (h : ¬ (RegistryCall.entry java (.removeDeadMicroservices instances) registry).Removes msUrl) :
    (removeDeadMicroservices java instances registry).2.under msUrl = registry.under msUrl := by
  rcases lookup_removeDeadMicroservices instances registry msUrl with hnone | hsame
  · -- not there after the sweep, and so not before it
    have hpost : msUrl ∉ (removeDeadMicroservices java instances registry).2 :=
      AList.lookup_eq_none.mp hnone
    have hpre : msUrl ∉ registry := fun hpre => h ⟨hpre, hpost⟩
    rw [ListMap.under_of_not_mem hpre, ListMap.under_of_not_mem hpost]
  · exact congrArg (fun o => o.getD []) hsame

/-- **Only a sweep removes a URL.** -/
theorem removes_serveRegistry (hkeyed : registry.Keyed getUrlFromMsInfo) {call : RegistryCall}
    {msUrl : String} (h : (call.entry java registry).Removes msUrl) :
    ∃ instances, call = .removeDeadMicroservices instances := by
  have hnot : ¬ (call.entry java registry).Keeps := fun hkeeps =>
    (under_of_keeps hkeyed hkeeps msUrl).1 h
  cases call with
  | registerMicroservice msInfo =>
    have hserve := @serveRegistry_register java _ hkeyed msInfo
    by_cases hmem : msInfo ∈ registry.values
    · rw [if_pos hmem] at hserve
      refine absurd ⟨.serviceAlreadyRegistered, ?_⟩ hnot
      show (serveRegistry java (.registerMicroservice msInfo) registry).1 = _
      rw [hserve]
    · rw [if_neg hmem] at hserve
      exact absurd h (not_removes_register msUrl hserve)
  | getRegisteredServicesByFunction instances function => exact absurd trivial hnot
  | getMetrics instances => exact absurd trivial hnot
  | removeDeadMicroservices instances => exact ⟨instances, rfl⟩

/-- **An accepted registration touches its own URL only.** -/
theorem lookup_register (hkeyed : registry.Keyed getUrlFromMsInfo) {msInfo : MicroserviceInfo}
    {answer : RegistryAnswer}
    (h : (serveRegistry java (.registerMicroservice msInfo) registry).1 = .ok answer)
    {msUrl : String} (hne : msUrl ≠ getUrlFromMsInfo msInfo) :
    (serveRegistry java (.registerMicroservice msInfo) registry).2.lookup msUrl
      = registry.lookup msUrl := by
  rw [serveRegistry_register hkeyed] at h ⊢
  split_ifs at h ⊢
  exact ListMap.lookup_push_ne hne

/-- **What one call does under a URL.** -/
theorem under_serveRegistry (hkeyed : registry.Keyed getUrlFromMsInfo) (call : RegistryCall)
    (msUrl : String) :
    ((serveRegistry java call registry).2.under msUrl).map MicroserviceInfo.service
      = if (call.entry java registry).Removes msUrl then []
        else (registry.under msUrl).map MicroserviceInfo.service
          ++ (call.entry java registry).accepted msUrl := by
  by_cases hkeeps : (call.entry java registry).Keeps
  · obtain ⟨hnot, hsame⟩ := under_of_keeps hkeyed hkeeps msUrl
    rw [if_neg hnot, accepted_of_keeps hkeeps, List.append_nil, hsame]
  cases call with
  | registerMicroservice msInfo =>
    have hserve := @serveRegistry_register java _ hkeyed msInfo
    by_cases hmem : msInfo ∈ registry.values
    · rw [if_pos hmem] at hserve
      refine absurd ⟨.serviceAlreadyRegistered, ?_⟩ hkeeps
      show (serveRegistry java (.registerMicroservice msInfo) registry).1 = _
      rw [hserve]
    · rw [if_neg hmem] at hserve
      have haccepted : (RegistryCall.entry java (.registerMicroservice msInfo) registry).accepted
          msUrl = if getUrlFromMsInfo msInfo = msUrl then [msInfo.service] else [] := by
        unfold RegistryCall.entry RegistryEntry.accepted
        rw [hserve]
      rw [if_neg (not_removes_register msUrl hserve), haccepted, hserve]
      exact services_under_push msInfo msUrl
  | getRegisteredServicesByFunction instances function => exact absurd trivial hkeeps
  | getMetrics instances => exact absurd trivial hkeeps
  | removeDeadMicroservices instances =>
    have haccepted :
        (RegistryCall.entry java (.removeDeadMicroservices instances) registry).accepted
        msUrl = [] := rfl
    rw [haccepted, List.append_nil]
    show ((removeDeadMicroservices java instances registry).2.under msUrl).map _ = _
    split_ifs with hremoves
    · have hgone : msUrl ∉ (removeDeadMicroservices java instances registry).2 := hremoves.2
      rw [ListMap.under_of_not_mem hgone, List.map_nil]
    · rw [under_removeDeadMicroservices instances hremoves]

/-- No call leaves an empty list under a key. -/
theorem noEmpty_serveRegistry (hkeyed : registry.Keyed getUrlFromMsInfo) (call : RegistryCall)
    (h : registry.NoEmpty) : (serveRegistry java call registry).2.NoEmpty := by
  by_cases hkeeps : (call.entry java registry).Keeps
  · rw [ListMap.noEmpty_iff_shape MicroserviceInfo.service, shape_of_keeps hkeyed hkeeps,
      ← ListMap.noEmpty_iff_shape]
    exact h
  cases call with
  | registerMicroservice msInfo =>
    rw [serveRegistry_register hkeyed]
    split_ifs
    · exact h
    · exact h.push _ msInfo
  | getRegisteredServicesByFunction instances function => exact absurd trivial hkeeps
  | getMetrics instances => exact absurd trivial hkeeps
  | removeDeadMicroservices instances =>
    show (removeDeadMicroservices java instances registry).2.NoEmpty
    rw [removeDeadMicroservices]
    split
    · exact h
    · exact h.sublist (entries_deregisterAll _ registry)

/-! ### Every run -/

/-- **The registry is what its history accounts for.**  Under every URL stand,
in order, the services accepted for it since it was last removed, the workload
aside; every entry stands under the URL of its own fields; no list is empty; and
a rejected registration, a lookup and a call for the metrics have kept the keys
and the services under them.  Only sweeps have removed a URL, and an accepted
registration has touched no URL but its own. -/
theorem registry_of_history {log : List RegistryEntry} (h : RegistryRun java log registry) :
    (∀ msUrl, (registry.under msUrl).map MicroserviceInfo.service = acceptedSince msUrl log) ∧
      registry.Keyed getUrlFromMsInfo ∧ registry.NoEmpty ∧
      (∀ e ∈ log, e.Keeps →
        e.post.shape MicroserviceInfo.service = e.pre.shape MicroserviceInfo.service) ∧
      (∀ e ∈ log, ∀ msUrl, e.Removes msUrl →
        ∃ instances, e.call = .removeDeadMicroservices instances) ∧
      ∀ e ∈ log, ∀ msInfo answer, e.call = .registerMicroservice msInfo → e.answer = .ok answer →
        ∀ msUrl, msUrl ≠ getUrlFromMsInfo msInfo → e.post.lookup msUrl = e.pre.lookup msUrl := by
  induction h with
  | init =>
    exact ⟨fun _ => rfl, ListMap.Keyed.empty _, ListMap.NoEmpty.empty, by simp, by simp, by simp⟩
  | @call log registry pre call hrun hperm _ ih =>
    obtain ⟨hunder, hkeyed, hempty, hkept, hremoves, hothers⟩ := ih
    have hkeyed' : pre.Keyed getUrlFromMsInfo := hkeyed.perm hperm
    refine ⟨?_, keyed_serveRegistry call hkeyed', noEmpty_serveRegistry hkeyed' call
      (hempty.perm hperm), ?_, ?_, ?_⟩
    · intro msUrl
      rw [under_serveRegistry hkeyed', acceptedSince_concat, ← hunder msUrl,
        ListMap.under_perm hperm]
      rfl
    · intro e he hkeeps
      rcases List.mem_append.mp he with he | he
      · exact hkept e he hkeeps
      · obtain rfl := List.mem_singleton.mp he
        exact shape_of_keeps hkeyed' hkeeps
    · intro e he msUrl hremoved
      rcases List.mem_append.mp he with he | he
      · exact hremoves e he msUrl hremoved
      · obtain rfl := List.mem_singleton.mp he
        exact removes_serveRegistry hkeyed' hremoved
    · intro e he msInfo answer hcall hanswer msUrl hne
      rcases List.mem_append.mp he with he | he
      · exact hothers e he msInfo answer hcall hanswer msUrl hne
      · obtain rfl := List.mem_singleton.mp he
        obtain rfl : call = .registerMicroservice msInfo := hcall
        have haccepted : (serveRegistry java (.registerMicroservice msInfo) pre).1 = .ok answer :=
          hanswer
        exact lookup_register hkeyed' haccepted hne

/-- Two services, of which one is registered twice, a sweep that finds both dead,
and one of them again. -/
def registerAndSweep : List RegistryCall :=
  registerTwice ++ [.registerMicroservice (sampleService "c"),
    .removeDeadMicroservices sampleInstances, .registerMicroservice (sampleService "c")]

theorem registerAndSweep_valid : ∀ call ∈ registerAndSweep, call.Valid := by
  intro call hcall
  rcases List.mem_append.mp hcall with hcall | hcall
  · exact registerTwice_valid call hcall
  simp only [List.mem_cons, List.not_mem_nil, or_false] at hcall
  rcases hcall with rfl | rfl | rfl
  · exact sampleCall_valid (by decide)
  · trivial
  · exact sampleCall_valid (by decide)

theorem registry_of_history_registerAndSweep :
    let log := logAll sampleJava registerAndSweep ∅
    let registry := serveAll sampleJava registerAndSweep ∅
    (∃ e ∈ log, e.Removes "http://a:8080") ∧ registry.keys = ["http://c:8080"] ∧
      (∀ msUrl, (registry.under msUrl).map MicroserviceInfo.service = acceptedSince msUrl log) ∧
      registry.Keyed getUrlFromMsInfo ∧ registry.NoEmpty ∧
      (∀ e ∈ log, e.Keeps →
        e.post.shape MicroserviceInfo.service = e.pre.shape MicroserviceInfo.service) ∧
      (∀ e ∈ log, ∀ msUrl, e.Removes msUrl →
        ∃ instances, e.call = .removeDeadMicroservices instances) ∧
      ∀ e ∈ log, ∀ msInfo answer, e.call = .registerMicroservice msInfo → e.answer = .ok answer →
        ∀ msUrl, msUrl ≠ getUrlFromMsInfo msInfo → e.post.lookup msUrl = e.pre.lookup msUrl :=
  ⟨by decide +kernel, by decide +kernel,
    registry_of_history (run_serveAll sampleJava registerAndSweep registerAndSweep_valid)⟩

end ResilientMesh
