/-
ResilientMesh/SweepIteration.lean

One sweep among registrations, with keys that are all valid URIs.  The
iterator over the live key set fails at its next key once another key has been
added; then the sweep ends, and removes nothing.

Main result: the sweep completes, and removes every URL that was registered
when it began and failed its probe, exactly if no registration adds a key
between its beginning and its last probe (`sweep_completes_iff`).
-/
import ResilientMesh.SweepRaces

namespace ResilientMesh

variable {ι : Type} [DecidableEq ι] {java : Java} {registry : Registry}
  {requests : ι → MicroserviceInfo} {log : List (SweepEntry (Option ι))}
  {c : Pool (Option ι) SweepState SweepOp SweepOp.Ans (Except SweepException Unit)}

/-- One sweep, `none`, and any registrations. -/
def oneSweep (requests : ι → MicroserviceInfo) : Option ι → RegistryClient
  | none => .sweep
  | some i => .register (requests i)

/-- The sweep has ended well, and what was registered when it began and failed
its probe has been removed. -/
def SweepCompletes (log : List (SweepEntry (Option ι)))
    (c : Pool (Option ι) SweepState SweepOp SweepOp.Ans (Except SweepException Unit)) : Prop :=
  c.prog none = .ret (.ok ()) ∧ ∀ it ∈ log, it.op = .iterator → ∀ msUrl ∈ it.pre.registry,
    (∃ b ∈ log, isFailingProbe msUrl b.event) → ∃ d ∈ log, isRemoval msUrl d.event

/-- A registration of a URL that has no key yet. -/
def AddsKey (e : SweepEntry (Option ι)) : Prop :=
  ∃ msInfo, e.op = .registerMicroservice msInfo ∧ getUrlFromMsInfo msInfo ∉ e.pre.registry

/-- No key is added while the iterator still has a key to give. -/
def NoneAdded (log : List (SweepEntry (Option ι))) : Prop :=
  ∀ l₁ it l₂ n l₃, log = l₁ ++ it :: l₂ ++ n :: l₃ → it.op = .iterator →
    (∃ expectedModCount, n.op = .next expectedModCount) → ∀ r ∈ l₂, ¬ AddsKey r

/-! ### The `modCount` along a run -/

/-- A step changes the `modCount` only if it adds a key or removes one. -/
theorem modCount_step {s : SweepState} {op : SweepOp} {a : op.Ans} (h : s.Answers java op a) :
    (s.step op).modCount = s.modCount ∨ (s.step op).modCount = s.modCount + 1 ∧
      ((∃ msInfo, op = .registerMicroservice msInfo ∧ getUrlFromMsInfo msInfo ∉ s.registry) ∨
        ∃ msUrl, isRemoval msUrl ⟨op, a⟩) := by
  cases op with
  | registerMicroservice msInfo =>
    by_cases hmem : getUrlFromMsInfo msInfo ∈ s.registry
    · exact .inl (if_pos hmem)
    · exact .inr ⟨if_neg hmem, .inl ⟨msInfo, rfl, hmem⟩⟩
  | deregisterMicroservice u =>
    obtain rfl : a = (deregisterMicroservice s.registry u).1 := h
    rcases deregisterMicroservice_cases s.registry u with ⟨hmem, -⟩ | ⟨hmem, heq⟩
    · exact .inl (if_neg hmem)
    · refine .inr ⟨if_pos hmem, .inr ⟨u, ?_⟩⟩
      rw [heq]
      exact decide_eq_true rfl
  | iterator => exact .inl rfl
  | next expectedModCount => exact .inl rfl
  | checkHealth u => exact .inl rfl

variable {c₁ c₂ : Pool (Option ι) SweepState SweepOp SweepOp.Ans (Except SweepException Unit)}

theorem modCount_le (h : Pool.Run (sweepServer java) c₁ log c₂) :
    c₁.state.modCount ≤ c₂.state.modCount := by
  apply h.invariant (I := fun s => c₁.state.modCount ≤ s.modCount) _ le_rfl
  intro s op a s' hle hserve
  rw [hserve.2]
  rcases modCount_step hserve.1 with heq | ⟨heq, -⟩ <;> omega

/-- An added key shows in the `modCount` for good. -/
theorem modCount_lt (h : Pool.Run (sweepServer java) c₁ log c₂) {r : SweepEntry (Option ι)}
    (hr : r ∈ log) (hadds : AddsKey r) : c₁.state.modCount < c₂.state.modCount := by
  have hserve := h.serves r hr
  obtain ⟨l₁, l₂, rfl⟩ := List.append_of_mem hr
  obtain ⟨c', hbefore, hafter⟩ := h.split
  obtain ⟨hpre, c'', hpost, hrest⟩ := hafter.cons
  have hle := modCount_le hbefore
  have hle' := modCount_le hrest
  obtain ⟨msInfo, hop, hnew⟩ := hadds
  have hstep : r.post.modCount = r.pre.modCount + 1 := by
    rw [hserve.2, hop]
    exact if_neg hnew
  rw [hpre] at hle
  rw [hpost] at hle'
  omega

/-! ### The one sweep -/

/-- Every step that is no registration is the sweep's. -/
theorem who_eq_none
    (h : Pool.Run (sweepServer java) (sweepStart registry (oneSweep requests)) log c)
    {e : SweepEntry (Option ι)} (he : e ∈ log)
    (hop : ∀ msInfo, e.op ≠ .registerMicroservice msInfo) :
    e.who = none := by
  cases hwho : e.who with
  | none => rfl
  | some i =>
    have hpath : (Concurrent.registerMicroservice (requests i)).Path (proj (some i) log)
        (c.prog (some i)) := h.path (some i)
    obtain ⟨a, heq⟩ := register_path hpath (mem_proj.mpr ⟨e, he, hwho, rfl⟩)
    exact absurd (congrArg Event.op heq) (hop _)

theorem mem_proj_none
    (h : Pool.Run (sweepServer java) (sweepStart registry (oneSweep requests)) log c)
    {e : SweepEntry (Option ι)} (he : e ∈ log)
    (hop : ∀ msInfo, e.op ≠ .registerMicroservice msInfo) :
    e.event ∈ proj none log :=
  mem_proj.mpr ⟨e, he, who_eq_none h he hop, rfl⟩

theorem who_of_isRemoval
    (h : Pool.Run (sweepServer java) (sweepStart registry (oneSweep requests)) log c)
    {e : SweepEntry (Option ι)} (he : e ∈ log) {u : String} (hrem : isRemoval u e.event) :
    e.who = none := by
  have hop : e.op = .deregisterMicroservice u := congrArg Event.op (eq_of_isRemoval hrem)
  apply who_eq_none h he
  intro msInfo hreg
  rw [hop] at hreg
  cases hreg

/-- What the sweep has done in the run: its iterator, its probes, and its
removals. -/
structure OneSweep (log : List (SweepEntry (Option ι))) (q : SweepProg) (keys : List String × ℕ)
    (probes removals : List SweepEvent) : Prop where
  events : proj none log = ⟨.iterator, keys⟩ :: (probes ++ removals)
  swept : Swept keys.2 keys.1 [] probes removals q

theorem exists_oneSweep
    (h : Pool.Run (sweepServer java) (sweepStart registry (oneSweep requests)) log c)
    (hdone : (c.prog none).Returned) :
    ∃ keys probes removals, OneSweep log (c.prog none) keys probes removals := by
  have hpath : Concurrent.removeDeadMicroservices.Path (proj none log) (c.prog none) := h.path none
  rcases sweep_path hpath with ⟨-, hnot⟩ | ⟨keys, probes, removals, hproj, hswept⟩
  · exact absurd hdone hnot
  · exact ⟨keys, probes, removals, hproj, hswept⟩

namespace OneSweep

variable {q : SweepProg} {keys : List String × ℕ} {probes removals : List SweepEvent}

/-- A step of the sweep is its iterator, a probe with the `next` before it, or
a removal. -/
theorem cases (hs : OneSweep log q keys probes removals) {ev : SweepEvent}
    (hev : ev ∈ proj none log) : ev = ⟨.iterator, keys⟩ ∨ ev ∈ probes ∨ ev ∈ removals := by
  rw [hs.events] at hev
  rcases List.mem_cons.mp hev with rfl | hev
  · exact .inl rfl
  · exact .inr (List.mem_append.mp hev)

/-- There is one iterator. -/
theorem eq_iterator (hs : OneSweep log q keys probes removals) {keys' : List String × ℕ}
    (hev : ⟨.iterator, keys'⟩ ∈ proj none log) : keys' = keys := by
  rcases hs.cases hev with heq | hev | hev
  · cases heq
    rfl
  · rcases hs.swept.probing _ hev with ⟨a, heq⟩ | ⟨u, -, a, heq⟩ <;> cases heq
  · obtain ⟨u, a, heq, -⟩ := hs.swept.removing _ hev
    cases heq

theorem mem_probes_of_next (hs : OneSweep log q keys probes removals) {m : ℕ} {a : Bool}
    (hev : ⟨.next m, a⟩ ∈ proj none log) : ⟨.next m, a⟩ ∈ probes ∧ m = keys.2 := by
  rcases hs.cases hev with heq | hev | hev
  · cases heq
  · refine ⟨hev, ?_⟩
    rcases hs.swept.probing _ hev with ⟨a, heq⟩ | ⟨u, -, a, heq⟩
    · cases heq
      rfl
    · cases heq
  · obtain ⟨u, a, heq, -⟩ := hs.swept.removing _ hev
    cases heq

theorem mem_probes_of_checkHealth (hs : OneSweep log q keys probes removals) {u : String}
    {r : Except RegistryException (Option String)} (hev : ⟨.checkHealth u, r⟩ ∈ proj none log) :
    ⟨.checkHealth u, r⟩ ∈ probes ∧ u ∈ keys.1 := by
  rcases hs.cases hev with heq | hev | hev
  · cases heq
  · refine ⟨hev, ?_⟩
    rcases hs.swept.probing _ hev with ⟨a, heq⟩ | ⟨u, hu, a, heq⟩
    · cases heq
    · cases heq
      exact hu
  · obtain ⟨u, a, heq, -⟩ := hs.swept.removing _ hev
    cases heq

theorem mem_proj_of_probes (hs : OneSweep log q keys probes removals) {ev : SweepEvent}
    (hev : ev ∈ probes) : ev ∈ proj none log := by
  rw [hs.events]
  exact List.mem_cons_of_mem _ (List.mem_append_left _ hev)

theorem mem_proj_of_removals (hs : OneSweep log q keys probes removals) {ev : SweepEvent}
    (hev : ev ∈ removals) : ev ∈ proj none log := by
  rw [hs.events]
  exact List.mem_cons_of_mem _ (List.mem_append_right _ hev)

/-- Only what was a key is removed. -/
theorem mem_keys_of_removals (hs : OneSweep log q keys probes removals) {u : String}
    {a : Except RegistryException Unit} (hev : ⟨.deregisterMicroservice u, a⟩ ∈ removals) :
    u ∈ keys.1 := by
  obtain ⟨v, a, heq, hfail⟩ := hs.swept.removing _ hev
  cases heq
  -- nothing was to be removed before the first probe
  obtain ⟨ev, hev, hfail⟩ := List.any_eq_true.mp (hfail.resolve_left List.not_mem_nil)
  obtain ⟨r, rfl⟩ := eq_of_isProbe (isProbe_of_isFailingProbe hfail)
  exact (hs.mem_probes_of_checkHealth (hs.mem_proj_of_probes hev)).2

/-- The sweep tries to remove each key once. -/
theorem removed_once (hs : OneSweep log q keys probes removals) (hkeys : keys.1.Nodup)
    (u : String) : (proj none log).countP (isDeregister u) ≤ 1 := by
  have hprobes : probes.countP (isDeregister u) = 0 := by
    rw [List.countP_eq_zero]
    intro ev hev
    rcases hs.swept.probing ev hev with ⟨a, rfl⟩ | ⟨u, -, a, rfl⟩
    · exact Bool.false_ne_true
    · exact Bool.false_ne_true
  rw [hs.events, List.countP_cons_of_neg (by simp [isDeregister]), List.countP_append, hprobes,
    Nat.zero_add]
  exact (hs.swept.removedOnce u).trans (List.nodup_iff_count_le_one.mp hkeys u)

/-- The iterator was made before every other step of the sweep, from the keys
and the `modCount` of then. -/
theorem iterator_before (hs : OneSweep log q keys probes removals)
    (h : Pool.Run (sweepServer java) (sweepStart registry (oneSweep requests)) log c)
    {l l₃ : List (SweepEntry (Option ι))} {n : SweepEntry (Option ι)} (hlog : log = l ++ n :: l₃)
    (hwho : n.who = none) (hop : n.op ≠ .iterator) :
    ∃ l₁ it l₂, l = l₁ ++ it :: l₂ ∧ it.op = .iterator ∧ it.post = it.pre ∧
      keys.1.Perm it.pre.registry.keys ∧ keys.2 = it.pre.modCount := by
  have hproj : proj none log = proj none l ++ n.event :: proj none l₃ := by
    rw [hlog, proj_append, proj_cons hwho]
  rw [hs.events] at hproj
  cases hl : proj none l with
  | nil =>
    rw [hl] at hproj
    have hev : n.event = ⟨.iterator, keys⟩ := (List.cons.inj hproj).1.symm
    exact absurd (congrArg Event.op hev) hop
  | cons ev t =>
    rw [hl] at hproj
    obtain rfl : ⟨.iterator, keys⟩ = ev := (List.cons.inj hproj).1
    obtain ⟨it, hit, -, hev⟩ := mem_proj.mp (hl ▸ List.mem_cons_self)
    have hserve := h.serves it (by rw [hlog]; exact List.mem_append_left _ hit)
    obtain ⟨l₁, l₂, rfl⟩ := List.append_of_mem hit
    obtain ⟨who, op, a, pre, post⟩ := it
    cases hev
    exact ⟨l₁, _, l₂, rfl, rfl, hserve.2, hserve.1⟩

end OneSweep

/-! ### Completing -/

section

variable {keys : List String × ℕ} {probes removals : List SweepEvent}
  (h : Pool.Run (sweepServer java) (sweepStart registry (oneSweep requests)) log c)
  (hs : OneSweep log (c.prog none) keys probes removals)

include h hs

/-- A sweep that has completed has met no added key. -/
theorem noneAdded_of_completed (hok : c.prog none = .ret (.ok ())) : NoneAdded log := by
  rintro l₁ it l₂ n l₃ hlog hit ⟨m, hn⟩ r hr hadds
  have hserveIt := h.serves it (by rw [hlog]; simp)
  have hserveN := h.serves n (by rw [hlog]; simp)
  have hevIt := mem_proj_none h (e := it) (by rw [hlog]; simp) (by rw [hit]; simp)
  have hevN := mem_proj_none h (e := n) (by rw [hlog]; simp) (by rw [hn]; simp)
  rw [hlog] at h
  obtain ⟨c₁, c₂, hrun, hpost, hpre⟩ := h.between
  have hlt := modCount_lt hrun hr hadds
  rw [hpost, hpre] at hlt
  obtain ⟨who, op, a, pre, post⟩ := it
  obtain rfl : op = .iterator := hit
  obtain ⟨who', op', unmodified, pre', post'⟩ := n
  obtain rfl : op' = .next m := hn
  -- the iterator still expects the `modCount` it was made at, and has met no other
  obtain rfl := hs.eq_iterator hevIt
  obtain ⟨hprobe, rfl⟩ := hs.mem_probes_of_next hevN
  have hmade : a.2 = pre.modCount := hserveIt.1.2
  have hsame : post = pre := hserveIt.2
  cases unmodified with
  | false => exact (hs.swept.completed hok).1 _ hprobe
  | true =>
    have hmet : pre'.modCount = a.2 := of_decide_eq_true hserveN.1.symm
    rw [hsame, ← hmade] at hlt
    exact absurd hmet hlt.ne'

/-- The sweep fails at no key as long as none is added. -/
theorem next_of_noneAdded (hnone : NoneAdded log) : ⟨.next keys.2, false⟩ ∉ probes := by
  intro hmem
  obtain ⟨n, hn, hwho, hev⟩ := mem_proj.mp (hs.mem_proj_of_probes hmem)
  have hserve := h.serves n hn
  obtain ⟨l, l₃, hlog⟩ := List.append_of_mem hn
  have hproj : proj none l ++ n.event :: proj none l₃
      = (⟨.iterator, keys⟩ :: probes) ++ removals := by
    rw [List.cons_append, ← hs.events, hlog, proj_append, proj_cons hwho]
  obtain ⟨who, op, a, pre, post⟩ := n
  cases hev
  obtain ⟨l₁, it, l₂, rfl, hit, hpost, -, hkeys⟩ := hs.iterator_before h hlog hwho (by simp)
  have hne : pre.modCount ≠ keys.2 := of_decide_eq_false hserve.1.symm
  have hrun := h
  rw [hlog] at hrun
  obtain ⟨c₁, c₂, hrun, hstart, hend⟩ := hrun.between
  rcases hrun.until (P := fun s => s.modCount = keys.2)
    (E := fun e => AddsKey e ∨ ∃ msUrl, isRemoval msUrl e.event) (by
      intro e hserve hP
      rcases modCount_step hserve.1 with heq | ⟨-, hE⟩
      · left
        rw [hserve.2, heq, hP]
      · exact .inr hE) (by rw [hstart, hpost, hkeys]) with hP | ⟨x, hx, hadds | ⟨u, hrem⟩⟩
  · rw [hend] at hP
    exact hne hP
  · exact hnone l₁ it l₂ _ l₃ hlog hit ⟨_, rfl⟩ x hx hadds
  · -- the sweep removes nothing while it still has a key to probe
    have hwhoX := who_of_isRemoval h (by rw [hlog]; simp [hx]) hrem
    have hsub := subset_of_append_cons_right hproj (by
      intro hmem
      obtain ⟨u, a, heq, -⟩ := hs.swept.removing _ hmem
      cases heq)
    have hin := hsub (mem_proj.mpr ⟨x, by simp [hx], hwhoX, eq_of_isRemoval hrem⟩)
    rcases List.mem_cons.mp hin with heq | hin
    · cases heq
    · rcases hs.swept.probing _ hin with ⟨a, heq⟩ | ⟨u, -, a, heq⟩ <;> cases heq

/-- No probe of a valid key raises what the sweep does not catch. -/
theorem checkHealth_of_valid
    (hvalid : ∀ it ∈ log, it.op = .iterator → ∀ msUrl ∈ it.pre.registry, java.uriCreate msUrl)
    {u : String} {e : RegistryException} : ⟨.checkHealth u, .error e⟩ ∉ probes := by
  intro hmem
  have hev := hs.mem_proj_of_probes hmem
  obtain ⟨-, hu⟩ := hs.mem_probes_of_checkHealth hev
  obtain ⟨it, hit, -, hevIt, hperm, -⟩ := keys_of_iterator h hs.events
  have haccepted : java.uriCreate u := hvalid it hit (congrArg Event.op hevIt) u
    (AList.mem_keys.mpr (hperm.mem_iff.mp hu))
  obtain ⟨b, hb, -, hevB⟩ := mem_proj.mp hev
  have hans : b.pre.Answers java b.event.op b.event.ans := (h.serves b hb).1
  rw [hevB] at hans
  obtain ⟨instances, heq⟩ := hans
  rw [checkHealth, if_pos haccepted] at heq
  cases heq

/-- What failed its probe is still there when it is removed: nobody else
removes it. -/
theorem deregister_of_oneSweep {u : String} {e : RegistryException} :
    ⟨.deregisterMicroservice u, .error e⟩ ∉ removals := by
  intro hmem
  obtain ⟨d, hd, hwho, hevD⟩ := mem_proj.mp (hs.mem_proj_of_removals hmem)
  have hserve := h.serves d hd
  obtain ⟨l, l₃, hlog⟩ := List.append_of_mem hd
  have hproj : proj none log = proj none l ++ d.event :: proj none l₃ := by
    rw [hlog, proj_append, proj_cons hwho]
  have hlast : isDeregister u d.event := by
    rw [hevD]
    exact decide_eq_true rfl
  obtain ⟨who, op, a, pre, post⟩ := d
  cases hevD
  obtain ⟨l₁, it, l₂, rfl, hit, hpost, hperm, -⟩ := hs.iterator_before h hlog hwho (by simp)
  have hgone : u ∉ pre.registry := by
    have hans : (.error e : Except RegistryException Unit)
        = (deregisterMicroservice pre.registry u).1 := hserve.1
    rcases deregisterMicroservice_cases pre.registry u with ⟨hgone, -⟩ | ⟨-, heq⟩
    · exact hgone
    · rw [heq] at hans
      cases hans
  -- it was a key when the iterator was made
  have hkey : u ∈ it.post.registry := by
    rw [hpost]
    exact AList.mem_keys.mpr (hperm.mem_iff.mp (hs.mem_keys_of_removals hmem))
  have hrun := h
  rw [hlog] at hrun
  obtain ⟨c₁, c₂, hrun, hstart, hend⟩ := hrun.between
  rcases hrun.until (P := fun s => u ∈ s.registry) (E := fun e => isRemoval u e.event) (by
      intro e hserve hP
      by_cases hrem : isRemoval u e.event
      · exact .inr hrem
      · left
        rw [hserve.2, mem_step hserve.1]
        exact .inl ⟨hP, hrem⟩) (by rw [hstart]; exact hkey) with hP | ⟨x, hx, hrem⟩
  · rw [hend] at hP
    exact hgone hP
  · -- the sweep would have removed it twice
    have hwhoX := who_of_isRemoval h (by rw [hlog]; simp [hx]) hrem
    have hfirst : 0 < (proj none (l₁ ++ it :: l₂)).countP (isDeregister u) := by
      apply List.countP_pos_iff.mpr
      exact ⟨_, mem_proj.mpr ⟨x, by simp [hx], hwhoX, eq_of_isRemoval hrem⟩, decide_eq_true rfl⟩
    have honce := hs.removed_once (hperm.nodup_iff.mpr it.pre.registry.keys_nodup) u
    rw [hproj, List.countP_append, List.countP_cons_of_pos hlast] at honce
    omega

end

/-- **The sweep completes and removes what failed exactly if no key is added
while it still has one to probe.** -/
theorem sweep_completes_iff
    (h : Pool.Run (sweepServer java) (sweepStart registry (oneSweep requests)) log c)
    (hdone : (c.prog none).Returned)
    (hvalid : ∀ it ∈ log, it.op = .iterator → ∀ msUrl ∈ it.pre.registry, java.uriCreate msUrl) :
    SweepCompletes log c ↔ NoneAdded log := by
  obtain ⟨keys, probes, removals, hs⟩ := exists_oneSweep h hdone
  constructor
  · exact fun hcomp => noneAdded_of_completed h hs hcomp.1
  intro hnone
  have hok : c.prog none = .ret (.ok ()) := by
    cases hq : c.prog none with
    | call op next =>
      rw [hq] at hdone
      exact hdone.elim
    | ret r =>
      cases r with
      | ok _ => rfl
      | error e =>
        rcases hs.swept.failed e hq with hnext | ⟨u, -, e', hprobe, -⟩ | ⟨u, e', hrem⟩
        · exact absurd hnext (next_of_noneAdded h hs hnone)
        · exact absurd hprobe (checkHealth_of_valid h hs hvalid)
        · exact absurd hrem (deregister_of_oneSweep h hs)
  refine ⟨hok, ?_⟩
  rintro it - - u - ⟨b, hb, hfail⟩
  -- a failing probe is the sweep's, and a completed sweep has removed what failed
  obtain ⟨r, hev⟩ := eq_of_isProbe (isProbe_of_isFailingProbe hfail)
  have hmem := mem_proj_none h hb (by
    intro msInfo hop
    exact absurd ((congrArg Event.op hev).symm.trans hop) (by simp))
  rw [hev] at hmem hfail
  obtain ⟨hprobe, -⟩ := hs.mem_probes_of_checkHealth hmem
  have hremoved := (hs.swept.completed hok).2 u (.inr (List.any_eq_true.mpr ⟨_, hprobe, hfail⟩))
  obtain ⟨ev, hev, hrem⟩ := List.any_eq_true.mp hremoved
  obtain ⟨d, hd, -, rfl⟩ := mem_proj.mp (hs.mem_proj_of_removals hev)
  exact ⟨d, hd, hrem⟩

/-- Two services are registered, no instance answers, and one more is to be
registered. -/
def sweepTwo (schedule : List (Option Unit)) (msInfo : MicroserviceInfo) :
    List (SweepEntry (Option Unit)) ×
      Pool (Option Unit) SweepState SweepOp SweepOp.Ans (Except SweepException Unit) :=
  Pool.play (sweepServe sampleJava sampleInstances) schedule
    (sweepStart (((∅ : Registry).push "http://a:8080" (sampleService "a")).push "http://b:8080"
      (sampleService "b")) (oneSweep fun _ => msInfo))

theorem run_sweepTwo (schedule : List (Option Unit)) (msInfo : MicroserviceInfo) :
    Pool.Run (sweepServer sampleJava)
      (sweepStart (((∅ : Registry).push "http://a:8080" (sampleService "a")).push "http://b:8080"
        (sampleService "b")) (oneSweep fun _ => msInfo))
      (sweepTwo schedule msInfo).1 (sweepTwo schedule msInfo).2 :=
  run_sweepServe sampleJava sampleInstances schedule _

/-- The service arrives between the two probes. -/
def betweenProbes : List (Option Unit) :=
  [none, none, none, some (), none, none, none, none]

theorem valid_sweepTwo {log : List (SweepEntry (Option Unit))}
    (h : (log.all fun e => e.pre.registry.keys.all sampleJava.uriCreate) = true) :
    ∀ it ∈ log, it.op = .iterator → ∀ msUrl ∈ it.pre.registry, sampleJava.uriCreate msUrl := by
  intro it hit _ msUrl hmem
  exact List.all_eq_true.mp (List.all_eq_true.mp h it hit) msUrl (AList.mem_keys.mp hmem)

/-- The first host registers its second function. -/
def secondFunction : MicroserviceInfo := { sampleService "a" with msFunction := "multiply" }

/-- A second function of a known URL is accepted, and adds no key. -/
theorem sweep_completes_iff_sweepTwo :
    ((sweepTwo betweenProbes secondFunction).1.any
        fun e => isAcceptance "http://a:8080" e.event) = true ∧
      (SweepCompletes (sweepTwo betweenProbes secondFunction).1
          (sweepTwo betweenProbes secondFunction).2 ↔
        NoneAdded (sweepTwo betweenProbes secondFunction).1) :=
  ⟨by decide +kernel, sweep_completes_iff (run_sweepTwo _ _) (by decide +kernel)
    (valid_sweepTwo (by decide +kernel))⟩

/-- The iterator threw `ConcurrentModificationException`. -/
def endedByIterator : Prog SweepOp SweepOp.Ans (Except SweepException Unit) → Bool
  | .ret (.error .concurrentModification) => true
  | _ => false

/-- A new key ends the sweep, and the dead services stay. -/
theorem sweep_aborted :
    ¬ ∀ (java : Java) (registry : Registry) (requests : Unit → MicroserviceInfo)
      (log : List (SweepEntry (Option Unit)))
      (c : Pool (Option Unit) SweepState SweepOp SweepOp.Ans (Except SweepException Unit)),
      Pool.Run (sweepServer java) (sweepStart registry (oneSweep requests)) log c →
        (c.prog none).Returned →
          (∀ it ∈ log, it.op = .iterator → ∀ msUrl ∈ it.pre.registry, java.uriCreate msUrl) →
            SweepCompletes log c := by
  intro h
  have hcomp : SweepCompletes (sweepTwo betweenProbes (sampleService "c")).1
      (sweepTwo betweenProbes (sampleService "c")).2 :=
    h _ _ _ _ _ (run_sweepTwo _ _) (by decide +kernel)
      (valid_sweepTwo (by decide +kernel))
  have hfailed : endedByIterator
      ((sweepTwo betweenProbes (sampleService "c")).2.prog none) = true := by
    decide +kernel
  rw [hcomp.1] at hfailed
  cases hfailed

end ResilientMesh
