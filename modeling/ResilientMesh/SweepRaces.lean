/-
ResilientMesh/SweepRaces.lean

What a sweep does along every path (`sweep_path`): it probes each of the
iterator's keys at most once, and removes after that only what failed its
probe.

Main result: a registration is dropped only on the strength of a later probe
exactly if no registration of a URL is accepted between a sweep's failing
probe of it and that sweep's removal of it (`probed_after_iff`).
-/
import ResilientMesh.Sweep

namespace ResilientMesh

/-! ### Events -/

/-- The probe lets the sweep remove the URL. -/
def failing : Except RegistryException (Option String) → Bool
  | .ok answer => answer ≠ some "OK"
  | .error e => e = .remote .resourceAccess

/-- A probe of the URL. -/
def isProbe (msUrl : String) : SweepEvent → Bool
  | ⟨.checkHealth u, _⟩ => u = msUrl
  | _ => false

/-- A probe of the URL that fails. -/
def isFailingProbe (msUrl : String) : SweepEvent → Bool
  | ⟨.checkHealth u, r⟩ => u = msUrl && failing r
  | _ => false

/-- An attempt to remove the URL. -/
def isDeregister (msUrl : String) : SweepEvent → Bool
  | ⟨.deregisterMicroservice u, _⟩ => u = msUrl
  | _ => false

/-- The URL is removed. -/
def isRemoval (msUrl : String) : SweepEvent → Bool
  | ⟨.deregisterMicroservice u, .ok ()⟩ => u = msUrl
  | _ => false

/-- A registration at the URL is acknowledged. -/
def isAcceptance (msUrl : String) : SweepEvent → Bool
  | ⟨.registerMicroservice msInfo, .ok ()⟩ => getUrlFromMsInfo msInfo = msUrl
  | _ => false

theorem eq_of_isProbe {msUrl : String} {ev : SweepEvent} (h : isProbe msUrl ev) :
    ∃ r, ev = ⟨.checkHealth msUrl, r⟩ := by
  unfold isProbe at h
  split at h
  · obtain rfl := of_decide_eq_true h
    exact ⟨_, rfl⟩
  · cases h

theorem eq_of_isRemoval {msUrl : String} {ev : SweepEvent} (h : isRemoval msUrl ev) :
    ev = ⟨.deregisterMicroservice msUrl, .ok ()⟩ := by
  unfold isRemoval at h
  split at h
  · obtain rfl := of_decide_eq_true h
    rfl
  · cases h

theorem isProbe_of_isFailingProbe {msUrl : String} {ev : SweepEvent} (h : isFailingProbe msUrl ev) :
    isProbe msUrl ev := by
  unfold isFailingProbe at h
  split at h
  · rw [Bool.and_eq_true] at h
    exact h.1
  · cases h

/-! ### One sweep -/

/-- What the second loop of a sweep does with the URLs `dead`. -/
structure Removing (dead : List String) (tr : List SweepEvent) (q : SweepProg) : Prop where
  events : ∀ ev ∈ tr, ∃ u ∈ dead, ∃ a, ev = ⟨.deregisterMicroservice u, a⟩
  once : ∀ u, tr.countP (isDeregister u) ≤ dead.count u
  completed : q = .ret (.ok ()) → ∀ u ∈ dead, tr.any (isRemoval u)
  failed : ∀ e, q = .ret (.error e) → ∃ u e, ⟨.deregisterMicroservice u, .error e⟩ ∈ tr

theorem removeLoop_path {dead : List String} {tr : List SweepEvent} {q : SweepProg}
    (h : (Concurrent.removeLoop dead).Path tr q) : Removing dead tr q := by
  induction dead generalizing tr with
  | nil =>
    obtain ⟨rfl, rfl⟩ := Prog.path_ret_iff.mp h
    constructor <;> simp
  | cons u rest ih =>
    rcases Prog.path_call_iff.mp h with ⟨rfl, rfl⟩ | ⟨r, tr', rfl, h'⟩
    · constructor <;> simp
    cases r with
    | error e =>
      obtain ⟨rfl, rfl⟩ := Prog.path_ret_iff.mp h'
      constructor
      · simp
      · intro v
        rw [List.countP_singleton, List.count_cons]
        by_cases hv : u = v <;> simp [isDeregister, hv]
      · simp
      · exact fun _ _ => ⟨u, e, List.mem_singleton_self _⟩
    | ok _ =>
      obtain ⟨hevents, honce, hcompleted, hfailed⟩ := ih h'
      constructor
      · intro ev hev
        rcases List.mem_cons.mp hev with rfl | hev
        · exact ⟨u, List.mem_cons_self, _, rfl⟩
        · obtain ⟨v, hv, a, rfl⟩ := hevents ev hev
          exact ⟨v, List.mem_cons_of_mem _ hv, a, rfl⟩
      · intro v
        have hv := honce v
        rw [List.countP_cons, List.count_cons]
        by_cases huv : u = v <;> simp [isDeregister, huv] <;> omega
      · intro hq v hv
        rw [List.any_cons, Bool.or_eq_true]
        rcases List.mem_cons.mp hv with rfl | hv
        · exact .inl (by simp [isRemoval])
        · exact .inr (hcompleted hq v hv)
      · intro e hq
        obtain ⟨v, e', hmem⟩ := hfailed e hq
        exact ⟨v, e', List.mem_cons_of_mem _ hmem⟩

/-- What the loops of a sweep do with the keys `urls`, when `dead` are already
to be removed: first the probes, then the removals. -/
structure Swept (expectedModCount : ℕ) (urls dead : List String) (probes removals : List SweepEvent)
    (q : SweepProg) : Prop where
  probing : ∀ ev ∈ probes, (∃ a, ev = ⟨.next expectedModCount, a⟩) ∨
    ∃ u ∈ urls, ∃ r, ev = ⟨.checkHealth u, r⟩
  probedOnce : ∀ u, probes.countP (isProbe u) ≤ urls.count u
  removing : ∀ ev ∈ removals, ∃ u a, ev = ⟨.deregisterMicroservice u, a⟩ ∧
    (u ∈ dead ∨ probes.any (isFailingProbe u))
  removedOnce : ∀ u, removals.countP (isDeregister u) ≤ (dead ++ urls).count u
  completed : q = .ret (.ok ()) → (∀ m, ⟨.next m, false⟩ ∉ probes) ∧
    ∀ u, (u ∈ dead ∨ probes.any (isFailingProbe u)) → removals.any (isRemoval u)
  failed : ∀ e, q = .ret (.error e) → ⟨.next expectedModCount, false⟩ ∈ probes ∨
    (∃ u ∈ urls, ∃ e, ⟨.checkHealth u, .error e⟩ ∈ probes ∧ ¬ failing (.error e)) ∨
    ∃ u e, ⟨.deregisterMicroservice u, .error e⟩ ∈ removals

variable {expectedModCount : ℕ} {u : String} {urls dead dead' : List String}
  {tr probes removals : List SweepEvent} {q : SweepProg}

/-- A sweep that has not got beyond a probe. -/
theorem Swept.stopped (hprobing : ∀ ev ∈ probes, (∃ a, ev = ⟨.next expectedModCount, a⟩) ∨
      ∃ u ∈ urls, ∃ r, ev = ⟨.checkHealth u, r⟩)
    (honce : ∀ u, probes.countP (isProbe u) ≤ urls.count u) (hcompleted : q ≠ .ret (.ok ()))
    (hfailed : ∀ e, q = .ret (.error e) → ⟨.next expectedModCount, false⟩ ∈ probes ∨
      ∃ u ∈ urls, ∃ e, ⟨.checkHealth u, .error e⟩ ∈ probes ∧ ¬ failing (.error e)) :
    Swept expectedModCount urls dead probes [] q where
  probing := hprobing
  probedOnce := honce
  removing := by simp
  removedOnce := by simp
  completed := fun hq => absurd hq hcompleted
  failed := by
    intro e hq
    rcases hfailed e hq with h | h
    · exact .inl h
    · exact .inr (.inl h)

/-- One more key: it was probed, and is to be removed if the probe failed. -/
theorem Swept.cons {r : Except RegistryException (Option String)}
    (h : Swept expectedModCount urls dead' probes removals q)
    (hr : failing r = true ∧ dead' = dead ++ [u] ∨ failing r = false ∧ dead' = dead) :
    Swept expectedModCount (u :: urls) dead
      (⟨.next expectedModCount, true⟩ :: ⟨.checkHealth u, r⟩ :: probes) removals q := by
  obtain ⟨hprobing, hprobed, hremoving, hremoved, hcompleted, hfailed⟩ := h
  -- what is to be removed was known before, or is known from this probe
  have hdead : ∀ v, (v ∈ dead' ∨ probes.any (isFailingProbe v)) ↔ (v ∈ dead ∨
      (⟨.next expectedModCount, true⟩ :: ⟨.checkHealth u, r⟩ :: probes : List SweepEvent).any
        (isFailingProbe v)) := by
    intro v
    rcases hr with ⟨hfail, rfl⟩ | ⟨hfail, rfl⟩
    · by_cases huv : u = v
      · simp [isFailingProbe, hfail, huv]
      · simp [isFailingProbe, huv, Ne.symm huv]
    · simp [isFailingProbe, hfail]
  constructor
  case probing =>
    intro ev hev
    rcases List.mem_cons.mp hev with rfl | hev
    · exact .inl ⟨true, rfl⟩
    rcases List.mem_cons.mp hev with rfl | hev
    · exact .inr ⟨u, List.mem_cons_self, r, rfl⟩
    · rcases hprobing ev hev with h | ⟨v, hv, a, rfl⟩
      · exact .inl h
      · exact .inr ⟨v, List.mem_cons_of_mem _ hv, a, rfl⟩
  case probedOnce =>
    intro v
    have hv := hprobed v
    rw [List.countP_cons_of_neg (by simp [isProbe]), List.countP_cons, List.count_cons]
    by_cases huv : u = v <;> simp [isProbe, huv] <;> omega
  case removing =>
    intro ev hev
    obtain ⟨v, a, rfl, hv⟩ := hremoving ev hev
    exact ⟨v, a, rfl, (hdead v).mp hv⟩
  case removedOnce =>
    intro v
    have hv := hremoved v
    rcases hr with ⟨-, rfl⟩ | ⟨-, rfl⟩
    · rwa [List.append_assoc, List.singleton_append] at hv
    · rw [List.count_append] at hv ⊢
      rw [List.count_cons]
      omega
  case completed =>
    intro hq
    obtain ⟨hnext, hall⟩ := hcompleted hq
    refine ⟨?_, fun v hv => hall v ((hdead v).mpr hv)⟩
    intro m hm
    rcases List.mem_cons.mp hm with hm | hm
    · cases hm
    rcases List.mem_cons.mp hm with hm | hm
    · cases hm
    · exact hnext m hm
  case failed =>
    intro e hq
    rcases hfailed e hq with h | ⟨v, hv, e', h, hnot⟩ | h
    · exact .inl (List.mem_cons_of_mem _ (List.mem_cons_of_mem _ h))
    · exact .inr (.inl ⟨v, List.mem_cons_of_mem _ hv, e',
        List.mem_cons_of_mem _ (List.mem_cons_of_mem _ h), hnot⟩)
    · exact .inr (.inr h)

/-- With no key left the removals begin. -/
theorem Removing.swept (h : Removing dead tr q) : Swept expectedModCount [] dead [] tr q := by
  obtain ⟨hevents, honce, hcompleted, hfailed⟩ := h
  constructor
  case probing => simp
  case probedOnce => simp
  case removing =>
    intro ev hev
    obtain ⟨u, hu, a, rfl⟩ := hevents ev hev
    exact ⟨u, a, rfl, .inl hu⟩
  case removedOnce => simpa using honce
  case completed =>
    intro hq
    refine ⟨fun _ => List.not_mem_nil, ?_⟩
    rintro u (hu | hu)
    · exact hcompleted hq u hu
    · simp at hu
  case failed => exact fun e hq => .inr (.inr (hfailed e hq))

/-- **The probes come first, and the removals follow from them.** -/
theorem probeLoop_path (h : (Concurrent.probeLoop expectedModCount urls dead).Path tr q) :
    ∃ probes removals, tr = probes ++ removals ∧
      Swept expectedModCount urls dead probes removals q := by
  induction urls generalizing dead tr with
  | nil => exact ⟨[], tr, rfl, (removeLoop_path h).swept⟩
  | cons u rest ih =>
    rcases Prog.path_call_iff.mp h with ⟨rfl, rfl⟩ | ⟨unmodified, tr₁, rfl, h₁⟩
    · exact ⟨[], [], rfl, .stopped (by simp) (by simp) (by simp) (by simp)⟩
    cases unmodified with
    | false =>
      obtain ⟨rfl, rfl⟩ := Prog.path_ret_iff.mp h₁
      exact ⟨_, [], (List.append_nil _).symm,
        .stopped (by simp) (by simp [isProbe]) (by simp) (by simp)⟩
    | true =>
    rcases Prog.path_call_iff.mp h₁ with ⟨rfl, rfl⟩ | ⟨r, tr₂, rfl, h₂⟩
    · exact ⟨_, [], (List.append_nil _).symm,
        .stopped (by simp) (by simp [isProbe]) (by simp) (by simp)⟩
    -- the probe fails, or it does not, or its exception ends the sweep
    have hgo : ∀ {dead'}, (Concurrent.probeLoop expectedModCount rest dead').Path tr₂ q →
        failing r = true ∧ dead' = dead ++ [u] ∨ failing r = false ∧ dead' = dead →
          ∃ probes removals,
            ⟨.next expectedModCount, true⟩ :: ⟨.checkHealth u, r⟩ :: tr₂ = probes ++ removals ∧
              Swept expectedModCount (u :: rest) dead probes removals q := by
      intro dead' hpath hr
      obtain ⟨probes, removals, rfl, hswept⟩ := ih hpath
      exact ⟨_, removals, rfl, hswept.cons hr⟩
    cases r with
    | ok answer =>
      dsimp only at h₂
      split_ifs at h₂ with hanswer
      · exact hgo h₂ (.inl ⟨by simpa [failing] using hanswer, rfl⟩)
      · exact hgo h₂ (.inr ⟨by simpa [failing] using hanswer, rfl⟩)
    | error e =>
      by_cases he : e = .remote .resourceAccess
      · subst he
        exact hgo h₂ (.inl ⟨rfl, rfl⟩)
      · have hend : (Prog.ret (.error (.registry e)) : SweepProg).Path tr₂ q := by
          rcases e with _ | _ | _ | _ | _
          · exact h₂
          · exact h₂
          · exact h₂
          · exact absurd rfl he
          · exact h₂
        obtain ⟨rfl, rfl⟩ := Prog.path_ret_iff.mp hend
        refine ⟨_, [], (List.append_nil _).symm, .stopped (by simp) ?_ (by simp) ?_⟩
        · intro v
          simp only [List.countP_cons, List.countP_nil, List.count_cons]
          by_cases huv : u = v <;> simp [isProbe, huv]
        · intro _ _
          exact .inr ⟨u, List.mem_cons_self, e, by simp, by simpa [failing] using he⟩

/-- A sweep makes its iterator first. -/
theorem sweep_path (h : Concurrent.removeDeadMicroservices.Path tr q) :
    (tr = [] ∧ ¬ q.Returned) ∨ ∃ keys probes removals,
      tr = ⟨.iterator, keys⟩ :: (probes ++ removals) ∧
        Swept keys.2 keys.1 [] probes removals q := by
  rcases Prog.path_call_iff.mp h with ⟨rfl, rfl⟩ | ⟨keys, tr', rfl, h'⟩
  · exact .inl ⟨rfl, id⟩
  · obtain ⟨probes, removals, rfl, hswept⟩ := probeLoop_path h'
    exact .inr ⟨keys, probes, removals, rfl, hswept⟩

/-- A registration is nothing else. -/
theorem register_path {msInfo : MicroserviceInfo}
    (h : (Concurrent.registerMicroservice msInfo).Path tr q) {ev : SweepEvent} (hev : ev ∈ tr) :
    ∃ a, ev = ⟨.registerMicroservice msInfo, a⟩ := by
  rcases Prog.path_call_iff.mp h with ⟨rfl, rfl⟩ | ⟨a, tr', rfl, h'⟩
  · cases hev
  · obtain ⟨rfl, rfl⟩ := Prog.path_ret_iff.mp h'
    exact ⟨a, List.mem_singleton.mp hev⟩

/-! ### The registry along a run -/

variable {ι : Type} [DecidableEq ι] {java : Java} {registry : Registry}
  {clients : ι → RegistryClient} {log : List (SweepEntry ι)}
  {c : Pool ι SweepState SweepOp SweepOp.Ans (Except SweepException Unit)}

/-- **What a step does to a key.** -/
theorem mem_step {s : SweepState} {op : SweepOp} {a : op.Ans} (h : s.Answers java op a)
    (msUrl : String) : msUrl ∈ (s.step op).registry ↔
      (msUrl ∈ s.registry ∧ ¬ isRemoval msUrl ⟨op, a⟩) ∨ isAcceptance msUrl ⟨op, a⟩ := by
  cases op with
  | registerMicroservice msInfo =>
    obtain rfl : a = (registerMicroservice s.registry msInfo).1 := h
    show msUrl ∈ (registerMicroservice s.registry msInfo).2 ↔ _
    rcases registerMicroservice_cases s.registry msInfo with ⟨e, heq⟩ | heq
    · rw [heq]
      simp [isRemoval, isAcceptance]
    · rw [heq, ListMap.mem_push]
      simp [isRemoval, isAcceptance, or_comm, eq_comm]
  | deregisterMicroservice u =>
    obtain rfl : a = (deregisterMicroservice s.registry u).1 := h
    show msUrl ∈ (deregisterMicroservice s.registry u).2 ↔ _
    rcases deregisterMicroservice_cases s.registry u with ⟨-, heq⟩ | ⟨-, heq⟩
    · rw [heq]
      simp [isRemoval, isAcceptance]
    · rw [heq, AList.mem_erase]
      simp [isRemoval, isAcceptance, and_comm, eq_comm]
  | iterator => simp [isRemoval, isAcceptance, SweepState.step]
  | next expectedModCount => simp [isRemoval, isAcceptance, SweepState.step]
  | checkHealth u => simp [isRemoval, isAcceptance, SweepState.step]

/-- Only a key that is there is removed. -/
theorem mem_of_isRemoval {s : SweepState} {op : SweepOp} {a : op.Ans} (h : s.Answers java op a)
    {msUrl : String} (hrem : isRemoval msUrl ⟨op, a⟩) : msUrl ∈ s.registry := by
  cases op with
  | deregisterMicroservice u =>
    obtain rfl : a = (deregisterMicroservice s.registry u).1 := h
    rcases deregisterMicroservice_cases s.registry u with ⟨-, heq⟩ | ⟨hmem, heq⟩
    · rw [heq] at hrem
      cases hrem
    · rw [heq] at hrem
      obtain rfl : u = msUrl := of_decide_eq_true hrem
      exact hmem
  | registerMicroservice msInfo => cases hrem
  | iterator => cases hrem
  | next expectedModCount => cases hrem
  | checkHealth u => cases hrem

/-! ### Sweeps among registrations -/

/-- A list that goes on with what is not in a part has passed that part. -/
theorem subset_of_append_cons {α : Type*} {l₁ l₂ a b : List α} {x : α}
    (h : l₁ ++ x :: l₂ = a ++ b) (hx : x ∉ a) : a ⊆ l₁ := by
  rcases List.append_eq_append_iff.mp h with ⟨a', rfl, hb⟩ | ⟨c, rfl, -⟩
  · cases a' with
    | nil =>
      rw [List.append_nil]
      exact List.Subset.refl l₁
    | cons y ys =>
      obtain ⟨rfl, -⟩ := List.cons.inj hb
      exact absurd (by simp) hx
  · exact List.subset_append_left a c

/-- A list that goes on with what is not in the rest has not passed the part. -/
theorem subset_of_append_cons_right {α : Type*} {l₁ l₂ a b : List α} {x : α}
    (h : l₁ ++ x :: l₂ = a ++ b) (hx : x ∉ b) : l₁ ⊆ a := by
  rcases List.append_eq_append_iff.mp h with ⟨a', rfl, -⟩ | ⟨c, -, rfl⟩
  · exact List.subset_append_left l₁ a'
  · exact absurd (by simp) hx

/-- What only sweeps do is done by a sweep. -/
theorem sweeper_path (h : Pool.Run (sweepServer java) (sweepStart registry clients) log c) {i : ι}
    {ev : SweepEvent} (hev : ev ∈ proj i log)
    (hop : ∀ msInfo, ev.op ≠ .registerMicroservice msInfo) :
    ∃ keys probes removals, proj i log = ⟨.iterator, keys⟩ :: (probes ++ removals) ∧
      Swept keys.2 keys.1 [] probes removals (c.prog i) := by
  have hpath : (clients i).prog.Path (proj i log) (c.prog i) := h.path i
  cases hclient : clients i with
  | register msInfo =>
    rw [hclient] at hpath
    obtain ⟨a, rfl⟩ := register_path hpath hev
    exact absurd rfl (hop msInfo)
  | sweep =>
    rw [hclient] at hpath
    rcases sweep_path hpath with ⟨hnil, -⟩ | hswept
    · rw [hnil] at hev
      cases hev
    · exact hswept

/-- The keys of an iterator are those of the map when it was made. -/
theorem keys_of_iterator (h : Pool.Run (sweepServer java) (sweepStart registry clients) log c)
    {i : ι} {keys : List String × ℕ} {rest : List SweepEvent}
    (hproj : proj i log = ⟨.iterator, keys⟩ :: rest) :
    ∃ e ∈ log, e.who = i ∧ e.event = ⟨.iterator, keys⟩ ∧ keys.1.Perm e.pre.registry.keys ∧
      keys.2 = e.pre.modCount := by
  have hfirst : ⟨.iterator, keys⟩ ∈ proj i log := by
    rw [hproj]
    exact List.mem_cons_self
  obtain ⟨e, he, hwho, hev⟩ := mem_proj.mp hfirst
  have hans : e.pre.Answers java e.event.op e.event.ans := (h.serves e he).1
  rw [hev] at hans
  exact ⟨e, he, hwho, hev, hans⟩

/-- **A sweep probes no URL twice.** -/
theorem probed_once (h : Pool.Run (sweepServer java) (sweepStart registry clients) log c) (i : ι)
    (msUrl : String) : (proj i log).countP (isProbe msUrl) ≤ 1 := by
  by_cases hnone : ∀ ev ∈ proj i log, ¬ isProbe msUrl ev
  · rw [List.countP_eq_zero.mpr hnone]
    exact zero_le_one
  push Not at hnone
  obtain ⟨ev, hev, hprobe⟩ := hnone
  obtain ⟨r, rfl⟩ := eq_of_isProbe hprobe
  obtain ⟨keys, probes, removals, hproj, hswept⟩ := sweeper_path h hev (by simp)
  obtain ⟨e, -, -, -, hperm, -⟩ := keys_of_iterator h hproj
  have hkeys : keys.1.count msUrl ≤ 1 :=
    List.nodup_iff_count_le_one.mp (hperm.nodup_iff.mpr e.pre.registry.keys_nodup) msUrl
  have hnone : removals.countP (isProbe msUrl) = 0 := by
    rw [List.countP_eq_zero]
    intro ev hev
    obtain ⟨u, a, rfl, -⟩ := hswept.removing ev hev
    exact Bool.false_ne_true
  have honce := hswept.probedOnce msUrl
  rw [hproj, List.countP_cons_of_neg (by simp [isProbe]), List.countP_append, hnone]
  omega

/-- **What a sweep removes has failed its probe.** -/
theorem probed_of_removal (h : Pool.Run (sweepServer java) (sweepStart registry clients) log c)
    {msUrl : String} {l₁ l₂ : List (SweepEntry ι)} {d : SweepEntry ι} (hlog : log = l₁ ++ d :: l₂)
    (hrem : isRemoval msUrl d.event) :
    ∃ b ∈ l₁, b.who = d.who ∧ isFailingProbe msUrl b.event := by
  have hd := eq_of_isRemoval hrem
  have hproj : proj d.who log = proj d.who l₁ ++ d.event :: proj d.who l₂ := by
    rw [hlog, proj_append, proj_cons rfl]
  have hmem : d.event ∈ proj d.who log := by
    rw [hproj]
    simp
  obtain ⟨keys, probes, removals, hswept, hprog⟩ := sweeper_path h hmem (by rw [hd]; simp)
  -- the removal comes after all probes
  have hnot : d.event ∉ ⟨.iterator, keys⟩ :: probes := by
    rw [hd]
    intro hmem
    rcases List.mem_cons.mp hmem with hmem | hmem
    · cases hmem
    · rcases hprog.probing _ hmem with ⟨a, heq⟩ | ⟨u, -, r, heq⟩
      · cases heq
      · cases heq
  have hsub : ⟨.iterator, keys⟩ :: probes ⊆ proj d.who l₁ :=
    subset_of_append_cons (hproj.symm.trans hswept) hnot
  have hin : d.event ∈ removals := by
    have hmem : d.event ∈ (⟨.iterator, keys⟩ :: probes) ++ removals := by
      rw [List.cons_append, ← hswept, hproj]
      simp
    exact (List.mem_append.mp hmem).resolve_left hnot
  obtain ⟨u, a, heq, hfail⟩ := hprog.removing _ hin
  cases hd.symm.trans heq
  obtain ⟨ev, hev, hfail⟩ := List.any_eq_true.mp (hfail.resolve_left List.not_mem_nil)
  obtain ⟨b, hb, hwho, rfl⟩ := mem_proj.mp (hsub (List.mem_cons_of_mem _ hev))
  exact ⟨b, hb, hwho, hfail⟩

/-! ### Probes and registrations -/

/-- A removed URL that was registered before, and not removed in between, has
failed a probe of the same sweep since its registration. -/
def ProbedAfter (log : List (SweepEntry ι)) : Prop :=
  ∀ (msUrl : String) (l₁ : List (SweepEntry ι)) (r : SweepEntry ι) (l₂ : List (SweepEntry ι))
    (d : SweepEntry ι) (l₃ : List (SweepEntry ι)), log = l₁ ++ r :: l₂ ++ d :: l₃ →
    isAcceptance msUrl r.event → isRemoval msUrl d.event →
    (∀ e ∈ l₂, ¬ isRemoval msUrl e.event) →
      ∃ b ∈ l₂, b.who = d.who ∧ isFailingProbe msUrl b.event

/-- Between a sweep's failing probe of a URL and its removal of it, no
registration is accepted there. -/
def NoneBetween (log : List (SweepEntry ι)) : Prop :=
  ∀ (msUrl : String) (l₁ : List (SweepEntry ι)) (b : SweepEntry ι) (l₂ : List (SweepEntry ι))
    (d : SweepEntry ι) (l₃ : List (SweepEntry ι)), log = l₁ ++ b :: l₂ ++ d :: l₃ →
    isFailingProbe msUrl b.event → isRemoval msUrl d.event → b.who = d.who →
      ∀ r ∈ l₂, ¬ isAcceptance msUrl r.event

theorem exists_last {α : Type*} {p : α → Prop} {l : List α} (h : ∃ x ∈ l, p x) :
    ∃ l₁ x l₂, l = l₁ ++ x :: l₂ ∧ p x ∧ ∀ y ∈ l₂, ¬ p y := by
  induction l using List.reverseRecOn with
  | nil => simp at h
  | append_singleton l y ih =>
    by_cases hy : p y
    · exact ⟨l, y, [], rfl, hy, by simp⟩
    · have hl : ∃ x ∈ l, p x := by
        obtain ⟨x, hx, hpx⟩ := h
        rcases List.mem_append.mp hx with hx | hx
        · exact ⟨x, hx, hpx⟩
        · exact absurd (List.mem_singleton.mp hx ▸ hpx) hy
      obtain ⟨l₁, x, l₂, rfl, hx, hl₂⟩ := ih hl
      refine ⟨l₁, x, l₂ ++ [y], by simp, hx, ?_⟩
      intro z hz
      rcases List.mem_append.mp hz with hz | hz
      · exact hl₂ z hz
      · exact List.mem_singleton.mp hz ▸ hy

/-- Of several registrations before a removal, one was not removed since. -/
theorem exists_last_acceptance
    (h : Pool.Run (sweepServer java) (sweepStart registry clients) log c) {msUrl : String}
    {l₁ l₂ l₃ : List (SweepEntry ι)} {d : SweepEntry ι} (hlog : log = l₁ ++ l₂ ++ d :: l₃)
    (hrem : isRemoval msUrl d.event) (hacc : ∃ r ∈ l₂, isAcceptance msUrl r.event) :
    ∃ m₁ r m₂, l₂ = m₁ ++ r :: m₂ ∧ isAcceptance msUrl r.event ∧
      ∀ e ∈ m₂, ¬ isRemoval msUrl e.event := by
  obtain ⟨m₁, x, m₂, rfl, hx, hm₂⟩ :=
    @exists_last _ (fun e => isAcceptance msUrl e.event ∨ isRemoval msUrl e.event) l₂ (by
      obtain ⟨r, hr, hacc⟩ := hacc
      exact ⟨r, hr, .inl hacc⟩)
  rcases hx with hx | hx
  · exact ⟨m₁, x, m₂, rfl, hx, fun e he hrem => hm₂ e he (.inr hrem)⟩
  -- after a removal the key would be gone for good
  exfalso
  have hserve := h.serves
  rw [hlog, ← List.append_assoc] at h
  obtain ⟨c₁, c₂, hrun, hpost, hpre⟩ := h.between
  have hgone : msUrl ∉ c₁.state.registry := by
    obtain ⟨hans, hstep⟩ := hserve x (by rw [hlog]; simp)
    rw [hpost, hstep, mem_step hans]
    rintro (⟨-, hnot⟩ | hacc)
    · exact hnot hx
    · have hdereg := eq_of_isRemoval hx
      change x.event = _ at hdereg
      change isAcceptance msUrl x.event at hacc
      rw [hdereg] at hacc
      cases hacc
  have hthere : msUrl ∈ c₂.state.registry := by
    obtain ⟨hans, -⟩ := hserve d (by rw [hlog]; simp)
    rw [hpre]
    exact mem_of_isRemoval hans hrem
  rcases hrun.until (P := fun s => msUrl ∉ s.registry)
    (E := fun e => isAcceptance msUrl e.event) (by
      intro e hserve hnot
      by_cases hacc : isAcceptance msUrl e.event
      · exact .inr hacc
      · left
        rw [hserve.2, mem_step hserve.1]
        rintro (⟨hmem, -⟩ | hacc')
        · exact hnot hmem
        · exact hacc hacc') hgone with hnot | ⟨e, he, hacc⟩
  · exact hnot hthere
  · exact hm₂ e he (.inl hacc)

/-- **A registration is dropped only on the strength of a later probe exactly
if none is accepted between a sweep's failing probe and its removal.** -/
theorem probed_after_iff (h : Pool.Run (sweepServer java) (sweepStart registry clients) log c) :
    ProbedAfter log ↔ NoneBetween log := by
  constructor
  · intro hprobed msUrl l₁ b l₂ d l₃ hlog hfail hrem hwho r hr hacc
    obtain ⟨m₁, r', m₂, rfl, hacc', hm₂⟩ :=
      @exists_last_acceptance ι _ java registry clients log c h msUrl (l₁ ++ [b]) l₂ l₃ d
        (by simp [hlog]) hrem ⟨r, hr, hacc⟩
    obtain ⟨b', hb', hwho', hfail'⟩ := hprobed msUrl (l₁ ++ b :: m₁) r' m₂ d l₃
      (by simp [hlog]) hacc' hrem hm₂
    -- the same sweep would have probed the URL twice
    have honce := probed_once h d.who msUrl
    have hfirst : proj d.who log
        = proj d.who l₁ ++ b.event :: proj d.who (m₁ ++ r' :: m₂ ++ d :: l₃) := by
      rw [hlog, List.append_assoc, List.cons_append, proj_append, proj_cons hwho]
    have hsecond : 0 < (proj d.who (m₁ ++ r' :: m₂ ++ d :: l₃)).countP (isProbe msUrl) := by
      apply List.countP_pos_iff.mpr
      refine ⟨b'.event, mem_proj.mpr ⟨b', ?_, hwho', rfl⟩, isProbe_of_isFailingProbe hfail'⟩
      simp [hb']
    rw [hfirst, List.countP_append,
      List.countP_cons_of_pos (isProbe_of_isFailingProbe hfail)] at honce
    omega
  · intro hnone msUrl l₁ r l₂ d l₃ hlog hacc hrem _
    obtain ⟨b, hb, hwho, hfail⟩ := probed_of_removal h hlog hrem
    rcases List.mem_append.mp hb with hb | hb
    · -- a probe before the registration leaves it between probe and removal
      obtain ⟨m₁, m₂, rfl⟩ := List.append_of_mem hb
      exact absurd hacc (hnone msUrl m₁ b (m₂ ++ r :: l₂) d l₃ (by simp [hlog]) hfail hrem hwho r
        (by simp))
    · rcases List.mem_cons.mp hb with rfl | hb
      · obtain ⟨_, heq⟩ := eq_of_isProbe (isProbe_of_isFailingProbe hfail)
        rw [heq] at hacc
        cases hacc
      · exact ⟨b, hb, hwho, hfail⟩

/-- One sweep, and a host that registers its second function. -/
def sweepAndRegister : Bool → RegistryClient
  | false => .sweep
  | true => .register { sampleService "a" with msFunction := "multiply" }

/-- The first function is registered, and no instance answers. -/
def sweepOne (schedule : List Bool) :
    List (SweepEntry Bool) × Pool Bool SweepState SweepOp SweepOp.Ans
      (Except SweepException Unit) :=
  Pool.play (sweepServe sampleJava sampleInstances) schedule
    (sweepStart ((∅ : Registry).push "http://a:8080" (sampleService "a")) sweepAndRegister)

theorem run_sweepOne (schedule : List Bool) :
    Pool.Run (sweepServer sampleJava)
      (sweepStart ((∅ : Registry).push "http://a:8080" (sampleService "a")) sweepAndRegister)
      (sweepOne schedule).1 (sweepOne schedule).2 :=
  run_sweepServe sampleJava sampleInstances schedule _

theorem probed_after_iff_sweepOne :
    ProbedAfter (sweepOne [false, true, false, false, false]).1 ↔
      NoneBetween (sweepOne [false, true, false, false, false]).1 :=
  probed_after_iff (run_sweepOne _)

/-- A registration is accepted after the failing probe, and dropped. -/
theorem dropped_unprobed :
    ¬ ∀ (java : Java) (registry : Registry) (clients : Bool → RegistryClient)
      (log : List (SweepEntry Bool))
      (c : Pool Bool SweepState SweepOp SweepOp.Ans (Except SweepException Unit)),
      Pool.Run (sweepServer java) (sweepStart registry clients) log c → ProbedAfter log := by
  intro h
  have hprobed : ProbedAfter (sweepOne [false, false, false, true, false]).1 :=
    h _ _ _ _ _ (run_sweepOne _)
  have hacc : (sweepOne [false, false, false, true, false]).1.map
      (fun e => isAcceptance "http://a:8080" e.event) = [false, false, false, true, false] := by
    decide +kernel
  have hrem : (sweepOne [false, false, false, true, false]).1.map
      (fun e => isRemoval "http://a:8080" e.event) = [false, false, false, false, true] := by
    decide +kernel
  generalize (sweepOne [false, false, false, true, false]).1 = log at hprobed hacc hrem
  have hlen : log.length = 5 := by
    simpa using congrArg List.length hacc
  match log, hlen with
  | [e₀, e₁, e₂, r, d], _ =>
    simp only [List.map_cons, List.cons.injEq] at hacc hrem
    obtain ⟨b, hb, -⟩ := hprobed "http://a:8080" [e₀, e₁, e₂] r [] d [] rfl hacc.2.2.2.1
      hrem.2.2.2.2.1 (by simp)
    cases hb

end ResilientMesh
