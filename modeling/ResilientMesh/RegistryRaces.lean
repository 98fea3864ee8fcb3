/-
ResilientMesh/RegistryRaces.lean

Registrations at the same time.  The registry is a map of references to lists
in a heap; every get, duplicate check, append and put is a step of its own.
`registerMs` puts back the list it got, or a new one if it got none.

Main result: every acknowledged registration is stored in the end exactly if
no two requests for one URL have both found no list for it in `registerMs`
(`acknowledged_stored_iff`).
-/
import ResilientMesh.RegistryRuns
import ResilientMesh.Pool

namespace ResilientMesh

variable {ι : Type} [DecidableEq ι]

/-! ### The shared map -/

/-- The lists there are: the one a URL had in the beginning, and the one that a
request makes. -/
inductive ListRef (ι : Type)
  | stored (msUrl : String)
  | new (i : ι)
  deriving DecidableEq

/-- `registeredMicroservices`, and the lists it refers to. -/
structure SharedRegistry (ι : Type) where
  registered : String → Option (ListRef ι)
  list : ListRef ι → List MicroserviceInfo

/-- The two methods that get the list of a URL. -/
inductive GetSite
  | isServiceRegistered
  | registerMs
  deriving DecidableEq

/-- The atomic steps of a registration. -/
inductive MapOp (ι : Type)
  | get (site : GetSite) (msUrl : String)
  | anyMatch (list : ListRef ι) (msInfo : MicroserviceInfo)
  | add (list : ListRef ι) (msInfo : MicroserviceInfo)
  | put (msUrl : String) (list : ListRef ι)

/-- What they give back. -/
abbrev MapOp.Ans : MapOp ι → Type
  | get _ _ => Option (ListRef ι)
  | anyMatch _ _ => Bool
  | add _ _ => Unit
  | put _ _ => Unit

def mapServe (s : SharedRegistry ι) : (op : MapOp ι) → op.Ans × SharedRegistry ι
  | .get _ msUrl => (s.registered msUrl, s)
  | .anyMatch list msInfo => ((s.list list).any fun stored => msInfo = stored, s)
  | .add list msInfo =>
    ((), { s with list := Function.update s.list list (s.list list ++ [msInfo]) })
  | .put msUrl list => ((), { s with registered := Function.update s.registered msUrl (some list) })

abbrev RegisterProg (ι : Type) :=
  Prog (MapOp ι) MapOp.Ans (Except RegistryException Unit)

abbrev MapEvent (ι : Type) := Event (MapOp ι) MapOp.Ans

abbrev MapEntry (ι : Type) := Entry ι (SharedRegistry ι) (MapOp ι) MapOp.Ans

/-! ### A registration, step by step -/

namespace Stepwise

def isServiceRegistered (msInfo : MicroserviceInfo) (msUrl : String) : RegisterProg ι :=
  .call (.get .isServiceRegistered msUrl) fun registeredMsInfo =>
    match registeredMsInfo with
    | none => .ret (.ok ())
    | some list =>
      .call (.anyMatch list msInfo) fun registered =>
        match registered with
        | true => .ret (.error .serviceAlreadyRegistered)
        | false => .ret (.ok ())

/-- The list is `new i` if the URL has none. -/
def registerMs (i : ι) (msInfo : MicroserviceInfo) (msUrl : String) : RegisterProg ι :=
  .call (.get .registerMs msUrl) fun microserviceInfos =>
    let list := microserviceInfos.getD (.new i)
    .call (.add list msInfo) fun _ => .call (.put msUrl list) fun _ => .ret (.ok ())

def registerMicroservice (i : ι) (msInfo : MicroserviceInfo) : RegisterProg ι :=
  let msUrl := getUrlFromMsInfo msInfo
  (isServiceRegistered msInfo msUrl).bind fun check =>
    match check with
    | .error e => .ret (.error e)
    | .ok () => registerMs i msInfo msUrl

end Stepwise

/-- The map of a registry, with a list for every key. -/
def SharedRegistry.ofRegistry (registry : Registry) : SharedRegistry ι where
  registered msUrl := (registry.lookup msUrl).map fun _ => .stored msUrl
  list
    | .stored msUrl => registry.under msUrl
    | .new _ => []

/-- Every request is about to register its info. -/
def registrations (registry : Registry) (request : ι → MicroserviceInfo) :
    Pool ι (SharedRegistry ι) (MapOp ι) MapOp.Ans (Except RegistryException Unit) :=
  ⟨.ofRegistry registry, fun i => Stepwise.registerMicroservice i (request i)⟩

/-- The request was answered 200. -/
def Acknowledged (q : RegisterProg ι) : Prop := q = .ret (.ok ())

instance : DecidablePred (Acknowledged : RegisterProg ι → Prop)
  | .ret (.ok ()) => isTrue rfl
  | .ret (.error _) => isFalse fun h => nomatch h
  | .call _ _ => isFalse fun h => nomatch h

/-- The info is in the list of its URL. -/
def SharedRegistry.Stored (s : SharedRegistry ι) (msInfo : MicroserviceInfo) : Prop :=
  ∃ list ∈ s.registered (getUrlFromMsInfo msInfo), msInfo ∈ s.list list

instance (s : SharedRegistry ι) : DecidablePred s.Stored :=
  fun _ => inferInstanceAs (Decidable (∃ list ∈ s.registered _, _))

/-! ### One request alone -/

/-- The map stands for a registry: a list for every key, no list for two keys,
and the list that `i` would make is still unused. -/
structure SharedRegistry.Represents (s : SharedRegistry ι) (i : ι) (registry : Registry) :
    Prop where
  lookup : ∀ msUrl, (s.registered msUrl).map s.list = registry.lookup msUrl
  own : ∀ msUrl msUrl' list, s.registered msUrl = some list → s.registered msUrl' = some list →
    msUrl = msUrl'
  unused : s.list (.new i) = [] ∧ ∀ msUrl, s.registered msUrl ≠ some (.new i)

omit [DecidableEq ι] in
theorem represents_ofRegistry (registry : Registry) (i : ι) :
    (SharedRegistry.ofRegistry registry).Represents i registry := by
  constructor
  · intro msUrl
    show ((registry.lookup msUrl).map _).map _ = _
    cases hl : registry.lookup msUrl with
    | none => rfl
    | some l =>
      show some (registry.under msUrl) = some l
      rw [ListMap.under, hl]
      rfl
  · intro msUrl msUrl' list h h'
    obtain ⟨_, -, rfl⟩ := Option.map_eq_some_iff.mp h
    obtain ⟨_, -, heq⟩ := Option.map_eq_some_iff.mp h'
    exact (ListRef.stored.inj heq).symm
  · refine ⟨rfl, ?_⟩
    intro msUrl h
    obtain ⟨_, -, heq⟩ := Option.map_eq_some_iff.mp h
    cases heq

/-- Appending to the list of a URL and putting it there again is a push. -/
theorem SharedRegistry.Represents.push {s : SharedRegistry ι} {i : ι} {registry : Registry}
    (h : s.Represents i registry) (msUrl : String) (msInfo : MicroserviceInfo) (u : String) :
    let list := (s.registered msUrl).getD (.new i)
    let s' := (mapServe (mapServe s (.add list msInfo)).2 (.put msUrl list)).2
    (s'.registered u).map s'.list = (registry.push msUrl msInfo).lookup u := by
  dsimp only [mapServe]
  have hbefore : s.list ((s.registered msUrl).getD (.new i)) = registry.under msUrl := by
    rw [ListMap.under, ← h.lookup msUrl]
    cases s.registered msUrl with
    | none => exact h.unused.1
    | some list => rfl
  by_cases hu : u = msUrl
  · subst hu
    rw [Function.update_self, ListMap.push, AList.lookup_insert, Option.map_some,
      Function.update_self, hbefore]
  · rw [Function.update_of_ne hu, ListMap.push, AList.lookup_insert_ne hu, ← h.lookup u]
    -- no other URL has the list that was appended to
    cases hreg : s.registered u with
    | none => rfl
    | some other =>
      rw [Option.map_some, Option.map_some, Function.update_of_ne]
      rintro rfl
      cases hown : s.registered msUrl with
      | none =>
        rw [hown] at hreg
        exact h.unused.2 u hreg
      | some list =>
        rw [hown] at hreg
        exact hu (h.own u msUrl list hreg hown)

theorem run_isServiceRegistered {s : SharedRegistry ι} {i : ι} {registry : Registry}
    (h : s.Represents i registry) (msInfo : MicroserviceInfo) (msUrl : String) :
    (Stepwise.isServiceRegistered msInfo msUrl).run mapServe s
      = (isServiceRegistered registry msInfo msUrl, s) := by
  unfold Stepwise.isServiceRegistered isServiceRegistered
  rw [← h.lookup msUrl, Prog.run_call]
  dsimp only [mapServe]
  cases s.registered msUrl with
  | none => rfl
  | some list =>
    dsimp only [Option.map_some, Prog.run_call, mapServe]
    cases (s.list list).any fun stored => decide (msInfo = stored) <;> rfl

/-- **Alone, the steps of a registration are one registration.** -/
theorem run_registerMicroservice {s : SharedRegistry ι} {i : ι} {registry : Registry}
    (h : s.Represents i registry) (msInfo : MicroserviceInfo) :
    let r := (Stepwise.registerMicroservice i msInfo).run mapServe s
    r.1 = (registerMicroservice registry msInfo).1 ∧
      ∀ msUrl, (r.2.registered msUrl).map r.2.list
        = (registerMicroservice registry msInfo).2.lookup msUrl := by
  dsimp only
  rw [Stepwise.registerMicroservice, Prog.run_bind, run_isServiceRegistered h, registerMicroservice]
  cases isServiceRegistered registry msInfo (getUrlFromMsInfo msInfo) with
  | error e => exact ⟨rfl, h.lookup⟩
  | ok _ => exact ⟨rfl, h.push (getUrlFromMsInfo msInfo) msInfo⟩

/-! ### What one request does -/

/-- The request `i` appends its info to the list that it got in `registerMs`,
or to a new one, and puts that list under its URL. -/
structure Registering (i : ι) (msInfo : MicroserviceInfo) (tr : List (MapEvent ι))
    (q : RegisterProg ι) : Prop where
  get : ∀ msUrl got, ⟨.get .registerMs msUrl, got⟩ ∈ tr → msUrl = getUrlFromMsInfo msInfo
  once : ∀ got got', ⟨.get .registerMs (getUrlFromMsInfo msInfo), got⟩ ∈ tr →
    ⟨.get .registerMs (getUrlFromMsInfo msInfo), got'⟩ ∈ tr → got = got'
  add : ∀ list x, ⟨.add list x, ()⟩ ∈ tr → x = msInfo ∧
    ∃ got, ⟨.get .registerMs (getUrlFromMsInfo msInfo), got⟩ ∈ tr ∧ list = got.getD (.new i)
  put : ∀ msUrl list, ⟨.put msUrl list, ()⟩ ∈ tr → msUrl = getUrlFromMsInfo msInfo ∧
    ∃ got, ⟨.get .registerMs (getUrlFromMsInfo msInfo), got⟩ ∈ tr ∧ list = got.getD (.new i)
  acknowledged : Acknowledged q → ∃ list,
    ⟨.add list msInfo, ()⟩ ∈ tr ∧ ⟨.put (getUrlFromMsInfo msInfo) list, ()⟩ ∈ tr
  passed : ∀ msUrl got, ⟨.get .registerMs msUrl, got⟩ ∈ tr → q.Returned → Acknowledged q

omit [DecidableEq ι] in
theorem registerMs_path {i : ι} {msInfo : MicroserviceInfo} {tr : List (MapEvent ι)}
    {q : RegisterProg ι}
    (h : (Stepwise.registerMs i msInfo (getUrlFromMsInfo msInfo)).Path tr q) :
    Registering i msInfo tr q := by
  rcases Prog.path_call_iff.mp h with ⟨rfl, rfl⟩ | ⟨got, tr₁, rfl, h₁⟩
  · constructor <;> simp [Acknowledged]
  rcases Prog.path_call_iff.mp h₁ with ⟨rfl, rfl⟩ | ⟨_, tr₂, rfl, h₂⟩
  · constructor <;> simp [Acknowledged]
  rcases Prog.path_call_iff.mp h₂ with ⟨rfl, rfl⟩ | ⟨_, tr₃, rfl, h₃⟩
  · constructor <;> simp [Acknowledged]
  obtain ⟨rfl, rfl⟩ := Prog.path_ret_iff.mp h₃
  constructor <;> simp [Acknowledged]

/-- The duplicate check, and the get before it. -/
def MapOp.isCheck : MapOp ι → Bool
  | get .isServiceRegistered _ => true
  | anyMatch _ _ => true
  | _ => false

omit [DecidableEq ι] in
/-- The check is no part of what is registered. -/
theorem Registering.cons {i : ι} {msInfo : MicroserviceInfo} {tr : List (MapEvent ι)}
    {q : RegisterProg ι} (h : Registering i msInfo tr q) {e : MapEvent ι}
    (he : e.op.isCheck = true) : Registering i msInfo (e :: tr) q := by
  have hskip : ∀ ev : MapEvent ι, ev.op.isCheck = false → (ev ∈ e :: tr ↔ ev ∈ tr) := by
    intro ev hev
    rw [List.mem_cons, or_iff_right]
    rintro rfl
    rw [he] at hev
    cases hev
  have hskipGet : ∀ (msUrl : String) (got : Option (ListRef ι)),
      (⟨.get .registerMs msUrl, got⟩ : MapEvent ι) ∈ e :: tr ↔ ⟨.get .registerMs msUrl, got⟩ ∈ tr :=
    fun _ _ => hskip _ rfl
  have hskipAdd : ∀ (list : ListRef ι) (x : MicroserviceInfo),
      (⟨.add list x, ()⟩ : MapEvent ι) ∈ e :: tr ↔ ⟨.add list x, ()⟩ ∈ tr :=
    fun _ _ => hskip _ rfl
  have hskipPut : ∀ (msUrl : String) (list : ListRef ι),
      (⟨.put msUrl list, ()⟩ : MapEvent ι) ∈ e :: tr ↔ ⟨.put msUrl list, ()⟩ ∈ tr :=
    fun _ _ => hskip _ rfl
  obtain ⟨hget, honce, hadd, hput, hack, hpassed⟩ := h
  constructor
  case get => simpa only [hskipGet, hskipAdd, hskipPut] using hget
  case once => simpa only [hskipGet, hskipAdd, hskipPut] using honce
  case add => simpa only [hskipGet, hskipAdd, hskipPut] using hadd
  case put => simpa only [hskipGet, hskipAdd, hskipPut] using hput
  case acknowledged => simpa only [hskipGet, hskipAdd, hskipPut] using hack
  case passed => simpa only [hskipGet, hskipAdd, hskipPut] using hpassed

omit [DecidableEq ι] in
/-- **Along every path a request registers what it was sent for.** -/
theorem registerMicroservice_path {i : ι} {msInfo : MicroserviceInfo} {tr : List (MapEvent ι)}
    {q : RegisterProg ι} (h : (Stepwise.registerMicroservice i msInfo).Path tr q) :
    Registering i msInfo tr q := by
  rcases Prog.path_call_iff.mp h with ⟨rfl, rfl⟩ | ⟨registeredMsInfo, tr₁, rfl, h₁⟩
  · constructor <;> simp [Acknowledged]
  apply Registering.cons _ rfl
  cases registeredMsInfo with
  | none => exact registerMs_path h₁
  | some list =>
    rcases Prog.path_call_iff.mp h₁ with ⟨rfl, rfl⟩ | ⟨registered, tr₂, rfl, h₂⟩
    · constructor <;> simp [Acknowledged]
    apply Registering.cons _ rfl
    cases registered with
    | true =>
      obtain ⟨rfl, rfl⟩ := Prog.path_ret_iff.mp h₂
      constructor <;> simp [Acknowledged]
    | false => exact registerMs_path h₂

/-! ### What holds of the map at every moment -/

variable {registry : Registry} {request : ι → MicroserviceInfo} {log : List (MapEntry ι)}
  {c c' : Pool ι (SharedRegistry ι) (MapOp ι) MapOp.Ans (Except RegistryException Unit)}

/-- The request found no list for its URL in `registerMs`. -/
def FoundNone (request : ι → MicroserviceInfo) (log : List (MapEntry ι)) (i : ι) : Prop :=
  ⟨.get .registerMs (getUrlFromMsInfo (request i)), none⟩ ∈ proj i log

/-- The lists a URL may have: its own from the beginning, or that of a request
that found none. -/
def Owned (registry : Registry) (request : ι → MicroserviceInfo) (log : List (MapEntry ι))
    (msUrl : String) (list : ListRef ι) : Prop :=
  (list = .stored msUrl ∧ msUrl ∈ registry) ∨
    ∃ i, list = .new i ∧ getUrlFromMsInfo (request i) = msUrl ∧ FoundNone request log i

theorem Owned.append {msUrl : String} {list : ListRef ι}
    (h : Owned registry request log msUrl list) (e : MapEntry ι) :
    Owned registry request (log ++ [e]) msUrl list := by
  rcases h with h | ⟨i, rfl, hurl, hnone⟩
  · exact .inl h
  · exact .inr ⟨i, rfl, hurl, mem_proj_concat.mpr (.inl hnone)⟩

/-- What the steps so far have made of the map. -/
structure Consistent (registry : Registry) (request : ι → MicroserviceInfo)
    (log : List (MapEntry ι)) (s : SharedRegistry ι) : Prop where
  owned : ∀ msUrl list, s.registered msUrl = some list → Owned registry request log msUrl list
  kept : ∀ msUrl, msUrl ∈ registry → (s.registered msUrl).isSome
  put : ∀ i msUrl list, ⟨.put msUrl list, ()⟩ ∈ proj i log → (s.registered msUrl).isSome
  found : ∀ i msUrl list, ⟨.get .registerMs msUrl, some list⟩ ∈ proj i log →
    Owned registry request log msUrl list
  missing : ∀ i msUrl, ⟨.get .registerMs msUrl, none⟩ ∈ proj i log → msUrl ∉ registry
  added : ∀ i list x, ⟨.add list x, ()⟩ ∈ proj i log → x ∈ s.list list
  members : ∀ k x, x ∈ s.list (.new k) → ∃ i, ⟨.add (.new k) x, ()⟩ ∈ proj i log

theorem consistent_start : Consistent registry request []
    (registrations registry request).state where
  owned := by
    intro msUrl list h
    obtain ⟨l, hl, rfl⟩ := Option.map_eq_some_iff.mp h
    exact .inl ⟨rfl, AList.lookup_isSome.mp (by rw [hl]; rfl)⟩
  kept := by
    intro msUrl h
    show ((registry.lookup msUrl).map _).isSome
    rw [Option.isSome_map]
    exact AList.lookup_isSome.mpr h
  put := by simp
  found := by simp
  missing := by simp
  added := by simp
  members := by
    intro k x h
    cases h

/-- What a step must leave behind to be consistent with the steps before it. -/
def Accounted (registry : Registry) (request : ι → MicroserviceInfo) (log : List (MapEntry ι))
    (s : SharedRegistry ι) : MapEvent ι → Prop
  | ⟨.get .isServiceRegistered _, _⟩ => True
  | ⟨.get .registerMs msUrl, none⟩ => msUrl ∉ registry
  | ⟨.get .registerMs msUrl, some list⟩ => Owned registry request log msUrl list
  | ⟨.anyMatch _ _, _⟩ => True
  | ⟨.add list x, _⟩ => x ∈ s.list list
  | ⟨.put msUrl _, _⟩ => (s.registered msUrl).isSome

/-- One more step: no key and no member is lost, and what is new is accounted
for. -/
theorem Consistent.next {s s' : SharedRegistry ι} (h : Consistent registry request log s)
    {e : MapEntry ι} (haccounted : Accounted registry request (log ++ [e]) s' e.event)
    (hregistered : ∀ msUrl list, s'.registered msUrl = some list →
      s.registered msUrl = some list ∨ Owned registry request (log ++ [e]) msUrl list)
    (hkeys : ∀ msUrl, (s.registered msUrl).isSome → (s'.registered msUrl).isSome)
    (hlists : ∀ list x, x ∈ s.list list → x ∈ s'.list list)
    (hmembers : ∀ list x, x ∈ s'.list list → x ∈ s.list list ∨ e.event = ⟨.add list x, ()⟩) :
    Consistent registry request (log ++ [e]) s' where
  owned := by
    intro msUrl list hlist
    rcases hregistered msUrl list hlist with hlist | howned
    · exact (h.owned msUrl list hlist).append e
    · exact howned
  kept := fun msUrl hmem => hkeys msUrl (h.kept msUrl hmem)
  put := by
    intro i msUrl list hev
    rcases mem_proj_concat.mp hev with hev | ⟨-, hev⟩
    · exact hkeys msUrl (h.put i msUrl list hev)
    · rw [hev] at haccounted
      exact haccounted
  found := by
    intro i msUrl list hev
    rcases mem_proj_concat.mp hev with hev | ⟨-, hev⟩
    · exact (h.found i msUrl list hev).append e
    · rw [hev] at haccounted
      exact haccounted
  missing := by
    intro i msUrl hev
    rcases mem_proj_concat.mp hev with hev | ⟨-, hev⟩
    · exact h.missing i msUrl hev
    · rw [hev] at haccounted
      exact haccounted
  added := by
    intro i list x hev
    rcases mem_proj_concat.mp hev with hev | ⟨-, hev⟩
    · exact hlists list x (h.added i list x hev)
    · rw [hev] at haccounted
      exact haccounted
  members := by
    intro k x hx
    rcases hmembers (.new k) x hx with hx | hev
    · obtain ⟨i, hi⟩ := h.members k x hx
      exact ⟨i, mem_proj_concat.mpr (.inl hi)⟩
    · exact ⟨e.who, mem_proj_concat.mpr (.inr ⟨rfl, hev⟩)⟩

/-- A step that leaves the map alone. -/
theorem Consistent.read {s : SharedRegistry ι} (h : Consistent registry request log s)
    {e : MapEntry ι} (haccounted : Accounted registry request (log ++ [e]) s e.event) :
    Consistent registry request (log ++ [e]) s :=
  h.next haccounted (fun _ _ => .inl) (fun _ => id) (fun _ _ => id) (fun _ _ => .inl)

theorem Consistent.add {s : SharedRegistry ι} (h : Consistent registry request log s)
    {e : MapEntry ι} {l : ListRef ι} {y : MicroserviceInfo} (he : e.event = ⟨.add l y, ()⟩) :
    Consistent registry request (log ++ [e]) (mapServe s (.add l y)).2 := by
  have hmem : ∀ list x, x ∈ (mapServe s (.add l y)).2.list list ↔
      x ∈ s.list list ∨ list = l ∧ x = y := by
    intro list x
    show x ∈ Function.update s.list l (s.list l ++ [y]) list ↔ _
    by_cases hl : list = l
    · subst hl
      rw [Function.update_self, List.mem_append, List.mem_singleton]
      simp
    · rw [Function.update_of_ne hl]
      simp [hl]
  apply h.next
  · rw [he]
    exact (hmem l y).mpr (.inr ⟨rfl, rfl⟩)
  · exact fun _ _ => .inl
  · exact fun _ => id
  · exact fun list x hx => (hmem list x).mpr (.inl hx)
  · intro list x hx
    rcases (hmem list x).mp hx with hx | ⟨rfl, rfl⟩
    · exact .inl hx
    · exact .inr he

theorem Consistent.put_list {s : SharedRegistry ι} (h : Consistent registry request log s)
    {e : MapEntry ι} {u : String} {l : ListRef ι} (he : e.event = ⟨.put u l, ()⟩)
    (howned : Owned registry request (log ++ [e]) u l) :
    Consistent registry request (log ++ [e]) (mapServe s (.put u l)).2 := by
  have hself : (mapServe s (.put u l)).2.registered u = some l := Function.update_self ..
  have hother : ∀ msUrl, msUrl ≠ u →
      (mapServe s (.put u l)).2.registered msUrl = s.registered msUrl :=
    fun msUrl hu => Function.update_of_ne hu ..
  apply h.next
  · rw [he]
    show ((mapServe s (.put u l)).2.registered u).isSome
    rw [hself]
    rfl
  · intro msUrl list hlist
    by_cases hu : msUrl = u
    · subst hu
      rw [hself] at hlist
      exact .inr (Option.some.inj hlist ▸ howned)
    · rw [hother msUrl hu] at hlist
      exact .inl hlist
  · intro msUrl hmapped
    by_cases hu : msUrl = u
    · subst hu
      rw [hself]
      rfl
    · rw [hother msUrl hu]
      exact hmapped
  · exact fun _ _ => id
  · exact fun _ _ => .inl

/-- **Every run keeps the map consistent with what was done.** -/
theorem run_consistent
    (h : Pool.Run (Pool.computed mapServe) (registrations registry request) log c) :
    Consistent registry request log c.state := by
  induction h with
  | refl => exact consistent_start
  | @tail log c c' e hrun hstep ih =>
    have hpath := fun i => registerMicroservice_path ((hrun.tail hstep).path i)
    cases hstep with
    | @mk i op next a s hprog hserve =>
      obtain ⟨rfl, rfl⟩ := Prod.mk.inj hserve
      cases op with
      | get site msUrl =>
        apply ih.read
        show Accounted registry request _ _ ⟨.get site msUrl, c.state.registered msUrl⟩
        cases site with
        | isServiceRegistered => trivial
        | registerMs =>
          cases hgot : c.state.registered msUrl with
          | some list => exact (ih.owned msUrl list hgot).append _
          | none =>
            intro hmem
            have hmapped := ih.kept msUrl hmem
            rw [hgot] at hmapped
            cases hmapped
      | anyMatch list msInfo => exact ih.read trivial
      | add list msInfo => exact ih.add rfl
      | put msUrl list =>
        apply ih.put_list rfl
        -- the request puts the list that it got, or its own if it got none
        obtain ⟨rfl, got, hgot, rfl⟩ := (hpath i).put msUrl list
          (mem_proj_concat.mpr (.inr ⟨rfl, rfl⟩))
        cases got with
        | none => exact .inr ⟨i, rfl, rfl, hgot⟩
        | some found =>
          rcases mem_proj_concat.mp hgot with hgot | ⟨-, hgot⟩
          · exact (ih.found i _ found hgot).append _
          · cases hgot

/-! ### Who is stored -/

/-- At most one request for each URL found none. -/
def NoRace (request : ι → MicroserviceInfo) (log : List (MapEntry ι)) : Prop :=
  ∀ i j, getUrlFromMsInfo (request i) = getUrlFromMsInfo (request j) →
    FoundNone request log i → FoundNone request log j → i = j

/-- Without a race a URL has one list. -/
theorem Owned.unique {s : SharedRegistry ι} (hcons : Consistent registry request log s)
    (hno : NoRace request log) {msUrl : String} {l l' : ListRef ι}
    (h : Owned registry request log msUrl l) (h' : Owned registry request log msUrl l') :
    l = l' := by
  rcases h with ⟨rfl, hmem⟩ | ⟨i, rfl, hi, hnone⟩
  · rcases h' with ⟨rfl, -⟩ | ⟨j, rfl, hj, hnone'⟩
    · rfl
    · exact absurd hmem (hj ▸ hcons.missing j _ hnone')
  · rcases h' with ⟨rfl, hmem⟩ | ⟨j, rfl, hj, hnone'⟩
    · exact absurd hmem (hi ▸ hcons.missing i _ hnone)
    · rw [hno i j (hi.trans hj.symm) hnone hnone']

/-- **Without a race, what is acknowledged is stored.** -/
theorem stored_of_noRace
    (h : Pool.Run (Pool.computed mapServe) (registrations registry request) log c)
    (hno : NoRace request log) {i : ι} (hack : Acknowledged (c.prog i)) :
    c.state.Stored (request i) := by
  have hcons := run_consistent h
  have hpath := registerMicroservice_path (h.path i)
  obtain ⟨list, hadd, hput⟩ := hpath.acknowledged hack
  -- the list that was put is the one the URL has, and what was appended to it stays
  obtain ⟨-, got, hgot, hlist⟩ := hpath.put _ list hput
  have howned : Owned registry request log (getUrlFromMsInfo (request i)) list := by
    cases got with
    | none => exact .inr ⟨i, hlist, rfl, hgot⟩
    | some found =>
      obtain rfl : list = found := hlist
      exact hcons.found i _ list hgot
  obtain ⟨mapped, hmapped⟩ := Option.isSome_iff_exists.mp (hcons.put i _ list hput)
  obtain rfl := howned.unique hcons hno (hcons.owned _ mapped hmapped)
  exact ⟨list, hmapped, hcons.added i list _ hadd⟩

/-- A stored request that found none is stored in its own list. -/
theorem registered_of_stored
    (h : Pool.Run (Pool.computed mapServe) (registrations registry request) log c)
    (hinj : Function.Injective request) {i : ι} (hnone : FoundNone request log i)
    (hstored : c.state.Stored (request i)) :
    c.state.registered (getUrlFromMsInfo (request i)) = some (.new i) := by
  have hcons := run_consistent h
  obtain ⟨list, hmapped, hmem⟩ := hstored
  rcases hcons.owned _ list hmapped with ⟨-, hin⟩ | ⟨k, rfl, -, -⟩
  · exact absurd hin (hcons.missing i _ hnone)
  -- the info was appended by its own request, which got no other list
  obtain ⟨j, hadd⟩ := hcons.members k _ hmem
  obtain ⟨hinfo, got, hgot, hlist⟩ := (registerMicroservice_path (h.path j)).add _ _ hadd
  obtain rfl := hinj hinfo
  obtain rfl : got = none :=
    (registerMicroservice_path (h.path i)).once _ _ hgot hnone
  rw [hmapped, hlist]
  rfl

/-- **No acknowledged registration is lost exactly if no two requests for one
URL have both found no list for it**: each of them would put a new one. -/
theorem acknowledged_stored_iff (hinj : Function.Injective request)
    (h : Pool.Run (Pool.computed mapServe) (registrations registry request) log c)
    (hdone : ∀ i ∈ Pool.ids log, (c.prog i).Returned) :
    (∀ i, Acknowledged (c.prog i) → c.state.Stored (request i)) ↔ NoRace request log := by
  constructor
  · intro hstored i j hurl hi hj
    -- both were acknowledged, and the URL has one list only
    have hack : ∀ k, FoundNone request log k → Acknowledged (c.prog k) := by
      intro k hk
      apply (registerMicroservice_path (h.path k)).passed _ _ hk
      apply hdone
      obtain ⟨e, he, hwho, _⟩ := mem_proj.mp hk
      exact Pool.mem_ids.mpr ⟨e, he, hwho⟩
    have hi' := registered_of_stored h hinj hi (hstored i (hack i hi))
    have hj' := registered_of_stored h hinj hj (hstored j (hack j hj))
    rw [hurl, hj'] at hi'
    exact (ListRef.new.inj (Option.some.inj hi')).symm
  · exact fun hno i hack => stored_of_noRace h hno hack

/-- Two functions of one host. -/
def twoFunctions : Bool → MicroserviceInfo
  | false => sampleService "a"
  | true => { sampleService "a" with msFunction := "multiply" }

theorem twoFunctions_injective : Function.Injective twoFunctions := by
  decide

/-- One after the other, with the checks interleaved. -/
def noRaceSchedule : List Bool := [false, true, false, false, false, true, true, true]

theorem acknowledged_stored_iff_twoFunctions :
    let played := Pool.play mapServe noRaceSchedule (registrations ∅ twoFunctions)
    (∀ i, Acknowledged (played.2.prog i) → played.2.state.Stored (twoFunctions i)) ↔
      NoRace twoFunctions played.1 :=
  acknowledged_stored_iff twoFunctions_injective (Pool.run_play mapServe noRaceSchedule _)
    fun i _ => by
      revert i
      decide +kernel

/-- Both get the list of the new URL before either puts one. -/
def raceSchedule : List Bool := [false, false, true, true, false, false, true, true]

/-- Both are answered 200, and the first is gone. -/
theorem acknowledged_lost :
    ¬ ∀ (registry : Registry) (request : Bool → MicroserviceInfo) (log : List (MapEntry Bool))
      (c : Pool Bool (SharedRegistry Bool) (MapOp Bool) MapOp.Ans (Except RegistryException Unit)),
      Function.Injective request →
        Pool.Run (Pool.computed mapServe) (registrations registry request) log c →
          c.Finished → ∀ i, Acknowledged (c.prog i) → c.state.Stored (request i) := by
  intro h
  have hfinished : (Pool.play mapServe raceSchedule (registrations ∅ twoFunctions)).2.Finished := by
    intro i
    revert i
    decide +kernel
  have hstored := h ∅ twoFunctions _ _ twoFunctions_injective
    (Pool.run_play mapServe raceSchedule _) hfinished false (by decide +kernel)
  revert hstored
  decide +kernel

end ResilientMesh
