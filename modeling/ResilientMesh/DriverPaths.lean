/-
ResilientMesh/DriverPaths.lean

What the threads of the driver have done, whatever they were answered.  In a
round a simulation pays 100 into every account before it starts a request
(`simulate_path`).  A request charges its user its price, and charges it more
than once only if an attempt ended in a gateway error (`randomRequest_path`).
-/
import ResilientMesh.Driver

namespace ResilientMesh

open Driver

variable {σ ρ κ : Type}

/-! ### What a simulation does -/

def createOp (u : String) : Upstream :=
  .billing .post .createAccount (ControlCenter.queryParams (billingRequest .post ("user=" ++ u)))

def depositQuery (u : String) (amount : ℤ) : String :=
  ControlCenter.queryParams (billingRequest .post ("user=" ++ u ++ "&amount=" ++ toString amount))

def depositOp (u : String) (amount : ℤ) : Upstream :=
  .billing .post .depositAccount (depositQuery u amount)

/-- The steps of a simulation. -/
def SimulateStep : DriverOp σ → Prop
  | .upstream op =>
    ∃ u ∈ Driver.users, op = createOp u ∨ op = depositOp u 1000 ∨ op = depositOp u 100
  | .run _ _ => False
  | _ => True

/-- Those that start no thread. -/
def PrepareStep : DriverOp σ → Prop
  | .start _ _ _ => False
  | op => SimulateStep op

/-- The event is the deposit of an amount for `u`. -/
def isDeposit (u : String) (amount : ℤ) : DriverEvent σ → Bool
  | ⟨.upstream (.billing .post .depositAccount query), _⟩ => query = depositQuery u amount
  | _ => false

theorem isDeposit_iff {u : String} {amount : ℤ} {query : String} {ans : Except PyError Response} :
    isDeposit (σ := σ) u amount ⟨.upstream (.billing .post .depositAccount query), ans⟩
      ↔ query = depositQuery u amount := by
  rw [isDeposit]
  exact decide_eq_true_iff

def isStart : DriverEvent σ → Bool
  | ⟨.start _ _ _, _⟩ => true
  | _ => false

theorem not_isStart {ev : DriverEvent σ} (h : PrepareStep ev.op) : ¬ isStart ev := by
  obtain ⟨op, ans⟩ := ev
  cases op with
  | start s k body => exact h.elim
  | _ => exact Bool.false_ne_true

theorem PrepareStep.simulate {op : DriverOp σ} (h : PrepareStep op) : SimulateStep op := by
  cases op with
  | start s k body => exact h.elim
  | _ => exact h

/-! ### What its parts call -/

theorem only_ofControl {α : Type} {P : DriverOp σ → Prop} {p : ControlProg α}
    (h : p.Only fun op => P (.upstream op)) : (ofControl p).Only P := by
  induction h with
  | ret a => exact .ret a
  | call hop _ ih => exact .call hop ih

theorem only_withRetries {P : Upstream → Prop} {request : ControlProg Response}
    (h : request.Only P) (attempts : ℕ) : (withRetries attempts request).Only P := by
  induction attempts with
  | zero => exact h
  | succ attempts ih =>
    refine h.bind fun response => ?_
    split_ifs
    · exact ih
    · exact .ret _

theorem only_requestsPost {P : DriverOp σ → Prop} {handler : ControlHandler} (attempts : ℕ)
    (hconnect : P .connect) (hreceive : P .receive)
    (h : handler.Only fun op => P (.upstream op)) : (requestsPost attempts handler).Only P := by
  refine .call hconnect ?_
  rintro (e | _)
  · exact .ret _
  · refine (only_ofControl (only_withRetries (h.bind fun r => .ret _) attempts)).bind ?_
    intro response
    refine .call hreceive ?_
    rintro (e | _) <;> exact .ret _

theorem only_orRaise {α β : Type} {P : DriverOp σ → Prop} {p : DriverProg σ (Except PyError α)}
    {next : α → DriverProg σ (Except PyError β)} (hp : p.Only P) (hnext : ∀ a, (next a).Only P) :
    (orRaise p next).Only P := by
  refine hp.bind ?_
  rintro (e | a)
  · exact .ret _
  · exact hnext a

theorem only_forUsers {P : DriverOp σ → Prop}
    {request : String → DriverProg σ (Except PyError Unit)}
    {us : List String} (h : ∀ u ∈ us, (request u).Only P) : (forUsers request us).Only P := by
  induction us with
  | nil => exact .ret _
  | cons u rest ih =>
    refine only_orRaise (h u (by simp)) fun _ => ?_
    exact ih fun u' hu' => h u' (List.mem_cons_of_mem _ hu')

theorem only_postDeposit (attempts : ℕ) {u : String} {amount : ℤ}
    (h : PrepareStep (σ := σ) (.upstream (depositOp u amount))) :
    (postDeposit (σ := σ) attempts amount u).Only PrepareStep :=
  only_requestsPost attempts trivial trivial (.call h fun r => by cases r <;> exact .ret _)

theorem only_fillAccount (attempts : ℕ) {u : String} (hu : u ∈ Driver.users) :
    (fillAccount (σ := σ) attempts u).Only PrepareStep :=
  only_orRaise (only_postDeposit attempts ⟨u, hu, .inr (.inr rfl)⟩) fun _ => .ret _

theorem only_openAccount (attempts : ℕ) {u : String} (hu : u ∈ Driver.users) :
    (openAccount (σ := σ) attempts u).Only PrepareStep := by
  have hcreate : PrepareStep (σ := σ) (.upstream (createOp u)) := ⟨u, hu, .inl rfl⟩
  refine only_orRaise (only_requestsPost attempts trivial trivial (.call hcreate fun r => ?_)) ?_
  · cases r <;> exact .ret _
  · exact fun _ => only_orRaise (only_postDeposit attempts ⟨u, hu, .inr (.inl rfl)⟩) fun _ => .ret _

theorem only_getRandomBody : (getRandomBody (σ := σ)).Only PrepareStep :=
  .call trivial fun _ => .call trivial fun _ => .call trivial fun _ => .call trivial fun _ =>
    .call trivial fun _ => .ret _

theorem only_checkIfShouldStopWorks (duration : Option String) (startTime : ℤ) :
    (checkIfShouldStopWorks (σ := σ) duration startTime).Only PrepareStep := by
  rw [checkIfShouldStopWorks]
  cases intDuration duration with
  | error e => exact .ret _
  | ok d =>
    refine .call trivial fun now => ?_
    split_ifs
    · exact .call trivial fun _ => .ret _
    · exact .ret _

theorem Only.simulate {α : Type} {p : DriverProg σ α} (h : p.Only PrepareStep) :
    p.Only SimulateStep := by
  induction h with
  | ret a => exact .ret a
  | call hop _ ih => exact .call hop.simulate ih

theorem only_simulateFrom (attempts : ℕ) (s : σ) (duration : Option String) (startTime : ℤ)
    (fuel k : ℕ) : (simulateFrom attempts s duration startTime fuel k).Only SimulateStep := by
  induction fuel generalizing k with
  | zero => exact .ret _
  | succ fuel ih =>
    refine .call trivial fun stop => ?_
    split_ifs
    · exact .ret _
    apply only_orRaise (Only.simulate (only_forUsers fun u hu => only_fillAccount attempts hu))
    intro _
    apply (Only.simulate only_getRandomBody).bind
    intro body
    refine .call trivial fun _ => only_orRaise (.call trivial fun _ => .ret _) fun _ => ?_
    apply only_orRaise (Only.simulate (only_checkIfShouldStopWorks duration startTime))
    exact fun _ => .call trivial fun _ => ih (k + 1)

theorem only_simulate (attempts fuel : ℕ) (s : σ) (req : Request) :
    (simulate attempts fuel s req).Only SimulateStep := by
  refine .call trivial fun startTime => ?_
  split
  · refine .call trivial fun _ => ?_
    apply only_orRaise (Only.simulate (only_forUsers fun u hu => only_openAccount attempts hu))
    exact fun _ => only_simulateFrom ..
  · exact .ret _

/-! ### What a simulation has paid in -/

variable {tr : List (DriverEvent σ)}

/-- A path goes through the first part, unless it ends there. -/
theorem orRaise_path {α β : Type} {p : DriverProg σ (Except PyError α)}
    {next : α → DriverProg σ (Except PyError β)} {q : DriverProg σ (Except PyError β)}
    (h : (orRaise p next).Path tr q) :
    (∃ q', p.Path tr q') ∨ ∃ a tr₁ tr₂, tr = tr₁ ++ tr₂ ∧ p.Path tr₁ (.ret (.ok a)) ∧
      (next a).Path tr₂ q := by
  rcases Prog.path_bind h with ⟨q', hpath, -, -⟩ | ⟨r, tr₁, tr₂, rfl, hpath, hnext⟩
  · exact .inl ⟨q', hpath⟩
  · cases r with
    | error e =>
      obtain ⟨rfl, -⟩ := Prog.path_ret_iff.mp hnext
      rw [List.append_nil]
      exact .inl ⟨_, hpath⟩
    | ok a => exact .inr ⟨a, tr₁, tr₂, rfl, hpath, hnext⟩

theorem orRaise_path_ok {α β : Type} {p : DriverProg σ (Except PyError α)}
    {next : α → DriverProg σ (Except PyError β)} {b : β}
    (h : (orRaise p next).Path tr (.ret (.ok b))) :
    ∃ a tr₁ tr₂, tr = tr₁ ++ tr₂ ∧ p.Path tr₁ (.ret (.ok a)) ∧
      (next a).Path tr₂ (.ret (.ok b)) := by
  obtain ⟨r, tr₁, tr₂, rfl, hpath, hnext⟩ := Prog.path_bind_ret h
  cases r with
  | error e =>
    obtain ⟨-, hret⟩ := Prog.path_ret_ret_iff.mp hnext
    cases hret
  | ok a => exact ⟨a, tr₁, tr₂, rfl, hpath, hnext⟩

/-- A deposit that was answered was sent. -/
theorem postDeposit_path {attempts : ℕ} {amount : ℤ} {u : String} {response : Response}
    (h : (postDeposit attempts amount u).Path tr (.ret (.ok response))) :
    ∃ ev ∈ tr, isDeposit u amount ev := by
  obtain ⟨sent, tr₁, rfl, hsent⟩ := Prog.path_call_ret_iff.mp h
  cases sent with
  | error e => cases (Prog.path_ret_ret_iff.mp hsent).2
  | ok _ =>
    obtain ⟨answer, tr₂, tr₃, rfl, hcontrol, -⟩ := Prog.path_bind_ret hsent
    -- the first thing that every attempt does is the deposit
    have hfirst : ∃ next, ofControl (withRetries attempts (answered (ControlCenter.depositAccount
        (billingRequest .post ("user=" ++ u ++ "&amount=" ++ toString amount)))))
          = Prog.call (DriverOp.upstream (σ := σ) (depositOp u amount)) next := by
      cases attempts <;> exact ⟨_, rfl⟩
    obtain ⟨next, hcall⟩ := hfirst
    rw [hcall] at hcontrol
    obtain ⟨ans, tr₄, rfl, -⟩ := Prog.path_call_ret_iff.mp hcontrol
    exact ⟨⟨.upstream (depositOp u amount), ans⟩, by simp, isDeposit_iff.mpr rfl⟩

/-- A loop over the users has done for each what one turn of it does. -/
theorem forUsers_path {request : String → DriverProg σ (Except PyError Unit)}
    {D : String → DriverEvent σ → Prop}
    (hrequest : ∀ u tr, (request u).Path tr (.ret (.ok ())) → ∃ ev ∈ tr, D u ev)
    {us : List String} (h : (forUsers request us).Path tr (.ret (.ok ()))) :
    ∀ u ∈ us, ∃ ev ∈ tr, D u ev := by
  induction us generalizing tr with
  | nil => exact fun u hu => absurd hu List.not_mem_nil
  | cons u rest ih =>
    obtain ⟨_, tr₁, tr₂, rfl, hfirst, hrest⟩ := orRaise_path_ok h
    intro u' hu'
    rcases List.mem_cons.mp hu' with rfl | hu'
    · obtain ⟨ev, hev, hD⟩ := hrequest u' tr₁ hfirst
      exact ⟨ev, List.mem_append_left _ hev, hD⟩
    · obtain ⟨ev, hev, hD⟩ := ih hrest u' hu'
      exact ⟨ev, List.mem_append_right _ hev, hD⟩

theorem fillAccount_path {attempts : ℕ} {u : String}
    (h : (fillAccount attempts u).Path tr (.ret (.ok ()))) : ∃ ev ∈ tr, isDeposit u 100 ev := by
  obtain ⟨response, tr₁, tr₂, rfl, hpath, -⟩ := orRaise_path_ok h
  obtain ⟨ev, hev, hdeposit⟩ := postDeposit_path hpath
  exact ⟨ev, List.mem_append_left _ hev, hdeposit⟩

theorem openAccount_path {attempts : ℕ} {u : String}
    (h : (openAccount attempts u).Path tr (.ret (.ok ()))) : ∃ ev ∈ tr, isDeposit u 1000 ev := by
  obtain ⟨_, tr₁, tr₂, rfl, -, hnext⟩ := orRaise_path_ok h
  obtain ⟨response, tr₃, tr₄, rfl, hpath, -⟩ := orRaise_path_ok hnext
  obtain ⟨ev, hev, hdeposit⟩ := postDeposit_path hpath
  exact ⟨ev, List.mem_append_right _ (List.mem_append_left _ hev), hdeposit⟩

/-- What was drawn is among the options. -/
def Fits : DriverEvent σ → Prop
  | ⟨.choice options, option⟩ => option ∈ options
  | ⟨.randint low high, n⟩ => low ≤ n ∧ n ≤ high
  | _ => True

/-- The text of a request as the driver draws it. -/
def Drawn (text : String) : Prop :=
  ∃ body : RequestBody, text = body.text ∧ body.user ∈ Driver.users ∧
    body.calculation ∈ calculationType ∧ 1 ≤ body.price ∧ body.price ≤ 100

theorem getRandomBody_path {text : String} (h : getRandomBody.Path tr (.ret text))
    (hfits : ∀ ev ∈ tr, Fits ev) : Drawn text := by
  obtain ⟨user, tr₁, rfl, h₁⟩ := Prog.path_call_ret_iff.mp h
  obtain ⟨calculation, tr₂, rfl, h₂⟩ := Prog.path_call_ret_iff.mp h₁
  obtain ⟨price, tr₃, rfl, h₃⟩ := Prog.path_call_ret_iff.mp h₂
  obtain ⟨firstNumber, tr₄, rfl, h₄⟩ := Prog.path_call_ret_iff.mp h₃
  obtain ⟨secondNumber, tr₅, rfl, h₅⟩ := Prog.path_call_ret_iff.mp h₄
  obtain ⟨-, rfl⟩ := Prog.path_ret_ret_iff.mp h₅
  have huser : user ∈ Driver.users := hfits ⟨.choice Driver.users, user⟩ (by simp)
  have hcalculation : calculation ∈ calculationType :=
    hfits ⟨.choice calculationType, calculation⟩ (by simp)
  have hprice : 1 ≤ price ∧ price ≤ 100 := hfits ⟨.randint 1 100, price⟩ (by simp)
  exact ⟨_, rfl, huser, hcalculation, hprice.1, hprice.2⟩

/-- What the rounds of a simulation have done: a thread was started after a
deposit for `u`, with a request as it is drawn. -/
structure Rounds (u : String) (tr : List (DriverEvent σ)) : Prop where
  starts_le : tr.countP isStart ≤ tr.countP (isDeposit u 100)
  drawn : ∀ s k body, ⟨.start s k body, ()⟩ ∈ tr → Drawn body

theorem Rounds.append {u : String} {tr' : List (DriverEvent σ)} (h : Rounds u tr)
    (h' : Rounds u tr') : Rounds u (tr ++ tr') := by
  refine ⟨?_, ?_⟩
  · rw [List.countP_append, List.countP_append]
    exact Nat.add_le_add h.starts_le h'.starts_le
  · intro s k body hmem
    rcases List.mem_append.mp hmem with hmem | hmem
    · exact h.drawn s k body hmem
    · exact h'.drawn s k body hmem

/-- Where nothing is started there is nothing to pay. -/
theorem Rounds.prepare (u : String) (h : ∀ ev ∈ tr, PrepareStep ev.op) : Rounds u tr := by
  refine ⟨?_, ?_⟩
  · rw [List.countP_eq_zero.mpr fun ev hev => not_isStart (h ev hev)]
    exact Nat.zero_le _
  · exact fun s k body hmem => (h _ hmem).elim

/-- A deposit pays for one start after it. -/
theorem Rounds.start {u : String} (hprepare : ∀ ev ∈ tr, PrepareStep ev.op)
    (hdeposit : ∃ ev ∈ tr, isDeposit u 100 ev) (s : σ) (k : ℕ) {body : String}
    (hbody : Drawn body) :
    Rounds u (tr ++ [⟨.start s k body, ()⟩]) := by
  refine ⟨?_, ?_⟩
  · rw [List.countP_append, List.countP_append,
      List.countP_eq_zero.mpr fun ev hev => not_isStart (hprepare ev hev)]
    exact (List.countP_pos_iff.mpr hdeposit).trans_le (Nat.le_add_right ..)
  · intro s' k' body' hmem
    rcases List.mem_append.mp hmem with hmem | hmem
    · exact (hprepare _ hmem).elim
    · cases List.mem_singleton.mp hmem
      exact hbody

/-- **A simulation pays for a request before it starts it**, for every user. -/
theorem simulateFrom_path {u : String} (hu : u ∈ Driver.users) {attempts : ℕ} {s : σ}
    {duration : Option String} {startTime : ℤ} {fuel k : ℕ} {q : DriverProg σ DriverOutcome}
    (h : (simulateFrom attempts s duration startTime fuel k).Path tr q)
    (hfits : ∀ ev ∈ tr, Fits ev) : Rounds u tr := by
  induction fuel generalizing k tr with
  | zero =>
    obtain ⟨rfl, -⟩ := Prog.path_ret_iff.mp h
    exact .prepare u (by simp)
  | succ fuel ih =>
    rcases Prog.path_call_iff.mp h with ⟨rfl, -⟩ | ⟨stop, tr₁, rfl, h₁⟩
    · exact .prepare u (by simp)
    have hstop : Rounds u [(⟨.shouldStop, stop⟩ : DriverEvent σ)] :=
      .prepare u fun ev hev => by rw [List.mem_singleton.mp hev]; trivial
    rw [← List.singleton_append]
    refine hstop.append ?_
    replace hfits := (List.forall_mem_cons.mp hfits).2
    split_ifs at h₁
    · obtain ⟨rfl, -⟩ := Prog.path_ret_iff.mp h₁
      exact .prepare u (by simp)
    -- the deposits, one of which is for `u`
    have hfill : (forUsers (fillAccount (σ := σ) attempts) Driver.users).Only PrepareStep :=
      only_forUsers fun u hu => only_fillAccount attempts hu
    rcases orRaise_path h₁ with ⟨q', hpath⟩ | ⟨_, tr₂, tr₃, rfl, hfilled, h₂⟩
    · exact .prepare u (hfill.path hpath)
    have hdeposit := forUsers_path (D := fun u ev => isDeposit u 100 ev)
      (fun _ _ => fillAccount_path) hfilled u hu
    have hquiet := hfill.path hfilled
    obtain ⟨hfits₂, hfits₃⟩ := List.forall_mem_append.mp hfits
    -- the body is drawn
    rcases Prog.path_bind h₂ with ⟨q', hpath, -, -⟩ | ⟨body, tr₄, tr₅, rfl, hdrawn, h₃⟩
    · exact (Rounds.prepare u hquiet).append (.prepare u (only_getRandomBody.path hpath))
    have hbody := getRandomBody_path hdrawn (List.forall_mem_append.mp hfits₃).1
    have hquiet₄ := only_getRandomBody.path hdrawn
    -- the thread is started
    rcases Prog.path_call_iff.mp h₃ with ⟨rfl, -⟩ | ⟨_, tr₆, rfl, h₄⟩
    · rw [List.append_nil]
      exact (Rounds.prepare u hquiet).append (.prepare u hquiet₄)
    have hstart : Rounds u (tr₂ ++ tr₄ ++ [⟨.start s k body, ()⟩]) := by
      apply Rounds.start (List.forall_mem_append.mpr ⟨hquiet, hquiet₄⟩) _ s k hbody
      obtain ⟨ev, hev, hisDeposit⟩ := hdeposit
      exact ⟨ev, List.mem_append_left _ hev, hisDeposit⟩
    have hsplit : tr₂ ++ (tr₄ ++ ⟨.start s k body, ()⟩ :: tr₆)
        = tr₂ ++ tr₄ ++ [⟨.start s k body, ()⟩] ++ tr₆ := by
      simp
    rw [hsplit] at hfits ⊢
    refine hstart.append ?_
    -- nothing more is started in this round
    rcases orRaise_path h₄ with ⟨q', hpath⟩ | ⟨_, tr₇, tr₈, rfl, hpath, h₅⟩
    · exact .prepare u ((Prog.Only.call trivial fun _ => .ret _).path hpath)
    refine (Rounds.prepare u ((Prog.Only.call trivial fun _ => .ret _).path hpath)).append ?_
    rcases orRaise_path h₅ with ⟨q', hpath⟩ | ⟨_, tr₉, tr₁₀, rfl, hpath, h₆⟩
    · exact .prepare u ((only_checkIfShouldStopWorks duration startTime).path hpath)
    refine (Rounds.prepare u
      ((only_checkIfShouldStopWorks duration startTime).path hpath)).append ?_
    rcases Prog.path_call_iff.mp h₆ with ⟨rfl, -⟩ | ⟨_, tr₁₁, rfl, h₇⟩
    · exact .prepare u (by simp)
    have hsleep : Rounds u [(⟨.sleep, ()⟩ : DriverEvent σ)] :=
      .prepare u fun ev hev => by rw [List.mem_singleton.mp hev]; trivial
    rw [← List.singleton_append]
    refine hsleep.append (ih h₇ ?_)
    intro ev hev
    exact hfits ev (by simp [hev])

/-- **What a simulation has done**: it pays for its requests, and has opened
the accounts before the first of them. -/
theorem simulate_path {u : String} (hu : u ∈ Driver.users) {attempts fuel : ℕ} {s : σ}
    {req : Request} {q : DriverProg σ DriverOutcome}
    (h : (simulate attempts fuel s req).Path tr q) (hfits : ∀ ev ∈ tr, Fits ev) :
    Rounds u tr ∧ (0 < tr.countP isStart → ∃ ev ∈ tr, isDeposit u 1000 ev) := by
  have hprepare : ∀ {tr : List (DriverEvent σ)}, (∀ ev ∈ tr, PrepareStep ev.op) →
      Rounds u tr ∧ (0 < tr.countP isStart → ∃ ev ∈ tr, isDeposit u 1000 ev) := by
    intro tr htr
    refine ⟨.prepare u htr, fun hpos => ?_⟩
    obtain ⟨ev, hev, hstart⟩ := List.countP_pos_iff.mp hpos
    exact absurd hstart (not_isStart (htr ev hev))
  rcases Prog.path_call_iff.mp h with ⟨rfl, -⟩ | ⟨startTime, tr₁, rfl, h₁⟩
  · exact hprepare (by simp)
  have hclock : ∀ ev ∈ [(⟨.currentTimeSeconds, startTime⟩ : DriverEvent σ)], PrepareStep ev.op :=
    fun ev hev => by rw [List.mem_singleton.mp hev]; trivial
  split at h₁
  swap
  · obtain ⟨rfl, -⟩ := Prog.path_ret_iff.mp h₁
    exact hprepare hclock
  rcases Prog.path_call_iff.mp h₁ with ⟨rfl, -⟩ | ⟨_, tr₂, rfl, h₂⟩
  · exact hprepare hclock
  have hflag : ∀ ev ∈ [(⟨.currentTimeSeconds, startTime⟩ : DriverEvent σ),
      ⟨.setShouldStop (.bool false), ()⟩], PrepareStep ev.op := by
    intro ev hev
    rcases List.mem_cons.mp hev with rfl | hev
    · trivial
    · rw [List.mem_singleton.mp hev]
      trivial
  have hopen : (forUsers (openAccount (σ := σ) attempts) Driver.users).Only PrepareStep :=
    only_forUsers fun u hu => only_openAccount attempts hu
  rcases orRaise_path h₂ with ⟨q', hpath⟩ | ⟨_, tr₃, tr₄, rfl, hopened, h₃⟩
  · exact hprepare (List.forall_mem_append.mpr ⟨hflag, hopen.path hpath⟩)
  -- all accounts are open
  obtain ⟨ev, hev, hdeposit⟩ := forUsers_path (D := fun u ev => isDeposit u 1000 ev)
    (fun _ _ => openAccount_path) hopened u hu
  have hrounds := simulateFrom_path hu h₃ fun ev hev => hfits ev (by simp [hev])
  refine ⟨?_, fun _ => ⟨ev, by simp [hev], hdeposit⟩⟩
  exact ((Rounds.prepare u hflag).append (.prepare u (hopen.path hopened))).append hrounds

/-! ### What a request does -/

/-- The event of the control-center, as one of the driver. -/
def upstreamEvent (e : UpstreamEvent) : DriverEvent σ := ⟨.upstream e.op, e.ans⟩

/-- The event is one of the control-center, and one of `p`. -/
def onUpstream (p : UpstreamEvent → Bool) : DriverEvent σ → Bool
  | ⟨.upstream op, ans⟩ => p ⟨op, ans⟩
  | _ => false

theorem ofControl_path {α : Type} {p : ControlProg α} {q : DriverProg σ α}
    (h : (ofControl p).Path tr q) :
    ∃ tr' q', p.Path tr' q' ∧ tr = tr'.map upstreamEvent ∧ q = ofControl q' := by
  induction p generalizing tr with
  | ret a =>
    obtain ⟨rfl, rfl⟩ := Prog.path_ret_iff.mp h
    exact ⟨[], .ret a, .nil _, rfl, rfl⟩
  | call op next ih =>
    rcases Prog.path_call_iff.mp h with ⟨rfl, rfl⟩ | ⟨ans, tr₁, rfl, h₁⟩
    · exact ⟨[], .call op next, .nil _, rfl, rfl⟩
    · obtain ⟨tr', q', hpath, rfl, rfl⟩ := ih ans h₁
      exact ⟨⟨op, ans⟩ :: tr', q', .cons (show op.Ans from ans) hpath, rfl, rfl⟩

theorem countP_upstreamEvent (p : UpstreamEvent → Bool) (tr' : List UpstreamEvent) :
    (tr'.map (upstreamEvent (σ := σ))).countP (onUpstream p) = tr'.countP p :=
  List.countP_map ..

/-- Of what a posted request does, all that reaches the mesh is done by the
control-center. -/
theorem requestsPost_path {attempts : ℕ} {handler : ControlHandler}
    {q : DriverProg σ (Except PyError Response)} (h : (requestsPost attempts handler).Path tr q) :
    ∃ tr' q', (withRetries attempts (answered handler)).Path tr' q' ∧
      ∀ p, tr.countP (onUpstream p) = tr'.countP p := by
  rcases Prog.path_call_iff.mp h with ⟨rfl, -⟩ | ⟨sent, tr₁, rfl, h₁⟩
  · exact ⟨[], _, .nil _, fun p => rfl⟩
  have hconnect : ∀ p, (⟨.connect, sent⟩ :: tr₁ : List (DriverEvent σ)).countP (onUpstream p)
      = tr₁.countP (onUpstream p) := fun p => List.countP_cons_of_neg Bool.false_ne_true
  cases sent with
  | error e =>
    obtain ⟨rfl, -⟩ := Prog.path_ret_iff.mp h₁
    exact ⟨[], _, .nil _, hconnect⟩
  | ok _ =>
    rcases Prog.path_bind h₁ with ⟨q', hpath, -, -⟩ | ⟨response, tr₂, tr₃, rfl, hpath, h₂⟩
    · obtain ⟨tr', q', hcontrol, rfl, -⟩ := ofControl_path hpath
      exact ⟨tr', q', hcontrol, fun p => (hconnect p).trans (countP_upstreamEvent p tr')⟩
    · obtain ⟨tr', q', hcontrol, rfl, -⟩ := ofControl_path hpath
      refine ⟨tr', q', hcontrol, fun p => ?_⟩
      have hreceive : tr₃.countP (onUpstream p) = 0 := by
        rcases Prog.path_call_iff.mp h₂ with ⟨rfl, -⟩ | ⟨received, tr₄, rfl, h₃⟩
        · rfl
        · have hnil : tr₄ = [] := by
            cases received with
            | error e => exact (Prog.path_ret_iff.mp h₃).1
            | ok _ => exact (Prog.path_ret_iff.mp h₃).1
          rw [hnil]
          rfl
      rw [hconnect, List.countP_append, hreceive, countP_upstreamEvent, Nat.add_zero]

/-- **The request of a body is the charge of its price, and what follows.** -/
theorem calculate2_requestBody (py : PyJson) {body : RequestBody} (huser : unescaped body.user)
    (hcalculation : unescaped body.calculation) (hlow : 1 ≤ body.price) (hhigh : body.price ≤ 100) :
    calculate2 (py.getJson body.text) = checkAndCharge body.user (.int body.price)
      (dispatch id (.str body.calculation) (toString body.firstNumber)
        (toString body.secondNumber)) := by
  have hsmall : floatOverflows body.price = false := by
    have hbig : 100 < 2 ^ 1024 - 2 ^ 970 := by decide +kernel
    exact decide_eq_false (by omega)
  have hprice : (JsonValue.int body.price).floatLtOne = .ok false := by
    rw [JsonValue.floatLtOne, hsmall, if_neg Bool.false_ne_true]
    exact congrArg Except.ok (decide_eq_false (by omega))
  rw [getJson_requestBody py huser hcalculation, calculate2, calculateWith]
  have hfields : readFields
      [("user", .str body.user), ("calculationType", .str body.calculation),
        ("price", .int body.price), ("firstNumber", .int body.firstNumber),
        ("secondNumber", .int body.secondNumber)]
        = .ok ⟨.str body.user, .str body.calculation, .int body.price, toString body.firstNumber,
          toString body.secondNumber⟩ := rfl
  rw [hfields]
  dsimp only
  rw [calculateFields]
  dsimp only
  rw [hprice]

/-- The steps of a request: it charges its price, and otherwise only reads. -/
def RequestStep (body : RequestBody) : DriverOp σ → Prop
  | .upstream op =>
    op = .billing .post .chargeAccount (chargeQuery body.user (.int body.price)) ∨ op.Reads
  | .start _ _ _ => False
  | _ => True

theorem only_checkAndCharge {body : RequestBody} (after : ControlHandler)
    (hafter : after.Only fun op => RequestStep (σ := σ) body (.upstream op)) :
    (checkAndCharge body.user (.int body.price) after).Only
      fun op => RequestStep (σ := σ) body (.upstream op) := by
  refine .call (.inr ⟨rfl, rfl⟩) fun accountInfo => ?_
  dsimp only [Prog.bind_ret]
  split
  · exact .ret _
  split_ifs
  · exact .ret _
  split
  · exact .ret _
  refine .call (.inl rfl) fun chargeResponse => ?_
  dsimp only [Prog.bind_ret]
  split
  · exact .ret _
  split_ifs
  · exact .ret _
  · exact hafter

theorem only_dispatch (body : RequestBody) (relay : ℕ → ℕ) (calculationType : JsonValue)
    (firstNumber secondNumber : String) :
    (dispatch relay calculationType firstNumber secondNumber).Only
      fun op => RequestStep (σ := σ) body (.upstream op) := by
  have hpost : ∀ url data, (postAndRelay relay url data).Only
      fun op => RequestStep (σ := σ) body (.upstream op) := by
    intro url data
    refine .call (.inr trivial) fun _ => .call (.inr trivial) fun response => ?_
    cases response <;> exact .ret _
  unfold dispatch
  split
  · dsimp only
    split_ifs
    · exact hpost ..
    · exact hpost ..
    · exact .ret _
  · exact .ret _

/-- The users and the types that are drawn need no escape. -/
theorem drawn_unescaped :
    (∀ u ∈ Driver.users, unescaped u) ∧ ∀ c ∈ calculationType, unescaped c := by
  decide +kernel

/-- **What a request has done**: it began with the body it was given, and each
of its charges but one made up for an attempt that ended in a gateway error. -/
theorem randomRequest_path {py : PyJson} {attempts : ℕ} {s : σ} {k : ℕ}
    {q : DriverProg σ DriverOutcome} (h : (randomRequest py attempts s k).Path tr q) :
    tr = [] ∨ ∃ text tr', tr = ⟨.run s k, text⟩ :: tr' ∧
      tr'.countP (onUpstream isCharge)
        ≤ tr'.countP (onUpstream (calculationAnswered gatewayError)) + 1 ∧
      (Drawn text → ∃ body : RequestBody, body.user ∈ Driver.users ∧ 1 ≤ body.price ∧
        body.price ≤ 100 ∧ ∀ ev ∈ tr', RequestStep body ev.op) := by
  rcases Prog.path_call_iff.mp h with ⟨rfl, -⟩ | ⟨text, tr', rfl, h₁⟩
  · exact .inl rfl
  refine .inr ⟨text, tr', rfl, ?_, ?_⟩
  · have hpost : ∃ q', (requestsPost attempts (calculate2 (py.getJson text))).Path tr' q' := by
      rcases orRaise_path h₁ with hpath | ⟨response, tr₁, tr₂, rfl, hpath, hret⟩
      · exact hpath
      · obtain ⟨rfl, -⟩ := Prog.path_ret_iff.mp hret
        rw [List.append_nil]
        exact ⟨_, hpath⟩
    obtain ⟨q', hpath⟩ := hpost
    obtain ⟨tr₁, q₁, hretries, hcount⟩ := requestsPost_path hpath
    rw [hcount, hcount]
    exact (withRetries_path hretries).charge_le
  · rintro ⟨body, rfl, huser, hcalculation, hlow, hhigh⟩
    refine ⟨body, huser, hlow, hhigh, ?_⟩
    rw [calculate2_requestBody py (drawn_unescaped.1 _ huser) (drawn_unescaped.2 _ hcalculation)
      hlow hhigh] at h₁
    have honly := only_checkAndCharge (σ := σ) _ (only_dispatch body id
      (.str body.calculation) (toString body.firstNumber) (toString body.secondNumber))
    exact (only_orRaise (only_requestsPost attempts trivial trivial honly) fun _ => .ret _).path h₁

end ResilientMesh
