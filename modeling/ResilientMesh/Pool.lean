/-
ResilientMesh/Pool.lean

Many programs over one shared state.  A pool has a state `σ` and a program for
every thread `i : ι`; a step picks a thread that is stopped at a call and
answers it, atomically, the way the server relation allows.  Threads that are
never picked have simply not arrived yet, so a pool indexed by an arbitrary
type already speaks of any number of executions.

The log of a run keeps every answered call with the state before and after it.
Two facts carry the developments that use pools:

* the log, restricted to one thread, is a path of that thread's program
  (`Run.path`), so what a thread may have done in any interleaving is a
  statement about its program alone;
* what the log counts is the sum over the threads of what their parts of it
  count (`countP_log`), so counting reduces to counting along paths.

Nothing in this file knows the services.
-/
import ResilientMesh.Interaction

namespace ResilientMesh

universe u v w

/-- How the shared state may answer a call, and what it becomes. -/
abbrev Server (σ : Type*) (Op : Type u) (Ans : Op → Type v) :=
  σ → (op : Op) → Ans op → σ → Prop

/-- The shared state and the program of every thread. -/
structure Pool (ι σ : Type*) (Op : Type u) (Ans : Op → Type v) (α : Type w) where
  state : σ
  prog : ι → Prog Op Ans α

/-- One answered call: whose it was, and the state before and after. -/
structure Entry (ι σ : Type*) (Op : Type u) (Ans : Op → Type v) where
  who : ι
  op : Op
  ans : Ans op
  pre : σ
  post : σ

variable {ι σ : Type*} [DecidableEq ι] {Op : Type u} {Ans : Op → Type v} {α : Type w}

/-- The call and the answer of an entry. -/
def Entry.event (e : Entry ι σ Op Ans) : Event Op Ans := ⟨e.op, e.ans⟩

/-- The part of a log that belongs to thread `i`. -/
def proj (i : ι) (log : List (Entry ι σ Op Ans)) : List (Event Op Ans) :=
  (log.filter fun e => e.who = i).map Entry.event

@[simp] theorem proj_nil (i : ι) : proj i ([] : List (Entry ι σ Op Ans)) = [] := rfl

@[simp] theorem proj_append (i : ι) (log log' : List (Entry ι σ Op Ans)) :
    proj i (log ++ log') = proj i log ++ proj i log' := by
  simp [proj]

theorem proj_single_self (e : Entry ι σ Op Ans) : proj e.who [e] = [e.event] := by
  simp [proj]

theorem proj_single_ne {i : ι} {e : Entry ι σ Op Ans} (h : e.who ≠ i) : proj i [e] = [] := by
  simp [proj, h]

theorem proj_cons {i : ι} {e : Entry ι σ Op Ans} (h : e.who = i) (log : List (Entry ι σ Op Ans)) :
    proj i (e :: log) = e.event :: proj i log := by
  simp [proj, h]

theorem mem_proj {i : ι} {log : List (Entry ι σ Op Ans)} {ev : Event Op Ans} :
    ev ∈ proj i log ↔ ∃ e ∈ log, e.who = i ∧ e.event = ev := by
  simp [proj, and_assoc]

theorem mem_proj_concat {i : ι} {log : List (Entry ι σ Op Ans)} {e : Entry ι σ Op Ans}
    {ev : Event Op Ans} :
    ev ∈ proj i (log ++ [e]) ↔ ev ∈ proj i log ∨ e.who = i ∧ e.event = ev := by
  rw [proj_append, List.mem_append, @mem_proj ι σ _ Op Ans i [e]]
  simp

namespace Pool

/-! ### Steps and runs -/

/-- Thread `i` is answered: the state moves and `i` goes on. -/
def resume (c : Pool ι σ Op Ans α) (i : ι) (s : σ) (p : Prog Op Ans α) :
    Pool ι σ Op Ans α :=
  ⟨s, Function.update c.prog i p⟩

@[simp] theorem resume_state (c : Pool ι σ Op Ans α) (i : ι) (s : σ) (p : Prog Op Ans α) :
    (c.resume i s p).state = s := rfl

@[simp] theorem resume_prog_self (c : Pool ι σ Op Ans α) (i : ι) (s : σ)
    (p : Prog Op Ans α) : (c.resume i s p).prog i = p := by
  simp [resume]

theorem resume_prog_ne (c : Pool ι σ Op Ans α) {i j : ι} (s : σ) (p : Prog Op Ans α)
    (h : j ≠ i) : (c.resume i s p).prog j = c.prog j := by
  simp [resume, h]

/-- One atomic step: thread `i`, stopped at `op`, gets the answer `a`. -/
inductive Step (S : Server σ Op Ans) :
    Pool ι σ Op Ans α → Entry ι σ Op Ans → Pool ι σ Op Ans α → Prop
  | mk {c : Pool ι σ Op Ans α} (i : ι) {op : Op} {next : Ans op → Prog Op Ans α}
      (a : Ans op) {s : σ} :
      c.prog i = .call op next → S c.state op a s →
      Step S c ⟨i, op, a, c.state, s⟩ (c.resume i s (next a))

/-- A run with its log. -/
inductive Run (S : Server σ Op Ans) (c₀ : Pool ι σ Op Ans α) :
    List (Entry ι σ Op Ans) → Pool ι σ Op Ans α → Prop
  | refl : Run S c₀ [] c₀
  | tail {log : List (Entry ι σ Op Ans)} {c c' : Pool ι σ Op Ans α} {e : Entry ι σ Op Ans} :
      Run S c₀ log c → Step S c e c' → Run S c₀ (log ++ [e]) c'

/-- Every thread has returned. -/
def Finished (c : Pool ι σ Op Ans α) : Prop := ∀ i, (c.prog i).Returned

variable {S : Server σ Op Ans} {c₀ c c' c'' : Pool ι σ Op Ans α}
  {log log' : List (Entry ι σ Op Ans)}

theorem Run.trans (h : Run S c₀ log c) (h' : Run S c log' c') :
    Run S c₀ (log ++ log') c' := by
  induction h' with
  | refl => simpa using h
  | tail _ hstep ih => exact List.append_assoc .. ▸ ih.tail hstep

/-- A run under one server is a run under a more permissive one. -/
theorem Run.mono {S' : Server σ Op Ans} (hS : ∀ s op a s', S s op a s' → S' s op a s')
    (h : Run S c₀ log c) : Run S' c₀ log c := by
  induction h with
  | refl => exact .refl
  | tail _ hstep ih =>
    cases hstep with
    | mk i a hprog hserve => exact ih.tail (.mk i a hprog (hS _ _ _ _ hserve))

/-! ### Parts of a run -/

theorem Run.nil (h : Run S c₀ [] c) : c = c₀ := by
  generalize hl : ([] : List (Entry ι σ Op Ans)) = l at h
  cases h with
  | refl => rfl
  | tail _ _ => simp at hl

theorem Run.last {e : Entry ι σ Op Ans} (h : Run S c₀ (log ++ [e]) c) :
    ∃ c', Run S c₀ log c' ∧ Step S c' e c := by
  generalize hl : log ++ [e] = l at h
  cases h with
  | refl => simp at hl
  | tail hrun hstep =>
    obtain ⟨rfl, rfl⟩ := List.append_singleton_inj.mp hl
    exact ⟨_, hrun, hstep⟩

/-- A run can be cut anywhere. -/
theorem Run.split (h : Run S c₀ (log ++ log') c) :
    ∃ c', Run S c₀ log c' ∧ Run S c' log' c := by
  induction log' using List.reverseRecOn generalizing c with
  | nil =>
    rw [List.append_nil] at h
    exact ⟨c, h, .refl⟩
  | append_singleton log' e ih =>
    rw [← List.append_assoc] at h
    obtain ⟨c₁, hrun, hstep⟩ := h.last
    obtain ⟨c', hbefore, hafter⟩ := ih hrun
    exact ⟨c', hbefore, hafter.tail hstep⟩

/-- A run goes on from after its first entry. -/
theorem Run.cons {e : Entry ι σ Op Ans} (h : Run S c₀ (e :: log) c) :
    c₀.state = e.pre ∧ ∃ c', c'.state = e.post ∧ Run S c' log c := by
  rw [← List.singleton_append] at h
  obtain ⟨c', hfirst, hrest⟩ := h.split
  rw [← List.nil_append [e]] at hfirst
  obtain ⟨c₁, hrun, hstep⟩ := hfirst.last
  obtain rfl := hrun.nil
  cases hstep with
  | mk i a _ _ => exact ⟨rfl, _, rfl, hrest⟩

/-- Between two entries the state goes from after the one to before the other. -/
theorem Run.between {l₁ l₂ l₃ : List (Entry ι σ Op Ans)} {e e' : Entry ι σ Op Ans}
    (h : Run S c₀ (l₁ ++ e :: l₂ ++ e' :: l₃) c) :
    ∃ c₁ c₂ : Pool ι σ Op Ans α, Run S c₁ l₂ c₂ ∧ c₁.state = e.post ∧ c₂.state = e'.pre := by
  obtain ⟨c₂, hbefore, hafter⟩ := h.split
  obtain ⟨c₁, -, hmiddle⟩ := hbefore.split
  obtain ⟨-, c₁', hpost, hrun⟩ := hmiddle.cons
  exact ⟨c₁', c₂, hrun, hpost, hafter.cons.1⟩

/-! ### Invariants of the shared state -/

/-- What the server preserves holds after every run. -/
theorem Run.invariant {I : σ → Prop}
    (hS : ∀ s op a s', I s → S s op a s' → I s')
    (h : Run S c₀ log c) (h₀ : I c₀.state) : I c.state := by
  induction h with
  | refl => exact h₀
  | tail _ hstep ih =>
    cases hstep with
    | mk _ _ _ hserve => exact hS _ _ _ _ ih hserve

/-- Every entry of a log was served, from a state in the invariant. -/
theorem Run.served {I : σ → Prop}
    (hS : ∀ s op a s', I s → S s op a s' → I s')
    (h : Run S c₀ log c) (h₀ : I c₀.state) :
    ∀ e ∈ log, I e.pre ∧ S e.pre e.op e.ans e.post := by
  induction h with
  | refl => simp
  | tail hrun hstep ih =>
    intro e he
    rcases List.mem_append.mp he with he | he
    · exact ih e he
    · cases hstep with
      | mk _ _ _ hserve =>
        obtain rfl := List.mem_singleton.mp he
        exact ⟨hrun.invariant hS h₀, hserve⟩

/-- Every entry of a log was served. -/
theorem Run.serves (h : Run S c₀ log c) : ∀ e ∈ log, S e.pre e.op e.ans e.post := by
  have htrivial : ∀ s op (a : Ans op) s', True → S s op a s' → True := fun _ _ _ _ _ _ => trivial
  exact fun e he => (h.served htrivial trivial e he).2

/-- What only some entries can end holds until there is one of them. -/
theorem Run.until {P : σ → Prop} {E : Entry ι σ Op Ans → Prop}
    (hS : ∀ e : Entry ι σ Op Ans, S e.pre e.op e.ans e.post → P e.pre → P e.post ∨ E e)
    (h : Run S c₀ log c) (h₀ : P c₀.state) : P c.state ∨ ∃ e ∈ log, E e := by
  induction h with
  | refl => exact .inl h₀
  | tail _ hstep ih =>
    rcases ih with hP | ⟨e, he, hE⟩
    · cases hstep with
      | mk i a _ hserve =>
        rcases hS ⟨i, _, a, _, _⟩ hserve hP with hP | hE
        · exact .inl hP
        · exact .inr ⟨_, List.mem_append_right _ (List.mem_singleton_self _), hE⟩
    · exact .inr ⟨e, List.mem_append_left _ he, hE⟩

/-! ### What one thread did -/

/-- The part of the log that belongs to a thread is a path of its program. -/
theorem Run.path (h : Run S c₀ log c) (i : ι) :
    Prog.Path (c₀.prog i) (proj i log) (c.prog i) := by
  induction h with
  | refl => exact .nil _
  | @tail log c c' e _ hstep ih =>
    cases hstep with
    | @mk j op next a s hprog _ =>
      rw [proj_append]
      -- the step is the thread's own, or leaves its part of the log as it was
      by_cases hij : j = i
      · subst hij
        rw [hprog] at ih
        rw [show proj j [(⟨j, op, a, c.state, s⟩ : Entry ι σ Op Ans)] = [⟨op, a⟩] from
          proj_single_self _, resume_prog_self]
        exact ih.snoc a
      · rw [show proj i [(⟨j, op, a, c.state, s⟩ : Entry ι σ Op Ans)] = [] from
          proj_single_ne hij, resume_prog_ne _ _ _ (Ne.symm hij), List.append_nil]
        exact ih

/-! ### Counting along the log -/

/-- The threads a log speaks of. -/
def ids (log : List (Entry ι σ Op Ans)) : Finset ι := (log.map Entry.who).toFinset

theorem mem_ids {i : ι} : i ∈ ids log ↔ ∃ e ∈ log, e.who = i := by
  simp [ids]

theorem proj_eq_nil_iff {i : ι} : proj i log = [] ↔ i ∉ ids log := by
  simp [proj, mem_ids, List.filter_eq_nil_iff]

/-- What a log counts is the sum of what the parts of it count. -/
theorem countP_log (p : ι → Event Op Ans → Bool) (log : List (Entry ι σ Op Ans)) (I : Finset ι)
    (hI : ids log ⊆ I) :
    (log.countP fun e => p e.who e.event) = ∑ i ∈ I, (proj i log).countP (p i) := by
  induction log using List.reverseRecOn with
  | nil => simp
  | append_singleton log e ih =>
    have hlog : ids log ⊆ I := by
      intro i hi
      obtain ⟨e', he', hwho⟩ := mem_ids.mp hi
      exact hI (mem_ids.mpr ⟨e', List.mem_append_left _ he', hwho⟩)
    have hmem : e.who ∈ I := hI (mem_ids.mpr ⟨e, by simp, rfl⟩)
    -- the last entry counts for one thread only
    have hlast : ∑ i ∈ I, (proj i [e]).countP (p i) = [e].countP fun e => p e.who e.event := by
      rw [Finset.sum_eq_single_of_mem e.who hmem, proj_single_self]
      · simp [List.countP_singleton]
      · intro i _ hne
        rw [proj_single_ne (Ne.symm hne)]
        rfl
    simp only [List.countP_append, proj_append, Finset.sum_add_distrib]
    rw [ih hlog, hlast]

/-- A bound that holds along every thread's part holds along the log. -/
theorem countP_log_le (p p' : ι → Event Op Ans → Bool) (log : List (Entry ι σ Op Ans))
    (h : ∀ i, (proj i log).countP (p i) ≤ (proj i log).countP (p' i)) :
    (log.countP fun e => p e.who e.event) ≤ log.countP fun e => p' e.who e.event := by
  rw [countP_log p log (ids log) subset_rfl, countP_log p' log (ids log) subset_rfl]
  exact Finset.sum_le_sum fun i _ => h i

/-! ### Played runs -/

/-- The server that answers as `serve` computes. -/
def computed (serve : σ → (op : Op) → Ans op × σ) : Server σ Op Ans :=
  fun s op a s' => serve s op = (a, s')

/-- Let the threads step as scheduled; one that has returned is passed over. -/
def play (serve : σ → (op : Op) → Ans op × σ) :
    List ι → Pool ι σ Op Ans α → List (Entry ι σ Op Ans) × Pool ι σ Op Ans α
  | [], c => ([], c)
  | i :: rest, c =>
    match c.prog i with
    | .ret _ => play serve rest c
    | .call op next =>
      let served := serve c.state op
      let played := play serve rest (c.resume i served.2 (next served.1))
      (⟨i, op, served.1, c.state, served.2⟩ :: played.1, played.2)

theorem run_play (serve : σ → (op : Op) → Ans op × σ) (schedule : List ι)
    (c : Pool ι σ Op Ans α) :
    Run (computed serve) c (play serve schedule c).1 (play serve schedule c).2 := by
  induction schedule generalizing c with
  | nil => exact .refl
  | cons i rest ih =>
    unfold play
    split
    · exact ih c
    · rename_i hprog
      exact (Run.refl.tail (.mk i _ hprog rfl)).trans (ih _)

/-- Only the threads of the schedule step. -/
theorem who_of_mem_play {serve : σ → (op : Op) → Ans op × σ} {schedule : List ι}
    {c : Pool ι σ Op Ans α} {e : Entry ι σ Op Ans} (he : e ∈ (play serve schedule c).1) :
    e.who ∈ schedule := by
  induction schedule generalizing c with
  | nil => cases he
  | cons i rest ih =>
    unfold play at he
    split at he
    · exact List.mem_cons_of_mem _ (ih he)
    · rcases List.mem_cons.mp he with rfl | he
      · exact List.mem_cons_self
      · exact List.mem_cons_of_mem _ (ih he)

/-! ### Runs to the end -/

/-- The log of thread `i` running `p` alone against a deterministic server. -/
def entries (serve : σ → (op : Op) → Ans op × σ) (i : ι) :
    Prog Op Ans α → σ → List (Entry ι σ Op Ans)
  | .ret _, _ => []
  | .call op next, s =>
    ⟨i, op, (serve s op).1, s, (serve s op).2⟩ ::
      entries serve i (next (serve s op).1) (serve s op).2

omit [DecidableEq ι] in
theorem who_of_mem_entries {serve : σ → (op : Op) → Ans op × σ} {i : ι} {p : Prog Op Ans α}
    {s : σ} {e : Entry ι σ Op Ans} (he : e ∈ entries serve i p s) : e.who = i := by
  induction p generalizing s with
  | ret a => cases he
  | call op next ih =>
    rcases List.mem_cons.mp he with rfl | he
    · rfl
    · exact ih _ he

/-- A thread can run alone to its end, with every other thread left where it
was. -/
theorem exists_run_alone (serve : σ → (op : Op) → Ans op × σ)
    (hS : ∀ s op, S s op (serve s op).1 (serve s op).2) (i : ι) (p : Prog Op Ans α)
    (c : Pool ι σ Op Ans α) (hp : c.prog i = p) :
    ∃ c', Run S c (entries serve i p c.state) c' ∧ c'.state = (p.run serve c.state).2 ∧
      c'.prog i = .ret (p.run serve c.state).1 ∧ ∀ j, j ≠ i → c'.prog j = c.prog j := by
  induction p generalizing c with
  | ret a => exact ⟨c, .refl, rfl, hp, fun _ _ => rfl⟩
  | call op next ih =>
    -- the thread's first step, and then the rest of it
    obtain ⟨c', hrun, hstate, hret, hothers⟩ :=
      ih (serve c.state op).1 (c.resume i (serve c.state op).2 (next (serve c.state op).1))
        (resume_prog_self ..)
    refine ⟨c', (Run.refl.tail (.mk i _ hp (hS c.state op))).trans hrun, hstate, hret, ?_⟩
    intro j hj
    rw [hothers j hj, resume_prog_ne _ _ _ hj]

/-- Finitely many unfinished threads can all be run to their ends. -/
theorem exists_run_finished (hS : ∀ s op, ∃ a s', S s op a s') (I : Finset ι)
    (c : Pool ι σ Op Ans α) (hI : ∀ i, i ∉ I → (c.prog i).Returned) :
    ∃ log c', Run S c log c' ∧ c'.Finished := by
  choose ans post hserve using hS
  induction I using Finset.induction_on generalizing c with
  | empty => exact ⟨[], c, .refl, fun i => hI i (by simp)⟩
  | insert i I _ ih =>
    -- thread `i` runs alone to its end, and the threads of `I` after it
    obtain ⟨c', hrun, -, hret, hothers⟩ :=
      exists_run_alone (fun s op => (ans s op, post s op)) hserve i _ c rfl
    obtain ⟨log', c'', hrun', hfin⟩ := ih c' fun j hj => by
      by_cases hji : j = i
      · subst hji
        rw [hret]
        trivial
      · rw [hothers j hji]
        exact hI j (by simp [hji, hj])
    exact ⟨_, c'', hrun.trans hrun', hfin⟩

end Pool

end ResilientMesh
