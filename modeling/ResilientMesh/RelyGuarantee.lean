/-
ResilientMesh/RelyGuarantee.lean

One program among others that are known only by what they do to the state.
`R s s'` says that the others may take the state from `s` to `s'`; a program
that ends as `Q` says whatever they do in between (`Prog.Ensures`) ends so in
every run in which they keep to it (`Pool.Run.ensures`).

What a program can do at all is read off its text (`Prog.Only`), and so is how
often (`Prog.Covered`); what it can do in some run is read off a path of it
(`Pool.exists_run_along`).

Nothing in this file knows the services.
-/
import ResilientMesh.Pool

namespace ResilientMesh

universe u v w

variable {ι σ : Type*} {Op : Type u} {Ans : Op → Type v} {α β : Type w}

namespace Prog

/-! ### Paths through two programs -/

/-- An answered call, and the rest. -/
theorem path_cons_iff {op : Op} {next : Ans op → Prog Op Ans α} {a : Ans op}
    {tr : List (Event Op Ans)} {q : Prog Op Ans α} :
    Path (call op next) (⟨op, a⟩ :: tr) q ↔ Path (next a) tr q := by
  constructor
  · intro h
    cases h with
    | cons _ hrest => exact hrest
  · exact .cons a

theorem Path.bind {p : Prog Op Ans α} {f : α → Prog Op Ans β} {a : α}
    {tr tr' : List (Event Op Ans)} {q : Prog Op Ans β} (h : Path p tr (ret a))
    (hf : Path (f a) tr' q) : Path (p.bind f) (tr ++ tr') q := by
  induction p generalizing tr with
  | ret b =>
    obtain ⟨rfl, rfl⟩ := path_ret_ret_iff.mp h
    exact hf
  | call op next ih =>
    obtain ⟨answer, tr₁, rfl, hrest⟩ := path_call_ret_iff.mp h
    exact .cons answer (ih answer hrest)

/-- A path of `p` is one of `p.bind f`. -/
theorem Path.inside {p q : Prog Op Ans α} {tr : List (Event Op Ans)} (h : Path p tr q)
    (f : α → Prog Op Ans β) : Path (p.bind f) tr (q.bind f) := by
  induction h with
  | nil p => exact .nil _
  | cons a _ ih => exact .cons a ih

/-- A path of `p.bind f` to a result is one through a result of `p`. -/
theorem path_bind_ret {p : Prog Op Ans α} {f : α → Prog Op Ans β} {tr : List (Event Op Ans)}
    {b : β} (h : Path (p.bind f) tr (ret b)) :
    ∃ a tr₁ tr₂, tr = tr₁ ++ tr₂ ∧ Path p tr₁ (ret a) ∧ Path (f a) tr₂ (ret b) := by
  rcases path_bind h with ⟨p', -, hnot, hret⟩ | hthrough
  · cases p' with
    | ret a => exact absurd trivial hnot
    | call op next => cases hret
  · exact hthrough

/-! ### What a program ensures -/

/-- While the others move the state as `R` says, `p` ends as `Q` says. -/
def Ensures (S : Server σ Op Ans) (R : σ → σ → Prop) (Q : σ → α → Prop) :
    Prog Op Ans α → σ → Prop
  | ret a, s => ∀ s', R s s' → Q s' a
  | call op next, s => ∀ s', R s s' → ∀ a s'', S s' op a s'' → (next a).Ensures S R Q s''

/-- The others may do nothing, and may do one thing after another. -/
structure Interference (R : σ → σ → Prop) : Prop where
  refl : ∀ s, R s s
  trans : ∀ {s s' s'' : σ}, R s s' → R s' s'' → R s s''

variable {S : Server σ Op Ans} {R : σ → σ → Prop} {Q Q' : σ → α → Prop} {p : Prog Op Ans α}
  {s s' : σ}

/-- What is ensured is not undone by the others. -/
theorem Ensures.rely (hR : Interference R) (h : p.Ensures S R Q s) (hs : R s s') :
    p.Ensures S R Q s' := by
  cases p with
  | ret a => exact fun s'' hs' => h s'' (hR.trans hs hs')
  | call op next => exact fun s'' hs' => h s'' (hR.trans hs hs')

theorem Ensures.weaken (hQ : ∀ s a, Q s a → Q' s a) (h : p.Ensures S R Q s) :
    p.Ensures S R Q' s := by
  induction p generalizing s with
  | ret a => exact fun s' hs => hQ s' a (h s' hs)
  | call op next ih => exact fun s' hs a s'' hserve => ih a (h s' hs a s'' hserve)

/-- First `p`, and then what follows on what `p` ensures. -/
theorem Ensures.bind (hR : Interference R) {f : α → Prog Op Ans β} {Q : σ → β → Prop}
    (h : p.Ensures S R (fun s a => (f a).Ensures S R Q s) s) : (p.bind f).Ensures S R Q s := by
  induction p generalizing s with
  | ret a => exact h s (hR.refl s)
  | call op next ih => exact fun s' hs a s'' hserve => ih a (h s' hs a s'' hserve)

theorem ensures_ret {a : α} (h : ∀ s, Q s a) : (ret a : Prog Op Ans α).Ensures S R Q s :=
  fun s' _ => h s'

/-- What holds of every result that a program can come to, if the server
answers as `E` says, is ensured. -/
theorem ensures_of_paths {E : Event Op Ans → Prop} {P : α → Prop}
    (hE : ∀ s op a s', S s op a s' → E ⟨op, a⟩)
    (h : ∀ tr a, Path p tr (ret a) → (∀ ev ∈ tr, E ev) → P a) :
    p.Ensures S R (fun _ a => P a) s := by
  induction p generalizing s with
  | ret a => exact fun _ _ => h [] a (.nil _) fun ev hev => absurd hev List.not_mem_nil
  | call op next ih =>
    intro s' _ a s'' hserve
    apply ih a
    intro tr b hpath hall
    exact h _ b (.cons a hpath) (List.forall_mem_cons.mpr ⟨hE _ _ _ _ hserve, hall⟩)

/-! ### What a program calls -/

/-- Every call of the program is one of `P`. -/
inductive Only (P : Op → Prop) : Prog Op Ans α → Prop
  | ret (a : α) : Only P (ret a)
  | call {op : Op} {next : Ans op → Prog Op Ans α} : P op → (∀ a, Only P (next a)) →
      Only P (call op next)

variable {P : Op → Prop}

theorem Only.path {q : Prog Op Ans α} {tr : List (Event Op Ans)} (h : Only P p)
    (hp : Path p tr q) : ∀ ev ∈ tr, P ev.op := by
  induction hp with
  | nil => exact fun ev hev => absurd hev List.not_mem_nil
  | cons a _ ih =>
    cases h with
    | call hop hnext =>
      intro ev hev
      rcases List.mem_cons.mp hev with rfl | hev
      · exact hop
      · exact ih (hnext a) ev hev

theorem only_of_forall (h : ∀ op, P op) (p : Prog Op Ans α) : Only P p := by
  induction p with
  | ret a => exact .ret a
  | call op next ih => exact .call (h op) ih

theorem Only.bind {f : α → Prog Op Ans β} (h : Only P p) (hf : ∀ a, Only P (f a)) :
    Only P (p.bind f) := by
  induction h with
  | ret a => exact hf a
  | call hop _ ih => exact .call hop ih

/-- Along the program the events of `D` are at most `n` more than those of
`D'`, at every moment. -/
inductive Covered (D D' : Event Op Ans → Bool) : ℕ → Prog Op Ans α → Prop
  | ret (n : ℕ) (a : α) : Covered D D' n (ret a)
  | call {n : ℕ} {op : Op} {next : Ans op → Prog Op Ans α} (left : Ans op → ℕ) :
      (∀ a, left a + (D ⟨op, a⟩).toNat ≤ n + (D' ⟨op, a⟩).toNat) →
      (∀ a, Covered D D' (left a) (next a)) → Covered D D' n (call op next)

variable {D D' : Event Op Ans → Bool} {m n : ℕ}

theorem Covered.path {q : Prog Op Ans α} {tr : List (Event Op Ans)} (h : Covered D D' n p)
    (hp : Path p tr q) : tr.countP D ≤ tr.countP D' + n := by
  induction hp generalizing n with
  | nil => exact Nat.zero_le _
  | @cons op next a tr q _ ih =>
    cases h with
    | call left hleft hnext =>
      have hrest := ih (hnext a)
      have hfirst := hleft a
      simp only [List.countP_cons]
      cases hD : D ⟨op, a⟩ <;> cases hD' : D' ⟨op, a⟩ <;>
        simp only [hD, hD', Bool.toNat_true, Bool.toNat_false, reduceIte, Bool.false_eq_true]
          at hfirst ⊢ <;> omega

theorem Covered.mono (h : Covered D D' m p) (hmn : m ≤ n) : Covered D D' n p := by
  cases h with
  | ret _ a => exact .ret n a
  | call left hleft hnext =>
    exact .call left (fun a => (hleft a).trans (Nat.add_le_add_right hmn _)) hnext

/-- What is covered in `p`, and in what follows on it. -/
theorem Covered.bind {f : α → Prog Op Ans β} (h : Covered D D' m p)
    (hf : ∀ a, Covered D D' n (f a)) : Covered D D' (m + n) (p.bind f) := by
  induction h with
  | ret m a => exact (hf a).mono (Nat.le_add_left n m)
  | call left hleft _ ih =>
    refine .call (fun a => left a + n) ?_ ih
    intro a
    have hfirst := hleft a
    omega

/-- Calls that are not counted are covered. -/
theorem Only.covered (h : Only P p) (hP : ∀ ev, P ev.op → D ev = false) : Covered D D' n p := by
  induction h with
  | ret a => exact .ret n a
  | @call op next hop _ ih =>
    refine .call (fun _ => n) ?_ ih
    intro a
    rw [hP ⟨op, a⟩ hop]
    exact Nat.le_add_right n _

end Prog

/-! ### Among others -/

variable [DecidableEq ι]

namespace Pool

variable {S T : Server σ Op Ans} {R : σ → σ → Prop} {Q : σ → α → Prop} {c₀ c : Pool ι σ Op Ans α}
  {log : List (Entry ι σ Op Ans)} {i : ι}

/-- **What a program ensures it ensures in every run** in which it is served
as it expects, and the others do what is relied on. -/
theorem Run.ensures (hR : Prog.Interference R) (h : Run S c₀ log c)
    (hown : ∀ e ∈ log, e.who = i → T e.pre e.op e.ans e.post)
    (hothers : ∀ e ∈ log, e.who ≠ i → R e.pre e.post)
    (h₀ : (c₀.prog i).Ensures T R Q c₀.state) : (c.prog i).Ensures T R Q c.state := by
  induction h with
  | refl => exact h₀
  | @tail log c c' e _ hstep ih =>
    have hbefore := ih (fun e' he' => hown e' (List.mem_append_left _ he'))
      fun e' he' => hothers e' (List.mem_append_left _ he')
    have hmem := List.mem_append_right log (List.mem_singleton_self e)
    have hserved := hown e hmem
    have hmoved := hothers e hmem
    cases hstep with
    | @mk j op next a s hprog hserve =>
      by_cases hij : i = j
      · subst hij
        rw [hprog] at hbefore
        rw [resume_prog_self, resume_state]
        exact hbefore c.state (hR.refl _) a s (hserved rfl)
      · rw [resume_prog_ne _ _ _ hij, resume_state]
        exact hbefore.rely hR (hmoved (Ne.symm hij))

/-- The result of a thread that has returned. -/
theorem Run.ensures_result (hR : Prog.Interference R) (h : Run S c₀ log c)
    (hown : ∀ e ∈ log, e.who = i → T e.pre e.op e.ans e.post)
    (hothers : ∀ e ∈ log, e.who ≠ i → R e.pre e.post)
    (h₀ : (c₀.prog i).Ensures T R Q c₀.state) {a : α} (hi : c.prog i = .ret a) : Q c.state a := by
  have hensures := h.ensures hR hown hothers h₀
  rw [hi] at hensures
  exact hensures c.state (hR.refl _)

/-- What every step of a run keeps holds all along it. -/
theorem Run.kept {I : σ → Prop} (h : Run S c₀ log c) (hkeep : ∀ e ∈ log, I e.pre → I e.post)
    (h₀ : I c₀.state) : I c.state ∧ ∀ e ∈ log, I e.pre := by
  induction h with
  | refl => exact ⟨h₀, fun e he => absurd he List.not_mem_nil⟩
  | @tail log c c' e _ hstep ih =>
    obtain ⟨hstate, hpre⟩ := ih fun e' he' => hkeep e' (List.mem_append_left _ he')
    have hlast := hkeep e (List.mem_append_right _ (List.mem_singleton_self e))
    cases hstep with
    | mk j a hprog hserve =>
      refine ⟨hlast hstate, ?_⟩
      intro e' he'
      rcases List.mem_append.mp he' with he' | he'
      · exact hpre e' he'
      · rw [List.mem_singleton.mp he']
        exact hstate

/-- A thread makes only the calls that its program makes. -/
theorem Run.only {P : Op → Prop} (h : Run S c₀ log c) (hi : (c₀.prog i).Only P) :
    ∀ e ∈ log, e.who = i → P e.op :=
  fun e he hwho => hi.path (h.path i) e.event (mem_proj.mpr ⟨e, he, hwho, rfl⟩)

/-! ### Along a path -/

/-- Calls answered one after another, with nobody in between. -/
inductive Serves (S : Server σ Op Ans) : σ → List (Event Op Ans) → σ → Prop
  | nil (s : σ) : Serves S s [] s
  | cons {s s' s'' : σ} {op : Op} {a : Ans op} {tr : List (Event Op Ans)} :
      S s op a s' → Serves S s' tr s'' → Serves S s (⟨op, a⟩ :: tr) s''

theorem serves_cons_iff {s s' : σ} {op : Op} {a : Ans op} {tr : List (Event Op Ans)} :
    Serves S s (⟨op, a⟩ :: tr) s' ↔ ∃ s₁, S s op a s₁ ∧ Serves S s₁ tr s' := by
  constructor
  · intro h
    cases h with
    | cons hserve hrest => exact ⟨_, hserve, hrest⟩
  · rintro ⟨s₁, hserve, hrest⟩
    exact .cons hserve hrest

theorem Serves.append {s s' s'' : σ} {tr tr' : List (Event Op Ans)} (h : Serves S s tr s')
    (h' : Serves S s' tr' s'') : Serves S s (tr ++ tr') s'' := by
  induction h with
  | nil s => exact h'
  | cons hserve _ ih => exact .cons hserve (ih h')

/-- A thread can go along any path of its program that the server allows. -/
theorem exists_run_along {p q : Prog Op Ans α} {tr : List (Event Op Ans)} {s : σ}
    (hp : Prog.Path p tr q) (hi : c.prog i = p) (hserves : Serves S c.state tr s) :
    ∃ log c', Run S c log c' ∧ c'.state = s ∧ c'.prog i = q ∧ (∀ j, j ≠ i → c'.prog j = c.prog j) ∧
      (∀ e ∈ log, e.who = i) ∧ proj i log = tr := by
  induction hp generalizing c with
  | nil p =>
    cases hserves
    exact ⟨[], c, .refl, rfl, hi, fun _ _ => rfl, fun e he => absurd he List.not_mem_nil, rfl⟩
  | @cons op next a tr q _ ih =>
    cases hserves with
    | @cons _ s' _ _ _ _ hserve hrest =>
      -- the first step, and then the rest of the path
      obtain ⟨log, c', hrun, hstate, hprog, hothers, hwho, hproj⟩ :=
        ih (resume_prog_self c i s' (next a)) hrest
      refine ⟨_, c', (Run.refl.tail (.mk i a hi hserve)).trans hrun, hstate, hprog, ?_, ?_, ?_⟩
      · intro j hj
        rw [hothers j hj, resume_prog_ne _ _ _ hj]
      · intro e he
        rcases List.mem_cons.mp he with rfl | he
        · rfl
        · exact hwho e he
      · have hcons := proj_cons (i := i) (e := ⟨i, op, a, c.state, s'⟩) rfl log
        rw [hproj] at hcons
        exact hcons

end Pool

end ResilientMesh
