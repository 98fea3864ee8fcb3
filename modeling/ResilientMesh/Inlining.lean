/-
ResilientMesh/Inlining.lean

Calls that are carried out by programs.  A program over some calls becomes one
over others when each of its calls is replaced by the program that carries it
out; what is to be carried out may depend on the calls before.

If every such program leaves what is seen of the state alone until its last
step, which is the step that the call is taken for, then a run of the inlined
programs, and of others that are not seen at all, is seen as a run of the
programs they were made from, in every interleaving (`Run.inlined`).

Nothing in this file knows the services.
-/
import ResilientMesh.RelyGuarantee

namespace ResilientMesh

variable {M ι σ τ : Type*} {Op Op' : Type} {Ans : Op → Type} {Ans' : Op' → Type} {α : Type}

/-- How calls are carried out, and what is remembered of them. -/
structure Implementation (M : Type*) (Ans : Op → Type) (Ans' : Op' → Type) where
  impl : M → (op : Op) → Prog Op' Ans' (Ans op)
  remember : M → Op → M

namespace Prog

/-- The program with its calls carried out. -/
def inline (I : Implementation M Ans Ans') : M → Prog Op Ans α → Prog Op' Ans' α
  | _, ret a => ret a
  | m, call op next => (I.impl m op).bind fun a => inline I (I.remember m op) (next a)

variable {I : Implementation M Ans Ans'} {m : M}

/-! ### Paths -/

/-- `Inlined I m tr tr'`: the calls `tr`, and perhaps a part of one more, are
carried out as `tr'`. -/
inductive Inlined (I : Implementation M Ans Ans') :
    M → List (Event Op Ans) → List (Event Op' Ans') → Prop
  | nil (m : M) : Inlined I m [] []
  | inside (m : M) {op : Op} {tr' : List (Event Op' Ans')} {q : Prog Op' Ans' (Ans op)} :
      Path (I.impl m op) tr' q → ¬ q.Returned → Inlined I m [] tr'
  | call (m : M) {op : Op} {a : Ans op} {tr : List (Event Op Ans)}
      {tr₁ tr₂ : List (Event Op' Ans')} :
      Path (I.impl m op) tr₁ (ret a) → Inlined I (I.remember m op) tr tr₂ →
      Inlined I m (⟨op, a⟩ :: tr) (tr₁ ++ tr₂)

/-- A single call is made or not. -/
theorem path_single {op' : Op'} {tr' : List (Event Op' Ans')} {q : Prog Op' Ans' (Ans' op')}
    (h : Path (call op' ret) tr' q) :
    tr' = [] ∧ ¬ q.Returned ∨ ∃ a, tr' = [⟨op', a⟩] ∧ q = ret a := by
  rcases path_call_iff.mp h with ⟨rfl, rfl⟩ | ⟨a, tr'', rfl, hrest⟩
  · exact .inl ⟨rfl, not_returned_call _ _⟩
  · obtain ⟨rfl, rfl⟩ := path_ret_iff.mp hrest
    exact .inr ⟨a, rfl, rfl⟩

/-- A path of the inlined program is one of the program, carried out. -/
theorem inline_path {p : Prog Op Ans α} {tr' : List (Event Op' Ans')} {q : Prog Op' Ans' α}
    (h : Path (p.inline I m) tr' q) :
    ∃ tr p', Path p tr p' ∧ Inlined I m tr tr' ∧ ∀ a, q = ret a → p' = ret a := by
  induction p generalizing m tr' with
  | ret a =>
    obtain ⟨rfl, rfl⟩ := path_ret_iff.mp h
    refine ⟨[], ret a, .nil _, .nil m, ?_⟩
    rintro _ ⟨⟩
    rfl
  | call op next ih =>
    rcases path_bind h with ⟨q', hpath, hnot, rfl⟩ | ⟨a, tr₁, tr₂, rfl, hpath, hrest⟩
    · refine ⟨[], call op next, .nil _, .inside m hpath hnot, ?_⟩
      intro a hret
      cases q' with
      | ret b => exact absurd trivial hnot
      | call op' next' => cases hret
    · obtain ⟨tr, p', hp, hinlined, hret⟩ := ih a hrest
      exact ⟨⟨op, a⟩ :: tr, p', .cons a hp, .call m hpath hinlined, hret⟩

/-- The calls `tr` are carried out as `tr'`, to the last of them. -/
inductive CarriedOut (I : Implementation M Ans Ans') :
    M → List (Event Op Ans) → List (Event Op' Ans') → Prop
  | nil (m : M) : CarriedOut I m [] []
  | call {m : M} {op : Op} {a : Ans op} {tr : List (Event Op Ans)}
      {tr₁ tr₂ : List (Event Op' Ans')} :
      Path (I.impl m op) tr₁ (ret a) → CarriedOut I (I.remember m op) tr tr₂ →
      CarriedOut I m (⟨op, a⟩ :: tr) (tr₁ ++ tr₂)

/-- A path to a result, carried out, leads the inlined program there. -/
theorem CarriedOut.path {tr : List (Event Op Ans)} {tr' : List (Event Op' Ans')}
    (h : CarriedOut I m tr tr') {p : Prog Op Ans α} {a : α} (hp : Path p tr (ret a)) :
    Path (p.inline I m) tr' (ret a) := by
  induction h generalizing p with
  | nil m =>
    obtain rfl := path_nil_iff.mp hp
    exact .nil _
  | call hfirst _ ih =>
    cases hp with
    | cons _ hrest => exact hfirst.bind (ih hrest)

theorem CarriedOut.inlined {tr : List (Event Op Ans)} {tr' : List (Event Op' Ans')}
    (h : CarriedOut I m tr tr') : Inlined I m tr tr' := by
  induction h with
  | nil m => exact .nil m
  | @call m op a tr tr₁ tr₂ hfirst _ ih => exact .call m hfirst ih

/-- A result of the inlined program is one of the program, carried out to the
last call. -/
theorem inline_path_ret {p : Prog Op Ans α} {tr' : List (Event Op' Ans')} {a : α}
    (h : Path (p.inline I m) tr' (ret a)) :
    ∃ tr, Path p tr (ret a) ∧ CarriedOut I m tr tr' := by
  induction p generalizing m tr' with
  | ret b =>
    obtain ⟨rfl, rfl⟩ := path_ret_ret_iff.mp h
    exact ⟨[], .nil _, .nil m⟩
  | call op next ih =>
    obtain ⟨answer, tr₁, tr₂, rfl, hfirst, hrest⟩ := path_bind_ret h
    obtain ⟨tr, hp, hcarried⟩ := ih answer hrest
    exact ⟨⟨op, answer⟩ :: tr, .cons answer hp, .call hfirst hcarried⟩

/-- What is carried out later is carried out at the end. -/
theorem CarriedOut.of_append {m : M} {tr₁ tr₂ : List (Event Op Ans)} {tr' : List (Event Op' Ans')}
    (h : CarriedOut I m (tr₁ ++ tr₂) tr') :
    ∃ m' tr₁' tr₂', tr' = tr₁' ++ tr₂' ∧ CarriedOut I m' tr₂ tr₂' := by
  induction tr₁ generalizing m tr' with
  | nil => exact ⟨m, [], tr', rfl, h⟩
  | cons ev tr₁ ih =>
    cases h with
    | call _ hrest =>
      obtain ⟨m', tr₁', tr₂', rfl, hcarried⟩ := ih hrest
      exact ⟨m', _, tr₂', (List.append_assoc ..).symm, hcarried⟩

/-- The inlined program makes the calls that its calls are carried out by. -/
theorem Only.inline {P : Op' → Prop} (hI : ∀ m op, (I.impl m op).Only P) (p : Prog Op Ans α)
    (m : M) :
    (p.inline I m).Only P := by
  induction p generalizing m with
  | ret a => exact .ret a
  | call op next ih => exact (hI m op).bind fun a => ih a (I.remember m op)

/-- What every call covers of itself the inlined program covers. -/
theorem Covered.inline {D D' : Event Op' Ans' → Bool}
    (hI : ∀ m op, (I.impl m op).Covered D D' 0) (p : Prog Op Ans α) (m : M) :
    (p.inline I m).Covered D D' 0 := by
  induction p generalizing m with
  | ret a => exact .ret 0 a
  | call op next ih => exact (hI m op).bind (n := 0) fun a => ih a (I.remember m op)

/-! ### Atomic programs -/

/-- Whenever the program is served, what `f` sees of the state stays as it is
up to the last step, and that is a step of `T` with the result as its answer. -/
def Atomic (S : Server σ Op' Ans') (f : σ → τ) (T : τ → α → τ → Prop) : Prog Op' Ans' α → Prop
  | ret _ => True
  | call op' next => ∀ a, Atomic S f T (next a) ∧ ∀ s s', S s op' a s' →
      match next a with
      | ret r => T (f s) r (f s')
      | call _ _ => f s' = f s

theorem Only.of_call {P : Op' → Prop} {op' : Op'} {next : Ans' op' → Prog Op' Ans' α}
    (h : (Prog.call op' next).Only P) : P op' ∧ ∀ a, (next a).Only P := by
  cases h with
  | call hop hnext => exact ⟨hop, hnext⟩

/-- No such call is seen. -/
def Hidden (S : Server σ Op' Ans') (f : σ → τ) (P : Op' → Prop) : Prop :=
  ∀ s op a s', P op → S s op a s' → f s' = f s

/-- A program of hidden calls is atomic where `T` lets the state stay. -/
theorem Only.atomic {S : Server σ Op' Ans'} {f : σ → τ} {P : Op' → Prop} {T : τ → α → τ → Prop}
    {p : Prog Op' Ans' α} (h : p.Only P) (hP : Hidden S f P) (hT : ∀ t a, T t a t) :
    p.Atomic S f T := by
  induction h with
  | ret a => exact trivial
  | @call op' next hop _ ih =>
    intro a
    refine ⟨ih a, ?_⟩
    intro s s' hserve
    have hsame : f s' = f s := hP s op' a s' hop hserve
    cases next a with
    | ret r =>
      show T (f s) r (f s')
      rw [hsame]
      exact hT (f s) r
    | call op'' next' => exact hsame

/-- `Simulates I S f T p q`: what is left to do of the inlined program, `q`, is what
is left of the program, `p`, perhaps with a part of its first call behind it. -/
inductive Simulates (I : Implementation M Ans Ans') (S : Server σ Op' Ans') (f : σ → τ)
    (T : Server τ Op Ans) : Prog Op Ans α → Prog Op' Ans' α → Prop
  | ret (a : α) : Simulates I S f T (ret a) (ret a)
  | call {op : Op} {next : Ans op → Prog Op Ans α} {q : Prog Op' Ans' (Ans op)} (m : M) :
      Atomic S f (fun s a s' => T s op a s') q → ¬ q.Returned →
      Simulates I S f T (call op next) (q.bind fun a => inline I m (next a))

end Prog

/-- Every call is carried out atomically, and not without a step. -/
structure Implementation.Refines (I : Implementation M Ans Ans') (S : Server σ Op' Ans')
    (f : σ → τ) (T : Server τ Op Ans) : Prop where
  atomic : ∀ m op, (I.impl m op).Atomic S f fun s a s' => T s op a s'
  steps : ∀ m op, ¬ (I.impl m op).Returned

variable {I : Implementation M Ans Ans'} {S : Server σ Op' Ans'} {f : σ → τ} {T : Server τ Op Ans}

namespace Prog

theorem simulates_inline (hI : I.Refines S f T) (m : M) (p : Prog Op Ans α) :
    Simulates I S f T p (p.inline I m) := by
  cases p with
  | ret a => exact .ret a
  | call op next => exact .call _ (hI.atomic m op) (hI.steps m op)

theorem Simulates.eq_ret {p : Prog Op Ans α} {a : α} (h : Simulates I S f T p (.ret a)) :
    p = .ret a := by
  generalize hq : Prog.ret a = q at h
  cases h with
  | ret b =>
    cases hq
    rfl
  | @call op next q m hatomic hnot =>
    cases q with
    | ret b => exact absurd trivial hnot
    | call op' next' => cases hq

/-- A step of the inlined program is not seen, or is one of the program. -/
theorem Simulates.step (hI : I.Refines S f T) {p : Prog Op Ans α} {op' : Op'}
    {next' : Ans' op' → Prog Op' Ans' α} (h : Simulates I S f T p (.call op' next')) {a : Ans' op'}
    {s s' : σ} (hserve : S s op' a s') :
    f s' = f s ∧ Simulates I S f T p (next' a) ∨
      ∃ (op : Op) (next : Ans op → Prog Op Ans α) (b : Ans op), p = .call op next ∧
        T (f s) op b (f s') ∧ Simulates I S f T (next b) (next' a) := by
  generalize hq : Prog.call op' next' = q at h
  cases h with
  | ret b => cases hq
  | @call op next q m hatomic hnot =>
    cases q with
    | ret b => exact absurd trivial hnot
    | call op₁ next₁ =>
      cases hq
      obtain ⟨hrest, hstep⟩ := hatomic a
      replace hstep := hstep s s' hserve
      -- the call is carried out, or goes on
      dsimp only
      generalize next₁ a = q at hrest hstep ⊢
      cases q with
      | ret b => exact .inr ⟨op, next, b, rfl, hstep, simulates_inline hI m (next b)⟩
      | call op₂ next₂ => exact .inl ⟨hstep, .call m hrest (not_returned_call op₂ next₂)⟩

end Prog

/-! ### Every interleaving -/

namespace Pool

/-- The two logs show the same, but for steps that are not seen. -/
inductive SeenAs (f : σ → τ) : List (Entry ι σ Op' Ans') → List (Entry ι τ Op Ans) → Prop
  | nil : SeenAs f [] []
  | unseen {log' : List (Entry ι σ Op' Ans')} {log : List (Entry ι τ Op Ans)}
      {e' : Entry ι σ Op' Ans'} :
      SeenAs f log' log → f e'.post = f e'.pre → SeenAs f (log' ++ [e']) log
  | seen {log' : List (Entry ι σ Op' Ans')} {log : List (Entry ι τ Op Ans)}
      {e' : Entry ι σ Op' Ans'} {e : Entry ι τ Op Ans} :
      SeenAs f log' log → e.who = e'.who → e.pre = f e'.pre → e.post = f e'.post →
      SeenAs f (log' ++ [e']) (log ++ [e])

variable [DecidableEq ι] {c₀' c' : Pool ι σ Op' Ans' α} {c₀ : Pool ι τ Op Ans α}
  {log' : List (Entry ι σ Op' Ans')}

/-- **A run of inlined programs is seen as a run of the programs**; the threads
that are not among them make hidden calls only. -/
theorem Run.inlined (hI : I.Refines S f T) (h : Run S c₀' log' c')
    (hstate : c₀.state = f c₀'.state) {P : ι → Prop}
    (hprog : ∀ i, P i → Prog.Simulates I S f T (c₀.prog i) (c₀'.prog i))
    {Q : Op' → Prop} (hQ : Prog.Hidden S f Q) (hhidden : ∀ i, ¬ P i → (c₀'.prog i).Only Q) :
    ∃ log c, Run T c₀ log c ∧ c.state = f c'.state ∧
      (∀ i, P i → Prog.Simulates I S f T (c.prog i) (c'.prog i)) ∧
      (∀ i, ¬ P i → (c'.prog i).Only Q) ∧ SeenAs f log' log := by
  induction h with
  | refl => exact ⟨[], c₀, .refl, hstate, hprog, hhidden, .nil⟩
  | @tail _ c' _ _ _ hstep ih =>
    obtain ⟨log, c, hrun, hstate, hprog, hhidden, hseen⟩ := ih
    cases hstep with
    | @mk i op' next' a s' hcall hserve =>
      by_cases hi : P i
      · have hothers : ∀ j, ¬ P j → ((c'.resume i s' (next' a)).prog j).Only Q := by
          intro j hj
          rw [resume_prog_ne _ _ _ (by rintro rfl; exact hj hi)]
          exact hhidden j hj
        have hi' := hprog i hi
        rw [hcall] at hi'
        rcases hi'.step hI hserve with ⟨hsame, hrest⟩ | ⟨op, next, b, hp, hserved, hrest⟩
        · -- the call goes on: nothing is seen
          refine ⟨log, c, hrun, hstate.trans hsame.symm, ?_, hothers, hseen.unseen hsame⟩
          intro j hj
          by_cases hij : j = i
          · subst hij
            rw [resume_prog_self]
            exact hrest
          · rw [resume_prog_ne _ _ _ hij]
            exact hprog j hj
        · -- the call is taken
          rw [← hstate] at hserved
          refine ⟨_, _, hrun.tail (.mk i b hp hserved), rfl, ?_, hothers,
            hseen.seen rfl hstate rfl⟩
          intro j hj
          by_cases hij : j = i
          · subst hij
            rw [resume_prog_self, resume_prog_self]
            exact hrest
          · rw [resume_prog_ne _ _ _ hij, resume_prog_ne _ _ _ hij]
            exact hprog j hj
      · -- a step of a thread that is not seen
        have honly := hhidden i hi
        rw [hcall] at honly
        obtain ⟨hop, hrest⟩ := honly.of_call
        have hsame := hQ _ _ _ _ hop hserve
        refine ⟨log, c, hrun, hstate.trans hsame.symm, ?_, ?_, hseen.unseen hsame⟩
        · intro j hj
          rw [resume_prog_ne _ _ _ (by rintro rfl; exact hi hj)]
          exact hprog j hj
        · intro j hj
          by_cases hij : j = i
          · subst hij
            rw [resume_prog_self]
            exact hrest a
          · rw [resume_prog_ne _ _ _ hij]
            exact hhidden j hj

end Pool

end ResilientMesh
