/-
ResilientMesh/Interaction.lean

Programs seen from outside.  A handler of a service is a sequential program
that now and then asks something of its surroundings: a dictionary, a
counter, another service.  `Prog Op Ans α` is such a program as data: it has
either returned, or it is stopped at a call and knows how to go on with every
possible answer.

Three readings of one program are used throughout:

* `Prog.Path p tr q` says that, met with the calls and answers of `tr`, the
  program `p` becomes `q`; nothing is said about who gives the answers;
* `Prog.run serve p s` runs `p` alone against a deterministic server, from
  the server state `s` to the end;
* a pool of programs over one shared state (`ResilientMesh.Pool`).

Nothing in this file knows the services.
-/
import Mathlib

namespace ResilientMesh

universe u v w

/-- A program that has returned `a`, or that is stopped at the call `op` and
goes on with `next` applied to the answer. -/
inductive Prog (Op : Type u) (Ans : Op → Type v) (α : Type w)
  | ret (a : α) : Prog Op Ans α
  | call (op : Op) (next : Ans op → Prog Op Ans α) : Prog Op Ans α

/-- A call together with the answer it got. -/
structure Event (Op : Type u) (Ans : Op → Type v) where
  op : Op
  ans : Ans op

namespace Prog

variable {Op : Type u} {Ans : Op → Type v} {α β : Type w} {σ : Type*}

/-- Run `p`, then go on with its result. -/
def bind (p : Prog Op Ans α) (f : α → Prog Op Ans β) : Prog Op Ans β :=
  match p with
  | ret a => f a
  | call op next => call op fun a => (next a).bind f

/-- The program has returned. -/
def Returned : Prog Op Ans α → Prop
  | ret _ => True
  | call _ _ => False

instance : DecidablePred (Returned : Prog Op Ans α → Prop)
  | ret _ => isTrue trivial
  | call _ _ => isFalse id

@[simp] theorem bind_ret (a : α) (f : α → Prog Op Ans β) :
    (ret a : Prog Op Ans α).bind f = f a := rfl

@[simp] theorem bind_call (op : Op) (next : Ans op → Prog Op Ans α)
    (f : α → Prog Op Ans β) :
    (call op next).bind f = call op fun a => (next a).bind f := rfl

@[simp] theorem returned_ret (a : α) : (ret a : Prog Op Ans α).Returned := trivial

@[simp] theorem not_returned_call (op : Op) (next : Ans op → Prog Op Ans α) :
    ¬ (call op next).Returned := id

/-! ### Paths -/

/-- `Path p tr q`: answered as `tr` records, `p` becomes `q`. -/
inductive Path : Prog Op Ans α → List (Event Op Ans) → Prog Op Ans α → Prop
  | nil (p : Prog Op Ans α) : Path p [] p
  | cons {op : Op} {next : Ans op → Prog Op Ans α} (a : Ans op)
      {tr : List (Event Op Ans)} {q : Prog Op Ans α} :
      Path (next a) tr q → Path (call op next) (⟨op, a⟩ :: tr) q

@[simp] theorem path_nil_iff {p q : Prog Op Ans α} : Path p [] q ↔ q = p := by
  constructor
  · intro h
    cases h
    rfl
  · rintro rfl
    exact .nil q

/-- A program that has returned makes no further call. -/
@[simp] theorem path_ret_iff {a : α} {tr : List (Event Op Ans)} {q : Prog Op Ans α} :
    Path (ret a) tr q ↔ tr = [] ∧ q = ret a := by
  constructor
  · intro h
    cases h
    exact ⟨rfl, rfl⟩
  · rintro ⟨rfl, rfl⟩
    exact .nil _

/-- From a call a program either has not moved or was given an answer. -/
theorem path_call_iff {op : Op} {next : Ans op → Prog Op Ans α}
    {tr : List (Event Op Ans)} {q : Prog Op Ans α} :
    Path (call op next) tr q ↔
      (tr = [] ∧ q = call op next) ∨
      ∃ (a : Ans op) (tr' : List (Event Op Ans)), tr = ⟨op, a⟩ :: tr' ∧ Path (next a) tr' q := by
  constructor
  · intro h
    cases h with
    | nil => exact .inl ⟨rfl, rfl⟩
    | cons a h => exact .inr ⟨a, _, rfl, h⟩
  · rintro (⟨rfl, rfl⟩ | ⟨a, tr', rfl, h⟩)
    · exact .nil _
    · exact .cons a h

/-- A path from one result to another has nothing on it. -/
theorem path_ret_ret_iff {a b : α} {tr : List (Event Op Ans)} :
    Path (ret a : Prog Op Ans α) tr (ret b) ↔ tr = [] ∧ b = a := by
  rw [path_ret_iff, ret.injEq]

/-- A path from a call to a result goes through an answer. -/
theorem path_call_ret_iff {op : Op} {next : Ans op → Prog Op Ans α}
    {tr : List (Event Op Ans)} {b : α} :
    Path (call op next) tr (ret b) ↔
      ∃ (a : Ans op) (tr' : List (Event Op Ans)),
        tr = ⟨op, a⟩ :: tr' ∧ Path (next a) tr' (ret b) := by
  rw [path_call_iff, or_iff_right]
  rintro ⟨-, hret⟩
  cases hret

theorem Path.trans {p q r : Prog Op Ans α} {tr₁ tr₂ : List (Event Op Ans)}
    (h₁ : Path p tr₁ q) (h₂ : Path q tr₂ r) : Path p (tr₁ ++ tr₂) r := by
  induction h₁ with
  | nil => exact h₂
  | cons a _ ih => exact .cons a (ih h₂)

/-- One more answered call at the end of a path. -/
theorem Path.snoc {p : Prog Op Ans α} {tr : List (Event Op Ans)} {op : Op}
    {next : Ans op → Prog Op Ans α} (h : Path p tr (call op next)) (a : Ans op) :
    Path p (tr ++ [⟨op, a⟩]) (next a) :=
  h.trans (.cons a (.nil _))

/-- A path of `p.bind f` stays inside `p`, or runs through `p` and goes on in
the continuation. -/
theorem path_bind {p : Prog Op Ans α} {f : α → Prog Op Ans β}
    {tr : List (Event Op Ans)} {q : Prog Op Ans β} (h : Path (p.bind f) tr q) :
    (∃ p', Path p tr p' ∧ ¬ p'.Returned ∧ q = p'.bind f) ∨
    ∃ a tr₁ tr₂, tr = tr₁ ++ tr₂ ∧ Path p tr₁ (ret a) ∧ Path (f a) tr₂ q := by
  induction p generalizing tr with
  | ret a => exact .inr ⟨a, [], tr, rfl, .nil _, h⟩
  | call op next ih =>
    -- the path ends at this call, or goes on with the program after its answer
    rw [bind_call, path_call_iff] at h
    rcases h with ⟨rfl, rfl⟩ | ⟨a, tr', rfl, h⟩
    · exact .inl ⟨call op next, .nil _, not_returned_call op next, rfl⟩
    · rcases ih a h with ⟨p', hp, hnot, rfl⟩ | ⟨b, tr₁, tr₂, rfl, hp, hf⟩
      · exact .inl ⟨p', .cons a hp, hnot, rfl⟩
      · exact .inr ⟨b, ⟨op, a⟩ :: tr₁, tr₂, rfl, .cons a hp, hf⟩

/-- The answers decide where a program stands. -/
theorem Path.unique {p q q' : Prog Op Ans α} {tr : List (Event Op Ans)} (h : Path p tr q)
    (h' : Path p tr q') : q = q' := by
  induction h with
  | nil p => exact (path_nil_iff.mp h').symm
  | cons a _ ih =>
    cases h' with
    | cons _ h' => exact ih h'

/-! ### Side by side -/

/-- After `tr`, the two programs go on with the same calls, whatever the
answers: `I` holds of all that was answered wherever they call, and `R` of it
and of their results where they return. -/
inductive Lockstep (I : List (Event Op Ans) → Prop) (R : List (Event Op Ans) → α → β → Prop) :
    List (Event Op Ans) → Prog Op Ans α → Prog Op Ans β → Prop
  | ret {tr : List (Event Op Ans)} {a : α} {b : β} : R tr a b → Lockstep I R tr (ret a) (ret b)
  | call {tr : List (Event Op Ans)} {op : Op} {next : Ans op → Prog Op Ans α}
      {next' : Ans op → Prog Op Ans β} :
      I tr → (∀ a, Lockstep I R (tr ++ [⟨op, a⟩]) (next a) (next' a)) →
      Lockstep I R tr (call op next) (call op next')

variable {I : List (Event Op Ans) → Prop} {R : List (Event Op Ans) → α → β → Prop}

/-- **The same answers lead both to the same place.** -/
theorem Lockstep.path {tr tr' : List (Event Op Ans)} {p q : Prog Op Ans α} {p' : Prog Op Ans β}
    (h : Lockstep I R tr p p') (hp : Path p tr' q) :
    ∃ q', Path p' tr' q' ∧ Lockstep I R (tr ++ tr') q q' := by
  induction hp generalizing tr p' with
  | nil p =>
    rw [List.append_nil]
    exact ⟨p', .nil _, h⟩
  | cons a _ ih =>
    cases h with
    | call _ hnext =>
      obtain ⟨q', hpath, hlock⟩ := ih (hnext a)
      rw [List.append_assoc, List.singleton_append] at hlock
      exact ⟨q', .cons a hpath, hlock⟩

/-! ### Running alone -/

/-- Run a program to its end against a deterministic server. -/
def run (serve : σ → (op : Op) → Ans op × σ) : Prog Op Ans α → σ → α × σ
  | ret a, s => (a, s)
  | call op next, s => (next (serve s op).1).run serve (serve s op).2

@[simp] theorem run_ret (serve : σ → (op : Op) → Ans op × σ) (a : α) (s : σ) :
    (ret a : Prog Op Ans α).run serve s = (a, s) := rfl

@[simp] theorem run_call (serve : σ → (op : Op) → Ans op × σ) (op : Op)
    (next : Ans op → Prog Op Ans α) (s : σ) :
    (call op next).run serve s = (next (serve s op).1).run serve (serve s op).2 := rfl

theorem run_bind (serve : σ → (op : Op) → Ans op × σ) (p : Prog Op Ans α)
    (f : α → Prog Op Ans β) (s : σ) :
    (p.bind f).run serve s = (f (p.run serve s).1).run serve (p.run serve s).2 := by
  induction p generalizing s with
  | ret a => rfl
  | call op next ih => simp only [bind_call, run_call, ih]

/-- The calls a lone run makes, with their answers. -/
def calls (serve : σ → (op : Op) → Ans op × σ) : Prog Op Ans α → σ → List (Event Op Ans)
  | ret _, _ => []
  | call op next, s =>
    ⟨op, (serve s op).1⟩ :: (next (serve s op).1).calls serve (serve s op).2

/-- The calls of a lone run are a path from the program to its result. -/
theorem run_path (serve : σ → (op : Op) → Ans op × σ) (p : Prog Op Ans α) (s : σ) :
    Path p (p.calls serve s) (ret (p.run serve s).1) := by
  induction p generalizing s with
  | ret a => exact .nil _
  | call op next ih => exact .cons _ (ih _ _)

end Prog

end ResilientMesh
