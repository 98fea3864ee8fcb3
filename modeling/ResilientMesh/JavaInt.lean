/-
ResilientMesh/JavaInt.lean

Java's int arithmetic.  An int expression has an exact value, an integer, and
what it evaluates to is that value wrapped around to 32 bits.  An evaluation
keeps the exact values of all the expressions it has evaluated, so "nothing
overflows" is a statement about that list.

Code with loops need not end.  An evaluation is given a bound on the heads that
each of its loops may pass, and is still `running` when a loop would pass more;
it terminates if some bound is enough.

Three predicates, each with a rule for every construct:

* `Within e a`: nothing evaluated overflows, and the only thing that `e` may
  end with is `a`;
* `Returns e a`: from some bound on, `e` ends with `a`;
* `Results e P`: whatever `e` ends with satisfies `P`.

Main results: a counting loop whose bound is an int goes through the range
below it and no further, without an overflow (`Ends.loop`), and a loop that no
int ends never ends (`results_loop_false`).  Nothing in this file knows the
services.
-/
import Mathlib.Data.Int.Range
import Mathlib.Tactic

namespace ResilientMesh

/-! ### Ints -/

/-- The range of an int. -/
def IsInt (x : ℤ) : Prop := -2 ^ 31 ≤ x ∧ x < 2 ^ 31

/-- Int arithmetic wraps around. -/
def javaInt (x : ℤ) : ℤ := x.bmod (2 ^ 32)

theorem javaInt_eq_self {x : ℤ} (h : IsInt x) : javaInt x = x := by
  obtain ⟨hlo, hhi⟩ := h
  apply Int.bmod_eq_of_le_mul_two
  · push_cast
    omega
  · push_cast
    omega

theorem isInt_javaInt (x : ℤ) : IsInt (javaInt x) := by
  have hlo := @Int.le_bmod x (2 ^ 32) (by decide)
  have hhi := @Int.bmod_lt x (2 ^ 32) (by decide)
  push_cast at hlo hhi
  constructor
  · exact hlo
  · exact hhi

/-! ### Evaluations -/

variable {α β σ : Type}

/-- What an evaluation has come to. -/
inductive Outcome (α : Type)
  | running
  | threw
  | returned (a : α)

/-- Given a bound on the heads of each loop: the exact values of the int
expressions evaluated, in order, and what it has come to. -/
def IntEval (α : Type) := ℕ → List ℤ × Outcome α

namespace IntEval

/-- The exact values of the expressions evaluated. -/
def evaluated (e : IntEval α) (fuel : ℕ) : List ℤ := (e fuel).1

def outcome (e : IntEval α) (fuel : ℕ) : Outcome α := (e fuel).2

/-- A value that needs no arithmetic. -/
def value (a : α) : IntEval α := fun _ => ([], .returned a)

/-- An exception. -/
def throw : IntEval α := fun _ => ([], .threw)

/-- An int expression with the exact value `x`. -/
def int (x : ℤ) : IntEval ℤ := fun _ => ([x], .returned (javaInt x))

/-- One evaluation after another. -/
def andThen (e : IntEval α) (f : α → IntEval β) : IntEval β := fun fuel =>
  match e.outcome fuel with
  | .running => (e.evaluated fuel, .running)
  | .threw => (e.evaluated fuel, .threw)
  | .returned a => (e.evaluated fuel ++ (f a).evaluated fuel, (f a).outcome fuel)

instance : Monad IntEval where
  pure := value
  bind := andThen

/-- What a loop does after its body: it was left, or it goes on. -/
def afterBody (next : σ → IntEval σ) : ForInStep σ → IntEval σ
  | .done s => pure s
  | .yield s => next s

/-- A loop from the index `i` on that may pass so many heads; `i++` is an int
expression, too. -/
def loopFrom (cond : ℤ → IntEval Bool) (body : ℤ → σ → IntEval (ForInStep σ)) :
    ℕ → ℤ → σ → IntEval σ
  | 0, _, _ => fun _ => ([], .running)
  | heads + 1, i, s => do
    if ← cond i then
      afterBody (fun s => int (i + 1) >>= fun i => loopFrom cond body heads i s) (← body i s)
    else pure s

/-- `for (int i = start; cond; i++) body`. -/
def loop (cond : ℤ → IntEval Bool) (body : ℤ → σ → IntEval (ForInStep σ)) (start : ℤ) (s : σ) :
    IntEval σ := fun fuel => loopFrom cond body fuel start s fuel

/-! ### One after another -/

variable {e : IntEval α} {f : α → IntEval β} {a : α} {b : β} {fuel : ℕ}

theorem evaluated_bind (h : e.outcome fuel = .returned a) :
    (e >>= f).evaluated fuel = e.evaluated fuel ++ (f a).evaluated fuel := by
  show (andThen e f fuel).1 = _
  rw [andThen, h]

theorem outcome_bind (h : e.outcome fuel = .returned a) :
    (e >>= f).outcome fuel = (f a).outcome fuel := by
  show (andThen e f fuel).2 = _
  rw [andThen, h]

/-- What is evaluated first is evaluated, whatever follows. -/
theorem mem_evaluated_bind {x : ℤ} (h : x ∈ e.evaluated fuel) :
    x ∈ (e >>= f).evaluated fuel := by
  show x ∈ (andThen e f fuel).1
  rw [andThen]
  split
  · exact h
  · exact h
  · exact List.mem_append_left _ h

/-- An evaluation ends only if its first part does. -/
theorem returned_bind (h : (e >>= f).outcome fuel = .returned b) :
    ∃ a, e.outcome fuel = .returned a ∧ (f a).outcome fuel = .returned b := by
  have h : (andThen e f fuel).2 = .returned b := h
  rw [andThen] at h
  split at h
  · cases h
  · cases h
  · exact ⟨_, ‹_›, h⟩

theorem outcome_int {x : ℤ} (h : IsInt x) (fuel : ℕ) : (int x).outcome fuel = .returned x :=
  congrArg Outcome.returned (javaInt_eq_self h)

/-! ### What an evaluation can end with -/

/-- Whatever the evaluation ends with satisfies `P`. -/
def Results (e : IntEval α) (P : α → Prop) : Prop :=
  ∀ fuel a, e.outcome fuel = .returned a → P a

theorem results_true (e : IntEval α) : e.Results fun _ => True := fun _ _ _ => trivial

theorem results_pure {P : α → Prop} (h : P a) : (pure a : IntEval α).Results P := by
  rintro fuel a' ⟨⟩
  exact h

theorem results_int (x : ℤ) : (int x).Results IsInt := by
  rintro fuel a' ⟨⟩
  exact isInt_javaInt x

theorem Results.bind {P : α → Prop} {Q : β → Prop} (he : e.Results P)
    (hf : ∀ a, P a → (f a).Results Q) : (e >>= f).Results Q := by
  intro fuel b h
  obtain ⟨a, ha, hb⟩ := returned_bind h
  exact hf a (he fuel a ha) fuel b hb

/-! ### Without an overflow -/

/-- Nothing evaluated overflows, and the evaluation ends with `a` if it ends. -/
structure Within (e : IntEval α) (a : α) : Prop where
  inRange : ∀ fuel, ∀ x ∈ e.evaluated fuel, IsInt x
  outcome : ∀ fuel, e.outcome fuel = .running ∨ e.outcome fuel = .returned a

theorem within_pure (a : α) : (pure a : IntEval α).Within a := by
  constructor
  · intro fuel x hx
    cases hx
  · intro fuel
    exact .inr rfl

theorem within_int {x : ℤ} (h : IsInt x) : (int x).Within x := by
  constructor
  · intro fuel y hy
    obtain rfl : y = x := List.mem_singleton.mp hy
    exact h
  · intro fuel
    exact .inr (outcome_int h fuel)

theorem Within.bind (he : e.Within a) (hf : (f a).Within b) : (e >>= f).Within b := by
  have hboth : ∀ fuel, (∀ x ∈ (e >>= f).evaluated fuel, IsInt x) ∧
      ((e >>= f).outcome fuel = .running ∨ (e >>= f).outcome fuel = .returned b) := by
    intro fuel
    rcases he.outcome fuel with hrun | hret
    · have heval : (e >>= f) fuel = (e.evaluated fuel, .running) := by
        show andThen e f fuel = _
        rw [andThen, hrun]
      refine ⟨?_, .inl (congrArg Prod.snd heval)⟩
      intro x hx
      rw [evaluated, heval] at hx
      exact he.inRange fuel x hx
    · rw [evaluated_bind hret, outcome_bind hret]
      refine ⟨?_, hf.outcome fuel⟩
      intro x hx
      rcases List.mem_append.mp hx with hx | hx
      · exact he.inRange fuel x hx
      · exact hf.inRange fuel x hx
  exact ⟨fun fuel => (hboth fuel).1, fun fuel => (hboth fuel).2⟩

/-! ### Ending -/

/-- Loops that may pass enough heads end, and the evaluation with `a`. -/
def Returns (e : IntEval α) (a : α) : Prop :=
  ∃ enough, ∀ fuel, enough ≤ fuel → e.outcome fuel = .returned a

theorem returns_pure (a : α) : (pure a : IntEval α).Returns a := ⟨0, fun _ _ => rfl⟩

theorem returns_int {x : ℤ} (h : IsInt x) : (int x).Returns x :=
  ⟨0, fun fuel _ => outcome_int h fuel⟩

/-- What wraps around is evaluated, too. -/
theorem returns_javaInt (x : ℤ) : (int x).Returns (javaInt x) := ⟨0, fun _ _ => rfl⟩

/-- There is one end. -/
theorem Returns.unique {a' : α} (h : e.Returns a) (h' : e.Returns a') : a = a' := by
  obtain ⟨n, hn⟩ := h
  obtain ⟨m, hm⟩ := h'
  have hboth := (hn _ (le_max_left n m)).symm.trans (hm _ (le_max_right n m))
  exact Outcome.returned.inj hboth

theorem Returns.bind (he : e.Returns a) (hf : (f a).Returns b) : (e >>= f).Returns b := by
  obtain ⟨n, hn⟩ := he
  obtain ⟨m, hm⟩ := hf
  refine ⟨max n m, ?_⟩
  intro fuel hfuel
  rw [outcome_bind (hn fuel (le_trans (le_max_left n m) hfuel))]
  exact hm fuel (le_trans (le_max_right n m) hfuel)

/-- The evaluation ends with `a`, and nothing it evaluates overflows. -/
structure Ends (e : IntEval α) (a : α) : Prop where
  within : e.Within a
  returns : e.Returns a

theorem ends_pure (a : α) : (pure a : IntEval α).Ends a := ⟨within_pure a, returns_pure a⟩

theorem ends_int {x : ℤ} (h : IsInt x) : (int x).Ends x := ⟨within_int h, returns_int h⟩

theorem Ends.bind (he : e.Ends a) (hf : (f a).Ends b) : (e >>= f).Ends b :=
  ⟨he.within.bind hf.within, he.returns.bind hf.returns⟩

/-- Nothing the evaluation does overflows, and it ends. -/
structure Defined (e : IntEval α) : Prop where
  inRange : ∀ fuel, ∀ x ∈ e.evaluated fuel, IsInt x
  ends : ∃ fuel a, e.outcome fuel = .returned a

theorem Ends.defined (h : e.Ends a) : e.Defined := by
  obtain ⟨enough, hret⟩ := h.returns
  exact ⟨h.within.inRange, enough, a, hret enough le_rfl⟩

/-! ### Loops -/

/-- A loop's body along a list of indices, up to where the loop is left. -/
def stepThrough (g : ℤ → σ → ForInStep σ) : List ℤ → σ → σ
  | [], s => s
  | i :: rest, s =>
    match g i s with
    | .done s => s
    | .yield s => stepThrough g rest s

theorem range_of_lt {i stop : ℤ} (h : i < stop) :
    Int.range i stop = i :: Int.range (i + 1) stop := by
  obtain ⟨k, hk⟩ : ∃ k : ℕ, (stop - i).toNat = k + 1 :=
    Nat.exists_eq_add_one.mpr (by omega)
  have hrest : (stop - (i + 1)).toNat = k := by omega
  rw [Int.range, Int.range, hk, hrest, List.range_succ_eq_map, List.map_cons, List.map_map]
  congr 1
  · simp
  · apply List.map_congr_left
    intro r _
    simp only [Function.comp_apply]
    push_cast
    ring

theorem range_of_ge {i stop : ℤ} (h : stop ≤ i) : Int.range i stop = [] := by
  have hzero : (stop - i).toNat = 0 := by omega
  rw [Int.range, hzero]
  rfl

section Counting

variable {cond : ℤ → IntEval Bool} {body : ℤ → σ → IntEval (ForInStep σ)}
  {g : ℤ → σ → ForInStep σ} {start stop : ℤ}

/-- Below its bound an index can be counted up. -/
theorem isInt_succ {i : ℤ} (hstop : IsInt stop) (hi : IsInt i) (hlt : i < stop) :
    IsInt (i + 1) := by
  obtain ⟨-, hhi⟩ := hstop
  obtain ⟨hlo, -⟩ := hi
  constructor
  · omega
  · omega

/-- No head of the loop overflows. -/
theorem within_loopFrom (hstop : IsInt stop)
    (hcond : ∀ i, (cond i).Within (decide (i < stop)))
    (hbody : ∀ i s, start ≤ i → i < stop → (body i s).Within (g i s))
    (heads : ℕ) {i : ℤ} (hi : IsInt i) (hle : start ≤ i) (s : σ) :
    (loopFrom cond body heads i s).Within (stepThrough g (Int.range i stop) s) := by
  induction heads generalizing i s with
  | zero => exact ⟨fun _ x hx => absurd hx List.not_mem_nil, fun _ => .inl rfl⟩
  | succ heads ih =>
    rw [loopFrom]
    apply (hcond i).bind
    by_cases hlt : i < stop
    · rw [if_pos (decide_eq_true hlt), range_of_lt hlt, stepThrough]
      apply (hbody i s hle hlt).bind
      cases g i s with
      | done s => exact within_pure s
      | yield s =>
        have hnext := isInt_succ hstop hi hlt
        exact (within_int hnext).bind (ih hnext (by omega) s)
    · rw [if_neg (by simpa using hlt), range_of_ge (not_lt.mp hlt)]
      exact within_pure s

/-- As many heads as there are indices below the bound, and one more, are
enough. -/
theorem outcome_loopFrom (hstop : IsInt stop)
    (hcond : ∀ i, (cond i).Returns (decide (i < stop)))
    (hbody : ∀ i s, start ≤ i → i < stop → (body i s).Returns (g i s))
    (k : ℕ) {i : ℤ} (hk : stop - i ≤ k) (hi : IsInt i) (hle : start ≤ i) (s : σ) :
    ∃ enough, ∀ fuel, enough ≤ fuel → ∀ heads, k < heads →
      (loopFrom cond body heads i s).outcome fuel
        = .returned (stepThrough g (Int.range i stop) s) := by
  induction k generalizing i s with
  | zero =>
    obtain ⟨n, hn⟩ := hcond i
    have hge : ¬ i < stop := by omega
    refine ⟨n, ?_⟩
    intro fuel hfuel heads hheads
    obtain ⟨heads, rfl⟩ := Nat.exists_eq_add_one.mpr hheads
    rw [loopFrom, outcome_bind (hn fuel hfuel), if_neg (by simpa using hge),
      range_of_ge (not_lt.mp hge)]
    rfl
  | succ k ih =>
    obtain ⟨n, hn⟩ := hcond i
    by_cases hlt : i < stop
    · obtain ⟨m, hm⟩ := hbody i s hle hlt
      have hnext := isInt_succ hstop hi hlt
      rw [range_of_lt hlt, stepThrough]
      cases hg : g i s with
      | done s' =>
        refine ⟨max n m, ?_⟩
        intro fuel hfuel heads hheads
        obtain ⟨heads, rfl⟩ := Nat.exists_eq_add_one.mpr (Nat.zero_lt_of_lt hheads)
        rw [loopFrom, outcome_bind (hn fuel (le_trans (le_max_left n m) hfuel)),
          if_pos (decide_eq_true hlt), outcome_bind (hm fuel (le_trans (le_max_right n m) hfuel)),
          hg]
        rfl
      | yield s' =>
        obtain ⟨l, hl⟩ := ih (by omega) hnext (by omega) s'
        refine ⟨max (max n m) l, ?_⟩
        intro fuel hfuel heads hheads
        obtain ⟨heads, rfl⟩ := Nat.exists_eq_add_one.mpr (Nat.zero_lt_of_lt hheads)
        have hmax := le_trans (le_max_left (max n m) l) hfuel
        rw [loopFrom, outcome_bind (hn fuel (le_trans (le_max_left n m) hmax)),
          if_pos (decide_eq_true hlt),
          outcome_bind (hm fuel (le_trans (le_max_right n m) hmax)), hg, afterBody,
          outcome_bind (outcome_int hnext fuel)]
        exact hl fuel (le_trans (le_max_right (max n m) l) hfuel) heads
          (Nat.lt_of_succ_lt_succ hheads)
    · refine ⟨n, ?_⟩
      intro fuel hfuel heads hheads
      obtain ⟨heads, rfl⟩ := Nat.exists_eq_add_one.mpr (Nat.zero_lt_of_lt hheads)
      rw [loopFrom, outcome_bind (hn fuel hfuel), if_neg (by simpa using hlt),
        range_of_ge (not_lt.mp hlt)]
      rfl

/-- **A loop whose bound is an int goes through the range below it**, unless
its body leaves it, and does not overflow. -/
theorem Ends.loop (hstart : IsInt start) (hstop : IsInt stop)
    (hcond : ∀ i, (cond i).Ends (decide (i < stop)))
    (hbody : ∀ i s, start ≤ i → i < stop → (body i s).Ends (g i s)) (s : σ) :
    (loop cond body start s).Ends (stepThrough g (Int.range start stop) s) := by
  have hwithin := fun heads => within_loopFrom hstop (fun i => (hcond i).within)
    (fun i s h₁ h₂ => (hbody i s h₁ h₂).within) heads hstart le_rfl s
  constructor
  · exact ⟨fun fuel => (hwithin fuel).inRange fuel, fun fuel => (hwithin fuel).outcome fuel⟩
  · obtain ⟨n, hn⟩ := outcome_loopFrom hstop (fun i => (hcond i).returns)
      (fun i s h₁ h₂ => (hbody i s h₁ h₂).returns) (stop - start).toNat
      (Int.self_le_toNat _) hstart le_rfl s
    refine ⟨max n ((stop - start).toNat + 1), ?_⟩
    intro fuel hfuel
    exact hn fuel (le_trans (le_max_left _ _) hfuel) fuel (le_trans (le_max_right _ _) hfuel)

/-- **A loop that no int ends, and its body does not leave, never ends.** -/
theorem results_loop_false (hstart : IsInt start)
    (hcond : ∀ i, IsInt i → (cond i).Results fun c => c = true)
    (hbody : ∀ i s, (body i s).Results fun step => ∃ s', step = .yield s') (s : σ) :
    (loop cond body start s).Results fun _ => False := by
  have hheads : ∀ heads i s, IsInt i →
      (loopFrom cond body heads i s).Results fun _ => False := by
    intro heads
    induction heads with
    | zero =>
      rintro i s hi fuel a ⟨⟩
    | succ heads ih =>
      intro i s hi
      rw [loopFrom]
      refine (hcond i hi).bind ?_
      rintro c rfl
      refine (hbody i s).bind ?_
      rintro step ⟨s', rfl⟩
      exact (results_int (i + 1)).bind fun i' hi' => ih i' s' hi'
  exact fun fuel => hheads fuel start s hstart fuel

end Counting

end IntEval

end ResilientMesh
