/-
ResilientMesh/LostUpdates.lean

Transactions over cells without locks, where nothing is asked of the run.  A
write that does not look at its cell may wipe out what others have written
since its thread last read, and so their updates are lost.

Nothing else can go wrong, if a transaction writes by what it has read last:
every cell always holds what some of the transactions leave in it, one after
another (`Cells.explained`).  The order of a cell is carried along with the
run, and with every thread that has not written yet the order of its cell at
its last read; a write puts its own thread behind that older order.

Nothing in this file knows the services.
-/
import ResilientMesh.Serial

namespace ResilientMesh

universe u v w

namespace Cells

variable {ι K V : Type*} {Op : Type u} {Ans : Op → Type v} {α : Type w}

/-! ### Transactions that write by their last read -/

/-- A transaction on the cell `k` that, where it still may write, goes by its
last answer: a state that gives this answer would have given all those before
it.  `told` are the states that would have given the answers so far. -/
inductive Decisive (C : Cells K V Op Ans) (k : K) : ((K → V) → Prop) → Prog Op Ans α → Prop
  | reader {told : (K → V) → Prop} {p : Prog Op Ans α} : C.Reader k p → Decisive C k told p
  | read {told : (K → V) → Prop} {op : Op} {next : Ans op → Prog Op Ans α} :
      C.reads op = true → C.key op = k →
      (∀ s, ¬ C.Reader k (next (C.serve s op).1) → told s) →
      (∀ s, Decisive C k (fun t => (C.serve t op).1 = (C.serve s op).1) (next (C.serve s op).1)) →
      Decisive C k told (.call op next)
  | write {told : (K → V) → Prop} {op : Op} {next : Ans op → Prog Op Ans α} :
      C.reads op = false → C.key op = k → (∀ a, C.Reader k (next a)) →
      Decisive C k told (.call op next)

/-- What a write leaves in its cell does not depend on the state. -/
structure Blind [DecidableEq K] (C : Cells K V Op Ans) (written : Op → V) : Prop where
  serve : ∀ s op, C.reads op = false →
    (C.serve s op).2 = Function.update s (C.key op) (written op)

/-! ### Orders of those that have written -/

variable {C : Cells K V Op Ans} {account : ι → K} {c₀ c c' : Pool ι (K → V) Op Ans α}
  {log : List (Entry ι (K → V) Op Ans)} {e : Entry ι (K → V) Op Ans} {i : ι} {k : K}
  {ord : List ι}

/-- The thread has written. -/
def HasWritten (C : Cells K V Op Ans) (log : List (Entry ι (K → V) Op Ans)) (i : ι) : Prop :=
  ∃ w ∈ log, w.who = i ∧ C.reads w.op = false

/-- Threads of the cell `k` that have written, each of them once. -/
structure Writers (C : Cells K V Op Ans) (account : ι → K) (log : List (Entry ι (K → V) Op Ans))
    (k : K) (ord : List ι) : Prop where
  nodup : ord.Nodup
  account_eq : ∀ i ∈ ord, account i = k
  hasWritten : ∀ i ∈ ord, C.HasWritten log i

theorem HasWritten.concat (h : C.HasWritten log i) (e : Entry ι (K → V) Op Ans) :
    C.HasWritten (log ++ [e]) i := by
  obtain ⟨w, hw, hwrite⟩ := h
  exact ⟨w, List.mem_append_left _ hw, hwrite⟩

/-- A thread that only reads, or does nothing, still has not written. -/
theorem not_hasWritten_concat (h : ¬ C.HasWritten log i) (he : e.who = i → C.reads e.op = true) :
    ¬ C.HasWritten (log ++ [e]) i := by
  rintro ⟨w, hw, hwho, hwrites⟩
  rcases List.mem_append.mp hw with hw | hw
  · exact h ⟨w, hw, hwho, hwrites⟩
  · obtain rfl := List.mem_singleton.mp hw
    rw [he hwho] at hwrites
    cases hwrites

theorem Writers.nil : C.Writers account log k [] :=
  ⟨List.nodup_nil, fun _ h => absurd h List.not_mem_nil, fun _ h => absurd h List.not_mem_nil⟩

theorem Writers.concat (h : C.Writers account log k ord) (e : Entry ι (K → V) Op Ans) :
    C.Writers account (log ++ [e]) k ord :=
  ⟨h.nodup, h.account_eq, fun i hi => (h.hasWritten i hi).concat e⟩

/-- A thread that writes now takes the last place. -/
theorem Writers.snoc (h : C.Writers account log k ord) (hnot : ¬ C.HasWritten log e.who)
    (haccount : account e.who = k) (hwrites : C.reads e.op = false) :
    C.Writers account (log ++ [e]) k (ord ++ [e.who]) := by
  have hlast : C.HasWritten (log ++ [e]) e.who :=
    ⟨e, List.mem_append_right _ (List.mem_singleton_self e), rfl, hwrites⟩
  refine ⟨?_, ?_, ?_⟩
  · rw [List.nodup_append]
    refine ⟨h.nodup, List.nodup_singleton _, ?_⟩
    intro i hi j hj hij
    obtain rfl := List.mem_singleton.mp hj
    exact hnot (hij ▸ h.hasWritten i hi)
  · intro i hi
    rcases List.mem_append.mp hi with hi | hi
    · exact h.account_eq i hi
    · rw [List.mem_singleton.mp hi]
      exact haccount
  · intro i hi
    rcases List.mem_append.mp hi with hi | hi
    · exact (h.hasWritten i hi).concat e
    · rw [List.mem_singleton.mp hi]
      exact hlast

/-! ### Every run -/

/-- The state that the transactions of `ord` leave, one after another. -/
def after (C : Cells K V Op Ans) (c₀ : Pool ι (K → V) Op Ans α) (ord : List ι) : K → V :=
  (C.serially c₀.prog ord c₀.state).2

/-- Where a thread stands: it will not write any more; or it has not written
yet, and has read what some of the writers leave. -/
def Informed (C : Cells K V Op Ans) (account : ι → K) (c₀ : Pool ι (K → V) Op Ans α)
    (log : List (Entry ι (K → V) Op Ans)) (i : ι) (p : Prog Op Ans α) : Prop :=
  C.Reader (account i) p ∨
    ¬ C.HasWritten log i ∧ ∃ told, C.Decisive (account i) told p ∧
      (∀ t, told t → (c₀.prog i).run C.serve t = p.run C.serve t) ∧
      ∃ ord, C.Writers account log (account i) ord ∧ told (C.after c₀ ord)

/-- The run so far, explained: every cell by an order of its writers, and every
thread by what it has read. -/
structure Explained (C : Cells K V Op Ans) (account : ι → K) (c₀ : Pool ι (K → V) Op Ans α)
    (log : List (Entry ι (K → V) Op Ans)) (c : Pool ι (K → V) Op Ans α) : Prop where
  cells : ∀ k, ∃ ord, C.Writers account log k ord ∧ C.after c₀ ord k = c.state k
  threads : ∀ i, C.Informed account c₀ log i (c.prog i)

theorem explained_nil (hprog : ∀ i, C.Decisive (account i) (fun _ => True) (c₀.prog i)) :
    Explained C account c₀ [] c₀ := by
  refine ⟨fun k => ⟨[], .nil, rfl⟩, ?_⟩
  intro i
  refine .inr ⟨?_, fun _ => True, hprog i, fun _ _ => rfl, [], .nil, trivial⟩
  rintro ⟨w, hw, -⟩
  cases hw

/-- Another thread's step leaves a thread as informed as it was. -/
theorem Informed.frame {p : Prog Op Ans α} (h : C.Informed account c₀ log i p) (he : e.who ≠ i) :
    C.Informed account c₀ (log ++ [e]) i p := by
  rcases h with hreader | ⟨hnot, told, hdecisive, hrun, ord, hwriters, htold⟩
  · exact .inl hreader
  exact .inr ⟨not_hasWritten_concat hnot fun hwho => absurd hwho he, told, hdecisive, hrun, ord,
    hwriters.concat e, htold⟩

/-- **A read brings a thread up to date**: it now goes by the order of its cell
as it is. -/
theorem Informed.read {s : K → V} {op : Op} {next : Ans op → Prog Op Ans α}
    (h : C.Informed account c₀ log i (.call op next)) (hreads : C.reads op = true)
    (hord : C.Writers account log (account i) ord)
    (hcell : C.after c₀ ord (account i) = s (account i)) :
    C.Informed account c₀ (log ++ [⟨i, op, (C.serve s op).1, s, s⟩]) i (next (C.serve s op).1) := by
  rcases h with hreader | ⟨hnot, told, hdecisive, hrun, -⟩
  · cases hreader with
    | call _ _ hnext => exact .inl (hnext _)
  by_cases hreader : C.Reader (account i) (next (C.serve s op).1)
  · exact .inl hreader
  cases hdecisive with
  | reader hcall =>
    cases hcall with
    | call _ _ hnext => exact absurd (hnext _) hreader
  | write hwrites _ _ =>
    rw [hreads] at hwrites
    cases hwrites
  | read _ hkey hearlier hnext =>
    -- the writers of the cell would have given the same answer
    have hanswer : ∀ t : K → V, t (account i) = s (account i) →
        (C.serve t op).1 = (C.serve s op).1 := fun t ht => C.answer t s op hreads (hkey ▸ ht)
    refine .inr ⟨not_hasWritten_concat hnot fun _ => hreads, _, hnext s, ?_, ord, hord.concat _,
      hanswer _ hcell⟩
    intro t ht
    have htold : told t := by
      apply hearlier t
      rwa [ht]
    rw [hrun t htold, Prog.run_call, C.unchanged t op hreads, ht]

variable [DecidableEq K] {written : Op → V}

/-- What a thread that writes now would have left behind the writers it has
read of, it leaves. -/
theorem Informed.write {op : Op} {next : Ans op → Prog Op Ans α} (hblind : C.Blind written)
    (h : C.Informed account c₀ log i (.call op next)) (hwrites : C.reads op = false) :
    C.key op = account i ∧ (∀ a, C.Reader (account i) (next a)) ∧ ¬ C.HasWritten log i ∧
      ∃ ord, C.Writers account log (account i) ord ∧
        C.after c₀ (ord ++ [i]) (account i) = written op := by
  rcases h with hreader | ⟨hnot, told, hdecisive, hrun, ord, hord, htold⟩
  · cases hreader with
    | call hreads _ _ =>
      rw [hwrites] at hreads
      cases hreads
  cases hdecisive with
  | reader hcall =>
    cases hcall with
    | call hreads _ _ =>
      rw [hwrites] at hreads
      cases hreads
  | read hreads _ _ _ =>
    rw [hwrites] at hreads
    cases hreads
  | write _ hkey hnext =>
    refine ⟨hkey, hnext, hnot, ord, hord, ?_⟩
    rw [after, serially_concat]
    show ((c₀.prog i).run C.serve (C.after c₀ ord)).2 (account i) = written op
    rw [hrun _ htold, Prog.run_call, (hnext _).run_state, hblind.serve _ op hwrites, hkey,
      Function.update_self]

variable [DecidableEq ι]

theorem Explained.step (hblind : C.Blind written) (h : Explained C account c₀ log c)
    (hstep : Pool.Step (Pool.computed C.serve) c e c') :
    Explained C account c₀ (log ++ [e]) c' := by
  cases hstep with
  | @mk i op next a s hprog hserve =>
    obtain ⟨rfl, rfl⟩ := Prod.mk.inj hserve
    have hinformed := h.threads i
    rw [hprog] at hinformed
    -- the other threads are as they were
    have hthreads : C.Informed account c₀
          (log ++ [⟨i, op, (C.serve c.state op).1, c.state, (C.serve c.state op).2⟩]) i
          (next (C.serve c.state op).1) →
        ∀ j, C.Informed account c₀
          (log ++ [⟨i, op, (C.serve c.state op).1, c.state, (C.serve c.state op).2⟩]) j
          ((c.resume i (C.serve c.state op).2 (next (C.serve c.state op).1)).prog j) := by
      intro hown j
      by_cases hj : j = i
      · subst hj
        rw [Pool.resume_prog_self]
        exact hown
      · rw [Pool.resume_prog_ne _ _ _ hj]
        exact (h.threads j).frame (Ne.symm hj)
    cases hreads : C.reads op with
    | true =>
      have hsame := C.unchanged c.state op hreads
      refine ⟨?_, hthreads ?_⟩
      · intro k
        obtain ⟨ord, hord, hcell⟩ := h.cells k
        exact ⟨ord, hord.concat _, hcell.trans (congrFun hsame k).symm⟩
      · obtain ⟨ord, hord, hcell⟩ := h.cells (account i)
        rw [hsame]
        exact hinformed.read hreads hord hcell
    | false =>
      obtain ⟨hkey, hnext, hnot, ord, hord, hcell⟩ := hinformed.write hblind hreads
      refine ⟨?_, hthreads (.inl (hnext _))⟩
      intro k
      show ∃ ord, _ ∧ _ = (C.serve c.state op).2 k
      rw [hblind.serve c.state op hreads, hkey]
      -- the cell that was written has a new order, every other keeps its own
      by_cases hk : k = account i
      · subst hk
        rw [Function.update_self]
        exact ⟨ord ++ [i], hord.snoc hnot rfl hreads, hcell⟩
      · rw [Function.update_of_ne hk]
        obtain ⟨ord', hord', hcell'⟩ := h.cells k
        exact ⟨ord', hord'.concat _, hcell'⟩

/-- **Whatever is lost, every cell holds what some of its writers leave, one
after another.** -/
theorem explained (hblind : C.Blind written)
    (hprog : ∀ i, C.Decisive (account i) (fun _ => True) (c₀.prog i))
    (h : Pool.Run (Pool.computed C.serve) c₀ log c) : Explained C account c₀ log c := by
  induction h with
  | refl => exact explained_nil hprog
  | tail _ hstep ih => exact ih.step hblind hstep

end Cells

end ResilientMesh
