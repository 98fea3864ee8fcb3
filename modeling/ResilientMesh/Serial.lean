/-
ResilientMesh/Serial.lean

Transactions over a state of cells, without locks.  A transaction reads one
cell as often as it likes, writes it at most once, and may read it again
afterwards; nothing keeps the other threads of the pool from writing the cell
in between.

A run is fresh if, at every step of a thread, its cell is as its own write left
it, or, where it has not written yet, as good as it has read: all that it was
told before it would be told again.

Main result: what a fresh run has come to is what the transactions come to one
after another (`Cells.Fresh.serial`).  A transaction takes its place in that
order with its write, and one that never writes with its last read.

Nothing in this file knows the services.
-/
import ResilientMesh.Pool

namespace ResilientMesh

universe u v w

/-- A server over cells.  Every operation is about one cell; one that reads
leaves all cells alone and answers by its own cell. -/
structure Cells (K V : Type*) (Op : Type u) (Ans : Op → Type v) where
  serve : (K → V) → (op : Op) → Ans op × (K → V)
  key : Op → K
  reads : Op → Bool
  unchanged : ∀ s op, reads op = true → (serve s op).2 = s
  answer : ∀ s s' op, reads op = true → s (key op) = s' (key op) → (serve s op).1 = (serve s' op).1

namespace Cells

variable {ι K V : Type*} {Op : Type u} {Ans : Op → Type v} {α : Type w}

/-! ### Transactions -/

/-- A program that only reads the cell `k`. -/
inductive Reader (C : Cells K V Op Ans) (k : K) : Prog Op Ans α → Prop
  | ret (a : α) : Reader C k (.ret a)
  | call {op : Op} {next : Ans op → Prog Op Ans α} :
      C.reads op = true → C.key op = k → (∀ a, Reader C k (next a)) → Reader C k (.call op next)

/-- A program that reads the cell `k`, writes it at most once, and then only
reads it. -/
inductive Transaction (C : Cells K V Op Ans) (k : K) : Prog Op Ans α → Prop
  | ret (a : α) : Transaction C k (.ret a)
  | read {op : Op} {next : Ans op → Prog Op Ans α} :
      C.reads op = true → C.key op = k → (∀ a, Transaction C k (next a)) →
      Transaction C k (.call op next)
  | write {op : Op} {next : Ans op → Prog Op Ans α} :
      C.reads op = false → C.key op = k → (∀ a, Reader C k (next a)) →
      Transaction C k (.call op next)

variable {C : Cells K V Op Ans} {k : K} {p q : Prog Op Ans α} {s s' : K → V}

theorem Reader.transaction (h : Reader C k p) : Transaction C k p := by
  induction h with
  | ret a => exact .ret a
  | call hreads hkey _ ih => exact .read hreads hkey ih

theorem Reader.run_state (h : Reader C k p) (s : K → V) : (p.run C.serve s).2 = s := by
  induction h generalizing s with
  | ret a => rfl
  | call hreads _ _ ih => rw [Prog.run_call, ih, C.unchanged s _ hreads]

/-- A reader sees its cell only. -/
theorem Reader.run_congr (h : Reader C k p) (hk : s k = s' k) :
    (p.run C.serve s).1 = (p.run C.serve s').1 := by
  induction h with
  | ret a => rfl
  | call hreads hkey _ ih =>
    rw [Prog.run_call, Prog.run_call, C.unchanged s _ hreads, C.unchanged s' _ hreads,
      C.answer s s' _ hreads (hkey ▸ hk)]
    exact ih _

/-- A program that was only told what it would be told now may as well start
now. -/
theorem run_of_path {tr : List (Event Op Ans)} (h : Prog.Path p tr q)
    (htold : ∀ ev ∈ tr, C.reads ev.op = true ∧ (C.serve s ev.op).1 = ev.ans) :
    p.run C.serve s = q.run C.serve s := by
  induction h with
  | nil => rfl
  | cons a _ ih =>
    have hfirst := htold _ List.mem_cons_self
    rw [Prog.run_call, C.unchanged s _ hfirst.1, hfirst.2]
    exact ih fun ev hev => htold ev (List.mem_cons_of_mem _ hev)

/-! ### One after another -/

/-- The programs in the given order, each alone: the results and the last
state. -/
def serially (C : Cells K V Op Ans) (prog : ι → Prog Op Ans α) :
    List ι → (K → V) → List (ι × α) × (K → V)
  | [], s => ([], s)
  | i :: ord, s =>
    let first := (prog i).run C.serve s
    let rest := C.serially prog ord first.2
    ((i, first.1) :: rest.1, rest.2)

variable {prog : ι → Prog Op Ans α}

variable (C) (prog) in
theorem serially_concat (ord : List ι) (i : ι) (s : K → V) :
    C.serially prog (ord ++ [i]) s =
      ((C.serially prog ord s).1 ++ [(i, ((prog i).run C.serve (C.serially prog ord s).2).1)],
        ((prog i).run C.serve (C.serially prog ord s).2).2) := by
  induction ord generalizing s with
  | nil => rfl
  | cons j ord ih =>
    rw [List.cons_append, serially, ih]
    rfl

variable (C) (prog) in
/-- There is one result for each program of the order. -/
theorem map_fst_serially (ord : List ι) (s : K → V) :
    (C.serially prog ord s).1.map Prod.fst = ord := by
  induction ord generalizing s with
  | nil => rfl
  | cons i ord ih => exact congrArg (i :: ·) (ih _)

theorem mem_of_mem_serially {ord : List ι} {i : ι} {r : α}
    (h : (i, r) ∈ (C.serially prog ord s).1) : i ∈ ord := by
  rw [← map_fst_serially C prog ord s]
  exact List.mem_map_of_mem h

variable (C) (prog) in
theorem exists_mem_serially {ord : List ι} {i : ι} (h : i ∈ ord) (s : K → V) :
    ∃ r, (i, r) ∈ (C.serially prog ord s).1 := by
  rw [← map_fst_serially C prog ord s] at h
  obtain ⟨⟨_, r⟩, hmem, rfl⟩ := List.mem_map.mp h
  exact ⟨r, hmem⟩

/-- Programs that have returned before they began do nothing. -/
theorem serially_returned {ord : List ι} (h : ∀ i ∈ ord, (prog i).Returned) (s : K → V) :
    (C.serially prog ord s).2 = s ∧
      ∀ i r, (i, r) ∈ (C.serially prog ord s).1 → prog i = .ret r := by
  induction ord with
  | nil => exact ⟨rfl, fun i r hmem => absurd hmem List.not_mem_nil⟩
  | cons j ord ih =>
    have hj := h j List.mem_cons_self
    cases hprog : prog j with
    | call op next =>
      rw [hprog] at hj
      exact hj.elim
    | ret a =>
      obtain ⟨hstate, hresults⟩ := ih fun i hi => h i (List.mem_cons_of_mem _ hi)
      rw [serially, hprog, Prog.run_ret]
      refine ⟨hstate, ?_⟩
      intro i r hmem
      rcases List.mem_cons.mp hmem with heq | hmem
      · obtain ⟨rfl, rfl⟩ := Prod.mk.inj heq
        exact hprog
      · exact hresults i r hmem

/-! ### Fresh runs -/

/-- Before the step `e`, the cell of its thread is as the thread's own write
left it, or the thread has not written and would be told again all that it was
told. -/
def Fresh (C : Cells K V Op Ans) (before : List (Entry ι (K → V) Op Ans))
    (e : Entry ι (K → V) Op Ans) : Prop :=
  (∃ w ∈ before, w.who = e.who ∧ C.reads w.op = false ∧
    e.pre (C.key e.op) = w.post (C.key e.op)) ∨
  ∀ w ∈ before, w.who = e.who → C.reads w.op = true ∧ (C.serve e.pre w.op).1 = w.ans

/-- Every step of `log` is fresh, after the steps `before` it. -/
def FreshFrom (C : Cells K V Op Ans) (before : List (Entry ι (K → V) Op Ans)) :
    List (Entry ι (K → V) Op Ans) → Prop
  | [] => True
  | e :: log => C.Fresh before e ∧ C.FreshFrom (before ++ [e]) log

variable {before log : List (Entry ι (K → V) Op Ans)} {e : Entry ι (K → V) Op Ans}

theorem freshFrom_concat :
    C.FreshFrom before (log ++ [e]) ↔ C.FreshFrom before log ∧ C.Fresh (before ++ log) e := by
  induction log generalizing before with
  | nil =>
    rw [List.nil_append, List.append_nil]
    exact ⟨fun h => ⟨trivial, h.1⟩, fun h => ⟨h.2, trivial⟩⟩
  | cons e' log ih =>
    rw [List.cons_append, FreshFrom, FreshFrom, ih, List.append_assoc, List.singleton_append,
      and_assoc]

section Decidable

variable [DecidableEq ι] [DecidableEq V] [∀ op, DecidableEq (Ans op)]

instance : Decidable (C.Fresh before e) :=
  inferInstanceAs (Decidable (_ ∨ _))

instance decidableFreshFrom : (before log : List (Entry ι (K → V) Op Ans)) →
    Decidable (C.FreshFrom before log)
  | _, [] => isTrue trivial
  | before, e :: log =>
    have := decidableFreshFrom (before ++ [e]) log
    inferInstanceAs (Decidable (_ ∧ _))

end Decidable

/-! ### The order of a fresh run -/

/-- A thread that has no place yet: it has only read, and has not returned. -/
structure Waiting (C : Cells K V Op Ans) (log : List (Entry ι (K → V) Op Ans)) (k : K) (i : ι)
    (p : Prog Op Ans α) : Prop where
  transaction : C.Transaction k p
  reads : ∀ w ∈ log, w.who = i → C.reads w.op = true
  running : ¬ p.Returned

/-- A thread that has its place, and there the result `r`: it has returned, or
it has written and comes to `r` if it finds its cell as it left it. -/
def Settled (C : Cells K V Op Ans) (log : List (Entry ι (K → V) Op Ans)) (k : K) (i : ι)
    (p : Prog Op Ans α) (r : α) : Prop :=
  p = .ret r ∨
  C.Reader k p ∧ ∃ v, (∀ s, s k = v → (p.run C.serve s).1 = r) ∧
    (∃ w ∈ log, w.who = i ∧ C.reads w.op = false) ∧
    ∀ w ∈ log, w.who = i → C.reads w.op = false → w.post k = v

variable {i : ι} {r : α}

/-- What holds of the steps of a thread holds with one more, if that is
another's or it holds of it. -/
theorem own_concat {P : Entry ι (K → V) Op Ans → Prop} (h : ∀ w ∈ log, w.who = i → P w)
    (he : e.who = i → P e) : ∀ w ∈ log ++ [e], w.who = i → P w := by
  intro w hw hwho
  rcases List.mem_append.mp hw with hw | hw
  · exact h w hw hwho
  · obtain rfl := List.mem_singleton.mp hw
    exact he hwho

/-- What others do, and what a thread reads, leaves its writes as they were. -/
theorem writes_concat (he : e.who = i → C.reads e.op = true) {P : Entry ι (K → V) Op Ans → Prop}
    (h : ∀ w ∈ log, w.who = i → C.reads w.op = false → P w) :
    ∀ w ∈ log ++ [e], w.who = i → C.reads w.op = false → P w := by
  apply own_concat h
  intro hwho hwrites
  rw [he hwho] at hwrites
  cases hwrites

theorem Settled.frame (h : C.Settled log k i p r) (he : e.who ≠ i) :
    C.Settled (log ++ [e]) k i p r := by
  rcases h with hret | ⟨hreader, v, hresult, ⟨w, hw, hwrite⟩, hleft⟩
  · exact .inl hret
  · exact .inr ⟨hreader, v, hresult, ⟨w, List.mem_append_left _ hw, hwrite⟩,
      writes_concat (fun hwho => absurd hwho he) hleft⟩

/-- A settled thread reads what it left, and so stays settled. -/
theorem Settled.read {op : Op} {next : Ans op → Prog Op Ans α}
    (h : C.Settled log k i (.call op next) r)
    (hfresh : C.Fresh log ⟨i, op, (C.serve s op).1, s, s'⟩) :
    C.reads op = true ∧
      C.Settled (log ++ [⟨i, op, (C.serve s op).1, s, s'⟩]) k i (next (C.serve s op).1) r := by
  rcases h with hret | ⟨hreader, v, hresult, ⟨w, hw, hwho, hwrites⟩, hleft⟩
  · cases hret
  cases hreader with
  | call hreads hkey hnext =>
    -- it has written, so its cell is as it was left
    have hv : s k = v := by
      rcases hfresh with ⟨w', hw', hwho', hwrites', hpre⟩ | honly
      · rw [← hleft w' hw' hwho' hwrites', ← hkey]
        exact hpre
      · rw [(honly w hw hwho).1] at hwrites
        cases hwrites
    refine ⟨hreads, .inr ⟨hnext _, v, ?_, ⟨w, List.mem_append_left _ hw, hwho, hwrites⟩,
      writes_concat (fun _ => hreads) hleft⟩⟩
    intro t ht
    have hsame : t (C.key op) = s (C.key op) := by rw [hkey, ht, hv]
    rw [← hresult t ht, Prog.run_call, C.unchanged t op hreads, C.answer t s op hreads hsame]

theorem Waiting.reads_concat (h : C.Waiting log k i p) (he : e.who = i → C.reads e.op = true) :
    ∀ w ∈ log ++ [e], w.who = i → C.reads w.op = true :=
  own_concat h.reads he

theorem Waiting.frame (h : C.Waiting log k i p) (he : e.who ≠ i) :
    C.Waiting (log ++ [e]) k i p :=
  ⟨h.transaction, h.reads_concat fun hwho => absurd hwho he, h.running⟩

/-- A waiting thread that writes is settled: what it reads of its cell from now
on is what it writes. -/
theorem Waiting.write (h : C.Waiting log k i p) {op : Op} (hwrites : C.reads op = false)
    {q : Prog Op Ans α} (hq : C.Reader k q) (a : Ans op) :
    C.Settled (log ++ [⟨i, op, a, s, s'⟩]) k i q (q.run C.serve s').1 := by
  refine .inr ⟨hq, s' k, fun t ht => hq.run_congr ht,
    ⟨_, List.mem_append_right _ (List.mem_singleton_self _), rfl, hwrites⟩, ?_⟩
  -- it is its only write
  apply own_concat
  · intro w hw hwho hwrote
    rw [h.reads w hw hwho] at hwrote
    cases hwrote
  · exact fun _ _ => rfl

/-- All that is known of a fresh run and the order of its threads. -/
structure Linearized (C : Cells K V Op Ans) (account : ι → K) (I : Finset ι)
    (c₀ : Pool ι (K → V) Op Ans α) (log : List (Entry ι (K → V) Op Ans))
    (c : Pool ι (K → V) Op Ans α) (ord : List ι) : Prop where
  nodup : ord.Nodup
  within : ∀ i ∈ ord, i ∈ I
  state : (C.serially c₀.prog ord c₀.state).2 = c.state
  waiting : ∀ i ∈ I, i ∉ ord → C.Waiting log (account i) i (c.prog i)
  settled : ∀ i r, (i, r) ∈ (C.serially c₀.prog ord c₀.state).1 →
    C.Settled log (account i) i (c.prog i) r

variable [DecidableEq ι] {account : ι → K} {I : Finset ι} {c₀ c : Pool ι (K → V) Op Ans α}
  {ord : List ι}

omit [DecidableEq ι] in
/-- In the beginning only those have a place that have nothing to do. -/
theorem linearized_nil (hprog : ∀ i ∈ I, C.Transaction (account i) (c₀.prog i)) :
    ∃ ord, Linearized C account I c₀ [] c₀ ord := by
  classical
  have hmem : ∀ i, i ∈ (I.filter fun i => (c₀.prog i).Returned).toList ↔
      i ∈ I ∧ (c₀.prog i).Returned := by
    intro i
    rw [Finset.mem_toList, Finset.mem_filter]
  obtain ⟨hstate, hresults⟩ := serially_returned (C := C) (fun i hi => ((hmem i).mp hi).2) c₀.state
  refine ⟨_, Finset.nodup_toList _, fun i hi => ((hmem i).mp hi).1, hstate, ?_, ?_⟩
  · intro i hi hout
    refine ⟨hprog i hi, fun w hw => absurd hw List.not_mem_nil, ?_⟩
    exact fun hreturned => hout ((hmem i).mpr ⟨hi, hreturned⟩)
  · exact fun i r hr => .inl (hresults i r hr)

/-- The thread that steps keeps its place, or goes on waiting. -/
theorem Linearized.keep (h : Linearized C account I c₀ log c ord) (he : e.who = i)
    {p : Prog Op Ans α} (hwaiting : i ∉ ord → C.Waiting (log ++ [e]) (account i) i p)
    (hsettled : ∀ r, (i, r) ∈ (C.serially c₀.prog ord c₀.state).1 →
      C.Settled (log ++ [e]) (account i) i p r) :
    Linearized C account I c₀ (log ++ [e]) (c.resume i c.state p) ord := by
  refine ⟨h.nodup, h.within, h.state, ?_, ?_⟩
  · intro j hj hout
    by_cases hji : j = i
    · subst hji
      rw [Pool.resume_prog_self]
      exact hwaiting hout
    · rw [Pool.resume_prog_ne _ _ _ hji]
      exact (h.waiting j hj hout).frame (fun hwho => hji (hwho.symm.trans he))
  · intro j r hr
    by_cases hji : j = i
    · subst hji
      rw [Pool.resume_prog_self]
      exact hsettled r hr
    · rw [Pool.resume_prog_ne _ _ _ hji]
      exact (h.settled j r hr).frame (fun hwho => hji (hwho.symm.trans he))

/-- The thread that steps takes the last place. -/
theorem Linearized.place (h : Linearized C account I c₀ log c ord) (hi : i ∈ I) (hout : i ∉ ord)
    (he : e.who = i) {p : Prog Op Ans α}
    (hrun : (c₀.prog i).run C.serve c.state = (r, s'))
    (hsettled : C.Settled (log ++ [e]) (account i) i p r) :
    Linearized C account I c₀ (log ++ [e]) (c.resume i s' p) (ord ++ [i]) := by
  have hconcat := serially_concat C c₀.prog ord i c₀.state
  rw [h.state, hrun] at hconcat
  have hne : ∀ j ∈ ord, j ≠ i := by
    rintro j hj rfl
    exact hout hj
  refine ⟨?_, ?_, ?_, ?_, ?_⟩
  · rw [← List.concat_eq_append]
    exact h.nodup.concat hout
  · intro j hj
    rcases List.mem_append.mp hj with hj | hj
    · exact h.within j hj
    · obtain rfl := List.mem_singleton.mp hj
      exact hi
  · rw [hconcat]
    rfl
  · intro j hj hnot
    have hji : j ≠ i := by
      rintro rfl
      exact hnot (List.mem_append_right _ (List.mem_singleton_self j))
    rw [Pool.resume_prog_ne _ _ _ hji]
    exact (h.waiting j hj fun hmem => hnot (List.mem_append_left _ hmem)).frame
      (fun hwho => hji (hwho.symm.trans he))
  · intro j r' hr
    rw [hconcat] at hr
    rcases List.mem_append.mp hr with hr | hr
    · have hji := hne j (mem_of_mem_serially hr)
      rw [Pool.resume_prog_ne _ _ _ hji]
      exact (h.settled j r' hr).frame (fun hwho => hji (hwho.symm.trans he))
    · obtain ⟨rfl, rfl⟩ := Prod.mk.inj (List.mem_singleton.mp hr)
      rw [Pool.resume_prog_self]
      exact hsettled

/-- A thread that has only read may as well start when it steps. -/
theorem Waiting.run (h : C.Waiting log k i p) {op : Op} {a : Ans op}
    (hpath : Prog.Path q (proj i log) p)
    (hfresh : C.Fresh log ⟨i, op, a, s, s'⟩) : q.run C.serve s = p.run C.serve s := by
  apply run_of_path hpath
  intro ev hev
  obtain ⟨w, hw, hwho, rfl⟩ := mem_proj.mp hev
  rcases hfresh with ⟨w', hw', hwho', hwrites, -⟩ | hsame
  · rw [h.reads w' hw' hwho'] at hwrites
    cases hwrites
  · exact hsame w hw hwho

/-- **One fresh step.** -/
theorem Linearized.step {c' : Pool ι (K → V) Op Ans α}
    (h : Linearized C account I c₀ log c ord)
    (hpath : Prog.Path (c₀.prog e.who) (proj e.who log) (c.prog e.who))
    (hstep : Pool.Step (Pool.computed C.serve) c e c') (hI : e.who ∈ I)
    (hfresh : C.Fresh log e) : ∃ ord', Linearized C account I c₀ (log ++ [e]) c' ord' := by
  cases hstep with
  | @mk i op next a s hprog hserve =>
    have hserve : C.serve c.state op = (a, s) := hserve
    obtain rfl : (C.serve c.state op).1 = a := by rw [hserve]
    obtain rfl : (C.serve c.state op).2 = s := by rw [hserve]
    by_cases hin : i ∈ ord
    · -- it has its place, and reads what it left
      obtain ⟨r₀, hr₀⟩ := exists_mem_serially C c₀.prog hin c₀.state
      have hnext := fun r hr => (hprog ▸ h.settled i r hr).read hfresh
      rw [C.unchanged _ _ (hnext r₀ hr₀).1]
      refine ⟨ord, h.keep rfl (fun hout => absurd hin hout) ?_⟩
      intro r hr
      have hsettled := (hnext r hr).2
      rw [C.unchanged _ _ (hnext r hr).1] at hsettled
      exact hsettled
    · have hwait := h.waiting i hI hin
      have hrun := hwait.run hpath hfresh
      have htrans := hwait.transaction
      rw [hprog, Prog.run_call] at hrun
      rw [hprog] at htrans
      cases htrans with
      | write hwrites hkey hnext =>
        have hlast : (c₀.prog i).run C.serve c.state = (_, (C.serve c.state op).2) :=
          hrun.trans (Prod.ext rfl ((hnext _).run_state _))
        exact ⟨ord ++ [i], h.place hI hin rfl hlast (hwait.write hwrites (hnext _) _)⟩
      | read hread hkey hnext =>
        rw [C.unchanged _ _ hread] at hrun ⊢
        cases hafter : next (C.serve c.state op).1 with
        | ret r =>
          -- its last read
          rw [hafter, Prog.run_ret] at hrun
          refine ⟨ord ++ [i], h.place hI hin ?_ hrun (.inl rfl)⟩
          rfl
        | call op' next' =>
          refine ⟨ord, h.keep rfl (fun _ => ⟨hafter ▸ hnext _, hwait.reads_concat fun _ => hread,
            id⟩) ?_⟩
          exact fun r hr => absurd (mem_of_mem_serially hr) hin

/-- **A fresh run has an order.** -/
theorem linearized (hprog : ∀ i ∈ I, C.Transaction (account i) (c₀.prog i))
    (h : Pool.Run (Pool.computed C.serve) c₀ log c) (hI : Pool.ids log ⊆ I)
    (hfresh : C.FreshFrom [] log) : ∃ ord, Linearized C account I c₀ log c ord := by
  induction h with
  | refl => exact linearized_nil hprog
  | @tail log c c' e hrun hstep ih =>
    obtain ⟨hbefore, he⟩ := freshFrom_concat.mp hfresh
    have hlog : Pool.ids log ⊆ I := by
      intro i hi
      obtain ⟨w, hw, hwho⟩ := Pool.mem_ids.mp hi
      exact hI (Pool.mem_ids.mpr ⟨w, List.mem_append_left _ hw, hwho⟩)
    obtain ⟨ord, hord⟩ := ih hlog hbefore
    exact hord.step (hrun.path e.who) hstep (hI (Pool.mem_ids.mpr ⟨e, by simp, rfl⟩)) he

/-- **What a fresh run has come to, its transactions come to one after
another.** -/
theorem FreshFrom.serial (hfresh : C.FreshFrom [] log)
    (hprog : ∀ i ∈ I, C.Transaction (account i) (c₀.prog i))
    (h : Pool.Run (Pool.computed C.serve) c₀ log c) (hI : Pool.ids log ⊆ I) :
    ∃ ord : List ι, ord.Nodup ∧ (∀ i ∈ ord, i ∈ I) ∧
      (C.serially c₀.prog ord c₀.state).2 = c.state ∧
      ∀ i ∈ I, ∀ r, c.prog i = .ret r → (i, r) ∈ (C.serially c₀.prog ord c₀.state).1 := by
  obtain ⟨ord, hord⟩ := linearized hprog h hI hfresh
  refine ⟨ord, hord.nodup, hord.within, hord.state, ?_⟩
  intro i hi r hret
  -- a thread that has returned does not wait
  have hin : i ∈ ord := by
    by_contra hout
    exact (hord.waiting i hi hout).running (hret ▸ trivial)
  obtain ⟨r', hr'⟩ := exists_mem_serially C c₀.prog hin c₀.state
  rcases hord.settled i r' hr' with hsame | ⟨-, v, hresult, -, -⟩
  · rw [hret] at hsame
    obtain rfl := Prog.ret.inj hsame
    exact hr'
  · have hsame := hresult (fun _ => v) rfl
    rw [hret] at hsame
    obtain rfl : r = r' := hsame
    exact hr'

end Cells

end ResilientMesh
