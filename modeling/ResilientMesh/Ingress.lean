/-
ResilientMesh/Ingress.lean

The ingress gateway in front of the mesh, with the `retries` of retry.yaml.  An
attempt of a request to `/calculate2` ends in a gateway error in two ways: the
control-center answers it with 502, 503 or 504, which it does only if the
calculation service did; or the gateway ends it itself, when `perTryTimeout`
has passed or the connection has failed.  Then the gateway sends the request
again, and the attempt goes on in the control-center all the same.  When 5
seconds have passed is left open: the gateway may end an attempt at any step.

Main result, for every interleaving: a client request is debited at most once,
and once more for every attempt that ended in a gateway error and was sent
again, so at most 21 times (`ingress_debits`).
-/
import ResilientMesh.Mesh
import ResilientMesh.Resending

namespace ResilientMesh

open Resending

/-! ### The gateway -/

/-- One attempt of a client's request. -/
def Client.attempt : Client → Client
  | ingress body => calculate2 body
  | client => client

/-- `attempts`: only what enters through the gateway is sent again. -/
def Client.retries : Client → ℕ
  | ingress _ => retryAttempts
  | _ => 0

variable {ι : Type*} [DecidableEq ι]

/-- The `retries` of the virtual service `control`.  For a last attempt that it
has ended itself, the gateway answers with a gateway error. -/
def ingressPolicy (clients : ι → Client) : ResendPolicy ι Response where
  again response := gatewayError response.status
  limit i := (clients i).retries
  givenUp response := gatewayError response.status

/-- The gateway before anything has happened. -/
def ingressStart (users : Users) (clients : ι → Client) :
    Resending ι Users Upstream Upstream.Ans Response :=
  start (meshStart users fun t => (clients t.1).attempt)

abbrev IngressEvent (ι : Type*) := ResendEvent ι Users Upstream Upstream.Ans Response

/-! ### Debits -/

/-- The entry took money from the account of `user`. -/
def Entry.debits {κ : Type*} (user : UserKey) (e : MeshEntry κ) : Bool :=
  match e.pre user, e.post user with
  | some balance, some balance' => balance' < balance
  | _, _ => false

/-- How often the attempts of request `i` have debited `user`. -/
def debits (user : UserKey) (i : ι) (log : List (IngressEvent ι)) : ℕ :=
  (served log).countP fun e => e.who.1 = i && e.debits user

theorem debits_of_reads {κ : Type*} {user : UserKey} {e : MeshEntry κ}
    (h : e.post = e.pre) : e.debits user = false := by
  rw [Entry.debits, h]
  cases e.pre user with
  | none => rfl
  | some balance => simp

variable {clients : ι → Client} {users : Users} {log : List (IngressEvent ι)}
  {s : Resending ι Users Upstream Upstream.Ans Response}

/-- What one attempt has done. -/
theorem attempt_progress
    (h : Run meshServe (ingressPolicy clients) (ingressStart users clients) log s) {i : ι}
    {body : JsonBody} (hi : clients i = .ingress body) (k : ℕ) :
    ∃ q, Progress id (proj (i, k) (served log)) q ∧
      ∀ response, s.pool.prog (i, k) = .ret response → ∃ r, q = .ret r ∧ response = answer r := by
  have hpath : (clients i).attempt.prog.Path (proj (i, k) (served log)) (s.pool.prog (i, k)) :=
    h.pool.path (i, k)
  rw [hi] at hpath
  obtain ⟨q, hhandler, hret⟩ := answered_path hpath
  exact ⟨q, calculateWith_path hhandler, hret⟩

/-- What an attempt debits it debits by its charge: its other calls only read. -/
theorem debits_le_charges
    (h : Run meshServe (ingressPolicy clients) (ingressStart users clients) log s) {i : ι}
    {body : JsonBody} (hi : clients i = .ingress body) (user : UserKey) :
    debits user i log ≤ (served log).countP fun e => e.who.1 = i && isCharge e.event := by
  refine List.countP_mono_left ?_
  intro e he hdebit
  simp only [Bool.and_eq_true, decide_eq_true_eq] at hdebit ⊢
  obtain ⟨hwho, hdebit⟩ := hdebit
  obtain ⟨q, hprogress, -⟩ := attempt_progress h hi e.who.2
  have hmem : e.event ∈ proj (i, e.who.2) (served log) := mem_proj.mpr ⟨e, he, by rw [← hwho], rfl⟩
  rcases hprogress.reads _ hmem with hcharge | hreads
  · exact ⟨hwho, hcharge⟩
  · rw [debits_of_reads (meshServe_reads (h.pool.serves e he) hreads)] at hdebit
    cases hdebit

/-- **A client request is debited at most once, and once more for every
attempt that ended in a gateway error and was sent again**, and never more than
21 times.  An attempt that was sent again after an answer of its own had its
calculation answered with a gateway error; the others the gateway has ended. -/
theorem ingress_debits
    (h : Run meshServe (ingressPolicy clients) (ingressStart users clients) log s) {i : ι}
    {body : JsonBody} (hi : clients i = .ingress body) (user : UserKey) :
    debits user i log ≤ resent i log + 1 ∧ debits user i log ≤ 21 ∧
      ∀ attempt response, .resent i attempt (some response) ∈ log →
        gatewayError response.status ∧
          1 ≤ (proj (i, attempt) (served log)).countP (calculationAnswered gatewayError) := by
  have hcharges : debits user i log ≤ resent i log + 1 := by
    refine (debits_le_charges h hi user).trans (h.countP_le i isCharge ?_)
    intro k
    obtain ⟨q, hprogress, -⟩ := attempt_progress h hi k
    exact hprogress.charge_le
  have hlimit : resent i log ≤ 20 := by
    have hle : resent i log ≤ (clients i).retries := h.resent_le i
    rw [hi] at hle
    exact hle
  refine ⟨hcharges, hcharges.trans (Nat.succ_le_succ hlimit), ?_⟩
  intro attempt response hmem
  obtain ⟨hagain, hpath⟩ := h.again hmem
  refine ⟨hagain, ?_⟩
  replace hpath : (clients i).attempt.prog.Path _ _ := hpath
  rw [hi] at hpath
  obtain ⟨q, hhandler, hret⟩ := answered_path hpath
  obtain ⟨r, rfl, rfl⟩ := hret response rfl
  exact (calculateWith_path hhandler).gatewayError_pos hagain

/-! ### Runs -/

/-- A request with a price of 15. -/
def sampleIngress (_ : Unit) : Client := .ingress (sampleBody "ruslan" "prime" "15" "7")

/-- The calculation of the first attempt is answered 502, and the client
request has paid twice. -/
theorem ingress_debits_twice :
    ¬ ∀ (clients : Unit → Client) (users : Users) (log : List (IngressEvent Unit))
      (s : Resending Unit Users Upstream Upstream.Ans Response) (body : JsonBody),
      Run meshServe (ingressPolicy clients) (ingressStart users clients) log s →
        clients () = .ingress body → debits (some "ruslan") () log ≤ 1 := by
  intro h
  have hserve := meshServe_alone (failsAt "ruslan" 135)
  -- the first attempt to its end, and then the second
  obtain ⟨c₁, hrun₁, hstate₁, hret₁, hprog₁⟩ := Pool.exists_run_alone _ hserve ((), 0) _
    (ingressStart (sampleUsers "ruslan" 150) sampleIngress).pool rfl
  obtain ⟨c₂, hrun₂, -⟩ := Pool.exists_run_alone _ hserve ((), 1) _ c₁ (hprog₁ _ (by decide))
  rw [hstate₁] at hrun₂
  have hfirst : Run meshServe (ingressPolicy sampleIngress) _ _ _ := run_of_pool hrun₁ (by
    intro e he
    rw [Pool.who_of_mem_entries he]
    exact Nat.zero_le _)
  have hagain := hfirst.tail (.again rfl (by decide) hret₁ (by decide +kernel))
  have hboth := hagain.trans (run_of_pool hrun₂ (by
    intro e he
    rw [Pool.who_of_mem_entries he]
    exact le_refl 1))
  have htwice := h _ _ _ _ _ hboth rfl
  revert htwice
  decide +kernel

/-- The gateway ends the first attempt after its charge; both attempts go on to
the end, with no gateway error from the calculation service, and there are
exactly two debits. -/
theorem ingress_debits_timeout :
    ∃ (log : List (IngressEvent Unit)) (s : Resending Unit Users Upstream Upstream.Ans Response),
      Run meshServe (ingressPolicy sampleIngress)
        (ingressStart (sampleUsers "ruslan" 150) sampleIngress) log s ∧
      debits (some "ruslan") () log = 2 ∧
      ((served log).countP fun e => calculationAnswered gatewayError e.event) = 0 ∧
      (debits (some "ruslan") () log ≤ resent () log + 1 ∧ debits (some "ruslan") () log ≤ 21 ∧
        ∀ attempt response, .resent () attempt (some response) ∈ log →
          gatewayError response.status ∧
            1 ≤ (proj ((), attempt) (served log)).countP (calculationAnswered gatewayError)) := by
  have hserve := meshServe_alone (failsAt "ruslan" 0)
  have hfirst : Run meshServe (ingressPolicy sampleIngress)
      (ingressStart (sampleUsers "ruslan" 150) sampleIngress) _ _ :=
    run_play hserve [((), 0), ((), 0), ((), 0)] (by decide)
  have hended := hfirst.tail (.giveUp (i := ()) rfl (by decide))
  have hboth := hended.trans
    (run_play hserve [((), 1), ((), 1), ((), 0), ((), 1), ((), 1)] (by decide +kernel))
  exact ⟨_, _, hboth, by decide +kernel, by decide +kernel, ingress_debits hboth rfl _⟩

end ResilientMesh
