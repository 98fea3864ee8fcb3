/-
ResilientMesh/ControlCopies.lean

The two copies of `calculate2` side by side.  The copy of docker/services
passes the status of the calculation service on, the copy of microservices
answers 200 whatever that status was; in everything else they are one program.

Main results: the copies make the same calls in the same order
(`calculate2_lockstep`), and they are observed to be the same exactly as
long as the calculation service has not answered with another status than 200
(`copies_agree_iff`).
-/
import ResilientMesh.ControlCenter

namespace ResilientMesh

/-- `calculate2` of microservices/control-center: every answer of the
calculation service is passed on as a 200. -/
def Microservices.calculate2 (body : JsonBody) : ControlHandler := calculateWith (fun _ => 200) body

/-! ### One program but for the status -/

/-- The calculation service has not answered yet. -/
def NotCalculated (tr : List UpstreamEvent) : Prop :=
  ∀ response, ⟨.awaitCalculation, .ok response⟩ ∉ tr

/-- The calculation service has answered, if at all, with a 200. -/
def CalculatedOk (tr : List UpstreamEvent) : Prop :=
  ∀ response, ⟨.awaitCalculation, .ok response⟩ ∈ tr → response.status = 200

/-- The two results are the same exactly if the calculation service has
answered with a 200, or not at all; and where it has answered, the first is its
status and the second a 200. -/
structure Copied (tr : List UpstreamEvent) (r r' : Except PyError Response) : Prop where
  same : answer r = answer r' ↔ CalculatedOk tr
  status : ∀ response, ⟨.awaitCalculation, .ok response⟩ ∈ tr →
    (answer r).status = response.status ∧ (answer r').status = 200

variable {tr : List UpstreamEvent}

theorem Copied.refl (h : NotCalculated tr)
    (r : Except PyError Response) : Copied tr r r := by
  constructor
  · exact ⟨fun _ response hmem => absurd hmem (h response), fun _ => rfl⟩
  · intro response hmem
    exact absurd hmem (h response)

/-- A call that is not answered by the calculation service. -/
theorem NotCalculated.append (h : NotCalculated tr) {e : UpstreamEvent}
    (he : ∀ response, e ≠ ⟨.awaitCalculation, .ok response⟩) : NotCalculated (tr ++ [e]) := by
  intro response hmem
  rcases List.mem_append.mp hmem with hmem | hmem
  · exact h response hmem
  · exact he response (List.mem_singleton.mp hmem).symm

theorem notCalculated_nil : NotCalculated [] := fun _ => List.not_mem_nil

theorem postAndRelay_lockstep (h : NotCalculated tr) (url : String)
    (data : Option (List (String × String))) :
    Prog.Lockstep NotCalculated Copied tr (postAndRelay id url data)
      (postAndRelay (fun _ => 200) url data) := by
  apply Prog.Lockstep.call h
  intro _
  have hposted : NotCalculated (tr ++ [⟨.postCalculation url data, ()⟩]) :=
    h.append fun response heq => by cases heq
  apply Prog.Lockstep.call hposted
  intro calculated
  cases calculated with
  | error e =>
    apply Prog.Lockstep.ret
    apply Copied.refl
    exact hposted.append fun response heq => by cases heq
  | ok response =>
    -- the one place where the copies differ
    apply Prog.Lockstep.ret
    have hmem : ∀ response', ⟨.awaitCalculation, .ok response'⟩ ∈
        tr ++ [(⟨.postCalculation url data, ()⟩ : UpstreamEvent)]
          ++ [⟨.awaitCalculation, .ok response⟩] ↔ response' = response := by
      intro response'
      have hnot := hposted response'
      simp_all
    constructor
    · show (⟨response.status, response.body⟩ : Response) = ⟨200, response.body⟩ ↔ CalculatedOk _
      simp only [CalculatedOk, hmem, forall_eq, Response.mk.injEq, and_true]
    · intro response' hin
      rw [(hmem response').mp hin]
      exact ⟨rfl, rfl⟩

theorem dispatch_lockstep (h : NotCalculated tr) (calculationType : JsonValue)
    (firstNumber secondNumber : String) :
    Prog.Lockstep NotCalculated Copied tr (dispatch id calculationType firstNumber secondNumber)
      (dispatch (fun _ => 200) calculationType firstNumber secondNumber) := by
  unfold dispatch
  cases calculationType with
  | str calculationType =>
    dsimp only
    split_ifs
    · exact postAndRelay_lockstep h _ _
    · exact postAndRelay_lockstep h _ _
    · exact .ret (.refl h _)
  | _ => exact .ret (.refl h _)

/-- The lookup and the charge are the same in both. -/
theorem checkAndCharge_lockstep (user : String) (price : JsonValue)
    {after after' : ControlHandler}
    (hafter : ∀ tr, NotCalculated tr → Prog.Lockstep NotCalculated Copied tr after after') :
    Prog.Lockstep NotCalculated Copied [] (checkAndCharge user price after)
      (checkAndCharge user price after') := by
  apply Prog.Lockstep.call notCalculated_nil
  intro accountInfo
  have hlooked : NotCalculated
      ([] ++ [⟨.billing .get .getAccountInfo (accountQuery user), accountInfo⟩]) :=
    notCalculated_nil.append fun response heq => by cases heq
  cases accountInfo with
  | error e => exact .ret (.refl hlooked _)
  | ok accountInfo =>
    dsimp only [Prog.bind_ret]
    split_ifs
    · exact .ret (.refl hlooked _)
    · split
      · exact .ret (.refl hlooked _)
      · apply Prog.Lockstep.call hlooked
        intro chargeResponse
        have hcharged := hlooked.append (e := ⟨.billing .post .chargeAccount
          (chargeQuery user price), chargeResponse⟩) fun response heq => by cases heq
        cases chargeResponse with
        | error e => exact .ret (.refl hcharged _)
        | ok chargeResponse =>
          dsimp only [Prog.bind_ret]
          split_ifs
          · exact .ret (.refl hcharged _)
          · exact hafter _ hcharged

/-- **The copies make the same calls in the same order**, and their responses
differ only by what the calculation service has answered. -/
theorem calculate2_lockstep (body : JsonBody) :
    Prog.Lockstep NotCalculated Copied [] (calculate2 body) (Microservices.calculate2 body) := by
  unfold calculate2 Microservices.calculate2 calculateWith
  have hrefl : ∀ r, Prog.Lockstep NotCalculated Copied [] (.ret r : ControlHandler) (.ret r) :=
    fun r => .ret (.refl notCalculated_nil r)
  cases body with
  | malformed => exact hrefl _
  | other => exact hrefl _
  | object json =>
    dsimp only
    cases readFields json with
    | error e => exact hrefl _
    | ok f =>
      show Prog.Lockstep NotCalculated Copied [] (calculateFields id f)
        (calculateFields (fun _ => 200) f)
      unfold calculateFields
      split
      · exact hrefl _
      · exact hrefl _
      · split
        · apply checkAndCharge_lockstep
          intro tr htr
          exact dispatch_lockstep htr _ _ _
        · exact hrefl _

/-! ### What is observed -/

/-- What the two do next is the same: the same call, or the same response. -/
def SameNext : ControlHandler → ControlHandler → Prop
  | .ret r, .ret r' => answer r = answer r'
  | .call op _, .call op' _ => op = op'
  | _, _ => False

/-- Given the answers of `tr`, both copies have made these calls and do next
the same, and neither has turned an answer of the calculation service that is
not a 200 into a 200. -/
def CopiesAgree (body : JsonBody) (tr : List UpstreamEvent) : Prop :=
  ∃ q q', (calculate2 body).Path tr q ∧ (Microservices.calculate2 body).Path tr q' ∧
    SameNext q q' ∧
    ∀ response, ⟨.awaitCalculation, .ok response⟩ ∈ tr → response.status ≠ 200 →
      ∀ r r', q = .ret r → q' = .ret r' → (answer r).status ≠ 200 ∧ (answer r').status ≠ 200

/-- **The copies agree exactly as long as the calculation service, if it was
asked, has answered with a 200 or not at all.** -/
theorem copies_agree_iff {body : JsonBody} {q : ControlHandler}
    (h : (calculate2 body).Path tr q) : CopiesAgree body tr ↔ CalculatedOk tr := by
  obtain ⟨q', hpath, hlock⟩ := (calculate2_lockstep body).path h
  rw [List.nil_append] at hlock
  constructor
  · rintro ⟨q₁, q₂, h₁, h₂, hsame, -⟩
    obtain rfl := h.unique h₁
    obtain rfl := hpath.unique h₂
    cases hlock with
    | ret hcopied => exact hcopied.same.mp hsame
    | call hnone _ => exact fun response hmem => absurd hmem (hnone response)
  · intro hok
    refine ⟨q, q', h, hpath, ?_, ?_⟩
    · cases hlock with
      | ret hcopied => exact hcopied.same.mpr hok
      | call _ _ => rfl
    · intro response hmem hne
      exact absurd (hok response hmem) hne

/-- The calls of one execution alone, with a calculation that is answered with
this status. -/
def sampleCalls (status : ℕ) : List UpstreamEvent :=
  (calculate2 (sampleBody "ruslan" "prime" "15" "7")).calls
    (serveAlone fun _ => .ok ⟨status, .text ""⟩) (sampleUsers "ruslan" 150)

theorem copies_agree_iff_sample :
    CopiesAgree (sampleBody "ruslan" "prime" "15" "7") (sampleCalls 200) ↔
      CalculatedOk (sampleCalls 200) :=
  copies_agree_iff (Prog.run_path (serveAlone fun _ => .ok ⟨200, .text ""⟩) _
    (sampleUsers "ruslan" 150))

/-- A calculation that fails is a failure to one client and a 200 to the other. -/
theorem copies_disagree :
    ¬ ∀ (body : JsonBody) (tr : List UpstreamEvent) (q : ControlHandler),
      (calculate2 body).Path tr q → CopiesAgree body tr := by
  intro h
  have hrun := Prog.run_path (serveAlone fun _ => .ok ⟨502, .text ""⟩)
    (calculate2 (sampleBody "ruslan" "prime" "15" "7")) (sampleUsers "ruslan" 150)
  obtain ⟨q, q', hq, hq', hsame, -⟩ := h _ _ _ hrun
  obtain rfl := hrun.unique hq
  obtain ⟨q'', hpath, hlock⟩ := (calculate2_lockstep _).path hrun
  obtain rfl := hpath.unique hq'
  have hfailed : ((sampleCalls 502).any
      (calculationAnswered fun status => status == 502)) = true := by
    decide +kernel
  obtain ⟨e, he, hans⟩ := List.any_eq_true.mp hfailed
  unfold calculationAnswered at hans
  split at hans
  · rename_i response
    cases hlock with
    | ret hcopied =>
      have hok := hcopied.same.mp hsame response he
      rw [hok] at hans
      cases hans
  · cases hans

end ResilientMesh
