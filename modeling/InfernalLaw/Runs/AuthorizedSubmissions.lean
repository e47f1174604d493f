import InfernalLaw.Http.RequestRoutes
import InfernalLaw.Infrastructure.Background
import InfernalLaw.Postgres.Receipts
import InfernalLaw.Postgres.Writes
import InfernalLaw.Runs.HandlerWrites
import InfernalLaw.Runs.Retries

/-!
# Authorized submissions

Any number of submissions, run concurrently with each other and with anything that leaves the
accepted requests and the routes alone, such as changes of grants. A decision that allows a request
is committed before the request is, and a submission that is not allowed changes neither requests
nor routes.
-/

namespace InfernalLaw.Submissions

open Postgres (Contract DbError Entry Event Proc Receipt State Store)

/-! ## The operations -/

/-- The tables of the submissions. -/
def tables : List TableName := [.acceptedRequests, .requestRoutes]

/-- A call of `submit_request`, with the evaluator that it asks. -/
structure SubmitCall where
  evaluator : PolicyEvaluator
  draws : SubmissionDraws
  request : ParsedRequest
  serviceId : ActorId
  envelopeRequestId : RequestId

/-- What a submission comes to: what its authorization answers, if it comes to one, and the
response. -/
structure Outcome where
  authorized : Option (Except AuthorityError AuthorityDecision)
  response : Response

/-- What runs. -/
inductive Op where
  | submit (call : SubmitCall)
  /-- Another component's transaction. -/
  | other (writes : List Write) (h : ∀ w ∈ writes, w.table ∉ tables)

section

variable (crates : HttpCrates)

namespace SubmitCall

/-- What `submit_request` checks before it asks for an authorization. -/
def check (call : SubmitCall) : Except Response Request :=
  if call.request.isJson = false then
    .error (errorResponse crates "415 Unsupported Media Type" .invalidRequest)
  else
    match crates.submitRequestRequest call.request.body with
    | none => .error (errorResponse crates "400 Bad Request" .invalidRequest)
    | some dto =>
      (dto.intoRequest crates.toCrates call.serviceId call.envelopeRequestId).mapError fun _ =>
        errorResponse crates "400 Bad Request" .invalidRequest

/-- What the authorization is about. -/
def facts (call : SubmitCall) (submitted : Request) : PolicyFacts :=
  .forRequestAcceptance call.serviceId submitted.action submitted.scope submitted.schemaVersions

/-- What `submit_request` does with the answer of the authorization. -/
def proceed (call : SubmitCall) (submitted : Request) :
    Except AuthorityError AuthorityDecision → Sql Response
  | .error _ => .done (errorResponse crates "503 Service Unavailable" .internalError)
  | .ok decision =>
    if decision.isAllowed then acceptSubmission crates call.draws submitted
    else .done (errorResponse crates "403 Forbidden" .requestNotAuthorized)

/-- `submit_request`, with the answer of the authorization. -/
def submit (call : SubmitCall) : Sql Outcome :=
  match call.check crates with
  | .error response => .done ⟨none, response⟩
  | .ok submitted =>
    (AuthorityService.authorize call.evaluator call.draws.decisionId (call.facts submitted)
      call.draws.now).bind fun authorized =>
        (call.proceed crates submitted authorized).bind fun response =>
          .done ⟨some authorized, response⟩

/-- The response is that of `submit_request`. -/
theorem submit_response (call : SubmitCall) :
    ((call.submit crates).bind fun outcome => .done outcome.response) =
      submitRequest crates call.evaluator call.draws call.request call.serviceId
        call.envelopeRequestId := by
  unfold submit submitRequest check
  by_cases hjson : call.request.isJson = false
  · rw [if_pos hjson, if_pos hjson]
    rfl
  rw [if_neg hjson, if_neg hjson]
  cases crates.submitRequestRequest call.request.body with
  | none => rfl
  | some dto =>
    dsimp only
    cases dto.intoRequest crates.toCrates call.serviceId call.envelopeRequestId with
    | error e => rfl
    | ok submitted =>
      refine (Proc.bind_assoc _ _ _).trans (congrArg (Proc.bind _) (funext fun authorized => ?_))
      rw [Proc.bind_assoc]
      refine (Proc.bind_done _).trans ?_
      cases authorized <;> rfl

end SubmitCall

/-- What the operations do. -/
def program : Op → Sql (Option Outcome)
  | .submit call => (call.submit crates).bind fun outcome => .done (some outcome)
  | .other writes _ => (background writes).bind fun _ => .done none

/-- The sessions of the kernels that share the database. -/
abbrev system : Postgres.System Db Write Key Op (Option Outcome) := kernelSystem (program crates)

end

/-! ## Recorded decisions -/

/-- The decision allows the request of the row. -/
structure Authorizes (decision : DecisionRow) (row : AcceptedRequestRow) : Prop where
  verdict : decision.verdict = .allow
  source : decision.sourceServiceId = row.sourceServiceId
  action : decision.action = row.action
  scope : decision.scope = row.scope
  artifact : decision.artifactSchemaVersionId = row.artifactSchemaVersionId
  permissionPolicy : decision.permissionPolicySchemaVersionId = row.permissionPolicySchemaVersionId
  destination : decision.destinationServiceId = none

/-- A decision that allows the request of the row is recorded. -/
def Recorded (d : Db) (row : AcceptedRequestRow) : Prop :=
  ∃ decision ∈ d.decisions, Authorizes decision row

/-- Decisions only ever come in addition. -/
theorem appendOnly_decisions : store.AppendOnly Db.decisions Write.decisions where
  apply_write _ _ := rfl
  apply_other _ w h := by cases w <;> first | rfl | exact absurd rfl (h _)

/-- A recorded decision stays. -/
theorem Recorded.view {d : Db} {row : AcceptedRequestRow} (h : Recorded d row) (ws : List Write) :
    Recorded (store.view d ws) row := by
  obtain ⟨decision, hmem, hauthorizes⟩ := h
  have hstable : store.Stable [] fun d => decision ∈ d.decisions :=
    appendOnly_decisions.stable_mem decision
  exact ⟨decision, hstable.view ws d (fun _ _ _ _ => List.not_mem_nil) hmem, hauthorizes⟩

/-! ## The contract -/

section Sound

variable {crates : HttpCrates}

/-- An accepted request is committed where a decision that allows it is recorded. -/
def contract (crates : HttpCrates) : Contract (system crates) where
  inv d _ := ∀ row ∈ d.acceptedRequests, Recorded d row
  guar _ d ws _ := ∀ row, .acceptedRequests row ∈ ws → Recorded d row

/-! ## What a submission writes -/

section Writes

open Postgres.Proc.Writes

/-- The write stores the request, if it stores one. -/
def Stores (submitted : Request) (w : Write) : Prop :=
  ∀ row, w = .acceptedRequests row → ∃ fingerprint now, row = submitted.row fingerprint now

variable {submitted : Request}

/-- A write to another table stores no request. -/
theorem stores_other {w : Write} (h : w.table ≠ .acceptedRequests) : Stores submitted w := by
  rintro row rfl
  exact absurd rfl h

/-- A submission that is allowed stores its request and no other. -/
theorem writes_acceptSubmission {draws : SubmissionDraws} :
    (acceptSubmission crates draws submitted).Writes (fun _ => True) (Stores submitted) := by
  refine Lawful.writes (Handlers.lawful_acceptSubmission (fun fingerprint now row hrow => ?_) ?_ ?_)
  · exact ⟨fingerprint, now, (Write.acceptedRequests.inj hrow).symm⟩
  · exact fun _ _ => stores_other (by simp [Write.table])
  · exact fun _ _ _ => stores_other (by simp [Write.table])

end Writes

/-- The request of a submission is one of the service that sends it. -/
theorem SubmitCall.source_of_check {call : SubmitCall} {submitted : Request}
    (h : call.check crates = .ok submitted) : submitted.sourceService = call.serviceId := by
  unfold SubmitCall.check at h
  split at h
  · cases h
  split at h
  · cases h
  exact (Prod.ext_iff.mp (Handlers.key_of_intoRequest (Postgres.mapError_eq_ok.mp h))).1

/-- A decision that allows the facts of a submission allows its request. -/
theorem SubmitCall.authorizes {call : SubmitCall} {submitted : Request}
    (h : call.check crates = .ok submitted) {decision : AuthorityDecision}
    (hfacts : decision.facts = call.facts submitted) (hallowed : decision.isAllowed = true)
    (fingerprint : RequestFingerprint) (now : ℤ) :
    Authorizes decision.row (submitted.row fingerprint now) where
  verdict := of_decide_eq_true hallowed
  source := by
    rw [AuthorityDecision.row, hfacts, Request.row, source_of_check h]
    rfl
  action := by rw [AuthorityDecision.row, hfacts]; rfl
  scope := by rw [AuthorityDecision.row, hfacts]; rfl
  artifact := by rw [AuthorityDecision.row, hfacts]; rfl
  permissionPolicy := by rw [AuthorityDecision.row, hfacts]; rfl
  destination := by rw [AuthorityDecision.row, hfacts]; rfl

/-- Every operation keeps to the contract. -/
theorem contract_sound : (contract crates).Sound where
  stutter op d row h := absurd h List.not_mem_nil
  preserves id op d log ws r hinv hguar row hrow := by
    rcases appendOnly_acceptedRequests.mem_view hrow with hrow | hrow
    · exact (hinv row hrow).view ws
    · exact (hguar row hrow).view ws
  program op e _ := by
    have hquiet : ∀ op d r, (contract crates).guar op d [] r :=
      fun _ _ _ _ h => absurd h List.not_mem_nil
    cases op with
    | submit call =>
      refine Contract.wp_bind.mpr ?_
      unfold SubmitCall.submit
      cases hcheck : call.check crates with
      | error response => exact hquiet _ _ _
      | ok submitted =>
        refine Contract.wp_bind.mpr (AuthorityService.wp_authorize (fun d => hquiet _ d none)
          (fun d er _ => hquiet _ d _) fun d decision _ hfacts => ?_)
        -- The decision is committed before the request, by a transaction that stores no request.
        have hdecision : (contract crates).guar (.submit call) d
            [.decisions decision.row] none := by
          intro row hrow
          cases List.mem_singleton.mp hrow
        by_cases hallowed : decision.isAllowed = true
        · have hproceed : call.proceed crates submitted (.ok decision) =
              acceptSubmission crates call.draws submitted := if_pos hallowed
          rw [hproceed]
          refine Contract.wp_bind.mpr (Contract.wp_of_writes_stable
            (appendOnly_decisions.stable_mem decision.row) ?_ (fun _ _ _ _ _ h => h)
            writes_acceptSubmission hdecision ?_ (fun _ h => absurd h List.not_mem_nil))
          · intro d' ws hmem hws row hrow
            obtain ⟨fingerprint, now, rfl⟩ := hws _ hrow row rfl
            exact ⟨decision.row, hmem, call.authorizes hcheck hfacts hallowed fingerprint now⟩
          · exact List.mem_append_right _ (List.mem_singleton_self _)
        · have hproceed : call.proceed crates submitted (.ok decision) =
              .done (errorResponse crates "403 Forbidden" .requestNotAuthorized) := if_neg hallowed
          rw [hproceed]
          exact hdecision
    | other writes hwrites =>
      refine Contract.wp_bind.mpr (wp_background (fun d => hquiet _ d none)
        (fun d _ => hquiet _ d _) fun d _ row hrow => ?_)
      exact absurd (by simp [tables, Write.table]) (hwrites _ hrow)

end Sound

/-! ## Submissions that are not allowed -/

/-- The authorization allows the submission. -/
def Outcome.Allowed (outcome : Outcome) : Prop :=
  ∃ decision, outcome.authorized = some (.ok decision) ∧ decision.isAllowed = true

section Receipts

variable {evaluator : PolicyEvaluator} {decisionId : DecisionId} {facts : PolicyFacts} {now : ℤ}

/-- An authorization commits a decision at most. -/
theorem pays_authorize {P : Write → Prop} (hP : ∀ row, ¬ P (.decisions row))
    {before : Except AuthorityError AuthorityDecision → List Write → Prop}
    (hbefore : ∀ answer, before answer []) :
    (AuthorityService.authorize evaluator decisionId facts now).Pays P before
      (fun _ => False) [] := by
  refine .run_bind
    (.run_bind (.orFail (.autocommit (fun e => hbefore _) ⟨trivial, fun snap cur => ?_⟩)))
  dsimp only [Proc.Pays]
  split
  · rename_i rows _
    refine ⟨fun ⟨w, hw, _⟩ => absurd hw List.not_mem_nil, fun _ => ?_⟩
    change (Proc.done (rows.mapM grantFromRow)).Pays P _ _ []
    cases rows.mapM grantFromRow with
    | error er => exact hbefore _
    | ok grants =>
      refine .run_bind
        (.orFail (.autocommit (fun e => hbefore _) (.insert (fun _ _ => trivial) ?_)))
      refine ⟨fun ⟨w, hw, hPw⟩ => ?_, fun _ => hbefore _⟩
      rw [List.nil_append, List.mem_singleton] at hw
      exact absurd (hw ▸ hPw) (hP _)
  · trivial

/-- To change requests or routes a submission must be allowed. -/
def allowance (crates : HttpCrates) : Receipt (system crates) where
  pays w := w.table ∈ tables
  before _ _ := True
  after op a := ∀ call, op = .submit call → ∃ outcome, a = some outcome ∧ outcome.Allowed
  program op := by
    cases op with
    | submit call =>
      refine .bind ?_
      unfold SubmitCall.submit
      cases call.check crates with
      | error response => exact trivial
      | ok submitted =>
        refine .bind ((pays_authorize (by simp [tables, Write.table]) fun authorized => ?_).mono
          (fun _ _ h => h) fun _ h => h.elim)
        cases authorized with
        | error er => exact trivial
        | ok decision =>
          by_cases hallowed : decision.isAllowed = true
          · have hproceed : call.proceed crates submitted (.ok decision) =
                acceptSubmission crates call.draws submitted := if_pos hallowed
            rw [hproceed]
            refine .of_ends (fun _ _ _ => trivial) (.bind ((Proc.Ends.trivially _).mono ?_))
            exact fun response _ _ _ => ⟨_, rfl, decision, rfl, hallowed⟩
          · have hproceed : call.proceed crates submitted (.ok decision) =
                .done (errorResponse crates "403 Forbidden" .requestNotAuthorized) := if_neg
                hallowed
            rw [hproceed]
            exact trivial
    | other writes hwrites =>
      refine .of_ends (fun _ _ _ => trivial) ((Proc.Ends.trivially _).mono fun _ _ call h => ?_)
      cases h

end Receipts

/-! ## What holds in every run -/

/-- Every stored request has a recorded decision that allows it, which was there before the event
that has committed the request. No event of a submission that is denied, or whose authorization
fails, changes the requests or the routes. -/
theorem acceptance_authorized (crates : HttpCrates) {d₀ : Db} (hrequests : d₀.acceptedRequests = [])
    {s : State Db Write Key Op (Option Outcome)} (hs : (system crates).Reaches d₀ s) :
    (∀ row ∈ s.db.acceptedRequests, Recorded s.db row) ∧
    ∀ ev s', (system crates).step s ev = some s' →
      (∀ row ∈ s'.db.acceptedRequests, row ∉ s.db.acceptedRequests → Recorded s.db row) ∧
      ∀ id call, s.Runs ev id (.submit call) → ∀ s'' outcome, (system crates).Later s' s'' →
        ⟨id, .submit call, some outcome⟩ ∈ s''.log → ¬ outcome.Allowed →
          s'.db.acceptedRequests = s.db.acceptedRequests ∧
            s'.db.requestRoutes = s.db.requestRoutes := by
  have hinit : (contract crates).inv d₀ [] := fun row h => absurd (hrequests ▸ h) List.not_mem_nil
  refine ⟨(contract_sound.holds (fun _ _ _ => trivial) hinit hs).inv, fun ev s' hstep => ⟨?_, ?_⟩⟩
  · intro row hrow hnew
    obtain ⟨-, op, ws, r, -, hguar, hdb, -⟩ :=
      contract_sound.event (fun _ _ _ => trivial) hinit hs hstep
    rw [hdb] at hrow
    exact hguar row ((appendOnly_acceptedRequests.mem_view hrow).resolve_left hnew)
  · intro id call hrun s'' outcome hl he hnot
    have hafter : ¬ (allowance crates).after (.submit call) (some outcome) := by
      intro h
      obtain ⟨outcome', heq, hallowed⟩ := h call rfl
      exact hnot (Option.some.inj heq ▸ hallowed)
    obtain ⟨ws, hws, hdb⟩ := Receipt.commits_nothing hs hstep hrun hl he hafter
    rw [hdb]
    refine ⟨appendOnly_acceptedRequests.view_other ?_, requestRoutes_appendOnly.view_other ?_⟩
    · rintro w hw row rfl
      exact hws _ hw (by simp [allowance, tables, Write.table])
    · rintro w hw row rfl
      exact hws _ hw (by simp [allowance, tables, Write.table])

/-- A submission that a grant permits is accepted. -/
theorem acceptance_authorized_granted : ∃ s, (system Requests.exampleHttpCrates).Reaches
    Requests.grantedSource s ∧ s.db.acceptedRequests.length = 1 ∧
      ∀ row ∈ s.db.acceptedRequests, Recorded s.db row := by
  obtain ⟨s, hs, -, hdb, -⟩ := Postgres.System.exec_reaches
    (.init : (system Requests.exampleHttpCrates).Reaches Requests.grantedSource
      { db := Requests.grantedSource }) rfl
    (.submit ⟨Requests.exampleEvaluator, Requests.exampleDraws 10, Requests.exampleRetry, ⟨1⟩, ⟨5⟩⟩)
  refine ⟨s, hs, ?_, (acceptance_authorized Requests.exampleHttpCrates rfl hs).1⟩
  rw [hdb]
  decide +kernel

end InfernalLaw.Submissions
