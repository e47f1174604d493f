import InfernalLaw.Http.RequestRoutes
import InfernalLaw.Kernel.HonestRequests
import InfernalLaw.Runs.Authority
import InfernalLaw.Runs.Requests

/-!
# Retries of accepted requests

`submit_request` authorizes a submission anew before it looks whether the request is stored already.
A retry is answered with the stored record when the grants that are in force by then still let the
evaluator allow it, and it is refused otherwise, although the request stays accepted.
-/

namespace InfernalLaw.Requests

open Postgres (Entry State Store)
open PostgresAuthorityRepository (MatchesSql)

/-! ## Authorization -/

section Authorization

variable {evaluator : PolicyEvaluator} {decisionId : DecisionId} {facts : PolicyFacts} {now : ℤ}
  {d : Db}

/-- The decision that `authorize` records for an evaluation that succeeds. -/
def decisionOf (evaluator : PolicyEvaluator) (decisionId : DecisionId) (facts : PolicyFacts)
    (now : ℤ) (evaluation : PolicyEvaluation) : AuthorityDecision where
  id := decisionId
  facts := facts
  verdict := evaluation.verdict
  evaluator := evaluator.id
  policyBundleVersion := some evaluation.policyBundleVersion
  decidedAt := now

/-- The evaluator allows the facts with the grants in force at `now`, and this can be recorded. -/
def Allows (evaluator : PolicyEvaluator) (decisionId : DecisionId) (facts : PolicyFacts) (now : ℤ)
    (d : Db) : Prop :=
  ∃ grants evaluation, (d.grants.filter fun row => MatchesSql facts now row).mapM grantFromRow =
      .ok grants ∧
    evaluator.evaluate facts grants = .ok evaluation ∧ evaluation.verdict = .allow ∧
    d.checkDecision (decisionOf evaluator decisionId facts now evaluation).row = .ok ()

/-- `matching_grants` leaves the database as it is. -/
theorem exec_matchingGrants :
    (PostgresAuthorityRepository.matchingGrants facts now).run.exec store d
    [] = ⟨d, [], Authority.matched d facts now⟩ := by
  unfold Authority.matched PostgresAuthorityRepository.matchingGrants
  rw [Postgres.Proc.exec_orFail_bind, PostgresAuthorityRepository.matchingGrantRows,
    Postgres.Proc.exec_autocommit, Postgres.Proc.exec_statement]
  cases checkText facts.scope.text <;> rfl

/-- A decision is answered once it is recorded, if the constraints let it through. -/
theorem exec_record (decision : AuthorityDecision) :
    (PostgresAuthorityRepository.record decision >>= fun _ => pure decision).run.exec store d [] =
      match d.checkDecision decision.row with
      | .ok _ => ⟨store.view d [.decisions decision.row], [], .ok decision⟩
      | .error e => ⟨d, [], .error (.ofDatabase e)⟩ := by
  unfold PostgresAuthorityRepository.record PostgresAuthorityRepository.recordDecision
  rw [Postgres.Proc.exec_orFail_bind, Postgres.Proc.exec_autocommit]
  cases hcheck : d.checkDecision decision.row with
  | ok _ =>
    rw [Postgres.Proc.exec_insert_ok hcheck]
    rfl
  | error e =>
    rw [Postgres.Proc.exec_insert_error hcheck]

/-- `authorize` alone. -/
theorem exec_authorize :
    (AuthorityService.authorize evaluator decisionId facts now).exec store d [] =
    match Authority.matched d facts now with
    | .error e => ⟨d, [], .error e⟩
    | .ok grants =>
      let decision : AuthorityDecision :=
        match evaluator.evaluate facts grants with
        | .ok evaluation => decisionOf evaluator decisionId facts now evaluation
        | .error _ =>
          { id := decisionId, facts, verdict := .deny, evaluator := evaluator.id
            policyBundleVersion := none, decidedAt := now }
      match d.checkDecision decision.row with
      | .ok _ => ⟨store.view d [.decisions decision.row], [], .ok decision⟩
      | .error e => ⟨d, [], .error (.ofDatabase e)⟩ := by
  unfold AuthorityService.authorize authorize
  rw [Postgres.Proc.exec_run_bind, exec_matchingGrants]
  cases Authority.matched d facts now with
  | error e => rfl
  | ok grants =>
    dsimp only
    cases evaluator.evaluate facts grants with
    | ok evaluation => exact exec_record _
    | error _ => exact exec_record _

/-- An allowed decision is recorded when the evaluator allows the facts. -/
theorem exec_authorize_allowed (h : Allows evaluator decisionId facts now d) : ∃ decision,
    decision.isAllowed = true ∧
      (AuthorityService.authorize evaluator decisionId facts now).exec store d [] =
        ⟨store.view d [.decisions decision.row], [], .ok decision⟩ := by
  obtain ⟨grants, evaluation, hgrants, hevaluate, hallow, hcheck⟩ := h
  -- The scope has been checked to be a text that can be sent.
  have hnul : '\x00' ∉ facts.scope.text := by
    have hscope := hcheck
    rw [Db.checkDecision, checkText, Postgres.require_bind_eq_ok] at hscope
    exact hscope.1
  refine ⟨decisionOf evaluator decisionId facts now evaluation, decide_eq_true hallow, ?_⟩
  rw [exec_authorize, Authority.matched_eq, if_neg hnul, hgrants]
  dsimp only
  rw [hevaluate]
  dsimp only
  rw [hcheck]

/-- Otherwise no decision that `authorize` answers is an allowed one. -/
theorem exec_authorize_refused (h : ¬ Allows evaluator decisionId facts now d)
    {decision : AuthorityDecision}
    (hdecision : ((AuthorityService.authorize evaluator decisionId facts now).exec store d
      []).result = .ok decision) : decision.isAllowed = false := by
  rw [exec_authorize, Authority.matched_eq] at hdecision
  by_cases hnul : '\x00' ∈ facts.scope.text
  · rw [if_pos hnul] at hdecision
    cases hdecision
  rw [if_neg hnul] at hdecision
  cases hgrants : (d.grants.filter fun row => MatchesSql facts now row).mapM grantFromRow with
  | error e =>
    rw [hgrants] at hdecision
    cases hdecision
  | ok grants =>
    rw [hgrants] at hdecision
    dsimp only at hdecision
    cases hevaluate : evaluator.evaluate facts grants with
    | error e =>
      rw [hevaluate] at hdecision
      split at hdecision
      · obtain rfl := Except.ok.inj hdecision
        rfl
      · cases hdecision
    | ok evaluation =>
      rw [hevaluate] at hdecision
      dsimp only at hdecision
      split at hdecision
      · rename_i hcheck
        obtain rfl := Except.ok.inj hdecision
        refine decide_eq_false fun hallow =>
          h ⟨grants, evaluation, hgrants, hevaluate, hallow, hcheck⟩
      · cases hdecision

end Authorization

/-! ## Acceptance -/

section Acceptance

variable {d : Db} {stored : AcceptedRequest} {acceptedAt : ℤ}

/-- A stored request is found under its name. -/
theorem find_stored (hmem : stored.row ∈ d.acceptedRequests)
    (honly : ∀ row ∈ d.acceptedRequests, row.key = stored.row.key → row = stored.row) :
    d.acceptedRequests.find? (fun r => r.sourceServiceId = stored.request.sourceService ∧
      r.requestId = stored.request.id) = some stored.row := by
  cases hfind : d.acceptedRequests.find? fun r =>
      r.sourceServiceId = stored.request.sourceService ∧ r.requestId = stored.request.id with
  | none =>
    have hnot := List.find?_eq_none.mp hfind stored.row hmem
    simp [AcceptedRequest.row, Request.row] at hnot
  | some row =>
    have hkey : row.sourceServiceId = stored.request.sourceService ∧
        row.requestId = stored.request.id := by simpa using List.find?_some hfind
    rw [honly row (List.mem_of_find?_eq_some hfind) (Prod.ext hkey.1 hkey.2)]

/-- The insert of a stored request inserts nothing. -/
theorem exec_insertRequest_retry (hmem : stored.row ∈ d.acceptedRequests)
    (hcheck : stored.row.check = .ok ()) :
    (PostgresRequestRepository.insertRequest
      (stored.request.row stored.fingerprint acceptedAt)).exec store d [] = ⟨d, [], .ok 0⟩ := by
  have hconflict : (d.acceptedRequests.any fun r =>
      r.sourceServiceId = (stored.request.row stored.fingerprint acceptedAt).sourceServiceId ∧
        r.requestId = (stored.request.row stored.fingerprint acceptedAt).requestId) = true :=
    List.any_eq_true.mpr ⟨stored.row, hmem, by simp [AcceptedRequest.row, Request.row]⟩
  -- The time of the acceptance is not among the columns that are checked.
  have hcheck' : (stored.request.row stored.fingerprint acceptedAt).check = .ok () := hcheck
  rw [PostgresRequestRepository.insertRequest, Postgres.Proc.insertOrNothing,
    Postgres.Proc.exec_statement]
  simp only [Store.view_nil, hconflict, if_true, hcheck', List.nil_append]
  rfl

/-- A retry of a stored request is answered with what is stored. -/
theorem exec_accept_retry (hmem : stored.row ∈ d.acceptedRequests)
    (honly : ∀ row ∈ d.acceptedRequests, row.key = stored.row.key → row = stored.row)
    (hcheck : stored.row.check = .ok ()) :
    (PostgresRequestRepository.accept stored.request stored.fingerprint acceptedAt).exec store d
      [] = ⟨store.view d [.acceptanceAudit (stored.request.auditRow stored.fingerprint .safeRetry)],
        [], .ok (.safeRetry stored)⟩ := by
  have hfound : (PostgresRequestRepository.findRequest stored.request.sourceService
      stored.request.id).exec store d [] = ⟨d, [], .ok (some stored.row)⟩ := by
    rw [PostgresRequestRepository.findRequest, Postgres.Proc.exec_query, Store.view_nil,
      find_stored hmem honly]
  have haudit : d.referencesAcceptanceAudit
      (stored.request.auditRow stored.fingerprint .safeRetry) = .ok () :=
    Postgres.require_eq_ok.mpr ⟨stored.row, hmem, rfl, rfl⟩
  have hread : acceptedRequestFromRow stored.row = .ok stored :=
    acceptedRequestFromRow_eq_ok.mpr rfl
  unfold PostgresRequestRepository.accept
  rw [Postgres.Proc.exec_transaction, Postgres.Proc.exec_orFail_bind,
    exec_insertRequest_retry hmem hcheck]
  dsimp only
  rw [if_neg (by decide), Postgres.Proc.exec_orFail_bind, hfound]
  dsimp only [Option.elim_some]
  rw [Postgres.Proc.exec_ensure_bind]
  dsimp only
  rw [Postgres.Proc.exec_ensure_bind, hread]
  dsimp only
  rw [if_neg (by simp), PostgresRequestRepository.conclude, Postgres.Proc.exec_orFail_bind,
    PostgresRequestRepository.appendAudit, Postgres.Proc.exec_insert_ok haudit]
  rfl

end Acceptance

/-! ## The answer to a retry -/

section Retry

variable {crates : HttpCrates} {evaluator : PolicyEvaluator} {draws : SubmissionDraws}
  {retry : ParsedRequest} {request : Request} {d : Db}

/-- The body is a submission of the request. -/
def Submits (crates : HttpCrates) (retry : ParsedRequest) (request : Request) : Prop :=
  retry.isJson = true ∧ ∃ dto, crates.submitRequestRequest retry.body = some dto ∧
    dto.intoRequest crates.toCrates request.sourceService request.id = .ok request

/-- What the acceptance of the request is authorized by. -/
def Request.facts (request : Request) : PolicyFacts :=
  .forRequestAcceptance request.sourceService request.action request.scope request.schemaVersions

/-- A submission is authorized, and only then accepted. -/
theorem submitRequest_eq (h : Submits crates retry request) :
    submitRequest crates evaluator draws retry request.sourceService request.id =
      (AuthorityService.authorize evaluator draws.decisionId (Request.facts request)
        draws.now).bind fun
        | .error _ => .done (errorResponse crates "503 Service Unavailable" .internalError)
        | .ok decision =>
          if decision.isAllowed then acceptSubmission crates draws request
          else .done (errorResponse crates "403 Forbidden" .requestNotAuthorized) := by
  obtain ⟨hjson, dto, hdto, hrequest⟩ := h
  unfold submitRequest
  rw [if_neg (by simp [hjson]), hdto]
  dsimp only
  rw [hrequest]
  rfl

/-- A response that is written has the status that it was given. -/
theorem status_jsonResponse (hjson : ∀ value, (crates.toJson value).isSome = true)
    (status : String) (value : JsonObject) : (jsonResponse crates status value).status =
      status := by
  obtain ⟨body, hbody⟩ := Option.isSome_iff_exists.mp (hjson value)
  rw [jsonResponse, hbody]

/-- The columns of a request that is authorized satisfy their constraints. -/
theorem check_of_allows {decisionId : DecisionId} {now : ℤ} {stored : AcceptedRequest}
    (h : Allows evaluator decisionId (Request.facts stored.request) now d) :
    stored.row.check = .ok () := by
  obtain ⟨_, evaluation, -, -, -, hcheck⟩ := h
  rw [Db.checkDecision, checkText, Postgres.require_bind_eq_ok] at hcheck
  obtain ⟨hnul, hcheck⟩ := hcheck
  obtain ⟨-, -, hcheck⟩ := Postgres.bind_eq_ok.mp hcheck
  simp only [Postgres.require_bind_eq_ok] at hcheck
  obtain ⟨haction, -, hscope, -⟩ := hcheck
  rw [AcceptedRequestRow.check, checkText, Postgres.require_bind_eq_ok,
    Postgres.require_bind_eq_ok, Postgres.require_eq_ok]
  exact ⟨hnul, haction, hscope⟩

/-- A retry that is authorized is answered with the stored record. -/
theorem submitRequest_allowed {stored : AcceptedRequest} (hmem : stored.row ∈ d.acceptedRequests)
    (honly : ∀ row ∈ d.acceptedRequests, row.key = stored.row.key → row = stored.row)
    (hfingerprint : stored.fingerprint = stored.request.fingerprint crates.sha256)
    (hsubmits : Submits crates retry stored.request)
    (h : Allows evaluator draws.decisionId (Request.facts stored.request) draws.now d) :
    ((submitRequest crates evaluator draws retry stored.request.sourceService
      stored.request.id).exec store d []).result =
        jsonResponse crates "200 OK" (stored.toObject crates) := by
  obtain ⟨decision, hallowed, hexec⟩ := exec_authorize_allowed h
  -- The decision that is recorded leaves the requests as they are.
  have haccept : (PostgresRequestRepository.accept stored.request stored.fingerprint
      draws.acceptedAt).exec store (store.view d [.decisions decision.row]) [] = _ :=
    exec_accept_retry hmem honly (check_of_allows h)
  rw [submitRequest_eq hsubmits, Postgres.Proc.exec_bind, hexec]
  dsimp only
  rw [if_pos hallowed, acceptSubmission, Postgres.Proc.exec_bind, ← hfingerprint, haccept]
  dsimp only
  rw [Postgres.Proc.exec_bind]
  rfl

/-- A retry that is not authorized is refused. -/
theorem submitRequest_refused (hsubmits : Submits crates retry request)
    (h : ¬ Allows evaluator draws.decisionId (Request.facts request) draws.now d) :
    ((submitRequest crates evaluator draws retry request.sourceService request.id).exec store d
        []).result = errorResponse crates "503 Service Unavailable" .internalError ∨
      ((submitRequest crates evaluator draws retry request.sourceService request.id).exec store d
        []).result = errorResponse crates "403 Forbidden" .requestNotAuthorized := by
  rw [submitRequest_eq hsubmits, Postgres.Proc.exec_bind]
  cases hresult : ((AuthorityService.authorize evaluator draws.decisionId (Request.facts request)
      draws.now).exec store d []).result with
  | error e => exact .inl rfl
  | ok decision =>
    have hdenied := exec_authorize_refused h hresult
    dsimp only
    rw [if_neg (by simp [hdenied])]
    exact .inr rfl

/-- So it is not answered with a record. -/
theorem submitRequest_ne_of_refused (hjson : ∀ value, (crates.toJson value).isSome = true)
    (hsubmits : Submits crates retry request)
    (h : ¬ Allows evaluator draws.decisionId (Request.facts request) draws.now d)
    (record : JsonObject) :
    ((submitRequest crates evaluator draws retry request.sourceService request.id).exec store d
      []).result ≠ jsonResponse crates "200 OK" record := by
  intro hrecord
  rcases submitRequest_refused hsubmits h with hresult | hresult
  all_goals
    have hstatus := congrArg Response.status (hrecord.symm.trans hresult)
    rw [errorResponse, status_jsonResponse hjson, status_jsonResponse hjson] at hstatus
    exact absurd hstatus (by decide)

end Retry

/-- What was accepted is stored, and is all that is stored under its name. -/
theorem stored_of_accepted {d₀ : Db} (hr : d₀.acceptedRequests = []) (ha : d₀.acceptanceAudit = [])
    {s : State Db Write Key Op Result} (hs : system.Reaches d₀ s) {e : Entry Op Result}
    (he : e ∈ s.log) {request : Request} {fingerprint : RequestFingerprint} {acceptedAt : ℤ}
    {stored : AcceptedRequest} (hop : e.op = .accept request fingerprint acceptedAt)
    (hanswer : e.result = some (.ok (.accepted stored))) :
    stored.request = request ∧ stored.fingerprint = fingerprint ∧
      stored.row ∈ s.db.acceptedRequests ∧
      ∀ row ∈ s.db.acceptedRequests, row.key = stored.row.key → row = stored.row := by
  have hconvergence := (holds hr ha hs).inv.convergence
  have hcall : call? e =
      some ⟨e.id, request, fingerprint, acceptedAt, .accepted, .ok (.accepted stored)⟩ := by
    unfold call?
    rw [hop, hanswer]
    rfl
  obtain ⟨stored', hanswer', hrequest, hfingerprint, hmem, hread⟩ :=
    hconvergence.accepted _ (List.mem_filterMap.mpr ⟨e, he, hcall⟩) rfl
  obtain rfl : stored = stored' := RequestAcceptance.accepted.inj (Except.ok.inj hanswer')
  rw [acceptedRequestFromRow_eq_ok.mp hread] at hmem
  refine ⟨hrequest, hfingerprint, hmem, fun row hrow hkey => ?_⟩
  exact List.inj_on_of_nodup_map hconvergence.one_row hrow hmem hkey

/-- In every run in which a request was accepted, a retry is answered with the record that was
stored if and only if the evaluator allows it again, with the grants that are in force by then. -/
theorem retry_answers_iff {d₀ : Db} (hr : d₀.acceptedRequests = []) (ha : d₀.acceptanceAudit = [])
    {s : State Db Write Key Op Result} (hs : system.Reaches d₀ s) {crates : HttpCrates}
    (hjson : ∀ value, (crates.toJson value).isSome = true) {e : Entry Op Result} (he : e ∈ s.log)
    {request : Request} {acceptedAt : ℤ} {stored : AcceptedRequest}
    (hop : e.op = .accept request (request.fingerprint crates.sha256) acceptedAt)
    (hanswer : e.result = some (.ok (.accepted stored))) {retry : ParsedRequest}
    (hsubmits : Submits crates retry request) (evaluator : PolicyEvaluator)
    (draws : SubmissionDraws) :
    ((submitRequest crates evaluator draws retry request.sourceService request.id).exec store s.db
        []).result = jsonResponse crates "200 OK" (stored.toObject crates) ↔
      Allows evaluator draws.decisionId (Request.facts request) draws.now s.db := by
  obtain ⟨rfl, hfingerprint, hmem, honly⟩ := stored_of_accepted hr ha hs he hop hanswer
  constructor
  · intro hretry
    by_contra hrefused
    exact submitRequest_ne_of_refused hjson hsubmits hrefused _ hretry
  · exact submitRequest_allowed hmem honly hfingerprint hsubmits

/-! ## A grant that expires -/

/-- The text of a value without characters that need an escape. -/
def exampleJsonValue : JsonValue → Str
  | .null => "null".toList
  | .bool value => (toString value).toList
  | .number value => (toString value).toList
  | .string value => '"' :: value ++ ['"']

/-- The text of an object. -/
def exampleJson (object : JsonObject) : Str :=
  '\x7b' :: ((object.map fun field =>
    '"' :: field.1.toList ++ '"' :: ':' :: exampleJsonValue field.2).intersperse [',']).flatten ++
      ['\x7d']

/-- The fields of a submission. -/
def exampleDto : SubmitRequestRequest where
  action := "billing.submit".toList
  scope := ['a']
  artifactSchemaVersionId := Framing.hyphenated 1
  permissionPolicySchemaVersionId := Framing.hyphenated 2

/-- Its body. -/
def exampleSubmission : List UInt8 :=
  Str.asBytes (exampleJson
    [("action", .string exampleDto.action), ("scope", .string exampleDto.scope),
      ("artifact_schema_version_id", .string exampleDto.artifactSchemaVersionId),
      ("permission_policy_schema_version_id", .string exampleDto.permissionPolicySchemaVersionId)])

/-- The request that carries it. -/
def exampleRetry : ParsedRequest where
  method := "POST".toList
  path := "/v1/requests".toList
  authority := none
  contentType := some "application/json".toList
  contentDigest := none
  serviceId := none
  instanceId := none
  requestId := none
  signatureInput := none
  signature := none
  body := exampleSubmission

/-- The digest of what the submission's fingerprint hashes. -/
def exampleSubmissionDigest : Bytes32 where
  bytes :=
    [5, 233, 68, 150, 244, 103, 248, 58, 249, 124, 219, 31, 210, 97, 242, 29, 60, 142, 153, 202,
      177, 162, 163, 155, 96, 37, 170, 115, 190, 215, 109, 135]
  length_eq := rfl

/-- The crates, at the texts of the submission. -/
def exampleHttpCrates : HttpCrates where
  toCrates := { exampleReadingCrates with sha256 := fun _ => exampleSubmissionDigest }
  toJson object := some (exampleJson object)
  submitRequestRequest body := if body = exampleSubmission then some exampleDto else none
  claimRequest _ := none

/-- A grant that permits the submission until the time 50. -/
def exampleGrant : GrantRow where
  grantId := ⟨7⟩
  sourceServiceId := ⟨1⟩
  action := "billing.submit".toList
  scope := ['*']
  artifactSchemaVersionId := ⟨1⟩
  permissionPolicySchemaVersionId := ⟨2⟩
  destinationServiceId := none
  validFrom := 0
  validUntil := some 50
  administratorIdentity := ['a']
  reason := ['r']
  correlationId := 8
  createdAt := 5
  revokedAt := none

/-- The service with that grant. -/
def grantedSource : Db := { oneSource with grants := [exampleGrant] }

/-- An evaluator that allows what a grant permits. -/
def exampleEvaluator : PolicyEvaluator where
  id := ⟨1⟩
  evaluate facts grants := .ok ⟨if grants = [] then .deny else .allow, ['1'], by decide⟩

/-- What a submission draws at a time. -/
def exampleDraws (now : ℤ) : SubmissionDraws where
  decisionId := ⟨9⟩
  routeIds n := ⟨BitVec.ofNat 128 (100 + n)⟩
  now := now
  acceptedAt := now

/-- The request that is submitted. -/
def exampleAccepted : Request := submission exampleScope

/-- The body of the example is a submission that can be read. -/
theorem exampleRetry_submits : Submits exampleHttpCrates exampleRetry exampleAccepted := by
  refine ⟨by decide +kernel, exampleDto, by decide +kernel, ?_⟩
  have h : (exampleDto.intoRequest exampleHttpCrates.toCrates ⟨1⟩ ⟨5⟩).toOption =
      some exampleAccepted := by decide +kernel
  exact Postgres.toOption_eq_some.mp h

/-- The submission is accepted at the time 10. -/
theorem reaches_accepted : ∃ s e stored, system.Reaches grantedSource s ∧ e ∈ s.log ∧
    e.op = .accept exampleAccepted (exampleAccepted.fingerprint exampleHttpCrates.sha256) 10 ∧
    e.result = some (.ok (.accepted stored)) ∧ s.db.grants = [exampleGrant] ∧
    s.db.checkDecision (decisionOf exampleEvaluator ⟨9⟩ (Request.facts exampleAccepted) 20
      ⟨.allow, ⟨['1'], by decide⟩⟩).row = .ok () := by
  obtain ⟨s, hs, -, hdb, hlog⟩ := Postgres.System.exec_reaches
    (.init : system.Reaches grantedSource { db := grantedSource }) rfl
    (.accept exampleAccepted (exampleAccepted.fingerprint exampleHttpCrates.sha256) 10)
  have hmem : _ ∈ s.log := hlog ▸ List.mem_append_right _ (List.mem_singleton.mpr rfl)
  refine ⟨s, _, ⟨exampleAccepted, ⟨exampleSubmissionDigest⟩, 10, by decide⟩, hs,
    hmem, rfl, ?_, ?_, ?_⟩
  · decide +kernel
  · rw [hdb]
    decide +kernel
  · rw [hdb]
    decide +kernel

/-- While the grant is in force, a retry is answered with the stored record. -/
theorem retry_answers_granted : ∃ s stored, system.Reaches grantedSource s ∧
    ((submitRequest exampleHttpCrates exampleEvaluator (exampleDraws 20) exampleRetry ⟨1⟩ ⟨5⟩).exec
      store s.db []).result = jsonResponse exampleHttpCrates "200 OK"
        (AcceptedRequest.toObject exampleHttpCrates stored) := by
  obtain ⟨s, e, stored, hs, he, hop, hanswer, hgrants, hcheck⟩ := reaches_accepted
  let g : Grant :=
    { id := ⟨7⟩, source := ⟨1⟩, action := ⟨"billing.submit".toList, by decide⟩
      scope := Scope.wildcard, schemaVersions := noArtifactSchemaVersions, destination := none
      validFrom := 0, validUntil := some 50, window := by decide }
  have hallows : Allows exampleEvaluator ⟨9⟩ (Request.facts exampleAccepted) 20 s.db := by
    refine ⟨[g], _, ?_, rfl, rfl, hcheck⟩
    rw [hgrants]
    decide
  exact ⟨s, stored, hs, (retry_answers_iff rfl rfl hs (fun _ => rfl) he hop hanswer
    exampleRetry_submits exampleEvaluator (exampleDraws 20)).mpr hallows⟩

/-- Once the grant has expired, a retry of the accepted request is refused. -/
theorem retry_refused_expired :
    ¬ ∀ (d₀ : Db) (s : State Db Write Key Op Result) (crates : HttpCrates)
    (e : Entry Op Result) (request : Request) (acceptedAt : ℤ) (stored : AcceptedRequest)
    (retry : ParsedRequest) (evaluator : PolicyEvaluator) (draws : SubmissionDraws),
    d₀.acceptedRequests = [] → d₀.acceptanceAudit = [] → system.Reaches d₀ s →
    (∀ value, (crates.toJson value).isSome = true) → e ∈ s.log →
    e.op = .accept request (request.fingerprint crates.sha256) acceptedAt →
    e.result = some (.ok (.accepted stored)) → Submits crates retry request →
    ((submitRequest crates evaluator draws retry request.sourceService request.id).exec store s.db
      []).result = jsonResponse crates "200 OK" (stored.toObject crates) := by
  intro h
  obtain ⟨s, e, stored, hs, he, hop, hanswer, hgrants, -⟩ := reaches_accepted
  have hretry := h _ s exampleHttpCrates e exampleAccepted 10 stored exampleRetry exampleEvaluator
    (exampleDraws 60) rfl rfl hs (fun _ => rfl) he hop hanswer exampleRetry_submits
  have hrefused : ¬ Allows exampleEvaluator ⟨9⟩ (Request.facts exampleAccepted) 60 s.db := by
    rintro ⟨grants, evaluation, hgrants', hevaluate, hallow, -⟩
    have hnone : s.db.grants.filter (fun row => MatchesSql (Request.facts exampleAccepted) 60 row) =
        [] := by
      rw [hgrants]
      decide
    rw [hnone] at hgrants'
    obtain rfl := Except.ok.inj hgrants'
    obtain rfl := Except.ok.inj hevaluate
    cases hallow
  exact submitRequest_ne_of_refused (fun _ => rfl) exampleRetry_submits
    hrefused _ hretry

end InfernalLaw.Requests
