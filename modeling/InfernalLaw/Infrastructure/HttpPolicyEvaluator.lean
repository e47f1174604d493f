import InfernalLaw.Effects.Fallible
import InfernalLaw.Kernel.Authority
import InfernalLaw.Kernel.InstanceRegistry

/-!
# The policy evaluator

`HttpPolicyEvaluator`, which asks another service for the verdict in a signed request, and
`AuthorityService::authorize` with it: whatever comes back, only a well-formed answer allows.
-/

namespace InfernalLaw

open Effects (run_bind_error run_bind_ok)
open Postgres (bind_eq_ok mapError_eq_ok)

/-- The path at which the policy service evaluates. -/
def evaluatePath : Str := "/v1/authority/evaluate".toList

/-- How long the signature of a request to the evaluator is valid. -/
def evaluateValiditySeconds : ℤ := 30

/-! ## Messages -/

/-- `EvaluateGrant`. -/
structure EvaluateGrant where
  grantId : Str
  sourceServiceId : Str
  action : Str
  scope : Str
  artifactSchemaVersionId : Str
  permissionPolicySchemaVersionId : Str
  destinationServiceId : Option Str
  validFrom : ℤ
  validUntil : Option ℤ
  deriving DecidableEq

/-- `EvaluateRequest`. -/
structure EvaluateRequest where
  sourceServiceId : Str
  action : Str
  scope : Str
  artifactSchemaVersionId : Str
  permissionPolicySchemaVersionId : Str
  destinationServiceId : Option Str
  grants : List EvaluateGrant
  deriving DecidableEq

/-- `EvaluateResponse`. -/
structure EvaluateResponse where
  verdict : Str
  policyBundleVersion : Str
  deriving DecidableEq

/-- `EvaluateGrant::from`. -/
def EvaluateGrant.ofGrant (crates : Crates) (grant : Grant) : EvaluateGrant where
  grantId := crates.displayUuid grant.id.uuid
  sourceServiceId := crates.displayUuid grant.source.uuid
  action := grant.action.text
  scope := grant.scope.text
  artifactSchemaVersionId := crates.displayUuid grant.schemaVersions.artifact.uuid
  permissionPolicySchemaVersionId := crates.displayUuid grant.schemaVersions.permissionPolicy.uuid
  destinationServiceId := grant.destination.map fun id => crates.displayUuid id.uuid
  validFrom := grant.validFrom
  validUntil := grant.validUntil

/-- `EvaluateRequest::from_facts_and_grants`. -/
def EvaluateRequest.fromFactsAndGrants (crates : Crates) (facts : PolicyFacts)
    (grants : List Grant) : EvaluateRequest where
  sourceServiceId := crates.displayUuid facts.source.uuid
  action := facts.action.text
  scope := facts.scope.text
  artifactSchemaVersionId := crates.displayUuid facts.schemaVersions.artifact.uuid
  permissionPolicySchemaVersionId := crates.displayUuid facts.schemaVersions.permissionPolicy.uuid
  destinationServiceId := facts.destination.map fun id => crates.displayUuid id.uuid
  grants := grants.map (.ofGrant crates)

/-- The verdict that `into_evaluation` reads. -/
def Verdict.ofText (text : Str) : Except AuthorityError Verdict :=
  if text = "allow".toList then .ok .allow
  else if text = "deny".toList then .ok .deny
  else .error (.evaluator ("unknown verdict: ".toList ++ text))

/-- `EvaluateResponse::into_evaluation`. -/
def EvaluateResponse.intoEvaluation (response : EvaluateResponse) :
    Except AuthorityError PolicyEvaluation := do
  let verdict ← Verdict.ofText response.verdict
  let policyBundleVersion ← (PolicyBundleVersion.new response.policyBundleVersion).elim
    (.error (.evaluator "invalid policy bundle version".toList)) .ok
  return { verdict, policyBundleVersion }

/-! ## The request -/

/-- An answer over HTTP. -/
structure HttpResponse where
  status : UInt16
  body : List UInt8
  deriving DecidableEq

/-- What the evaluator takes from `infernal_client` and `serde_json`; their errors are texts. -/
structure EvaluatorCrates extends Crates where
  /-- `RequestParts`. -/
  RequestParts : Type
  /-- `ClientPublicKey`. -/
  ClientPublicKey : Type
  /-- `SignedRequest`. -/
  SignedRequest : Type
  /-- `serde_json::to_vec`. -/
  toVec : EvaluateRequest → Except Str (List UInt8)
  /-- `serde_json::from_slice`. -/
  fromSlice : List UInt8 → Except Str EvaluateResponse
  /-- `RequestParts::new`. -/
  newParts : Str → Str → Str → Str → List UInt8 → Uuid → Except Str RequestParts
  /-- `ClientPublicKey::restore`. -/
  restoreKey : Uuid → Uuid → Uuid → Bytes32 → Except Str ClientPublicKey
  /-- `SignedRequest::sign_with`. -/
  signWith : RequestParts → ClientPublicKey → ℤ → ℤ → Str → (List UInt8 → Bytes64) →
    Except Str SignedRequest

/-- An evaluator, with what one call of it draws and what the network makes of its request. -/
structure HttpPolicyEvaluator (crates : EvaluatorCrates) where
  credential : InstanceCredential
  authority : Str
  /-- `Uuid::new_v4`. -/
  requestId : Uuid
  /-- `generate_nonce`. -/
  nonce : Except Str Str
  /-- `unix_time`. -/
  unixTime : ℤ
  /-- `Client::send`. -/
  send : crates.SignedRequest → Except Str HttpResponse

namespace HttpPolicyEvaluator

variable {crates : EvaluatorCrates}

/-- `client_public_key`. -/
def clientPublicKey (crates : EvaluatorCrates) (publicKey : InstancePublicKey) :
    Except AuthorityError crates.ClientPublicKey :=
  (crates.restoreKey publicKey.serviceId.uuid publicKey.instanceId.uuid publicKey.keyId.uuid
    publicKey.publicKey).mapError .evaluator

/-- `build_signed_request`. -/
def buildSignedRequest (e : HttpPolicyEvaluator crates) (facts : PolicyFacts)
    (grants : List Grant) : Except AuthorityError crates.SignedRequest := do
  let body ← (crates.toVec (.fromFactsAndGrants crates.toCrates facts grants)).mapError .evaluator
  let nonce ← e.nonce.mapError .evaluator
  let parts ← (crates.newParts "POST".toList e.authority evaluatePath "application/json".toList body
    e.requestId).mapError .evaluator
  let publicKey ← clientPublicKey crates e.credential.publicKey
  (crates.signWith parts publicKey e.unixTime (e.unixTime + evaluateValiditySeconds) nonce
    e.credential.sign).mapError .evaluator

/-- The evaluator's answer, or why there is none. -/
def answer (e : HttpPolicyEvaluator crates) (facts : PolicyFacts) (grants : List Grant) :
    Except AuthorityError HttpResponse := do
  let signed ← e.buildSignedRequest facts grants
  (e.send signed).mapError .evaluator

/-- `parse_response`. -/
def parseResponse (crates : EvaluatorCrates) (status : UInt16) (body : List UInt8) :
    Except AuthorityError PolicyEvaluation := do
  if ¬ (200 ≤ status ∧ status < 300) then
    .error (.evaluator ("policy evaluator returned status ".toList ++ (toString status).toList))
  else
    let parsed ← (crates.fromSlice body).mapError .evaluator
    parsed.intoEvaluation

/-- `evaluate`. -/
def evaluate (e : HttpPolicyEvaluator crates) (facts : PolicyFacts) (grants : List Grant) :
    Except AuthorityError PolicyEvaluation := do
  let response ← e.answer facts grants
  parseResponse crates response.status response.body

/-- The evaluator gave a well-formed answer: a success, with the verdict and a bundle version. -/
def Answers (e : HttpPolicyEvaluator crates) (facts : PolicyFacts) (grants : List Grant)
    (verdict version : Str) : Prop :=
  ∃ response body, e.answer facts grants = .ok response ∧
    200 ≤ response.status ∧ response.status < 300 ∧ crates.fromSlice response.body = .ok body ∧
    body.verdict = verdict ∧ body.policyBundleVersion = version ∧
    version ≠ [] ∧ version.len ≤ 200

end HttpPolicyEvaluator

/-- How the evaluator spells a verdict. -/
def Verdict.text : Verdict → Str
  | .allow => "allow".toList
  | .deny => "deny".toList

/-- A verdict is one of the two. -/
theorem Verdict.exists_iff {p : Verdict → Prop} : (∃ v, p v) ↔ p .allow ∨ p .deny := by
  constructor
  · rintro ⟨v, hv⟩
    cases v with
    | allow => exact .inl hv
    | deny => exact .inr hv
  · rintro (hv | hv)
    · exact ⟨_, hv⟩
    · exact ⟨_, hv⟩

/-- Only the two verdicts are read. -/
theorem Verdict.ofText_eq_ok {text : Str} {v : Verdict} :
    Verdict.ofText text = .ok v ↔ text = v.text := by
  constructor
  · intro h
    unfold Verdict.ofText at h
    split_ifs at h with hallow hdeny
    · rw [← Except.ok.inj h]
      exact hallow
    · rw [← Except.ok.inj h]
      exact hdeny
  · rintro rfl
    cases v <;> rfl

/-- A bundle version is made of its text. -/
theorem PolicyBundleVersion.new_eq_some {value : Str} {v : PolicyBundleVersion} :
    PolicyBundleVersion.new value = some v ↔ value = v.text := by
  unfold PolicyBundleVersion.new
  constructor
  · intro h
    split at h
    · rw [← Option.some.inj h]
    · cases h
  · rintro rfl
    rw [dif_pos v.valid]

/-- A bundle version is neither empty nor too long. -/
theorem PolicyBundleVersion.bounds (v : PolicyBundleVersion) : v.text ≠ [] ∧ v.text.len ≤ 200 := by
  have hvalid := v.valid
  simp only [Bool.and_eq_true, Bool.not_eq_true', List.isEmpty_eq_false_iff,
    decide_eq_true_eq] at hvalid
  exact hvalid

/-- An answer is read when it has one of the two verdicts, and a bundle version. -/
theorem EvaluateResponse.intoEvaluation_eq_ok {response : EvaluateResponse}
    {evaluation : PolicyEvaluation} :
    response.intoEvaluation = .ok evaluation ↔
      response.verdict = evaluation.verdict.text ∧
        response.policyBundleVersion = evaluation.policyBundleVersion.text := by
  unfold EvaluateResponse.intoEvaluation
  simp only [bind_eq_ok, Postgres.elim_eq_ok, Verdict.ofText_eq_ok,
    PolicyBundleVersion.new_eq_some]
  constructor
  · rintro ⟨verdict, hverdict, version, hversion, heq⟩
    obtain rfl := Except.ok.inj heq
    exact ⟨hverdict, hversion⟩
  · rintro ⟨hverdict, hversion⟩
    exact ⟨_, hverdict, _, hversion, rfl⟩

namespace HttpPolicyEvaluator

variable {crates : EvaluatorCrates}

/-- A response is read when it is a success whose body is. -/
theorem parseResponse_eq_ok {status : UInt16} {body : List UInt8} {evaluation : PolicyEvaluation} :
    parseResponse crates status body = .ok evaluation ↔
      200 ≤ status ∧ status < 300 ∧ ∃ parsed, crates.fromSlice body = .ok parsed ∧
        parsed.verdict = evaluation.verdict.text ∧
        parsed.policyBundleVersion = evaluation.policyBundleVersion.text := by
  unfold parseResponse
  split
  · rename_i hstatus
    simp only [reduceCtorEq, false_iff]
    exact fun h => hstatus ⟨h.1, h.2.1⟩
  · rename_i hstatus
    obtain ⟨hleast, hbelow⟩ := not_not.mp hstatus
    simp only [bind_eq_ok, mapError_eq_ok, EvaluateResponse.intoEvaluation_eq_ok, hleast, hbelow,
      true_and]

/-- The evaluator decides when it gave a well-formed answer, and decides what it answered. -/
theorem evaluate_eq_ok {e : HttpPolicyEvaluator crates} {facts : PolicyFacts} {grants : List Grant}
    {evaluation : PolicyEvaluation} :
    e.evaluate facts grants = .ok evaluation ↔
      e.Answers facts grants evaluation.verdict.text evaluation.policyBundleVersion.text := by
  unfold evaluate Answers
  simp only [bind_eq_ok, parseResponse_eq_ok]
  constructor
  · rintro ⟨response, hanswer, hleast, hbelow, body, hbody, hverdict, hversion⟩
    exact ⟨response, body, hanswer, hleast, hbelow, hbody, hverdict, hversion,
      evaluation.policyBundleVersion.bounds⟩
  · rintro ⟨response, body, hanswer, hleast, hbelow, hbody, hverdict, hversion, -⟩
    exact ⟨response, hanswer, hleast, hbelow, body, hbody, hverdict, hversion⟩

end HttpPolicyEvaluator

/-! ## Authorizing -/

/-- What authorizing depends on: the grants, the store of decisions, and which decisions were
recorded in it. -/
structure AuthorityStores (G D : Type) where
  grants : G
  decisions : D
  recorded : List AuthorityDecision

/-- The two repositories, whatever they answer and however they change. -/
structure AuthorityRepositories (G D : Type) where
  /-- `AuthorityRepository::matching_grants`. -/
  matchingGrants : PolicyFacts → ℤ → StateM G (Except AuthorityError (List Grant))
  /-- `AuthorityDecisionRecorder::record`. -/
  record : AuthorityDecision → StateM D (Except AuthorityError Unit)

/-- What `authorize` decides about an evaluation, or the lack of one. -/
def AuthorityDecision.ofEvaluation (evaluatorId : ActorId) (decisionId : DecisionId)
    (facts : PolicyFacts) (now : ℤ) (evaluation : Except AuthorityError PolicyEvaluation) :
    AuthorityDecision where
  id := decisionId
  facts := facts
  verdict := evaluation.toOption.elim .deny PolicyEvaluation.verdict
  evaluator := evaluatorId
  policyBundleVersion := evaluation.toOption.map PolicyEvaluation.policyBundleVersion
  decidedAt := now

namespace AuthorityRepositories

variable {G D : Type} (r : AuthorityRepositories G D)

/-- The look-up of the grants. -/
def onGrants (facts : PolicyFacts) (now : ℤ) :
    StateM (AuthorityStores G D) (Except AuthorityError (List Grant)) := fun s =>
  let (answer, grants) := r.matchingGrants facts now s.grants
  (answer, { s with grants })

/-- The recording of a decision. It is recorded when the recorder says so. -/
def onDecisions (decision : AuthorityDecision) :
    StateM (AuthorityStores G D) (Except AuthorityError Unit) := fun s =>
  let (answer, decisions) := r.record decision s.decisions
  (answer, { s with
    decisions, recorded := s.recorded ++ answer.toOption.toList.map fun _ => decision })

variable {crates : EvaluatorCrates}

/-- `AuthorityService::authorize`, with an evaluator over HTTP. -/
def authorize (e : HttpPolicyEvaluator crates) (evaluatorId : ActorId) (decisionId : DecisionId)
    (facts : PolicyFacts) (now : ℤ) :
    StateM (AuthorityStores G D) (Except AuthorityError AuthorityDecision) :=
  (InfernalLaw.authorize (fun facts now => ExceptT.mk (r.onGrants facts now)) e.evaluate
    (fun decision => ExceptT.mk (r.onDecisions decision)) evaluatorId decisionId facts now).run

end AuthorityRepositories

namespace HttpPolicyEvaluator

variable {crates : EvaluatorCrates} {e : HttpPolicyEvaluator crates} {evaluatorId : ActorId}
  {decisionId : DecisionId} {facts : PolicyFacts} {now : ℤ} {grants : List Grant}

/-- A well-formed answer is read as what it says. -/
theorem evaluate_of_answers (verdict : Verdict) {version : Str}
    (h : e.Answers facts grants verdict.text version) :
    ∃ v : PolicyBundleVersion, v.text = version ∧ e.evaluate facts grants = .ok ⟨verdict, v⟩ := by
  obtain ⟨-, -, -, -, -, -, -, -, hne, hlen⟩ := id h
  have hvalid : (!version.isEmpty && decide (version.len ≤ maxPolicyBundleVersionLength)) =
      true := by
    rw [Bool.and_eq_true, Bool.not_eq_true', List.isEmpty_eq_false_iff, decide_eq_true_eq]
    exact ⟨hne, hlen⟩
  exact ⟨⟨version, hvalid⟩, rfl, evaluate_eq_ok.mpr h⟩

/-- The decision allows when the evaluator did. -/
theorem ofEvaluation_verdict_eq_allow :
    (AuthorityDecision.ofEvaluation evaluatorId decisionId facts now
        (e.evaluate facts grants)).verdict = .allow ↔
        ∃ version, e.Answers facts grants "allow".toList version := by
  constructor
  · intro h
    cases hevaluate : e.evaluate facts grants with
    | error failure =>
      rw [hevaluate] at h
      cases h
    | ok evaluation =>
      rw [hevaluate] at h
      have hallow : evaluation.verdict = .allow := h
      have hanswers := evaluate_eq_ok.mp hevaluate
      rw [hallow] at hanswers
      exact ⟨_, hanswers⟩
  · rintro ⟨version, hanswers⟩
    obtain ⟨v, -, hevaluate⟩ := evaluate_of_answers .allow hanswers
    rw [hevaluate]
    rfl

/-- The decision has the bundle version of a well-formed answer, whichever its verdict. -/
theorem ofEvaluation_policyBundleVersion_eq_some {v : PolicyBundleVersion} :
    (AuthorityDecision.ofEvaluation evaluatorId decisionId facts now
        (e.evaluate facts grants)).policyBundleVersion = some v ↔
      ∃ verdict : Verdict, e.Answers facts grants verdict.text v.text := by
  constructor
  · intro h
    cases hevaluate : e.evaluate facts grants with
    | error failure =>
      rw [hevaluate] at h
      cases h
    | ok evaluation =>
      rw [hevaluate] at h
      have hversion : evaluation.policyBundleVersion = v := Option.some.inj h
      have hanswers := evaluate_eq_ok.mp hevaluate
      rw [hversion] at hanswers
      exact ⟨_, hanswers⟩
  · rintro ⟨verdict, hanswers⟩
    obtain ⟨w, hw, hevaluate⟩ := evaluate_of_answers _ hanswers
    have hsame : w = v := by
      rw [← Option.some.injEq, ← PolicyBundleVersion.new_eq_some.mpr rfl, hw]
      exact PolicyBundleVersion.new_eq_some.mpr rfl
    rw [hevaluate, hsame]
    rfl

/-- The decision has a bundle version when there was a well-formed answer. -/
theorem ofEvaluation_policyBundleVersion_isSome :
    (AuthorityDecision.ofEvaluation evaluatorId decisionId facts now
        (e.evaluate facts grants)).policyBundleVersion.isSome = true ↔
      ∃ version, e.Answers facts grants "allow".toList version ∨
        e.Answers facts grants "deny".toList version := by
  rw [Option.isSome_iff_exists]
  simp only [ofEvaluation_policyBundleVersion_eq_some, Verdict.exists_iff, Verdict.text]
  constructor
  · rintro ⟨v, hanswers⟩
    exact ⟨v.text, hanswers⟩
  · rintro ⟨version, hanswers | hanswers⟩
    · obtain ⟨v, rfl, -⟩ := evaluate_of_answers .allow hanswers
      exact ⟨v, .inl hanswers⟩
    · obtain ⟨v, rfl, -⟩ := evaluate_of_answers .deny hanswers
      exact ⟨v, .inr hanswers⟩

end HttpPolicyEvaluator

namespace AuthorityRepositories

variable {G D : Type} {r : AuthorityRepositories G D} {crates : EvaluatorCrates}
  {e : HttpPolicyEvaluator crates} {evaluatorId : ActorId} {decisionId : DecisionId}
  {facts : PolicyFacts} {now : ℤ} {s : AuthorityStores G D}

/-- The grants are read with the grants' own state. -/
@[simp] theorem onGrants_apply : r.onGrants facts now s = ((r.matchingGrants facts now s.grants).1,
    { s with grants := (r.matchingGrants facts now s.grants).2 }) := rfl

/-- A decision is recorded in the recorder's own state. -/
@[simp] theorem onDecisions_apply {d : AuthorityDecision} :
    r.onDecisions d s = ((r.record d s.decisions).1,
      { s with
        decisions := (r.record d s.decisions).2
        recorded := s.recorded ++
          (r.record d s.decisions).1.toOption.toList.map fun _ => d }) := rfl

/-- Without the grants, nothing is decided. -/
theorem authorize_of_lookup_error {failure : AuthorityError}
    (h : (r.matchingGrants facts now s.grants).1 = .error failure) :
    (r.authorize e evaluatorId decisionId facts now s).1 = .error failure ∧
      (r.authorize e evaluatorId decisionId facts now s).2.recorded = s.recorded := by
  have hrun : r.authorize e evaluatorId decisionId facts now s = (.error failure,
      { s with grants := (r.matchingGrants facts now s.grants).2 }) := by
    rw [authorize, InfernalLaw.authorize]
    apply run_bind_error
    rw [ExceptT.run_mk, onGrants_apply, h]
  rw [hrun]
  exact ⟨rfl, rfl⟩

/-- With the grants, the decision is what the evaluation comes to, if it can be recorded. -/
theorem authorize_of_grants {grants : List Grant} {d : AuthorityDecision}
    (h : (r.matchingGrants facts now s.grants).1 = .ok grants)
    (hd : d = .ofEvaluation evaluatorId decisionId facts now (e.evaluate facts grants)) :
    (r.authorize e evaluatorId decisionId facts now s).1 = (r.record d s.decisions).1.map
      (fun _ => d) ∧ (r.authorize e evaluatorId decisionId facts now s).2.recorded =
        s.recorded ++ (r.record d s.decisions).1.toOption.toList.map fun _ => d := by
  have hrun : r.authorize e evaluatorId decisionId facts now s =
      (ExceptT.mk (r.onDecisions d) >>= fun _ => pure d : ExceptT AuthorityError _ _).run
        { s with grants := (r.matchingGrants facts now s.grants).2 } := by
    rw [authorize, InfernalLaw.authorize,
      run_bind_ok (a := grants) (by rw [ExceptT.run_mk, onGrants_apply, h]), hd]
    cases e.evaluate facts grants <;> rfl
  rw [hrun]
  cases hrecord : (r.record d s.decisions).1 with
  | error failure =>
    rw [run_bind_error (by rw [ExceptT.run_mk, onDecisions_apply, hrecord])]
    exact ⟨rfl, rfl⟩
  | ok _ =>
    rw [run_bind_ok (by rw [ExceptT.run_mk, onDecisions_apply, hrecord])]
    exact ⟨rfl, rfl⟩

/-- What is returned has been recorded, once. -/
theorem recorded_of_authorize {d : AuthorityDecision}
    (h : (r.authorize e evaluatorId decisionId facts now s).1 = .ok d) :
    (r.authorize e evaluatorId decisionId facts now s).2.recorded = s.recorded ++ [d] := by
  cases hgrants : (r.matchingGrants facts now s.grants).1 with
  | error failure =>
    rw [(authorize_of_lookup_error hgrants).1] at h
    cases h
  | ok grants =>
    obtain ⟨hanswer, hrecorded⟩ := authorize_of_grants hgrants
      (rfl : _ = AuthorityDecision.ofEvaluation evaluatorId decisionId facts now
        (e.evaluate facts grants))
    rw [hanswer] at h
    rw [hrecorded]
    cases hrecord : (r.record (.ofEvaluation evaluatorId decisionId facts now
        (e.evaluate facts grants)) s.decisions).1 with
    | error failure =>
      rw [hrecord] at h
      cases h
    | ok _ =>
      rw [hrecord] at h
      rw [← Except.ok.inj h]
      rfl

/-- Authorizing fails closed, and records each decision that it returns once. A decision is returned
only when it has been recorded; it allows only on a well-formed answer that does, has a bundle
version only on a well-formed answer, and is a recorded denial on everything else. When the grants
cannot be looked up or the decision cannot be recorded, there is none. -/
theorem authorize_fails_closed (r : AuthorityRepositories G D) (e : HttpPolicyEvaluator crates)
    (evaluatorId : ActorId) (decisionId : DecisionId) (facts : PolicyFacts) (now : ℤ)
    (s : AuthorityStores G D) :
    (∀ d, (r.authorize e evaluatorId decisionId facts now s).1 = .ok d →
      (r.authorize e evaluatorId decisionId facts now s).2.recorded = s.recorded ++ [d]) ∧
    (∀ failure, (r.matchingGrants facts now s.grants).1 = .error failure →
      (r.authorize e evaluatorId decisionId facts now s).1 = .error failure ∧
        (r.authorize e evaluatorId decisionId facts now s).2.recorded = s.recorded) ∧
    ∀ grants, (r.matchingGrants facts now s.grants).1 = .ok grants →
      ∃ d : AuthorityDecision,
        (d.id = decisionId ∧ d.facts = facts ∧ d.evaluator = evaluatorId ∧ d.decidedAt = now) ∧
        (d.verdict = .allow ↔ ∃ version, e.Answers facts grants "allow".toList version) ∧
        (∀ v, d.policyBundleVersion = some v ↔
          e.Answers facts grants "allow".toList v.text ∨
            e.Answers facts grants "deny".toList v.text) ∧
        (d.policyBundleVersion.isSome ↔
          ∃ version, e.Answers facts grants "allow".toList version ∨
            e.Answers facts grants "deny".toList version) ∧
        (∀ recorded, (r.record d s.decisions).1 = .ok recorded →
          (r.authorize e evaluatorId decisionId facts now s).1 = .ok d ∧
            (r.authorize e evaluatorId decisionId facts now s).2.recorded = s.recorded ++ [d]) ∧
        ∀ failure, (r.record d s.decisions).1 = .error failure →
          (r.authorize e evaluatorId decisionId facts now s).1 = .error failure ∧
            (r.authorize e evaluatorId decisionId facts now s).2.recorded = s.recorded := by
  refine ⟨fun d h => recorded_of_authorize h, fun failure h => authorize_of_lookup_error h,
    fun grants h =>
    ⟨.ofEvaluation evaluatorId decisionId facts now (e.evaluate facts grants), ⟨rfl, rfl, rfl, rfl⟩,
      HttpPolicyEvaluator.ofEvaluation_verdict_eq_allow, fun v => ?_,
      HttpPolicyEvaluator.ofEvaluation_policyBundleVersion_isSome, fun recorded hr => ?_,
      fun failure hr => ?_⟩⟩
  · rw [HttpPolicyEvaluator.ofEvaluation_policyBundleVersion_eq_some]
    exact Verdict.exists_iff
  · rw [(authorize_of_grants h rfl).1, (authorize_of_grants h rfl).2, hr]
    exact ⟨rfl, rfl⟩
  · rw [(authorize_of_grants h rfl).1, (authorize_of_grants h rfl).2, hr]
    exact ⟨rfl, List.append_nil _⟩

end AuthorityRepositories

end InfernalLaw
