import InfernalLaw.Http.Responses
import InfernalLaw.Infrastructure.AuthorityRepository
import InfernalLaw.Infrastructure.RequestRepository
import InfernalLaw.Infrastructure.RouteRepository
import InfernalLaw.Infrastructure.SubscriptionRepository

/-!
# Requests over HTTP

`submit_request`: a submission is authorized, accepted, and routed to the subscriptions that match,
in this order, whether it is new or a retry. `find_request` reads what was accepted.
-/

namespace InfernalLaw

open Postgres (DbError)
open Postgres.Proc (autocommit ensure orFail query)

/-! ## Submissions -/

/-- `SubmitRequestRequestError`. -/
inductive SubmitRequestRequestError where
  | invalidScope
  | invalidSchemaVersionId
  | invalidAction
  deriving DecidableEq

/-- `SubmitRequestRequest::into_request`. -/
def SubmitRequestRequest.intoRequest (crates : Crates) (dto : SubmitRequestRequest)
    (sourceService : ActorId) (requestId : RequestId) :
    Except SubmitRequestRequestError Request := do
  let scope ← (Scope.new dto.scope).elim (.error .invalidScope) .ok
  let artifact ← (crates.parseUuid dto.artifactSchemaVersionId).elim
    (.error .invalidSchemaVersionId) .ok
  let permissionPolicy ← (crates.parseUuid dto.permissionPolicySchemaVersionId).elim
    (.error .invalidSchemaVersionId) .ok
  (Request.restore requestId sourceService dto.action scope
    ⟨⟨artifact⟩, ⟨permissionPolicy⟩⟩).mapError fun _ => .invalidAction

/-! ## Routing -/

/-- The text of an error of the subscriptions. -/
def SubscriptionError.failure : SubscriptionError → Failure
  | alreadyExists id => .kernel s!"subscription {Uuid.display id.uuid} already exists"
  | alreadyDisabled id => .kernel s!"subscription {Uuid.display id.uuid} is already disabled"
  | duplicateActive serviceId eventType =>
    .kernel (s!"service {Uuid.display serviceId.uuid} already has an active subscription for " ++
      String.ofList eventType.text)
  | invalidEventType => .kernel "event type must contain lowercase dot-separated name segments"
  | invalidSubscriptionId => .kernel "subscription ID must be a valid UUID"
  | invalidTimestamp => .kernel "subscription timestamp is invalid"
  | notFound id => .kernel s!"subscription {Uuid.display id.uuid} was not found"
  | repository failure => failure
  | unknownService id => .kernel s!"service identity {Uuid.display id.uuid} was not found"

namespace SubscriptionRouter

/-- A route for each of the subscriptions, up to the first error. The `n`-th route that is made
draws the `n`-th identifier. -/
def materializeEach (routeIds : ℕ → RouteId) (sourceService : ActorId) (requestId : RequestId)
    (now : ℤ) : ℕ → List Subscription → Fallible RequestError (List Route)
  | _, [] => return []
  | n, subscription :: rest => do
    let route ← RouteService.materialize (routeIds n) sourceService requestId subscription.id
      subscription.serviceId now
    let routes ← materializeEach routeIds sourceService requestId now (n + 1) rest
    return route :: routes

/-- `SubscriptionRouter::materialize_routes`. -/
def materializeRoutes (routeIds : ℕ → RouteId) (sourceService : ActorId) (requestId : RequestId)
    (action : ActionName) (now : ℤ) : Fallible RequestError (List Route) := do
  let eventType ← ensure ((EventType.new action.text).elim
    (.error (.repository (.kernel "action is not a valid event type"))) .ok)
  let matching ← ExceptT.mk ((SubscriptionService.findActiveByEventType eventType).bind
    fun r => .done (r.mapError fun e => .repository e.failure))
  materializeEach routeIds sourceService requestId now 0
    (matching.filter fun subscription => subscription.deliveryMode = .inclusive)

end SubscriptionRouter

/-! ## The handlers -/

/-- The identifiers and the times that a submission draws. -/
structure SubmissionDraws where
  decisionId : DecisionId
  routeIds : ℕ → RouteId
  /-- `unix_time()`. -/
  now : ℤ
  /-- The time of the database at the beginning of the acceptance. -/
  acceptedAt : ℤ

section

variable (crates : HttpCrates)

/-- What `submit_request` does with a request that has been authorized. -/
def acceptSubmission (draws : SubmissionDraws) (submitted : Request) : Sql Response :=
  (PostgresRequestRepository.accept submitted (submitted.fingerprint crates.sha256)
      draws.acceptedAt).bind fun
    | .error e => .done (requestErrorResponse crates e)
    | .ok acceptance =>
      let status := if acceptance.isFresh then "201 Created" else "200 OK"
      let record := acceptance.record
      -- An error of the router is printed and does not change the response.
      (SubscriptionRouter.materializeRoutes draws.routeIds record.request.sourceService
          record.request.id record.request.action draws.now).run.bind fun _ =>
        .done (jsonResponse crates status (record.toObject crates))

/-- `submit_request`. -/
def submitRequest (evaluator : PolicyEvaluator) (draws : SubmissionDraws) (request : ParsedRequest)
    (serviceId : ActorId) (envelopeRequestId : RequestId) : Sql Response :=
  if request.isJson = false then
    .done (errorResponse crates "415 Unsupported Media Type" .invalidRequest)
  else
    match crates.submitRequestRequest request.body with
    | none => .done (errorResponse crates "400 Bad Request" .invalidRequest)
    | some dto =>
      match dto.intoRequest crates.toCrates serviceId envelopeRequestId with
      | .error _ => .done (errorResponse crates "400 Bad Request" .invalidRequest)
      | .ok submitted =>
        let facts := PolicyFacts.forRequestAcceptance serviceId submitted.action submitted.scope
          submitted.schemaVersions
        (AuthorityService.authorize evaluator draws.decisionId facts draws.now).bind fun
          | .error _ => .done (errorResponse crates "503 Service Unavailable" .internalError)
          | .ok decision =>
            if decision.isAllowed then acceptSubmission crates draws submitted
            else .done (errorResponse crates "403 Forbidden" .requestNotAuthorized)

/-- `find` of the request repository. -/
def PostgresRequestRepository.find (sourceService : ActorId) (requestId : RequestId) :
    Fallible RequestError (Option AcceptedRequest) := do
  let row ← orFail .ofDatabase (autocommit (findRequest sourceService requestId))
  ensure (row.elim (.ok none) fun row => (acceptedRequestFromRow row).map some)

/-- `find_request`. -/
def findRequest (id : Str) (serviceId : ActorId) : Sql Response :=
  match crates.parseUuid id with
  | none => .done (errorResponse crates "400 Bad Request" .invalidRequest)
  | some id =>
    (PostgresRequestRepository.find serviceId ⟨id⟩).run.bind fun
      | .error e => .done (requestErrorResponse crates e)
      | .ok none => .done (errorResponse crates "404 Not Found" .requestNotFound)
      | .ok (some record) => .done (jsonResponse crates "200 OK" (record.toObject crates))

end

end InfernalLaw
