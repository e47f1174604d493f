import InfernalLaw.Http.RequestRoutes
import InfernalLaw.Infrastructure.WorkClaimRepository

/-!
# Records that belong to a service

The handlers that look a subscription, a route or a request up by the identifier that the caller
names: `disable_subscription`, `claim_route` and `find_routed_request`. Each lets the caller reach
what is its own, and answers for the rest as if it did not exist.
-/

namespace InfernalLaw

open Postgres.Proc (autocommit ensure orFail query)

/-! ## Lookups -/

/-- `find` of the route repository. -/
def PostgresRouteRepository.find (routeId : RouteId) : Fallible RequestError (Option Route) := do
  let row ← orFail .ofDatabase (autocommit (query "FIND_BY_ID_SQL" fun d =>
    d.requestRoutes.find? fun r => r.routeId = routeId))
  ensure (row.elim (.ok none) fun row => (routeFromRow row).map some)

/-- `RoutedRequestQuery::find_for_destination`. -/
def RoutedRequestQuery.findForDestination (caller : ActorId) (routeId : RouteId) :
    Fallible RequestError (Option AcceptedRequest) := do
  let route ← PostgresRouteRepository.find routeId
  match route with
  | some route =>
    if route.destinationService = caller then
      PostgresRequestRepository.find route.sourceService route.requestId
    else return none
  | none => return none

/-- `ClaimRequest::lease_expires_at`. -/
def ClaimRequest.leaseExpiresAt (dto : ClaimRequest) (now : ℤ) : Option ℤ :=
  let value := now + dto.leaseSeconds
  if value < 2 ^ 63 ∧ -2 ^ 63 ≤ value ∧ now < value then some value else none

/-! ## The handlers -/

section

variable (crates : HttpCrates)

/-- What `check_authorized` answers if the caller may not proceed, for an action on
subscriptions. -/
def checkAuthorized (evaluator : PolicyEvaluator) (decisionId : DecisionId) (serviceId : ActorId)
    (action : ActionName) (now : ℤ) : Sql (Option Response) :=
  (AuthorityService.authorize evaluator decisionId (.forRequestAcceptance serviceId action
    Scope.wildcard noArtifactSchemaVersions) now).bind fun
    | .ok decision =>
      if decision.isAllowed then .done none
      else .done (some (errorResponse crates "403 Forbidden" .subscriptionNotAuthorized))
    | .error _ => .done (some (errorResponse crates "503 Service Unavailable" .internalError))

/-- The action that `disable_subscription` is authorized by. -/
def subscriptionDisable : ActionName := ⟨"subscription.disable".toList, by decide⟩

/-- `disable_subscription`, which reads the clock for the decision and then for the subscription. -/
def disableSubscription (evaluator : PolicyEvaluator) (decisionId : DecisionId) (decidedAt now : ℤ)
    (id : Str) (serviceId : ActorId) : Sql Response :=
  match crates.parseUuid id with
  | none => .done (errorResponse crates "400 Bad Request" .invalidSubscriptionRequest)
  | some id =>
    (checkAuthorized crates evaluator decisionId serviceId subscriptionDisable decidedAt).bind fun
      | some response => .done response
      | none =>
        (SubscriptionService.disable serviceId ⟨id⟩ now).bind fun
          | .ok subscription => .done (jsonResponse crates "200 OK" (subscription.toObject crates))
          | .error e => .done (subscriptionErrorResponse crates e)

/-- `claim_route`, with the claim identifier that is drawn. -/
def claimRoute (claimId : ClaimId) (now : ℤ) (request : ParsedRequest) (workerService : ActorId)
    (workerInstance : InstanceId) (routeId : Str) : Sql Response :=
  match crates.parseUuid routeId with
  | none => .done (errorResponse crates "400 Bad Request" .invalidWorkClaimRequest)
  | some routeId =>
    if request.isJson = false then
      .done (errorResponse crates "415 Unsupported Media Type" .invalidWorkClaimRequest)
    else
      match (crates.claimRequest request.body).bind fun dto => dto.leaseExpiresAt now with
      | none => .done (errorResponse crates "400 Bad Request" .invalidWorkClaimRequest)
      | some leaseExpiresAt =>
        (WorkClaimService.claim claimId ⟨routeId⟩ workerService workerInstance leaseExpiresAt
          now).bind fun
          | .ok claim => .done (jsonResponse crates "201 Created" (claim.toObject crates))
          | .error e => .done (workClaimErrorResponse crates e)

/-- `find_routed_request`. -/
def findRoutedRequest (routeId : Str) (serviceId : ActorId) : Sql Response :=
  match crates.parseUuid routeId with
  | none => .done (errorResponse crates "400 Bad Request" .invalidRouteId)
  | some routeId =>
    (RoutedRequestQuery.findForDestination serviceId ⟨routeId⟩).run.bind fun
      | .error e => .done (requestErrorResponse crates e)
      | .ok none => .done (errorResponse crates "404 Not Found" .claimNotFound)
      | .ok (some record) => .done (jsonResponse crates "200 OK" (record.toObject crates))

end

end InfernalLaw
