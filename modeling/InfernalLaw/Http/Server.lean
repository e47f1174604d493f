import InfernalLaw.Http.EligibleRoutes
import InfernalLaw.Http.Enrollments
import InfernalLaw.Http.Gate

/-!
# The server

`handle_connection`: a request is read, dispatched, and answered. `dispatch` serves the routes of
enrollment and of health by itself, and everything that it classifies as governed only once the gate
has admitted the request.
-/

namespace InfernalLaw

open Postgres (DbError Proc)
open Postgres.Proc (autocommit query)
open Reading (Schedule)

/-! ## Responses -/

/-- `text_response`. -/
def textResponse (status : String) (body : String) : Response :=
  { status, contentType := "text/plain", body := body.toList }

/-- The response to a method that a route does not have. -/
def methodNotAllowed : Response := textResponse "405 Method Not Allowed" "method not allowed\n"

/-- The response to a path that no route has. -/
def pathNotFound : Response := textResponse "404 Not Found" "not found\n"

/-- `route`. -/
def route (path : Str) : Response :=
  if path = "/".toList then
    { status := "200 OK", contentType := "application/json"
      body := "\x7b\"service\":\"infernal-law\"\x7d\n".toList }
  else if path = "/health/live".toList then textResponse "200 OK" "ok\n"
  else pathNotFound

/-- `readiness_response`. -/
def readinessResponse (databaseReady : Bool) : Response :=
  if databaseReady then textResponse "200 OK" "ok\n"
  else textResponse "503 Service Unavailable" "database unavailable\n"

/-- `MalformedRequestResponse`. -/
structure MalformedRequestResponse where
  code : String
  message : String
  deriving DecidableEq

namespace MalformedRequestResponse

/-- The object that is written for an error. -/
def toObject (e : MalformedRequestResponse) : JsonObject :=
  [("code", .string e.code.toList), ("message", .string e.message.toList)]

/-- The answer to a request that cannot be read. -/
def malformed : MalformedRequestResponse :=
  ⟨"malformed_request", "the HTTP request could not be parsed"⟩

/-- The answer to a body over the limit. -/
def payloadTooLarge : MalformedRequestResponse :=
  ⟨"payload_too_large", "the request body exceeds the maximum accepted size"⟩

end MalformedRequestResponse

/-! ## The evaluator -/

/-- What `policy_evaluator_from_env` reads, and the client that it sets up. -/
structure EvaluatorEnvironment where
  /-- `env::var`. -/
  var : String → Option Str
  /-- `std::fs::read`. -/
  read : Str → Option (List UInt8)
  /-- `HttpPolicyEvaluator::new`, or `with_extra_root_certificate` where there is a certificate. -/
  connect : Str → Option (List UInt8) →
    Option (PolicyFacts → List Grant → Except AuthorityError PolicyEvaluation)

section

variable (crates : ServerCrates)

/-- `policy_evaluator_from_env`. -/
def policyEvaluatorFromEnv (env : EvaluatorEnvironment) : Except Response PolicyEvaluator := do
  let unavailable : Response :=
    errorResponse crates.toHttpCrates "503 Service Unavailable" .internalError
  let evaluatorAuthority ← (env.var "POLICY_EVALUATOR_AUTHORITY").elim (.error unavailable) .ok
  let evaluatorId ← ((env.var "POLICY_EVALUATOR_ID").bind crates.parseUuid).elim
    (.error unavailable) .ok
  let evaluatorCaCert ← (env.var "POLICY_EVALUATOR_CA_CERT_PATH").elim (.ok none) fun path =>
    ((env.read path).elim (.error unavailable) fun pem => .ok (some pem))
  let evaluate ← (env.connect evaluatorAuthority evaluatorCaCert).elim (.error unavailable) .ok
  return { id := ⟨evaluatorId⟩, evaluate }

/-! ## Lists -/

/-- `json_response` of a list. -/
def jsonListResponse (status field : String) (values : List JsonObject) : Response :=
  jsonResponse { crates.toHttpCrates with toJson := fun _ => crates.toJsonList field values } status
    []

/-- `RouteResponse`. -/
def Route.toObject (r : Route) : JsonObject :=
  [("route_id", .string (crates.displayUuid r.id.uuid)),
    ("request_id", .string (crates.displayUuid r.requestId.uuid)),
    ("subscription_id", .string (crates.displayUuid r.subscriptionId.uuid)),
    ("destination_service_id", .string (crates.displayUuid r.destinationService.uuid)),
    ("created_at", .number r.createdAt)]

/-- The query of `list_subscriptions` asks for the active ones. -/
def asksActiveOnly (pathAndQuery : Str) : Bool :=
  (Str.splitOnce ['?'] pathAndQuery).any fun parts =>
    (parts.2.splitOn '&').any fun pair => pair = "active=true".toList

/-- `list_subscriptions`. -/
def listSubscriptions (pathAndQuery : Str) (serviceId : ActorId) : Sql Response :=
  (if asksActiveOnly pathAndQuery then SubscriptionService.listActive serviceId
    else SubscriptionService.list serviceId).bind fun
    | .ok values =>
      .done (jsonListResponse crates "200 OK" "subscriptions"
        (values.map fun s => s.toObject crates.toHttpCrates))
    | .error e => .done (subscriptionErrorResponse crates.toHttpCrates e)

/-- `list_eligible_routes`. -/
def listEligibleRoutes (serviceId : ActorId) (now : ℤ) : Sql Response :=
  (EligibleRouteQuery.eligibleFor serviceId now).run.bind fun
    | .ok values =>
      .done (jsonListResponse crates "200 OK" "routes" (values.map fun r => r.toObject crates))
    | .error e => .done (requestErrorResponse crates.toHttpCrates e)

/-- `KernelIdentityResponse`. -/
def InstancePublicKey.toObject (key : InstancePublicKey) : JsonObject :=
  [("algorithm", .string algorithm),
    ("instance_id", .string (crates.displayUuid key.instanceId.uuid)),
    ("key_id", .string (crates.displayUuid key.keyId.uuid)),
    ("public_key", .string (crates.toMutationCrates.encodeUrlSafe key.publicKey.bytes)),
    ("fingerprint",
      .string (crates.toMutationCrates.encodeUrlSafe (crates.sha256 key.publicKey.bytes).bytes))]

/-! ## Dispatch -/

/-- `Application`, as far as `dispatch` uses it. -/
structure Application where
  /-- `instance_public_key`. -/
  instancePublicKey : InstancePublicKey
  /-- Of the `instance_registry`. -/
  leasePolicy : LeasePolicy

/-- What a connection draws: from the transport, the environment, the clock and the random
source. -/
structure ConnectionDraws extends MutationDraws where
  arrival : Schedule
  reviewerEnvironment : ReviewerEnvironment
  evaluatorEnvironment : EvaluatorEnvironment
  challenge : EnrollmentChallenge
  /-- `unix_time()`, for an enrollment and for the gate. -/
  arrivedAt : ℤ

/-- What `dispatch` does with an admitted request. -/
def dispatchAdmitted (app : Application) (draws : ConnectionDraws) (request : ParsedRequest)
    (verified : VerifiedServiceRequest) : Sql Response :=
  let authority := policyEvaluatorFromEnv crates draws.evaluatorEnvironment
  match dispatchGoverned authority.toOption.isSome request.method request.path with
  | .publishSchema =>
    publishSchema crates.toMutationCrates draws.toMutationDraws request verified.serviceId
  | .listEligibleRoutes => listEligibleRoutes crates verified.serviceId draws.now
  | .claimRoute routeId =>
    claimRoute crates.toHttpCrates draws.claimId draws.now request verified.serviceId
      verified.instanceId routeId
  | .findRoutedRequest routeId => findRoutedRequest crates.toHttpCrates routeId verified.serviceId
  | .renewClaimRoute claimId => renewClaimRoute crates.toClaimActionCrates draws.now request claimId
  | .releaseClaimRoute claimId => releaseClaimRoute crates.toClaimActionCrates draws.now
      request claimId
  | .completeClaimRoute claimId =>
    completeClaimRoute crates.toClaimActionCrates draws.now request claimId
  | .renewInstanceRoute =>
    renewInstanceRoute crates.toMutationCrates app.leasePolicy draws.toMutationDraws request
      verified.instanceId
  | .unavailable =>
      .done (errorResponse crates.toHttpCrates "503 Service Unavailable" .internalError)
  | .requestRoute call =>
    match authority, call with
    | .error response, _ => .done response
    | .ok evaluator, .submitRequest =>
      submitRequest crates.toHttpCrates evaluator draws.submission request verified.serviceId
        ⟨verified.requestId⟩
    | .ok _, .findRequest id => findRequest crates.toHttpCrates id verified.serviceId
    | .ok _, .methodNotAllowed => .done methodNotAllowed
    | .ok _, .notFound => .done pathNotFound
  | .subscriptionRoute call =>
    match authority, call with
    | .error response, _ => .done response
    | .ok evaluator, .createSubscription =>
      createSubscription crates.toMutationCrates { draws.toMutationDraws with evaluator } request
        verified.serviceId
    | .ok _, .listSubscriptions => listSubscriptions crates request.path verified.serviceId
    | .ok evaluator, .disableSubscription id =>
      disableSubscription crates.toHttpCrates evaluator draws.submission.decisionId draws.decidedAt
        draws.now id verified.serviceId
    | .ok _, .methodNotAllowed => .done methodNotAllowed
    | .ok _, .notFound => .done pathNotFound

/-- What `dispatch` does with a governed request. -/
def dispatchBehindGate (app : Application) (draws : ConnectionDraws) (request : ParsedRequest) :
    Sql Response :=
  if isSupportedGovernedMethod request.method request.path = false then .done methodNotAllowed
  else
    match request.asGoverned with
    | none => .done (authenticationRejected crates.toHttpCrates)
    | some governed =>
      (authenticateGovernedRequest crates.toHttpCrates
        (admitService crates.toMutationCrates.toKeyCrates) governed draws.arrivedAt).bind fun
        | .error response => .done response
        | .ok admitted => dispatchAdmitted crates app draws request admitted.verified

/-- The response when there is no reviewer. -/
def reviewerUnavailable (e : EnrollmentError) : Response :=
  jsonError crates "503 Service Unavailable" (.fromEnrollmentError e)

/-- What `dispatch` does with a request for a challenge. -/
def dispatchChallenge (draws : ConnectionDraws) (request : ParsedRequest) : Sql Response :=
  if request.method ≠ "POST".toList then .done methodNotAllowed
  else
    match parseWorkloadChallengeRequest crates request.contentType request.body with
    | .error response => .done response
    | .ok dto =>
      match KubernetesTokenReviewer.fromEnv draws.reviewerEnvironment with
      | .error e => .done (reviewerUnavailable crates e)
      | .ok reviewer =>
        issueWorkloadChallenge crates (reviewer.review draws.reviewerEnvironment) draws.challenge
          dto draws.arrivedAt

/-- What `dispatch` does with an enrollment. -/
def dispatchEnrollment (app : Application) (draws : ConnectionDraws) (request : ParsedRequest) :
    Sql Response :=
  if request.method ≠ "POST".toList then .done methodNotAllowed
  else
    match parseEnrollmentRequest crates request.contentType request.body with
    | .error response => .done response
    | .ok enrollment =>
      match KubernetesTokenReviewer.fromEnv draws.reviewerEnvironment with
      | .error e => .done (reviewerUnavailable crates e)
      | .ok reviewer =>
        authenticateEnrollment crates (reviewer.review draws.reviewerEnvironment) app.leasePolicy
          enrollment draws.arrivedAt

/-- `check_connection`. -/
def checkConnection : Sql (Except DbError Unit) := autocommit (query "SELECT 1" fun _ => ())

/-- `dispatch`. -/
def dispatch (app : Application) (draws : ConnectionDraws) (request : ParsedRequest) :
    Sql Response :=
  if request.path = "/v1/enrollments/challenges".toList then dispatchChallenge crates draws request
  else if request.path = "/v1/enrollments".toList then dispatchEnrollment crates app draws request
  else if isGovernedRoute request.path then dispatchBehindGate crates app draws request
  else if request.path = "/health/ready".toList then
    checkConnection.bind fun answer => .done (readinessResponse answer.isOk)
  else if request.path = "/v1/kernel-identity".toList then
    if request.method ≠ "GET".toList then .done methodNotAllowed
    else .done (jsonResponse crates.toHttpCrates "200 OK" (app.instancePublicKey.toObject crates))
  else .done (route request.path)

/-- The response of `handle_connection` to the bytes of a connection. -/
def handleConnection (app : Application) (draws : ConnectionDraws) (stream : List UInt8) :
    Sql Response :=
  match readRequest draws.arrival stream with
  | .ok request => dispatch crates app draws request
  | .error .payloadTooLarge =>
    .done (jsonResponse crates.toHttpCrates "413 Payload Too Large"
      MalformedRequestResponse.payloadTooLarge.toObject)
  | .error .malformed =>
    .done (jsonResponse crates.toHttpCrates "400 Bad Request"
      MalformedRequestResponse.malformed.toObject)

end

end InfernalLaw
