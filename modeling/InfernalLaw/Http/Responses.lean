import InfernalLaw.Http.ReadRequest
import InfernalLaw.Kernel.Authority
import InfernalLaw.Kernel.Crates
import InfernalLaw.Kernel.Requests
import InfernalLaw.Kernel.Subscriptions
import InfernalLaw.Kernel.WorkClaims

/-!
# Responses

What the handlers of governed requests answer: a status with a flat JSON object, for a record or for
an error. How JSON is read and written is `serde`'s matter, and a parameter here.
-/

namespace InfernalLaw

/-! ## JSON -/

/-- A value in an object that is written. -/
inductive JsonValue where
  | null
  | bool (value : Bool)
  | number (value : ℤ)
  | string (value : Str)
  deriving DecidableEq

/-- An object that is written, with its fields in the order of their declaration. -/
abbrev JsonObject : Type := List (String × JsonValue)

/-- `SubmitRequestRequest`. -/
structure SubmitRequestRequest where
  action : Str
  scope : Str
  artifactSchemaVersionId : Str
  permissionPolicySchemaVersionId : Str
  deriving DecidableEq

/-- `ClaimRequest`. -/
structure ClaimRequest where
  leaseSeconds : ℤ
  deriving DecidableEq

/-- The functions of other crates that the handlers use. -/
structure HttpCrates extends Crates where
  /-- `serde_json::to_string`. -/
  toJson : JsonObject → Option Str
  /-- `serde_json::from_slice`, for a submission. -/
  submitRequestRequest : List UInt8 → Option SubmitRequestRequest
  /-- `serde_json::from_slice`, for a claim. -/
  claimRequest : List UInt8 → Option ClaimRequest

/-! ## Responses -/

/-- `Response`. -/
structure Response where
  status : String
  contentType : String
  body : Str
  deriving DecidableEq

/-- `json_response`. -/
def jsonResponse (crates : HttpCrates) (status : String) (value : JsonObject) : Response :=
  match crates.toJson value with
  | some body => { status, contentType := "application/json", body := body ++ ['\n'] }
  | none =>
    { status := "500 Internal Server Error", contentType := "application/json"
      body := "\x7b\"code\":\"internal_error\",".toList ++
        "\"message\":\"response serialization failed\"\x7d\n".toList }

/-- `is_json_content_type`. -/
def isJsonContentType (value : Str) : Bool :=
  (Str.trim (value.takeWhile (· ≠ ';'))).eqIgnoreAsciiCase "application/json".toList

/-- The request's content type is JSON. -/
def ParsedRequest.isJson (request : ParsedRequest) : Bool :=
  request.contentType.any isJsonContentType

/-- `GovernedErrorResponse`. -/
structure GovernedErrorResponse where
  code : String
  message : String
  deriving DecidableEq

namespace GovernedErrorResponse

/-- The object that is written for an error. -/
def toObject (e : GovernedErrorResponse) : JsonObject :=
  [("code", .string e.code.toList), ("message", .string e.message.toList)]

/-- The answer to a request that is not authenticated. -/
def authenticationRejected : GovernedErrorResponse :=
  ⟨"request_rejected", "request authentication failed"⟩

/-- The answer to a subscription request that cannot be read. -/
def invalidSubscriptionRequest : GovernedErrorResponse :=
  ⟨"invalid_subscription_request", "subscription request is invalid"⟩

/-- The answer where there is no such subscription, or it is another service's. -/
def subscriptionNotFound : GovernedErrorResponse :=
  ⟨"subscription_not_found", "subscription was not found"⟩

/-- The answer to a subscription that is there, or disabled, already. -/
def subscriptionConflict : GovernedErrorResponse :=
  ⟨"subscription_conflict", "subscription already exists in that state"⟩

/-- The answer to a failure of the kernel's own. -/
def internalError : GovernedErrorResponse :=
  ⟨"internal_error", "request could not be completed"⟩

/-- The answer to a subscription request that no grant allows. -/
def subscriptionNotAuthorized : GovernedErrorResponse :=
  ⟨"subscription_not_authorized", "subscription action is not authorized"⟩

/-- The answer to a submission that cannot be read. -/
def invalidRequest : GovernedErrorResponse :=
  ⟨"invalid_request", "request submission is invalid"⟩

/-- The answer to a request identifier that other content has used. -/
def requestConflict : GovernedErrorResponse :=
  ⟨"request_conflict", "request ID is bound to different content"⟩

/-- The answer where there is no such request, or it is another service's. -/
def requestNotFound : GovernedErrorResponse := ⟨"request_not_found", "request was not found"⟩

/-- The answer to a route's identifier that is no UUID. -/
def invalidRouteId : GovernedErrorResponse := ⟨"invalid_route_id", "route ID must be a UUID"⟩

/-- The answer to a request that no grant allows. -/
def requestNotAuthorized : GovernedErrorResponse :=
  ⟨"request_not_authorized", "request is not authorized"⟩

/-- The answer to a request on a claim that cannot be read. -/
def invalidWorkClaimRequest : GovernedErrorResponse :=
  ⟨"invalid_work_claim_request", "work claim request is invalid"⟩

/-- The answer to a publication that cannot be read. -/
def invalidSchemaRequest : GovernedErrorResponse :=
  ⟨"invalid_schema_request", "schema request is invalid"⟩

/-- The answer to a publication under a name that another service owns. -/
def schemaNamespaceConflict : GovernedErrorResponse :=
  ⟨"schema_namespace_conflict", "schema name is owned by a different service"⟩

/-- The answer where there is no such claim or route. -/
def claimNotFound : GovernedErrorResponse := ⟨"claim_not_found", "claim or route was not found"⟩

/-- The answer where another claim of the route is in force. -/
def routeAlreadyClaimed : GovernedErrorResponse :=
  ⟨"route_already_claimed", "route already has an active claim"⟩

/-- The answer where the work of the route is done. -/
def routeAlreadyCompleted : GovernedErrorResponse :=
  ⟨"route_already_completed", "route has already been completed"⟩

/-- The answer to a fencing token that is not the current claim's. -/
def claimFenced : GovernedErrorResponse :=
  ⟨"claim_fenced", "fencing token does not match the current active claim"⟩

end GovernedErrorResponse

section

variable (crates : HttpCrates)

/-- `json_response` of an error. -/
def errorResponse (status : String) (e : GovernedErrorResponse) : Response :=
  jsonResponse crates status e.toObject

/-- `authentication_rejected`. -/
def authenticationRejected : Response :=
  errorResponse crates "401 Unauthorized" .authenticationRejected

/-- `request_error_response`. -/
def requestErrorResponse : RequestError → Response
  | .invalidRequestId | .invalidActionName | .invalidAcceptedAt =>
    errorResponse crates "400 Bad Request" .invalidRequest
  | .requestIdConflict _ => errorResponse crates "409 Conflict" .requestConflict
  | .unknownSource _ => authenticationRejected crates
  | .unknownSchemaVersion | .unknownSubscription | .invalidRouteId | .repository _ =>
    errorResponse crates "503 Service Unavailable" .internalError

/-- `subscription_error_response`. -/
def subscriptionErrorResponse : SubscriptionError → Response
  | .invalidEventType | .invalidSubscriptionId | .invalidTimestamp =>
    errorResponse crates "400 Bad Request" .invalidSubscriptionRequest
  | .notFound _ => errorResponse crates "404 Not Found" .subscriptionNotFound
  | .alreadyDisabled _ | .duplicateActive _ _ =>
    errorResponse crates "409 Conflict" .subscriptionConflict
  | .unknownService _ => authenticationRejected crates
  | .alreadyExists _ | .repository _ =>
    errorResponse crates "503 Service Unavailable" .internalError

/-- `work_claim_error_response`. -/
def workClaimErrorResponse : WorkClaimError → Response
  | .invalidClaimId | .invalidFencingToken | .invalidLease | .invalidTimestamp =>
    errorResponse crates "400 Bad Request" .invalidWorkClaimRequest
  | .routeNotFound _ | .notFound _ => errorResponse crates "404 Not Found" .claimNotFound
  | .alreadyClaimed _ => errorResponse crates "409 Conflict" .routeAlreadyClaimed
  | .alreadyCompleted _ => errorResponse crates "409 Conflict" .routeAlreadyCompleted
  | .fenced => errorResponse crates "409 Conflict" .claimFenced
  | .repository _ => errorResponse crates "503 Service Unavailable" .internalError

/-- `schema_error_response`. -/
def schemaErrorResponse : AuthorityError → Response
  | .invalidSchemaName | .invalidSchemaVersion =>
    errorResponse crates "400 Bad Request" .invalidSchemaRequest
  | .schemaNamespaceConflict _ => errorResponse crates "409 Conflict" .schemaNamespaceConflict
  | _ => errorResponse crates "503 Service Unavailable" .internalError

/-! ## Records -/

/-- `AcceptedRequestResponse`. -/
def AcceptedRequest.toObject (record : AcceptedRequest) : JsonObject :=
  [("request_id", .string (crates.displayUuid record.request.id.uuid)),
    ("source_service_id", .string (crates.displayUuid record.request.sourceService.uuid)),
    ("action", .string record.request.action.text), ("scope", .string record.request.scope.text),
    ("artifact_schema_version_id",
      .string (crates.displayUuid record.request.schemaVersions.artifact.uuid)),
    ("permission_policy_schema_version_id",
      .string (crates.displayUuid record.request.schemaVersions.permissionPolicy.uuid)),
    ("accepted_at", .number record.acceptedAt)]

/-- `SubscriptionResponse`. -/
def Subscription.toObject (s : Subscription) : JsonObject :=
  [("id", .string (crates.displayUuid s.id.uuid)),
    ("service_id", .string (crates.displayUuid s.serviceId.uuid)),
    ("event_type", .string s.eventType.text), ("created_at", .number s.createdAt),
    ("disabled_at", s.disabledAt.elim .null .number), ("active", .bool s.isActive)]

/-- `status_str`. -/
def WorkClaimStatus.text : WorkClaimStatus → String
  | .active => "active"
  | .completed => "completed"
  | .released => "released"
  | .expired => "expired"

/-- `WorkClaimResponse`. -/
def WorkClaim.toObject (c : WorkClaim) : JsonObject :=
  [("claim_id", .string (crates.displayUuid c.id.uuid)),
    ("route_id", .string (crates.displayUuid c.routeId.uuid)),
    ("worker_service_id", .string (crates.displayUuid c.workerService.uuid)),
    ("worker_instance_id", .string (crates.displayUuid c.workerInstance.uuid)),
    ("fencing_token", .number c.fencingToken), ("status", .string c.status.text.toList),
    ("claimed_at", .number c.claimedAt), ("lease_expires_at", .number c.leaseExpiresAt)]

end

end InfernalLaw
