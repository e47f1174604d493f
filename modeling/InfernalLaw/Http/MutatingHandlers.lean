import InfernalLaw.Http.Dispatch
import InfernalLaw.Http.EnrollmentDto
import InfernalLaw.Infrastructure.InstanceRegistryRepository

/-!
# Mutating handlers

The other handlers of mutating requests, `publish_schema`, `create_subscription` and
`renew_instance_route`, and the handler that `dispatch` gives an admitted request to. What the gate
has said about a retry is not among the arguments of any of them.
-/

namespace InfernalLaw

/-! ## Bodies -/

/-- `PublishSchemaRequest`. -/
structure PublishSchemaRequest where
  kind : Str
  name : Str
  contentDigest : Str
  deriving DecidableEq

/-- `CreateSubscriptionRequest`. -/
structure CreateSubscriptionRequest where
  eventType : Str
  deriving DecidableEq

/-- `InstanceRenewalRequest`. -/
structure InstanceRenewalRequest where
  expectedRevision : ℤ
  deriving DecidableEq

/-- The functions of other crates that the handlers use. -/
structure MutationCrates extends ClaimActionCrates where
  /-- `serde_json::from_slice`, for a schema. -/
  publishSchemaRequest : List UInt8 → Option PublishSchemaRequest
  /-- `serde_json::from_slice`, for a subscription. -/
  createSubscriptionRequest : List UInt8 → Option CreateSubscriptionRequest
  /-- `serde_json::from_slice`, for a lease. -/
  instanceRenewalRequest : List UInt8 → Option InstanceRenewalRequest
  /-- `URL_SAFE_NO_PAD.encode`. -/
  encodeUrlSafe : List UInt8 → Str
  /-- `VerifyingKey::from_bytes`. -/
  verifyingKey : Bytes32 → Bool

/-- What the instances are read with. -/
def MutationCrates.toKeyCrates (crates : MutationCrates) : KeyCrates :=
  { crates.toCrates with verifyingKey := crates.verifyingKey }

/-- `PublishSchemaRequestError`. -/
inductive PublishSchemaRequestError where
  | invalidKind
  | invalidName
  | invalidContentDigest
  deriving DecidableEq

section

variable (crates : MutationCrates)

namespace PublishSchemaRequest

/-- The kind of `PublishSchemaRequest::kind`. -/
def schemaKind (dto : PublishSchemaRequest) : Except PublishSchemaRequestError SchemaKind :=
  if dto.kind = "artifact".toList then .ok .artifact
  else if dto.kind = "permission_policy".toList then .ok .permissionPolicy
  else .error .invalidKind

/-- The name of `PublishSchemaRequest::name`. -/
def schemaName (dto : PublishSchemaRequest) : Except PublishSchemaRequestError SchemaName :=
  (SchemaName.new dto.name).elim (.error .invalidName) .ok

/-- The digest of `PublishSchemaRequest::content_digest`. -/
def digest (dto : PublishSchemaRequest) : Except PublishSchemaRequestError Bytes32 :=
  match crates.decodeUrlSafe dto.contentDigest with
  | none => .error .invalidContentDigest
  | some decoded => if h : decoded.length = 32 then .ok ⟨decoded, h⟩
      else .error .invalidContentDigest

end PublishSchemaRequest

/-! ## Records -/

/-- `schema_kind_str`. -/
def SchemaKind.text : SchemaKind → String
  | .artifact => "artifact"
  | .permissionPolicy => "permission_policy"

/-- `schema_status_str`. -/
def SchemaStatus.text : SchemaStatus → String
  | .published => "published"
  | .active => "active"
  | .suspended => "suspended"
  | .superseded => "superseded"
  | .retired => "retired"

/-- `SchemaVersionResponse`. -/
def SchemaRecord.toObject (record : SchemaRecord) : JsonObject :=
  [("schema_version_id", .string (crates.displayUuid record.version.id.uuid)),
    ("kind", .string record.version.kind.text.toList), ("name", .string record.version.name.text),
    ("version", .number record.version.version),
    ("owner_service_id", .string (crates.displayUuid record.version.owner.uuid)),
    ("content_digest", .string (crates.encodeUrlSafe record.version.contentDigest.bytes)),
    ("predecessor_id", record.version.predecessor.elim .null fun id =>
      .string (crates.displayUuid id.uuid)),
    ("published_at", .number record.version.publishedAt),
    ("status", .string record.status.text.toList)]

/-- `EnrollmentSuccessResponse`. -/
def RegisteredInstance.toObject (i : RegisteredInstance) : JsonObject :=
  [("service_id", .string (crates.displayUuid i.publicKey.serviceId.uuid)),
    ("instance_id", .string (crates.displayUuid i.publicKey.instanceId.uuid)),
    ("key_id", .string (crates.displayUuid i.publicKey.keyId.uuid)),
    ("algorithm", .string algorithm), ("endpoint", .string i.endpoint),
    ("registered_at", .number i.registeredAt), ("lease_expires_at", .number i.leaseExpiresAt),
    ("lease_revision", .number i.leaseRevision)]

namespace GovernedErrorResponse

/-- The answer to a lease renewal whose body is not the JSON of one. -/
def invalidInstanceRenewalRequest : GovernedErrorResponse :=
  ⟨"invalid_instance_renewal_request", "instance renewal request is invalid"⟩

/-- The answer to a lease renewal from another revision. -/
def instanceLeaseConflict : GovernedErrorResponse :=
  ⟨"instance_lease_conflict", "instance lease revision does not match the current lease"⟩

/-- The answer to a lease renewal of an instance that is unknown, revoked or expired. -/
def instanceNotFound : GovernedErrorResponse := ⟨"instance_not_found", "instance was not found"⟩

end GovernedErrorResponse

/-- `instance_renewal_error_response`. -/
def instanceRenewalErrorResponse : InstanceRegistryError → Response
  | .revisionConflict _ => errorResponse crates.toHttpCrates "409 Conflict" .instanceLeaseConflict
  | .notFound _ | .revoked _ | .expired _ =>
    errorResponse crates.toHttpCrates "404 Not Found" .instanceNotFound
  | _ => errorResponse crates.toHttpCrates "503 Service Unavailable" .internalError

/-! ## The handlers -/

/-- What a mutating request draws, one part for each of its attempts. -/
structure MutationDraws where
  evaluator : PolicyEvaluator
  submission : SubmissionDraws
  schemaVersionId : SchemaVersionId
  subscriptionId : SubscriptionId
  claimId : ClaimId
  /-- `unix_time()`, for a decision on subscriptions. -/
  decidedAt : ℤ
  /-- `unix_time()`, for the rest. -/
  now : ℤ

/-- `publish_schema`. -/
def publishSchema (draws : MutationDraws) (request : ParsedRequest) (serviceId : ActorId) :
    Sql Response :=
  if request.isJson = false then
    .done (errorResponse crates.toHttpCrates "415 Unsupported Media Type" .invalidSchemaRequest)
  else
    match crates.publishSchemaRequest request.body with
    | none => .done (errorResponse crates.toHttpCrates "400 Bad Request" .invalidSchemaRequest)
    | some dto =>
      match dto.schemaKind, dto.schemaName, dto.digest crates with
      | .ok kind, .ok name, .ok contentDigest =>
        (SchemaService.publish draws.schemaVersionId kind name serviceId contentDigest
          draws.now).run.bind fun
          | .ok record =>
            .done (jsonResponse crates.toHttpCrates "201 Created" (record.toObject crates))
          | .error e => .done (schemaErrorResponse crates.toHttpCrates e)
      | _, _, _ => .done (errorResponse crates.toHttpCrates "400 Bad Request" .invalidSchemaRequest)

/-- The name of the action that creates a subscription follows the grammar of actions. -/
theorem subscriptionCreate_valid :
    isValidActionName "subscription.create".toList = true := by decide

/-- The action that `create_subscription` is authorized by. -/
def subscriptionCreate : ActionName := ⟨"subscription.create".toList, subscriptionCreate_valid⟩

/-- `create_subscription`. -/
def createSubscription (draws : MutationDraws) (request : ParsedRequest) (serviceId : ActorId) :
    Sql Response :=
  if request.isJson = false then
    .done (errorResponse crates.toHttpCrates "415 Unsupported Media Type"
      .invalidSubscriptionRequest)
  else
    match crates.createSubscriptionRequest request.body with
    | none => .done (errorResponse crates.toHttpCrates "400 Bad Request"
        .invalidSubscriptionRequest)
    | some dto =>
      match EventType.new dto.eventType with
      | none => .done (subscriptionErrorResponse crates.toHttpCrates .invalidEventType)
      | some eventType =>
        (checkAuthorized crates.toHttpCrates draws.evaluator draws.submission.decisionId serviceId
          subscriptionCreate draws.decidedAt).bind fun
          | some response => .done response
          | none =>
            (SubscriptionService.create draws.subscriptionId serviceId eventType .inclusive
              draws.now).bind fun
              | .ok subscription =>
                .done (jsonResponse crates.toHttpCrates "201 Created"
                  (subscription.toObject crates.toHttpCrates))
              | .error e => .done (subscriptionErrorResponse crates.toHttpCrates e)

/-- `renew_instance_route`. -/
def renewInstanceRoute (policy : LeasePolicy) (draws : MutationDraws) (request : ParsedRequest)
    (instanceId : InstanceId) : Sql Response :=
  if request.isJson = false then
    .done (errorResponse crates.toHttpCrates "415 Unsupported Media Type"
      .invalidInstanceRenewalRequest)
  else
    match crates.instanceRenewalRequest request.body with
    | none =>
      .done (errorResponse crates.toHttpCrates "400 Bad Request" .invalidInstanceRenewalRequest)
    | some dto =>
      (InstanceRegistryService.renew crates.toKeyCrates policy instanceId dto.expectedRevision
        draws.now).bind fun
        | .ok registered =>
          .done (jsonResponse crates.toHttpCrates "200 OK" (registered.toObject crates))
        | .error e => .done (instanceRenewalErrorResponse crates e)

/-- The handler that a mutating request comes to. The others only read. -/
def mutatingHandler (policy : LeasePolicy) (draws : MutationDraws) (request : ParsedRequest)
    (verified : VerifiedServiceRequest) : GovernedCall → Option (Sql Response)
  | .publishSchema => some (publishSchema crates draws request verified.serviceId)
  | .claimRoute routeId =>
    some (claimRoute crates.toHttpCrates draws.claimId draws.now request verified.serviceId
      verified.instanceId routeId)
  | .renewClaimRoute claimId =>
    some (renewClaimRoute crates.toClaimActionCrates draws.now request claimId)
  | .releaseClaimRoute claimId =>
    some (releaseClaimRoute crates.toClaimActionCrates draws.now request claimId)
  | .completeClaimRoute claimId =>
    some (completeClaimRoute crates.toClaimActionCrates draws.now request claimId)
  | .renewInstanceRoute => some (renewInstanceRoute crates policy draws request verified.instanceId)
  | .requestRoute .submitRequest =>
    some (submitRequest crates.toHttpCrates draws.evaluator draws.submission request
      verified.serviceId ⟨verified.requestId⟩)
  | .subscriptionRoute .createSubscription =>
    some (createSubscription crates draws request verified.serviceId)
  | .subscriptionRoute (.disableSubscription id) =>
    some (disableSubscription crates.toHttpCrates draws.evaluator draws.submission.decisionId
      draws.decidedAt draws.now id verified.serviceId)
  | _ => none

end

end InfernalLaw
