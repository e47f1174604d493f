import InfernalLaw.Kernel.Authority

/-!
# Requests and routes

A request is an immutable intent, identified by its source service and an identifier of the source's
choice. A route is the destination that a matching subscription gives it.
-/

namespace InfernalLaw

/-- The minimum kernel-owned object. -/
structure Request where
  id : RequestId
  sourceService : ActorId
  action : ActionName
  scope : Scope
  schemaVersions : SchemaVersionRefs
  deriving DecidableEq

/-- The digest of a request's fields. -/
structure RequestFingerprint where
  digest : Bytes32
  deriving DecidableEq

/-- A stored request. The last field is what `AcceptedRequest::restore` checks. -/
structure AcceptedRequest where
  request : Request
  fingerprint : RequestFingerprint
  acceptedAt : ℤ
  timestamp : 0 ≤ acceptedAt
  deriving DecidableEq

/-- The answer to a submission: stored now, or stored before with the same content. -/
inductive RequestAcceptance where
  | accepted (record : AcceptedRequest)
  | safeRetry (record : AcceptedRequest)
  deriving DecidableEq

/-- `RequestAcceptance::record`. -/
def RequestAcceptance.record : RequestAcceptance → AcceptedRequest
  | accepted record => record
  | safeRetry record => record

/-- `RequestAcceptance::is_fresh`. -/
def RequestAcceptance.isFresh : RequestAcceptance → Bool
  | accepted _ => true
  | safeRetry _ => false

/-- A destination of a request. The last field is what `Route::restore` checks. -/
structure Route where
  id : RouteId
  sourceService : ActorId
  requestId : RequestId
  subscriptionId : SubscriptionId
  destinationService : ActorId
  createdAt : ℤ
  timestamp : 0 ≤ createdAt
  deriving DecidableEq

/-- What can go wrong with requests and routes. -/
inductive RequestError where
  | invalidRequestId
  | invalidActionName
  | invalidAcceptedAt
  | invalidRouteId
  | requestIdConflict (id : RequestId)
  | repository (failure : Failure)
  | unknownSource (id : ActorId)
  | unknownSchemaVersion
  | unknownSubscription
  deriving DecidableEq

/-- `Request::restore`. -/
def Request.restore (id : RequestId) (sourceService : ActorId) (action : Str) (scope : Scope)
    (schemaVersions : SchemaVersionRefs) : Except RequestError Request :=
  match ActionName.new action with
  | none => .error .invalidActionName
  | some action => .ok { id, sourceService, action, scope, schemaVersions }

/-- What `Request::restore` builds has the given fields. -/
theorem Request.restore_eq_ok {id : RequestId} {sourceService : ActorId} {action : Str}
    {scope : Scope} {schemaVersions : SchemaVersionRefs} {r : Request} :
    Request.restore id sourceService action scope schemaVersions = .ok r ↔
      r.id = id ∧ r.sourceService = sourceService ∧ r.action.text = action ∧ r.scope = scope ∧
        r.schemaVersions = schemaVersions := by
  unfold Request.restore
  split
  · rename_i h
    simp only [reduceCtorEq, false_iff]
    rintro ⟨-, -, haction, -, -⟩
    simp [← haction] at h
  · rename_i a h
    rw [← ActionName.new_eq_some, h]
    cases r
    simp [eq_comm, and_comm, and_left_comm]

/-- `hash_field`: the length in eight bytes, then the bytes. -/
def hashField (bytes : List UInt8) : List UInt8 := beBytes 8 bytes.length ++ bytes

/-- What `Request::fingerprint` hashes. -/
def Request.fingerprintInput (r : Request) : List UInt8 :=
  r.sourceService.uuid.asBytes ++ hashField r.action.text.asBytes ++
    hashField r.scope.text.asBytes ++ r.schemaVersions.artifact.uuid.asBytes ++
    r.schemaVersions.permissionPolicy.uuid.asBytes

/-- `Request::fingerprint`, for a hash function `sha256`. -/
def Request.fingerprint (sha256 : List UInt8 → Bytes32) (r : Request) : RequestFingerprint :=
  ⟨sha256 r.fingerprintInput⟩

/-- `AcceptedRequest::restore`. -/
def AcceptedRequest.restore (request : Request) (fingerprint : RequestFingerprint)
    (acceptedAt : ℤ) : Except RequestError AcceptedRequest :=
  if h : acceptedAt < 0 then .error .invalidAcceptedAt
  else .ok { request, fingerprint, acceptedAt, timestamp := by omega }

/-- What `AcceptedRequest::restore` builds has the given fields. -/
theorem AcceptedRequest.restore_eq_ok {request : Request} {fingerprint : RequestFingerprint}
    {acceptedAt : ℤ} {r : AcceptedRequest} :
    AcceptedRequest.restore request fingerprint acceptedAt = .ok r ↔
      r.request = request ∧ r.fingerprint = fingerprint ∧ r.acceptedAt = acceptedAt := by
  have htimestamp := r.timestamp
  unfold AcceptedRequest.restore
  split
  · simp only [reduceCtorEq, false_iff]
    rintro ⟨-, -, rfl⟩
    omega
  · cases r
    simp [eq_comm]

/-- `Route::restore`. -/
def Route.restore (id : RouteId) (sourceService : ActorId) (requestId : RequestId)
    (subscriptionId : SubscriptionId) (destinationService : ActorId) (createdAt : ℤ) :
    Except RequestError Route :=
  if h : createdAt < 0 then .error .invalidAcceptedAt
  else
    .ok
      { id, sourceService, requestId, subscriptionId, destinationService, createdAt
        timestamp := by omega }

/-- What `Route::restore` builds has the given fields. -/
theorem Route.restore_eq_ok {id : RouteId} {sourceService : ActorId} {requestId : RequestId}
    {subscriptionId : SubscriptionId} {destinationService : ActorId} {createdAt : ℤ} {r : Route} :
    Route.restore id sourceService requestId subscriptionId destinationService createdAt = .ok r ↔
      r.id = id ∧ r.sourceService = sourceService ∧ r.requestId = requestId ∧
        r.subscriptionId = subscriptionId ∧ r.destinationService = destinationService ∧
        r.createdAt = createdAt := by
  have htimestamp := r.timestamp
  unfold Route.restore
  split
  · simp only [reduceCtorEq, false_iff]
    rintro ⟨-, -, -, -, -, rfl⟩
    omega
  · cases r
    simp [eq_comm]

end InfernalLaw
