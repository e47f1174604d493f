import Mathlib.Data.List.Sort
import InfernalLaw.Postgres.Table
import InfernalLaw.Postgres.Serial
import InfernalLaw.Kernel.Authority
import InfernalLaw.Kernel.Subscriptions
import InfernalLaw.Kernel.WorkClaims
import InfernalLaw.Kernel.Requests

/-!
# The kernel's database

The tables of the migrations that the modelled functions read or write, with the columns they use. A
text column that a constructor validates again when it is read holds plain text; a column whose
`CHECK` lists its values holds the enumeration. The constraints that the migrations declare are in
`Constraints.lean`.
-/

namespace InfernalLaw

open Postgres (RowWrite Store)

/-- The order of a `BIGINT` column, with which `ORDER BY` can be evaluated. -/
instance (priority := high) bigintPreorder : Preorder ℤ := Int.instLinearOrder.toPreorder

/-! ## Rows -/

/-- `identities`. -/
structure IdentityRow where
  id : ActorId
  kind : ActorKind
  displayName : Str
  status : IdentityStatus
  deriving DecidableEq

/-- `service_enrollment_bindings`. -/
structure EnrollmentBindingRow where
  serviceId : ActorId
  workloadNamespace : Str
  serviceAccount : Str
  serviceAccountUid : Str
  enabled : Bool
  deriving DecidableEq

/-- `service_enrollment_challenges`. -/
structure EnrollmentChallengeRow where
  challengeDigest : Bytes32
  serviceId : ActorId
  expiresAt : ℤ
  consumedAt : Option ℤ
  deriving DecidableEq

/-- `service_communication_admission`. -/
structure AdmissionRow where
  serviceId : ActorId
  communicationEnabled : Bool
  revision : ℤ
  updatedAt : ℤ
  deriving DecidableEq

/-- The `outcome` column of `service_communication_admission_history`. -/
inductive AdmissionOutcome where
  | changed
  | noOp
  deriving DecidableEq

/-- `service_communication_admission_history`. -/
structure AdmissionHistoryRow where
  serviceId : ActorId
  oldEnabled : Bool
  newEnabled : Bool
  revision : ℤ
  outcome : AdmissionOutcome
  administratorIdentity : Str
  reason : Str
  correlationId : Uuid
  committedAt : ℤ
  deriving DecidableEq

/-- `service_instances`. -/
structure ServiceInstanceRow where
  instanceId : InstanceId
  serviceId : ActorId
  endpoint : Str
  registeredAt : ℤ
  leaseExpiresAt : ℤ
  leaseRevision : ℤ
  revokedAt : Option ℤ
  deriving DecidableEq

/-- `service_instance_keys`. -/
structure ServiceInstanceKeyRow where
  keyId : KeyId
  instanceId : InstanceId
  publicKey : Bytes32
  fingerprint : Bytes32
  validFrom : ℤ
  revokedAt : Option ℤ
  deriving DecidableEq

/-- The `action` column of `service_instance_registry_audit`. -/
inductive RegistryAuditAction where
  | registered
  | renewed
  | revoked
  deriving DecidableEq

/-- `service_instance_registry_audit`. -/
structure RegistryAuditRow where
  serviceId : ActorId
  instanceId : InstanceId
  keyId : KeyId
  action : RegistryAuditAction
  leaseRevision : ℤ
  recordedAt : ℤ
  deriving DecidableEq

/-- `service_instance_handshake_challenges`. -/
structure HandshakeChallengeRow where
  challengeDigest : Bytes32
  kernelInstanceId : InstanceId
  targetInstanceId : InstanceId
  targetKeyId : KeyId
  issuedAt : ℤ
  expiresAt : ℤ
  consumedAt : Option ℤ
  deriving DecidableEq

/-- `service_instance_handshakes`. -/
structure HandshakeRow where
  challengeDigest : Bytes32
  kernelInstanceId : InstanceId
  targetInstanceId : InstanceId
  targetKeyId : KeyId
  verifiedAt : ℤ
  expiresAt : ℤ
  deriving DecidableEq

/-- The `action` column of `service_instance_handshake_audit`. -/
inductive HandshakeAuditAction where
  | issued
  | verified
  deriving DecidableEq

/-- `service_instance_handshake_audit`. -/
structure HandshakeAuditRow where
  challengeDigest : Bytes32
  kernelInstanceId : InstanceId
  targetInstanceId : InstanceId
  action : HandshakeAuditAction
  recordedAt : ℤ
  deriving DecidableEq

/-- `subscriptions`. -/
structure SubscriptionRow where
  id : SubscriptionId
  serviceId : ActorId
  eventType : Str
  deliveryMode : DeliveryMode
  createdAt : ℤ
  disabledAt : Option ℤ
  deriving DecidableEq

/-- The `action` column of `subscription_audit`. -/
inductive SubscriptionAuditAction where
  | created
  | disabled
  deriving DecidableEq

/-- `subscription_audit`. -/
structure SubscriptionAuditRow where
  subscriptionId : SubscriptionId
  serviceId : ActorId
  eventType : Str
  deliveryMode : DeliveryMode
  action : SubscriptionAuditAction
  recordedAt : ℤ
  deriving DecidableEq

/-- `service_request_ids`. -/
structure ServiceRequestIdRow where
  serviceId : ActorId
  requestId : Uuid
  requestFingerprint : Bytes32
  firstSeenAt : ℤ
  deriving DecidableEq

/-- `service_request_nonces`. -/
structure ServiceRequestNonceRow where
  keyId : KeyId
  nonceDigest : Bytes32
  serviceId : ActorId
  instanceId : InstanceId
  requestId : Uuid
  requestFingerprint : Bytes32
  signatureCreated : ℤ
  signatureExpires : ℤ
  reservedAt : ℤ
  deriving DecidableEq

/-- The `outcome` column of `service_request_replay_audit`. -/
inductive ReplayOutcome where
  | fresh
  | safeRetry
  | replayRejected
  | requestConflictRejected
  deriving DecidableEq

/-- `service_request_replay_audit`. -/
structure ReplayAuditRow where
  serviceId : ActorId
  instanceId : InstanceId
  keyId : KeyId
  requestId : Uuid
  nonceDigest : Bytes32
  requestFingerprint : Bytes32
  outcome : ReplayOutcome
  recordedAt : ℤ
  deriving DecidableEq

/-- `accepted_requests`. `acceptedAt` is the column in whole seconds, as it is read. -/
structure AcceptedRequestRow where
  sourceServiceId : ActorId
  requestId : RequestId
  action : Str
  scope : Str
  artifactSchemaVersionId : SchemaVersionId
  permissionPolicySchemaVersionId : SchemaVersionId
  semanticFingerprint : Bytes32
  acceptedAt : ℤ
  deriving DecidableEq

/-- The `outcome` column of `request_acceptance_audit`. -/
inductive AcceptanceOutcome where
  | accepted
  | safeRetry
  | requestConflictRejected
  deriving DecidableEq

/-- `request_acceptance_audit`. -/
structure AcceptanceAuditRow where
  sourceServiceId : ActorId
  requestId : RequestId
  attemptedAction : Str
  attemptedScope : Str
  attemptedArtifactSchemaVersionId : SchemaVersionId
  attemptedPermissionPolicySchemaVersionId : SchemaVersionId
  attemptedFingerprint : Bytes32
  outcome : AcceptanceOutcome
  deriving DecidableEq

/-- `authority_schema_versions`. -/
structure SchemaVersionRow where
  schemaVersionId : SchemaVersionId
  kind : SchemaKind
  name : Str
  version : ℤ
  ownerServiceId : ActorId
  contentDigest : Bytes32
  predecessorId : Option SchemaVersionId
  publishedAt : ℤ
  status : SchemaStatus
  deriving DecidableEq

/-- The `outcome` column of `authority_schema_status_audit`. -/
inductive SchemaStatusOutcome where
  | changed
  | noOp
  | rejectedTerminal
  | rejectedUnknownSchema
  deriving DecidableEq

/-- `authority_schema_status_audit`. -/
structure SchemaStatusAuditRow where
  schemaVersionId : SchemaVersionId
  oldStatus : Option SchemaStatus
  newStatus : SchemaStatus
  outcome : SchemaStatusOutcome
  administratorIdentity : Str
  reason : Str
  correlationId : Uuid
  recordedAt : ℤ
  deriving DecidableEq

/-- `authority_grants`. -/
structure GrantRow where
  grantId : GrantId
  sourceServiceId : ActorId
  action : Str
  scope : Str
  artifactSchemaVersionId : SchemaVersionId
  permissionPolicySchemaVersionId : SchemaVersionId
  destinationServiceId : Option ActorId
  validFrom : ℤ
  validUntil : Option ℤ
  administratorIdentity : Str
  reason : Str
  correlationId : Uuid
  createdAt : ℤ
  revokedAt : Option ℤ
  deriving DecidableEq

/-- The `outcome` column of `authority_grant_administration_audit`. -/
inductive GrantAuditOutcome where
  | created
  | createConflictRejected
  | revoked
  | revokeNoOp
  deriving DecidableEq

/-- `authority_grant_administration_audit`. -/
structure GrantAuditRow where
  grantId : GrantId
  outcome : GrantAuditOutcome
  administratorIdentity : Str
  reason : Str
  correlationId : Uuid
  recordedAt : ℤ
  deriving DecidableEq

/-- `authority_decisions`. -/
structure DecisionRow where
  decisionId : DecisionId
  sourceServiceId : ActorId
  action : Str
  scope : Str
  artifactSchemaVersionId : SchemaVersionId
  permissionPolicySchemaVersionId : SchemaVersionId
  destinationServiceId : Option ActorId
  verdict : Verdict
  evaluatorServiceId : ActorId
  policyBundleVersion : Option Str
  decidedAt : ℤ
  deriving DecidableEq

/-- `request_routes`. -/
structure RouteRow where
  routeId : RouteId
  sourceServiceId : ActorId
  requestId : RequestId
  subscriptionId : SubscriptionId
  destinationServiceId : ActorId
  createdAt : ℤ
  deriving DecidableEq

/-- `work_claims`. -/
structure WorkClaimRow where
  claimId : ClaimId
  routeId : RouteId
  workerServiceId : ActorId
  workerInstanceId : InstanceId
  fencingToken : ℤ
  status : WorkClaimStatus
  claimedAt : ℤ
  leaseExpiresAt : ℤ
  deriving DecidableEq

/-! ## Tables and writes -/

/-- The database. -/
structure Db where
  identityRows : List IdentityRow := []
  enrollmentBindings : List EnrollmentBindingRow := []
  enrollmentChallenges : List EnrollmentChallengeRow := []
  admissions : List AdmissionRow := []
  admissionHistory : List AdmissionHistoryRow := []
  serviceInstances : List ServiceInstanceRow := []
  serviceInstanceKeys : List ServiceInstanceKeyRow := []
  registryAudit : List RegistryAuditRow := []
  handshakeChallenges : List HandshakeChallengeRow := []
  handshakes : List HandshakeRow := []
  handshakeAudit : List HandshakeAuditRow := []
  subscriptions : List SubscriptionRow := []
  subscriptionAudit : List SubscriptionAuditRow := []
  serviceRequestIds : List ServiceRequestIdRow := []
  serviceRequestNonces : List ServiceRequestNonceRow := []
  replayAudit : List ReplayAuditRow := []
  acceptedRequests : List AcceptedRequestRow := []
  acceptanceAudit : List AcceptanceAuditRow := []
  schemaVersions : List SchemaVersionRow := []
  schemaStatusAudit : List SchemaStatusAuditRow := []
  grants : List GrantRow := []
  grantAudit : List GrantAuditRow := []
  decisions : List DecisionRow := []
  requestRoutes : List RouteRow := []
  workClaims : List WorkClaimRow := []
  deriving DecidableEq

/-- The services and workers that have an identity. -/
def Db.identities (d : Db) : List ActorId := d.identityRows.map IdentityRow.id

/-- The tables. -/
inductive TableName where
  | identities
  | enrollmentBindings
  | enrollmentChallenges
  | admissions
  | admissionHistory
  | serviceInstances
  | serviceInstanceKeys
  | registryAudit
  | handshakeChallenges
  | handshakes
  | handshakeAudit
  | subscriptions
  | subscriptionAudit
  | serviceRequestIds
  | serviceRequestNonces
  | replayAudit
  | acceptedRequests
  | acceptanceAudit
  | schemaVersions
  | schemaStatusAudit
  | grants
  | grantAudit
  | decisions
  | requestRoutes
  | workClaims
  deriving DecidableEq

/-- A write to one table. Append-only tables have inserts only. -/
inductive Write where
  | identities (w : RowWrite IdentityRow)
  | enrollmentBindings (w : RowWrite EnrollmentBindingRow)
  | enrollmentChallenges (w : RowWrite EnrollmentChallengeRow)
  | admissions (w : RowWrite AdmissionRow)
  | admissionHistory (row : AdmissionHistoryRow)
  | serviceInstances (w : RowWrite ServiceInstanceRow)
  | serviceInstanceKeys (w : RowWrite ServiceInstanceKeyRow)
  | registryAudit (row : RegistryAuditRow)
  | handshakeChallenges (w : RowWrite HandshakeChallengeRow)
  | handshakes (row : HandshakeRow)
  | handshakeAudit (row : HandshakeAuditRow)
  | subscriptions (w : RowWrite SubscriptionRow)
  | subscriptionAudit (row : SubscriptionAuditRow)
  | serviceRequestIds (row : ServiceRequestIdRow)
  | serviceRequestNonces (row : ServiceRequestNonceRow)
  | replayAudit (row : ReplayAuditRow)
  | acceptedRequests (row : AcceptedRequestRow)
  | acceptanceAudit (row : AcceptanceAuditRow)
  | schemaVersions (w : RowWrite SchemaVersionRow)
  | schemaStatusAudit (row : SchemaStatusAuditRow)
  | grants (w : RowWrite GrantRow)
  | grantAudit (row : GrantAuditRow)
  | decisions (row : DecisionRow)
  | requestRoutes (row : RouteRow)
  | workClaims (w : RowWrite WorkClaimRow)

/-- The table that a write is about. -/
def Write.table : Write → TableName
  | identities _ => .identities
  | enrollmentBindings _ => .enrollmentBindings
  | enrollmentChallenges _ => .enrollmentChallenges
  | admissions _ => .admissions
  | admissionHistory _ => .admissionHistory
  | serviceInstances _ => .serviceInstances
  | serviceInstanceKeys _ => .serviceInstanceKeys
  | registryAudit _ => .registryAudit
  | handshakeChallenges _ => .handshakeChallenges
  | handshakes _ => .handshakes
  | handshakeAudit _ => .handshakeAudit
  | subscriptions _ => .subscriptions
  | subscriptionAudit _ => .subscriptionAudit
  | serviceRequestIds _ => .serviceRequestIds
  | serviceRequestNonces _ => .serviceRequestNonces
  | replayAudit _ => .replayAudit
  | acceptedRequests _ => .acceptedRequests
  | acceptanceAudit _ => .acceptanceAudit
  | schemaVersions _ => .schemaVersions
  | schemaStatusAudit _ => .schemaStatusAudit
  | grants _ => .grants
  | grantAudit _ => .grantAudit
  | decisions _ => .decisions
  | requestRoutes _ => .requestRoutes
  | workClaims _ => .workClaims

/-- What a write does. -/
def Db.apply (d : Db) : Write → Db
  | .identities w => { d with identityRows := w.apply IdentityRow.id d.identityRows }
  | .enrollmentBindings w =>
    { d with enrollmentBindings := w.apply EnrollmentBindingRow.serviceId d.enrollmentBindings }
  | .enrollmentChallenges w =>
    { d with
      enrollmentChallenges := w.apply EnrollmentChallengeRow.challengeDigest
        d.enrollmentChallenges }
  | .admissions w => { d with admissions := w.apply AdmissionRow.serviceId d.admissions }
  | .admissionHistory row => { d with admissionHistory := d.admissionHistory ++ [row] }
  | .serviceInstances w =>
    { d with serviceInstances := w.apply ServiceInstanceRow.instanceId d.serviceInstances }
  | .serviceInstanceKeys w =>
    { d with serviceInstanceKeys := w.apply ServiceInstanceKeyRow.keyId d.serviceInstanceKeys }
  | .registryAudit row => { d with registryAudit := d.registryAudit ++ [row] }
  | .handshakeChallenges w =>
    { d with
      handshakeChallenges := w.apply HandshakeChallengeRow.challengeDigest d.handshakeChallenges }
  | .handshakes row => { d with handshakes := d.handshakes ++ [row] }
  | .handshakeAudit row => { d with handshakeAudit := d.handshakeAudit ++ [row] }
  | .subscriptions w => { d with subscriptions := w.apply SubscriptionRow.id d.subscriptions }
  | .subscriptionAudit row => { d with subscriptionAudit := d.subscriptionAudit ++ [row] }
  | .serviceRequestIds row => { d with serviceRequestIds := d.serviceRequestIds ++ [row] }
  | .serviceRequestNonces row =>
    { d with serviceRequestNonces := d.serviceRequestNonces ++ [row] }
  | .replayAudit row => { d with replayAudit := d.replayAudit ++ [row] }
  | .acceptedRequests row => { d with acceptedRequests := d.acceptedRequests ++ [row] }
  | .acceptanceAudit row => { d with acceptanceAudit := d.acceptanceAudit ++ [row] }
  | .schemaVersions w =>
    { d with schemaVersions := w.apply SchemaVersionRow.schemaVersionId d.schemaVersions }
  | .schemaStatusAudit row => { d with schemaStatusAudit := d.schemaStatusAudit ++ [row] }
  | .grants w => { d with grants := w.apply GrantRow.grantId d.grants }
  | .grantAudit row => { d with grantAudit := d.grantAudit ++ [row] }
  | .decisions row => { d with decisions := d.decisions ++ [row] }
  | .requestRoutes row => { d with requestRoutes := d.requestRoutes ++ [row] }
  | .workClaims w => { d with workClaims := w.apply WorkClaimRow.claimId d.workClaims }

/-- What transactions wait for: rows that they change or lock, and entries of unique indexes. -/
inductive Key where
  | identity (id : ActorId)
  | enrollmentBinding (serviceId : ActorId)
  /-- `UNIQUE (namespace, service_account, service_account_uid)`. -/
  | workload (workloadNamespace serviceAccount serviceAccountUid : Str)
  | enrollmentChallenge (digest : Bytes32)
  | admission (serviceId : ActorId)
  /-- `UNIQUE (service_id, correlation_id)`. -/
  | admissionHistory (serviceId : ActorId) (correlationId : Uuid)
  | serviceInstance (id : InstanceId)
  | serviceInstanceKey (id : KeyId)
  /-- `UNIQUE (instance_id)` of the keys. -/
  | instanceKey (id : InstanceId)
  /-- `service_instance_keys_fingerprint_idx`. -/
  | fingerprint (fingerprint : Bytes32)
  | handshakeChallenge (digest : Bytes32)
  | handshake (digest : Bytes32)
  | subscription (id : SubscriptionId)
  /-- `subscriptions_one_active_event_idx`. -/
  | activeSubscription (serviceId : ActorId) (eventType : Str)
  | serviceRequestId (serviceId : ActorId) (requestId : Uuid)
  | nonce (keyId : KeyId) (nonceDigest : Bytes32)
  | acceptedRequest (sourceServiceId : ActorId) (requestId : RequestId)
  | schemaVersion (id : SchemaVersionId)
  /-- `UNIQUE (kind, name, version)`. -/
  | schemaNumber (kind : SchemaKind) (name : Str) (version : ℤ)
  /-- `UNIQUE (schema_version_id, correlation_id)`. -/
  | schemaStatusAudit (id : SchemaVersionId) (correlationId : Uuid)
  | grant (id : GrantId)
  | grantCorrelation (correlationId : Uuid)
  | decision (id : DecisionId)
  | route (id : RouteId)
  /-- `UNIQUE (request_id, subscription_id)`. -/
  | routeMatch (requestId : RequestId) (subscriptionId : SubscriptionId)
  | claim (id : ClaimId)
  /-- `UNIQUE (route_id, fencing_token)`. -/
  | claimToken (routeId : RouteId) (fencingToken : ℤ)
  /-- `work_claims_one_active_per_route_idx`. -/
  | activeClaim (routeId : RouteId)
  deriving DecidableEq

/-- The keys that an uncommitted write holds: the row, and its entries in unique indexes. -/
def Write.keys : Write → List Key
  | identities w => [.identity w.row.id]
  | enrollmentBindings w =>
    [.enrollmentBinding w.row.serviceId,
      .workload w.row.workloadNamespace w.row.serviceAccount w.row.serviceAccountUid]
  | enrollmentChallenges w => [.enrollmentChallenge w.row.challengeDigest]
  | admissions w => [.admission w.row.serviceId]
  | admissionHistory row => [.admissionHistory row.serviceId row.correlationId]
  | serviceInstances w => [.serviceInstance w.row.instanceId]
  | serviceInstanceKeys w =>
    [.serviceInstanceKey w.row.keyId, .instanceKey w.row.instanceId, .fingerprint w.row.fingerprint]
  | registryAudit _ => []
  | handshakeChallenges w => [.handshakeChallenge w.row.challengeDigest]
  | handshakes row => [.handshake row.challengeDigest]
  | handshakeAudit _ => []
  | subscriptions w =>
    .subscription w.row.id ::
      if w.row.disabledAt = none then [.activeSubscription w.row.serviceId w.row.eventType] else []
  | subscriptionAudit _ => []
  | serviceRequestIds row => [.serviceRequestId row.serviceId row.requestId]
  | serviceRequestNonces row => [.nonce row.keyId row.nonceDigest]
  | replayAudit _ => []
  | acceptedRequests row => [.acceptedRequest row.sourceServiceId row.requestId]
  | acceptanceAudit _ => []
  | schemaVersions w =>
    [.schemaVersion w.row.schemaVersionId, .schemaNumber w.row.kind w.row.name w.row.version]
  | schemaStatusAudit row => [.schemaStatusAudit row.schemaVersionId row.correlationId]
  | grants w => [.grant w.row.grantId, .grantCorrelation w.row.correlationId]
  | grantAudit _ => []
  | decisions row => [.decision row.decisionId]
  | requestRoutes row => [.route row.routeId, .routeMatch row.requestId row.subscriptionId]
  | workClaims w =>
    .claim w.row.claimId :: .claimToken w.row.routeId w.row.fencingToken ::
      if w.row.status = .active then [.activeClaim w.row.routeId] else []

/-- The store that the database's sessions share. -/
def store : Store Db Write Key where
  apply := Db.apply
  keys := Write.keys

/-- The store applies a write to the database. -/
@[simp] theorem store_apply (d : Db) (w : Write) : store.apply d w = d.apply w := rfl

/-- Its keys are those of the write. -/
@[simp] theorem store_keys (w : Write) : store.keys w = w.keys := rfl

/-- A process over the kernel's database. -/
abbrev Sql (α : Type) : Type := Postgres.Proc Db Write Key α

/-- A client function over the kernel's database, which stops at the first error. -/
abbrev Fallible (ε α : Type) : Type := ExceptT ε (Postgres.Proc Db Write Key) α

/-- The sessions of the kernel in which an operation `op` runs the process `program op`. -/
abbrev kernelSystem {Op α : Type} (program : Op → Sql α) : Postgres.System Db Write Key Op α :=
  { store with program }

/-- Identities come in addition, or change in place. -/
theorem identities_versioned : store.Versioned Db.identityRows Write.identities IdentityRow.id where
  apply_write _ _ := rfl
  apply_other _ w hw := by cases w <;> first | rfl | exact absurd rfl (hw _)

end InfernalLaw
