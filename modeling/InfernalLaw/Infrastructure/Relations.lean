import Mathlib.Algebra.Order.BigOperators.Group.Finset
import Mathlib.Data.Fintype.Basic
import InfernalLaw.Infrastructure.InstanceRegistryRepository
import InfernalLaw.Infrastructure.EnrollmentRepository
import InfernalLaw.Infrastructure.SchemaVersions
import InfernalLaw.Postgres.Relations

/-!
# The tables as one relation

What the migrations declare, for all tables together: primary keys, entries of unique indexes,
foreign keys, and `CHECK` constraints, and with them what the statements of the kernel and the
triggers on updates leave of the life of a row: how it begins, and which new version may take its
place.
-/

namespace InfernalLaw

open Postgres (RowWrite Schema)

instance : Fintype TableName :=
  .ofList
    [.identities, .enrollmentBindings, .enrollmentChallenges, .admissions, .admissionHistory,
      .serviceInstances, .serviceInstanceKeys, .registryAudit, .handshakeChallenges, .handshakes,
      .handshakeAudit, .subscriptions, .subscriptionAudit, .serviceRequestIds,
      .serviceRequestNonces, .replayAudit, .acceptedRequests, .acceptanceAudit, .schemaVersions,
      .schemaStatusAudit, .grants, .grantAudit, .decisions, .requestRoutes, .workClaims]
    (by intro t; cases t <;> simp)

/-- A row of one of the tables. -/
inductive Row where
  | identities (r : IdentityRow)
  | enrollmentBindings (r : EnrollmentBindingRow)
  | enrollmentChallenges (r : EnrollmentChallengeRow)
  | admissions (r : AdmissionRow)
  | admissionHistory (r : AdmissionHistoryRow)
  | serviceInstances (r : ServiceInstanceRow)
  | serviceInstanceKeys (r : ServiceInstanceKeyRow)
  | registryAudit (r : RegistryAuditRow)
  | handshakeChallenges (r : HandshakeChallengeRow)
  | handshakes (r : HandshakeRow)
  | handshakeAudit (r : HandshakeAuditRow)
  | subscriptions (r : SubscriptionRow)
  | subscriptionAudit (r : SubscriptionAuditRow)
  | serviceRequestIds (r : ServiceRequestIdRow)
  | serviceRequestNonces (r : ServiceRequestNonceRow)
  | replayAudit (r : ReplayAuditRow)
  | acceptedRequests (r : AcceptedRequestRow)
  | acceptanceAudit (r : AcceptanceAuditRow)
  | schemaVersions (r : SchemaVersionRow)
  | schemaStatusAudit (r : SchemaStatusAuditRow)
  | grants (r : GrantRow)
  | grantAudit (r : GrantAuditRow)
  | decisions (r : DecisionRow)
  | requestRoutes (r : RouteRow)
  | workClaims (r : WorkClaimRow)

namespace Row

/-- The table of a row. -/
def table : Row → TableName
  | identities _ => .identities
  | enrollmentBindings _ => .enrollmentBindings
  | enrollmentChallenges _ => .enrollmentChallenges
  | admissions _ => .admissions
  | admissionHistory _ => .admissionHistory
  | serviceInstances _ => .serviceInstances
  | serviceInstanceKeys _ => .serviceInstanceKeys
  | registryAudit _ => .registryAudit
  | handshakeChallenges _ => .handshakeChallenges
  | handshakes _ => .handshakes
  | handshakeAudit _ => .handshakeAudit
  | subscriptions _ => .subscriptions
  | subscriptionAudit _ => .subscriptionAudit
  | serviceRequestIds _ => .serviceRequestIds
  | serviceRequestNonces _ => .serviceRequestNonces
  | replayAudit _ => .replayAudit
  | acceptedRequests _ => .acceptedRequests
  | acceptanceAudit _ => .acceptanceAudit
  | schemaVersions _ => .schemaVersions
  | schemaStatusAudit _ => .schemaStatusAudit
  | grants _ => .grants
  | grantAudit _ => .grantAudit
  | decisions _ => .decisions
  | requestRoutes _ => .requestRoutes
  | workClaims _ => .workClaims

/-- The write that inserts a row. -/
def inserted : Row → Write
  | identities r => .identities (.insert r)
  | enrollmentBindings r => .enrollmentBindings (.insert r)
  | enrollmentChallenges r => .enrollmentChallenges (.insert r)
  | admissions r => .admissions (.insert r)
  | admissionHistory r => .admissionHistory r
  | serviceInstances r => .serviceInstances (.insert r)
  | serviceInstanceKeys r => .serviceInstanceKeys (.insert r)
  | registryAudit r => .registryAudit r
  | handshakeChallenges r => .handshakeChallenges (.insert r)
  | handshakes r => .handshakes r
  | handshakeAudit r => .handshakeAudit r
  | subscriptions r => .subscriptions (.insert r)
  | subscriptionAudit r => .subscriptionAudit r
  | serviceRequestIds r => .serviceRequestIds r
  | serviceRequestNonces r => .serviceRequestNonces r
  | replayAudit r => .replayAudit r
  | acceptedRequests r => .acceptedRequests r
  | acceptanceAudit r => .acceptanceAudit r
  | schemaVersions r => .schemaVersions (.insert r)
  | schemaStatusAudit r => .schemaStatusAudit r
  | grants r => .grants (.insert r)
  | grantAudit r => .grantAudit r
  | decisions r => .decisions r
  | requestRoutes r => .requestRoutes r
  | workClaims r => .workClaims (.insert r)

/-- The primary key. The tables of the audits count their rows. -/
def pk : Row → Option Key
  | identities r => some (.identity r.id)
  | enrollmentBindings r => some (.enrollmentBinding r.serviceId)
  | enrollmentChallenges r => some (.enrollmentChallenge r.challengeDigest)
  | admissions r => some (.admission r.serviceId)
  | admissionHistory _ => none
  | serviceInstances r => some (.serviceInstance r.instanceId)
  | serviceInstanceKeys r => some (.serviceInstanceKey r.keyId)
  | registryAudit _ => none
  | handshakeChallenges r => some (.handshakeChallenge r.challengeDigest)
  | handshakes r => some (.handshake r.challengeDigest)
  | handshakeAudit _ => none
  | subscriptions r => some (.subscription r.id)
  | subscriptionAudit _ => none
  | serviceRequestIds r => some (.serviceRequestId r.serviceId r.requestId)
  | serviceRequestNonces r => some (.nonce r.keyId r.nonceDigest)
  | replayAudit _ => none
  | acceptedRequests r => some (.acceptedRequest r.sourceServiceId r.requestId)
  | acceptanceAudit _ => none
  | schemaVersions r => some (.schemaVersion r.schemaVersionId)
  | schemaStatusAudit _ => none
  | grants r => some (.grant r.grantId)
  | grantAudit _ => none
  | decisions r => some (.decision r.decisionId)
  | requestRoutes r => some (.route r.routeId)
  | workClaims r => some (.claim r.claimId)

/-- The entries of unique indexes. -/
def entries (r : Row) : List Key := r.inserted.keys

/-- The foreign keys. -/
def refs : Row → List Key
  | identities _ => []
  | enrollmentBindings r => [.identity r.serviceId]
  | enrollmentChallenges r => [.identity r.serviceId]
  | admissions r => [.identity r.serviceId]
  | admissionHistory _ => []
  | serviceInstances r => [.identity r.serviceId]
  | serviceInstanceKeys r => [.serviceInstance r.instanceId]
  | registryAudit _ => []
  | handshakeChallenges r =>
      [.serviceInstance r.targetInstanceId, .serviceInstanceKey r.targetKeyId]
  | handshakes r =>
    [.handshakeChallenge r.challengeDigest, .serviceInstance r.targetInstanceId,
      .serviceInstanceKey r.targetKeyId]
  | handshakeAudit _ => []
  | subscriptions r => [.identity r.serviceId]
  | subscriptionAudit _ => []
  | serviceRequestIds r => [.identity r.serviceId]
  | serviceRequestNonces r =>
    [.serviceInstanceKey r.keyId, .identity r.serviceId, .serviceInstance r.instanceId]
  | replayAudit _ => []
  | acceptedRequests r =>
    [.identity r.sourceServiceId, .schemaVersion r.artifactSchemaVersionId,
      .schemaVersion r.permissionPolicySchemaVersionId]
  | acceptanceAudit r => [.acceptedRequest r.sourceServiceId r.requestId]
  | schemaVersions r => .identity r.ownerServiceId :: (r.predecessorId.map .schemaVersion).toList
  | schemaStatusAudit _ => []
  | grants r =>
    .identity r.sourceServiceId :: .schemaVersion r.artifactSchemaVersionId ::
      .schemaVersion r.permissionPolicySchemaVersionId ::
        (r.destinationServiceId.map .identity).toList
  | grantAudit _ => []
  | decisions r =>
    .identity r.sourceServiceId :: .identity r.evaluatorServiceId ::
      .schemaVersion r.artifactSchemaVersionId ::
        .schemaVersion r.permissionPolicySchemaVersionId ::
          (r.destinationServiceId.map .identity).toList
  | requestRoutes r =>
    [.subscription r.subscriptionId, .identity r.destinationServiceId,
      .acceptedRequest r.sourceServiceId r.requestId]
  | workClaims r =>
    [.route r.routeId, .identity r.workerServiceId, .serviceInstance r.workerInstanceId]

/-- The `CHECK` constraints. -/
def valid : Row → Prop
  | identities r => checkText r.displayName = .ok () ∧ checkTrimmed 200 r.displayName
  | enrollmentBindings r => r.check = .ok ()
  | enrollmentChallenges r => r.check = .ok ()
  | admissions r => r.check = .ok ()
  | admissionHistory r =>
    checkTrimmed 200 r.administratorIdentity ∧ 0 ≤ r.committedAt ∧ checkTrimmed 1000 r.reason ∧
      0 ≤ r.revision
  | serviceInstances r => checkText r.endpoint = .ok () ∧ r.check = .ok ()
  | serviceInstanceKeys r => r.check = .ok ()
  | registryAudit r => r.check = .ok ()
  | handshakeChallenges r => r.check = .ok ()
  | handshakes r => r.verifiedAt < r.expiresAt ∧ 0 ≤ r.verifiedAt
  | handshakeAudit r => r.check = .ok ()
  | subscriptions r =>
    (∀ disabledAt ∈ r.disabledAt, r.createdAt ≤ disabledAt) ∧ 0 ≤ r.createdAt ∧
      checkDottedName 1 1 r.eventType
  | subscriptionAudit r => r.check = .ok ()
  | serviceRequestIds r => 0 ≤ r.firstSeenAt
  | serviceRequestNonces r =>
    r.signatureCreated < r.signatureExpires ∧ 0 ≤ r.reservedAt ∧ 0 ≤ r.signatureCreated
  | replayAudit r => 0 ≤ r.recordedAt
  | acceptedRequests r => r.check = .ok ()
  | acceptanceAudit _ => True
  | schemaVersions r => checkDottedName 3 2 r.name ∧ 0 ≤ r.publishedAt ∧ 1 ≤ r.version
  | schemaStatusAudit r =>
    checkTrimmed 200 r.administratorIdentity ∧ checkTrimmed 1000 r.reason ∧ 0 ≤ r.recordedAt
  | grants r =>
    checkDottedName 3 2 r.action ∧ checkTrimmed 200 r.administratorIdentity ∧
      (∀ limit ∈ r.validUntil, r.validFrom < limit) ∧ 0 ≤ r.createdAt ∧ checkTrimmed 1000 r.reason ∧
      (∀ revokedAt ∈ r.revokedAt, 0 ≤ revokedAt) ∧ checkScope r.scope ∧ 0 ≤ r.validFrom
  | grantAudit r => r.check = .ok ()
  | decisions r =>
    checkText r.scope = .ok () ∧ r.policyBundleVersion.elim (.ok ()) checkText = .ok () ∧
      checkDottedName 3 2 r.action ∧ 0 ≤ r.decidedAt ∧ checkScope r.scope
  | requestRoutes r => 0 ≤ r.createdAt
  | workClaims r => r.claimedAt < r.leaseExpiresAt ∧ 0 ≤ r.claimedAt ∧ 1 ≤ r.fencingToken

/-- A row as the kernel inserts it. -/
def starts : Row → Prop
  | identities r => r.status = .active
  | enrollmentChallenges r => r.consumedAt = none
  | admissions r => r.communicationEnabled = false ∧ r.revision = 0
  | serviceInstances r => r.leaseRevision = 1 ∧ r.revokedAt = none
  | serviceInstanceKeys r => r.revokedAt = none
  | handshakeChallenges r => r.consumedAt = none
  | subscriptions r => r.disabledAt = none
  | schemaVersions r => r.status = .published
  | grants r => r.revokedAt = none
  | workClaims r => r.status = .active
  | _ => True

/-- The new version that an `UPDATE` may make of a row: what the triggers let through, and what the
statements do where there is no trigger. -/
def moves : Row → Row → Prop
  | identities old, identities new => new.id = old.id
  | enrollmentBindings old, enrollmentBindings new => new.serviceId = old.serviceId
  | enrollmentChallenges old, enrollmentChallenges new =>
    old.consumedAt = none ∧ ∃ consumedAt, new = old.consume consumedAt
  | admissions old, admissions new =>
    new.serviceId = old.serviceId ∧ new.revision = old.revision + 1 ∧
      new.communicationEnabled ≠ old.communicationEnabled ∧ old.updatedAt ≤ new.updatedAt
  | serviceInstances old, serviceInstances new =>
    old.revokedAt = none ∧ ((∃ leaseExpiresAt, new = old.renew leaseExpiresAt) ∨
      ∃ revokedAt, new = old.revoke revokedAt)
  | serviceInstanceKeys old, serviceInstanceKeys new =>
    old.revokedAt = none ∧ ∃ revokedAt, new = old.revoke revokedAt
  | handshakeChallenges old, handshakeChallenges new =>
    { new with consumedAt := old.consumedAt } = old ∧ old.consumedAt = none ∧ new.consumedAt ≠ none
  | subscriptions old, subscriptions new =>
    { new with disabledAt := old.disabledAt } = old ∧ old.disabledAt = none ∧ new.disabledAt ≠ none
  | schemaVersions old, schemaVersions new =>
    new.EqButStatus old ∧ old.status.isTerminal = false ∧ new.status ≠ old.status
  | grants old, grants new =>
    { new with revokedAt := old.revokedAt } = old ∧ old.revokedAt = none ∧ new.revokedAt ≠ none
  | workClaims old, workClaims new => protectWorkClaim old new = .ok ()
  | _, _ => False

/-- A version that no update may replace: the rows of the histories and audits and of what is
recorded once, and in the other tables what is consumed, revoked, disabled or ended. -/
def final : Row → Prop
  | identities _ | enrollmentBindings _ | admissions _ => False
  | enrollmentChallenges r => r.consumedAt ≠ none
  | serviceInstances r => r.revokedAt ≠ none
  | serviceInstanceKeys r => r.revokedAt ≠ none
  | handshakeChallenges r => r.consumedAt ≠ none
  | subscriptions r => r.disabledAt ≠ none
  | schemaVersions r => r.status.isTerminal = true
  | grants r => r.revokedAt ≠ none
  | workClaims r => r.status ≠ .active
  | _ => True

/-- A final row moves nowhere. -/
theorem not_moves_of_final {r r' : Row} (h : r.final) : ¬ r.moves r' := by
  intro hmoves
  cases r with
  | identities | enrollmentBindings | admissions => exact h
  | enrollmentChallenges r => cases r' <;> first | exact hmoves | exact h hmoves.1
  | serviceInstances r => cases r' <;> first | exact hmoves | exact h hmoves.1
  | serviceInstanceKeys r => cases r' <;> first | exact hmoves | exact h hmoves.1
  | handshakeChallenges r => cases r' <;> first | exact hmoves | exact h hmoves.2.1
  | subscriptions r => cases r' <;> first | exact hmoves | exact h hmoves.2.1
  | schemaVersions r =>
    cases r' <;> first | exact hmoves | exact Bool.eq_false_iff.mp hmoves.2.1 h
  | grants r => cases r' <;> first | exact hmoves | exact h hmoves.2.1
  | workClaims r =>
    cases r' <;> first | exact hmoves | exact h (protectWorkClaim_eq_ok.mp hmoves).2.1
  | _ => cases r' <;> exact hmoves

/-- The primary key is one of the entries. -/
theorem pk_mem_entries (r : Row) (k : Key) (h : r.pk = some k) : k ∈ r.entries := by
  cases r <;> cases h <;> simp [entries, inserted, Write.keys]

/-- A row has no entry twice. -/
theorem nodup_entries (r : Row) : r.entries.Nodup := by
  cases r with
  | subscriptions r => by_cases h : r.disabledAt = none <;> simp [entries, inserted, Write.keys, h]
  | workClaims r => by_cases h : r.status = .active <;> simp [entries, inserted, Write.keys, h]
  | _ => simp [entries, inserted, Write.keys]

end Row

/-- What the migrations declare. -/
def schema : Schema Row Key where
  pk := Row.pk
  entries := Row.entries
  refs := Row.refs
  valid := Row.valid
  starts := Row.starts
  moves := Row.moves
  pk_mem := Row.pk_mem_entries
  nodup_entries := Row.nodup_entries

/-! ## The rows of a database -/

/-- The rows of one table. -/
def Db.table (d : Db) : TableName → Multiset Row
  | .identities => ↑(d.identityRows.map Row.identities)
  | .enrollmentBindings => ↑(d.enrollmentBindings.map Row.enrollmentBindings)
  | .enrollmentChallenges => ↑(d.enrollmentChallenges.map Row.enrollmentChallenges)
  | .admissions => ↑(d.admissions.map Row.admissions)
  | .admissionHistory => ↑(d.admissionHistory.map Row.admissionHistory)
  | .serviceInstances => ↑(d.serviceInstances.map Row.serviceInstances)
  | .serviceInstanceKeys => ↑(d.serviceInstanceKeys.map Row.serviceInstanceKeys)
  | .registryAudit => ↑(d.registryAudit.map Row.registryAudit)
  | .handshakeChallenges => ↑(d.handshakeChallenges.map Row.handshakeChallenges)
  | .handshakes => ↑(d.handshakes.map Row.handshakes)
  | .handshakeAudit => ↑(d.handshakeAudit.map Row.handshakeAudit)
  | .subscriptions => ↑(d.subscriptions.map Row.subscriptions)
  | .subscriptionAudit => ↑(d.subscriptionAudit.map Row.subscriptionAudit)
  | .serviceRequestIds => ↑(d.serviceRequestIds.map Row.serviceRequestIds)
  | .serviceRequestNonces => ↑(d.serviceRequestNonces.map Row.serviceRequestNonces)
  | .replayAudit => ↑(d.replayAudit.map Row.replayAudit)
  | .acceptedRequests => ↑(d.acceptedRequests.map Row.acceptedRequests)
  | .acceptanceAudit => ↑(d.acceptanceAudit.map Row.acceptanceAudit)
  | .schemaVersions => ↑(d.schemaVersions.map Row.schemaVersions)
  | .schemaStatusAudit => ↑(d.schemaStatusAudit.map Row.schemaStatusAudit)
  | .grants => ↑(d.grants.map Row.grants)
  | .grantAudit => ↑(d.grantAudit.map Row.grantAudit)
  | .decisions => ↑(d.decisions.map Row.decisions)
  | .requestRoutes => ↑(d.requestRoutes.map Row.requestRoutes)
  | .workClaims => ↑(d.workClaims.map Row.workClaims)

/-- The rows of all tables. -/
def Db.rows (d : Db) : Multiset Row := ∑ t, d.table t

/-- The row is in its table. -/
def Db.HasRow (d : Db) : Row → Prop
  | .identities r => r ∈ d.identityRows
  | .enrollmentBindings r => r ∈ d.enrollmentBindings
  | .enrollmentChallenges r => r ∈ d.enrollmentChallenges
  | .admissions r => r ∈ d.admissions
  | .admissionHistory r => r ∈ d.admissionHistory
  | .serviceInstances r => r ∈ d.serviceInstances
  | .serviceInstanceKeys r => r ∈ d.serviceInstanceKeys
  | .registryAudit r => r ∈ d.registryAudit
  | .handshakeChallenges r => r ∈ d.handshakeChallenges
  | .handshakes r => r ∈ d.handshakes
  | .handshakeAudit r => r ∈ d.handshakeAudit
  | .subscriptions r => r ∈ d.subscriptions
  | .subscriptionAudit r => r ∈ d.subscriptionAudit
  | .serviceRequestIds r => r ∈ d.serviceRequestIds
  | .serviceRequestNonces r => r ∈ d.serviceRequestNonces
  | .replayAudit r => r ∈ d.replayAudit
  | .acceptedRequests r => r ∈ d.acceptedRequests
  | .acceptanceAudit r => r ∈ d.acceptanceAudit
  | .schemaVersions r => r ∈ d.schemaVersions
  | .schemaStatusAudit r => r ∈ d.schemaStatusAudit
  | .grants r => r ∈ d.grants
  | .grantAudit r => r ∈ d.grantAudit
  | .decisions r => r ∈ d.decisions
  | .requestRoutes r => r ∈ d.requestRoutes
  | .workClaims r => r ∈ d.workClaims

/-- What a write does to the row. -/
def Write.change : Write → RowWrite Row
  | identities w => w.lift .identities
  | enrollmentBindings w => w.lift .enrollmentBindings
  | enrollmentChallenges w => w.lift .enrollmentChallenges
  | admissions w => w.lift .admissions
  | admissionHistory r => .insert (.admissionHistory r)
  | serviceInstances w => w.lift .serviceInstances
  | serviceInstanceKeys w => w.lift .serviceInstanceKeys
  | registryAudit r => .insert (.registryAudit r)
  | handshakeChallenges w => w.lift .handshakeChallenges
  | handshakes r => .insert (.handshakes r)
  | handshakeAudit r => .insert (.handshakeAudit r)
  | subscriptions w => w.lift .subscriptions
  | subscriptionAudit r => .insert (.subscriptionAudit r)
  | serviceRequestIds r => .insert (.serviceRequestIds r)
  | serviceRequestNonces r => .insert (.serviceRequestNonces r)
  | replayAudit r => .insert (.replayAudit r)
  | acceptedRequests r => .insert (.acceptedRequests r)
  | acceptanceAudit r => .insert (.acceptanceAudit r)
  | schemaVersions w => w.lift .schemaVersions
  | schemaStatusAudit r => .insert (.schemaStatusAudit r)
  | grants w => w.lift .grants
  | grantAudit r => .insert (.grantAudit r)
  | decisions r => .insert (.decisions r)
  | requestRoutes r => .insert (.requestRoutes r)
  | workClaims w => w.lift .workClaims

/-! ## What a write does to the rows -/

namespace Write

variable (d : Db) (w : Write)

/-- A write holds the entries of the row that it writes. -/
theorem keys_eq : w.keys = w.change.row.entries := by
  cases w <;> first | rfl | (rename_i w; cases w <;> rfl)

/-- The row of a write is of the write's table. -/
theorem table_change : w.change.row.table = w.table := by
  cases w <;> first | rfl | (rename_i w; cases w <;> rfl)

end Write

/-- The table whose primary key the key is. -/
def Key.table : Key → TableName
  | identity _ => .identities
  | enrollmentBinding _ | workload _ _ _ => .enrollmentBindings
  | enrollmentChallenge _ => .enrollmentChallenges
  | admission _ => .admissions
  | admissionHistory _ _ => .admissionHistory
  | serviceInstance _ => .serviceInstances
  | serviceInstanceKey _ | instanceKey _ | fingerprint _ => .serviceInstanceKeys
  | handshakeChallenge _ => .handshakeChallenges
  | handshake _ => .handshakes
  | subscription _ | activeSubscription _ _ => .subscriptions
  | serviceRequestId _ _ => .serviceRequestIds
  | nonce _ _ => .serviceRequestNonces
  | acceptedRequest _ _ => .acceptedRequests
  | schemaVersion _ | schemaNumber _ _ _ => .schemaVersions
  | schemaStatusAudit _ _ => .schemaStatusAudit
  | grant _ | grantCorrelation _ => .grants
  | decision _ => .decisions
  | route _ | routeMatch _ _ => .requestRoutes
  | claim _ | claimToken _ _ | activeClaim _ => .workClaims

/-- A primary key says which table it is of. -/
theorem Row.table_of_pk {r : Row} {k : Key} (h : r.pk = some k) : r.table = k.table := by
  cases r <;> cases h <;> rfl

/-- A row that is updated has a primary key. -/
theorem Write.pk_of_update {w : Write} {new : Row} (h : w.change = .update new) :
    ∃ k, new.pk = some k := by
  cases w with
  | identities w | enrollmentBindings w | enrollmentChallenges w | admissions w | serviceInstances w
  | serviceInstanceKeys w | handshakeChallenges w | subscriptions w | schemaVersions w | grants w
  | workClaims w =>
    cases w <;> cases h
    exact ⟨_, rfl⟩
  | _ => cases h

namespace Db

variable {d : Db} {w : Write} {r : Row} {t : TableName}

/-- The rows of a table are in it. -/
theorem mem_table : r ∈ d.table t ↔ r.table = t ∧ d.HasRow r := by
  cases t <;> cases r <;> simp [table, Row.table, HasRow]

/-- The rows of the database are those of its tables. -/
theorem mem_rows : r ∈ d.rows ↔ d.HasRow r := by
  rw [rows, Multiset.mem_sum]
  constructor
  · rintro ⟨t, -, hr⟩
    exact (mem_table.mp hr).2
  · exact fun h => ⟨r.table, Finset.mem_univ _, mem_table.mpr ⟨rfl, h⟩⟩

/-- A write changes no table but its own. -/
theorem table_apply_of_ne (h : t ≠ w.table) : (d.apply w).table t = d.table t := by
  cases w <;> cases t <;> first | rfl | exact absurd rfl h

/-- Its own table it changes as the schema says. -/
theorem table_apply : (d.apply w).table w.table = schema.act (d.table w.table) w.change := by
  cases w with
  | identities w | enrollmentBindings w | enrollmentChallenges w | admissions w | serviceInstances w
  | serviceInstanceKeys w | handshakeChallenges w | subscriptions w | schemaVersions w | grants w
  | workClaims w => exact Schema.act_lift fun r r' => by simp [schema, Row.pk]
  | _ => simp [Write.table, table, apply, Write.change, Schema.act_insert]

/-- What a write does to the rows of all tables. -/
theorem rows_apply : (d.apply w).rows = schema.act d.rows w.change := by
  refine Schema.act_sum table_apply (fun t ht => table_apply_of_ne ht) fun t ht r hr => ?_
  rintro ⟨new, hw, hpk⟩
  obtain ⟨k, hk⟩ := Write.pk_of_update hw
  -- The tables of the two rows are the same.
  have htable : w.table = new.table := by
    rw [← w.table_change, hw]
    rfl
  refine ht ?_
  rw [← (mem_table.mp hr).1, htable, Row.table_of_pk hk]
  exact Row.table_of_pk (hpk.trans hk)

end Db

end InfernalLaw
