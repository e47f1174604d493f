import InfernalLaw.Infrastructure.Database
import InfernalLaw.Kernel.Text

/-!
# Constraints of the migrations

For each table that the kernel inserts into, the verdict of its constraints on a new row: the
`CHECK` constraints in the order of their names, the unique indexes, and the foreign keys. For each
table with a trigger on updates, the verdict of the trigger and of the constraints on a changed row.
The constraints have the names that PostgreSQL gives them, which it cuts to 63 characters.
-/

namespace InfernalLaw

open Postgres (DbError require)

/-! ## Text -/

/-- The `CHECK` of a dotted name: between `low` and 200 characters, and at least `segments`
segments. The pattern implies that the name equals its `lower` form. -/
def checkDottedName (low segments : ℕ) (value : Str) : Prop :=
  low ≤ value.length ∧ value.length ≤ 200 ∧ segments ≤ (value.splitOn '.').length ∧
    ∀ segment ∈ value.splitOn '.', isValidSegment segment = true

instance (low segments : ℕ) (value : Str) : Decidable (checkDottedName low segments value) :=
  inferInstanceAs (Decidable (_ ∧ _))

/-- What passes the check of an action is an action. -/
theorem exists_action_of_checkDottedName {value : Str} (h : checkDottedName 3 2 value) :
    ∃ action : ActionName, action.text = value := by
  obtain ⟨hlow, hhigh, hcount, hsegments⟩ := h
  have hascii : ∀ c ∈ value, c.val.toNat < 0x80 := by
    intro c hc
    rcases Str.mem_splitOn '.' hc with rfl | ⟨seg, hseg, hmem⟩
    · decide
    · exact (range_of_mem_segment (hsegments seg hseg) hmem).2
  refine ⟨⟨value, ?_⟩, rfl⟩
  have hne : value.isEmpty = false := by
    cases value with
    | nil => simp at hlow
    | cons => rfl
  simp only [isValidActionName, isValidDottedName, hne, Str.len_of_ascii hascii,
    maxActionNameLength, hhigh, decide_true, Bool.not_false, Bool.true_and]
  split
  · rename_i hsplit
    rw [hsplit] at hsegments
    simp only [List.forall_mem_cons] at hsegments
    simp only [hsegments.1, hsegments.2.1, Bool.true_and, List.all_eq_true]
    exact hsegments.2.2
  · rename_i hsplit
    rcases hs : value.splitOn '.' with _ | ⟨first, _ | ⟨second, rest⟩⟩
    · simp [hs] at hcount
    · simp [hs] at hcount
    · exact absurd hs (hsplit first second rest)

/-- `btrim`, which removes spaces. -/
def btrim (value : Str) : Str := (value.dropWhile (· == ' ')).rdropWhile (· == ' ')

/-- What is trimmed is not trimmed again. -/
theorem btrim_btrim (value : Str) : btrim (btrim value) = btrim value :=
  Str.strip_strip (· == ' ') value

namespace Str

/-- Text that has nothing to remove at its ends has no less to remove there. -/
theorem strip_of_strip {p q : Char → Bool} (hpq : ∀ c, q c = true → p c = true) {s : Str}
    (h : (s.dropWhile p).rdropWhile p = s) : (s.dropWhile q).rdropWhile q = s := by
  have hprefix := (List.rdropWhile_prefix p (s.dropWhile p)).length_le
  have hsuffix := List.dropWhile_suffix p (l := s)
  have hdrop : s.dropWhile p = s := by
    refine hsuffix.eq_of_length (le_antisymm hsuffix.length_le ?_)
    rwa [h] at hprefix
  rw [hdrop] at h
  have hdrop' : s.dropWhile q = s := by
    refine List.dropWhile_eq_self_iff.mpr fun hpos hq => ?_
    exact List.dropWhile_eq_self_iff.mp hdrop hpos (hpq _ hq)
  rw [hdrop']
  refine List.rdropWhile_eq_self_iff.mpr fun hne hq => ?_
  exact List.rdropWhile_eq_self_iff.mp h hne (hpq _ hq)

/-- Trimmed text has no spaces at its ends. -/
theorem btrim_of_trim {s : Str} (h : s.trim = s) : btrim s = s := by
  refine strip_of_strip (p := isWhitespace) (fun c hc => ?_) h
  rw [eq_of_beq hc]
  decide

end Str

/-- The `CHECK` of a scope. -/
def checkScope (value : Str) : Prop :=
  1 ≤ value.length ∧ value.length ≤ 200 ∧ value = btrim value

instance (value : Str) : Decidable (checkScope value) := inferInstanceAs (Decidable (_ ∧ _))

/-- A scope satisfies the constraint of its columns. -/
theorem Scope.check (scope : Scope) : checkScope scope.text := by
  have hvalid := scope.valid
  simp only [isValidScope, Bool.and_eq_true, Bool.not_eq_true', List.isEmpty_eq_false_iff,
    decide_eq_true_eq, beq_iff_eq] at hvalid
  obtain ⟨⟨hne, hlen⟩, htrim⟩ := hvalid
  exact ⟨List.length_pos_iff.mpr hne, scope.text.length_le_len.trans hlen,
    (Str.btrim_of_trim htrim).symm⟩

/-- Text that PostgreSQL can store. -/
def checkText (value : Str) : Except DbError Unit := require ('\x00' ∉ value) .invalidText

/-- Text that the database can store. -/
theorem checkText_eq_ok {value : Str} : checkText value = .ok () ↔ '\x00' ∉ value :=
  Postgres.require_eq_ok

/-- The `CHECK` of the administrator's identity and of the reason, which are trimmed. -/
def checkTrimmed (high : ℕ) (value : Str) : Prop :=
  1 ≤ (btrim value).length ∧ (btrim value).length ≤ high

instance (high : ℕ) (value : Str) : Decidable (checkTrimmed high value) :=
  inferInstanceAs (Decidable (_ ∧ _))

/-- What passes the check does so when it is trimmed. -/
theorem checkTrimmed_btrim {high : ℕ} {value : Str} :
    checkTrimmed high (btrim value) ↔ checkTrimmed high value := by
  rw [checkTrimmed, btrim_btrim, checkTrimmed]

/-! ## Identities and their admission -/

/-- The constraints of `identities` on a new row. -/
def Db.checkIdentity (d : Db) (row : IdentityRow) : Except DbError Unit := do
  checkText row.displayName
  require (checkTrimmed 200 row.displayName) (.checkViolation "identities_display_name_check")
  require (row.id ∉ d.identities) (.uniqueViolation "identities_pkey")

/-- The `CHECK` constraints of `service_communication_admission`. -/
def AdmissionRow.check (row : AdmissionRow) : Except DbError Unit := do
  require (0 ≤ row.revision) (.checkViolation "service_communication_admission_revision_check")
  require (0 ≤ row.updatedAt) (.checkViolation "service_communication_admission_updated_at_check")

/-- The constraints of `service_communication_admission` on a new row. -/
def Db.checkAdmission (d : Db) (row : AdmissionRow) : Except DbError Unit := do
  row.check
  require (∀ r ∈ d.admissions, r.serviceId ≠ row.serviceId)
    (.uniqueViolation "service_communication_admission_pkey")
  require (row.serviceId ∈ d.identities)
    (.foreignKeyViolation "service_communication_admission_service_id_fkey")

/-- A change of an admission by the administrative function:
`protect_service_communication_admission`, with the context that the function sets, then the `CHECK`
on the columns. -/
def changeAdmission (old new : AdmissionRow) : Except DbError AdmissionRow := do
  require
    (new.serviceId = old.serviceId ∧ new.revision = old.revision + 1 ∧
      new.communicationEnabled ≠ old.communicationEnabled ∧ old.updatedAt ≤ new.updatedAt)
    (.raised "invalid communication admission state transition")
  new.check
  return new

/-- The constraints of `service_communication_admission_history` on a new row. -/
def Db.checkAdmissionHistory (d : Db) (row : AdmissionHistoryRow) : Except DbError Unit := do
  require (checkTrimmed 200 row.administratorIdentity)
    (.checkViolation "service_communication_admission_hi_administrator_identity_check")
  require (0 ≤ row.committedAt)
    (.checkViolation "service_communication_admission_history_committed_at_check")
  require (checkTrimmed 1000 row.reason)
    (.checkViolation "service_communication_admission_history_reason_check")
  require (0 ≤ row.revision)
    (.checkViolation "service_communication_admission_history_revision_check")
  require
    (∀ r ∈ d.admissionHistory, r.serviceId = row.serviceId → r.correlationId ≠ row.correlationId)
    (.uniqueViolation "service_communication_admission_h_service_id_correlation_id_key")

/-! ## Enrollment -/

/-- The `CHECK` constraints of `service_enrollment_bindings`. -/
def EnrollmentBindingRow.check (row : EnrollmentBindingRow) : Except DbError Unit := do
  checkText row.workloadNamespace
  checkText row.serviceAccount
  checkText row.serviceAccountUid
  require (checkTrimmed 253 row.workloadNamespace)
    (.checkViolation "service_enrollment_bindings_namespace_check")
  require (checkTrimmed 253 row.serviceAccount)
    (.checkViolation "service_enrollment_bindings_service_account_check")
  require (checkTrimmed 253 row.serviceAccountUid)
    (.checkViolation "service_enrollment_bindings_service_account_uid_check")

/-- `UNIQUE (namespace, service_account, service_account_uid)`. -/
def Db.checkWorkload (d : Db) (row : EnrollmentBindingRow) : Except DbError Unit :=
  require
    (∀ r ∈ d.enrollmentBindings, r.serviceId ≠ row.serviceId →
      r.workloadNamespace = row.workloadNamespace → r.serviceAccount = row.serviceAccount →
      r.serviceAccountUid ≠ row.serviceAccountUid)
    (.uniqueViolation "service_enrollment_bindings_namespace_service_account_servi_key")

/-- The constraints of `service_enrollment_bindings` on a new row. -/
def Db.checkEnrollmentBinding (d : Db) (row : EnrollmentBindingRow) : Except DbError Unit := do
  row.check
  require (∀ r ∈ d.enrollmentBindings, r.serviceId ≠ row.serviceId)
    (.uniqueViolation "service_enrollment_bindings_pkey")
  d.checkWorkload row
  require (row.serviceId ∈ d.identities)
    (.foreignKeyViolation "service_enrollment_bindings_service_id_fkey")

/-- The `CHECK` constraints of `service_enrollment_challenges`. -/
def EnrollmentChallengeRow.check (row : EnrollmentChallengeRow) : Except DbError Unit := do
  require (∀ consumedAt ∈ row.consumedAt, 0 ≤ consumedAt)
    (.checkViolation "service_enrollment_challenges_consumed_at_check")
  require (0 ≤ row.expiresAt) (.checkViolation "service_enrollment_challenges_expires_at_check")

/-- The constraints of `service_enrollment_challenges` on a new row. -/
def Db.checkEnrollmentChallenge (d : Db) (row : EnrollmentChallengeRow) : Except DbError Unit := do
  row.check
  require (∀ r ∈ d.enrollmentChallenges, r.challengeDigest ≠ row.challengeDigest)
    (.uniqueViolation "service_enrollment_challenges_pkey")
  require (row.serviceId ∈ d.identities)
    (.foreignKeyViolation "service_enrollment_challenges_service_id_fkey")

/-- A change of a challenge. -/
def changeEnrollmentChallenge (new : EnrollmentChallengeRow) :
    Except DbError EnrollmentChallengeRow := do
  new.check
  return new

/-! ## Instances and their keys -/

/-- The `CHECK` constraints of `service_instances`. -/
def ServiceInstanceRow.check (row : ServiceInstanceRow) : Except DbError Unit := do
  require (row.registeredAt < row.leaseExpiresAt) (.checkViolation "service_instances_check")
  require (∀ revokedAt ∈ row.revokedAt, row.registeredAt ≤ revokedAt)
    (.checkViolation "service_instances_check1")
  require
    (1 ≤ row.endpoint.length ∧ row.endpoint.length ≤ 2048 ∧
      row.endpoint.startsWith "https://".toList = true)
    (.checkViolation "service_instances_endpoint_check")
  require (0 < row.leaseRevision) (.checkViolation "service_instances_lease_revision_check")
  require (0 ≤ row.registeredAt) (.checkViolation "service_instances_registered_at_check")

/-- The constraints of `service_instances` on a new row. -/
def Db.checkServiceInstance (d : Db) (row : ServiceInstanceRow) : Except DbError Unit := do
  checkText row.endpoint
  row.check
  require (∀ r ∈ d.serviceInstances, r.instanceId ≠ row.instanceId)
    (.uniqueViolation "service_instances_pkey")
  require (row.serviceId ∈ d.identities) (.foreignKeyViolation "service_instances_service_id_fkey")

/-- A change of an instance, whose revision must fit the column. -/
def changeServiceInstance (new : ServiceInstanceRow) : Except DbError ServiceInstanceRow := do
  require (new.leaseRevision < 2 ^ 63) (.raised "bigint out of range")
  new.check
  return new

/-- The `CHECK` constraints of `service_instance_keys`. -/
def ServiceInstanceKeyRow.check (row : ServiceInstanceKeyRow) : Except DbError Unit := do
  require (∀ revokedAt ∈ row.revokedAt, row.validFrom ≤ revokedAt)
    (.checkViolation "service_instance_keys_check")
  require (0 ≤ row.validFrom) (.checkViolation "service_instance_keys_valid_from_check")

/-- The constraints of `service_instance_keys` on a new row. -/
def Db.checkServiceInstanceKey (d : Db) (row : ServiceInstanceKeyRow) : Except DbError Unit := do
  row.check
  require (∀ r ∈ d.serviceInstanceKeys, r.keyId ≠ row.keyId)
    (.uniqueViolation "service_instance_keys_pkey")
  require (∀ r ∈ d.serviceInstanceKeys, r.instanceId ≠ row.instanceId)
    (.uniqueViolation "service_instance_keys_instance_id_key")
  require (∀ r ∈ d.serviceInstanceKeys, r.fingerprint ≠ row.fingerprint)
    (.uniqueViolation "service_instance_keys_fingerprint_idx")
  require (∃ r ∈ d.serviceInstances, r.instanceId = row.instanceId)
    (.foreignKeyViolation "service_instance_keys_instance_id_fkey")

/-- A change of a key. -/
def changeServiceInstanceKey (new : ServiceInstanceKeyRow) :
    Except DbError ServiceInstanceKeyRow := do
  new.check
  return new

/-- The `CHECK` constraints of `service_instance_registry_audit`. -/
def RegistryAuditRow.check (row : RegistryAuditRow) : Except DbError Unit := do
  require (0 < row.leaseRevision)
    (.checkViolation "service_instance_registry_audit_lease_revision_check")
  require (0 ≤ row.recordedAt) (.checkViolation "service_instance_registry_audit_recorded_at_check")

/-! ## Handshakes -/

/-- The `CHECK` constraints of `service_instance_handshake_challenges`. -/
def HandshakeChallengeRow.check (row : HandshakeChallengeRow) : Except DbError Unit := do
  require (row.issuedAt < row.expiresAt)
    (.checkViolation "service_instance_handshake_challenges_check")
  require (∀ consumedAt ∈ row.consumedAt, row.issuedAt ≤ consumedAt)
    (.checkViolation "service_instance_handshake_challenges_check1")
  require (0 ≤ row.issuedAt)
    (.checkViolation "service_instance_handshake_challenges_issued_at_check")

/-- The constraints of `service_instance_handshake_challenges` on a new row. -/
def Db.checkHandshakeChallenge (d : Db) (row : HandshakeChallengeRow) : Except DbError Unit := do
  row.check
  require (∀ r ∈ d.handshakeChallenges, r.challengeDigest ≠ row.challengeDigest)
    (.uniqueViolation "service_instance_handshake_challenges_pkey")
  require (∃ r ∈ d.serviceInstances, r.instanceId = row.targetInstanceId)
    (.foreignKeyViolation "service_instance_handshake_challenges_target_instance_id_fkey")
  require (∃ r ∈ d.serviceInstanceKeys, r.keyId = row.targetKeyId)
    (.foreignKeyViolation "service_instance_handshake_challenges_target_key_id_fkey")

/-- A change of a challenge: `protect_handshake_challenge_history`, then the `CHECK` on the
columns. -/
def changeHandshakeChallenge (old new : HandshakeChallengeRow) :
    Except DbError HandshakeChallengeRow := do
  require
    ({ new with consumedAt := old.consumedAt } = old ∧ old.consumedAt = none ∧
      new.consumedAt ≠ none)
    (.raised "handshake challenge is immutable except for first consumption")
  new.check
  return new

/-- The constraints of `service_instance_handshakes` on a new row. -/
def Db.checkHandshake (d : Db) (row : HandshakeRow) : Except DbError Unit := do
  require (row.verifiedAt < row.expiresAt) (.checkViolation "service_instance_handshakes_check")
  require (0 ≤ row.verifiedAt) (.checkViolation "service_instance_handshakes_verified_at_check")
  require (∀ r ∈ d.handshakes, r.challengeDigest ≠ row.challengeDigest)
    (.uniqueViolation "service_instance_handshakes_pkey")
  require (∃ r ∈ d.handshakeChallenges, r.challengeDigest = row.challengeDigest)
    (.foreignKeyViolation "service_instance_handshakes_challenge_digest_fkey")
  require (∃ r ∈ d.serviceInstances, r.instanceId = row.targetInstanceId)
    (.foreignKeyViolation "service_instance_handshakes_target_instance_id_fkey")
  require (∃ r ∈ d.serviceInstanceKeys, r.keyId = row.targetKeyId)
    (.foreignKeyViolation "service_instance_handshakes_target_key_id_fkey")

/-- The `CHECK` of `service_instance_handshake_audit`. -/
def HandshakeAuditRow.check (row : HandshakeAuditRow) : Except DbError Unit :=
  require (0 ≤ row.recordedAt)
    (.checkViolation "service_instance_handshake_audit_recorded_at_check")

/-! ## Subscriptions -/

/-- The constraints of `subscriptions` on a new row. -/
def Db.checkSubscription (d : Db) (row : SubscriptionRow) : Except DbError Unit := do
  require (∀ disabledAt ∈ row.disabledAt, row.createdAt ≤ disabledAt)
    (.checkViolation "subscriptions_check")
  require (0 ≤ row.createdAt) (.checkViolation "subscriptions_created_at_check")
  require (checkDottedName 1 1 row.eventType) (.checkViolation "subscriptions_event_type_check")
  require (∀ r ∈ d.subscriptions, r.id ≠ row.id) (.uniqueViolation "subscriptions_pkey")
  require
    (row.disabledAt = none → ∀ r ∈ d.subscriptions, r.disabledAt = none →
      r.serviceId = row.serviceId → r.eventType ≠ row.eventType)
    (.uniqueViolation "subscriptions_one_active_event_idx")
  require (row.serviceId ∈ d.identities) (.foreignKeyViolation "subscriptions_service_id_fkey")

/-- A change of a subscription: `protect_subscription_history`, then the `CHECK` on the columns. -/
def changeSubscription (old new : SubscriptionRow) : Except DbError SubscriptionRow := do
  require
    (new.id = old.id ∧ new.serviceId = old.serviceId ∧ new.eventType = old.eventType ∧
      new.deliveryMode = old.deliveryMode ∧ new.createdAt = old.createdAt ∧
      old.disabledAt = none ∧ new.disabledAt ≠ none)
    (.raised "subscription history is immutable except for first disable")
  require (∀ disabledAt ∈ new.disabledAt, new.createdAt ≤ disabledAt)
    (.checkViolation "subscriptions_check")
  return new

/-- The `CHECK` of `subscription_audit`. -/
def SubscriptionAuditRow.check (row : SubscriptionAuditRow) : Except DbError Unit :=
  require (0 ≤ row.recordedAt) (.checkViolation "subscription_audit_recorded_at_check")

/-! ## Requests and routes -/

/-- The `CHECK` constraints of `accepted_requests`. -/
def AcceptedRequestRow.check (row : AcceptedRequestRow) : Except DbError Unit := do
  checkText row.scope
  require (checkDottedName 3 2 row.action) (.checkViolation "accepted_requests_action_check")
  require (checkScope row.scope) (.checkViolation "accepted_requests_scope_check")

/-- The foreign keys of `accepted_requests`. -/
def Db.referencesAcceptedRequest (d : Db) (row : AcceptedRequestRow) : Except DbError Unit := do
  require (row.sourceServiceId ∈ d.identities)
    (.foreignKeyViolation "accepted_requests_source_service_id_fkey")
  require (∃ r ∈ d.schemaVersions, r.schemaVersionId = row.artifactSchemaVersionId)
    (.foreignKeyViolation "accepted_requests_artifact_schema_version_fk")
  require (∃ r ∈ d.schemaVersions, r.schemaVersionId = row.permissionPolicySchemaVersionId)
    (.foreignKeyViolation "accepted_requests_permission_policy_schema_version_fk")

/-- The foreign key of `request_acceptance_audit`. -/
def Db.referencesAcceptanceAudit (d : Db) (row : AcceptanceAuditRow) : Except DbError Unit :=
  require
    (∃ r ∈ d.acceptedRequests, r.sourceServiceId = row.sourceServiceId ∧
      r.requestId = row.requestId)
    (.foreignKeyViolation "request_acceptance_audit_source_service_id_request_id_fkey")

/-- The unique index on the identifier and the foreign keys of `request_routes`. -/
def Db.referencesRoute (d : Db) (row : RouteRow) : Except DbError Unit := do
  require (∀ r ∈ d.requestRoutes, r.routeId ≠ row.routeId) (.uniqueViolation "request_routes_pkey")
  require (∃ r ∈ d.subscriptions, r.id = row.subscriptionId)
    (.foreignKeyViolation "request_routes_subscription_id_fkey")
  require (row.destinationServiceId ∈ d.identities)
    (.foreignKeyViolation "request_routes_destination_service_id_fkey")
  require
    (∃ r ∈ d.acceptedRequests, r.sourceServiceId = row.sourceServiceId ∧
      r.requestId = row.requestId)
    (.foreignKeyViolation "request_routes_accepted_request_fk")

/-! ## Authority -/

/-- The constraints of `authority_schema_versions` on a new row. -/
def Db.checkSchemaVersion (d : Db) (row : SchemaVersionRow) : Except DbError Unit := do
  require (checkDottedName 3 2 row.name) (.checkViolation "authority_schema_versions_name_check")
  require (0 ≤ row.publishedAt) (.checkViolation "authority_schema_versions_published_at_check")
  require (1 ≤ row.version) (.checkViolation "authority_schema_versions_version_check")
  require (∀ r ∈ d.schemaVersions, r.schemaVersionId ≠ row.schemaVersionId)
    (.uniqueViolation "authority_schema_versions_pkey")
  require
    (∀ r ∈ d.schemaVersions, r.kind = row.kind → r.name = row.name → r.version ≠ row.version)
    (.uniqueViolation "authority_schema_versions_kind_name_version_key")
  require (row.ownerServiceId ∈ d.identities)
    (.foreignKeyViolation "authority_schema_versions_owner_service_id_fkey")
  require (∀ id ∈ row.predecessorId, ∃ r ∈ d.schemaVersions, r.schemaVersionId = id)
    (.foreignKeyViolation "authority_schema_versions_predecessor_id_fkey")

/-- `superseded` and `retired`, which a schema version never leaves. -/
def SchemaStatus.isTerminal : SchemaStatus → Bool
  | superseded => true
  | retired => true
  | _ => false

/-- The text of a status in SQL. -/
def SchemaStatus.sql : SchemaStatus → String
  | published => "published"
  | active => "active"
  | suspended => "suspended"
  | superseded => "superseded"
  | retired => "retired"

/-- A change of a schema version by the administrative function: `protect_authority_schema_version`,
with the context that the function sets. -/
def changeSchemaVersion (old new : SchemaVersionRow) : Except DbError SchemaVersionRow := do
  require ({ new with status := old.status } = old)
    (.raised "only status may change on an authority schema version")
  require (old.status.isTerminal = false)
    (.raised ("authority schema version status " ++ old.status.sql ++ " is terminal"))
  require (new.status ≠ old.status)
    (.raised "authority schema status transition must change the status")
  return new

/-- The constraints of `authority_schema_status_audit` on a new row. -/
def Db.checkSchemaStatusAudit (d : Db) (row : SchemaStatusAuditRow) : Except DbError Unit := do
  require (checkTrimmed 200 row.administratorIdentity)
    (.checkViolation "authority_schema_status_audit_administrator_identity_check")
  require (checkTrimmed 1000 row.reason)
    (.checkViolation "authority_schema_status_audit_reason_check")
  require (0 ≤ row.recordedAt) (.checkViolation "authority_schema_status_audit_recorded_at_check")
  require
    (∀ r ∈ d.schemaStatusAudit, r.schemaVersionId = row.schemaVersionId →
      r.correlationId ≠ row.correlationId)
    (.uniqueViolation "authority_schema_status_audit_schema_version_id_correlation_key")

/-- The constraints of `authority_grants` on a new row. -/
def Db.checkGrant (d : Db) (row : GrantRow) : Except DbError Unit := do
  require (checkDottedName 3 2 row.action) (.checkViolation "authority_grants_action_check")
  require (checkTrimmed 200 row.administratorIdentity)
    (.checkViolation "authority_grants_administrator_identity_check")
  require (∀ limit ∈ row.validUntil, row.validFrom < limit)
    (.checkViolation "authority_grants_check")
  require (0 ≤ row.createdAt) (.checkViolation "authority_grants_created_at_check")
  require (checkTrimmed 1000 row.reason) (.checkViolation "authority_grants_reason_check")
  require (∀ revokedAt ∈ row.revokedAt, 0 ≤ revokedAt)
    (.checkViolation "authority_grants_revoked_at_check")
  require (checkScope row.scope) (.checkViolation "authority_grants_scope_check")
  require (0 ≤ row.validFrom) (.checkViolation "authority_grants_valid_from_check")
  require (∀ r ∈ d.grants, r.grantId ≠ row.grantId) (.uniqueViolation "authority_grants_pkey")
  require (∀ r ∈ d.grants, r.correlationId ≠ row.correlationId)
    (.uniqueViolation "authority_grants_correlation_id_key")
  require (row.sourceServiceId ∈ d.identities)
    (.foreignKeyViolation "authority_grants_source_service_id_fkey")
  require (∀ id ∈ row.destinationServiceId, id ∈ d.identities)
    (.foreignKeyViolation "authority_grants_destination_service_id_fkey")
  require (∃ r ∈ d.schemaVersions, r.schemaVersionId = row.artifactSchemaVersionId)
    (.foreignKeyViolation "authority_grants_artifact_schema_version_fk")
  require (∃ r ∈ d.schemaVersions, r.schemaVersionId = row.permissionPolicySchemaVersionId)
    (.foreignKeyViolation "authority_grants_permission_policy_schema_version_fk")

/-- A change of a grant: `reject_authority_grant_mutation`, then the `CHECK` on the column that may
change. -/
def changeGrant (old new : GrantRow) : Except DbError GrantRow := do
  require (old.revokedAt = none ∧ new.revokedAt ≠ none)
    (.raised "authority grants are append-only")
  require ({ new with revokedAt := old.revokedAt } = old)
    (.raised "authority grants are append-only")
  require (∀ revokedAt ∈ new.revokedAt, 0 ≤ revokedAt)
    (.checkViolation "authority_grants_revoked_at_check")
  return new

/-- The `CHECK` constraints of `authority_grant_administration_audit`. -/
def GrantAuditRow.check (row : GrantAuditRow) : Except DbError Unit := do
  require (checkTrimmed 200 row.administratorIdentity)
    (.checkViolation "authority_grant_administration_aud_administrator_identity_check")
  require (checkTrimmed 1000 row.reason)
    (.checkViolation "authority_grant_administration_audit_reason_check")
  require (0 ≤ row.recordedAt)
    (.checkViolation "authority_grant_administration_audit_recorded_at_check")

/-- The constraints of `authority_decisions` on a new row. -/
def Db.checkDecision (d : Db) (row : DecisionRow) : Except DbError Unit := do
  checkText row.scope
  row.policyBundleVersion.elim (.ok ()) checkText
  require (checkDottedName 3 2 row.action) (.checkViolation "authority_decisions_action_check")
  require (0 ≤ row.decidedAt) (.checkViolation "authority_decisions_decided_at_check")
  require (checkScope row.scope) (.checkViolation "authority_decisions_scope_check")
  require (∀ r ∈ d.decisions, r.decisionId ≠ row.decisionId)
    (.uniqueViolation "authority_decisions_pkey")
  require (row.sourceServiceId ∈ d.identities)
    (.foreignKeyViolation "authority_decisions_source_service_id_fkey")
  require (∀ id ∈ row.destinationServiceId, id ∈ d.identities)
    (.foreignKeyViolation "authority_decisions_destination_service_id_fkey")
  require (row.evaluatorServiceId ∈ d.identities)
    (.foreignKeyViolation "authority_decisions_evaluator_service_id_fkey")
  require (∃ r ∈ d.schemaVersions, r.schemaVersionId = row.artifactSchemaVersionId)
    (.foreignKeyViolation "authority_decisions_artifact_schema_version_fk")
  require (∃ r ∈ d.schemaVersions, r.schemaVersionId = row.permissionPolicySchemaVersionId)
    (.foreignKeyViolation "authority_decisions_permission_policy_schema_version_fk")

/-! ## Work claims -/

namespace Db

variable (d : Db)

/-- The constraints of `work_claims` on a new row. -/
def checkWorkClaim (row : WorkClaimRow) : Except DbError Unit := do
  require (row.claimedAt < row.leaseExpiresAt) (.checkViolation "work_claims_check")
  require (0 ≤ row.claimedAt) (.checkViolation "work_claims_claimed_at_check")
  require (1 ≤ row.fencingToken) (.checkViolation "work_claims_fencing_token_check")
  require (∀ r ∈ d.workClaims, r.claimId ≠ row.claimId) (.uniqueViolation "work_claims_pkey")
  require (∀ r ∈ d.workClaims, r.routeId = row.routeId → r.fencingToken ≠ row.fencingToken)
    (.uniqueViolation "work_claims_route_id_fencing_token_key")
  require (row.status = .active → ∀ r ∈ d.workClaims, r.routeId = row.routeId → r.status ≠ .active)
    (.uniqueViolation "work_claims_one_active_per_route_idx")
  require (∃ r ∈ d.requestRoutes, r.routeId = row.routeId)
    (.foreignKeyViolation "work_claims_route_id_fkey")
  require (row.workerServiceId ∈ d.identities)
    (.foreignKeyViolation "work_claims_worker_service_id_fkey")
  require (∃ r ∈ d.serviceInstances, r.instanceId = row.workerInstanceId)
    (.foreignKeyViolation "work_claims_worker_instance_id_fkey")

end Db

/-- The text of a status in SQL. -/
def WorkClaimStatus.sql : WorkClaimStatus → String
  | active => "active"
  | completed => "completed"
  | released => "released"
  | expired => "expired"

/-- `protect_work_claim`, the trigger on updates. -/
def protectWorkClaim (old new : WorkClaimRow) : Except DbError Unit := do
  require
    (new.claimId = old.claimId ∧ new.routeId = old.routeId ∧
      new.workerServiceId = old.workerServiceId ∧ new.workerInstanceId = old.workerInstanceId ∧
      new.fencingToken = old.fencingToken ∧ new.claimedAt = old.claimedAt)
    (.raised "only status and lease_expires_at may change on a work claim")
  require (old.status = .active)
    (.raised ("work claim status " ++ old.status.sql ++ " is terminal"))
  if new.status = .active then
    require (old.leaseExpiresAt < new.leaseExpiresAt)
      (.raised "work claim renewal must extend the lease")
  else
    require (new.leaseExpiresAt = old.leaseExpiresAt)
      (.raised "a terminal work claim transition must not change the lease")

/-- A change of a work claim: the trigger, then the `CHECK` on the two columns that may change. -/
def changeWorkClaim (old new : WorkClaimRow) : Except DbError WorkClaimRow := do
  protectWorkClaim old new
  require (new.claimedAt < new.leaseExpiresAt) (.checkViolation "work_claims_check")
  return new

/-- What the trigger lets through. -/
theorem protectWorkClaim_eq_ok {old new : WorkClaimRow} : protectWorkClaim old new = .ok () ↔
    (new.claimId = old.claimId ∧ new.routeId = old.routeId ∧
      new.workerServiceId = old.workerServiceId ∧ new.workerInstanceId = old.workerInstanceId ∧
      new.fencingToken = old.fencingToken ∧ new.claimedAt = old.claimedAt) ∧
    old.status = .active ∧
    (if new.status = .active then old.leaseExpiresAt < new.leaseExpiresAt
      else new.leaseExpiresAt = old.leaseExpiresAt) := by
  unfold protectWorkClaim
  split <;> simp [*]

/-- A change that is let through writes the changed row. -/
theorem changeWorkClaim_eq_ok {old new new' : WorkClaimRow} :
    changeWorkClaim old new = .ok new' ↔
      new' = new ∧ protectWorkClaim old new = .ok () ∧ new.claimedAt < new.leaseExpiresAt := by
  unfold changeWorkClaim
  cases protectWorkClaim old new with
  | error e => simp [bind, Except.bind]
  | ok _ =>
    by_cases h : new.claimedAt < new.leaseExpiresAt <;>
      simp [bind, Except.bind, require, h, pure, Except.pure, eq_comm]

/-- What the constraints of `work_claims` let through. -/
theorem Db.checkWorkClaim_eq_ok {d : Db} {row : WorkClaimRow} : d.checkWorkClaim row = .ok () ↔
    row.claimedAt < row.leaseExpiresAt ∧ 0 ≤ row.claimedAt ∧ 1 ≤ row.fencingToken ∧
    (∀ r ∈ d.workClaims, r.claimId ≠ row.claimId) ∧
    (∀ r ∈ d.workClaims, r.routeId = row.routeId → r.fencingToken ≠ row.fencingToken) ∧
    (row.status = .active → ∀ r ∈ d.workClaims, r.routeId = row.routeId → r.status ≠ .active) ∧
    (∃ r ∈ d.requestRoutes, r.routeId = row.routeId) ∧ row.workerServiceId ∈ d.identities ∧
    ∃ r ∈ d.serviceInstances, r.instanceId = row.workerInstanceId := by
  simp [checkWorkClaim]

end InfernalLaw
