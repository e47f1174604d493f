import Mathlib.Data.List.MinMax
import InfernalLaw.Infrastructure.Constraints

/-!
# The administrative functions of the database

`publish_authority_schema_version`, `set_authority_schema_status`, `create_authority_grant` and
`revoke_authority_grant`. A function runs inside the one statement that calls it: an exception that
it raises discards what it has written.
-/

namespace InfernalLaw

open Postgres (DbError)
open Postgres.Proc (autocommit insert one orFail query selectForUpdate update)

/-- The body of a function in the database. -/
abbrev PlPgSql (α : Type) : Type := Fallible DbError α

/-- A statement of a function. -/
def perform {α : Type} (p : Sql (Except DbError α)) : PlPgSql α := orFail id p

/-- The check of an administrator's identity, reason and time. -/
def checkMetadata (administratorIdentity reason : Str) (time : ℤ) : Bool :=
  decide (checkTrimmed 200 administratorIdentity) && decide (checkTrimmed 1000 reason) &&
    decide (0 ≤ time)

/-! ## Schema versions -/

/-- The latest version under a name, locked. -/
def lockLatestSchemaVersion (kind : SchemaKind) (name : Str) :
    Sql (Except DbError (Option SchemaVersionRow)) :=
  selectForUpdate "SELECT * INTO latest FROM authority_schema_versions"
    (fun d => (d.schemaVersions.filter fun r => r.kind = kind ∧ r.name = name).argmax
      SchemaVersionRow.version)
    (fun r => .schemaVersion r.schemaVersionId)
    fun d r => d.schemaVersions.find? fun r' =>
      r'.schemaVersionId = r.schemaVersionId ∧ r'.kind = kind ∧ r'.name = name

/-- The `INSERT` of a schema version. -/
def insertSchemaVersion (row : SchemaVersionRow) : Sql (Except DbError Unit) :=
  insert store "INSERT INTO authority_schema_versions" (fun _ => [])
    (fun d => d.checkSchemaVersion row) (.schemaVersions (.insert row))

/-- The number and the predecessor of the next version under a name. -/
def nextSchemaVersion (name : Str) (owner : ActorId) :
    Option SchemaVersionRow → Except DbError (ℤ × Option SchemaVersionId)
  | none => .ok (1, none)
  | some latest =>
    if latest.ownerServiceId ≠ owner then
      .error (.raised s!"schema name {String.ofList name} is owned by a different service")
    else if latest.version + 1 < 2 ^ 63 then
      .ok (latest.version + 1, some latest.schemaVersionId)
    else .error (.raised "bigint out of range")

/-- `publish_authority_schema_version`. -/
def publishAuthoritySchemaVersion (id : SchemaVersionId) (kind : SchemaKind) (name : Str)
    (ownerServiceId : ActorId) (contentDigest : Bytes32) (publishedAt : ℤ) :
    PlPgSql SchemaVersionRow := do
  let latest ← perform (lockLatestSchemaVersion kind name)
  let (version, predecessorId) ← Postgres.Proc.ensure (nextSchemaVersion name ownerServiceId latest)
  let row : SchemaVersionRow :=
    { schemaVersionId := id, kind, name, version, ownerServiceId, contentDigest, predecessorId
      publishedAt, status := .published }
  let _ ← perform (insertSchemaVersion row)
  return row

/-- The status audit under a correlation identifier. -/
def findSchemaStatusAudit (id : SchemaVersionId) (correlationId : Uuid) :
    Sql (Except DbError (Option SchemaStatusAuditRow)) :=
  query "SELECT * INTO existing_audit FROM authority_schema_status_audit" fun d =>
    d.schemaStatusAudit.find? fun r => r.schemaVersionId = id ∧ r.correlationId = correlationId

/-- A schema version, locked. -/
def lockSchemaVersion (id : SchemaVersionId) : Sql (Except DbError (Option SchemaVersionRow)) :=
  selectForUpdate "SELECT * INTO existing_version FROM authority_schema_versions"
    (fun d => d.schemaVersions.find? fun r => r.schemaVersionId = id)
    (fun r => .schemaVersion r.schemaVersionId)
    fun d _ => d.schemaVersions.find? fun r => r.schemaVersionId = id

/-- The `UPDATE` of a schema version's status. -/
def updateSchemaStatus (id : SchemaVersionId) (status : SchemaStatus) :
    Sql (Except DbError (Option SchemaVersionRow)) :=
  update "UPDATE authority_schema_versions SET status"
    (fun d => d.schemaVersions.find? fun r => r.schemaVersionId = id)
    (fun r => .schemaVersion r.schemaVersionId)
    (fun d _ => d.schemaVersions.find? fun r => r.schemaVersionId = id)
    (fun _ old => changeSchemaVersion old { old with status })
    fun new => .schemaVersions (.update new)

/-- The `INSERT` of a row of the status audit. -/
def insertSchemaStatusAudit (row : SchemaStatusAuditRow) : Sql (Except DbError Unit) :=
  insert store "INSERT INTO authority_schema_status_audit" (fun _ => [])
    (fun d => d.checkSchemaStatusAudit row) (.schemaStatusAudit row)

/-- What `set_authority_schema_status` does with the version that it has locked. -/
def applySchemaStatus (id : SchemaVersionId) (status : SchemaStatus)
    (audit : Option SchemaStatus → SchemaStatusOutcome → SchemaStatusAuditRow) :
    Option SchemaVersionRow → PlPgSql SchemaStatusOutcome
  | none => do
    let _ ← perform (insertSchemaStatusAudit (audit none .rejectedUnknownSchema))
    throw (.raised "authority schema version was not found")
  | some existing =>
    if existing.status.isTerminal then do
      let _ ← perform (insertSchemaStatusAudit (audit (some existing.status) .rejectedTerminal))
      throw (.raised ("authority schema version status " ++ existing.status.sql ++ " is terminal"))
    else if existing.status = status then do
      let _ ← perform (insertSchemaStatusAudit (audit (some existing.status) .noOp))
      return .noOp
    else do
      let _ ← perform (updateSchemaStatus id status)
      let _ ← perform (insertSchemaStatusAudit (audit (some existing.status) .changed))
      return .changed

/-- `set_authority_schema_status`. -/
def setAuthoritySchemaStatus (id : SchemaVersionId) (status : SchemaStatus)
    (administratorIdentity reason : Str) (correlationId : Uuid) (changedAt : ℤ) :
    PlPgSql (SchemaStatus × ℤ × SchemaStatusOutcome) := do
  if checkMetadata administratorIdentity reason changedAt = false ∨ status = .published then
    throw (.raised "invalid authority schema status administration metadata")
  else do
    let existing ← perform (findSchemaStatusAudit id correlationId)
    match existing with
    | some row =>
      if row.newStatus ≠ status then
        throw (.raised "authority schema status correlation ID conflicts with a different status")
      else return (row.newStatus, row.recordedAt, row.outcome)
    | none => do
      let version ← perform (lockSchemaVersion id)
      let outcome ← applySchemaStatus id status
        (fun oldStatus outcome =>
          { schemaVersionId := id, oldStatus, newStatus := status, outcome
            administratorIdentity := btrim administratorIdentity, reason := btrim reason
            correlationId, recordedAt := changedAt })
        version
      return (status, changedAt, outcome)

/-! ## Grants -/

/-- The kind of a schema version. -/
def findSchemaKind (id : SchemaVersionId) : Sql (Except DbError (Option SchemaKind)) :=
  query "SELECT kind FROM authority_schema_versions" fun d =>
    (d.schemaVersions.find? fun r => r.schemaVersionId = id).map SchemaVersionRow.kind

/-- The grant under a correlation identifier. -/
def findGrantByCorrelation (correlationId : Uuid) : Sql (Except DbError (Option GrantRow)) :=
  query "SELECT * INTO existing_by_correlation FROM authority_grants" fun d =>
    d.grants.find? fun r => r.correlationId = correlationId

/-- A grant by its identifier. -/
def findGrant (id : GrantId) : Sql (Except DbError (Option GrantRow)) :=
  query "SELECT FROM authority_grants" fun d => d.grants.find? fun r => r.grantId = id

/-- The `INSERT` of a grant. -/
def insertGrant (row : GrantRow) : Sql (Except DbError Unit) :=
  insert store "INSERT INTO authority_grants" (fun _ => []) (fun d => d.checkGrant row)
    (.grants (.insert row))

/-- The `UPDATE` that revokes a grant. -/
def updateGrantRevoked (id : GrantId) (revokedAt : ℤ) : Sql (Except DbError (Option GrantRow)) :=
  update "UPDATE authority_grants SET revoked_at"
    (fun d => d.grants.find? fun r => r.grantId = id)
    (fun r => .grant r.grantId)
    (fun d _ => d.grants.find? fun r => r.grantId = id)
    (fun _ old => changeGrant old { old with revokedAt := some revokedAt })
    fun new => .grants (.update new)

/-- The `INSERT` of a row of the grant audit. -/
def insertGrantAudit (row : GrantAuditRow) : Sql (Except DbError Unit) :=
  insert store "INSERT INTO authority_grant_administration_audit" (fun _ => [])
    (fun _ => row.check) (.grantAudit row)

/-- The content of a grant, which a repeated `create_authority_grant` must not change. -/
def GrantRow.sameContent (r r' : GrantRow) : Prop :=
  r.grantId = r'.grantId ∧ r.sourceServiceId = r'.sourceServiceId ∧ r.action = r'.action ∧
    r.scope = r'.scope ∧ r.artifactSchemaVersionId = r'.artifactSchemaVersionId ∧
    r.permissionPolicySchemaVersionId = r'.permissionPolicySchemaVersionId ∧
    r.destinationServiceId = r'.destinationServiceId ∧ r.validFrom = r'.validFrom ∧
    r.validUntil = r'.validUntil

instance (r r' : GrantRow) : Decidable (r.sameContent r') := inferInstanceAs (Decidable (_ ∧ _))

/-- The audit row of an operation on a grant. -/
def GrantRow.auditRow (row : GrantRow) (outcome : GrantAuditOutcome) : GrantAuditRow where
  grantId := row.grantId
  outcome := outcome
  administratorIdentity := row.administratorIdentity
  reason := row.reason
  correlationId := row.correlationId
  recordedAt := row.createdAt

/-- What `create_authority_grant` does when the grant's schema versions are of the right kinds. -/
def createGrantRow (row : GrantRow) : Option GrantRow → PlPgSql GrantRow
  | some existing =>
    if existing.sameContent row then return existing
    else throw (.raised "authority grant correlation ID conflicts with different content")
  | none => do
    let taken ← perform (findGrant row.grantId)
    if taken.isSome then do
      let _ ← perform (insertGrantAudit (row.auditRow .createConflictRejected))
      throw (.raised "authority grant ID already exists")
    else do
      let _ ← perform (insertGrant row)
      let _ ← perform (insertGrantAudit (row.auditRow .created))
      return row

/-- `create_authority_grant`. The row has the arguments as they are given; the function trims the
administrator's identity and the reason. -/
def createAuthorityGrant (requested : GrantRow) : PlPgSql GrantRow := do
  if checkMetadata requested.administratorIdentity requested.reason requested.createdAt = false then
    throw (.raised "invalid authority grant administration metadata")
  else do
    let artifactKind ← perform (findSchemaKind requested.artifactSchemaVersionId)
    if artifactKind ≠ some .artifact then
      throw (.raised "artifact schema version was not found or is not an artifact schema")
    else do
      let policyKind ← perform (findSchemaKind requested.permissionPolicySchemaVersionId)
      if policyKind ≠ some .permissionPolicy then
        throw (.raised
          "permission-policy schema version was not found or is not a permission-policy schema")
      else do
        let existing ← perform (findGrantByCorrelation requested.correlationId)
        createGrantRow
          { requested with
            administratorIdentity := btrim requested.administratorIdentity
            reason := btrim requested.reason
            revokedAt := none }
          existing

/-- What `revoke_authority_grant` does with the grant that it has found. -/
def revokeGrantRow (id : GrantId) (revokedAt : ℤ) (audit : GrantAuditOutcome → GrantAuditRow) :
    Option GrantRow → PlPgSql (ℤ × GrantAuditOutcome)
  | none => throw (.raised "authority grant was not found")
  | some existing =>
    match existing.revokedAt with
    | some already => do
      let _ ← perform (insertGrantAudit (audit .revokeNoOp))
      return (already, .revokeNoOp)
    | none => do
      let _ ← perform (updateGrantRevoked id revokedAt)
      let _ ← perform (insertGrantAudit (audit .revoked))
      return (revokedAt, .revoked)

/-- `revoke_authority_grant`. -/
def revokeAuthorityGrant (id : GrantId) (administratorIdentity reason : Str) (correlationId : Uuid)
    (revokedAt : ℤ) : PlPgSql (ℤ × GrantAuditOutcome) := do
  if checkMetadata administratorIdentity reason revokedAt = false then
    throw (.raised "invalid authority grant administration metadata")
  else do
    let existing ← perform (findGrant id)
    revokeGrantRow id revokedAt
      (fun outcome =>
        { grantId := id, outcome, administratorIdentity := btrim administratorIdentity
          reason := btrim reason, correlationId, recordedAt := revokedAt })
      existing

/-- The statement `SELECT ... FROM f(...)`, a transaction of its own. -/
def callFunction {α : Type} (f : PlPgSql α) : Sql (Except DbError α) := autocommit f.run

end InfernalLaw
