import InfernalLaw.Infrastructure.Background
import InfernalLaw.Infrastructure.Constraints
import InfernalLaw.Kernel.InstanceRegistry

/-!
# The instance registry

`PostgresInstanceRegistry` and `InstanceRegistryService` as processes over the database, and the
rules of the operations that write. An instance and its key are two rows, which every operation
changes in one transaction together with a new row of the audit.
-/

namespace InfernalLaw

open Postgres (Contract DbError RowWrite Store)
open Postgres.Proc (autocommit commitNow ensure insert one orFail query transaction update)

/-- `repository_error`. -/
def InstanceRegistryError.ofDatabase (e : DbError) : InstanceRegistryError :=
  .repository (.database e)

namespace RegisteredInstance

variable (i : RegisteredInstance)

/-- The row of `service_instances` that `insert` writes. -/
def row : ServiceInstanceRow where
  instanceId := i.publicKey.instanceId
  serviceId := i.publicKey.serviceId
  endpoint := i.endpoint
  registeredAt := i.registeredAt
  leaseExpiresAt := i.leaseExpiresAt
  leaseRevision := i.leaseRevision
  revokedAt := none

/-- The row of `service_instance_keys` that `insert` writes. -/
def keyRow (crates : KeyCrates) : ServiceInstanceKeyRow where
  keyId := i.publicKey.keyId
  instanceId := i.publicKey.instanceId
  publicKey := i.publicKey.publicKey
  fingerprint := i.publicKey.fingerprint crates
  validFrom := i.registeredAt
  revokedAt := none

/-- The row of `service_instance_registry_audit`. -/
def auditRow (action : RegistryAuditAction) (recordedAt : ℤ) : RegistryAuditRow where
  serviceId := i.publicKey.serviceId
  instanceId := i.publicKey.instanceId
  keyId := i.publicKey.keyId
  action := action
  leaseRevision := i.leaseRevision
  recordedAt := recordedAt

end RegisteredInstance

/-- The instance with its lease renewed. -/
def ServiceInstanceRow.renew (row : ServiceInstanceRow) (leaseExpiresAt : ℤ) : ServiceInstanceRow :=
  { row with leaseExpiresAt, leaseRevision := row.leaseRevision + 1 }

/-- The instance, revoked. -/
def ServiceInstanceRow.revoke (row : ServiceInstanceRow) (revokedAt : ℤ) : ServiceInstanceRow :=
  { row with revokedAt := some revokedAt }

/-- The key, revoked. -/
def ServiceInstanceKeyRow.revoke (row : ServiceInstanceKeyRow) (revokedAt : ℤ) :
    ServiceInstanceKeyRow :=
  { row with revokedAt := some revokedAt }

/-- A renewal keeps the instance's identifier. -/
@[simp] theorem ServiceInstanceRow.renew_instanceId (row : ServiceInstanceRow) (t : ℤ) :
    (row.renew t).instanceId = row.instanceId := rfl

/-- So does a revocation. -/
@[simp] theorem ServiceInstanceRow.revoke_instanceId (row : ServiceInstanceRow) (t : ℤ) :
    (row.revoke t).instanceId = row.instanceId := rfl

/-- The revocation of a key keeps the key's identifier. -/
@[simp] theorem ServiceInstanceKeyRow.revoke_keyId (row : ServiceInstanceKeyRow) (t : ℤ) :
    (row.revoke t).keyId = row.keyId := rfl

/-- `instance_from_row`, of an instance joined with its key. -/
def instanceFromRow (crates : KeyCrates) (row : ServiceInstanceRow × ServiceInstanceKeyRow) :
    Except InstanceRegistryError RegisteredInstance := do
  let publicKey ← (InstancePublicKey.restore crates row.1.serviceId row.1.instanceId row.2.keyId
    row.2.publicKey).mapError .key
  RegisteredInstance.restore publicKey row.1.endpoint row.1.registeredAt row.1.leaseExpiresAt
    row.1.leaseRevision row.1.revokedAt

namespace PostgresInstanceRegistry

/-- What the error of the insert of an instance means. -/
def ofInsertInstance (key : InstancePublicKey) : DbError → InstanceRegistryError
  | .uniqueViolation _ => .alreadyExists key.instanceId
  | .foreignKeyViolation _ => .unknownService key.serviceId
  | e => .ofDatabase e

/-- What the error of the insert of a key means. -/
def ofInsertKey (key : InstancePublicKey) : DbError → InstanceRegistryError
  | .uniqueViolation _ => .alreadyExists key.instanceId
  | e => .ofDatabase e

/-- The first `INSERT` of `insert`. -/
def insertInstance (row : ServiceInstanceRow) : Sql (Except DbError Unit) :=
  insert store "INSERT INTO service_instances" (fun _ => []) (fun d => d.checkServiceInstance row)
    (.serviceInstances (.insert row))

/-- The second `INSERT` of `insert`. -/
def insertKey (row : ServiceInstanceKeyRow) : Sql (Except DbError Unit) :=
  insert store "INSERT INTO service_instance_keys" (fun _ => [])
    (fun d => d.checkServiceInstanceKey row) (.serviceInstanceKeys (.insert row))

/-- `append_audit`. -/
def appendAudit (row : RegistryAuditRow) : Sql (Except DbError Unit) :=
  insert store "INSERT INTO service_instance_registry_audit" (fun _ => []) (fun _ => row.check)
    (.registryAudit row)

/-- `insert`. -/
def insert (crates : KeyCrates) (registered : RegisteredInstance) :
    Sql (Except InstanceRegistryError Unit) :=
  transaction do
    let _ ← orFail (ofInsertInstance registered.publicKey) (insertInstance registered.row)
    let _ ← orFail (ofInsertKey registered.publicKey) (insertKey (registered.keyRow crates))
    let _ ← orFail .ofDatabase
      (appendAudit (registered.auditRow .registered registered.registeredAt))
    orFail .ofDatabase commitNow

/-- The rows that `FIND_INSTANCE_SQL` joins. -/
def findInstanceRow (id : InstanceId) (d : Db) :
    Option (ServiceInstanceRow × ServiceInstanceKeyRow) := do
  let row ← d.serviceInstances.find? fun r => r.instanceId = id
  let key ← d.serviceInstanceKeys.find? fun r => r.instanceId = row.instanceId
  return (row, key)

/-- `FIND_INSTANCE_SQL`. -/
def findInstance (id : InstanceId) :
    Sql (Except DbError (Option (ServiceInstanceRow × ServiceInstanceKeyRow))) :=
  query "FIND_INSTANCE_SQL" (findInstanceRow id)

/-- `find`. -/
def find (crates : KeyCrates) (id : InstanceId) :
    Sql (Except InstanceRegistryError (Option RegisteredInstance)) :=
  ExceptT.run do
    let row ← orFail .ofDatabase (autocommit (findInstance id))
    ensure (row.elim (.ok none) fun row => (instanceFromRow crates row).map some)

/-- The `WHERE` clause of the `UPDATE` of `renew`. -/
def Renewable (id : InstanceId) (expectedRevision renewedAt : ℤ) (row : ServiceInstanceRow) :
    Prop :=
  row.instanceId = id ∧ row.leaseRevision = expectedRevision ∧ renewedAt < row.leaseExpiresAt ∧
    row.registeredAt ≤ renewedAt ∧ row.revokedAt = none

instance (id : InstanceId) (expectedRevision renewedAt : ℤ) :
    DecidablePred (Renewable id expectedRevision renewedAt) :=
  fun _ => inferInstanceAs (Decidable (_ ∧ _))

/-- The `UPDATE` of `renew`. -/
def renewRow (id : InstanceId) (expectedRevision renewedAt leaseExpiresAt : ℤ) :
    Sql (Except DbError (Option ServiceInstanceRow)) :=
  update "UPDATE service_instances SET lease_expires_at"
    (fun d => d.serviceInstances.find? fun r => Renewable id expectedRevision renewedAt r)
    (fun r => .serviceInstance r.instanceId)
    (fun d _ => d.serviceInstances.find? fun r => Renewable id expectedRevision renewedAt r)
    (fun _ old => changeServiceInstance (old.renew leaseExpiresAt))
    fun new => .serviceInstances (.update new)

/-- The row that a failed operation looks at. -/
def findRow (sql : String) (id : InstanceId) : Sql (Except DbError (Option ServiceInstanceRow)) :=
  query sql fun d => d.serviceInstances.find? fun r => r.instanceId = id

/-- `classify_failed_renewal`, from the row that it finds. -/
def classifyFailedRenewal (id : InstanceId) (expectedRevision renewedAt : ℤ) :
    Option ServiceInstanceRow → InstanceRegistryError
  | none => .notFound id
  | some row =>
    if row.revokedAt.isSome then .revoked id
    else if renewedAt < row.registeredAt then .invalidTimestamp
    else if row.leaseExpiresAt ≤ renewedAt then .expired id
    else if row.leaseRevision ≠ expectedRevision then .revisionConflict id
    else .repository (.kernel "lease renewal was not applied")

/-- What `renew` and `revoke` do once the rows are changed. -/
def conclude (crates : KeyCrates) (id : InstanceId) (action : RegistryAuditAction)
    (recordedAt : ℤ) : Fallible InstanceRegistryError RegisteredInstance := do
  let row ← orFail .ofDatabase (one (findInstance id))
  let registered ← ensure (instanceFromRow crates row)
  let _ ← orFail .ofDatabase (appendAudit (registered.auditRow action recordedAt))
  let _ ← orFail .ofDatabase commitNow
  return registered

/-- `renew`. -/
def renew (crates : KeyCrates) (id : InstanceId) (expectedRevision renewedAt leaseExpiresAt : ℤ) :
    Sql (Except InstanceRegistryError RegisteredInstance) :=
  if renewedAt < 0 ∨ leaseExpiresAt ≤ renewedAt ∨ expectedRevision ≤ 0 then
    .done (.error .invalidTimestamp)
  else
    transaction do
      let row ← orFail .ofDatabase (renewRow id expectedRevision renewedAt leaseExpiresAt)
      if row.isNone then do
        let row ← orFail .ofDatabase (findRow
          "SELECT registered_at, lease_revision, lease_expires_at, revoked_at" id)
        throw (classifyFailedRenewal id expectedRevision renewedAt row)
      else conclude crates id .renewed renewedAt

/-- The `WHERE` clause of the first `UPDATE` of `revoke`. -/
def Revocable (id : InstanceId) (revokedAt : ℤ) (row : ServiceInstanceRow) : Prop :=
  row.instanceId = id ∧ row.registeredAt ≤ revokedAt ∧ row.revokedAt = none

instance (id : InstanceId) (revokedAt : ℤ) : DecidablePred (Revocable id revokedAt) :=
  fun _ => inferInstanceAs (Decidable (_ ∧ _))

/-- The first `UPDATE` of `revoke`. -/
def revokeRow (id : InstanceId) (revokedAt : ℤ) :
    Sql (Except DbError (Option ServiceInstanceRow)) :=
  update "UPDATE service_instances SET revoked_at"
    (fun d => d.serviceInstances.find? fun r => Revocable id revokedAt r)
    (fun r => .serviceInstance r.instanceId)
    (fun d _ => d.serviceInstances.find? fun r => Revocable id revokedAt r)
    (fun _ old => changeServiceInstance (old.revoke revokedAt))
    fun new => .serviceInstances (.update new)

/-- The second `UPDATE` of `revoke`. An instance has one key. -/
def revokeKeyRow (id : InstanceId) (revokedAt : ℤ) :
    Sql (Except DbError (Option ServiceInstanceKeyRow)) :=
  update "UPDATE service_instance_keys SET revoked_at"
    (fun d => d.serviceInstanceKeys.find? fun r => r.instanceId = id ∧ r.revokedAt = none)
    (fun r => .serviceInstanceKey r.keyId)
    (fun d _ => d.serviceInstanceKeys.find? fun r => r.instanceId = id ∧ r.revokedAt = none)
    (fun _ old => changeServiceInstanceKey (old.revoke revokedAt))
    fun new => .serviceInstanceKeys (.update new)

/-- Why `revoke` has found no row to change, from the row that it finds then. -/
def classifyFailedRevocation (id : InstanceId) (revokedAt : ℤ) :
    Option ServiceInstanceRow → InstanceRegistryError
  | none => .notFound id
  | some row => if revokedAt < row.registeredAt then .invalidTimestamp else .revoked id

/-- `revoke`. -/
def revoke (crates : KeyCrates) (id : InstanceId) (revokedAt : ℤ) :
    Sql (Except InstanceRegistryError RegisteredInstance) :=
  if revokedAt < 0 then .done (.error .invalidTimestamp)
  else
    transaction do
      let row ← orFail .ofDatabase (revokeRow id revokedAt)
      if row.isNone then do
        let row ← orFail .ofDatabase (findRow "SELECT registered_at, revoked_at" id)
        throw (classifyFailedRevocation id revokedAt row)
      else do
        let key ← orFail .ofDatabase (revokeKeyRow id revokedAt)
        if key.isNone then
          throw (.repository (.kernel "instance key revocation changed 0 rows"))
        else conclude crates id .revoked revokedAt

end PostgresInstanceRegistry

namespace InstanceRegistryService

/-- `validate_timestamp`. -/
def validateTimestamp (timestamp : ℤ) : Except InstanceRegistryError Unit :=
  if timestamp < 0 then .error .invalidTimestamp else .ok ()

/-- When a lease that starts now expires, if an `i64` can say so. -/
def leaseEnd (policy : LeasePolicy) (now : ℤ) : Except InstanceRegistryError ℤ :=
  if now + policy.durationSeconds < 2 ^ 63 then .ok (now + policy.durationSeconds)
  else .error .invalidTimestamp

/-- `InstanceRegistryService::register_verified`. -/
def registerVerified (crates : KeyCrates) (policy : LeasePolicy) (publicKey : InstancePublicKey)
    (endpoint : Str) (now : ℤ) : Sql (Except InstanceRegistryError RegisteredInstance) :=
  ExceptT.run do
    let registered ← ensure (do
      validateTimestamp now
      RegisteredInstance.create publicKey endpoint now (← leaseEnd policy now))
    let _ ← ExceptT.mk (PostgresInstanceRegistry.insert crates registered)
    return registered

/-- `InstanceRegistryService::find_eligible`. -/
def findEligible (crates : KeyCrates) (id : InstanceId) (now : ℤ) :
    Sql (Except InstanceRegistryError RegisteredInstance) :=
  ExceptT.run do
    let _ ← ensure (validateTimestamp now)
    let found ← ExceptT.mk (PostgresInstanceRegistry.find crates id)
    let registered ← ensure (found.elim (.error (.notFound id)) .ok)
    if registered.revokedAt.isSome then throw (.revoked id)
    else if registered.isEligibleAt now = false then throw (.expired id)
    else return registered

/-- `InstanceRegistryService::renew`. -/
def renew (crates : KeyCrates) (policy : LeasePolicy) (id : InstanceId)
    (expectedRevision now : ℤ) : Sql (Except InstanceRegistryError RegisteredInstance) :=
  ExceptT.run do
    let leaseExpiresAt ← ensure (do
      validateTimestamp now
      if expectedRevision ≤ 0 then .error (.revisionConflict id) else leaseEnd policy now)
    ExceptT.mk (PostgresInstanceRegistry.renew crates id expectedRevision now leaseExpiresAt)

/-- `InstanceRegistryService::revoke`. -/
def revoke (crates : KeyCrates) (id : InstanceId) (now : ℤ) :
    Sql (Except InstanceRegistryError RegisteredInstance) :=
  ExceptT.run do
    let _ ← ensure (validateTimestamp now)
    ExceptT.mk (PostgresInstanceRegistry.revoke crates id now)

end InstanceRegistryService

/-! ## What the operations commit -/

/-- Instances come in addition, or get a new version. -/
theorem serviceInstances_versioned :
    store.Versioned Db.serviceInstances Write.serviceInstances ServiceInstanceRow.instanceId where
  apply_write _ _ := rfl
  apply_other _ w hw := by cases w <;> first | rfl | exact absurd rfl (hw _)

/-- Keys come in addition, or get a new version. -/
theorem serviceInstanceKeys_versioned :
    store.Versioned Db.serviceInstanceKeys Write.serviceInstanceKeys
      ServiceInstanceKeyRow.keyId where
  apply_write _ _ := rfl
  apply_other _ w hw := by cases w <;> first | rfl | exact absurd rfl (hw _)

/-- Rows of the audit only ever come in addition. -/
theorem registryAudit_appendOnly : store.AppendOnly Db.registryAudit Write.registryAudit where
  apply_write _ _ := rfl
  apply_other _ w hw := by cases w <;> first | rfl | exact absurd rfl (hw _)

/-- The instance is what a row of `service_instances` says, with a key from elsewhere. -/
structure RegisteredInstance.Reads (i : RegisteredInstance) (row : ServiceInstanceRow) : Prop where
  instanceId : i.publicKey.instanceId = row.instanceId
  serviceId : i.publicKey.serviceId = row.serviceId
  endpoint : i.endpoint = row.endpoint.trim
  registeredAt : i.registeredAt = row.registeredAt
  leaseExpiresAt : i.leaseExpiresAt = row.leaseExpiresAt
  leaseRevision : i.leaseRevision = row.leaseRevision
  revokedAt : i.revokedAt = row.revokedAt

/-- What a joined row is read as. -/
theorem reads_of_instanceFromRow {crates : KeyCrates}
    {row : ServiceInstanceRow × ServiceInstanceKeyRow} {i : RegisteredInstance}
    (h : instanceFromRow crates row = .ok i) : i.Reads row.1 := by
  unfold instanceFromRow at h
  obtain ⟨key, hkey, hrestore⟩ := Postgres.bind_eq_ok.mp h
  rw [Postgres.mapError_eq_ok] at hkey
  obtain ⟨rfl, hendpoint, hregistered, hexpires, hrevision, hrevoked⟩ :=
    RegisteredInstance.restore_eq_ok hrestore
  unfold InstancePublicKey.restore at hkey
  split at hkey
  · have heq := Except.ok.inj hkey
    exact ⟨by rw [← heq], by rw [← heq], hendpoint, hregistered, hexpires, hrevision, hrevoked⟩
  · cases hkey

/-- What holds when `insert` commits. -/
structure Registers (d : Db) (crates : KeyCrates) (i : RegisteredInstance) : Prop where
  fresh_instance : ∀ r ∈ d.serviceInstances, r.instanceId ≠ i.publicKey.instanceId
  fresh_key : ∀ r ∈ d.serviceInstanceKeys, r.keyId ≠ i.publicKey.keyId
  fresh_fingerprint : ∀ r ∈ d.serviceInstanceKeys, r.fingerprint ≠ i.publicKey.fingerprint crates

/-- The writes of `insert`. -/
def RegisteredInstance.registeredWrites (i : RegisteredInstance) (crates : KeyCrates) :
    List Write :=
  [.serviceInstances (.insert i.row), .serviceInstanceKeys (.insert (i.keyRow crates)),
    .registryAudit (i.auditRow .registered i.registeredAt)]

/-- What holds when `renew` commits a new version of `old`, and answers `i`. -/
structure Renews (d : Db) (id : InstanceId) (expectedRevision renewedAt leaseExpiresAt : ℤ)
    (old : ServiceInstanceRow) (i : RegisteredInstance) : Prop where
  mem : old ∈ d.serviceInstances
  renewable : PostgresInstanceRegistry.Renewable id expectedRevision renewedAt old
  reads : i.Reads (old.renew leaseExpiresAt)

/-- The writes of `renew`. -/
def RegisteredInstance.renewedWrites (i : RegisteredInstance) (new : ServiceInstanceRow)
    (renewedAt : ℤ) : List Write :=
  [.serviceInstances (.update new), .registryAudit (i.auditRow .renewed renewedAt)]

/-- What holds when `revoke` commits a new version of `old` and of its key, and answers `i`. -/
structure Revokes (d : Db) (id : InstanceId) (revokedAt : ℤ) (old : ServiceInstanceRow)
    (key : ServiceInstanceKeyRow) (i : RegisteredInstance) : Prop where
  mem : old ∈ d.serviceInstances
  mem_key : key ∈ d.serviceInstanceKeys
  revocable : PostgresInstanceRegistry.Revocable id revokedAt old
  key_of : key.instanceId = id
  reads : i.Reads (old.revoke revokedAt)

/-- The writes of `revoke`. -/
def RegisteredInstance.revokedWrites (i : RegisteredInstance) (old : ServiceInstanceRow)
    (key : ServiceInstanceKeyRow) (revokedAt : ℤ) : List Write :=
  [.serviceInstances (.update (old.revoke revokedAt)),
    .serviceInstanceKeys (.update (key.revoke revokedAt)),
    .registryAudit (i.auditRow .revoked revokedAt)]

/-- A locked instance stays as it is. -/
theorem stable_mem_serviceInstances {row : ServiceInstanceRow} {locks : List Key}
    (hl : .serviceInstance row.instanceId ∈ locks) :
    store.Stable locks fun d => row ∈ d.serviceInstances :=
  serviceInstances_versioned.stable_mem fun rw hrw =>
    ⟨.serviceInstance rw.row.instanceId, by simp [Write.keys], hrw ▸ hl⟩

/-- A locked key stays as it is. -/
theorem stable_mem_serviceInstanceKeys {row : ServiceInstanceKeyRow} {locks : List Key}
    (hl : .serviceInstanceKey row.keyId ∈ locks) :
    store.Stable locks fun d => row ∈ d.serviceInstanceKeys :=
  serviceInstanceKeys_versioned.stable_mem fun rw hrw =>
    ⟨.serviceInstanceKey rw.row.keyId, by simp [Write.keys], hrw ▸ hl⟩

/-- No other transaction enters an instance whose keys are held. -/
theorem stable_fresh_instance {id : InstanceId} {locks : List Key}
    (hl : .serviceInstance id ∈ locks) :
    store.Stable locks fun d => ∀ r ∈ d.serviceInstances, r.instanceId ≠ id :=
  serviceInstances_versioned.stable_forall fun rw hrw heq =>
    hrw (.serviceInstance rw.row.instanceId) (by simp [Write.keys]) (heq ▸ hl)

/-- No other transaction enters a key whose entries in the indexes are held. -/
theorem stable_fresh_key {id : KeyId} {fingerprint : Bytes32} {locks : List Key}
    (hid : .serviceInstanceKey id ∈ locks) (hfingerprint : .fingerprint fingerprint ∈ locks) :
    store.Stable locks fun d =>
      (∀ r ∈ d.serviceInstanceKeys, r.keyId ≠ id) ∧
      ∀ r ∈ d.serviceInstanceKeys, r.fingerprint ≠ fingerprint := by
  refine Store.Stable.and ?_ ?_
  · exact serviceInstanceKeys_versioned.stable_forall fun rw hrw heq =>
      hrw (.serviceInstanceKey rw.row.keyId) (by simp [Write.keys]) (heq ▸ hid)
  · exact serviceInstanceKeys_versioned.stable_forall fun rw hrw heq =>
      hrw (.fingerprint rw.row.fingerprint) (by simp [Write.keys]) (heq ▸ hfingerprint)

/-- A new instance has an identifier of its own. -/
theorem Db.fresh_of_checkServiceInstance {d : Db} {row : ServiceInstanceRow}
    (h : d.checkServiceInstance row = .ok ()) :
    ∀ r ∈ d.serviceInstances, r.instanceId ≠ row.instanceId := by
  obtain ⟨_, -, htext⟩ := Postgres.bind_eq_ok.mp h
  obtain ⟨_, -, hcheck⟩ := Postgres.bind_eq_ok.mp htext
  exact (Postgres.require_bind_eq_ok.mp hcheck).1

/-- A new key has an identifier and a fingerprint of its own. -/
theorem Db.fresh_of_checkServiceInstanceKey {d : Db} {row : ServiceInstanceKeyRow}
    (h : d.checkServiceInstanceKey row = .ok ()) :
    (∀ r ∈ d.serviceInstanceKeys, r.keyId ≠ row.keyId) ∧
      ∀ r ∈ d.serviceInstanceKeys, r.fingerprint ≠ row.fingerprint := by
  obtain ⟨_, -, hcheck⟩ := Postgres.bind_eq_ok.mp h
  simp only [Postgres.require_bind_eq_ok] at hcheck
  exact ⟨hcheck.1, hcheck.2.2.1⟩

/-- A change of an instance writes the changed row. -/
theorem changeServiceInstance_eq_ok {new new' : ServiceInstanceRow}
    (h : changeServiceInstance new = .ok new') : new' = new := by
  unfold changeServiceInstance at h
  rw [Postgres.require_bind_eq_ok] at h
  obtain ⟨_, -, hnew⟩ := Postgres.bind_eq_ok.mp h.2
  exact (Except.ok.inj hnew).symm

/-- A change of a key writes the changed row. -/
theorem changeServiceInstanceKey_eq_ok {new new' : ServiceInstanceKeyRow}
    (h : changeServiceInstanceKey new = .ok new') : new' = new := by
  obtain ⟨_, -, hnew⟩ := Postgres.bind_eq_ok.mp h
  exact (Except.ok.inj hnew).symm

namespace PostgresInstanceRegistry

/-- The row that an operation has changed is the one that it reads back. -/
theorem fst_of_findInstanceRow {id : InstanceId} {d : Db} {new : ServiceInstanceRow}
    {row : ServiceInstanceRow × ServiceInstanceKeyRow}
    (hnodup : (d.serviceInstances.map ServiceInstanceRow.instanceId).Nodup)
    (hnew : new ∈ d.serviceInstances) (hid : new.instanceId = id)
    (h : findInstanceRow id d = some row) : row.1 = new := by
  unfold findInstanceRow at h
  rw [RowWrite.find_eq_some hnodup hnew hid, Option.bind_eq_bind, Option.bind_some] at h
  obtain ⟨key, -, hrow⟩ := Option.bind_eq_some_iff.mp h
  rw [← Option.some.inj hrow]

variable {Op α : Type} {program : Op → Sql α} {C : Contract (kernelSystem program)} {op : Op}
  {crates : KeyCrates}

/-- The rule of what `renew` and `revoke` do once the rows are changed: what they have changed is
what they answer. -/
theorem wp_conclude (hquiet : ∀ d, C.guar op d [] none) {id : InstanceId}
    {action : RegistryAuditAction} {recordedAt : ℤ} (new : ServiceInstanceRow) {locks : List Key}
    {ws : List Write} {P : Db → Prop} (hP : store.Stable locks P)
    (hread : ∀ d row, C.Good d → P d → findInstanceRow id (store.view d ws) = some row →
    row.1 = new) {Q : C.Post (Except InstanceRegistryError RegisteredInstance)}
    (herr : ∀ d er locks ws, C.Good d → Q (.error er) d [] locks ws)
    (hok : ∀ d i, C.Good d → P d → i.Reads new →
      Q (.ok i) d (ws ++ [.registryAudit (i.auditRow action recordedAt)]) [] [])
    {e : Db} (he : P e) :
    C.wp op (conclude crates id action recordedAt).run Q e [] locks ws := by
  refine Contract.wp_orFail_bind.mpr (Contract.wp_one.mpr ?_)
  refine Contract.wp_query (hquiet e) (fun d _ _ _ hg => herr d _ _ _ hg) ?_
  intro d₁ d₂ hr₁ hg₁ _ hr₂ hg₂
  have hP₁ : P d₁ := hr₁.stable hP he
  have hP₂ : P d₂ := hr₂.stable hP hP₁
  cases hrow : findInstanceRow id (store.view d₁ ws) with
  | none => exact herr d₂ _ _ _ hg₂
  | some row =>
    refine Contract.wp_ensure_bind.mpr ?_
    split
    · rename_i i hi
      have hreads := reads_of_instanceFromRow hi
      rw [hread d₁ row hg₁ hP₁ hrow] at hreads
      refine Contract.wp_orFail_bind.mpr ?_
      refine Contract.wp_insert (hquiet d₂) (fun d _ _ _ hg => herr d _ _ _ hg) ?_
      intro d₃ hr₃ _ _
      refine Contract.wp_orFail_bind.mpr ?_
      refine Contract.wp_commitNow (hquiet d₃) (fun d _ _ _ hg => herr d _ _ _ hg) ?_
      intro d₄ hr₄ hg₄
      have hP₄ := hr₄.stable (hP.mono fun k hk => List.mem_append_left _ hk) (hr₃.stable hP hP₂)
      exact hok d₄ i hg₄ hP₄ hreads
    · exact herr d₂ _ _ _ hg₂

/-- The rule of `insert`. -/
theorem wp_insert {e : Db} {u : List Write} (hg : C.guar op e u none)
    (hquiet : ∀ d, C.guar op d [] none) {i : RegisteredInstance}
    {Q : C.Post (Except InstanceRegistryError Unit)}
    (herr : ∀ d er, C.Good d → Q (.error er) d [] [] [])
    (hok : ∀ d, C.Rely [] (store.view e u) d → C.Good d → Registers d crates i →
      Q (.ok ()) d (i.registeredWrites crates) [] []) :
    C.wp op (PostgresInstanceRegistry.insert crates i) Q e u [] [] := by
  refine Contract.wp_transaction.mpr (Contract.wp_orFail_bind.mpr ?_)
  refine Contract.wp_insert hg (fun d _ _ _ hg => herr d _ hg) ?_
  intro d₁ hr₁ _ hcheck₁
  have hinstance := Db.fresh_of_checkServiceInstance hcheck₁
  refine Contract.wp_orFail_bind.mpr ?_
  refine Contract.wp_insert (hquiet d₁) (fun d _ _ _ hg => herr d _ hg) ?_
  intro d₂ hr₂ _ hcheck₂
  obtain ⟨hkey, hfingerprint⟩ := Db.fresh_of_checkServiceInstanceKey hcheck₂
  -- The keys of the two rows are held until the commit.
  have hinstance₂ :=
    hr₂.stable (stable_fresh_instance (by simp [Write.keys, RegisteredInstance.row])) hinstance
  refine Contract.wp_orFail_bind.mpr ?_
  refine Contract.wp_insert (hquiet d₂) (fun d _ _ _ hg => herr d _ hg) ?_
  intro d₃ hr₃ _ _
  refine Contract.wp_bind.mpr (Contract.wp_commitNow (hquiet d₃) (fun d _ _ _ hg => herr d _ hg) ?_)
  intro d₄ hr₄ hg₄
  have hstable : store.Stable
      (([] ++ (Write.serviceInstances (.insert i.row)).keys) ++
        (Write.serviceInstanceKeys (.insert (i.keyRow crates))).keys) fun d =>
      (∀ r ∈ d.serviceInstances, r.instanceId ≠ i.publicKey.instanceId) ∧
      (∀ r ∈ d.serviceInstanceKeys, r.keyId ≠ i.publicKey.keyId) ∧
      ∀ r ∈ d.serviceInstanceKeys, r.fingerprint ≠ i.publicKey.fingerprint crates := by
    refine Store.Stable.and (stable_fresh_instance ?_) (stable_fresh_key ?_ ?_) <;>
      simp [Write.keys, RegisteredInstance.row, RegisteredInstance.keyRow]
  have hfresh₃ := hr₃.stable hstable ⟨hinstance₂, hkey, hfingerprint⟩
  obtain ⟨h₁, h₂, h₃⟩ :=
    hr₄.stable (hstable.mono fun k hk => List.mem_append_left _ hk) hfresh₃
  -- With fewer keys held there is more interference.
  have hnil : ∀ {locks : List Key} {d d' : Db}, C.Rely locks d d' → C.Rely [] d d' :=
    fun h => h.mono nofun
  exact hok d₄ (((hr₁.trans (hnil hr₂)).trans (hnil hr₃)).trans (hnil hr₄)) hg₄ ⟨h₁, h₂, h₃⟩

/-- The rule of `renew`. -/
theorem wp_renew (hquiet : ∀ d, C.guar op d [] none)
    (hpk : ∀ d, C.Good d → (d.serviceInstances.map ServiceInstanceRow.instanceId).Nodup)
    {id : InstanceId} {expectedRevision renewedAt leaseExpiresAt : ℤ}
    {Q : C.Post (Except InstanceRegistryError RegisteredInstance)}
    (herr : ∀ d er, C.Good d → Q (.error er) d [] [] [])
    (hok : ∀ d old i, C.Good d → Renews d id expectedRevision renewedAt leaseExpiresAt old i →
      Q (.ok i) d (i.renewedWrites (old.renew leaseExpiresAt) renewedAt) [] [])
    {e : Db} (hgood : C.Good e) :
    C.wp op (PostgresInstanceRegistry.renew crates id expectedRevision renewedAt leaseExpiresAt) Q e
      [] [] [] := by
  unfold PostgresInstanceRegistry.renew
  split
  · exact herr e _ hgood
  refine Contract.wp_transaction.mpr (Contract.wp_orFail_bind.mpr ?_)
  refine Contract.wp_update (hquiet e) (fun d _ _ _ hg => herr d _ hg) ?_ ?_
  · -- No row is renewable: the second query only tells the errors apart.
    intro d₁ d₂ _ _ _ _ _
    refine Contract.wp_orFail_bind.mpr (Contract.wp_query (hquiet d₂) ?_ ?_)
    · exact fun d _ _ _ hg => herr d _ hg
    · exact fun _ d _ _ _ _ hg => herr d _ hg
  · -- The row is renewed, and the instance that is answered is read from the new version.
    intro d₁ d₂ r old new _ _ _ _ _ hold hchange
    rw [Store.view_nil] at hold
    have hrenewable := List.find?_some hold
    rw [decide_eq_true_eq] at hrenewable
    obtain rfl := changeServiceInstance_eq_ok hchange
    refine wp_conclude hquiet (old.renew leaseExpiresAt)
      (P := fun d => old ∈ d.serviceInstances)
      (stable_mem_serviceInstances (by simp [Write.keys, ServiceInstanceRow.renew])) ?_
      (fun d _ _ _ hg => herr d _ hg) ?_ (List.mem_of_find?_eq_some hold)
    · intro d row hg hmem hrow
      have hnew : old.renew leaseExpiresAt ∈ (RowWrite.update (old.renew leaseExpiresAt)).apply
          ServiceInstanceRow.instanceId d.serviceInstances := RowWrite.new_mem_update hmem rfl
      refine fst_of_findInstanceRow ?_ hnew hrenewable.1 hrow
      exact RowWrite.nodup_apply (w := .update (old.renew leaseExpiresAt)) (hpk d hg) nofun
    · exact fun d i hg hmem hreads => hok d old i hg ⟨hmem, hrenewable, hreads⟩

/-- The rule of `revoke`. -/
theorem wp_revoke (hquiet : ∀ d, C.guar op d [] none)
    (hpk : ∀ d, C.Good d → (d.serviceInstances.map ServiceInstanceRow.instanceId).Nodup)
    {id : InstanceId} {revokedAt : ℤ}
    {Q : C.Post (Except InstanceRegistryError RegisteredInstance)}
    (herr : ∀ d er, C.Good d → Q (.error er) d [] [] [])
    (hok : ∀ d old key i, C.Good d → Revokes d id revokedAt old key i →
      Q (.ok i) d (i.revokedWrites old key revokedAt) [] [])
    {e : Db} (hgood : C.Good e) :
    C.wp op (PostgresInstanceRegistry.revoke crates id revokedAt) Q e [] [] [] := by
  unfold PostgresInstanceRegistry.revoke
  split
  · exact herr e _ hgood
  refine Contract.wp_transaction.mpr (Contract.wp_orFail_bind.mpr ?_)
  refine Contract.wp_update (hquiet e) (fun d _ _ _ hg => herr d _ hg) ?_ ?_
  · intro d₁ d₂ _ _ _ _ _
    refine Contract.wp_orFail_bind.mpr (Contract.wp_query (hquiet d₂) ?_ ?_)
    · exact fun d _ _ _ hg => herr d _ hg
    · exact fun _ d _ _ _ _ hg => herr d _ hg
  intro d₁ d₂ r old new _ _ _ _ _ hold hchange
  rw [Store.view_nil] at hold
  have hmem₂ := List.mem_of_find?_eq_some hold
  have hrevocable := List.find?_some hold
  rw [decide_eq_true_eq] at hrevocable
  obtain rfl := changeServiceInstance_eq_ok hchange
  refine Contract.wp_orFail_bind.mpr ?_
  refine Contract.wp_update (hquiet d₂) (fun d _ _ _ hg => herr d _ hg) ?_ ?_
  · exact fun _ d _ _ _ hg _ => herr d _ hg
  intro d₃ d₄ r' key newKey hr₃ _ hr₄ _ _ hkey hchangeKey
  -- The first update has not touched the keys.
  have hkey' : d₄.serviceInstanceKeys.find? (fun r => r.instanceId = id ∧ r.revokedAt = none) =
      some key := hkey
  have hfound := List.find?_some hkey'
  rw [decide_eq_true_eq] at hfound
  obtain rfl := changeServiceInstanceKey_eq_ok hchangeKey
  have hstable : store.Stable ([] ++ (Write.serviceInstances (.update (old.revoke revokedAt))).keys)
      fun d => old ∈ d.serviceInstances :=
    stable_mem_serviceInstances (by simp [Write.keys, ServiceInstanceRow.revoke])
  have hmem₄ := hr₄.stable hstable (hr₃.stable hstable hmem₂)
  refine wp_conclude hquiet (old.revoke revokedAt)
    (P := fun d => old ∈ d.serviceInstances ∧ key ∈ d.serviceInstanceKeys)
    (Store.Stable.and (hstable.mono fun k hk => List.mem_append_left _ hk)
      (stable_mem_serviceInstanceKeys (by simp [Write.keys, ServiceInstanceKeyRow.revoke])))
    ?_ (fun d _ _ _ hg => herr d _ hg) ?_ ⟨hmem₄, List.mem_of_find?_eq_some hkey'⟩
  · intro d row hg hmem hrow
    have hnew : old.revoke revokedAt ∈ (RowWrite.update (old.revoke revokedAt)).apply
        ServiceInstanceRow.instanceId d.serviceInstances := RowWrite.new_mem_update hmem.1 rfl
    refine fst_of_findInstanceRow ?_ hnew hrevocable.1 hrow
    exact RowWrite.nodup_apply (w := .update (old.revoke revokedAt)) (hpk d hg) nofun
  · exact fun d i hg hmem hreads => hok d old key i hg
      ⟨hmem.1, hmem.2, hrevocable, hfound.1, hreads⟩

end PostgresInstanceRegistry

end InfernalLaw
