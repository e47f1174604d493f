import InfernalLaw.Infrastructure.Verdicts
import InfernalLaw.Infrastructure.IdentityRepository
import InfernalLaw.Infrastructure.Registrar
import InfernalLaw.Infrastructure.HandshakeRepository
import InfernalLaw.Infrastructure.SubscriptionRepository
import InfernalLaw.Infrastructure.ReplayProtectionRepository
import InfernalLaw.Infrastructure.RouteRepository
import InfernalLaw.Infrastructure.AuthorityRepository
import InfernalLaw.Infrastructure.WorkClaimRepository

/-!
# The statements of the kernel

One walk through every function of the repositories and of the database. It says what the function
writes: each write is one that the constraints let through, and `W` is any property that the writes
of the function have. Whoever wants to know something of these writes gives it as the hypotheses on
`W`, and need not look at the function again.
-/

namespace InfernalLaw

open Postgres (DbError bind_eq_ok check_bind_eq_ok require_eq_ok)
open Postgres.Proc

/-- An update finds the row that it makes a new version of. -/
theorem Db.Lets.update {d : Db} {w : Write} (old : Row) {new : Row} {k : Key}
    (hw : w.change = .update new) (hverdict : d.Verdict w) (hold : d.HasRow old)
    (hk : old.pk = some k) (hnew : new.pk = some k) (hmove : old.moves new) : d.Lets w := by
  refine ⟨hverdict, ?_⟩
  rw [hw]
  exact ⟨old, mem_rows.mpr hold, k, hk, hnew, hmove⟩

variable {W : Write → Prop}

/-- A function of the database is a transaction of its own. -/
theorem lawful_callFunction {β : Type} {f : PlPgSql β} (h : Lawful W f.run) :
    Lawful W (callFunction f) := Obeys.autocommit h

/-! ## Identities and admission -/

section Identities

variable (hidentities : ∀ w, W (.identities w))

section

include hidentities

/-- A new identity has to be active. -/
theorem lawful_insertIdentityRow {row : IdentityRow} (h : row.status = .active) :
    Lawful W (insertIdentityRow row) :=
  Obeys.insert fun _ _ hcheck => ⟨⟨hcheck, h⟩, hidentities _⟩

end

/-- A new admission is that of a service which may not communicate yet. -/
theorem lawful_insertAdmission (hadmissions : ∀ w, W (.admissions w)) {row : IdentityRow}
    {transactionTime : ℤ} : Lawful W (insertAdmission (row.admission transactionTime)) :=
  Obeys.insert fun _ _ hcheck => ⟨⟨hcheck, rfl, rfl⟩, hadmissions _⟩

include hidentities

/-- The trigger adds an admission to a new identity. -/
theorem lawful_insertIdentity (hadmissions : ∀ w, W (.admissions w)) {row : IdentityRow}
    {transactionTime : ℤ} (h : row.status = .active) :
    Lawful W (insertIdentity row transactionTime).run := by
  refine Obeys.run_bind (Obeys.orFail (lawful_insertIdentityRow hidentities h)) fun _ => ?_
  exact Obeys.orFail (lawful_insertAdmission hadmissions)

/-- The display name and the status of an identity may change, its identifier does not. -/
theorem PostgresIdentityRepository.lawful_save {i : Identity} :
    Lawful W (PostgresIdentityRepository.save i).run := by
  refine Obeys.run_bind (Obeys.orFail (Obeys.autocommit (Obeys.update ?_))) fun saved => ?_
  · intro d _ old new _ hold hchange
    simp only [changeIdentity, check_bind_eq_ok, require_eq_ok, pure, Except.pure,
      Except.ok.injEq] at hchange
    obtain ⟨htext, htrim, rfl⟩ := hchange
    have hid := List.find?_some hold
    rw [decide_eq_true_eq] at hid
    refine ⟨.update (.identities old) rfl ⟨htext, htrim⟩ ?_ rfl ?_ hid.symm, hidentities _⟩
    · exact List.mem_of_find?_eq_some hold
    · simp [Row.pk, hid, Identity.row]
  · exact Obeys.run_ite (fun _ => Obeys.run_throw) fun _ => Obeys.run_pure

end Identities

namespace IdentityService

/-- A lookup writes nothing. -/
theorem lawful_findRequired {id : ActorId} : Lawful W (findRequired id).run := by
  have hfind : Lawful W (PostgresIdentityRepository.find id).run :=
    Obeys.run_bind (Obeys.orFail (Obeys.autocommit Obeys.query)) fun row => Obeys.ensure
  exact Obeys.run_bind hfind fun found => Obeys.ensure

variable (hidentities : ∀ w, W (.identities w))

include hidentities

/-- An identity is created active, and with its admission. -/
theorem lawful_create (hadmissions : ∀ w, W (.admissions w)) {id : ActorId} {kind : ActorKind}
    {displayName : Str} {transactionTime : ℤ} :
    Lawful W (create id kind displayName transactionTime).run := by
  refine Obeys.ensure_bind fun identity hcreate => ?_
  have hactive := (Identity.restore_eq_ok hcreate).2.2.2
  refine Obeys.run_bind (Obeys.orFail (lawful_callFunction ?_)) fun _ => Obeys.run_pure
  exact lawful_insertIdentity hidentities hadmissions hactive

/-- A renamed identity is saved. -/
theorem lawful_rename {id : ActorId} {displayName : Str} :
    Lawful W (rename id displayName).run := by
  refine Obeys.run_bind lawful_findRequired fun identity => ?_
  refine Obeys.ensure_bind fun renamed _ => ?_
  exact Obeys.run_bind (PostgresIdentityRepository.lawful_save hidentities) fun _ => Obeys.run_pure

/-- So is a disabled one. -/
theorem lawful_disable {id : ActorId} : Lawful W (disable id).run := by
  refine Obeys.run_bind lawful_findRequired fun identity => ?_
  exact Obeys.run_bind (PostgresIdentityRepository.lawful_save hidentities) fun _ => Obeys.run_pure

end IdentityService

section Admissions

variable (hadmissions : ∀ w, W (.admissions w)) (hhistory : ∀ row, W (.admissionHistory row))

section

include hadmissions

/-- An admission is changed to its next revision. -/
theorem lawful_updateAdmission {r : AdmissionRequest} {revision : ℤ} :
    Lawful W (updateAdmission r revision) := by
  refine Obeys.update fun d _ old new _ hold hchange => ⟨?_, hadmissions _⟩
  simp only [changeAdmission, check_bind_eq_ok, require_eq_ok, pure, Except.pure,
    Except.ok.injEq] at hchange
  obtain ⟨⟨-, hrevision, henabled, hat⟩, hcheck, rfl⟩ := hchange
  exact .update (.admissions old) rfl hcheck (List.mem_of_find?_eq_some hold) rfl rfl
    ⟨rfl, hrevision, henabled, hat⟩

end

include hhistory

/-- What has become of a request for admission is recorded. -/
theorem lawful_recordAdmission {row : AdmissionHistoryRow} :
    Lawful W (recordAdmission row).run := by
  refine Obeys.run_bind (Obeys.orFail (Obeys.insert fun _ _ hcheck => ?_)) fun _ => Obeys.run_pure
  exact ⟨⟨hcheck, trivial⟩, hhistory row⟩

include hadmissions

/-- A change of an admission is recorded, and so is a request that asks for what is the case. -/
theorem lawful_setServiceCommunicationAdmission {r : AdmissionRequest} :
    Lawful W (setServiceCommunicationAdmission r).run := by
  have hrecord : ∀ {row}, Lawful W (recordAdmission row).run := lawful_recordAdmission hhistory
  refine Obeys.run_ite (fun _ => Obeys.run_throw) fun _ => ?_
  refine Obeys.run_bind (Obeys.orFail Obeys.selectForUpdate) fun current => ?_
  cases current with
  | none => exact Obeys.run_throw
  | some current =>
    refine Obeys.run_bind (Obeys.orFail Obeys.query) fun existing => ?_
    cases existing with
    | some row => exact Obeys.run_ite (fun _ => Obeys.run_pure) fun _ => Obeys.run_throw
    | none =>
      refine Obeys.run_ite (fun _ => Obeys.run_throw) fun _ => ?_
      refine Obeys.run_ite (fun _ => hrecord) fun _ => Obeys.ensure_bind fun nextRevision _ => ?_
      exact Obeys.run_bind (Obeys.orFail (lawful_updateAdmission hadmissions)) fun _ => hrecord

end Admissions

/-! ## Enrollment -/

namespace PostgresEnrollmentBindingRepository

section

variable (hbindings : ∀ w, W (.enrollmentBindings w))

include hbindings

/-- A binding is inserted disabled. -/
theorem lawful_insertDisabled {binding : EnrollmentBinding} :
    Lawful W (insertDisabled binding).run := by
  refine Obeys.orFail (Obeys.autocommit (Obeys.insert fun _ _ hcheck => ?_))
  exact ⟨⟨hcheck, trivial⟩, hbindings _⟩

/-- A binding may be enabled and disabled, for the same workload. -/
theorem lawful_setEnabled {serviceId : ActorId} {enabled : Bool} :
    Lawful W (setEnabled serviceId enabled).run := by
  refine Obeys.run_bind (Obeys.orFail (Obeys.autocommit (Obeys.update ?_))) fun changed => ?_
  · intro d _ old new _ hold hchange
    obtain rfl := Except.ok.inj hchange
    have hmem := List.mem_of_find?_eq_some hold
    exact ⟨.update (.enrollmentBindings old) rfl (.inr ⟨old, hmem, rfl⟩) hmem rfl rfl rfl,
      hbindings _⟩
  · exact Obeys.run_ite (fun _ => Obeys.run_throw) fun _ => Obeys.run_pure

end

variable (hchallenges : ∀ w, W (.enrollmentChallenges w))

include hchallenges

/-- A challenge starts as one that has not been consumed. -/
theorem lawful_insertChallenge {digest : Bytes32} {serviceId : ActorId} {expiresAt : ℤ} :
    Lawful W (insertChallenge ⟨digest, serviceId, expiresAt, none⟩).run := by
  refine Obeys.orFail (Obeys.autocommit (Obeys.insert fun _ _ hcheck => ?_))
  exact ⟨⟨hcheck, rfl⟩, hchallenges _⟩

/-- It is consumed once. -/
theorem lawful_consumeChallenge {digest : Bytes32} {serviceId : ActorId} {now : ℤ} :
    Lawful W (consumeChallenge digest serviceId now).run := by
  refine Obeys.run_bind (Obeys.orFail (Obeys.autocommit (Obeys.update ?_))) fun consumed => ?_
  · intro d _ old new _ hold hchange
    simp only [changeEnrollmentChallenge, check_bind_eq_ok, pure, Except.pure,
      Except.ok.injEq] at hchange
    obtain ⟨hcheck, rfl⟩ := hchange
    have hfound := List.find?_some hold
    rw [decide_eq_true_eq] at hfound
    refine ⟨.update (.enrollmentChallenges old) rfl hcheck ?_ rfl rfl ⟨hfound.2.2.1, now, rfl⟩,
      hchallenges _⟩
    exact List.mem_of_find?_eq_some hold
  · exact Obeys.run_ite (fun _ => Obeys.run_throw) fun _ => Obeys.run_pure

end PostgresEnrollmentBindingRepository

/-! ## Instances -/

namespace PostgresInstanceRegistry

/-- What is read back is the instance that is asked for. -/
theorem ends_findInstance {id : InstanceId} :
    (one (findInstance id)).Ends fun answer =>
      ∀ row, answer = .ok row → row.1.instanceId = id := by
  refine Ends.bind (Ends.query nofun fun d row hrow => ?_)
  cases hfound : findInstanceRow id d with
  | none =>
    rw [hfound] at hrow
    cases hrow
  | some found =>
    rw [hfound] at hrow
    obtain rfl := Except.ok.inj hrow
    obtain ⟨instanceRow, hinstance, hkey⟩ := Option.bind_eq_some_iff.mp hfound
    obtain ⟨key, -, hrow⟩ := Option.bind_eq_some_iff.mp hkey
    rw [← Option.some.inj hrow]
    simpa using List.find?_some hinstance

/-- A lookup writes nothing. -/
theorem lawful_find {crates : KeyCrates} {id : InstanceId} : Lawful W (find crates id) :=
  Obeys.run_bind (Obeys.orFail (Obeys.autocommit Obeys.query)) fun _ => Obeys.ensure

/-- A registration inserts the instance under its first lease, its key and an audit. -/
theorem lawful_insert {crates : KeyCrates} {registered : RegisteredInstance}
    (hinstance : W (.serviceInstances (.insert registered.row)))
    (hkey : W (.serviceInstanceKeys (.insert (registered.keyRow crates))))
    (haudit : ∀ row, W (.registryAudit row)) (h : registered.leaseRevision = 1) :
    Lawful W (insert crates registered) := by
  refine Obeys.transaction (Obeys.run_bind (Obeys.orFail (Obeys.insert ?_)) fun _ => ?_)
  · exact fun _ _ hcheck => ⟨⟨hcheck, h, rfl⟩, hinstance⟩
  refine Obeys.run_bind (Obeys.orFail (Obeys.insert ?_)) fun _ => ?_
  · exact fun _ _ hcheck => ⟨⟨hcheck, rfl⟩, hkey⟩
  refine Obeys.run_bind (Obeys.orFail (Obeys.insert ?_)) fun _ => Obeys.orFail Obeys.commitNow
  exact fun _ _ hcheck => ⟨⟨hcheck, trivial⟩, haudit _⟩

section

variable {id : InstanceId}
  (hinstances : ∀ row, row.instanceId = id → W (.serviceInstances (.update row)))
  (haudit : ∀ row, row.instanceId = id → W (.registryAudit row))

section

include hinstances

/-- A renewal changes the lease of the instance, while this is not revoked. -/
theorem lawful_renewRow {expectedRevision renewedAt leaseExpiresAt : ℤ} :
    Lawful W (renewRow id expectedRevision renewedAt leaseExpiresAt) := by
  refine Obeys.update fun d _ old new _ hold hchange => ?_
  simp only [changeServiceInstance, check_bind_eq_ok, require_eq_ok, pure, Except.pure,
    Except.ok.injEq] at hchange
  obtain ⟨-, hcheck, rfl⟩ := hchange
  have hfound := List.find?_some hold
  rw [decide_eq_true_eq] at hfound
  refine ⟨.update (.serviceInstances old) rfl hcheck (List.mem_of_find?_eq_some hold) rfl rfl ?_,
    hinstances _ hfound.1⟩
  exact ⟨hfound.2.2.2.2, .inl ⟨leaseExpiresAt, rfl⟩⟩

/-- A revocation is written to an instance that is not revoked. -/
theorem lawful_revokeRow {revokedAt : ℤ} : Lawful W (revokeRow id revokedAt) := by
  refine Obeys.update fun d _ old new _ hold hchange => ?_
  simp only [changeServiceInstance, check_bind_eq_ok, require_eq_ok, pure, Except.pure,
    Except.ok.injEq] at hchange
  obtain ⟨-, hcheck, rfl⟩ := hchange
  have hfound := List.find?_some hold
  rw [decide_eq_true_eq] at hfound
  refine ⟨.update (.serviceInstances old) rfl hcheck (List.mem_of_find?_eq_some hold) rfl rfl ?_,
    hinstances _ hfound.1⟩
  exact ⟨hfound.2.2, .inr ⟨revokedAt, rfl⟩⟩

end

/-- So is one of its key. -/
theorem lawful_revokeKeyRow (hkeys : ∀ row, W (.serviceInstanceKeys (.update row)))
    {revokedAt : ℤ} : Lawful W (revokeKeyRow id revokedAt) := by
  refine Obeys.update fun d _ old new _ hold hchange => ⟨?_, hkeys new⟩
  simp only [changeServiceInstanceKey, check_bind_eq_ok, pure, Except.pure,
    Except.ok.injEq] at hchange
  obtain ⟨hcheck, rfl⟩ := hchange
  have hfound := List.find?_some hold
  rw [decide_eq_true_eq] at hfound
  exact .update (.serviceInstanceKeys old) rfl hcheck (List.mem_of_find?_eq_some hold) rfl rfl
    ⟨hfound.2, revokedAt, rfl⟩

include haudit

/-- The audit of what has been done names the instance that is read back. -/
theorem lawful_conclude {crates : KeyCrates} {action : RegistryAuditAction} {recordedAt : ℤ} :
    Lawful W (conclude crates id action recordedAt).run := by
  refine Obeys.orFail_bind (Obeys.bind_of_ends (Obeys.one Obeys.query) ends_findInstance
    fun answer hanswer => ?_)
  cases answer with
  | error e => exact Obeys.done
  | ok row =>
    refine Obeys.ensure_bind fun registered hread => ?_
    have hid := (reads_of_instanceFromRow hread).instanceId.trans (hanswer row rfl)
    refine Obeys.run_bind (Obeys.orFail (Obeys.insert fun _ _ hcheck => ?_)) fun _ => ?_
    · exact ⟨⟨hcheck, trivial⟩, haudit _ hid⟩
    · exact Obeys.run_bind (Obeys.orFail Obeys.commitNow) fun _ => Obeys.run_pure

include hinstances

/-- A renewal that finds no row to renew only asks why. -/
theorem lawful_renew {crates : KeyCrates} {expectedRevision renewedAt leaseExpiresAt : ℤ} :
    Lawful W (renew crates id expectedRevision renewedAt leaseExpiresAt) := by
  unfold renew
  split
  · exact Obeys.done
  refine Obeys.transaction (Obeys.run_bind (Obeys.orFail (lawful_renewRow hinstances))
    fun row => ?_)
  refine Obeys.run_ite (fun _ => ?_) fun _ => lawful_conclude haudit
  exact Obeys.run_bind (Obeys.orFail Obeys.query) fun row => Obeys.run_throw

/-- A revocation is one of the instance and of its key. -/
theorem lawful_revoke (hkeys : ∀ row, W (.serviceInstanceKeys (.update row))) {crates : KeyCrates}
    {revokedAt : ℤ} : Lawful W (revoke crates id revokedAt) := by
  unfold revoke
  split
  · exact Obeys.done
  refine Obeys.transaction (Obeys.run_bind (Obeys.orFail (lawful_revokeRow hinstances))
    fun row => ?_)
  refine Obeys.run_ite (fun _ => ?_) fun _ => ?_
  · exact Obeys.run_bind (Obeys.orFail Obeys.query) fun row => Obeys.run_throw
  refine Obeys.run_bind (Obeys.orFail (lawful_revokeKeyRow hkeys)) fun key => ?_
  exact Obeys.run_ite (fun _ => Obeys.run_throw) fun _ => lawful_conclude haudit

end

end PostgresInstanceRegistry

namespace InstanceRegistryService

variable {crates : KeyCrates} {policy : LeasePolicy} {id : InstanceId} {now : ℤ}

/-- An instance is registered under its first lease. -/
theorem lawful_registerVerified (hinstances : ∀ row, W (.serviceInstances (.insert row)))
    (hkeys : ∀ row, W (.serviceInstanceKeys (.insert row))) (haudit : ∀ row, W (.registryAudit row))
    {publicKey : InstancePublicKey} {endpoint : Str} :
    Lawful W (registerVerified crates policy publicKey endpoint now) := by
  refine Obeys.ensure_bind fun registered hcreate => ?_
  obtain ⟨-, hcreate⟩ := check_bind_eq_ok.mp hcreate
  obtain ⟨leaseExpiresAt, -, hcreate⟩ := bind_eq_ok.mp hcreate
  have hrevision := (RegisteredInstance.restore_eq_ok hcreate).2.2.2.2.1
  refine Obeys.run_bind ?_ fun _ => Obeys.run_pure
  exact PostgresInstanceRegistry.lawful_insert (hinstances _) (hkeys _) haudit hrevision

/-- A lookup writes nothing. -/
theorem lawful_findEligible : Lawful W (findEligible crates id now) := by
  refine Obeys.ensure_bind fun _ _ => Obeys.run_bind PostgresInstanceRegistry.lawful_find
    fun found => ?_
  refine Obeys.ensure_bind fun registered _ => Obeys.run_ite (fun _ => Obeys.run_throw) fun _ => ?_
  exact Obeys.run_ite (fun _ => Obeys.run_throw) fun _ => Obeys.run_pure

variable (hinstances : ∀ row, row.instanceId = id → W (.serviceInstances (.update row)))
  (haudit : ∀ row, row.instanceId = id → W (.registryAudit row))

include hinstances haudit

/-- A renewal is one of the instance that is asked for. -/
theorem lawful_renew {expectedRevision : ℤ} :
    Lawful W (renew crates policy id expectedRevision now) :=
  Obeys.ensure_bind fun _ _ => PostgresInstanceRegistry.lawful_renew hinstances haudit

/-- So is a revocation. -/
theorem lawful_revoke (hkeys : ∀ row, W (.serviceInstanceKeys (.update row))) :
    Lawful W (revoke crates id now) :=
  Obeys.ensure_bind fun _ _ => PostgresInstanceRegistry.lawful_revoke hinstances haudit hkeys

end InstanceRegistryService

namespace EnrollmentService

variable {crates : KeyCrates} {reviewer : WorkloadTokenReviewer}

/-- A lookup of the binding writes nothing. -/
theorem lawful_authenticate {workloadToken claimedPodUid : Str} :
    Lawful W (authenticate reviewer workloadToken claimedPodUid).run := by
  refine Obeys.ensure_bind fun workload _ => Obeys.run_bind ?_ fun found => Obeys.ensure
  exact Obeys.run_bind (Obeys.orFail (Obeys.autocommit Obeys.query)) fun row => Obeys.ensure

variable (hchallenges : ∀ w, W (.enrollmentChallenges w))

include hchallenges

/-- A challenge is inserted for the service of the binding. -/
theorem lawful_issueChallengeForWorkload {challenge : EnrollmentChallenge}
    {workloadToken claimedPodUid : Str} {now : ℤ} :
    Lawful W (issueChallengeForWorkload crates reviewer challenge workloadToken claimedPodUid
      now).run := by
  refine Obeys.ensure_bind fun podUid _ => Obeys.run_bind lawful_authenticate fun binding => ?_
  refine Obeys.run_bind (Obeys.ensure_bind fun expiresAt _ => ?_) fun challenge => Obeys.run_pure
  exact Obeys.run_bind (PostgresEnrollmentBindingRepository.lawful_insertChallenge hchallenges)
    fun _ => Obeys.run_pure

/-- The challenge is consumed, and the instance registered. -/
theorem lawful_authenticateAndRegister (hinstances : ∀ row, W (.serviceInstances (.insert row)))
    (hkeys : ∀ row, W (.serviceInstanceKeys (.insert row))) (haudit : ∀ row, W (.registryAudit row))
    {policy : LeasePolicy} {request : EnrollmentRequest} {now : ℤ} :
    Lawful W (authenticateAndRegister crates reviewer policy request now).run := by
  refine Obeys.ensure_bind fun _ _ => Obeys.run_bind lawful_authenticate fun binding => ?_
  refine Obeys.ensure_bind fun _ _ => Obeys.run_bind ?_ fun _ => ?_
  · exact PostgresEnrollmentBindingRepository.lawful_consumeChallenge hchallenges
  · exact Obeys.bind (InstanceRegistryService.lawful_registerVerified hinstances hkeys haudit)
      fun r => Obeys.done

end EnrollmentService

/-! ## Handshakes -/

section Handshakes

variable (hchallenges : ∀ w, W (.handshakeChallenges w)) (hhandshakes : ∀ row, W (.handshakes row))
  (haudit : ∀ row, W (.handshakeAudit row))

namespace PostgresHandshakeRepository

/-- A lookup writes nothing. -/
theorem lawful_findFresh {kernelInstanceId targetInstanceId : InstanceId} {now : ℤ} :
    Lawful W (findFresh kernelInstanceId targetInstanceId now).run := by
  refine Obeys.run_ite (fun _ => Obeys.run_throw) fun _ => ?_
  exact Obeys.run_bind (Obeys.orFail (Obeys.autocommit Obeys.query)) fun row => Obeys.ensure

section

include haudit

/-- An audit is added. -/
theorem lawful_appendAudit {digest : Bytes32} {kernelInstanceId targetInstanceId : InstanceId}
    {action : HandshakeAuditAction} {recordedAt : ℤ} :
    Lawful W (appendAudit digest kernelInstanceId targetInstanceId action recordedAt) :=
  Obeys.insert fun _ _ hcheck => ⟨⟨hcheck, trivial⟩, haudit _⟩

end

include hchallenges

section

/-- A challenge is consumed once, before it expires. -/
theorem lawful_consumeChallenge {handshake : InstanceHandshake} :
    Lawful W (consumeChallenge handshake) := by
  refine Obeys.update fun d _ old new _ hold hchange => ⟨?_, hchallenges _⟩
  simp only [changeHandshakeChallenge, check_bind_eq_ok, require_eq_ok, pure, Except.pure,
    Except.ok.injEq] at hchange
  obtain ⟨hmove, hcheck, rfl⟩ := hchange
  exact .update (.handshakeChallenges old) rfl hcheck (List.mem_of_find?_eq_some hold) rfl rfl
    hmove

end

include haudit

/-- A challenge starts as one that has not been consumed. -/
theorem lawful_insertChallenge {challenge : HandshakeChallengeRecord} :
    Lawful W (insertChallenge challenge) := by
  refine Obeys.transaction (Obeys.run_bind (Obeys.orFail (Obeys.insert ?_)) fun _ => ?_)
  · exact fun _ _ hcheck => ⟨⟨hcheck, rfl⟩, hchallenges _⟩
  · exact Obeys.run_bind (Obeys.orFail (lawful_appendAudit haudit)) fun _ =>
      Obeys.orFail Obeys.commitNow

include hhandshakes

/-- A handshake is inserted once its challenge has been consumed. -/
theorem lawful_complete {handshake : InstanceHandshake} : Lawful W (complete handshake) := by
  refine Obeys.transaction ?_
  refine Obeys.run_bind (Obeys.orFail (lawful_consumeChallenge hchallenges)) fun consumed => ?_
  cases consumed with
  | none => exact Obeys.run_throw
  | some row =>
    refine Obeys.run_bind (Obeys.orFail (Obeys.insert fun _ _ hcheck => ?_)) fun _ => ?_
    · exact ⟨⟨hcheck, trivial⟩, hhandshakes _⟩
    · exact Obeys.run_bind (Obeys.orFail (lawful_appendAudit haudit)) fun _ =>
        Obeys.orFail Obeys.commitNow

end PostgresHandshakeRepository

namespace HandshakeReconciler

variable {crates : KeyCrates} {call : HandshakeReconciler}

include hchallenges hhandshakes haudit

/-- One target: a challenge, and the handshake that answers it. -/
theorem lawful_reconcileInstance {target : RegisteredInstance} :
    Lawful W (call.reconcileInstance crates target).run := by
  refine Obeys.run_bind PostgresHandshakeRepository.lawful_findFresh fun existing => ?_
  cases existing with
  | some existing => exact Obeys.run_pure
  | none =>
    refine Obeys.ensure_bind fun challenge _ => Obeys.run_bind ?_ fun _ => ?_
    · exact PostgresHandshakeRepository.lawful_insertChallenge hchallenges haudit
    refine Obeys.ensure_bind fun exchange _ => Obeys.ensure_bind fun handshake _ => ?_
    refine Obeys.run_bind ?_ fun _ => Obeys.run_pure
    exact PostgresHandshakeRepository.lawful_complete hchallenges hhandshakes haudit

/-- The targets are taken one after another. -/
theorem lawful_attempts {targets : List RegisteredInstance} :
    Lawful W (call.attempts crates targets) := by
  induction targets with
  | nil => exact Obeys.done
  | cons target targets ih =>
    refine Obeys.bind (Obeys.bind ?_ fun r => Obeys.done) fun attempt => ?_
    · exact lawful_reconcileInstance hchallenges hhandshakes haudit
    · exact Obeys.bind ih fun rest => Obeys.done

/-- A reconciliation takes the instances that are subscribed to something. -/
theorem lawful_reconcile : Lawful W (call.reconcile crates).run := by
  have hcandidates :
      Lawful W (PostgresSubscribedInstanceDiscovery.eligibleSubscribedInstances crates
      call.now).run := by
    refine Obeys.run_ite (fun _ => Obeys.run_throw) fun _ => ?_
    exact Obeys.run_bind (Obeys.orFail (Obeys.autocommit Obeys.query)) fun rows => Obeys.ensure
  refine Obeys.run_ite (fun _ => Obeys.run_throw) fun _ => ?_
  refine Obeys.run_bind hcandidates fun candidates => ?_
  exact Obeys.bind (lawful_attempts hchallenges hhandshakes haudit) fun attempts => Obeys.done

end HandshakeReconciler

end Handshakes

/-! ## Subscriptions -/

namespace PostgresSubscriptionRepository

/-- A list writes nothing. -/
theorem lawful_list {serviceId : ActorId} {activeOnly : Bool} :
    Lawful W (list serviceId activeOnly) := by
  refine Obeys.run_bind (Obeys.orFail (Obeys.autocommit ?_)) fun rows => Obeys.ensure
  split <;> exact Obeys.query

/-- Nor does a lookup of those that an event matches. -/
theorem lawful_findActiveByEventType {eventType : EventType} :
    Lawful W (findActiveByEventType eventType) :=
  Obeys.run_bind (Obeys.orFail (Obeys.autocommit Obeys.query)) fun _ => Obeys.ensure

/-- A new subscription is active, and audited. -/
theorem lawful_insert {subscription : Subscription}
    (hinsert : W (.subscriptions (.insert subscription.row)))
    (haudit : ∀ row, row.serviceId = subscription.serviceId → W (.subscriptionAudit row))
    (h : subscription.disabledAt = none) : Lawful W (insert subscription) := by
  refine Obeys.transaction (Obeys.run_bind (Obeys.orFail (Obeys.insert ?_)) fun _ => ?_)
  · exact fun _ _ hcheck => ⟨⟨hcheck, h⟩, hinsert⟩
  refine Obeys.run_bind (Obeys.orFail (Obeys.insert ?_)) fun _ => Obeys.orFail Obeys.commitNow
  exact fun _ _ hcheck => ⟨⟨hcheck, trivial⟩, haudit _ rfl⟩

variable {serviceId : ActorId} {subscriptionId : SubscriptionId} {disabledAt : ℤ}

/-- The row that is disabled is one of the service that disables it. -/
theorem ends_disableRow : (disableRow subscriptionId serviceId disabledAt).Ends
    fun answer => ∀ row, answer = .ok (some row) → row.serviceId = serviceId := by
  refine Ends.update nofun nofun fun d r old hold row hrow => ?_
  have hfound := List.find?_some hold
  rw [decide_eq_true_eq] at hfound
  cases hchange : changeSubscription old { old with disabledAt := some disabledAt } with
  | error e =>
    rw [hchange] at hrow
    cases hrow
  | ok new =>
    rw [hchange] at hrow
    obtain rfl := Option.some.inj (Except.ok.inj hrow)
    rw [(changeSubscription_eq_ok hchange).1]
    exact hfound.2.1

variable (hupdate : ∀ row, row.serviceId = serviceId → row.disabledAt ≠ none →
    W (.subscriptions (.update row)))

include hupdate

/-- An active subscription gets disabled, and nothing else of it changes. -/
theorem lawful_disableRow : Lawful W (disableRow subscriptionId serviceId disabledAt) := by
  refine Obeys.update fun d _ old new _ hold hchange => ?_
  have hfound := List.find?_some hold
  rw [decide_eq_true_eq] at hfound
  simp only [changeSubscription, check_bind_eq_ok, require_eq_ok, pure, Except.pure,
    Except.ok.injEq] at hchange
  obtain ⟨⟨-, -, -, -, -, hactive, hnow⟩, hcheck, rfl⟩ := hchange
  refine ⟨.update (.subscriptions old) rfl hcheck (List.mem_of_find?_eq_some hold) rfl rfl ?_,
    hupdate _ hfound.2.1 (Option.some_ne_none _)⟩
  exact ⟨rfl, hactive, hnow⟩

/-- What is disabled is audited under the service of the row. -/
theorem lawful_disable (haudit : ∀ row, row.serviceId = serviceId → W (.subscriptionAudit row)) :
    Lawful W (disable serviceId subscriptionId disabledAt) := by
  unfold disable
  split
  · exact Obeys.done
  refine Obeys.transaction (Obeys.orFail_bind (Obeys.bind_of_ends (lawful_disableRow hupdate)
    ends_disableRow fun answer hanswer => ?_))
  rcases answer with e | _ | row
  · exact Obeys.done
  · exact Obeys.run_bind (Obeys.orFail Obeys.query) fun row => Obeys.run_throw
  · refine Obeys.ensure_bind fun subscription hread => ?_
    obtain ⟨eventType, -, hread⟩ := bind_eq_ok.mp hread
    have hservice := (Subscription.restore_eq_ok.mp (Postgres.mapError_eq_ok.mp hread)).2.1
    refine Obeys.run_bind (Obeys.orFail (Obeys.insert fun _ _ hcheck => ?_)) fun _ => ?_
    · exact ⟨⟨hcheck, trivial⟩, haudit _ (hservice.trans (hanswer row rfl))⟩
    · exact Obeys.run_bind (Obeys.orFail Obeys.commitNow) fun _ => Obeys.run_pure

end PostgresSubscriptionRepository

namespace SubscriptionService

variable {serviceId : ActorId}
  (haudit : ∀ row, row.serviceId = serviceId → W (.subscriptionAudit row))

include haudit

/-- A subscription is created for the service, and active. -/
theorem lawful_create (hinsert : ∀ row, row.serviceId = serviceId → row.disabledAt = none →
      W (.subscriptions (.insert row))) {id : SubscriptionId} {eventType : EventType}
    {deliveryMode : DeliveryMode} {now : ℤ} :
    Lawful W (create id serviceId eventType deliveryMode now) := by
  refine Obeys.ensure_bind fun subscription hcreate => Obeys.run_bind ?_ fun _ => Obeys.run_pure
  obtain ⟨-, hservice, -, -, -, hactive⟩ := Subscription.restore_eq_ok.mp hcreate
  refine PostgresSubscriptionRepository.lawful_insert (hinsert _ hservice hactive) ?_ hactive
  exact fun row hrow => haudit row (hrow.trans hservice)

/-- One of the service gets disabled. -/
theorem lawful_disable (hupdate : ∀ row, row.serviceId = serviceId → row.disabledAt ≠ none →
      W (.subscriptions (.update row))) {subscriptionId : SubscriptionId} {now : ℤ} :
    Lawful W (disable serviceId subscriptionId now) := by
  unfold disable
  split
  · exact Obeys.done
  · exact PostgresSubscriptionRepository.lawful_disable hupdate haudit

end SubscriptionService

/-! ## Replay protection -/

namespace PostgresReplayProtectionRepository

variable {r : ReplayReservation} (haudit : ∀ row, W (.replayAudit row))

section

include haudit

/-- Every outcome is audited. -/
theorem lawful_conclude {outcome : ReplayOutcome}
    {answer : Except ReplayProtectionError ReplayDisposition} :
    Lawful W (conclude r outcome answer).run := by
  refine Obeys.run_bind (Obeys.orFail (Obeys.insert fun _ _ hcheck => ?_)) fun _ => ?_
  · exact ⟨⟨(require_eq_ok (p := 0 ≤ r.reservedAt)).mp hcheck, trivial⟩, haudit _⟩
  · exact Obeys.run_bind (Obeys.orFail Obeys.commitNow) fun _ => Obeys.ensure

end

/-- A nonce is inserted if there is none under the key. -/
theorem lawful_insertNonce (hnonce : W (.serviceRequestNonces r.nonceRow)) :
    Lawful W (insertNonce r) := by
  refine Obeys.insertOrNothing fun d _ hvalid hconflict hcheck => ⟨⟨?_, trivial⟩, hnonce⟩
  simp only [check_bind_eq_ok, require_eq_ok] at hvalid hcheck
  refine ⟨hvalid, fun row hrow => ?_, hcheck⟩
  have hnot := List.any_eq_false.mp hconflict row hrow
  simpa [ReplayReservation.nonceRow] using hnot

/-- So is a request identifier, under the service. -/
theorem lawful_insertRequestId (hid : W (.serviceRequestIds r.requestIdRow)) :
    Lawful W (insertRequestId r) := by
  refine Obeys.insertOrNothing fun d _ hvalid hconflict hcheck => ⟨⟨?_, trivial⟩, hid⟩
  simp only [require_eq_ok] at hvalid hcheck
  refine ⟨hvalid, fun row hrow => ?_, hcheck⟩
  have hnot := List.any_eq_false.mp hconflict row hrow
  simpa [ReplayReservation.requestIdRow] using hnot

include haudit

/-- A reservation writes its nonce, its identifier and what has become of it. -/
theorem lawful_reserve (hnonce : W (.serviceRequestNonces r.nonceRow))
    (hid : W (.serviceRequestIds r.requestIdRow)) : Lawful W (reserve r) := by
  have hconclude : ∀ {outcome answer}, Lawful W (conclude r outcome answer).run :=
    lawful_conclude haudit
  refine Obeys.transaction ?_
  refine Obeys.run_bind (Obeys.orFail (lawful_insertNonce hnonce)) fun insertedNonce => ?_
  refine Obeys.run_ite (fun _ => hconclude) fun _ =>
    Obeys.run_ite (fun _ => Obeys.run_throw) fun _ => ?_
  refine Obeys.run_bind (Obeys.orFail (lawful_insertRequestId hid)) fun insertedId => ?_
  refine Obeys.run_bind (Obeys.orFail (Obeys.one Obeys.query)) fun stored => ?_
  refine Obeys.run_ite (fun _ => hconclude) fun _ => Obeys.run_ite (fun _ => hconclude) fun _ => ?_
  exact Obeys.run_ite (fun _ => hconclude) fun _ => Obeys.run_throw

end PostgresReplayProtectionRepository

/-! ## Requests and routes -/

namespace PostgresRequestRepository

variable {request : Request} {fingerprint : RequestFingerprint} {now : ℤ}

/-- A request is inserted if there is none under its identifier. -/
theorem lawful_insertRequest {row : AcceptedRequestRow} (haccept : W (.acceptedRequests row)) :
    Lawful W (insertRequest row) := by
  refine Obeys.insertOrNothing fun d _ hvalid hconflict hcheck =>
    ⟨⟨⟨hvalid, fun r hr => ?_, hcheck⟩, trivial⟩, haccept⟩
  simpa using List.any_eq_false.mp hconflict r hr

variable (haudit : ∀ outcome, W (.acceptanceAudit (request.auditRow fingerprint outcome)))

include haudit

/-- Every outcome is audited. -/
theorem lawful_conclude {outcome : AcceptanceOutcome}
    {answer : Except RequestError RequestAcceptance} :
    Lawful W (conclude request fingerprint outcome answer).run := by
  refine Obeys.run_bind (Obeys.orFail (Obeys.insert fun _ _ hcheck => ?_)) fun _ => ?_
  · exact ⟨⟨hcheck, trivial⟩, haudit outcome⟩
  · exact Obeys.run_bind (Obeys.orFail Obeys.commitNow) fun _ => Obeys.ensure

/-- A request is stored as it is submitted, and what became of it is audited. -/
theorem lawful_accept (haccept : W (.acceptedRequests (request.row fingerprint now))) :
    Lawful W (accept request fingerprint now) := by
  have hconclude : ∀ {outcome answer},
      Lawful W (conclude request fingerprint outcome answer).run := lawful_conclude haudit
  refine Obeys.transaction ?_
  refine Obeys.run_bind (Obeys.orFail (lawful_insertRequest haccept)) fun inserted => ?_
  refine Obeys.run_ite (fun _ => Obeys.ensure_bind fun stored _ => hconclude) fun _ => ?_
  refine Obeys.run_bind (Obeys.orFail Obeys.query) fun row => Obeys.ensure_bind fun row _ => ?_
  exact Obeys.ensure_bind fun stored _ => Obeys.run_ite (fun _ => hconclude) fun _ => hconclude

end PostgresRequestRepository

namespace PostgresRouteRepository

/-- A route is inserted if the request has none to the subscription. -/
theorem lawful_materialize {route : Route} (hroute : W (.requestRoutes route.row)) :
    Lawful W (materialize route).run := by
  refine Obeys.run_bind (Obeys.orFail (Obeys.autocommit (Obeys.insertOrNothing ?_)))
    fun inserted => Obeys.run_ite (fun _ => Obeys.ensure) fun _ => ?_
  · intro d _ hvalid hconflict hcheck
    refine ⟨⟨⟨(require_eq_ok (p := 0 ≤ route.row.createdAt)).mp hvalid, fun r hr => ?_, hcheck⟩,
      trivial⟩, hroute⟩
    simpa using List.any_eq_false.mp hconflict r hr
  · refine Obeys.run_bind (Obeys.orFail (Obeys.autocommit Obeys.query)) fun existing => ?_
    exact Obeys.ensure_bind fun row _ => Obeys.ensure

/-- A list writes nothing. -/
theorem lawful_listForDestination {destinationService : ActorId} :
    Lawful W (listForDestination destinationService).run :=
  Obeys.run_bind (Obeys.orFail (Obeys.autocommit Obeys.query)) fun _ => Obeys.ensure

end PostgresRouteRepository

/-- The route is the one that is asked for. -/
theorem RouteService.lawful_materialize {routeId : RouteId} {sourceService : ActorId}
    {requestId : RequestId} {subscriptionId : SubscriptionId} {destinationService : ActorId}
    {now : ℤ} (hroute : ∀ row : RouteRow, row.sourceServiceId = sourceService →
      row.requestId = requestId → row.subscriptionId = subscriptionId →
        row.destinationServiceId = destinationService → W (.requestRoutes row)) :
    Lawful W (RouteService.materialize routeId sourceService requestId subscriptionId
      destinationService now).run := by
  refine Obeys.ensure_bind fun route hrestore => PostgresRouteRepository.lawful_materialize ?_
  obtain ⟨-, hsource, hrequest, hsubscription, hdestination, -⟩ := Route.restore_eq_ok.mp hrestore
  exact hroute _ hsource hrequest hsubscription hdestination

/-! ## Authority -/

section Schemas

variable (hversions : ∀ w, W (.schemaVersions w)) (haudit : ∀ row, W (.schemaStatusAudit row))

/-- A publication inserts a version of the owner, as a published one. -/
theorem SchemaService.lawful_publish {id : SchemaVersionId} {kind : SchemaKind} {name : SchemaName}
    {owner : ActorId} {contentDigest : Bytes32} {publishedAt : ℤ}
    (hinsert : ∀ row, row.ownerServiceId = owner → W (.schemaVersions (.insert row))) :
    Lawful W (SchemaService.publish id kind name owner contentDigest publishedAt).run := by
  refine Obeys.run_ite (fun _ => Obeys.run_throw) fun _ => ?_
  refine Obeys.run_bind (Obeys.orFail (lawful_callFunction ?_)) fun row => Obeys.ensure
  -- The function reads the latest version and inserts the next one.
  refine Obeys.run_bind (Obeys.orFail Obeys.selectForUpdate) fun latest => ?_
  refine Obeys.ensure_bind fun next _ => Obeys.run_bind (Obeys.orFail (Obeys.insert ?_))
    fun _ => Obeys.run_pure
  exact fun _ _ hcheck => ⟨⟨hcheck, rfl⟩, hinsert _ rfl⟩

include hversions in
/-- A status is changed to another one, while it is not terminal. -/
theorem lawful_updateSchemaStatus {id : SchemaVersionId} {status : SchemaStatus} :
    Lawful W (updateSchemaStatus id status) := by
  refine Obeys.update fun d _ old new _ hold hchange => ⟨?_, hversions _⟩
  simp only [changeSchemaVersion, check_bind_eq_ok, require_eq_ok, pure, Except.pure,
    Except.ok.injEq] at hchange
  obtain ⟨-, hterminal, hstatus, rfl⟩ := hchange
  exact .update (.schemaVersions old) rfl trivial (List.mem_of_find?_eq_some hold) rfl rfl
    ⟨rfl, hterminal, hstatus⟩

include haudit

/-- What has become of a change of status is audited. -/
theorem lawful_insertSchemaStatusAudit {row : SchemaStatusAuditRow} :
    Lawful W (perform (insertSchemaStatusAudit row)).run :=
  Obeys.orFail (Obeys.insert fun _ _ hcheck => ⟨⟨hcheck, trivial⟩, haudit row⟩)

include hversions

/-- A version that is found is changed, unless it has the status. -/
theorem lawful_applySchemaStatus {id : SchemaVersionId} {status : SchemaStatus}
    {audit : Option SchemaStatus → SchemaStatusOutcome → SchemaStatusAuditRow}
    {version : Option SchemaVersionRow} :
    Lawful W (applySchemaStatus id status audit version).run := by
  have hrecord : ∀ {row}, Lawful W (perform (insertSchemaStatusAudit row)).run :=
    lawful_insertSchemaStatusAudit haudit
  cases version with
  | none => exact Obeys.run_bind hrecord fun _ => Obeys.run_throw
  | some existing =>
    refine Obeys.run_ite (fun _ => Obeys.run_bind hrecord fun _ => Obeys.run_throw) fun _ => ?_
    refine Obeys.run_ite (fun _ => Obeys.run_bind hrecord fun _ => Obeys.run_pure) fun _ => ?_
    refine Obeys.run_bind (Obeys.orFail (lawful_updateSchemaStatus hversions)) fun _ => ?_
    exact Obeys.run_bind hrecord fun _ => Obeys.run_pure

/-- A request that has been answered before changes nothing. -/
theorem lawful_setAuthoritySchemaStatus {id : SchemaVersionId} {status : SchemaStatus}
    {administratorIdentity reason : Str} {correlationId : Uuid} {changedAt : ℤ} :
    Lawful W (setAuthoritySchemaStatus id status administratorIdentity reason correlationId
      changedAt).run := by
  refine Obeys.run_ite (fun _ => Obeys.run_throw) fun _ => ?_
  refine Obeys.run_bind (Obeys.orFail Obeys.query) fun existing => ?_
  cases existing with
  | some row => exact Obeys.run_ite (fun _ => Obeys.run_throw) fun _ => Obeys.run_pure
  | none =>
    refine Obeys.run_bind (Obeys.orFail Obeys.selectForUpdate) fun version => ?_
    exact Obeys.run_bind (lawful_applySchemaStatus hversions haudit) fun _ => Obeys.run_pure

end Schemas

section Grants

variable (hgrants : ∀ w, W (.grants w)) (haudit : ∀ row, W (.grantAudit row))

section

include hgrants

/-- A grant starts as one that is not revoked. -/
theorem lawful_insertGrant {row : GrantRow} (h : row.revokedAt = none) :
    Lawful W (insertGrant row) :=
  Obeys.insert fun _ _ hcheck => ⟨⟨hcheck, h⟩, hgrants _⟩

/-- It is revoked once, and nothing else of it changes. -/
theorem lawful_updateGrantRevoked {id : GrantId} {revokedAt : ℤ} :
    Lawful W (updateGrantRevoked id revokedAt) := by
  refine Obeys.update fun d _ old new _ hold hchange => ⟨?_, hgrants _⟩
  simp only [changeGrant, check_bind_eq_ok, require_eq_ok, pure, Except.pure,
    Except.ok.injEq] at hchange
  obtain ⟨⟨hlive, hnow⟩, -, hcheck, rfl⟩ := hchange
  exact .update (.grants old) rfl hcheck (List.mem_of_find?_eq_some hold) rfl rfl
    ⟨rfl, hlive, hnow⟩

end

include haudit

/-- What has become of a request for a grant is audited. -/
theorem lawful_insertGrantAudit {row : GrantAuditRow} :
    Lawful W (perform (insertGrantAudit row)).run :=
  Obeys.orFail (Obeys.insert fun _ _ hcheck => ⟨⟨hcheck, trivial⟩, haudit row⟩)

include hgrants

/-- A new grant is inserted, and one that is there is answered again. -/
theorem lawful_createGrantRow {row : GrantRow} (h : row.revokedAt = none)
    {existing : Option GrantRow} : Lawful W (createGrantRow row existing).run := by
  have hrecord : ∀ {row}, Lawful W (perform (insertGrantAudit row)).run :=
    lawful_insertGrantAudit haudit
  cases existing with
  | some existing => exact Obeys.run_ite (fun _ => Obeys.run_pure) fun _ => Obeys.run_throw
  | none =>
    refine Obeys.run_bind (Obeys.orFail Obeys.query) fun taken =>
      Obeys.run_ite (fun _ => ?_) fun _ => ?_
    · exact Obeys.run_bind hrecord fun _ => Obeys.run_throw
    · refine Obeys.run_bind (Obeys.orFail (lawful_insertGrant hgrants h)) fun _ => ?_
      exact Obeys.run_bind hrecord fun _ => Obeys.run_pure

/-- The function inserts a grant that is not revoked. -/
theorem lawful_createAuthorityGrant {requested : GrantRow} :
    Lawful W (createAuthorityGrant requested).run := by
  refine Obeys.run_ite (fun _ => Obeys.run_throw) fun _ => ?_
  refine Obeys.run_bind (Obeys.orFail Obeys.query) fun artifactKind => ?_
  refine Obeys.run_ite (fun _ => Obeys.run_throw) fun _ => ?_
  refine Obeys.run_bind (Obeys.orFail Obeys.query) fun policyKind => ?_
  refine Obeys.run_ite (fun _ => Obeys.run_throw) fun _ => ?_
  exact Obeys.run_bind (Obeys.orFail Obeys.query) fun existing =>
    lawful_createGrantRow hgrants haudit rfl

/-- A grant that is revoked already stays as it is. -/
theorem lawful_revokeGrantRow {id : GrantId} {revokedAt : ℤ}
    {audit : GrantAuditOutcome → GrantAuditRow} {existing : Option GrantRow} :
    Lawful W (revokeGrantRow id revokedAt audit existing).run := by
  have hrecord : ∀ {row}, Lawful W (perform (insertGrantAudit row)).run :=
    lawful_insertGrantAudit haudit
  cases existing with
  | none => exact Obeys.run_throw
  | some existing =>
    unfold revokeGrantRow
    dsimp only
    split
    · exact Obeys.run_bind hrecord fun _ => Obeys.run_pure
    · refine Obeys.run_bind (Obeys.orFail (lawful_updateGrantRevoked hgrants)) fun _ => ?_
      exact Obeys.run_bind hrecord fun _ => Obeys.run_pure

/-- The function revokes the grant that it finds. -/
theorem lawful_revokeAuthorityGrant {id : GrantId} {administratorIdentity reason : Str}
    {correlationId : Uuid} {revokedAt : ℤ} :
    Lawful W (revokeAuthorityGrant id administratorIdentity reason correlationId
      revokedAt).run := by
  refine Obeys.run_ite (fun _ => Obeys.run_throw) fun _ => ?_
  exact Obeys.run_bind (Obeys.orFail Obeys.query) fun existing =>
    lawful_revokeGrantRow hgrants haudit

end Grants

/-- An authorization writes a decision about the facts that it is asked about. -/
theorem AuthorityService.lawful_authorize {evaluator : PolicyEvaluator} {decisionId : DecisionId}
    {facts : PolicyFacts} {now : ℤ}
    (hdecision : ∀ row, row.sourceServiceId = facts.source → W (.decisions row)) :
    Lawful W (AuthorityService.authorize evaluator decisionId facts now) := by
  refine Obeys.run_bind (Obeys.run_bind ?_ fun rows => Obeys.ensure) fun grants => ?_
  · exact Obeys.orFail (Obeys.autocommit (Obeys.statement fun _ _ _ _ => trivial))
  refine Obeys.run_bind (Obeys.orFail (Obeys.autocommit (Obeys.insert ?_))) fun _ => Obeys.run_pure
  exact fun _ _ hcheck => ⟨⟨hcheck, trivial⟩, hdecision _ rfl⟩

/-! ## Work claims -/

/-- A claim that is updated is a new version of one that is there, which the trigger lets
through. -/
theorem Db.Lets.workClaim {d : Db} {new : WorkClaimRow} (h : d.Lets (.workClaims (.update new))) :
    ∃ old ∈ d.workClaims, protectWorkClaim old new = .ok () := by
  obtain ⟨old, hold, -, -, -, hmoves⟩ := h.proceeds
  cases old with
  | workClaims old => exact ⟨old, Db.mem_rows.mp hold, hmoves⟩
  | _ => exact hmoves.elim

namespace PostgresWorkClaimRepository

section

variable (hupdate : ∀ row, W (.workClaims (.update row)))

include hupdate

/-- An `UPDATE` of a claim writes what the trigger lets through. -/
theorem lawful_updateClaim {sql : String} {claimId : ClaimId}
    {change : WorkClaimRow → WorkClaimRow} :
    Lawful W (updateClaim sql claimId change) := by
  refine Obeys.update fun d _ old new _ hold hchange => ⟨?_, hupdate new⟩
  obtain ⟨rfl, hprotect, hlease⟩ := changeWorkClaim_eq_ok.mp hchange
  have hid := (protectWorkClaim_eq_ok.mp hprotect).1.1
  exact .update (.workClaims old) rfl hlease (List.mem_of_find?_eq_some hold) rfl
    (congrArg (fun id => some (Key.claim id)) hid) hprotect

/-- What makes way for a new claim expires. -/
theorem lawful_supersede {routeId : RouteId} {now : ℤ} {latest : Option WorkClaimRow} :
    Lawful W (supersede routeId now latest).run := by
  cases latest with
  | none => exact Obeys.run_pure
  | some row =>
    refine Obeys.ensure_bind fun claim _ => Obeys.run_ite (fun _ => Obeys.run_throw) fun _ => ?_
    refine Obeys.run_ite (fun _ => Obeys.run_throw) fun _ => ?_
    refine Obeys.run_ite (fun _ => ?_) fun _ => Obeys.run_pure
    exact Obeys.run_bind (Obeys.orFail (lawful_updateClaim hupdate)) fun _ => Obeys.run_pure

/-- A claim of a route inserts the new claim, once the one before it has made way. -/
theorem lawful_claim {claimId : ClaimId} {routeId : RouteId} {workerService : ActorId}
    {workerInstance : InstanceId} {leaseExpiresAt now : ℤ}
    (hinsert : ∀ row, row.workerServiceId = workerService → row.workerInstanceId = workerInstance →
      W (.workClaims (.insert row))) :
    Lawful W (claim claimId routeId workerService workerInstance leaseExpiresAt now) := by
  refine Obeys.transaction (Obeys.run_bind (Obeys.orFail Obeys.query) fun destination => ?_)
  refine Obeys.run_ite (fun _ => Obeys.run_throw) fun _ => ?_
  refine Obeys.run_bind (Obeys.orFail Obeys.selectForUpdate) fun latest => ?_
  refine Obeys.run_bind (lawful_supersede hupdate) fun nextFencingToken => ?_
  refine Obeys.run_bind (Obeys.orFail (Obeys.insert ?_)) fun _ => ?_
  · exact fun _ _ hcheck => ⟨⟨hcheck, rfl⟩, hinsert _ rfl rfl⟩
  refine Obeys.ensure_bind fun claim _ => ?_
  exact Obeys.run_bind (Obeys.orFail Obeys.commitNow) fun _ => Obeys.run_pure

end

/-- A change of a claim under its lock is what its statement does. -/
theorem lawful_changeLocked {claimId : ClaimId} {fencingToken now : ℤ}
    {statement : ClaimId → Sql (Except DbError (Option WorkClaimRow))}
    (h : ∀ id, Lawful W (statement id)) :
    Lawful W (changeLocked claimId fencingToken now statement) := by
  have hlock : Lawful W (lockCurrent claimId fencingToken now).run := by
    refine Obeys.run_bind (Obeys.orFail Obeys.selectForUpdate) fun row => ?_
    refine Obeys.ensure_bind fun row _ => Obeys.ensure_bind fun claim _ => ?_
    exact Obeys.run_ite (fun _ => Obeys.run_throw) fun _ => Obeys.run_pure
  refine Obeys.transaction (Obeys.run_bind hlock fun current => ?_)
  refine Obeys.run_bind (Obeys.orFail (Obeys.one (h current.id))) fun row => ?_
  refine Obeys.ensure_bind fun claim _ => ?_
  exact Obeys.run_bind (Obeys.orFail Obeys.commitNow) fun _ => Obeys.run_pure

variable {claimId : ClaimId} {fencingToken leaseExpiresAt now : ℤ}
  (hupdate : ∀ row, W (.workClaims (.update row)))

include hupdate

/-- A renewal changes the lease. -/
theorem lawful_renew : Lawful W (renew claimId fencingToken leaseExpiresAt now) :=
  lawful_changeLocked fun _ => lawful_updateClaim hupdate

/-- A transition changes the status. -/
theorem lawful_transition {status : WorkClaimStatus} :
    Lawful W (transition claimId fencingToken now status) :=
  lawful_changeLocked fun _ => lawful_updateClaim hupdate

end PostgresWorkClaimRepository

namespace WorkClaimService

variable {claimId : ClaimId} {fencingToken leaseExpiresAt now : ℤ}

/-- A list writes nothing. -/
theorem lawful_activeRouteIds {routeIds : List RouteId} :
    Lawful W (activeRouteIds routeIds now).run := by
  refine Obeys.run_ite (fun _ => Obeys.run_throw) fun _ => ?_
  exact Obeys.run_ite (fun _ => Obeys.run_pure) fun _ => Obeys.orFail (Obeys.autocommit Obeys.query)

/-- Nor does the one of what is completed. -/
theorem lawful_completedRouteIds {routeIds : List RouteId} :
    Lawful W (completedRouteIds routeIds).run :=
  Obeys.run_ite (fun _ => Obeys.run_pure) fun _ => Obeys.orFail (Obeys.autocommit Obeys.query)

variable (hupdate : ∀ row, W (.workClaims (.update row)))

include hupdate

/-- A claim is the worker's own. -/
theorem lawful_claim {routeId : RouteId} {workerService : ActorId} {workerInstance : InstanceId}
    (hinsert : ∀ row, row.workerServiceId = workerService → row.workerInstanceId = workerInstance →
      W (.workClaims (.insert row))) :
    Lawful W (claim claimId routeId workerService workerInstance leaseExpiresAt now) := by
  unfold claim
  split
  · exact Obeys.done
  · exact PostgresWorkClaimRepository.lawful_claim hupdate hinsert

/-- A renewal changes the claim. -/
theorem lawful_renew : Lawful W (renew claimId fencingToken leaseExpiresAt now) := by
  unfold renew
  split
  · exact Obeys.done
  · exact PostgresWorkClaimRepository.lawful_renew hupdate

/-- So does a release. -/
theorem lawful_release : Lawful W (release claimId fencingToken now) := by
  unfold release
  split
  · exact Obeys.done
  · exact PostgresWorkClaimRepository.lawful_transition hupdate

/-- So does a completion. -/
theorem lawful_complete : Lawful W (complete claimId fencingToken now) := by
  unfold complete
  split
  · exact Obeys.done
  · exact PostgresWorkClaimRepository.lawful_transition hupdate

end WorkClaimService

/-! ## The registrar -/

section Registrar

variable (hidentities : ∀ w, W (.identities w)) (hbindings : ∀ w, W (.enrollmentBindings w))
  (hadmissions : ∀ w, W (.admissions w)) (hhistory : ∀ row, W (.admissionHistory row))
  (hgrants : ∀ w, W (.grants w)) (haudit : ∀ row, W (.grantAudit row))

/-- The row that the registrar inserts passes the `CHECK` constraints, and is of an active
identity. -/
theorem ServiceSpec.valid_identityRow {s : ServiceSpec} {row : IdentityRow}
    (h : s.identityRow = .ok row) : (Row.identities row).valid ∧ row.status = .active := by
  obtain ⟨-, h⟩ := check_bind_eq_ok.mp h
  obtain ⟨htext, h⟩ := check_bind_eq_ok.mp h
  obtain ⟨id, -, h⟩ := bind_eq_ok.mp h
  obtain ⟨htrim, h⟩ := check_bind_eq_ok.mp h
  obtain ⟨kind, -, h⟩ := bind_eq_ok.mp h
  cases h
  exact ⟨⟨htext, require_eq_ok.mp htrim⟩, rfl⟩

include hidentities in
/-- An identity is inserted, or takes on what the manifest says. -/
theorem lawful_upsertIdentityRow {row : IdentityRow} (hvalid : (Row.identities row).valid)
    (h : row.status = .active) : Lawful W (upsertIdentityRow row) := by
  refine Obeys.upsert (fun _ _ _ hcheck => ⟨⟨hcheck, h⟩, hidentities _⟩) ?_
  intro d old r _ hold hchange
  have hid := List.find?_some hold
  rw [decide_eq_true_eq] at hid
  split at hchange
  · cases hchange
  · cases hchange
    refine ⟨.update (.identities old) rfl hvalid ?_ rfl ?_ hid.symm, hidentities _⟩
    · exact List.mem_of_find?_eq_some hold
    · simp [Row.pk, hid]

include hidentities hadmissions in
/-- The trigger adds an admission to an identity that is inserted. -/
theorem lawful_upsertIdentity {row : IdentityRow} {transactionTime : ℤ}
    (hvalid : (Row.identities row).valid) (h : row.status = .active) :
    Lawful W (upsertIdentity row transactionTime).run := by
  refine Obeys.run_bind (Obeys.orFail (lawful_upsertIdentityRow hidentities hvalid h))
    fun upserted => ?_
  cases upserted with
  | inserted =>
    exact Obeys.run_bind (Obeys.orFail (lawful_insertAdmission hadmissions)) fun _ => Obeys.run_pure
  | updated | unchanged => exact Obeys.run_pure

include hbindings in
/-- A binding is inserted, or takes on the workload that the manifest says. -/
theorem lawful_upsertBinding {row : EnrollmentBindingRow} : Lawful W (upsertBinding row) := by
  refine Obeys.upsert (fun _ _ _ hcheck => ⟨⟨hcheck, trivial⟩, hbindings _⟩) ?_
  intro d old r _ hold hchange
  have hid := List.find?_some hold
  rw [decide_eq_true_eq] at hid
  obtain ⟨hcheck, hchange⟩ := check_bind_eq_ok.mp hchange
  split at hchange
  · cases hchange
  · obtain ⟨hworkload, hchange⟩ := check_bind_eq_ok.mp hchange
    cases hchange
    refine ⟨.update (.enrollmentBindings old) rfl (.inl ⟨hcheck, hworkload⟩) ?_ rfl ?_ hid.symm,
      hbindings _⟩
    · exact List.mem_of_find?_eq_some hold
    · simp [Row.pk, hid]

include hadmissions hhistory in
/-- The calls of the admission function come one after another. -/
theorem lawful_setAdmission {r : AdmissionRequest} {repeats : List Uuid} :
    Lawful W (setAdmission r repeats).run := by
  have hset : ∀ {r}, Lawful W (setServiceCommunicationAdmission r).run :=
    lawful_setServiceCommunicationAdmission hadmissions hhistory
  refine Obeys.run_bind hset fun result => ?_
  induction repeats generalizing result with
  | nil => exact Obeys.run_pure
  | cons correlationId repeats ih =>
    rw [List.foldlM_cons]
    exact Obeys.run_bind hset ih

/-- Bindings are disabled one after another, each of those that are there, whatever else is written
to the bindings of its service. -/
theorem chain_disable (hbindings : ∀ w, W (.enrollmentBindings w))
    {bindings : List EnrollmentBindingRow} {d : Db}
    (hmem : ∀ b ∈ bindings, ∃ old ∈ d.enrollmentBindings,
      { old with enabled := false } = { b with enabled := false })
    (hsame : bindings.Pairwise fun b b' => b.serviceId = b'.serviceId → b = b') :
    store.Chain (fun d w => d.Lets w ∧ W w) d
      (bindings.map fun b => .enrollmentBindings (.update { b with enabled := false })) := by
  induction bindings generalizing d with
  | nil => exact trivial
  | cons b bindings ih =>
    obtain ⟨⟨old, hold, hb⟩, hmem⟩ := List.forall_mem_cons.mp hmem
    obtain ⟨hfirst, hsame⟩ := List.pairwise_cons.mp hsame
    have hid : old.serviceId = b.serviceId := (EnrollmentBindingRow.mk.inj hb).1
    refine ⟨⟨?_, hbindings _⟩, ih (fun b' hb' => ?_) hsame⟩
    · exact .update (.enrollmentBindings old) rfl (.inr ⟨old, hold, hb.symm⟩) hold rfl
        (by simp [Row.pk, hid]) hid.symm
    · -- The row of another service stays, and that of the same one has just been written.
      obtain ⟨old', hold', heq⟩ := hmem b' hb'
      have hid' : old'.serviceId = b'.serviceId := (EnrollmentBindingRow.mk.inj heq).1
      by_cases hservice : b.serviceId = b'.serviceId
      · obtain rfl := hfirst b' hb' hservice
        exact ⟨_, List.mem_map.mpr ⟨old', hold', if_pos hid'⟩, rfl⟩
      · refine ⟨old', List.mem_map.mpr ⟨old', hold', if_neg fun h => hservice ?_⟩, heq⟩
        exact h.symm.trans hid'

namespace Registrar

variable {r : Registrar}

include hbindings in
/-- The bindings of services that are not managed are disabled. -/
theorem lawful_disableBindings {managed : List Str} : Lawful W (disableBindings managed) := by
  refine Obeys.updateAll fun d d' _ _ => chain_disable hbindings (fun b hb => ?_) ?_
  · obtain ⟨_, -, hb⟩ := List.mem_filterMap.mp hb
    exact ⟨b, List.mem_of_find?_eq_some hb, rfl⟩
  · -- The row that is updated is the first one of the service.
    refine List.pairwise_filterMap.mpr (List.pairwise_of_forall ?_)
    intro a a' b hb b' hb' heq
    have hservice := List.find?_some hb
    have hservice' := List.find?_some hb'
    rw [decide_eq_true_eq] at hservice hservice'
    rw [← hservice.1.symm.trans (heq.trans hservice'.1)] at hb'
    exact Option.some.inj (hb.symm.trans hb')

include hbindings in
/-- The binding is that of the manifest. -/
theorem lawful_reconcileBinding {id : ActorId} {s : ServiceSpec} :
    Lawful W (r.reconcileBinding id s).run := by
  unfold reconcileBinding
  split
  · refine Obeys.ensure_bind fun uid _ => Obeys.run_bind ?_ fun upserted => Obeys.run_pure
    exact Obeys.orFail (Obeys.autocommit (lawful_upsertBinding hbindings))
  · exact Obeys.run_pure

include hadmissions hhistory in
/-- So is the admission. -/
theorem lawful_reconcileAdmission {i : ℕ} {id : ActorId} {s : ServiceSpec} :
    Lawful W (r.reconcileAdmission i id s).run := by
  refine Obeys.run_bind (Obeys.orFail (lawful_callFunction ?_)) fun result => Obeys.run_pure
  exact lawful_setAdmission hadmissions hhistory

section

include hgrants haudit

/-- A grant that does not exist yet is created. -/
theorem lawful_reconcileGrant {i k : ℕ} {id : ActorId} {g : GrantSpec} :
    Lawful W (r.reconcileGrant i k id g).run := by
  have hcount : Lawful W (autocommit (countLiveGrants id g r.now)) :=
    Obeys.autocommit (Obeys.statement fun _ _ _ _ => trivial)
  refine Obeys.run_bind (Obeys.orFail hcount) fun count => ?_
  refine Obeys.run_ite (fun _ => Obeys.run_pure) fun _ => Obeys.ensure_bind fun row _ => ?_
  refine Obeys.run_bind (Obeys.orFail (lawful_callFunction ?_)) fun _ => Obeys.run_pure
  exact lawful_createAuthorityGrant hgrants haudit

/-- The grants of a service come one after another. -/
theorem lawful_reconcileGrants {i k : ℕ} {id : ActorId} {grants : List GrantSpec} :
    Lawful W (r.reconcileGrants i id k grants).run := by
  induction grants generalizing k with
  | nil => exact Obeys.run_pure
  | cons g grants ih =>
    refine Obeys.run_bind (lawful_reconcileGrant hgrants haudit) fun applied => ?_
    exact Obeys.run_bind ih fun rest => Obeys.run_pure

end

section

include hidentities hbindings hadmissions hhistory hgrants haudit

/-- A service of the manifest: its identity, its binding, its admission and its grants. -/
theorem lawful_reconcileService {i : ℕ} {s : ServiceSpec} :
    Lawful W (r.reconcileService i s).run := by
  refine Obeys.ensure_bind fun row hrow => ?_
  obtain ⟨hvalid, hactive⟩ := ServiceSpec.valid_identityRow (Postgres.mapError_eq_ok.mp hrow)
  refine Obeys.run_bind (Obeys.orFail (lawful_callFunction ?_)) fun identity => ?_
  · exact lawful_upsertIdentity hidentities hadmissions hvalid hactive
  refine Obeys.run_bind (lawful_reconcileBinding hbindings) fun binding => ?_
  refine Obeys.run_bind (lawful_reconcileAdmission hadmissions hhistory) fun admission => ?_
  exact Obeys.run_bind (lawful_reconcileGrants hgrants haudit) fun grants => Obeys.run_pure

/-- The services of the manifest are taken one after another. -/
theorem lawful_reconcile {manifest : Manifest} : Lawful W (r.reconcile manifest).run := by
  have hservice : ∀ {i s}, Lawful W (r.reconcileService i s).run :=
    lawful_reconcileService hidentities hbindings hadmissions hhistory hgrants haudit
  unfold reconcile
  generalize manifest.services = services, 0 = i, ([] : ServiceChanges) = changes
  induction services generalizing i changes with
  | nil => exact Obeys.run_pure
  | cons s services ih => exact Obeys.run_bind hservice fun applied => ih _ _

end

section

include hgrants haudit

/-- A grant that the manifest does not list is revoked. -/
theorem lawful_pruneGrant {manifest : Manifest} {correlationId : Uuid}
    {row : Str × Str × Str × Str} : Lawful W (r.pruneGrant manifest correlationId row).run := by
  refine Obeys.run_ite (fun _ => Obeys.run_pure) fun _ => Obeys.ensure_bind fun id _ => ?_
  refine Obeys.run_bind (Obeys.orFail (lawful_callFunction ?_)) fun _ => Obeys.run_pure
  exact lawful_revokeAuthorityGrant hgrants haudit

/-- The grants that are live are taken one after another. -/
theorem lawful_pruneGrants {manifest : Manifest} {draw : ℕ → Uuid} {k : ℕ}
    {rows : List (Str × Str × Str × Str)} : Lawful W (r.pruneGrants manifest draw k rows).run := by
  induction rows generalizing k with
  | nil => exact Obeys.run_pure
  | cons row rows ih =>
    refine Obeys.run_bind (lawful_pruneGrant hgrants haudit) fun removed => ?_
    exact Obeys.run_bind ih fun rest => Obeys.run_pure

include hbindings

/-- What the manifest does not list is disabled or revoked. -/
theorem lawful_prune {manifest : Manifest} {draw : ℕ → Uuid} :
    Lawful W (r.prune manifest draw).run := by
  refine Obeys.run_bind (Obeys.orFail (Obeys.autocommit (lawful_disableBindings hbindings)))
    fun bindings => ?_
  refine Obeys.run_bind (Obeys.orFail (Obeys.autocommit Obeys.query)) fun live => ?_
  exact Obeys.run_bind (lawful_pruneGrants hgrants haudit) fun removed => Obeys.run_pure

end

end Registrar

end Registrar

end InfernalLaw
