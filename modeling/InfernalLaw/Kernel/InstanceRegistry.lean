import InfernalLaw.Kernel.Crates
import InfernalLaw.Kernel.Identity

/-!
# The instance registry

The public keys of running instances, and the leases under which they are registered.
-/

namespace InfernalLaw

/-- The public half of an instance's key. -/
structure InstancePublicKey where
  serviceId : ActorId
  instanceId : InstanceId
  keyId : KeyId
  publicKey : Bytes32
  deriving DecidableEq

/-- A running instance's key, with what `SigningKey::sign` answers for it. -/
structure InstanceCredential where
  publicKey : InstancePublicKey
  sign : List UInt8 → Bytes64

/-- What can be wrong with an instance's key. -/
inductive InstanceKeyError where
  | invalidInstanceId
  | invalidKeyId
  | invalidPublicKey
  | invalidSignature
  deriving DecidableEq

/-- The functions of other crates, with what `VerifyingKey::from_bytes` accepts. -/
structure KeyCrates extends Crates where
  verifyingKey : Bytes32 → Bool

namespace InstancePublicKey

/-- `InstancePublicKey::restore`. -/
def restore (crates : KeyCrates) (serviceId : ActorId) (instanceId : InstanceId) (keyId : KeyId)
    (publicKey : Bytes32) : Except InstanceKeyError InstancePublicKey :=
  if crates.verifyingKey publicKey then .ok { serviceId, instanceId, keyId, publicKey }
  else .error .invalidPublicKey

/-- `fingerprint`. -/
def fingerprint (crates : KeyCrates) (k : InstancePublicKey) : Bytes32 :=
  crates.sha256 k.publicKey.bytes

end InstancePublicKey

/-- The functions of other crates, with the keys that sign. -/
structure SigningCrates extends KeyCrates where
  SigningKey : Type
  /-- The bytes of `SigningKey::verifying_key`. -/
  verifyingKeyOf : SigningKey → Bytes32
  /-- The bytes of `SigningKey::sign`. -/
  signWith : SigningKey → List UInt8 → Bytes64

/-- `InstanceCredential::generate`, with the key and the identifiers that it draws. -/
def InstanceCredential.generate (crates : SigningCrates) (serviceId : ActorId)
    (signingKey : crates.SigningKey) (instanceId : InstanceId) (keyId : KeyId) :
    InstanceCredential where
  publicKey := { serviceId, instanceId, keyId, publicKey := crates.verifyingKeyOf signingKey }
  sign := crates.signWith signingKey

/-- The two functions that make a public key. -/
inductive InstancePublicKey.Made (crates : SigningCrates) (k : InstancePublicKey) : Prop where
  | restored {serviceId instanceId keyId publicKey}
      (h : restore crates.toKeyCrates serviceId instanceId keyId publicKey = .ok k)
  | generated {serviceId signingKey instanceId keyId}
      (h : (InstanceCredential.generate crates serviceId signingKey instanceId keyId).publicKey = k)

/-- `VerifyingKey::from_bytes` accepts a key that was made, where it accepts the bytes of a
verifying key. -/
theorem InstancePublicKey.Made.verifyingKey {crates : SigningCrates} {k : InstancePublicKey}
    (h : k.Made crates)
    (hcrates : ∀ signingKey, crates.verifyingKey (crates.verifyingKeyOf signingKey) = true) :
    crates.verifyingKey k.publicKey = true := by
  cases h with
  | restored h =>
    unfold restore at h
    split at h
    · rename_i hverifying
      rw [← Except.ok.inj h]
      exact hverifying
    · cases h
  | generated h =>
    rw [← h]
    exact hcrates _

/-- What can go wrong with a registration. -/
inductive InstanceRegistryError where
  | alreadyExists (id : InstanceId)
  | expired (id : InstanceId)
  | invalidEndpoint
  | invalidLeaseDuration
  | invalidStoredRecord
  | invalidTimestamp
  | key (error : InstanceKeyError)
  | notFound (id : InstanceId)
  | repository (failure : Failure)
  | revisionConflict (id : InstanceId)
  | revoked (id : InstanceId)
  | unknownService (id : ActorId)
  deriving DecidableEq

/-- The longest lease. -/
def maxLeaseSeconds : ℤ := 300

/-- How long a lease is, as `LeasePolicy::new` checks it. -/
structure LeasePolicy where
  durationSeconds : ℤ
  bounds : 1 ≤ durationSeconds ∧ durationSeconds ≤ maxLeaseSeconds
  deriving DecidableEq

/-- The longest endpoint. -/
def maxEndpointLength : ℕ := 2048

/-- What `validate_endpoint` checks of the trimmed text. -/
def isValidEndpoint (endpoint : Str) : Bool :=
  endpoint.startsWith "https://".toList && decide (endpoint.len ≤ maxEndpointLength) &&
    decide (endpoint.len ≠ "https://".length)

/-- A registered instance. The last two fields are what `RegisteredInstance::restore` checks. -/
structure RegisteredInstance where
  publicKey : InstancePublicKey
  endpoint : Str
  registeredAt : ℤ
  leaseExpiresAt : ℤ
  leaseRevision : ℤ
  revokedAt : Option ℤ
  endpoint_valid : isValidEndpoint endpoint = true
  lease : 0 ≤ registeredAt ∧ registeredAt < leaseExpiresAt ∧ 0 < leaseRevision ∧
    ∀ revoked ∈ revokedAt, registeredAt ≤ revoked
  deriving DecidableEq

namespace RegisteredInstance

/-- `RegisteredInstance::restore`. -/
def restore (publicKey : InstancePublicKey) (endpoint : Str)
    (registeredAt leaseExpiresAt leaseRevision : ℤ) (revokedAt : Option ℤ) :
    Except InstanceRegistryError RegisteredInstance :=
  if he : isValidEndpoint endpoint.trim = false then .error .invalidEndpoint
  else if hl : registeredAt < 0 ∨ leaseExpiresAt ≤ registeredAt ∨ leaseRevision ≤ 0 ∨
      ∃ revoked ∈ revokedAt, revoked < registeredAt then
    .error .invalidStoredRecord
  else
    .ok
      { publicKey, endpoint := endpoint.trim, registeredAt, leaseExpiresAt, leaseRevision, revokedAt
        endpoint_valid := by simpa using he
        lease := by
          simp only [not_or, not_exists, not_and, not_lt, not_le] at hl
          exact hl }

/-- `RegisteredInstance::create`. -/
def create (publicKey : InstancePublicKey) (endpoint : Str) (registeredAt leaseExpiresAt : ℤ) :
    Except InstanceRegistryError RegisteredInstance :=
  restore publicKey endpoint registeredAt leaseExpiresAt 1 none

/-- What `RegisteredInstance::restore` builds. -/
theorem restore_eq_ok {publicKey : InstancePublicKey} {endpoint : Str}
    {registeredAt leaseExpiresAt leaseRevision : ℤ} {revokedAt : Option ℤ} {i : RegisteredInstance}
    (h : restore publicKey endpoint registeredAt leaseExpiresAt leaseRevision revokedAt = .ok i) :
    i.publicKey = publicKey ∧ i.endpoint = endpoint.trim ∧ i.registeredAt = registeredAt ∧
      i.leaseExpiresAt = leaseExpiresAt ∧ i.leaseRevision = leaseRevision ∧
      i.revokedAt = revokedAt := by
  unfold restore at h
  split at h
  · cases h
  · split at h
    · cases h
    · rw [← Except.ok.inj h]
      exact ⟨rfl, rfl, rfl, rfl, rfl, rfl⟩

/-- `RegisteredInstance::is_eligible_at`. -/
def isEligibleAt (i : RegisteredInstance) (now : ℤ) : Bool :=
  i.revokedAt.isNone && decide (i.registeredAt ≤ now) && decide (now < i.leaseExpiresAt)

end RegisteredInstance

end InfernalLaw
