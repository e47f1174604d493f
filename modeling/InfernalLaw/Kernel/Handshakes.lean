import InfernalLaw.Kernel.Enrollment

/-!
# Handshakes

A kernel instance challenges an instance of a service, and the instance signs the challenge's
digest. A handshake that has been verified makes the instance eligible for deliveries for a while.
-/

namespace InfernalLaw

/-- What can go wrong with a handshake. -/
inductive HandshakeError where
  | challengeAlreadyUsed
  | challengeExpired
  | handshakeRequired (id : InstanceId)
  | ineligibleInstance (id : InstanceId)
  | invalidKernelSignature
  | invalidStoredRecord
  | invalidTargetSignature
  | invalidTimestamp
  | kernelKeyMismatch
  | randomSource
  | repository (failure : Failure)
  | targetMismatch
  | transport (message : String)
  deriving DecidableEq

namespace Handshakes

/-- For how long a challenge can be answered. -/
def challengeLifetimeSeconds : ℤ := 15

/-- For how long a handshake is current. -/
def handshakeLifetimeSeconds : ℤ := 30

/-- What the message of a challenge starts with. -/
def challengeContext : Str := "infernal-law/instance-handshake/challenge/v1".toList

/-- What the message of a response starts with. -/
def responseContext : Str := "infernal-law/instance-handshake/response/v1".toList

end Handshakes

/-- `i64::to_be_bytes`. -/
def i64Bytes (n : ℤ) : List UInt8 := beBytes 8 (n % 2 ^ 64).toNat

/-- `challenge_message`. -/
def challengeMessage (nonce : Bytes32) (kernelKey : InstancePublicKey)
    (targetInstanceId : InstanceId) (targetKeyId : KeyId) (issuedAt expiresAt : ℤ) : List UInt8 :=
  Framing.fields lengthPrefix
    [Handshakes.challengeContext.asBytes, nonce.bytes, kernelKey.serviceId.uuid.asBytes,
      kernelKey.instanceId.uuid.asBytes, kernelKey.keyId.uuid.asBytes, kernelKey.publicKey.bytes,
      targetInstanceId.uuid.asBytes, targetKeyId.uuid.asBytes, i64Bytes issuedAt,
      i64Bytes expiresAt]

/-- `response_message`. -/
def responseMessage (kernelInstanceId targetInstanceId : InstanceId) (targetKeyId : KeyId)
    (challengeDigest : Bytes32) : List UInt8 :=
  Framing.fields lengthPrefix
    [Handshakes.responseContext.asBytes, kernelInstanceId.uuid.asBytes,
      targetInstanceId.uuid.asBytes, targetKeyId.uuid.asBytes, challengeDigest.bytes]

/-! ## Challenges -/

/-- A signed challenge of a kernel instance. -/
structure SignedHandshakeChallenge where
  nonce : Bytes32
  kernelKey : InstancePublicKey
  targetInstanceId : InstanceId
  targetKeyId : KeyId
  issuedAt : ℤ
  expiresAt : ℤ
  signature : Bytes64
  deriving DecidableEq

namespace SignedHandshakeChallenge

/-- `SignedHandshakeChallenge::message`. -/
def message (c : SignedHandshakeChallenge) : List UInt8 :=
  challengeMessage c.nonce c.kernelKey c.targetInstanceId c.targetKeyId c.issuedAt c.expiresAt

/-- `SignedHandshakeChallenge::digest`. -/
def digest (sha256 : List UInt8 → Bytes32) (c : SignedHandshakeChallenge) : Bytes32 :=
  sha256 (c.message ++ c.signature.bytes)

/-- `SignedHandshakeChallenge::issue`, with what `getrandom::fill` draws for the nonce. -/
def issue (nonce : Option Bytes32) (kernel : InstanceCredential) (target : RegisteredInstance)
    (now : ℤ) : Except HandshakeError SignedHandshakeChallenge :=
  if now < 0 ∨ target.isEligibleAt now = false then
    .error (.ineligibleInstance target.publicKey.instanceId)
  else if 2 ^ 63 ≤ now + Handshakes.challengeLifetimeSeconds then .error .invalidTimestamp
  else
    let expiresAt := min (now + Handshakes.challengeLifetimeSeconds) target.leaseExpiresAt
    if expiresAt ≤ now then .error .invalidTimestamp
    else
      match nonce with
      | none => .error .randomSource
      | some nonce =>
        .ok
          { nonce, kernelKey := kernel.publicKey, targetInstanceId := target.publicKey.instanceId
            targetKeyId := target.publicKey.keyId, issuedAt := now, expiresAt
            signature := kernel.sign (challengeMessage nonce kernel.publicKey
              target.publicKey.instanceId target.publicKey.keyId now expiresAt) }

/-- What `issue` builds. -/
theorem issue_eq_ok {nonce : Option Bytes32} {kernel : InstanceCredential}
    {target : RegisteredInstance} {now : ℤ} {c : SignedHandshakeChallenge}
    (h : issue nonce kernel target now = .ok c) :
    0 ≤ now ∧ target.isEligibleAt now = true ∧ c.kernelKey = kernel.publicKey ∧
      c.targetInstanceId = target.publicKey.instanceId ∧
      c.targetKeyId = target.publicKey.keyId ∧ c.issuedAt = now ∧ now < c.expiresAt ∧
      c.expiresAt ≤ target.leaseExpiresAt ∧ c.signature = kernel.sign c.message := by
  unfold issue at h
  split at h
  · cases h
  rename_i hnow
  rw [not_or, not_lt, Bool.not_eq_false] at hnow
  split at h
  · cases h
  dsimp only at h
  split at h
  · cases h
  rename_i hexpires
  split at h
  · cases h
  · rw [← Except.ok.inj h]
    exact ⟨hnow.1, hnow.2, rfl, rfl, rfl, rfl, not_le.mp hexpires, min_le_right _ _, rfl⟩

end SignedHandshakeChallenge

/-! ## Responses -/

/-- An instance's answer to a challenge. -/
structure SignedHandshakeResponse where
  kernelInstanceId : InstanceId
  targetInstanceId : InstanceId
  targetKeyId : KeyId
  challengeDigest : Bytes32
  signature : Bytes64
  deriving DecidableEq

namespace SignedHandshakeResponse

variable (crates : Crates)

/-- `SignedHandshakeResponse::sign`. -/
def sign (challenge : SignedHandshakeChallenge) (target : InstanceCredential) :
    Except HandshakeError SignedHandshakeResponse :=
  if target.publicKey.instanceId ≠ challenge.targetInstanceId ∨
      target.publicKey.keyId ≠ challenge.targetKeyId then
    .error .targetMismatch
  else
    let digest := challenge.digest crates.sha256
    .ok
      { kernelInstanceId := challenge.kernelKey.instanceId
        targetInstanceId := challenge.targetInstanceId, targetKeyId := challenge.targetKeyId
        challengeDigest := digest
        signature := target.sign (responseMessage challenge.kernelKey.instanceId
          challenge.targetInstanceId challenge.targetKeyId digest) }

/-- `SignedHandshakeResponse::verify`. -/
def verify (r : SignedHandshakeResponse) (challenge : SignedHandshakeChallenge)
    (target : InstancePublicKey) (now : ℤ) : Except HandshakeError Unit :=
  if now < challenge.issuedAt ∨ challenge.expiresAt ≤ now then .error .challengeExpired
  else if r.kernelInstanceId ≠ challenge.kernelKey.instanceId ∨
      r.targetInstanceId ≠ challenge.targetInstanceId ∨ r.targetKeyId ≠ challenge.targetKeyId ∨
      r.challengeDigest ≠ challenge.digest crates.sha256 ∨
      target.instanceId ≠ r.targetInstanceId ∨ target.keyId ≠ r.targetKeyId then
    .error .targetMismatch
  else if crates.verifyStrict target.publicKey (responseMessage r.kernelInstanceId
      r.targetInstanceId r.targetKeyId r.challengeDigest) r.signature = false then
    .error .invalidTargetSignature
  else
    .ok ()

end SignedHandshakeResponse

namespace SignedHandshakeResponse

/-- What `verify` lets through. -/
theorem verify_eq_ok {crates : Crates} {r : SignedHandshakeResponse}
    {challenge : SignedHandshakeChallenge} {target : InstancePublicKey} {now : ℤ}
    (h : r.verify crates challenge target now = .ok ()) :
    challenge.issuedAt ≤ now ∧ now < challenge.expiresAt ∧
      r.challengeDigest = challenge.digest crates.sha256 ∧
      crates.verifyStrict target.publicKey (responseMessage challenge.kernelKey.instanceId
        challenge.targetInstanceId challenge.targetKeyId (challenge.digest crates.sha256))
        r.signature = true := by
  unfold verify at h
  split at h
  · cases h
  rename_i hnow
  split at h
  · cases h
  rename_i htarget
  split at h
  · cases h
  rename_i hsignature
  simp only [not_or, not_not] at htarget
  obtain ⟨hkernel, hinstance, hkey, hdigest, -, -⟩ := htarget
  rw [Bool.not_eq_false, hkernel, hinstance, hkey, hdigest] at hsignature
  exact ⟨by omega, by omega, hdigest, hsignature⟩

/-- What the target of a challenge signs verifies until the challenge expires. -/
theorem verify_of_sign {crates : Crates} {r : SignedHandshakeResponse}
    {challenge : SignedHandshakeChallenge} {target : InstanceCredential} {now : ℤ}
    (hsigns : ∀ m, crates.verifyStrict target.publicKey.publicKey m (target.sign m) = true)
    (hsign : sign crates challenge target = .ok r) (hissued : challenge.issuedAt ≤ now)
    (hexpires : now < challenge.expiresAt) :
    r.verify crates challenge target.publicKey now = .ok () := by
  unfold sign at hsign
  split at hsign
  · cases hsign
  rename_i htarget
  rw [not_or, not_not, not_not] at htarget
  rw [← Except.ok.inj hsign]
  have hnow : ¬ (now < challenge.issuedAt ∨ challenge.expiresAt ≤ now) := by omega
  unfold verify
  rw [if_neg hnow, if_neg (by simp [htarget.1, htarget.2]), if_neg (by simp [hsigns])]

end SignedHandshakeResponse

/-- A verified handshake. The last field is what `InstanceHandshake::restore` checks. -/
@[ext]
structure InstanceHandshake where
  challengeDigest : Bytes32
  kernelInstanceId : InstanceId
  targetInstanceId : InstanceId
  targetKeyId : KeyId
  verifiedAt : ℤ
  expiresAt : ℤ
  window : 0 ≤ verifiedAt ∧ verifiedAt < expiresAt

instance : DecidableEq InstanceHandshake := fun _ _ =>
  decidable_of_iff _ InstanceHandshake.ext_iff.symm

namespace InstanceHandshake

/-- `InstanceHandshake::restore`. -/
def restore (challengeDigest : Bytes32) (kernelInstanceId targetInstanceId : InstanceId)
    (targetKeyId : KeyId) (verifiedAt expiresAt : ℤ) : Except HandshakeError InstanceHandshake :=
  if h : verifiedAt < 0 ∨ expiresAt ≤ verifiedAt then .error .invalidStoredRecord
  else
    .ok
      { challengeDigest, kernelInstanceId, targetInstanceId, targetKeyId, verifiedAt, expiresAt
        window := by omega }

/-- `InstanceHandshake::is_fresh_at`. -/
def isFreshAt (h : InstanceHandshake) (now : ℤ) : Bool :=
  decide (h.verifiedAt ≤ now) && decide (now < h.expiresAt)

/-- What `restore` builds. -/
theorem restore_eq_ok {challengeDigest : Bytes32} {kernelInstanceId targetInstanceId : InstanceId}
    {targetKeyId : KeyId} {verifiedAt expiresAt : ℤ} {h : InstanceHandshake}
    (hrestore : restore challengeDigest kernelInstanceId targetInstanceId targetKeyId verifiedAt
      expiresAt = .ok h) :
    h.challengeDigest = challengeDigest ∧ h.kernelInstanceId = kernelInstanceId ∧
      h.targetInstanceId = targetInstanceId ∧ h.targetKeyId = targetKeyId ∧
      h.verifiedAt = verifiedAt ∧ h.expiresAt = expiresAt := by
  unfold restore at hrestore
  split at hrestore
  · cases hrestore
  · rw [← Except.ok.inj hrestore]
    exact ⟨rfl, rfl, rfl, rfl, rfl, rfl⟩

end InstanceHandshake

/-! ## Reconciliation -/

/-- What is stored of a challenge. -/
structure HandshakeChallengeRecord where
  digest : Bytes32
  kernelInstanceId : InstanceId
  targetInstanceId : InstanceId
  targetKeyId : KeyId
  issuedAt : ℤ
  expiresAt : ℤ
  deriving DecidableEq

/-- `HandshakeChallengeRecord::from`. -/
def HandshakeChallengeRecord.ofChallenge (sha256 : List UInt8 → Bytes32)
    (challenge : SignedHandshakeChallenge) : HandshakeChallengeRecord where
  digest := challenge.digest sha256
  kernelInstanceId := challenge.kernelKey.instanceId
  targetInstanceId := challenge.targetInstanceId
  targetKeyId := challenge.targetKeyId
  issuedAt := challenge.issuedAt
  expiresAt := challenge.expiresAt

/-- What an exchange with an instance brings. -/
structure HandshakeExchange where
  response : SignedHandshakeResponse
  receivedAt : ℤ
  deriving DecidableEq

/-- What came of the attempt at an instance. -/
inductive HandshakeAttemptOutcome where
  | alreadyFresh (handshake : InstanceHandshake)
  | verified (handshake : InstanceHandshake)
  | failed (error : HandshakeError)
  deriving DecidableEq

/-- An attempt at an instance. -/
structure HandshakeAttempt where
  instanceId : InstanceId
  outcome : HandshakeAttemptOutcome
  deriving DecidableEq

end InfernalLaw
