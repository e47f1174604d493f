import InfernalLaw.Kernel.Identity

/-!
# Replay protection

A reservation consumes the nonce of a signed request and binds the request's identifier to the
fingerprint of its content.
-/

namespace InfernalLaw

/-- How far the clocks may be apart. -/
def clockSkewSeconds : ℤ := 5

/-- An attempt to use a signed request. The last field is what `ReplayReservation::from_verified`
checks. -/
structure ReplayReservation where
  serviceId : ActorId
  instanceId : InstanceId
  keyId : KeyId
  requestId : Uuid
  nonceDigest : Bytes32
  requestFingerprint : Bytes32
  signatureCreated : ℤ
  signatureExpires : ℤ
  reservedAt : ℤ
  timely : 0 ≤ reservedAt ∧ signatureCreated ≤ saturatingAdd reservedAt clockSkewSeconds ∧
    reservedAt ≤ saturatingAdd signatureExpires clockSkewSeconds
  deriving DecidableEq

/-- What an attempt comes to: the first use of the request's identifier, or a repetition of it. -/
inductive ReplayDisposition where
  | fresh
  | safeRetry
  deriving DecidableEq

/-- What can go wrong with an attempt. -/
inductive ReplayProtectionError where
  | invalidTimestamp
  | replayDetected
  | requestIdConflict
  | repository (failure : Failure)
  deriving DecidableEq

end InfernalLaw
