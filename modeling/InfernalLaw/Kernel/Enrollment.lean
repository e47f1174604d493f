import InfernalLaw.Framing.Fields
import InfernalLaw.Kernel.InstanceRegistry

/-!
# Enrollment

How a workload becomes an instance of a service: it proves that it holds the key that it wants to
register, with a token that says which workload it is, under a challenge that is used once. An
operator's binding says which service the workload may become.
-/

namespace InfernalLaw

/-- What can go wrong with an enrollment. -/
inductive EnrollmentError where
  | audienceMismatch
  | bindingDisabled
  | bindingNotFound
  | challengeRejected
  | invalidField
  | invalidProof
  | podMismatch
  | repository (failure : Failure)
  | registry (error : InstanceRegistryError)
  | serviceMismatch
  | tokenRejected
  deriving DecidableEq

namespace Enrollment

/-- The audience that a workload's token has to be for. -/
def audience : Str := "infernal-law-enrollment".toList

/-- For how long a challenge can be answered. -/
def challengeLifetimeSeconds : ℤ := 30

/-- What the message of a proof starts with. -/
def proofContext : Str := "infernal-law/enrollment/v1".toList

/-- The longest name of a cluster's object. -/
def maxNameLength : ℕ := 253

/-- The longest identifier of a cluster's object. -/
def maxUidLength : ℕ := 253

/-- The longest token. -/
def maxTokenLength : ℕ := 32 * 1024

/-- What `validate_field` checks of the trimmed text. -/
def isValidField (max : ℕ) (value : Str) : Bool :=
  !value.isEmpty && decide (value.len ≤ max) && decide ('\x00' ∉ value)

/-- `validate_field`. -/
def validateField (value : Str) (max : ℕ) : Except EnrollmentError Str :=
  if isValidField max value.trim then .ok value.trim else .error .invalidField

/-- What `validate_endpoint` checks of the trimmed text. -/
def isValidEndpoint (endpoint : Str) : Bool :=
  isValidField 2048 endpoint && decide (endpoint ≠ "https://".toList) &&
    endpoint.startsWith "https://".toList

end Enrollment

/-- A nonce under which one instance can enroll. -/
structure EnrollmentChallenge where
  bytes : Bytes32
  deriving DecidableEq

/-- What the review of a token says about the workload that sent it. -/
structure VerifiedWorkload where
  workloadNamespace : Str
  serviceAccount : Str
  serviceAccountUid : Str
  podName : Str
  podUid : Str
  audiences : List Str
  deriving DecidableEq

/-- `VerifiedWorkload::new`. -/
def VerifiedWorkload.new (workloadNamespace serviceAccount serviceAccountUid podName podUid : Str)
    (audiences : List Str) : Except EnrollmentError VerifiedWorkload := do
  let workloadNamespace ← Enrollment.validateField workloadNamespace Enrollment.maxNameLength
  let serviceAccount ← Enrollment.validateField serviceAccount Enrollment.maxNameLength
  let serviceAccountUid ← Enrollment.validateField serviceAccountUid Enrollment.maxUidLength
  let podName ← Enrollment.validateField podName Enrollment.maxNameLength
  let podUid ← Enrollment.validateField podUid Enrollment.maxUidLength
  return { workloadNamespace, serviceAccount, serviceAccountUid, podName, podUid, audiences }

/-- Which service a workload may become. -/
structure EnrollmentBinding where
  serviceId : ActorId
  workloadNamespace : Str
  serviceAccount : Str
  serviceAccountUid : Str
  enabled : Bool
  deriving DecidableEq

/-- `EnrollmentBinding::restore`. -/
def EnrollmentBinding.restore (serviceId : ActorId)
    (workloadNamespace serviceAccount serviceAccountUid : Str) (enabled : Bool) :
    Except EnrollmentError EnrollmentBinding := do
  let workloadNamespace ← Enrollment.validateField workloadNamespace Enrollment.maxNameLength
  let serviceAccount ← Enrollment.validateField serviceAccount Enrollment.maxNameLength
  let serviceAccountUid ← Enrollment.validateField serviceAccountUid Enrollment.maxUidLength
  return { serviceId, workloadNamespace, serviceAccount, serviceAccountUid, enabled }

/-! ## The request -/

/-- A request to register a key. The last three fields are what `sign` and `restore` check. -/
structure EnrollmentRequest where
  challenge : EnrollmentChallenge
  publicKey : InstancePublicKey
  endpoint : Str
  claimedPodUid : Str
  workloadToken : Str
  signature : Bytes64
  endpoint_valid : Enrollment.isValidEndpoint endpoint = true
  pod_valid : Enrollment.isValidField Enrollment.maxUidLength claimedPodUid = true
  token_valid : workloadToken ≠ [] ∧ workloadToken.len ≤ Enrollment.maxTokenLength
  deriving DecidableEq

/-- The length of a field, as a `u32` in big-endian order. -/
def lengthPrefix (n : ℕ) : List UInt8 := beBytes 4 (n % 2 ^ 32)

/-- `proof_message`. -/
def proofMessage (sha256 : List UInt8 → Bytes32) (challenge : EnrollmentChallenge)
    (publicKey : InstancePublicKey) (endpoint podUid token : Str) : List UInt8 :=
  Framing.fields lengthPrefix
    ([Enrollment.proofContext.asBytes, challenge.bytes.bytes, publicKey.serviceId.uuid.asBytes,
      publicKey.instanceId.uuid.asBytes, publicKey.keyId.uuid.asBytes, publicKey.publicKey.bytes,
      endpoint.asBytes, podUid.asBytes] ++ [(sha256 token.asBytes).bytes])

namespace EnrollmentRequest

/-- The message that a request's signature is about. -/
def message (sha256 : List UInt8 → Bytes32) (r : EnrollmentRequest) : List UInt8 :=
  proofMessage sha256 r.challenge r.publicKey r.endpoint r.claimedPodUid r.workloadToken

/-- The request of a key, from texts that are trimmed and checked, with a signature over the trimmed
texts. -/
def build (challenge : EnrollmentChallenge) (publicKey : InstancePublicKey)
    (endpoint claimedPodUid workloadToken : Str) (signature : Str → Str → Bytes64) :
    Except EnrollmentError EnrollmentRequest :=
  if he : Enrollment.isValidEndpoint endpoint.trim = false then .error .invalidField
  else if hp : Enrollment.isValidField Enrollment.maxUidLength claimedPodUid.trim = false then
    .error .invalidField
  else if ht : workloadToken = [] ∨ Enrollment.maxTokenLength < workloadToken.len then
    .error .invalidField
  else
    .ok
      { challenge, publicKey, endpoint := endpoint.trim, claimedPodUid := claimedPodUid.trim
        workloadToken, signature := signature endpoint.trim claimedPodUid.trim
        endpoint_valid := by simpa using he
        pod_valid := by simpa using hp
        token_valid := by
          rw [not_or, not_lt] at ht
          exact ht }

/-- `EnrollmentRequest::restore`. -/
def restore (challenge : EnrollmentChallenge) (publicKey : InstancePublicKey)
    (endpoint claimedPodUid workloadToken : Str) (signature : Bytes64) :
    Except EnrollmentError EnrollmentRequest :=
  build challenge publicKey endpoint claimedPodUid workloadToken fun _ _ => signature

/-- What a request is built of. -/
theorem build_eq_ok {challenge : EnrollmentChallenge} {publicKey : InstancePublicKey}
    {endpoint claimedPodUid workloadToken : Str} {signature : Str → Str → Bytes64}
    {r : EnrollmentRequest}
    (h : build challenge publicKey endpoint claimedPodUid workloadToken signature = .ok r) :
    r.challenge = challenge ∧ r.publicKey = publicKey ∧ r.endpoint = endpoint.trim ∧
      r.claimedPodUid = claimedPodUid.trim ∧ r.workloadToken = workloadToken ∧
      r.signature = signature endpoint.trim claimedPodUid.trim := by
  unfold build at h
  split at h
  · cases h
  split at h
  · cases h
  split at h
  · cases h
  rw [← Except.ok.inj h]
  exact ⟨rfl, rfl, rfl, rfl, rfl, rfl⟩

/-- What `EnrollmentRequest::restore` builds. -/
theorem restore_eq_ok {challenge : EnrollmentChallenge} {publicKey : InstancePublicKey}
    {endpoint claimedPodUid workloadToken : Str} {signature : Bytes64} {r : EnrollmentRequest}
    (h : restore challenge publicKey endpoint claimedPodUid workloadToken signature = .ok r) :
    r.challenge = challenge ∧ r.publicKey = publicKey ∧ r.endpoint = endpoint.trim ∧
      r.claimedPodUid = claimedPodUid.trim ∧ r.workloadToken = workloadToken ∧
      r.signature = signature := build_eq_ok h

/-- `EnrollmentRequest::sign`. -/
def sign (sha256 : List UInt8 → Bytes32) (credential : InstanceCredential)
    (challenge : EnrollmentChallenge) (endpoint claimedPodUid workloadToken : Str) :
    Except EnrollmentError EnrollmentRequest :=
  build challenge credential.publicKey endpoint claimedPodUid workloadToken fun endpoint podUid =>
    credential.sign (proofMessage sha256 challenge credential.publicKey endpoint podUid
      workloadToken)

/-- The request was restored from its fields, or signed. -/
inductive Built (sha256 : List UInt8 → Bytes32) (r : EnrollmentRequest) : Prop where
  | restored {challenge publicKey endpoint claimedPodUid workloadToken signature}
      (h : restore challenge publicKey endpoint claimedPodUid workloadToken signature = .ok r)
  | signed {credential challenge endpoint claimedPodUid workloadToken}
      (h : sign sha256 credential challenge endpoint claimedPodUid workloadToken = .ok r)

/-- The texts of a request that was built are trimmed. -/
theorem Built.trimmed {sha256 : List UInt8 → Bytes32} {r : EnrollmentRequest} (h : Built sha256 r) :
    r.endpoint.trim = r.endpoint ∧ r.claimedPodUid.trim = r.claimedPodUid := by
  obtain ⟨hendpoint, hpod⟩ : (∃ endpoint : Str, r.endpoint = endpoint.trim) ∧
      ∃ claimedPodUid : Str, r.claimedPodUid = claimedPodUid.trim := by
    cases h with
    | restored h => exact ⟨⟨_, (build_eq_ok h).2.2.1⟩, ⟨_, (build_eq_ok h).2.2.2.1⟩⟩
    | signed h => exact ⟨⟨_, (build_eq_ok h).2.2.1⟩, ⟨_, (build_eq_ok h).2.2.2.1⟩⟩
  obtain ⟨endpoint, hendpoint⟩ := hendpoint
  obtain ⟨claimedPodUid, hpod⟩ := hpod
  rw [hendpoint, hpod, Str.trim_trim, Str.trim_trim]
  exact ⟨rfl, rfl⟩

/-- A request that was built is restored from its own fields. -/
theorem Built.restore_eq {sha256 : List UInt8 → Bytes32} {r : EnrollmentRequest}
    (h : Built sha256 r) :
    restore r.challenge r.publicKey r.endpoint r.claimedPodUid r.workloadToken
      r.signature = .ok r := by
  obtain ⟨hendpoint, hpod⟩ := h.trimmed
  have htoken : ¬ (r.workloadToken = [] ∨ Enrollment.maxTokenLength < r.workloadToken.len) := by
    rw [not_or, not_lt]
    exact r.token_valid
  simp only [restore, build, hendpoint, hpod, r.endpoint_valid, r.pod_valid, htoken,
    Bool.true_eq_false, dite_false]

end EnrollmentRequest

end InfernalLaw
