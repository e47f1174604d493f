import InfernalLaw.Kernel.Enrollment
import InfernalLaw.Kernel.HonestRequests

/-!
# The wire form of an enrollment

The JSON payload with which a workload enrolls: ten texts, of which three are identifiers and three
are bytes in Base64. The request that the kernel reads from it is checked as it was when it was
signed.
-/

namespace InfernalLaw

open Postgres (bind_eq_ok elim_eq_ok mapError_eq_ok)

/-- What can be wrong with a payload. -/
inductive EnrollmentDtoError where
  | invalidChallenge
  | invalidEncoding
  | invalidEnrollment
  | invalidInstanceId
  | invalidKeyId
  | invalidPublicKey
  | invalidServiceId
  | invalidSignature
  | invalidTimestamp
  | unsupportedAlgorithm
  deriving DecidableEq

/-- The functions of other crates that write and read a payload. -/
structure EnrollmentDtoCrates extends SigningCrates where
  /-- `URL_SAFE_NO_PAD.encode`. -/
  encodeUrlSafe : List UInt8 → Str

/-- What the crates document about the texts of a payload and about keys: a UUID is read back,
Base64 without padding is read when it is the text that is written, and a verifying key is one that
is accepted. -/
structure EnrollmentDtoCrates.Documented (crates : EnrollmentDtoCrates) : Prop where
  parseUuid : ∀ u, crates.parseUuid (crates.displayUuid u) = some u
  decodeUrlSafe : ∀ text bytes,
    crates.decodeUrlSafe text = some bytes ↔ text = crates.encodeUrlSafe bytes
  length_encodeUrlSafe : ∀ bytes, (crates.encodeUrlSafe bytes).length = (bytes.length * 4 + 2) / 3
  isUrlDigit_of_mem : ∀ bytes, ∀ c ∈ crates.encodeUrlSafe bytes, Framing.IsUrlDigit c
  verifyingKey : ∀ signingKey, crates.verifyingKey (crates.verifyingKeyOf signingKey) = true

/-- `ALGORITHM`. -/
def algorithm : Str := "ed25519".toList

/-- `EnrollmentSubmissionRequest`. -/
structure EnrollmentSubmissionRequest where
  serviceId : Str
  instanceId : Str
  keyId : Str
  algorithm : Str
  publicKey : Str
  challenge : Str
  endpoint : Str
  podUid : Str
  workloadToken : Str
  signature : Str
  deriving DecidableEq

section

variable (crates : EnrollmentDtoCrates)

/-- `decode_fixed`. -/
def decodeFixed (n : ℕ) (value : Str) :
    Except EnrollmentDtoError { bytes : List UInt8 // bytes.length = n } :=
  match crates.decodeUrlSafe value with
  | none => .error .invalidEncoding
  | some decoded => if h : decoded.length = n then .ok ⟨decoded, h⟩ else .error .invalidEncoding

namespace EnrollmentSubmissionRequest

/-- `EnrollmentSubmissionRequest::from_domain`. -/
def fromDomain (request : EnrollmentRequest) : EnrollmentSubmissionRequest where
  serviceId := crates.displayUuid request.publicKey.serviceId.uuid
  instanceId := crates.displayUuid request.publicKey.instanceId.uuid
  keyId := crates.displayUuid request.publicKey.keyId.uuid
  algorithm := InfernalLaw.algorithm
  publicKey := crates.encodeUrlSafe request.publicKey.publicKey.bytes
  challenge := crates.encodeUrlSafe request.challenge.bytes.bytes
  endpoint := request.endpoint
  podUid := request.claimedPodUid
  workloadToken := request.workloadToken
  signature := crates.encodeUrlSafe request.signature.bytes

/-- `EnrollmentSubmissionRequest::sign`. -/
def sign (credential : InstanceCredential) (challenge : EnrollmentChallenge)
    (endpoint podUid workloadToken : Str) : Except EnrollmentDtoError
      EnrollmentSubmissionRequest := do
  let request ← (EnrollmentRequest.sign crates.sha256 credential challenge endpoint podUid
    workloadToken).mapError fun _ => .invalidEnrollment
  return fromDomain crates request

/-- `EnrollmentSubmissionRequest::into_domain`. -/
def intoDomain (dto : EnrollmentSubmissionRequest) : Except EnrollmentDtoError EnrollmentRequest :=
  if dto.algorithm ≠ InfernalLaw.algorithm then .error .unsupportedAlgorithm
  else do
    let serviceId ← (crates.parseUuid dto.serviceId).elim (.error .invalidServiceId) .ok
    let instanceId ← (crates.parseUuid dto.instanceId).elim (.error .invalidInstanceId) .ok
    let keyId ← (crates.parseUuid dto.keyId).elim (.error .invalidKeyId) .ok
    let publicKey ← (decodeFixed crates 32 dto.publicKey).mapError fun _ => .invalidPublicKey
    let publicKey ← (InstancePublicKey.restore crates.toKeyCrates ⟨serviceId⟩ ⟨instanceId⟩ ⟨keyId⟩
      ⟨publicKey.1, publicKey.2⟩).mapError fun _ => .invalidPublicKey
    let challenge ← (decodeFixed crates 32 dto.challenge).mapError fun _ => .invalidChallenge
    let signature ← (decodeFixed crates 64 dto.signature).mapError fun _ => .invalidSignature
    (EnrollmentRequest.restore ⟨⟨challenge.1, challenge.2⟩⟩ publicKey dto.endpoint dto.podUid
      dto.workloadToken ⟨signature.1, signature.2⟩).mapError fun _ => .invalidEnrollment

end EnrollmentSubmissionRequest

end

section

variable {crates : EnrollmentDtoCrates}

/-- Bytes of a fixed number are decoded exactly when the text is theirs. -/
theorem decodeFixed_eq_ok {n : ℕ} {value : Str}
    {bytes : { bytes : List UInt8 // bytes.length = n }} :
    decodeFixed crates n value = .ok bytes ↔ crates.decodeUrlSafe value = some bytes.1 := by
  obtain ⟨bytes, hlength⟩ := bytes
  unfold decodeFixed
  cases crates.decodeUrlSafe value with
  | none => simp
  | some decoded =>
    by_cases h : decoded.length = n
    · simp [h]
    · have hne : decoded ≠ bytes := fun heq => h (heq ▸ hlength)
      simp [h, hne]

/-- Bytes of the length that is asked for are read back. -/
theorem decodeFixed_encode (hcrates : crates.Documented) {bytes : List UInt8} {n : ℕ}
    (hlength : bytes.length = n) :
    decodeFixed crates n (crates.encodeUrlSafe bytes) = .ok ⟨bytes, hlength⟩ :=
  decodeFixed_eq_ok.mpr ((hcrates.decodeUrlSafe _ _).mpr rfl)

/-- A text that is read is the one that is written for the bytes. -/
theorem eq_encode_of_decodeFixed (hcrates : crates.Documented) {n : ℕ} {value : Str}
    {bytes : { bytes : List UInt8 // bytes.length = n }}
    (h : decodeFixed crates n value = .ok bytes) : value = crates.encodeUrlSafe bytes.1 :=
  (hcrates.decodeUrlSafe _ _).mp (decodeFixed_eq_ok.mp h)

namespace EnrollmentSubmissionRequest

/-- The payload of a request that was built is read as the request. -/
theorem intoDomain_fromDomain (hcrates : crates.Documented) {r : EnrollmentRequest}
    (hbuilt : r.Built crates.sha256) (hkey : r.publicKey.Made crates.toSigningCrates) :
    (fromDomain crates r).intoDomain crates = .ok r := by
  have hrestore : InstancePublicKey.restore crates.toKeyCrates r.publicKey.serviceId
      r.publicKey.instanceId r.publicKey.keyId r.publicKey.publicKey = .ok r.publicKey := by
    rw [InstancePublicKey.restore, if_pos (hkey.verifyingKey hcrates.verifyingKey)]
  have halgorithm : ¬ (fromDomain crates r).algorithm ≠ InfernalLaw.algorithm := not_not.mpr rfl
  rw [intoDomain, if_neg halgorithm]
  refine bind_eq_ok.mpr ⟨_, elim_eq_ok.mpr (hcrates.parseUuid _), ?_⟩
  refine bind_eq_ok.mpr ⟨_, elim_eq_ok.mpr (hcrates.parseUuid _), ?_⟩
  refine bind_eq_ok.mpr ⟨_, elim_eq_ok.mpr (hcrates.parseUuid _), ?_⟩
  refine bind_eq_ok.mpr ⟨_, mapError_eq_ok.mpr
    (decodeFixed_encode hcrates r.publicKey.publicKey.length_eq), ?_⟩
  refine bind_eq_ok.mpr ⟨_, mapError_eq_ok.mpr hrestore, ?_⟩
  refine bind_eq_ok.mpr ⟨_, mapError_eq_ok.mpr
    (decodeFixed_encode hcrates r.challenge.bytes.length_eq), ?_⟩
  refine bind_eq_ok.mpr ⟨_, mapError_eq_ok.mpr
    (decodeFixed_encode hcrates r.signature.length_eq), ?_⟩
  exact mapError_eq_ok.mpr hbuilt.restore_eq

/-- What a payload has, when a request is read from it. -/
theorem intoDomain_eq_ok (hcrates : crates.Documented) {dto : EnrollmentSubmissionRequest}
    {r : EnrollmentRequest} (h : dto.intoDomain crates = .ok r) :
    dto.algorithm = InfernalLaw.algorithm ∧
      dto.publicKey = crates.encodeUrlSafe r.publicKey.publicKey.bytes ∧
      dto.challenge = crates.encodeUrlSafe r.challenge.bytes.bytes ∧
      dto.signature = crates.encodeUrlSafe r.signature.bytes := by
  unfold intoDomain at h
  split at h
  · cases h
  rename_i halgorithm
  obtain ⟨serviceId, -, h⟩ := bind_eq_ok.mp h
  obtain ⟨instanceId, -, h⟩ := bind_eq_ok.mp h
  obtain ⟨keyId, -, h⟩ := bind_eq_ok.mp h
  obtain ⟨publicKey, hpublicKey, h⟩ := bind_eq_ok.mp h
  obtain ⟨key, hkey, h⟩ := bind_eq_ok.mp h
  obtain ⟨challenge, hchallenge, h⟩ := bind_eq_ok.mp h
  obtain ⟨signature, hsignature, h⟩ := bind_eq_ok.mp h
  obtain ⟨hchallenge', hkey', -, -, -, hsignature'⟩ :=
    EnrollmentRequest.restore_eq_ok (mapError_eq_ok.mp h)
  have hbytes : key.publicKey.bytes = publicKey.1 := by
    have hrestore := mapError_eq_ok.mp hkey
    unfold InstancePublicKey.restore at hrestore
    split at hrestore
    · rw [← Except.ok.inj hrestore]
    · cases hrestore
  rw [hkey', hchallenge', hsignature', hbytes]
  exact ⟨not_not.mp halgorithm, eq_encode_of_decodeFixed hcrates (mapError_eq_ok.mp hpublicKey),
    eq_encode_of_decodeFixed hcrates (mapError_eq_ok.mp hchallenge),
    eq_encode_of_decodeFixed hcrates (mapError_eq_ok.mp hsignature)⟩

end EnrollmentSubmissionRequest

end

/-! ## The payload and the proof -/

/-- The request's signature verifies under its own key. -/
def EnrollmentRequest.Proves (crates : KeyCrates) (r : EnrollmentRequest) : Prop :=
  crates.verifyStrict r.publicKey.publicKey (r.message crates.sha256) r.signature = true

/-- What a credential signs proves that its key is held. -/
theorem EnrollmentRequest.proves_of_sign {crates : KeyCrates} {credential : InstanceCredential}
    (hsigns : credential.Signs crates.toCrates) {challenge : EnrollmentChallenge}
    {endpoint podUid workloadToken : Str} {r : EnrollmentRequest}
    (h : EnrollmentRequest.sign crates.sha256 credential challenge endpoint podUid workloadToken =
      .ok r) : r.Proves crates := by
  obtain ⟨hchallenge, hkey, hendpoint, hpod, htoken, hsignature⟩ := build_eq_ok h
  rw [Proves, message, hchallenge, hkey, hendpoint, hpod, htoken, hsignature]
  exact hsigns _

/-- The text is Base64 of the bytes, without padding and in the one spelling that is written. -/
structure IsUnpaddedBase64 (crates : EnrollmentDtoCrates) (text : Str) (bytes : List UInt8) :
    Prop where
  eq_encode : text = crates.encodeUrlSafe bytes
  length_eq : text.length = (bytes.length * 4 + 2) / 3
  digits : ∀ c ∈ text, Framing.IsUrlDigit c

/-- What the crate encodes is base64 without padding. -/
theorem isUnpaddedBase64_of_eq {crates : EnrollmentDtoCrates} (hcrates : crates.Documented)
    {text : Str} {bytes : List UInt8} (h : text = crates.encodeUrlSafe bytes) :
    IsUnpaddedBase64 crates text bytes := by
  subst h
  exact ⟨rfl, hcrates.length_encodeUrlSafe bytes, hcrates.isUrlDigit_of_mem bytes⟩

open EnrollmentSubmissionRequest in
/-- The payload of an enrollment keeps its proof. -/
theorem payload_keeps_proof {crates : EnrollmentDtoCrates} (hcrates : crates.Documented) :
    -- A request that was signed or restored is read back from its payload.
    (∀ r : EnrollmentRequest, r.Built crates.sha256 → r.publicKey.Made crates.toSigningCrates →
      (fromDomain crates r).intoDomain crates = .ok r) ∧
    -- What is read from the payload that a credential signs proves that its key is held.
    (∀ credential challenge endpoint podUid workloadToken dto,
      credential.publicKey.Made crates.toSigningCrates → credential.Signs crates.toCrates →
      sign crates credential challenge endpoint podUid workloadToken = .ok dto →
      ∃ r, dto.intoDomain crates = .ok r ∧ r.Proves crates.toKeyCrates) ∧
    -- A payload that is read has the algorithm, and the bytes in their one spelling.
    (∀ (dto : EnrollmentSubmissionRequest) (r : EnrollmentRequest), dto.intoDomain crates = .ok r →
      dto.algorithm = "ed25519".toList ∧
        IsUnpaddedBase64 crates dto.publicKey r.publicKey.publicKey.bytes ∧
        IsUnpaddedBase64 crates dto.challenge r.challenge.bytes.bytes ∧
        IsUnpaddedBase64 crates dto.signature r.signature.bytes) := by
  refine ⟨fun r hbuilt hkey => intoDomain_fromDomain hcrates hbuilt hkey, ?_, ?_⟩
  · intro credential challenge endpoint podUid workloadToken dto hmade hsigns h
    obtain ⟨r, hsign, hdto⟩ := bind_eq_ok.mp h
    have hsign' := mapError_eq_ok.mp hsign
    have hkey : r.publicKey.Made crates.toSigningCrates := by
      rw [(EnrollmentRequest.build_eq_ok hsign').2.1]
      exact hmade
    rw [← Except.ok.inj hdto]
    exact ⟨r, intoDomain_fromDomain hcrates (.signed hsign') hkey,
      EnrollmentRequest.proves_of_sign hsigns hsign'⟩
  · intro dto r h
    obtain ⟨halgorithm, hpublicKey, hchallenge, hsignature⟩ := intoDomain_eq_ok hcrates h
    exact ⟨halgorithm, isUnpaddedBase64_of_eq hcrates hpublicKey,
      isUnpaddedBase64_of_eq hcrates hchallenge, isUnpaddedBase64_of_eq hcrates hsignature⟩

/-! ## A payload -/

/-- The crates, at the key of one instance. -/
def exampleDtoCrates : EnrollmentDtoCrates where
  toCrates :=
    { exampleReadingCrates with
      decodeUrlSafe text :=
        if Framing.base64Url (Framing.unbase64Url text) = text then some (Framing.unbase64Url text)
        else none }
  verifyingKey key := decide (key = examplePublicKey.publicKey)
  SigningKey := Unit
  verifyingKeyOf _ := examplePublicKey.publicKey
  signWith _ := exampleCredential.sign
  encodeUrlSafe := Framing.base64Url

/-- A text is read when it is the one that is written. -/
theorem ite_base64Url_eq_some {text : Str} {bytes : List UInt8} :
    (if Framing.base64Url (Framing.unbase64Url text) = text then some (Framing.unbase64Url text)
      else none) = some bytes ↔ text = Framing.base64Url bytes := by
  constructor
  · intro h
    split at h
    · rename_i heq
      rw [← Option.some.inj h]
      exact heq.symm
    · cases h
  · rintro rfl
    rw [Framing.unbase64Url_base64Url, if_pos rfl]

/-- The crates of the example behave as they are documented. -/
theorem exampleDtoCrates_documented : exampleDtoCrates.Documented where
  parseUuid u := by
    simp only [exampleDtoCrates]
    exact exampleReadingCrates_roundTrips.parseUuid u
  decodeUrlSafe _ _ := ite_base64Url_eq_some
  length_encodeUrlSafe := Framing.length_base64Url
  isUrlDigit_of_mem _ _ := Framing.isUrlDigit_of_mem_base64Url
  verifyingKey _ := by simp only [exampleDtoCrates, decide_true]

/-- A request for an endpoint with a blank after it. -/
def exampleRestored : Except EnrollmentError EnrollmentRequest :=
  EnrollmentRequest.restore ⟨.fill 1⟩ examplePublicKey "https://worker.example ".toList
    "pod-1".toList "token".toList exampleSignature

/-- The request of the example can be restored. -/
theorem exampleRestored_isOk : exampleRestored.isOk = true := by decide

/-- The payload of the example keeps its proof. -/
theorem payload_keeps_proof_restored : ∃ r, exampleRestored = .ok r ∧
    (EnrollmentSubmissionRequest.fromDomain exampleDtoCrates r).intoDomain exampleDtoCrates =
      .ok r := by
  cases h : exampleRestored with
  | error e =>
    have hok := exampleRestored_isOk
    rw [h] at hok
    cases hok
  | ok r =>
    have hkey : InstancePublicKey.restore exampleDtoCrates.toKeyCrates ⟨1⟩ ⟨2⟩ ⟨3⟩
        examplePublicKey.publicKey = .ok r.publicKey := by
      rw [(EnrollmentRequest.restore_eq_ok h).2.1]
      rfl
    exact ⟨r, rfl, (payload_keeps_proof exampleDtoCrates_documented).1 r (.restored h)
      (.restored hkey)⟩

end InfernalLaw
