import InfernalLaw.Framing.Lines
import InfernalLaw.Kernel.InstanceRegistry
import InfernalLaw.Kernel.ReplayProtection

/-!
# Signed requests

The profile of HTTP message signatures under which services send requests: what is signed, and how
`ServiceRequestVerifier::verify` checks it against the key of a registered instance.
-/

namespace InfernalLaw

/-- What can be wrong with a signed request. -/
inductive ServiceRequestAuthenticationError where
  | credentialMismatch
  | invalidContentDigest
  | invalidSignature
  | malformed
  | notFresh
  | registry (error : InstanceRegistryError)
  deriving DecidableEq

/-- The label of the signature. -/
def signatureLabel : Str := "sig1".toList

/-- For how long a signature is valid. -/
def signatureValiditySeconds : ℤ := 30

/-- The shortest nonce. -/
def minNonceLength : ℕ := 16

/-- The longest nonce. -/
def maxNonceLength : ℕ := 128

/-- What a signature covers, in this order. -/
def coveredComponents : Str :=
  "(\"@method\" \"@target-uri\" ".toList ++ "\"content-digest\" \"content-type\" ".toList ++
    "\"infernal-service-id\" ".toList ++ "\"infernal-instance-id\" ".toList ++
    "\"infernal-request-id\")".toList

/-! ## Parts -/

/-- `valid_header_value`. -/
def validHeaderValue (value : Str) : Bool :=
  !value.isEmpty && value.trim == value &&
    value.asBytes.all fun byte => decide (0x20 ≤ byte) && decide (byte ≤ 0x7e)

/-- `valid_uri_value`. -/
def validUriValue (value : Str) : Bool :=
  !value.isEmpty && value.asBytes.all fun byte => decide (0x21 ≤ byte) && decide (byte ≤ 0x7e)

/-- What `ServiceRequestParts::new` checks. -/
def validParts (method authority pathAndQuery contentType : Str) : Bool :=
  !method.isEmpty &&
    method.asBytes.all (fun byte => decide (0x41 ≤ byte) && decide (byte ≤ 0x5a)) &&
    validUriValue authority && authority.asBytes.all (fun byte =>
      byte ∉ [0x2f, 0x40, 0x3f, 0x23]) &&
    pathAndQuery.startsWith ['/'] && decide ('#' ∉ pathAndQuery) && validUriValue pathAndQuery &&
    validHeaderValue contentType

/-- The parts of a request that are signed. -/
structure ServiceRequestParts where
  method : Str
  authority : Str
  pathAndQuery : Str
  contentType : Str
  body : List UInt8
  requestId : Uuid
  valid : validParts method authority pathAndQuery contentType = true
  deriving DecidableEq

/-- `ServiceRequestParts::new`. -/
def ServiceRequestParts.new (method authority pathAndQuery contentType : Str) (body : List UInt8)
    (requestId : Uuid) : Except ServiceRequestAuthenticationError ServiceRequestParts :=
  if h : validParts method authority pathAndQuery contentType = true then
    .ok { method, authority, pathAndQuery, contentType, body, requestId, valid := h }
  else .error .malformed

/-- `ServiceRequestParts::target_uri`. -/
def ServiceRequestParts.targetUri (p : ServiceRequestParts) : Str :=
  "https://".toList ++ p.authority ++ p.pathAndQuery

/-- A request with the headers of its signature. -/
structure SignedServiceRequest where
  parts : ServiceRequestParts
  serviceId : ActorId
  instanceId : InstanceId
  contentDigest : Str
  signatureInput : Str
  signature : Str
  deriving DecidableEq

/-- What the verification of a request establishes. -/
structure VerifiedServiceRequest where
  serviceId : ActorId
  instanceId : InstanceId
  keyId : KeyId
  requestId : Uuid
  created : ℤ
  expires : ℤ
  nonceDigest : Bytes32
  requestFingerprint : Bytes32
  deriving DecidableEq

/-! ## Timestamps and nonces -/

/-- `i64::to_string`. -/
def displayI64 (n : ℤ) : Str := (toString n).toList

/-- The number that digits denote. -/
def ofDigits (digits : Str) : ℕ := digits.foldl (fun n c => 10 * n + (c.toNat - '0'.toNat)) 0

/-- `parse_timestamp`: digits, in the range of `i64`. -/
def parseTimestamp (value : Str) : Except ServiceRequestAuthenticationError ℤ :=
  if value.isEmpty || !value.all Char.isDigit then .error .malformed
  else if ofDigits value < 2 ^ 63 then .ok (ofDigits value)
  else .error .malformed

/-- `validate_signature_metadata`. -/
def validateSignatureMetadata (created expires : ℤ) (nonce : Str) :
    Except ServiceRequestAuthenticationError Unit :=
  if created < 0 ∨ expires ≤ created ∨ signatureValiditySeconds < expires - created ∨
      nonce.len < minNonceLength ∨ maxNonceLength < nonce.len ∨
      nonce.all (fun c => c.isAlphanum || c == '-' || c == '_') = false then
    .error .malformed
  else .ok ()

/-- `validate_signature_time`. -/
def validateSignatureTime (created expires now : ℤ) :
    Except ServiceRequestAuthenticationError Unit :=
  if now < 0 ∨ saturatingAdd now clockSkewSeconds < created ∨
      saturatingAdd expires clockSkewSeconds < now then
    .error .notFresh
  else .ok ()

/-! ## The signed text -/

section Texts

variable (crates : Crates)

/-- `content_digest`. -/
def contentDigest (body : List UInt8) : Str :=
  "sha-256=:".toList ++ crates.encodeBase64 (crates.sha256 body).bytes ++ [':']

/-- `signature_parameters`. -/
def signatureParameters (created expires : ℤ) (nonce : Str) (keyId : KeyId) : Str :=
  coveredComponents ++ ";created=".toList ++ displayI64 created ++ ";expires=".toList ++
    displayI64 expires ++ ";nonce=\"".toList ++ nonce ++ "\";keyid=\"".toList ++
    crates.displayUuid keyId.uuid ++ "\";alg=\"ed25519\"".toList

/-- `signature_base`. -/
def signatureBase (parts : ServiceRequestParts) (serviceId : ActorId) (instanceId : InstanceId)
    (digest parameters : Str) : Str :=
  Framing.lines '\n'
    [("\"@method\": ".toList, parts.method),
      ("\"@target-uri\": ".toList, parts.targetUri),
      ("\"content-digest\": ".toList, digest),
      ("\"content-type\": ".toList, parts.contentType),
      ("\"infernal-service-id\": ".toList, crates.displayUuid serviceId.uuid),
      ("\"infernal-instance-id\": ".toList, crates.displayUuid instanceId.uuid),
      ("\"infernal-request-id\": ".toList, crates.displayUuid parts.requestId)]
    "\"@signature-params\": ".toList parameters

/-- What `request_fingerprint` hashes. -/
def fingerprintText (request : SignedServiceRequest) : Str :=
  Framing.lines '\n'
    [("\"@method\": ".toList, request.parts.method),
      ("\"@target-uri\": ".toList, request.parts.targetUri),
      ("\"content-digest\": ".toList, request.contentDigest),
      ("\"content-type\": ".toList, request.parts.contentType)]
    "\"infernal-service-id\": ".toList (crates.displayUuid request.serviceId.uuid)

/-- `request_fingerprint`. -/
def requestFingerprint (request : SignedServiceRequest) : Bytes32 :=
  crates.sha256 (fingerprintText crates request).asBytes

/-! ## Signing -/

namespace SignedServiceRequest

/-- `SignedServiceRequest::sign`. -/
def sign (parts : ServiceRequestParts) (credential : InstanceCredential) (created expires : ℤ)
    (nonce : Str) : Except ServiceRequestAuthenticationError SignedServiceRequest := do
  validateSignatureMetadata created expires nonce
  let publicKey := credential.publicKey
  let digest := InfernalLaw.contentDigest crates parts.body
  let parameters := signatureParameters crates created expires nonce publicKey.keyId
  let base := signatureBase crates parts publicKey.serviceId publicKey.instanceId digest parameters
  let signature := credential.sign base.asBytes
  return {
    parts, serviceId := publicKey.serviceId, instanceId := publicKey.instanceId
    contentDigest := digest, signatureInput := signatureLabel ++ ['='] ++ parameters
    signature := signatureLabel ++ "=:".toList ++ crates.encodeBase64 signature.bytes ++ [':'] }

/-- `SignedServiceRequest::from_wire`. -/
def fromWire (parts : ServiceRequestParts) (serviceId instanceId contentDigest signatureInput
    signature : Str) : Except ServiceRequestAuthenticationError SignedServiceRequest := do
  let serviceId ← (crates.parseUuid serviceId).elim (.error .malformed) .ok
  let instanceId ← (crates.parseUuid instanceId).elim (.error .malformed) .ok
  return { parts, serviceId := ⟨serviceId⟩, instanceId := ⟨instanceId⟩, contentDigest
           signatureInput, signature }

end SignedServiceRequest

/-! ## Verification -/

/-- What `parse_signature_input` reads. -/
structure SignatureMetadata where
  parameters : Str
  created : ℤ
  expires : ℤ
  nonce : Str
  keyId : KeyId
  deriving DecidableEq

/-- What is there, or a malformed request. -/
def orMalformed {β : Type} (x : Option β) : Except ServiceRequestAuthenticationError β :=
  x.elim (.error .malformed) .ok

/-- `parse_signature_input`. -/
def parseSignatureInput (value : Str) :
    Except ServiceRequestAuthenticationError SignatureMetadata := do
  let parameters ← orMalformed (value.stripPrefix (signatureLabel ++ ['=']))
  let rest ← orMalformed ((parameters.stripPrefix coveredComponents).bind
    fun value => value.stripPrefix ";created=".toList)
  let (created, rest) ← orMalformed (Str.splitOnce ";expires=".toList rest)
  let (expires, rest) ← orMalformed (Str.splitOnce ";nonce=\"".toList rest)
  let (nonce, rest) ← orMalformed (Str.splitOnce "\";keyid=\"".toList rest)
  let (keyId, algorithm) ← orMalformed (Str.splitOnce "\";alg=\"".toList rest)
  if algorithm ≠ "ed25519\"".toList then .error .malformed
  else do
    let created ← parseTimestamp created
    let expires ← parseTimestamp expires
    validateSignatureMetadata created expires nonce
    let keyId ← orMalformed (crates.parseUuid keyId)
    return { parameters, created, expires, nonce, keyId := ⟨keyId⟩ }

/-- `parse_signature`. -/
def parseSignature (value : Str) : Except ServiceRequestAuthenticationError Bytes64 := do
  let encoded ← orMalformed ((value.stripPrefix (signatureLabel ++ "=:".toList)).bind
    fun value => value.stripSuffix [':'])
  let bytes ← orMalformed (crates.decodeBase64 encoded)
  if h : bytes.length = 64 then
    if crates.encodeBase64 bytes ≠ encoded then .error .malformed
    else .ok ⟨bytes, h⟩
  else .error .malformed

/-- `ServiceRequestVerifier::verify`, where `findEligible` resolves the sender's instance. -/
def ServiceRequestVerifier.verify
    (findEligible : InstanceId → ℤ → Except InstanceRegistryError RegisteredInstance)
    (request : SignedServiceRequest) (now : ℤ) :
    Except ServiceRequestAuthenticationError VerifiedServiceRequest := do
  let metadata ← parseSignatureInput crates request.signatureInput
  validateSignatureTime metadata.created metadata.expires now
  let registered ← (findEligible request.instanceId now).mapError .registry
  let publicKey := registered.publicKey
  if publicKey.serviceId ≠ request.serviceId ∨ publicKey.instanceId ≠ request.instanceId ∨
      publicKey.keyId ≠ metadata.keyId then
    .error .credentialMismatch
  else if contentDigest crates request.parts.body ≠ request.contentDigest then
    .error .invalidContentDigest
  else do
    let signature ← parseSignature crates request.signature
    let base := signatureBase crates request.parts request.serviceId request.instanceId
      request.contentDigest metadata.parameters
    if crates.verifyStrict publicKey.publicKey base.asBytes signature = false then
      .error .invalidSignature
    else
      return {
        serviceId := request.serviceId, instanceId := request.instanceId
        keyId := metadata.keyId, requestId := request.parts.requestId
        created := metadata.created, expires := metadata.expires
        nonceDigest := crates.sha256 metadata.nonce.asBytes
        requestFingerprint := requestFingerprint crates request }

end Texts

end InfernalLaw
