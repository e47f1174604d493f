import InfernalLaw.Kernel.Handshakes
import InfernalLaw.Kernel.Requests
import InfernalLaw.Kernel.SignatureBinding

/-!
# Messages that are signed or hashed

An instance's key signs enrollment proofs, responses to handshakes and requests, and a kernel's key
signs challenges. Each message determines its fields, and no message is one of another kind: the
binary ones begin with the length of a context, and each context has a length of its own, while the
text of a request begins with a quotation mark.
-/

namespace InfernalLaw

/-! ## Fields -/

/-- Texts have as many bytes as `str::len` says. -/
theorem Str.length_asBytes (s : Str) : s.asBytes.length = s.len := by
  unfold Str.asBytes Str.len
  rw [List.length_flatMap]
  exact congrArg List.sum (List.map_congr_left fun c _ => String.length_utf8EncodeChar c)

/-- Lengths are written in four bytes, which tell them apart below `2 ^ 32`. -/
theorem lengthPrefix_numbers : Framing.Numbers lengthPrefix 4 (2 ^ 32) where
  width_pos := by omega
  length_eq _ := length_beBytes _ _
  injOn m hm n hn h := by
    have hm' : m % 2 ^ 32 = m := Nat.mod_eq_of_lt hm
    have hn' : n % 2 ^ 32 = n := Nat.mod_eq_of_lt hn
    rw [← hm', ← hn']
    exact beBytes_inj (by omega) (by omega) h

/-- The fields of a request are written after lengths of eight bytes. -/
theorem hashField_numbers : Framing.Numbers (beBytes 8) 8 (2 ^ 64) where
  width_pos := by omega
  length_eq _ := length_beBytes _ _
  injOn _ hm _ hn h := beBytes_inj hm hn h

/-- A number is written in eight bytes. -/
@[simp] theorem length_i64Bytes (n : ℤ) : (i64Bytes n).length = 8 := length_beBytes _ _

/-- The range of `i64`. -/
def IsI64 (n : ℤ) : Prop := -2 ^ 63 ≤ n ∧ n < 2 ^ 63

/-- An `i64` is determined by its bytes. -/
theorem i64Bytes_inj {m n : ℤ} (hm : IsI64 m) (hn : IsI64 n) (h : i64Bytes m = i64Bytes n) :
    m = n := by
  obtain ⟨hm₀, hm₁⟩ := hm
  obtain ⟨hn₀, hn₁⟩ := hn
  have hmod := beBytes_inj (by omega) (by omega) h
  omega

/-- What a checked field says about its length. -/
theorem Enrollment.len_le {max : ℕ} {value : Str} (h : Enrollment.isValidField max value = true) :
    value.len ≤ max := by
  simp only [Enrollment.isValidField, Bool.and_eq_true, decide_eq_true_eq] at h
  exact h.1.2

/-- A key is determined by its fields' bytes. -/
theorem InstancePublicKey.ext_bytes {k k' : InstancePublicKey}
    (hservice : k.serviceId.uuid.asBytes = k'.serviceId.uuid.asBytes)
    (hinstance : k.instanceId.uuid.asBytes = k'.instanceId.uuid.asBytes)
    (hkey : k.keyId.uuid.asBytes = k'.keyId.uuid.asBytes)
    (hbytes : k.publicKey.bytes = k'.publicKey.bytes) : k = k' := by
  obtain ⟨⟨service⟩, ⟨inst⟩, ⟨key⟩, ⟨bytes, _⟩⟩ := k
  obtain ⟨⟨service'⟩, ⟨inst'⟩, ⟨key'⟩, ⟨bytes', _⟩⟩ := k'
  obtain rfl := Uuid.asBytes_inj hservice
  obtain rfl := Uuid.asBytes_inj hinstance
  obtain rfl := Uuid.asBytes_inj hkey
  obtain rfl : bytes = bytes' := hbytes
  rfl

/-- An instance's identifier is given by its bytes. -/
theorem InstanceId.ext_bytes {i i' : InstanceId} (h : i.uuid.asBytes = i'.uuid.asBytes) : i = i' :=
  congrArg InstanceId.mk (Uuid.asBytes_inj h)

/-- So is a key's. -/
theorem KeyId.ext_bytes {i i' : KeyId} (h : i.uuid.asBytes = i'.uuid.asBytes) : i = i' :=
  congrArg KeyId.mk (Uuid.asBytes_inj h)

/-- So is a digest. -/
theorem Bytes32.ext {b b' : Bytes32} (h : b.bytes = b'.bytes) : b = b' := by
  obtain ⟨bytes, _⟩ := b
  obtain ⟨bytes', _⟩ := b'
  obtain rfl : bytes = bytes' := h
  rfl

/-! ## Enrollment proofs -/

/-- The fields of an enrollment proof, after its context. -/
def EnrollmentRequest.fields (sha256 : List UInt8 → Bytes32) (r : EnrollmentRequest) :
    List (List UInt8) :=
  [r.challenge.bytes.bytes, r.publicKey.serviceId.uuid.asBytes, r.publicKey.instanceId.uuid.asBytes,
    r.publicKey.keyId.uuid.asBytes, r.publicKey.publicKey.bytes, r.endpoint.asBytes,
    r.claimedPodUid.asBytes, (sha256 r.workloadToken.asBytes).bytes]

/-- What an enrolling instance signs are fields with their lengths. -/
theorem EnrollmentRequest.message_eq (sha256 : List UInt8 → Bytes32) (r : EnrollmentRequest) :
    r.message sha256 =
      Framing.fields lengthPrefix (Enrollment.proofContext.asBytes :: r.fields sha256) := rfl

/-- Every field is short enough for its length to be written. -/
theorem EnrollmentRequest.length_fields (sha256 : List UInt8 → Bytes32) (r : EnrollmentRequest) :
    ∀ v ∈ Enrollment.proofContext.asBytes :: r.fields sha256, v.length < 2 ^ 32 := by
  have hcontext : Enrollment.proofContext.len = 26 := by decide
  have hendpoint := r.endpoint_valid
  simp only [Enrollment.isValidEndpoint, Bool.and_eq_true] at hendpoint
  have hendpoint := Enrollment.len_le hendpoint.1.1
  have hpod := Enrollment.len_le r.pod_valid
  unfold Enrollment.maxUidLength at hpod
  simp only [EnrollmentRequest.fields, List.forall_mem_cons, Str.length_asBytes, Bytes32.length_eq,
    Uuid.length_asBytes, hcontext]
  refine ⟨by omega, by omega, by omega, by omega, by omega, by omega, by omega, by omega, by omega,
    by simp⟩

/-- Requests with the same proof are equal, up to the token's digest and the signature. -/
theorem EnrollmentRequest.message_inj {sha256 : List UInt8 → Bytes32} {r r' : EnrollmentRequest}
    (h : r.message sha256 = r'.message sha256) :
    r.challenge = r'.challenge ∧ r.publicKey = r'.publicKey ∧ r.endpoint = r'.endpoint ∧
      r.claimedPodUid = r'.claimedPodUid ∧
      sha256 r.workloadToken.asBytes = sha256 r'.workloadToken.asBytes := by
  rw [message_eq, message_eq] at h
  have hfields := Framing.fields_inj lengthPrefix_numbers (r.length_fields sha256)
    (r'.length_fields sha256) h
  simp only [EnrollmentRequest.fields, List.cons.injEq, true_and, and_true] at hfields
  obtain ⟨hchallenge, hservice, hinstance, hkey, hbytes, hendpoint, hpod, htoken⟩ := hfields
  refine ⟨?_, InstancePublicKey.ext_bytes hservice hinstance hkey hbytes,
    Str.asBytes_injective hendpoint, Str.asBytes_injective hpod, Bytes32.ext htoken⟩
  exact congrArg EnrollmentChallenge.mk (Bytes32.ext hchallenge)

/-! ## Handshakes -/

/-- The fields of a challenge, after its context. -/
def challengeFields (nonce : Bytes32) (kernelKey : InstancePublicKey)
    (targetInstanceId : InstanceId) (targetKeyId : KeyId) (issuedAt expiresAt : ℤ) : List
      (List UInt8) :=
  [nonce.bytes, kernelKey.serviceId.uuid.asBytes, kernelKey.instanceId.uuid.asBytes,
    kernelKey.keyId.uuid.asBytes, kernelKey.publicKey.bytes, targetInstanceId.uuid.asBytes,
    targetKeyId.uuid.asBytes, i64Bytes issuedAt, i64Bytes expiresAt]

/-- The fields of a response, after its context. -/
def responseFields (kernelInstanceId targetInstanceId : InstanceId) (targetKeyId : KeyId)
    (challengeDigest : Bytes32) : List (List UInt8) :=
  [kernelInstanceId.uuid.asBytes, targetInstanceId.uuid.asBytes, targetKeyId.uuid.asBytes,
    challengeDigest.bytes]

section Handshakes

variable {nonce nonce' : Bytes32} {kernelKey kernelKey' : InstancePublicKey}
  {kernel kernel' target target' : InstanceId} {targetKey targetKey' : KeyId}
  {issuedAt issuedAt' expiresAt expiresAt' : ℤ} {digest digest' : Bytes32}

/-- The fields of a challenge are short enough for their lengths. -/
theorem length_challengeFields :
    ∀ v ∈ Handshakes.challengeContext.asBytes ::
      challengeFields nonce kernelKey target targetKey issuedAt expiresAt, v.length < 2 ^ 32 := by
  have hcontext : Handshakes.challengeContext.len = 44 := by decide
  simp only [challengeFields, List.forall_mem_cons, Str.length_asBytes, Bytes32.length_eq,
    Uuid.length_asBytes, length_i64Bytes, hcontext]
  refine ⟨by omega, by omega, by omega, by omega, by omega, by omega, by omega, by omega, by omega,
    by omega, by simp⟩

/-- So are those of a response. -/
theorem length_responseFields :
    ∀ v ∈ Handshakes.responseContext.asBytes :: responseFields kernel target targetKey digest,
      v.length < 2 ^ 32 := by
  have hcontext : Handshakes.responseContext.len = 43 := by decide
  simp only [responseFields, List.forall_mem_cons, Str.length_asBytes, Bytes32.length_eq,
    Uuid.length_asBytes, hcontext]
  exact ⟨by omega, by omega, by omega, by omega, by omega, by simp⟩

/-- A challenge's message determines the challenge. -/
theorem challengeMessage_inj (hi : IsI64 issuedAt) (hi' : IsI64 issuedAt') (he : IsI64 expiresAt)
    (he' : IsI64 expiresAt')
    (h : challengeMessage nonce kernelKey target targetKey issuedAt expiresAt =
      challengeMessage nonce' kernelKey' target' targetKey' issuedAt' expiresAt') :
    nonce = nonce' ∧ kernelKey = kernelKey' ∧ target = target' ∧ targetKey = targetKey' ∧
      issuedAt = issuedAt' ∧ expiresAt = expiresAt' := by
  have hfields := Framing.fields_inj lengthPrefix_numbers length_challengeFields
    length_challengeFields h
  simp only [challengeFields, List.cons.injEq, true_and, and_true] at hfields
  obtain ⟨hnonce, hservice, hinstance, hkey, hbytes, htarget, htargetKey, hissued, hexpires⟩ :=
    hfields
  exact ⟨Bytes32.ext hnonce, InstancePublicKey.ext_bytes hservice hinstance hkey hbytes,
    InstanceId.ext_bytes htarget, KeyId.ext_bytes htargetKey, i64Bytes_inj hi hi' hissued,
    i64Bytes_inj he he' hexpires⟩

/-- A response's message determines the response. -/
theorem responseMessage_inj
    (h : responseMessage kernel target targetKey digest =
      responseMessage kernel' target' targetKey' digest') :
    kernel = kernel' ∧ target = target' ∧ targetKey = targetKey' ∧ digest = digest' := by
  have hfields := Framing.fields_inj lengthPrefix_numbers length_responseFields
    length_responseFields h
  simp only [responseFields, List.cons.injEq, true_and, and_true] at hfields
  obtain ⟨hkernel, htarget, hkey, hdigest⟩ := hfields
  exact ⟨InstanceId.ext_bytes hkernel, InstanceId.ext_bytes htarget, KeyId.ext_bytes hkey,
    Bytes32.ext hdigest⟩

end Handshakes

/-! ## Fingerprints -/

/-- Actions and scopes are short. -/
theorem ActionName.length_asBytes (a : ActionName) : a.text.asBytes.length < 2 ^ 64 := by
  have hvalid := a.valid
  simp only [isValidActionName, isValidDottedName, Bool.and_eq_true, decide_eq_true_eq] at hvalid
  have hlen : a.text.len ≤ 200 := hvalid.1.2
  rw [Str.length_asBytes]
  omega

/-- A scope is short enough for its length. -/
theorem Scope.length_asBytes (s : Scope) : s.text.asBytes.length < 2 ^ 64 := by
  have hvalid := s.valid
  simp only [isValidScope, Bool.and_eq_true, decide_eq_true_eq] at hvalid
  have hlen : s.text.len ≤ 200 := hvalid.1.2
  rw [Str.length_asBytes]
  omega

/-- What the fingerprint of a request hashes determines all of the request but its identifier. -/
theorem Request.fingerprintInput_inj {r r' : Request}
    (h : r.fingerprintInput = r'.fingerprintInput) :
    r.sourceService = r'.sourceService ∧ r.action = r'.action ∧ r.scope = r'.scope ∧
      r.schemaVersions = r'.schemaVersions := by
  unfold Request.fingerprintInput at h
  obtain ⟨h, hpolicy⟩ := List.append_inj' h (by simp)
  obtain ⟨h, hartifact⟩ := List.append_inj' h (by simp)
  rw [List.append_assoc, List.append_assoc] at h
  obtain ⟨hsource, h⟩ := List.append_inj h (by simp)
  obtain ⟨haction, hscope⟩ := Framing.field_append_inj hashField_numbers r.action.length_asBytes
    r'.action.length_asBytes h
  obtain ⟨hscope, -⟩ := Framing.field_append_inj hashField_numbers r.scope.length_asBytes
    r'.scope.length_asBytes (congrArg (· ++ []) hscope)
  obtain ⟨id, ⟨source⟩, ⟨action, _⟩, ⟨scope, _⟩, ⟨⟨artifact⟩, ⟨policy⟩⟩⟩ := r
  obtain ⟨id', ⟨source'⟩, ⟨action', _⟩, ⟨scope', _⟩, ⟨⟨artifact'⟩, ⟨policy'⟩⟩⟩ := r'
  obtain rfl := Uuid.asBytes_inj hsource
  obtain rfl := Uuid.asBytes_inj hartifact
  obtain rfl := Uuid.asBytes_inj hpolicy
  obtain rfl : action = action' := Str.asBytes_injective haction
  obtain rfl : scope = scope' := Str.asBytes_injective hscope
  exact ⟨rfl, rfl, rfl, rfl⟩

/-! ## Separation -/

/-- A binary message begins with a zero byte, as no context is so long that its length has another
first byte. -/
theorem head_fields {context : List UInt8} {values : List (List UInt8)}
    (hcontext : context.length < 2 ^ 24) :
    (Framing.fields lengthPrefix (context :: values)).head? = some 0 := by
  have hfirst : context.length % 2 ^ 32 / 256 / 256 / 256 = 0 := by omega
  have hnum : ∃ rest, lengthPrefix context.length = 0 :: rest := by
    unfold lengthPrefix
    rw [beBytes_succ, beBytes_succ, beBytes_succ, beBytes_succ, hfirst]
    exact ⟨_, rfl⟩
  obtain ⟨rest, hrest⟩ := hnum
  simp only [Framing.fields, List.flatMap_cons, Framing.field, hrest, List.cons_append,
    List.head?_cons]

/-- A signed text begins with a quotation mark. -/
theorem head_signatureBase (crates : Crates) (parts : ServiceRequestParts) (serviceId : ActorId)
    (instanceId : InstanceId) (digest parameters : Str) :
    (signatureBase crates parts serviceId instanceId digest parameters).asBytes.head? =
      some 0x22 := by
  have hlabel : "\"@method\": ".toList = '"' :: "@method\": ".toList := by decide
  obtain ⟨rest, hrest⟩ : ∃ rest,
      signatureBase crates parts serviceId instanceId digest parameters = '"' :: rest := by
    unfold signatureBase Framing.lines Framing.line
    rw [hlabel]
    exact ⟨_, rfl⟩
  rw [hrest]
  rfl

/-- What the keys of instances sign. -/
inductive SignedMessage where
  | proof (r : EnrollmentRequest)
  | challenge (nonce : Bytes32) (kernelKey : InstancePublicKey) (targetInstanceId : InstanceId)
      (targetKeyId : KeyId) (issuedAt expiresAt : ℤ)
  | response (kernelInstanceId targetInstanceId : InstanceId) (targetKeyId : KeyId)
      (challengeDigest : Bytes32)
  | request (parts : ServiceRequestParts) (serviceId : ActorId) (instanceId : InstanceId)
      (digest parameters : Str)

/-- The step of a protocol that a message is for. -/
inductive SignedMessageKind where
  | proof
  | challenge
  | response
  | request
  deriving DecidableEq

namespace SignedMessage

/-- Which of the messages it is. -/
def kind : SignedMessage → SignedMessageKind
  | .proof .. => .proof
  | .challenge .. => .challenge
  | .response .. => .response
  | .request .. => .request

/-- The bytes that are signed. -/
def bytes (crates : Crates) : SignedMessage → List UInt8
  | .proof r => r.message crates.sha256
  | .challenge nonce kernelKey targetInstanceId targetKeyId issuedAt expiresAt =>
    challengeMessage nonce kernelKey targetInstanceId targetKeyId issuedAt expiresAt
  | .response kernelInstanceId targetInstanceId targetKeyId challengeDigest =>
    responseMessage kernelInstanceId targetInstanceId targetKeyId challengeDigest
  | .request parts serviceId instanceId digest parameters =>
    (signatureBase crates parts serviceId instanceId digest parameters).asBytes

/-- The contexts of the binary messages. -/
def context : SignedMessageKind → Option (List UInt8)
  | .proof => some Enrollment.proofContext.asBytes
  | .challenge => some Handshakes.challengeContext.asBytes
  | .response => some Handshakes.responseContext.asBytes
  | .request => none

/-- The contexts have lengths of their own. -/
theorem context_lengths : (Enrollment.proofContext.asBytes.length = 26 ∧
    Handshakes.challengeContext.asBytes.length = 44) ∧
      Handshakes.responseContext.asBytes.length = 43 := by
  rw [Str.length_asBytes, Str.length_asBytes, Str.length_asBytes]
  decide

/-- A message is a text of a request, or begins with the context of its kind. -/
theorem bytes_cases (crates : Crates) (m : SignedMessage) :
    (m.kind = .request ∧ (m.bytes crates).head? = some 0x22) ∨
      ∃ c values, context m.kind = some c ∧ c.length < 2 ^ 24 ∧
        m.bytes crates = Framing.fields lengthPrefix (c :: values) := by
  obtain ⟨⟨hproof, hchallenge⟩, hresponse⟩ := context_lengths
  cases m with
  | proof r => exact .inr ⟨_, r.fields crates.sha256, rfl, by omega, rfl⟩
  | challenge => exact .inr ⟨_, _, rfl, by omega, rfl⟩
  | response => exact .inr ⟨_, _, rfl, by omega, rfl⟩
  | request => exact .inl ⟨rfl, head_signatureBase ..⟩

/-- The context tells the kind. -/
theorem context_inj {k k' : SignedMessageKind} {c : List UInt8} (h : context k = some c)
    (h' : context k' = some c) : k = k' := by
  obtain ⟨⟨hproof, hchallenge⟩, hresponse⟩ := context_lengths
  have hlen := congrArg (Option.map List.length) (h.trans h'.symm)
  cases k <;> cases k' <;> simp_all [context]

/-- Equal bytes are of messages of one kind. -/
theorem kind_eq_of_bytes {crates : Crates} {m m' : SignedMessage}
    (h : m.bytes crates = m'.bytes crates) : m.kind = m'.kind := by
  rcases m.bytes_cases crates with ⟨hk, hhead⟩ | ⟨c, values, hc, hlen, hm⟩ <;>
    rcases m'.bytes_cases crates with ⟨hk', hhead'⟩ | ⟨c', values', hc', hlen', hm'⟩
  · rw [hk, hk']
  · rw [h, hm', head_fields hlen'] at hhead
    cases hhead
  · rw [← h, hm, head_fields hlen] at hhead'
    cases hhead'
  · rw [hm, hm'] at h
    by_cases hctx : c = c'
    · exact context_inj hc (hctx ▸ hc')
    · exact absurd h (Framing.fields_ne_of_head lengthPrefix_numbers (by omega) (by omega) hctx)

end SignedMessage

/-- Every message that is signed or fingerprinted determines its fields, and no message is one of
another kind. -/
theorem messages_injective_and_separate (crates : Crates) :
    (∀ r r' : EnrollmentRequest, r.message crates.sha256 = r'.message crates.sha256 →
      r.challenge = r'.challenge ∧ r.publicKey = r'.publicKey ∧ r.endpoint = r'.endpoint ∧
        r.claimedPodUid = r'.claimedPodUid ∧
        crates.sha256 r.workloadToken.asBytes = crates.sha256 r'.workloadToken.asBytes) ∧
    (∀ nonce nonce' kernelKey kernelKey' target target' targetKey targetKey' issuedAt issuedAt'
      expiresAt expiresAt', IsI64 issuedAt → IsI64 issuedAt' → IsI64 expiresAt → IsI64 expiresAt' →
      challengeMessage nonce kernelKey target targetKey issuedAt expiresAt =
        challengeMessage nonce' kernelKey' target' targetKey' issuedAt' expiresAt' →
      nonce = nonce' ∧ kernelKey = kernelKey' ∧ target = target' ∧ targetKey = targetKey' ∧
        issuedAt = issuedAt' ∧ expiresAt = expiresAt') ∧
    (∀ kernel kernel' target target' targetKey targetKey' digest digest',
      responseMessage kernel target targetKey digest =
        responseMessage kernel' target' targetKey' digest' →
      kernel = kernel' ∧ target = target' ∧ targetKey = targetKey' ∧ digest = digest') ∧
    (∀ r r' : Request, r.fingerprintInput = r'.fingerprintInput →
      r.sourceService = r'.sourceService ∧ r.action = r'.action ∧ r.scope = r'.scope ∧
        r.schemaVersions = r'.schemaVersions) ∧
    ∀ m m' : SignedMessage, m.bytes crates = m'.bytes crates → m.kind = m'.kind :=
  ⟨fun _ _ => EnrollmentRequest.message_inj,
    fun _ _ _ _ _ _ _ _ _ _ _ _ hi hi' he he' h => challengeMessage_inj hi hi' he he' h,
    fun _ _ _ _ _ _ _ _ => responseMessage_inj, fun _ _ => Request.fingerprintInput_inj,
    fun _ _ => SignedMessage.kind_eq_of_bytes⟩

/-- Two challenges at different times are different messages, and neither is a response. -/
theorem messages_separate_challenges :
    challengeMessage (.fill 0) examplePublicKey ⟨7⟩ ⟨8⟩ 100 115 ≠
      challengeMessage (.fill 0) examplePublicKey ⟨7⟩ ⟨8⟩ 101 115 ∧
    challengeMessage (.fill 0) examplePublicKey ⟨7⟩ ⟨8⟩ 100 115 ≠
      responseMessage ⟨2⟩ ⟨7⟩ ⟨8⟩ (.fill 0) := by
  obtain ⟨-, hchallenge, -, -, hkind⟩ := messages_injective_and_separate exampleCratesOfRequest
  constructor
  · intro h
    have hi : IsI64 100 := by unfold IsI64; omega
    have hi' : IsI64 101 := by unfold IsI64; omega
    have he : IsI64 115 := by unfold IsI64; omega
    have hissued := (hchallenge _ _ _ _ _ _ _ _ _ _ _ _ hi hi' he he h).2.2.2.2.1
    omega
  · intro h
    have hkinds := hkind (.challenge (.fill 0) examplePublicKey ⟨7⟩ ⟨8⟩ 100 115)
      (.response ⟨2⟩ ⟨7⟩ ⟨8⟩ (.fill 0)) h
    cases hkinds

end InfernalLaw
