import InfernalLaw.Framing.Encodings
import InfernalLaw.Kernel.ServiceRequests

/-!
# What a signature binds

The signed text and the text of the fingerprint are labelled lines. No value but the last can have a
line break in it, so the texts determine their values, and through the content digest the body. A
signature that verifies for a request was therefore made for that request.
-/

namespace InfernalLaw

open Postgres (bind_eq_ok elim_eq_ok mapError_eq_ok toOption_eq_some)

/-! ## Values without line breaks -/

/-- The byte of an ASCII character is among the bytes of a text that has it. -/
theorem mem_asBytes {c : Char} {b : UInt8} (hb : String.utf8EncodeChar c = [b]) {s : Str}
    (hc : c ∈ s) : b ∈ s.asBytes :=
  List.mem_flatMap.mpr ⟨c, hc, by simp [hb]⟩

/-- A text without the byte of a line break has no line break. -/
theorem newline_not_mem {s : Str} {p : UInt8 → Bool} (h : s.asBytes.all p = true)
    (hp : p 0x0a = false) : '\n' ∉ s := by
  intro hmem
  have hbyte : p 0x0a = true := List.all_eq_true.mp h _ (mem_asBytes (by decide) hmem)
  rw [hp] at hbyte
  cases hbyte

namespace ServiceRequestParts

variable (p : ServiceRequestParts)

/-- What the constructor has checked, apart. -/
theorem valid_parts :
      p.method.asBytes.all (fun byte => decide (0x41 ≤ byte) && decide (byte ≤ 0x5a))
      = true ∧ validUriValue p.authority = true ∧ '/' ∉ p.authority ∧
      (∃ rest, p.pathAndQuery = '/' :: rest) ∧ validUriValue p.pathAndQuery = true ∧
      validHeaderValue p.contentType = true := by
  have hvalid := p.valid
  simp only [validParts, Bool.and_eq_true] at hvalid
  obtain ⟨⟨⟨⟨⟨⟨⟨-, hmethod⟩, hauthority⟩, hslash⟩, hpath⟩, -⟩, huri⟩, hct⟩ := hvalid
  refine ⟨hmethod, hauthority, fun hmem => ?_, ?_, huri, hct⟩
  · have hbyte := List.all_eq_true.mp hslash _ (mem_asBytes (b := 0x2f) (by decide) hmem)
    simp at hbyte
  · obtain ⟨rest, hrest⟩ := Option.isSome_iff_exists.mp hpath
    exact ⟨rest, Str.stripPrefix_eq_some.mp hrest⟩

/-- The method of a request is on one line. -/
theorem newline_not_mem_method : '\n' ∉ p.method := by
  refine newline_not_mem p.valid_parts.1 ?_
  simp

/-- So is its content type. -/
theorem newline_not_mem_contentType : '\n' ∉ p.contentType := by
  have h := p.valid_parts.2.2.2.2.2
  simp only [validHeaderValue, Bool.and_eq_true] at h
  refine newline_not_mem h.2 ?_
  simp

/-- So is the address it is for. -/
theorem newline_not_mem_targetUri : '\n' ∉ p.targetUri := by
  obtain ⟨-, hauthority, -, -, hpath, -⟩ := p.valid_parts
  simp only [validUriValue, Bool.and_eq_true] at hauthority hpath
  unfold targetUri
  simp only [List.mem_append, not_or]
  refine ⟨⟨by simp, newline_not_mem hauthority.2 ?_⟩, newline_not_mem hpath.2 ?_⟩ <;> simp

/-- A target splits where its path begins: the authority has no slash. -/
theorem targetUri_inj {p p' : ServiceRequestParts} (h : p.targetUri = p'.targetUri) :
    p.authority = p'.authority ∧ p.pathAndQuery = p'.pathAndQuery := by
  obtain ⟨-, -, hslash, ⟨rest, hrest⟩, -⟩ := p.valid_parts
  obtain ⟨-, -, hslash', ⟨rest', hrest'⟩, -⟩ := p'.valid_parts
  unfold targetUri at h
  rw [List.append_assoc, List.append_assoc, hrest, hrest'] at h
  obtain ⟨hauthority, hpath⟩ :=
    Framing.append_sep_inj hslash hslash' (List.append_cancel_left h)
  exact ⟨hauthority, by rw [hrest, hrest', hpath]⟩

end ServiceRequestParts

section

variable {crates : Crates}

/-- A content digest has no line break. -/
theorem newline_not_mem_contentDigest (hc : crates.Documented) (body : List UInt8) :
    '\n' ∉ contentDigest crates body := by
  unfold contentDigest
  simp only [List.mem_append, not_or]
  exact ⟨⟨by simp, hc.newline_not_mem_encodeBase64 _⟩, by simp⟩

/-- Without collisions, a content digest determines the body. -/
theorem contentDigest_inj (hc : crates.Documented) {hashed : Set (List UInt8)}
    (hsha : CollisionFree crates.sha256 hashed) {b b' : List UInt8} (hb : b ∈ hashed)
    (hb' : b' ∈ hashed) (h : contentDigest crates b = contentDigest crates b') : b = b' := by
  unfold contentDigest at h
  have hdigest := hc.encodeBase64_injective
    (List.append_cancel_left (List.append_cancel_right h))
  refine hsha hb hb' ?_
  cases hx : crates.sha256 b
  cases hy : crates.sha256 b'
  simpa [hx, hy] using hdigest

/-- The signed text determines what is signed. -/
theorem signatureBase_inj (hc : crates.Documented) {p p' : ServiceRequestParts}
    {serviceId serviceId' : ActorId} {instanceId instanceId' : InstanceId}
    {digest digest' parameters parameters' : Str} (hd : '\n' ∉ digest) (hd' : '\n' ∉ digest')
    (h : signatureBase crates p serviceId instanceId digest parameters =
      signatureBase crates p' serviceId' instanceId' digest' parameters') :
    (p.method = p'.method ∧ p.targetUri = p'.targetUri ∧ digest = digest' ∧
      p.contentType = p'.contentType) ∧ serviceId = serviceId' ∧ instanceId = instanceId' ∧
      p.requestId = p'.requestId ∧ parameters = parameters' := by
  have hline : ∀ u, '\n' ∉ crates.displayUuid u := hc.newline_not_mem_displayUuid
  unfold signatureBase at h
  obtain ⟨hfields, hparameters⟩ := Framing.lines_inj h rfl
    (by simp [p.newline_not_mem_method, p.newline_not_mem_targetUri, hd,
      p.newline_not_mem_contentType, hline])
    (by simp [p'.newline_not_mem_method, p'.newline_not_mem_targetUri, hd',
      p'.newline_not_mem_contentType, hline])
  simp only [List.cons.injEq, Prod.mk.injEq, true_and, and_true] at hfields
  obtain ⟨hmethod, htarget, hdigest, hct, hservice, hinstance, hrequest⟩ := hfields
  have hservice := hc.displayUuid_injective hservice
  have hinstance := hc.displayUuid_injective hinstance
  have hrequest := hc.displayUuid_injective hrequest
  cases serviceId
  cases serviceId'
  cases instanceId
  cases instanceId'
  exact ⟨⟨hmethod, htarget, hdigest, hct⟩, by simpa using hservice, by simpa using hinstance,
    hrequest, hparameters⟩

/-- The text of the fingerprint determines what the fingerprint is about. -/
theorem fingerprintText_inj (hc : crates.Documented) {w w' : SignedServiceRequest}
    (hd : '\n' ∉ w.contentDigest) (hd' : '\n' ∉ w'.contentDigest)
    (h : fingerprintText crates w = fingerprintText crates w') :
    (w.parts.method = w'.parts.method ∧ w.parts.targetUri = w'.parts.targetUri ∧
      w.contentDigest = w'.contentDigest ∧ w.parts.contentType = w'.parts.contentType) ∧
      w.serviceId = w'.serviceId := by
  unfold fingerprintText at h
  obtain ⟨hfields, hservice⟩ := Framing.lines_inj h rfl
    (by simp [w.parts.newline_not_mem_method, w.parts.newline_not_mem_targetUri, hd,
      w.parts.newline_not_mem_contentType])
    (by simp [w'.parts.newline_not_mem_method, w'.parts.newline_not_mem_targetUri, hd',
      w'.parts.newline_not_mem_contentType])
  simp only [List.cons.injEq, Prod.mk.injEq, true_and, and_true] at hfields
  have hservice := hc.displayUuid_injective hservice
  cases hw : w.serviceId
  cases hw' : w'.serviceId
  exact ⟨hfields, by simpa [hw, hw'] using hservice⟩

/-! ## What signing and verifying establish -/

/-- The signature parameters of a request, as they were sent. -/
def SignedServiceRequest.parameters (w : SignedServiceRequest) : Str :=
  (w.signatureInput.stripPrefix (signatureLabel ++ ['='])).getD []

/-- The text that the signature of a request is about. -/
def SignedServiceRequest.base (crates : Crates) (w : SignedServiceRequest) : Str :=
  signatureBase crates w.parts w.serviceId w.instanceId w.contentDigest w.parameters

/-- What is signed, and how it is sent. -/
theorem sign_eq_ok {parts : ServiceRequestParts} {credential : InstanceCredential}
    {created expires : ℤ} {nonce : Str} {signed : SignedServiceRequest}
    (h : SignedServiceRequest.sign crates parts credential created expires nonce = .ok signed) :
    signed.parts = parts ∧ signed.contentDigest = contentDigest crates parts.body ∧
      signed.signatureInput = signatureLabel ++ ['='] ++ signed.parameters ∧
      signed.signature = signatureLabel ++ "=:".toList ++
        crates.encodeBase64 (credential.sign (signed.base crates).asBytes).bytes ++ [':'] := by
  unfold SignedServiceRequest.sign at h
  obtain ⟨-, -, h⟩ := bind_eq_ok.mp h
  obtain rfl := Except.ok.inj h
  have hparameters : ∀ t : Str, Str.stripPrefix (signatureLabel ++ ['='] ++ t)
      (signatureLabel ++ ['=']) = some t := fun t => Str.stripPrefix_eq_some.mpr rfl
  refine ⟨rfl, rfl, ?_, ?_⟩
  · simp only [SignedServiceRequest.parameters, hparameters, Option.getD_some]
  · simp only [SignedServiceRequest.base, SignedServiceRequest.parameters, hparameters,
      Option.getD_some]

/-- What is not malformed is there. -/
theorem orMalformed_eq_ok {β : Type} {x : Option β} {b : β} :
    orMalformed x = .ok b ↔ x = some b := elim_eq_ok

/-- The parameters that are read are those that were sent. -/
theorem parseSignatureInput_eq_ok {w : SignedServiceRequest} {metadata : SignatureMetadata}
    (h : parseSignatureInput crates w.signatureInput = .ok metadata) :
    w.signatureInput = signatureLabel ++ ['='] ++ w.parameters ∧
      metadata.parameters = w.parameters := by
  unfold parseSignatureInput at h
  obtain ⟨parameters, hparameters, h⟩ := bind_eq_ok.mp h
  rw [orMalformed_eq_ok] at hparameters
  have hread : metadata.parameters = parameters := by
    obtain ⟨rest, -, h⟩ := bind_eq_ok.mp h
    obtain ⟨⟨created, rest⟩, -, h⟩ := bind_eq_ok.mp h
    obtain ⟨⟨expires, rest⟩, -, h⟩ := bind_eq_ok.mp h
    obtain ⟨⟨nonce, rest⟩, -, h⟩ := bind_eq_ok.mp h
    obtain ⟨⟨keyId, algorithm⟩, -, h⟩ := bind_eq_ok.mp h
    dsimp only at h
    split at h
    · cases h
    obtain ⟨created, -, h⟩ := bind_eq_ok.mp h
    obtain ⟨expires, -, h⟩ := bind_eq_ok.mp h
    obtain ⟨-, -, h⟩ := bind_eq_ok.mp h
    obtain ⟨keyId, -, h⟩ := bind_eq_ok.mp h
    obtain rfl := Except.ok.inj h
    rfl
  have hsent : w.parameters = parameters := by
    rw [SignedServiceRequest.parameters, hparameters, Option.getD_some]
  exact ⟨by rw [hsent]; exact Str.stripPrefix_eq_some.mp hparameters, by rw [hread, hsent]⟩

/-- The signature that is read is the one whose Base64 form was sent. -/
theorem parseSignature_eq_ok {value : Str} {signature : Bytes64}
    (h : parseSignature crates value = .ok signature) :
    value = signatureLabel ++ "=:".toList ++ crates.encodeBase64 signature.bytes ++ [':'] := by
  unfold parseSignature at h
  obtain ⟨encoded, hencoded, h⟩ := bind_eq_ok.mp h
  obtain ⟨bytes, -, h⟩ := bind_eq_ok.mp h
  split at h
  · split at h
    · cases h
    · rename_i hlen hsame
      obtain rfl := Except.ok.inj h
      obtain ⟨rest, hrest, hend⟩ := Option.bind_eq_some_iff.mp (orMalformed_eq_ok.mp hencoded)
      rw [Str.stripPrefix_eq_some.mp hrest, Str.stripSuffix_eq_some.mp hend, ← not_not.mp hsame,
        List.append_assoc (_ ++ _)]
  · cases h

/-- What the verification of a request has checked. -/
structure Verifies (crates : Crates) (w : SignedServiceRequest) (v : VerifiedServiceRequest) :
    Prop where
  parameters : w.signatureInput = signatureLabel ++ ['='] ++ w.parameters
  digest : w.contentDigest = contentDigest crates w.parts.body
  signature : ∃ key signature, parseSignature crates w.signature = .ok signature ∧
    crates.verifyStrict key (w.base crates).asBytes signature = true
  fingerprint : v.requestFingerprint = requestFingerprint crates w

/-- A request that the verifier lets through is one that verifies. -/
theorem verifies_of_verify {findEligible : InstanceId → ℤ →
      Except InstanceRegistryError RegisteredInstance} {w : SignedServiceRequest} {now : ℤ}
    {v : VerifiedServiceRequest}
    (h : ServiceRequestVerifier.verify crates findEligible w now = .ok v) :
    Verifies crates w v := by
  unfold ServiceRequestVerifier.verify at h
  obtain ⟨metadata, hmetadata, h⟩ := bind_eq_ok.mp h
  obtain ⟨hinput, hparameters⟩ := parseSignatureInput_eq_ok hmetadata
  obtain ⟨-, -, h⟩ := bind_eq_ok.mp h
  obtain ⟨registered, -, h⟩ := bind_eq_ok.mp h
  dsimp only at h
  split at h
  · cases h
  split at h
  · cases h
  rename_i hdigest
  obtain ⟨signature, hsignature, h⟩ := bind_eq_ok.mp h
  split at h
  · cases h
  rename_i hverified
  obtain rfl := Except.ok.inj h
  refine ⟨hinput, (not_not.mp hdigest).symm, ⟨registered.publicKey.publicKey, signature,
    hsignature, ?_⟩, rfl⟩
  rw [SignedServiceRequest.base, ← hparameters]
  simpa using hverified

/-! ## Binding -/

/-- Two requests agree on what a fingerprint is about. -/
structure SameContent (w w' : SignedServiceRequest) : Prop where
  method : w.parts.method = w'.parts.method
  authority : w.parts.authority = w'.parts.authority
  pathAndQuery : w.parts.pathAndQuery = w'.parts.pathAndQuery
  contentType : w.parts.contentType = w'.parts.contentType
  body : w.parts.body = w'.parts.body
  serviceId : w.serviceId = w'.serviceId

/-- Two requests agree on what a signature is about. -/
structure SameSigned (w w' : SignedServiceRequest) : Prop extends SameContent w w' where
  instanceId : w.instanceId = w'.instanceId
  requestId : w.parts.requestId = w'.parts.requestId
  signatureInput : w.signatureInput = w'.signatureInput

/-- The credential's signatures verify, under any key, only for the messages they were made for. -/
def InstanceCredential.VerifiesOnly (crates : Crates) (credential : InstanceCredential)
    (messages : Set (List UInt8)) : Prop :=
  ∀ m ∈ messages, ∀ key, ∀ m' ∈ messages,
    crates.verifyStrict key m' (credential.sign m) = true → m' = m

/-- Equal signed texts, with content digests that belong to the bodies, are of equal requests. -/
theorem sameSigned_of_base (hc : crates.Documented) {hashed : Set (List UInt8)}
    (hsha : CollisionFree crates.sha256 hashed) {w w' : SignedServiceRequest}
    (hw : w.parts.body ∈ hashed) (hw' : w'.parts.body ∈ hashed)
    (hd : w.contentDigest = contentDigest crates w.parts.body)
    (hd' : w'.contentDigest = contentDigest crates w'.parts.body)
    (hp : w.signatureInput = signatureLabel ++ ['='] ++ w.parameters)
    (hp' : w'.signatureInput = signatureLabel ++ ['='] ++ w'.parameters)
    (h : w.base crates = w'.base crates) : SameSigned w w' := by
  have hline : '\n' ∉ w.contentDigest := by
    rw [hd]
    exact newline_not_mem_contentDigest hc _
  have hline' : '\n' ∉ w'.contentDigest := by
    rw [hd']
    exact newline_not_mem_contentDigest hc _
  obtain ⟨⟨hmethod, htarget, hdigest, hct⟩, hservice, hinstance, hrequest, hparameters⟩ :=
    signatureBase_inj hc hline hline' h
  obtain ⟨hauthority, hpath⟩ := ServiceRequestParts.targetUri_inj htarget
  rw [hd, hd'] at hdigest
  have hbody := contentDigest_inj hc hsha hw hw' hdigest
  exact
    { method := hmethod, authority := hauthority, pathAndQuery := hpath, contentType := hct
      body := hbody, serviceId := hservice, instanceId := hinstance, requestId := hrequest
      signatureInput := by rw [hp, hp', hparameters] }

/-- Verified requests have equal fingerprints when they have the same content. -/
theorem fingerprint_eq_iff (hc : crates.Documented) {hashed : Set (List UInt8)}
    (hsha : CollisionFree crates.sha256 hashed) {w w' : SignedServiceRequest}
    {v v' : VerifiedServiceRequest} (hv : Verifies crates w v) (hv' : Verifies crates w' v')
    (hw : w.parts.body ∈ hashed) (hw' : w'.parts.body ∈ hashed)
    (ht : (fingerprintText crates w).asBytes ∈ hashed)
    (ht' : (fingerprintText crates w').asBytes ∈ hashed) :
    v.requestFingerprint = v'.requestFingerprint ↔ SameContent w w' := by
  rw [hv.fingerprint, hv'.fingerprint]
  constructor
  · intro h
    have htext := Str.asBytes_injective (hsha ht ht' h)
    have hline : '\n' ∉ w.contentDigest := by
      rw [hv.digest]
      exact newline_not_mem_contentDigest hc _
    have hline' : '\n' ∉ w'.contentDigest := by
      rw [hv'.digest]
      exact newline_not_mem_contentDigest hc _
    obtain ⟨⟨hmethod, htarget, hdigest, hct⟩, hservice⟩ := fingerprintText_inj hc hline hline' htext
    obtain ⟨hauthority, hpath⟩ := ServiceRequestParts.targetUri_inj htarget
    rw [hv.digest, hv'.digest] at hdigest
    exact ⟨hmethod, hauthority, hpath, hct, contentDigest_inj hc hsha hw hw' hdigest, hservice⟩
  · intro h
    have htarget : w.parts.targetUri = w'.parts.targetUri := by
      unfold ServiceRequestParts.targetUri
      rw [h.authority, h.pathAndQuery]
    have htext : fingerprintText crates w = fingerprintText crates w' := by
      unfold fingerprintText
      rw [h.method, htarget, hv.digest, hv'.digest, h.body, h.contentType, h.serviceId]
    unfold requestFingerprint
    rw [htext]

/-- The signature and the fingerprint bind requests, as long as SHA-256 has no collisions among the
texts that are hashed and the credential's signatures verify only for their messages. -/
theorem signature_binds (hc : crates.Documented) {hashed messages : Set (List UInt8)}
    (hsha : CollisionFree crates.sha256 hashed) {credential : InstanceCredential}
    (hsig : credential.VerifiesOnly crates messages) :
    -- Whatever verifies with the signature of a signed request is that request.
    (∀ parts created expires nonce signed,
      SignedServiceRequest.sign crates parts credential created expires nonce = .ok signed →
      ∀ find w now v, ServiceRequestVerifier.verify crates find w now = .ok v →
      w.signature = signed.signature → parts.body ∈ hashed → w.parts.body ∈ hashed →
      (signed.base crates).asBytes ∈ messages → (w.base crates).asBytes ∈ messages →
      w.parts.requestId = parts.requestId ∧ SameSigned w signed ∧ signed.parts = parts) ∧
    -- What verifies is determined by its signed text.
    (∀ find w now v find' w' now' v', ServiceRequestVerifier.verify crates find w now = .ok v →
      ServiceRequestVerifier.verify crates find' w' now' = .ok v' →
      w.parts.body ∈ hashed → w'.parts.body ∈ hashed →
      w.base crates = w'.base crates → SameSigned w w') ∧
    -- Fingerprints are equal for equal contents, and for these only.
    ∀ find w now v find' w' now' v', ServiceRequestVerifier.verify crates find w now = .ok v →
      ServiceRequestVerifier.verify crates find' w' now' = .ok v' →
      w.parts.body ∈ hashed → w'.parts.body ∈ hashed →
      (fingerprintText crates w).asBytes ∈ hashed → (fingerprintText crates w').asBytes ∈ hashed →
      (v.requestFingerprint = v'.requestFingerprint ↔ SameContent w w') := by
  refine ⟨?_, ?_, ?_⟩
  · intro parts created expires nonce signed hsign find w now v hverify hsame hbody hbody' hm hm'
    obtain ⟨hparts, hdigest, hinput, hsignature⟩ := sign_eq_ok hsign
    have hv := verifies_of_verify hverify
    obtain ⟨key, signature, hparse, hverified⟩ := hv.signature
    -- The signature that was read is the one that was made.
    have hread : signature = credential.sign (signed.base crates).asBytes := by
      have htext := parseSignature_eq_ok hparse
      rw [hsame, hsignature] at htext
      have hbytes := hc.encodeBase64_injective
        (List.append_cancel_left (List.append_cancel_right htext))
      cases hx : credential.sign (signed.base crates).asBytes
      cases signature
      simpa [hx] using hbytes.symm
    rw [hread] at hverified
    have hbase := Str.asBytes_injective (hsig _ hm key _ hm' hverified)
    have hsame := sameSigned_of_base hc hsha hbody' (by rw [hparts]; exact hbody) hv.digest
      (by rw [hparts]; exact hdigest) hv.parameters hinput hbase
    exact ⟨by rw [hsame.requestId, hparts], hsame, hparts⟩
  · intro find w now v find' w' now' v' hverify hverify' hbody hbody' hbase
    have hv := verifies_of_verify hverify
    have hv' := verifies_of_verify hverify'
    exact sameSigned_of_base hc hsha hbody hbody' hv.digest hv'.digest hv.parameters hv'.parameters
      hbase
  · intro find w now v find' w' now' v' hverify hverify' hbody hbody' ht ht'
    exact fingerprint_eq_iff hc hsha (verifies_of_verify hverify) (verifies_of_verify hverify')
      hbody hbody' ht ht'

end

/-! ## A request -/

/-- Crates with the documented texts, and with the digests and the signature of one request. -/
def exampleCrates (body nonce : List UInt8) (bodyDigest nonceDigest otherDigest key : Bytes32)
    (message : List UInt8) (signature : Bytes64) : Crates where
  sha256 m := if m = body then bodyDigest else if m = nonce then nonceDigest else otherDigest
  verifyStrict k m s := decide (k = key ∧ m = message ∧ s = signature)
  displayUuid u := Framing.hyphenated u.toNat
  parseUuid s := if s = Framing.hyphenated 3 then some 3 else none
  encodeBase64 := Framing.base64
  decodeBase64 s := if s = Framing.base64 signature.bytes then some signature.bytes else none
  decodeUrlSafe _ := none

/-- The crates of the example behave as they are documented. -/
theorem exampleCrates_documented {body nonce : List UInt8}
    {bodyDigest nonceDigest otherDigest key : Bytes32} {message : List UInt8}
    {signature : Bytes64} : (exampleCrates body nonce bodyDigest nonceDigest otherDigest key message
      signature).Documented where
  displayUuid_injective u u' h := BitVec.eq_of_toNat_eq (Framing.hyphenated_inj u.isLt u'.isLt h)
  newline_not_mem_displayUuid u := Framing.newline_not_mem_hyphenated u.toNat
  encodeBase64_injective := Framing.base64_injective
  newline_not_mem_encodeBase64 b h := by
    rcases Framing.mem_base64 h with h | h
    · exact absurd h (by decide)
    · exact absurd h (by decide)

/-- A signature over a submission. -/
def exampleSignature : Bytes64 where
  bytes :=
    [123, 78, 121, 63, 92, 118, 58, 207, 81, 31, 30, 109, 66, 117, 230, 184, 157, 115, 40, 49, 231,
      119, 109, 35, 253, 20, 131, 151, 153, 30, 239, 70, 58, 252, 221, 196, 179, 242, 149, 235, 249,
      0, 54, 150, 62, 160, 224, 71, 149, 185, 30, 123, 111, 59, 212, 191, 144, 254, 145, 33, 97, 76,
      53, 10]
  length_eq := rfl

/-- The key of the instance that made it. -/
def examplePublicKey : InstancePublicKey where
  serviceId := ⟨1⟩
  instanceId := ⟨2⟩
  keyId := ⟨3⟩
  publicKey :=
    { bytes :=
        [31, 240, 9, 124, 250, 216, 128, 159, 127, 97, 149, 247, 183, 235, 221, 218, 40, 87, 198,
          105, 122, 59, 10, 203, 215, 147, 208, 163, 34, 167, 212, 40]
      length_eq := rfl }

/-- The submission, with an empty object as its body. -/
def exampleParts : ServiceRequestParts where
  method := "POST".toList
  authority := "kernel.example".toList
  pathAndQuery := "/v1/requests".toList
  contentType := "application/json".toList
  body := [0x7b, 0x7d]
  requestId := 5
  valid := by decide

/-- The digest of that body. -/
def exampleBodyDigest : Bytes32 where
  bytes :=
    [68, 19, 111, 163, 85, 179, 103, 138, 17, 70, 173, 22, 247, 232, 100, 158, 148, 251, 79, 194,
      31, 231, 126, 131, 16, 192, 96, 246, 28, 170, 255, 138]
  length_eq := rfl

/-- The digest of its nonce. -/
def exampleNonceDigest : Bytes32 where
  bytes :=
    [12, 11, 234, 206, 248, 135, 123, 191, 36, 22, 235, 0, 242, 181, 220, 150, 53, 78, 38, 221, 29,
      245, 81, 115, 32, 69, 155, 18, 54, 134, 15, 140]
  length_eq := rfl

/-- The digest of its fingerprint's text. -/
def exampleFingerprint : Bytes32 where
  bytes :=
    [227, 155, 78, 207, 69, 110, 28, 0, 12, 116, 107, 211, 251, 146, 36, 76, 82, 209, 177, 193, 251,
      39, 239, 47, 48, 182, 125, 129, 222, 73, 169, 18]
  length_eq := rfl

/-- The signature parameters of the submission. -/
def exampleParameters : Str :=
  "(\"@method\" \"@target-uri\" ".toList ++ "\"content-digest\" \"content-type\" ".toList ++
    "\"infernal-service-id\" ".toList ++ "\"infernal-instance-id\" ".toList ++
    "\"infernal-request-id\")".toList ++ ";created=100;expires=120;".toList ++
    "nonce=\"aaaaaaaaaaaaaaaa\";".toList ++ "keyid=\"00000000-0000-".toList ++
    "0000-0000-000000000003\";".toList ++ "alg=\"ed25519\"".toList

/-- The digest of its body, as it is sent. -/
def exampleContentDigest : Str :=
  "sha-256=:RBNvo1WzZ4oRRq0W9+".toList ++ "hknpT7T8If536DEMBg9hyq/4o=:".toList

/-- The text that is signed. -/
def exampleBase : Str :=
  "\"@method\": POST\n\"@target-uri\": ".toList ++ "https://kernel.example/v1/requests\n".toList ++
    "\"content-digest\": ".toList ++ exampleContentDigest ++ "\n\"content-type\": ".toList ++
    "application/json\n".toList ++ "\"infernal-service-id\": ".toList ++
    "00000000-0000-0000-0000-000000000001\n".toList ++ "\"infernal-instance-id\": ".toList ++
    "00000000-0000-0000-0000-000000000002\n".toList ++ "\"infernal-request-id\": ".toList ++
    "00000000-0000-0000-0000-000000000005\n".toList ++ "\"@signature-params\": ".toList ++
    exampleParameters

/-- A signature of zeros has its 64 bytes. -/
theorem length_zeros : (List.replicate 64 (0 : UInt8)).length = 64 := rfl

/-- The credential of the instance, at that text. -/
def exampleCredential : InstanceCredential where
  publicKey := examplePublicKey
  sign message :=
    if message = exampleBase.asBytes then exampleSignature
    else { bytes := List.replicate 64 0, length_eq := length_zeros }

/-- The crates, at the texts of that request. -/
def exampleCratesOfRequest : Crates :=
  exampleCrates [0x7b, 0x7d] (Str.asBytes "aaaaaaaaaaaaaaaa".toList) exampleBodyDigest
    exampleNonceDigest exampleFingerprint examplePublicKey.publicKey exampleBase.asBytes
    exampleSignature

/-- The registration of the instance. -/
def exampleRegistration : RegisteredInstance where
  publicKey := examplePublicKey
  endpoint := "https://worker.example".toList
  registeredAt := 90
  leaseExpiresAt := 200
  leaseRevision := 1
  revokedAt := none
  endpoint_valid := by decide
  lease := by decide

/-- The request as it is sent. -/
def exampleRequest : SignedServiceRequest where
  parts := exampleParts
  serviceId := ⟨1⟩
  instanceId := ⟨2⟩
  contentDigest := exampleContentDigest
  signatureInput := "sig1=".toList ++ exampleParameters
  signature := "sig1=:".toList ++ Framing.base64 exampleSignature.bytes ++ [':']

/-- The credential signs the submission. -/
theorem exampleRequest_signed :
    SignedServiceRequest.sign exampleCratesOfRequest exampleParts exampleCredential 100 120
      "aaaaaaaaaaaaaaaa".toList = .ok exampleRequest := by
  have h : (SignedServiceRequest.sign exampleCratesOfRequest exampleParts exampleCredential 100 120
      "aaaaaaaaaaaaaaaa".toList).toOption = some exampleRequest := by decide +kernel
  exact toOption_eq_some.mp h

/-- What was sent verifies ten seconds after it was signed. -/
theorem exampleRequest_verifies : ∃ v, ServiceRequestVerifier.verify exampleCratesOfRequest
    (fun _ _ => .ok exampleRegistration) exampleRequest 110 = .ok v := by
  have h : (ServiceRequestVerifier.verify exampleCratesOfRequest
      (fun _ _ => .ok exampleRegistration) exampleRequest 110).toOption.isSome = true := by
    decide +kernel
  obtain ⟨v, hv⟩ := Option.isSome_iff_exists.mp h
  exact ⟨v, toOption_eq_some.mp hv⟩

/-- The texts that are hashed for the submission: its body, its nonce, and its fingerprint's. -/
def exampleHashed : List (List UInt8) :=
  [[0x7b, 0x7d], Str.asBytes "aaaaaaaaaaaaaaaa".toList,
    (fingerprintText exampleCratesOfRequest exampleRequest).asBytes]

/-- What the example hashes has digests of its own. -/
theorem exampleHashed_collisionFree :
    CollisionFree exampleCratesOfRequest.sha256 {m | m ∈ exampleHashed} := by
  have h : (exampleHashed.map exampleCratesOfRequest.sha256).Nodup := by decide +kernel
  exact fun _ hm _ hm' hsame => List.inj_on_of_nodup_map h hm hm' hsame

/-- The key of the example verifies what it has signed, and nothing else. -/
theorem exampleCredential_verifiesOnly :
    exampleCredential.VerifiesOnly exampleCratesOfRequest Set.univ := by
  intro m _ key m' _ h
  obtain ⟨-, hm', hsign⟩ := of_decide_eq_true h
  by_cases hm : m = exampleBase.asBytes
  · rw [hm', hm]
  · -- The credential signs no other message with this signature.
    simp only [exampleCredential, if_neg hm] at hsign
    exact absurd hsign (by decide)

/-- The request that was sent verifies as the one that was signed. -/
theorem signature_binds_submission :
    exampleRequest.parts.requestId = exampleParts.requestId ∧
      SameSigned exampleRequest exampleRequest ∧ exampleRequest.parts = exampleParts := by
  obtain ⟨v, hv⟩ := exampleRequest_verifies
  exact (signature_binds exampleCrates_documented exampleHashed_collisionFree
    exampleCredential_verifiesOnly).1 _ _ _ _ _ exampleRequest_signed _ _ _ v hv rfl
    List.mem_cons_self List.mem_cons_self trivial trivial

end InfernalLaw
