import InfernalLaw.Kernel.SignatureInput

/-!
# Honestly signed requests

A request that `SignedServiceRequest::sign` builds is read back by `from_wire` and verifies as long
as its signature is fresh.
-/

namespace InfernalLaw

open Postgres (bind_eq_ok mapError_eq_ok toOption_eq_some)

section

variable {crates : Crates}

/-- A signature is read back from its Base64 form. -/
theorem parseSignature_encodeBase64 (hc : crates.RoundTrips) (signature : Bytes64) :
    parseSignature crates (signatureLabel ++ "=:".toList ++
      crates.encodeBase64 signature.bytes ++ [':']) = .ok signature := by
  have hencoded : (Str.stripPrefix (signatureLabel ++ "=:".toList ++
      crates.encodeBase64 signature.bytes ++ [':']) (signatureLabel ++ "=:".toList)).bind
      (fun value => Str.stripSuffix value [':']) = some (crates.encodeBase64 signature.bytes) := by
    rw [Str.stripPrefix_eq_some.mpr (List.append_assoc _ _ _), Option.bind_some]
    exact Str.stripSuffix_eq_some.mpr rfl
  unfold parseSignature
  refine bind_eq_ok.mpr ⟨_, orMalformed_eq_ok.mpr hencoded, ?_⟩
  refine bind_eq_ok.mpr ⟨_, orMalformed_eq_ok.mpr (hc.decodeBase64 _), ?_⟩
  rw [dif_pos signature.length_eq, if_neg (not_not.mpr rfl)]

/-! ## Verification -/

/-- A signature is fresh from five seconds before it is made until five seconds after it expires. -/
theorem validateSignatureTime_eq_ok {created expires now : ℤ} (hcreated : IsI64 created)
    (hnow : IsI64 now) (h₀ : 0 ≤ now) (hearly : created - 5 ≤ now) (hlate : now ≤ expires + 5) :
    validateSignatureTime created expires now = .ok () := by
  have hsooner : ¬ saturatingAdd now clockSkewSeconds < created := by
    unfold saturatingAdd clockSkewSeconds
    unfold IsI64 at hcreated
    omega
  have hlater : ¬ saturatingAdd expires clockSkewSeconds < now := by
    unfold saturatingAdd clockSkewSeconds
    unfold IsI64 at hnow
    omega
  rw [validateSignatureTime, if_neg]
  simp only [not_or]
  exact ⟨by omega, hsooner, hlater⟩

/-- The credential's signatures verify under its own key. -/
def InstanceCredential.Signs (crates : Crates) (credential : InstanceCredential) : Prop :=
  ∀ m, crates.verifyStrict credential.publicKey.publicKey m (credential.sign m) = true

/-- What verifies, when each of the checks succeeds. -/
theorem verify_eq_ok {w : SignedServiceRequest} {metadata : SignatureMetadata} {now : ℤ}
    {findEligible : InstanceId → ℤ → Except InstanceRegistryError RegisteredInstance}
    {registered : RegisteredInstance} {signature : Bytes64}
    (hmetadata : parseSignatureInput crates w.signatureInput = .ok metadata)
    (htime : validateSignatureTime metadata.created metadata.expires now = .ok ())
    (hfind : findEligible w.instanceId now = .ok registered)
    (hkey : registered.publicKey.serviceId = w.serviceId ∧
      registered.publicKey.instanceId = w.instanceId ∧
      registered.publicKey.keyId = metadata.keyId)
    (hdigest : contentDigest crates w.parts.body = w.contentDigest)
    (hsignature : parseSignature crates w.signature = .ok signature)
    (hverified : crates.verifyStrict registered.publicKey.publicKey
      (signatureBase crates w.parts w.serviceId w.instanceId w.contentDigest
        metadata.parameters).asBytes signature = true) :
    ServiceRequestVerifier.verify crates findEligible w now = .ok
      { serviceId := w.serviceId, instanceId := w.instanceId, keyId := metadata.keyId
        requestId := w.parts.requestId, created := metadata.created, expires := metadata.expires
        nonceDigest := crates.sha256 metadata.nonce.asBytes
        requestFingerprint := requestFingerprint crates w } := by
  unfold ServiceRequestVerifier.verify
  refine bind_eq_ok.mpr ⟨_, hmetadata, bind_eq_ok.mpr ⟨_, htime, ?_⟩⟩
  refine bind_eq_ok.mpr ⟨_, mapError_eq_ok.mpr hfind, ?_⟩
  dsimp only
  rw [if_neg (by simp [hkey]), if_neg (not_not.mpr hdigest)]
  refine bind_eq_ok.mpr ⟨_, hsignature, ?_⟩
  rw [hverified, if_neg (by decide)]
  rfl

/-- A signed request whose texts are sent is the one that is read. While it is fresh it verifies, as
long as the resolver finds the credential's registration. -/
theorem signed_verifies (hc : crates.RoundTrips) {credential : InstanceCredential}
    (hsigns : credential.Signs crates) {parts : ServiceRequestParts} {created expires now : ℤ}
    {nonce : Str} {signed : SignedServiceRequest} (hcreated : IsI64 created)
    (hexpires : IsI64 expires) (hnow : IsI64 now)
    (hsign : SignedServiceRequest.sign crates parts credential created expires nonce = .ok signed)
    {findEligible : InstanceId → ℤ → Except InstanceRegistryError RegisteredInstance}
    {registered : RegisteredInstance}
    (hfind : findEligible credential.publicKey.instanceId now = .ok registered)
    (hkey : registered.publicKey = credential.publicKey) (h₀ : 0 ≤ now)
    (hearly : created - 5 ≤ now) (hlate : now ≤ expires + 5) :
    SignedServiceRequest.fromWire crates parts (crates.displayUuid signed.serviceId.uuid)
        (crates.displayUuid signed.instanceId.uuid) signed.contentDigest signed.signatureInput
        signed.signature = .ok signed ∧
      ∃ v, ServiceRequestVerifier.verify crates findEligible signed now = .ok v ∧
        v.serviceId = credential.publicKey.serviceId ∧
        v.instanceId = credential.publicKey.instanceId ∧ v.keyId = credential.publicKey.keyId ∧
        v.requestId = parts.requestId ∧ v.created = created ∧ v.expires = expires ∧
        v.nonceDigest = crates.sha256 nonce.asBytes := by
  unfold SignedServiceRequest.sign at hsign
  obtain ⟨⟨⟩, hvalid, hsign⟩ := bind_eq_ok.mp hsign
  obtain rfl := Except.ok.inj hsign
  constructor
  · unfold SignedServiceRequest.fromWire
    rw [hc.parseUuid, hc.parseUuid]
    rfl
  · have hmetadata : ∀ keyId, parseSignatureInput crates (signatureLabel ++ ['='] ++
        signatureParameters crates created expires nonce keyId) = _ :=
      fun _ => parseSignatureInput_signatureParameters hc hcreated hexpires hvalid
    have htime := validateSignatureTime_eq_ok hcreated hnow h₀ hearly hlate
    refine ⟨_, verify_eq_ok (hmetadata _) htime hfind ⟨by rw [hkey], by rw [hkey], by rw [hkey]⟩ rfl
      (parseSignature_encodeBase64 hc _) ?_, rfl, rfl, rfl, rfl, rfl, rfl, rfl⟩
    rw [hkey]
    exact hsigns _

end

/-! ## A request -/

/-- The key of the example signs what the crates of the example verify. -/
theorem exampleCredential_signs : exampleCredential.Signs exampleReadingCrates :=
  fun _ => decide_eq_true ⟨rfl, rfl⟩

/-- The submission verifies ten seconds after it was signed. -/
theorem signed_verifies_submission : SignedServiceRequest.fromWire exampleReadingCrates exampleParts
        (exampleReadingCrates.displayUuid exampleRequest.serviceId.uuid)
        (exampleReadingCrates.displayUuid exampleRequest.instanceId.uuid)
        exampleRequest.contentDigest exampleRequest.signatureInput exampleRequest.signature =
      .ok exampleRequest ∧
      ∃ v, ServiceRequestVerifier.verify exampleReadingCrates (fun _ _ => .ok exampleRegistration)
          exampleRequest 110 = .ok v ∧
        v.serviceId = ⟨1⟩ ∧ v.instanceId = ⟨2⟩ ∧ v.keyId = ⟨3⟩ ∧ v.requestId = 5 ∧
        v.created = 100 ∧ v.expires = 120 ∧ v.nonceDigest = exampleNonceDigest := by
  have h : (SignedServiceRequest.sign exampleReadingCrates exampleParts exampleCredential 100 120
      "aaaaaaaaaaaaaaaa".toList).toOption = some exampleRequest := by decide +kernel
  have hnonce : exampleReadingCrates.sha256 (Str.asBytes "aaaaaaaaaaaaaaaa".toList) =
      exampleNonceDigest := by decide +kernel
  have hrange : IsI64 100 ∧ IsI64 120 ∧ IsI64 110 := by
    unfold IsI64
    omega
  rw [← hnonce]
  exact signed_verifies exampleReadingCrates_roundTrips exampleCredential_signs
    hrange.1 hrange.2.1 hrange.2.2 (toOption_eq_some.mp h) rfl rfl (by omega) (by omega) (by omega)

end InfernalLaw
