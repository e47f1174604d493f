import InfernalLaw.Effects.Fallible
import InfernalLaw.Kernel.Admission
import InfernalLaw.Kernel.SignatureInput

/-!
# The gate of requests

`ServiceRequestGate::admit` composes the verification of a signature, the reservation against
replays and the check of the sender's admission, in this order.
-/

namespace InfernalLaw

open Effects (run_adapt_bind_error run_adapt_bind_ok)
open Postgres (bind_eq_ok)

/-- `ReplayReservation::from_verified`. -/
def ReplayReservation.fromVerified (request : VerifiedServiceRequest) (reservedAt : ℤ) :
    Except ReplayProtectionError ReplayReservation :=
  if h : reservedAt < 0 ∨ saturatingAdd reservedAt clockSkewSeconds < request.created ∨
      saturatingAdd request.expires clockSkewSeconds < reservedAt then
    .error .invalidTimestamp
  else
    .ok
      { serviceId := request.serviceId, instanceId := request.instanceId, keyId := request.keyId
        requestId := request.requestId, nonceDigest := request.nonceDigest
        requestFingerprint := request.requestFingerprint, signatureCreated := request.created
        signatureExpires := request.expires, reservedAt
        timely := by simpa only [not_or, not_lt] using h }

/-- What the gate lets through. -/
structure AdmittedServiceRequest where
  verified : VerifiedServiceRequest
  replayDisposition : ReplayDisposition
  admissionRevision : ℤ
  deriving DecidableEq

/-- At which of its checks the gate rejects a request. -/
inductive ServiceRequestGateError where
  | admission (error : AdmissionError)
  | replay (error : ReplayProtectionError)
  | signature (error : ServiceRequestAuthenticationError)
  deriving DecidableEq

section

variable {m : Type → Type} [Monad m]

/-- `ReplayProtectionService::protect`. -/
def ReplayProtectionService.protect
    (reserve : ReplayReservation → ExceptT ReplayProtectionError m ReplayDisposition)
    (request : VerifiedServiceRequest) (now : ℤ) :
    ExceptT ReplayProtectionError m ReplayDisposition := do
  let reservation ← ExceptT.mk (pure (ReplayReservation.fromVerified request now))
  reserve reservation

/-- `require_communication`, over `AdmissionService::require_enabled`. -/
def AdmissionService.requireCommunication
    (find : ActorId → ExceptT AdmissionError m (Option CommunicationAdmission))
    (serviceId : ActorId) : ExceptT AdmissionError m ℤ := do
  let some admission ← find serviceId | throw (.unknownService serviceId)
  if admission.enabled then return admission.revision else throw (.disabled serviceId)

/-- `ServiceRequestGate::admitRequest`, over any three checks. -/
def ServiceRequestGate.admitRequest
    (verifySignature : SignedServiceRequest → ℤ →
      ExceptT ServiceRequestAuthenticationError m VerifiedServiceRequest)
    (reserveReplay : VerifiedServiceRequest → ℤ → ExceptT ReplayProtectionError m ReplayDisposition)
    (requireCommunication : ActorId → ExceptT AdmissionError m ℤ)
    (request : SignedServiceRequest) (now : ℤ) :
    ExceptT ServiceRequestGateError m AdmittedServiceRequest := do
  let verified ← (verifySignature request now).adapt .signature
  let replayDisposition ← (reserveReplay verified now).adapt .replay
  let admissionRevision ← (requireCommunication verified.serviceId).adapt .admission
  return { verified, replayDisposition, admissionRevision }

end

/-! ## The gate over its stores -/

/-- What the gate depends on: the registered instances, the reservations, and the admissions. -/
structure GateStores (I R A : Type) where
  instances : I
  replay : R
  admission : A

/-- The three repositories, whatever they answer and however they change. -/
structure GateRepositories (I R A : Type) where
  /-- `EligibleInstanceResolver::find_eligible`. -/
  findEligible : I → InstanceId → ℤ → Except InstanceRegistryError RegisteredInstance
  /-- `ReplayProtectionRepository::reserve`. -/
  reserve : ReplayReservation → StateM R (Except ReplayProtectionError ReplayDisposition)
  /-- `AdmissionRepository::find`. -/
  find : ActorId → StateM A (Except AdmissionError (Option CommunicationAdmission))

namespace GateRepositories

variable {I R A β : Type} (g : GateRepositories I R A)

/-- The verification at a state of the instances. -/
def verifySignature (crates : Crates) (instances : I) (request : SignedServiceRequest) (now : ℤ) :
    Except ServiceRequestAuthenticationError VerifiedServiceRequest :=
  ServiceRequestVerifier.verify crates (g.findEligible instances) request now

/-- The reservation. -/
def reserveReplay (request : VerifiedServiceRequest) (now : ℤ) :
    StateM R (Except ReplayProtectionError ReplayDisposition) :=
  (ReplayProtectionService.protect (fun r => ExceptT.mk (g.reserve r)) request now).run

/-- The check of the sender's admission. -/
def requireCommunication (serviceId : ActorId) : StateM A (Except AdmissionError ℤ) :=
  (AdmissionService.requireCommunication (fun id => ExceptT.mk (g.find id)) serviceId).run

/-- What reads the instances. -/
def onInstances (p : I → β) : StateM (GateStores I R A) β := fun s => (p s.instances, s)

/-- What works on the reservations. -/
def onReplay (p : StateM R β) : StateM (GateStores I R A) β := fun s =>
  let (b, replay) := p s.replay
  (b, { s with replay })

/-- What works on the admissions. -/
def onAdmission (p : StateM A β) : StateM (GateStores I R A) β := fun s =>
  let (b, admission) := p s.admission
  (b, { s with admission })

/-- The gate. -/
def admitRequest (crates : Crates) (request : SignedServiceRequest) (now : ℤ) :
    StateM (GateStores I R A) (Except ServiceRequestGateError AdmittedServiceRequest) :=
  (ServiceRequestGate.admitRequest
    (fun request now =>
      ExceptT.mk (onInstances fun instances => g.verifySignature crates instances request now))
    (fun verified now => ExceptT.mk (onReplay (g.reserveReplay verified now)))
    (fun serviceId => ExceptT.mk (onAdmission (g.requireCommunication serviceId)))
    request now).run

/-! ## What the gate lets through -/

/-- The instances are read and stay as they are. -/
@[simp] theorem onInstances_apply {p : I → β} {s : GateStores I R A} :
    onInstances p s = (p s.instances, s) := rfl

/-- The replay protection works on its own state. -/
@[simp] theorem onReplay_apply {p : StateM R β} {s : GateStores I R A} :
    onReplay p s = ((p s.replay).1, { s with replay := (p s.replay).2 }) := rfl

/-- So does the admission. -/
@[simp] theorem onAdmission_apply {p : StateM A β} {s : GateStores I R A} :
    onAdmission p s = ((p s.admission).1, { s with admission := (p s.admission).2 }) := rfl

variable {g} {crates : Crates} {request : SignedServiceRequest} {now : ℤ} {s : GateStores I R A}

/-- A request that does not verify is rejected, and no store changes. -/
theorem admitRequest_of_error {e : ServiceRequestAuthenticationError}
    (h : g.verifySignature crates s.instances request now = .error e) :
    g.admitRequest crates request now s = (.error (.signature e), s) := by
  rw [admitRequest, ServiceRequestGate.admitRequest]
  apply run_adapt_bind_error
  rw [ExceptT.run_mk, onInstances_apply, h]

/-- The gate admits a request when each of its checks succeeds, and says what they answered. -/
theorem admitRequest_eq_ok {a : AdmittedServiceRequest} :
    (g.admitRequest crates request now s).1 = .ok a ↔
      g.verifySignature crates s.instances request now = .ok a.verified ∧
        (g.reserveReplay a.verified now s.replay).1 = .ok a.replayDisposition ∧
        (g.requireCommunication a.verified.serviceId s.admission).1 = .ok a.admissionRevision := by
  -- The three checks in their order: each is asked only once the one before has passed.
  cases hverify : g.verifySignature crates s.instances request now with
  | error e => simp [admitRequest_of_error hverify]
  | ok verified =>
    have hfirst : (ExceptT.mk (onInstances fun instances =>
        g.verifySignature crates instances request now)).run s = (.ok verified, s) := by
      rw [ExceptT.run_mk, onInstances_apply, hverify]
    rw [admitRequest, ServiceRequestGate.admitRequest, run_adapt_bind_ok hfirst]
    rcases hreserve : g.reserveReplay verified now s.replay with ⟨e | disposition, replay⟩
    · rw [run_adapt_bind_error (by rw [ExceptT.run_mk, onReplay_apply, hreserve])]
      simp only [reduceCtorEq, false_iff]
      rintro ⟨hverified, hreserved, -⟩
      rw [← Except.ok.inj hverified, hreserve] at hreserved
      cases hreserved
    rw [run_adapt_bind_ok (by rw [ExceptT.run_mk, onReplay_apply, hreserve])]
    rcases hrequire : g.requireCommunication verified.serviceId s.admission with
      ⟨e | revision, admission⟩
    · rw [run_adapt_bind_error (by rw [ExceptT.run_mk, onAdmission_apply, hrequire])]
      simp only [reduceCtorEq, false_iff]
      rintro ⟨hverified, -, hrequired⟩
      rw [← Except.ok.inj hverified, hrequire] at hrequired
      cases hrequired
    rw [run_adapt_bind_ok (by rw [ExceptT.run_mk, onAdmission_apply, hrequire])]
    constructor
    · intro h
      obtain rfl := Except.ok.inj h
      exact ⟨rfl, by rw [hreserve], by rw [hrequire]⟩
    · rintro ⟨hverified, hreserved, hrequired⟩
      obtain rfl := Except.ok.inj hverified
      rw [hreserve] at hreserved
      rw [hrequire] at hrequired
      obtain rfl := Except.ok.inj hreserved
      obtain rfl := Except.ok.inj hrequired
      rfl

end GateRepositories

/-! ## Times -/

/-- `-` of `i64`, outside of whose range it overflows. -/
def checkedSub (x y : ℤ) : Option ℤ :=
  if -2 ^ 63 ≤ x - y ∧ x - y < 2 ^ 63 then some (x - y) else none

/-- `validate_signature_metadata` with the subtraction of `i64`: the first two comparisons return
before it. -/
def validateSignatureMetadataOfI64 (created expires : ℤ) (nonce : Str) :
    Option (Except ServiceRequestAuthenticationError Unit) :=
  if created < 0 ∨ expires ≤ created then some (.error .malformed)
  else do
    let validity ← checkedSub expires created
    if signatureValiditySeconds < validity ∨
        nonce.len < minNonceLength ∨ maxNonceLength < nonce.len ∨
        nonce.all (fun c => c.isAlphanum || c == '-' || c == '_') = false then
      return .error .malformed
    else return .ok ()

/-- The validity that is left to check is within the range of `i64`. -/
theorem validateSignatureMetadataOfI64_eq {created expires : ℤ} (hexpires : IsI64 expires)
    (nonce : Str) : validateSignatureMetadataOfI64 created expires nonce =
      some (validateSignatureMetadata created expires nonce) := by
  unfold validateSignatureMetadataOfI64 validateSignatureMetadata
  by_cases hearly : created < 0 ∨ expires ≤ created
  · rw [if_pos hearly, if_pos (by tauto)]
  · unfold IsI64 at hexpires
    rw [if_neg hearly, checkedSub, if_pos (by omega), Option.bind_eq_bind, Option.bind_some]
    obtain ⟨hcreated, hlater⟩ := not_or.mp hearly
    simp only [hcreated, hlater, false_or]
    split <;> rfl

/-- `saturating_add` stays within the range of `i64`. -/
theorem isI64_saturatingAdd (x y : ℤ) : IsI64 (saturatingAdd x y) := by
  unfold IsI64 saturatingAdd
  omega

/-- How long a signature is valid, by its metadata. -/
theorem expires_of_validateSignatureMetadata {created expires : ℤ} {nonce : Str}
    (h : validateSignatureMetadata created expires nonce = .ok ()) :
    0 ≤ created ∧ created < expires ∧ expires - created ≤ signatureValiditySeconds := by
  unfold validateSignatureMetadata at h
  split at h
  · cases h
  rename_i hchecked
  simp only [not_or, not_lt, not_le] at hchecked
  exact ⟨hchecked.1, hchecked.2.1, hchecked.2.2.1⟩

/-- The times of what verifies: the signature was fresh at the time of the verification. -/
theorem times_of_verify {crates : Crates}
    {findEligible : InstanceId → ℤ → Except InstanceRegistryError RegisteredInstance}
    {request : SignedServiceRequest} {now : ℤ} {v : VerifiedServiceRequest}
    (h : ServiceRequestVerifier.verify crates findEligible request now = .ok v) :
    0 ≤ v.created ∧ v.created < v.expires ∧ v.expires - v.created ≤ signatureValiditySeconds ∧
      validateSignatureTime v.created v.expires now = .ok () := by
  unfold ServiceRequestVerifier.verify at h
  obtain ⟨metadata, hmetadata, h⟩ := bind_eq_ok.mp h
  obtain ⟨-, -, -, -, -, -, hvalid, -⟩ := spelling_of_parseSignatureInput hmetadata
  obtain ⟨hcreated, hlater, hvalidity⟩ := expires_of_validateSignatureMetadata hvalid
  obtain ⟨⟨⟩, htime, h⟩ := bind_eq_ok.mp h
  obtain ⟨registered, -, h⟩ := bind_eq_ok.mp h
  dsimp only at h
  split at h
  · cases h
  split at h
  · cases h
  obtain ⟨signature, -, h⟩ := bind_eq_ok.mp h
  split at h
  · cases h
  obtain rfl := Except.ok.inj h
  exact ⟨hcreated, hlater, hvalidity, htime⟩

/-- A fresh signature was made at most five seconds from now, and expired at most five ago. -/
theorem window_of_validateSignatureTime {created expires now : ℤ} (h₀ : 0 ≤ expires)
    (h : validateSignatureTime created expires now = .ok ()) :
    0 ≤ now ∧ created - 5 ≤ now ∧ now ≤ expires + 5 := by
  unfold validateSignatureTime at h
  split at h
  · cases h
  rename_i hchecked
  simp only [not_or, not_lt] at hchecked
  obtain ⟨hnow, hearly, hlate⟩ := hchecked
  unfold saturatingAdd clockSkewSeconds at hearly hlate
  omega

/-- The two modules that check the time agree. -/
theorem fromVerified_of_validateSignatureTime {v : VerifiedServiceRequest} {now : ℤ}
    (h : validateSignatureTime v.created v.expires now = .ok ()) :
    ∃ r, ReplayReservation.fromVerified v now = .ok r := by
  unfold validateSignatureTime at h
  split at h
  · cases h
  rename_i hchecked
  exact ⟨_, dif_neg hchecked⟩

/-- The gate admits a request exactly when the verification, the reservation and the admission
succeed, and passes on what they answered; what does not verify changes no store. Its checks of the
time stay within `i64`, they bound the times of what is admitted, and what verifies is never too
early or too late for the reservation. -/
theorem gate_composition {I R A : Type} (g : GateRepositories I R A) (crates : Crates) :
    (∀ (request : SignedServiceRequest) (now : ℤ) (s : GateStores I R A),
      (∀ a, (g.admitRequest crates request now s).1 = .ok a ↔
        g.verifySignature crates s.instances request now = .ok a.verified ∧
          (g.reserveReplay a.verified now s.replay).1 = .ok a.replayDisposition ∧
          (g.requireCommunication a.verified.serviceId s.admission).1 = .ok a.admissionRevision) ∧
      (∀ e, g.verifySignature crates s.instances request now = .error e →
        g.admitRequest crates request now s = (.error (.signature e), s)) ∧
      (∀ a, (g.admitRequest crates request now s).1 = .ok a →
        a.verified.expires - a.verified.created ≤ 30 ∧ a.verified.created - 5 ≤ now ∧
          now ≤ a.verified.expires + 5) ∧
      ∀ v, g.verifySignature crates s.instances request now = .ok v →
        ∃ r, ReplayReservation.fromVerified v now = .ok r) ∧
    (∀ created expires : ℤ, IsI64 created → IsI64 expires → ∀ nonce,
      validateSignatureMetadataOfI64 created expires nonce =
        some (validateSignatureMetadata created expires nonce)) ∧
    ∀ x : ℤ, IsI64 x → IsI64 (saturatingAdd x clockSkewSeconds) := by
  refine ⟨fun request now s => ⟨fun a => GateRepositories.admitRequest_eq_ok,
    fun e he => GateRepositories.admitRequest_of_error he, fun a ha => ?_, fun v hv => ?_⟩,
    fun created expires _ hexpires nonce => validateSignatureMetadataOfI64_eq hexpires nonce,
    fun x _ => isI64_saturatingAdd x _⟩
  · obtain ⟨hverify, -, -⟩ := GateRepositories.admitRequest_eq_ok.mp ha
    obtain ⟨hcreated, hlater, hvalidity, htime⟩ := times_of_verify hverify
    obtain ⟨-, hearly, hlate⟩ := window_of_validateSignatureTime (by omega) htime
    exact ⟨hvalidity, hearly, hlate⟩
  · obtain ⟨-, -, -, htime⟩ := times_of_verify hv
    exact fromVerified_of_validateSignatureTime htime

end InfernalLaw
