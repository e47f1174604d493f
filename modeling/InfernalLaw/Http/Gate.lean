import InfernalLaw.Http.Responses
import InfernalLaw.Infrastructure.AdmissionRepository
import InfernalLaw.Infrastructure.InstanceRegistryRepository
import InfernalLaw.Infrastructure.ReplayProtectionRepository
import InfernalLaw.Kernel.RequestGate

/-!
# The gate over HTTP

How a governed request is authenticated: the headers that `read_request` has set are put together to
a signed request, and `ServiceRequestGate` asks the registry of instances, the reservations and the
admissions about it, each in a transaction of its own.
-/

namespace InfernalLaw

open Postgres (Proc)

/-! ## The signed request -/

/-- `GovernedHttpRequest`. -/
structure GovernedHttpRequest where
  method : Str
  authority : Str
  pathAndQuery : Str
  contentType : Str
  body : List UInt8
  serviceId : Str
  instanceId : Str
  requestId : Str
  contentDigest : Str
  signatureInput : Str
  signature : Str
  deriving DecidableEq

/-- `ParsedRequest::as_governed`. -/
def ParsedRequest.asGoverned (r : ParsedRequest) : Option GovernedHttpRequest := do
  let authority ← r.authority
  let contentType ← r.contentType
  let serviceId ← r.serviceId
  let instanceId ← r.instanceId
  let requestId ← r.requestId
  let contentDigest ← r.contentDigest
  let signatureInput ← r.signatureInput
  let signature ← r.signature
  return {
    method := r.method, authority, pathAndQuery := r.path, contentType, body := r.body, serviceId
    instanceId, requestId, contentDigest, signatureInput, signature }

/-- `GovernedHttpRequest::into_signed`. -/
def GovernedHttpRequest.intoSigned (crates : Crates) (r : GovernedHttpRequest) :
    Except ServiceRequestAuthenticationError SignedServiceRequest := do
  let requestId ← orMalformed (crates.parseUuid r.requestId)
  let parts ← ServiceRequestParts.new r.method r.authority r.pathAndQuery r.contentType
    r.body requestId
  SignedServiceRequest.fromWire crates parts r.serviceId r.instanceId r.contentDigest
    r.signatureInput r.signature

/-! ## The checks -/

section

variable (crates : KeyCrates)

/-- `ServiceRequestVerifier::verify` over the registry, which is asked for the sender's instance
once the metadata of the signature is read and fresh. -/
def verifySignature (request : SignedServiceRequest) (now : ℤ) :
    Sql (Except ServiceRequestAuthenticationError VerifiedServiceRequest) :=
  match (do
    let metadata ← parseSignatureInput crates.toCrates request.signatureInput
    validateSignatureTime metadata.created metadata.expires now) with
  | .error e => .done (.error e)
  | .ok _ =>
    (InstanceRegistryService.findEligible crates request.instanceId now).bind fun registered =>
      .done (ServiceRequestVerifier.verify crates.toCrates (fun _ _ => registered) request now)

/-- `ServiceRequestGate::admit`, over the database. -/
def admitService (request : SignedServiceRequest) (now : ℤ) :
    Fallible ServiceRequestGateError AdmittedServiceRequest :=
  ServiceRequestGate.admitRequest (fun request now =>
    ExceptT.mk (verifySignature crates request now))
    (ReplayProtectionService.protect fun r => ExceptT.mk
      (PostgresReplayProtectionRepository.reserve r))
    (AdmissionService.requireCommunication fun id =>
      ExceptT.mk (PostgresAdmissionRepository.find id))
    request now

end

/-! ## Responses -/

namespace GovernedErrorResponse

/-- The answer to a service whose communication is disabled. -/
def communicationDisabled : GovernedErrorResponse :=
  ⟨"communication_disabled", "service communication is disabled"⟩

/-- The answer where a part of the kernel is not configured or does not answer. -/
def unavailable : GovernedErrorResponse :=
  ⟨"security_boundary_unavailable", "request security checks are unavailable"⟩

end GovernedErrorResponse

section

variable (crates : HttpCrates)

/-- `gate_error_response`. -/
def gateErrorResponse : ServiceRequestGateError → Response
  | .admission (.disabled _) => errorResponse crates "403 Forbidden" .communicationDisabled
  | .signature (.registry (.repository _)) | .replay (.repository _) | .admission (.repository _)
  | .admission .invalidStoredRecord => errorResponse crates "503 Service Unavailable" .unavailable
  | .admission (.unknownService _) | .replay .replayDetected | .replay .requestIdConflict
  | .replay .invalidTimestamp | .signature _ => authenticationRejected crates

/-- `authenticate_governed_request`, with the gate that is asked. -/
def authenticateGovernedRequest
    (gate : SignedServiceRequest → ℤ → Fallible ServiceRequestGateError AdmittedServiceRequest)
    (request : GovernedHttpRequest) (now : ℤ) : Sql (Except Response AdmittedServiceRequest) :=
  match request.intoSigned crates.toCrates with
  | .error _ => .done (.error (authenticationRejected crates))
  | .ok signed =>
    (gate signed now).run.bind fun answer => .done (answer.mapError (gateErrorResponse crates))

end

end InfernalLaw
