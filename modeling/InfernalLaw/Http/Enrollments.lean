import InfernalLaw.Http.MutatingHandlers
import InfernalLaw.Infrastructure.KubernetesTokenReviewer

/-!
# Enrollment over HTTP

The two routes that are not behind the gate: a workload is issued a challenge, and enrolls as an
instance. A rejection says nothing about its reason.
-/

namespace InfernalLaw

/-! ## Bodies -/

/-- `WorkloadChallengeRequest`. -/
structure WorkloadChallengeRequest where
  podUid : Str
  workloadToken : Str
  deriving DecidableEq

/-- The functions of other crates that the server uses. -/
structure ServerCrates extends MutationCrates, EnrollmentDtoCrates where
  /-- `serde_json::from_slice`, for an enrollment. -/
  enrollmentSubmissionRequest : List UInt8 → Option EnrollmentSubmissionRequest
  /-- `serde_json::from_slice`, for a challenge. -/
  workloadChallengeRequest : List UInt8 → Option WorkloadChallengeRequest
  /-- `serde_json::to_string`, for an object whose only field is a list of objects. -/
  toJsonList : String → List JsonObject → Option Str

/-- `EnrollmentErrorResponse`. -/
structure EnrollmentErrorResponse where
  code : String
  message : String
  deriving DecidableEq

namespace EnrollmentErrorResponse

/-- The object that is written for an error. -/
def toObject (e : EnrollmentErrorResponse) : JsonObject :=
  [("code", .string e.code.toList), ("message", .string e.message.toList)]

/-- `malformed_request`. -/
def malformedRequest : EnrollmentErrorResponse :=
  ⟨"invalid_enrollment_request", "enrollment request is invalid"⟩

/-- `from_enrollment_error`. -/
def fromEnrollmentError : EnrollmentError → EnrollmentErrorResponse
  | .audienceMismatch | .bindingDisabled | .bindingNotFound | .challengeRejected | .invalidProof
  | .podMismatch | .serviceMismatch | .tokenRejected =>
    ⟨"enrollment_rejected", "enrollment authentication was rejected"⟩
  | .invalidField => malformedRequest
  | .registry _ | .repository _ => ⟨"internal_error", "enrollment could not be completed"⟩

/-- The status of the response to a failed enrollment. -/
def status (e : EnrollmentErrorResponse) : String :=
  if e.code = "enrollment_rejected" then "401 Unauthorized"
  else if e.code = "invalid_enrollment_request" then "400 Bad Request"
  else "503 Service Unavailable"

end EnrollmentErrorResponse

/-- `EnrollmentChallengeResponse`. -/
structure EnrollmentChallengeResponse where
  serviceId : Str
  challenge : Str
  audience : Str
  expiresAt : ℤ
  deriving DecidableEq

/-- The object that is written for a challenge. -/
def EnrollmentChallengeResponse.toObject (r : EnrollmentChallengeResponse) : JsonObject :=
  [("service_id", .string r.serviceId), ("challenge", .string r.challenge),
    ("audience", .string r.audience), ("expires_at", .number r.expiresAt)]

section

variable (crates : ServerCrates)

/-- `EnrollmentChallengeResponse::new`. -/
def EnrollmentChallengeResponse.new (serviceId : ActorId) (challenge : EnrollmentChallenge)
    (issuedAt : ℤ) : Except EnrollmentDtoError EnrollmentChallengeResponse :=
  if 2 ^ 63 ≤ issuedAt + Enrollment.challengeLifetimeSeconds ∨ issuedAt < 0 then
    .error .invalidTimestamp
  else
    .ok
      { serviceId := crates.displayUuid serviceId.uuid
        challenge := crates.encodeUrlSafe challenge.bytes.bytes
        audience := Enrollment.audience, expiresAt := issuedAt +
        Enrollment.challengeLifetimeSeconds }

/-- `json_error`. -/
def jsonError (status : String) (e : EnrollmentErrorResponse) : Response :=
  jsonResponse crates.toHttpCrates status e.toObject

/-! ## Parsing -/

/-- What the two routes check of a body before they read it. -/
def checkEnrollmentBody (contentType : Option Str) (body : List UInt8) : Except Response Unit :=
  if maxEnrollmentBodyBytes < body.length then
    .error (jsonError crates "413 Payload Too Large" .malformedRequest)
  else if contentType.any isJsonContentType = false then
    .error (jsonError crates "415 Unsupported Media Type" .malformedRequest)
  else .ok ()

/-- `parse_enrollment_request`. -/
def parseEnrollmentRequest (contentType : Option Str) (body : List UInt8) :
    Except Response EnrollmentRequest := do
  checkEnrollmentBody crates contentType body
  match crates.enrollmentSubmissionRequest body with
  | none => .error (jsonError crates "400 Bad Request" .malformedRequest)
  | some dto =>
    (dto.intoDomain crates.toEnrollmentDtoCrates).mapError fun _ =>
      jsonError crates "400 Bad Request" .malformedRequest

/-- `parse_workload_challenge_request`. -/
def parseWorkloadChallengeRequest (contentType : Option Str) (body : List UInt8) :
    Except Response WorkloadChallengeRequest := do
  checkEnrollmentBody crates contentType body
  match crates.workloadChallengeRequest body with
  | none => .error (jsonError crates "400 Bad Request" .malformedRequest)
  | some dto => .ok dto

/-! ## The handlers -/

/-- The response to an enrollment that failed. -/
def enrollmentFailure (e : EnrollmentError) : Response :=
  jsonError crates (EnrollmentErrorResponse.fromEnrollmentError e).status (.fromEnrollmentError e)

/-- `issue_workload_challenge`, with the challenge that the random source gives. -/
def issueWorkloadChallenge (reviewer : WorkloadTokenReviewer) (challenge : EnrollmentChallenge)
    (request : WorkloadChallengeRequest) (now : ℤ) : Sql Response :=
  (EnrollmentService.issueChallengeForWorkload crates.toKeyCrates reviewer challenge
    request.workloadToken request.podUid now).run.bind fun
    | .ok (serviceId, challenge) =>
      match EnrollmentChallengeResponse.new crates serviceId challenge now with
      | .ok body => .done (jsonResponse crates.toHttpCrates "201 Created" body.toObject)
      | .error _ =>
        .done (jsonError crates "503 Service Unavailable" (.fromEnrollmentError .invalidField))
    | .error e => .done (enrollmentFailure crates e)

/-- `authenticate_enrollment`. -/
def authenticateEnrollment (reviewer : WorkloadTokenReviewer) (policy : LeasePolicy)
    (request : EnrollmentRequest) (now : ℤ) : Sql Response :=
  (EnrollmentService.authenticateAndRegister crates.toKeyCrates reviewer policy request
    now).run.bind fun
    | .ok registered =>
      .done (jsonResponse crates.toHttpCrates "201 Created"
        (registered.toObject crates.toMutationCrates))
    | .error e => .done (enrollmentFailure crates e)

end

end InfernalLaw
