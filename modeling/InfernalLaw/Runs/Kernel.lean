import InfernalLaw.Http.Arrival
import InfernalLaw.Http.HeaderText
import InfernalLaw.Http.Server
import InfernalLaw.Infrastructure.HandshakeRepository
import InfernalLaw.Infrastructure.IdentityRepository
import InfernalLaw.Infrastructure.Registrar
import InfernalLaw.Infrastructure.SchemaVersions
import InfernalLaw.Runs.SafeRetries

/-!
# The kernel and its administration

All that writes to the database: the connections of the server, the handshakes that it initiates,
the services that administer identities, enrollment, instances and authority, and the registrar.
-/

namespace InfernalLaw.Kernel

open Postgres (System)

/-- An operation. What it draws from outside of the database is among its arguments. -/
inductive Op where
  /-- `handle_connection`, for the bytes that arrive. -/
  | connection (draws : ConnectionDraws) (stream : List UInt8)
  /-- `IdentityService::create`. -/
  | createIdentity (id : ActorId) (kind : ActorKind) (displayName : Str) (transactionTime : ℤ)
  /-- `IdentityService::rename`. -/
  | renameIdentity (id : ActorId) (displayName : Str)
  /-- `IdentityService::disable`. -/
  | disableIdentity (id : ActorId)
  /-- `EnrollmentBindingRepository::insert_disabled`. -/
  | insertBinding (binding : EnrollmentBinding)
  /-- `EnrollmentBindingRepository::set_enabled`. -/
  | setBindingEnabled (serviceId : ActorId) (enabled : Bool)
  /-- `InstanceRegistryService::revoke`. -/
  | revokeInstance (id : InstanceId) (now : ℤ)
  /-- `HandshakeReconciler::reconcile`. -/
  | reconcileHandshakes (call : HandshakeReconciler)
  /-- `set_service_communication_admission`. -/
  | setAdmission (request : AdmissionRequest)
  /-- `set_authority_schema_status`. -/
  | setSchemaStatus (id : SchemaVersionId) (status : SchemaStatus)
      (administratorIdentity reason : Str)
    (correlationId : Uuid) (changedAt : ℤ)
  /-- `create_authority_grant`. -/
  | createGrant (row : GrantRow)
  /-- `revoke_authority_grant`. -/
  | revokeGrant (id : GrantId) (administratorIdentity reason : Str) (correlationId : Uuid)
    (revokedAt : ℤ)
  /-- `reconcile` of the registrar. -/
  | reconcile (registrar : Registrar) (manifest : Manifest)
  /-- `prune` of the registrar. -/
  | prune (registrar : Registrar) (manifest : Manifest) (draw : ℕ → Uuid)

variable (crates : ServerCrates) (app : Application)

/-- What an operation runs. A connection ends with its response. -/
def program : Op → Sql (Option Response)
  | .connection draws stream => (handleConnection crates app draws stream).bind fun r =>
      .done (some r)
  | .createIdentity id kind displayName transactionTime =>
    (IdentityService.create id kind displayName transactionTime).run.bind fun _ => .done none
  | .renameIdentity id displayName =>
    (IdentityService.rename id displayName).run.bind fun _ => .done none
  | .disableIdentity id => (IdentityService.disable id).run.bind fun _ => .done none
  | .insertBinding binding =>
    (PostgresEnrollmentBindingRepository.insertDisabled binding).run.bind fun _ => .done none
  | .setBindingEnabled serviceId enabled =>
    (PostgresEnrollmentBindingRepository.setEnabled serviceId enabled).run.bind fun _ => .done none
  | .revokeInstance id now =>
    (InstanceRegistryService.revoke crates.toMutationCrates.toKeyCrates id now).bind
      fun _ => .done none
  | .reconcileHandshakes call =>
    (call.reconcile crates.toMutationCrates.toKeyCrates).run.bind fun _ => .done none
  | .setAdmission request =>
    (callFunction (setServiceCommunicationAdmission request)).bind fun _ => .done none
  | .setSchemaStatus id status administratorIdentity reason correlationId changedAt =>
    (callFunction (setAuthoritySchemaStatus id status administratorIdentity reason correlationId
      changedAt)).bind fun _ => .done none
  | .createGrant row => (callFunction (createAuthorityGrant row)).bind fun _ => .done none
  | .revokeGrant id administratorIdentity reason correlationId revokedAt =>
    (callFunction (revokeAuthorityGrant id administratorIdentity reason correlationId
      revokedAt)).bind fun _ => .done none
  | .reconcile registrar manifest => (registrar.reconcile manifest).run.bind fun _ => .done none
  | .prune registrar manifest draw => (registrar.prune manifest draw).run.bind fun _ => .done none

/-- Any number of operations at a time, over one database. -/
abbrev system : System Db Write Key Op (Option Response) := kernelSystem (program crates app)

/-- The database that the migrations leave: the reserved identity, with the admission that the
trigger initialises, and the reserved schema versions. -/
def migrated (artifact permissionPolicy : Bytes32) (transactionTime : ℤ) : Db where
  identityRows := [⟨⟨0⟩, .service, "reserved: kernel schema registry".toList, .active⟩]
  admissions := [⟨⟨0⟩, false, 0, transactionTime⟩]
  schemaVersions := [reservedArtifactSchema artifact,
    reservedPermissionPolicySchema permissionPolicy]

/-! ## A publication -/

open SafeRetries (examplePublication exampleDigest exampleMutationCrates)

/-- The key of the instance that sends it. -/
def exampleSenderKey : Bytes32 where
  bytes :=
    [3, 161, 7, 191, 243, 206, 16, 190, 29, 112, 221, 24, 231, 75, 192, 153, 103, 228, 214, 48, 155,
      165, 13, 95, 29, 220, 134, 100, 18, 85, 49, 184]
  length_eq := rfl

/-- The digest of the body. -/
def examplePublicationDigest : Bytes32 where
  bytes :=
    [203, 38, 219, 146, 56, 116, 110, 188, 66, 165, 17, 141, 46, 211, 17, 6, 69, 53, 184, 78, 194,
      58, 160, 9, 122, 240, 220, 65, 62, 17, 244, 71]
  length_eq := rfl

/-- The digest of the text of the fingerprint. -/
def examplePublicationFingerprint : Bytes32 where
  bytes :=
    [8, 66, 174, 130, 175, 211, 80, 223, 119, 200, 143, 108, 199, 115, 68, 132, 155, 73, 96, 15,
      164, 22, 240, 59, 238, 29, 151, 135, 115, 244, 82, 38]
  length_eq := rfl

/-- The signature of the publication. -/
def examplePublicationSignature : Bytes64 where
  bytes :=
    [210, 196, 118, 118, 169, 107, 75, 152, 202, 13, 210, 179, 2, 157, 197, 144, 150, 23, 51, 52,
      30, 116, 115, 84, 212, 79, 107, 93, 120, 66, 240, 192, 244, 97, 211, 120, 184, 151, 71, 9,
      241, 165, 158, 49, 252, 33, 101, 145, 106, 93, 64, 202, 4, 155, 125, 14, 173, 29, 223, 213,
      89, 142, 228, 7]
  length_eq := rfl

/-- What is sent and signed. -/
def examplePublicationParts : ServiceRequestParts where
  method := "POST".toList
  authority := "kernel.example".toList
  pathAndQuery := "/v1/authority/schemas".toList
  contentType := "application/json".toList
  body := examplePublication
  requestId := 5
  valid := by decide +kernel

/-- The digest of the body, as it is sent. -/
def examplePublicationContentDigest : Str :=
  "sha-256=:".toList ++ Framing.base64 examplePublicationDigest.bytes ++ [':']

/-- The text that is signed. -/
def examplePublicationBase : Str :=
  signatureBase exampleReadingCrates examplePublicationParts ⟨1⟩ ⟨2⟩ examplePublicationContentDigest
    exampleParameters

/-- The crates, at the texts of the publication. -/
def exampleServerCrates : ServerCrates where
  toMutationCrates :=
    { exampleMutationCrates with
      sha256 := fun m =>
        if m = examplePublication then examplePublicationDigest
        else if m = Str.asBytes "aaaaaaaaaaaaaaaa".toList then exampleNonceDigest
        else examplePublicationFingerprint
      verifyStrict := fun k m s =>
        decide (k = exampleSenderKey ∧ m = examplePublicationBase.asBytes ∧
        s = examplePublicationSignature)
      verifyingKey := fun key => decide (key = exampleSenderKey) }
  SigningKey := Unit
  verifyingKeyOf _ := exampleSenderKey
  signWith _ _ := examplePublicationSignature
  enrollmentSubmissionRequest _ := none
  workloadChallengeRequest _ := none
  toJsonList _ _ := none

/-- The headers of the publication on the wire. -/
def examplePublicationLines : List (Str × Str) :=
  [("Host".toList, " kernel.example".toList), ("Content-Type".toList, " application/json".toList),
    ("Content-Length".toList, " 107".toList),
    ("Content-Digest".toList, ' ' :: examplePublicationContentDigest),
    ("Infernal-Service-Id".toList, ' ' :: Framing.hyphenated 1),
    ("Infernal-Instance-Id".toList, ' ' :: Framing.hyphenated 2),
    ("Infernal-Request-Id".toList, ' ' :: Framing.hyphenated 5),
    ("Signature-Input".toList, " sig1=".toList ++ exampleParameters),
    ("Signature".toList,
      " sig1=:".toList ++ Framing.base64 examplePublicationSignature.bytes ++ [':'])]

/-- The bytes of the publication on the wire. -/
def examplePublicationStream : List UInt8 :=
  (headerText "POST".toList "/v1/authority/schemas".toList examplePublicationLines).asBytes ++
    headerTerminator ++ examplePublication

/-- What the headers of the publication are read as. -/
def examplePublicationHead : ParsedHead where
  method := "POST".toList
  path := "/v1/authority/schemas".toList
  headers :=
    { contentLength := some 107
      authority := some "kernel.example".toList
      contentType := some "application/json".toList
      contentDigest := some examplePublicationContentDigest
      serviceId := some (Framing.hyphenated 1)
      instanceId := some (Framing.hyphenated 2)
      requestId := some (Framing.hyphenated 5)
      signatureInput := some ("sig1=".toList ++ exampleParameters)
      signature := some ("sig1=:".toList ++ Framing.base64 examplePublicationSignature.bytes ++
        [':']) }
  contentLength := 107

/-- The request of the example is well written. -/
theorem wellWritten_examplePublication :
    WellWritten "POST".toList "/v1/authority/schemas".toList examplePublicationLines := by
  decide +kernel

/-- Its headers are read back. -/
theorem setAll_examplePublication : (ParsedHeaders.setAll examplePublicationLines).toOption =
    some examplePublicationHead.headers := by
  decide +kernel

/-- A request that is written well is read from its bytes, however they arrive. -/
theorem read_of_wellWritten {head : ParsedHead} {lines : List (Str × Str)} {body : List UInt8}
    (hwritten : WellWritten head.method head.path lines)
    (hlines : (headerText head.method head.path lines).length + 3 ≤ maxHeaderBytes)
    (hheaders : (ParsedHeaders.setAll lines).toOption = some head.headers)
    (hcontent : head.headers.contentLength.getD 0 = body.length) (hpos : 0 < body.length)
    (hbody : body.length ≤ maxEnrollmentBodyBytes) (s : Reading.Schedule) :
    readRequest s ((headerText head.method head.path lines).asBytes ++ headerTerminator ++ body) =
      .ok (head.request body) := by
  rw [readRequest_eq (hwritten.findHeaderEnd_eq body) hlines, hwritten.requestAt_eq,
    Postgres.toOption_eq_some.mp hheaders]
  simp only [bind, Except.bind, pure, Except.pure, hcontent]
  rw [if_neg (fun h => hpos.ne' h.2.2), if_neg hbody.not_gt, if_neg (lt_irrefl _), List.take_length]
  rfl

/-- The publication is read from the bytes. -/
theorem read_examplePublication (s : Reading.Schedule) : readRequest s examplePublicationStream =
    .ok (examplePublicationHead.request examplePublication) := by
  have hlength : examplePublication.length = 107 := by decide +kernel
  exact @read_of_wellWritten examplePublicationHead _ _ wellWritten_examplePublication
    (by decide +kernel) setAll_examplePublication hlength.symm (hlength ▸ by decide)
    (hlength ▸ by decide) s

/-- What the connection of the publication draws. -/
def examplePublicationDraws (n : ℕ) : ConnectionDraws where
  evaluator := Requests.exampleEvaluator
  submission := Requests.exampleDraws 110
  schemaVersionId := ⟨BitVec.ofNat 128 n⟩
  subscriptionId := ⟨BitVec.ofNat 128 n⟩
  claimId := ⟨BitVec.ofNat 128 n⟩
  decidedAt := 110
  now := 110
  arrival := fullReads
  reviewerEnvironment :=
    { var := fun _ => none, readToString := fun _ => .error "", read := fun _ => .error ""
      validCertificate := fun _ => .error "", build := fun _ => .error ""
      send := fun _ _ _ => none }
  evaluatorEnvironment :=
    { var := fun _ => none, read := fun _ => none, connect := fun _ _ => none }
  challenge := ⟨.fill 1⟩
  arrivedAt := 110

/-- The server, with the instance that it runs as. -/
def exampleApplication : Application where
  instancePublicKey := examplePublicKey
  leasePolicy := InstanceRegistry.examplePolicy

/-- A database with the sender, whose communication is enabled. -/
def exampleSender : Db :=
  { migrated (.fill 0) (.fill 0) 5 with
    identityRows := [⟨⟨0⟩, .service, "reserved: kernel schema registry".toList, .active⟩,
      ⟨⟨1⟩, .service, ['a'], .active⟩]
    admissions := [⟨⟨0⟩, false, 0, 5⟩, ⟨⟨1⟩, true, 1, 6⟩]
    serviceInstances := [⟨⟨2⟩, ⟨1⟩, "https://caller".toList, 0, 1000, 1, none⟩]
    serviceInstanceKeys := [⟨⟨3⟩, ⟨2⟩, exampleSenderKey, .fill 1, 0, none⟩] }

end InfernalLaw.Kernel
