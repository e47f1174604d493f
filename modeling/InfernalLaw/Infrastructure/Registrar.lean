import InfernalLaw.Infrastructure.AdmissionRepository
import InfernalLaw.Infrastructure.AuthorityRepository

/-!
# The registrar

`reconcile` of the registrar, which brings identities, enrollment bindings, admission and grants to
what a manifest says. Each statement is a transaction of its own. The Kubernetes API, which resolves
service accounts, and the random UUIDs that PostgreSQL draws are parameters.
-/

namespace InfernalLaw

open Postgres (DbError require)
open Postgres.Proc (Upserted autocommit ensure insert orFail query statement updateAll upsert)

/-! ## The manifest -/

/-- `GrantSpec`. -/
structure GrantSpec where
  action : Str
  scope : Str
  deriving DecidableEq

/-- `ServiceSpec`. -/
structure ServiceSpec where
  serviceId : Str
  kind : Str
  displayName : Str
  workloadNamespace : Option Str
  serviceAccount : Option Str
  communicationEnabled : Bool
  grants : List GrantSpec
  deriving DecidableEq

/-- `Manifest`. -/
structure Manifest where
  services : List ServiceSpec

/-- `RegistrarError`. -/
inductive RegistrarError where
  | configuration (detail : Str)
  | database (e : DbError)
  | kubernetes (detail : Str)
  | manifest (detail : Str)
  deriving DecidableEq

/-! ## Casts -/

/-- The value of a hexadecimal digit. -/
def hexDigitValue (c : Char) : Option ℕ :=
  if '0' ≤ c ∧ c ≤ '9' then some (c.toNat - '0'.toNat)
  else if 'a' ≤ c ∧ c ≤ 'f' then some (c.toNat - 'a'.toNat + 10)
  else if 'A' ≤ c ∧ c ≤ 'F' then some (c.toNat - 'A'.toNat + 10)
  else none

/-- The next `n` bytes of a UUID, after those in `value`, and the text that follows them. A hyphen
may stand after each group of four digits but the last. -/
def uuidDigits : ℕ → ℕ → Str → Option (ℕ × Str)
  | 0, value, rest => some (value, rest)
  | n + 1, value, high :: low :: rest => do
    let high ← hexDigitValue high
    let low ← hexDigitValue low
    uuidDigits n (value * 256 + high * 16 + low)
      (if rest.head? = some '-' ∧ n % 2 = 0 ∧ 0 < n then rest.tail else rest)
  | _, _, _ => none

/-- The cast `text::uuid`, which also accepts upper case, braces, and no hyphens. -/
def uuidIn (text : Str) : Option Uuid :=
  let braces := text.head? = some '{'
  match uuidDigits 16 0 (if braces then text.tail else text) with
  | some (value, rest) =>
    if rest = (if braces then ['}'] else []) then some (BitVec.ofNat 128 value) else none
  | none => none

example : uuidIn "{A0EEBC999C0B4EF8-BB6D6BB9-BD380A11}".toList =
    uuidIn "a0eebc99-9c0b-4ef8-bb6d-6bb9bd380a11".toList := by decide

/-- The cast `uuid::text`. -/
def uuidOut (u : Uuid) : Str := Framing.hyphenated u.toNat

/-- A digit has its value. -/
theorem hexDigitValue_hexDigit {n : ℕ} (h : n < 16) :
    hexDigitValue (Framing.hexDigit n) = some n := by
  have hall : ∀ n < 16, hexDigitValue (Framing.hexDigit n) = some n := by decide
  exact hall n h

/-- The two digits of the next byte of a number. -/
theorem uuidDigits_byte (k n : ℕ) (rest : Str) :
    uuidDigits (k + 1) (n / 256 ^ (k + 1))
        (Framing.hexDigit (n / 256 ^ k / 16 % 16) :: Framing.hexDigit (n / 256 ^ k % 16) :: rest) =
      uuidDigits k (n / 256 ^ k)
        (if rest.head? = some '-' ∧ k % 2 = 0 ∧ 0 < k then rest.tail else rest) := by
  have hvalue : n / 256 ^ (k + 1) * 256 + n / 256 ^ k / 16 % 16 * 16 + n / 256 ^ k % 16 =
      n / 256 ^ k := by
    rw [Nat.pow_succ, ← Nat.div_div_eq_div_mul]
    omega
  rw [uuidDigits, hexDigitValue_hexDigit (Nat.mod_lt _ (by decide)),
    hexDigitValue_hexDigit (Nat.mod_lt _ (by decide))]
  simp only [Option.bind_eq_bind, Option.bind_some, hvalue]

/-- A byte that another one follows. -/
theorem uuidDigits_digit (k n : ℕ) {m : ℕ} {rest : Str} :
    uuidDigits (k + 1) (n / 256 ^ (k + 1)) (Framing.hexDigit (n / 256 ^ k / 16 % 16) ::
        Framing.hexDigit (n / 256 ^ k % 16) :: Framing.hexDigit (m % 16) :: rest) =
      uuidDigits k (n / 256 ^ k) (Framing.hexDigit (m % 16) :: rest) := by
  have hne : Framing.hexDigit (m % 16) ≠ '-' :=
    (Framing.hexDigit_ne (Nat.mod_lt _ (by decide))).1
  rw [uuidDigits_byte, if_neg (by simp [hne])]

/-- A byte that a hyphen follows. -/
theorem uuidDigits_hyphen (k n : ℕ) {rest : Str} (hk : k % 2 = 0 ∧ 0 < k) :
    uuidDigits (k + 1) (n / 256 ^ (k + 1)) (Framing.hexDigit (n / 256 ^ k / 16 % 16) ::
        Framing.hexDigit (n / 256 ^ k % 16) :: '-' :: rest) = uuidDigits k (n / 256 ^ k) rest := by
  rw [uuidDigits_byte, if_pos ⟨rfl, hk⟩, List.tail_cons]

/-- The last byte of a number, after the digits of the bytes before it. -/
theorem hexDigits_byte (count k n : ℕ) : Framing.hexDigits (count + 2) (n / 256 ^ k) =
    Framing.hexDigits count (n / 256 ^ (k + 1)) ++
      [Framing.hexDigit (n / 256 ^ k / 16 % 16), Framing.hexDigit (n / 256 ^ k % 16)] := by
  have hdiv : n / 256 ^ k / 16 / 16 = n / 256 ^ (k + 1) := by
    rw [Nat.pow_succ, Nat.div_div_eq_div_mul, Nat.div_div_eq_div_mul]
  rw [Framing.hexDigits, Framing.hexDigits, hdiv, List.append_assoc]
  rfl

/-- The text of a UUID is read back. -/
theorem uuidIn_uuidOut (u : Uuid) : uuidIn (uuidOut u) = some u := by
  have hzero : u.toNat / 256 ^ 16 = 0 := Nat.div_eq_of_lt u.isLt
  have hone : u.toNat / 256 ^ 0 = u.toNat := by rw [Nat.pow_zero, Nat.div_one]
  have hbrace : (uuidOut u).head? ≠ some '{' := by
    intro h
    have hmem : '{' ∈ (uuidOut u).filter (· ≠ '-') :=
      List.mem_filter.mpr ⟨List.mem_of_mem_head? h, by decide⟩
    rw [uuidOut, Framing.filter_hyphenated] at hmem
    obtain ⟨d, hd, hc⟩ := Framing.mem_hexDigits hmem
    have hall : ∀ d < 16, '{' ≠ Framing.hexDigit d := by decide
    exact hall d hd hc
  -- The 32 digits, byte by byte.
  have hbytes := hexDigits_byte 30 0 u.toNat
  rw [hone, hexDigits_byte 28 1, hexDigits_byte 26 2, hexDigits_byte 24 3, hexDigits_byte 22 4,
    hexDigits_byte 20 5, hexDigits_byte 18 6, hexDigits_byte 16 7, hexDigits_byte 14 8,
    hexDigits_byte 12 9, hexDigits_byte 10 10, hexDigits_byte 8 11, hexDigits_byte 6 12,
    hexDigits_byte 4 13, hexDigits_byte 2 14, hexDigits_byte 0 15, Framing.hexDigits] at hbytes
  have hdigits : uuidDigits 16 (u.toNat / 256 ^ 16) (uuidOut u) = some (u.toNat, []) := by
    rw [uuidOut, Framing.hyphenated, hbytes]
    simp only [List.nil_append, List.cons_append, List.take_succ_cons, List.take_zero,
      List.drop_succ_cons, List.drop_zero]
    rw [uuidDigits_digit 15, uuidDigits_digit 14, uuidDigits_digit 13,
      uuidDigits_hyphen 12 _ (by decide), uuidDigits_digit 11,
      uuidDigits_hyphen 10 _ (by decide), uuidDigits_digit 9,
      uuidDigits_hyphen 8 _ (by decide), uuidDigits_digit 7,
      uuidDigits_hyphen 6 _ (by decide), uuidDigits_digit 5, uuidDigits_digit 4, uuidDigits_digit 3,
      uuidDigits_digit 2, uuidDigits_digit 1]
    have hlast := uuidDigits_byte 0 u.toNat []
    rw [hone] at hlast
    exact hlast
  rw [hzero] at hdigits
  simp [uuidIn, hbrace, hdigits]

/-- The cast of a parameter `$1::text::uuid`. -/
def castUuid (text : Str) : Except DbError Uuid :=
  (uuidIn text).elim
    (.error (.raised ("invalid input syntax for type uuid: \"" ++ String.ofList text ++ "\""))) .ok

/-- The `CHECK` of the column `kind`. -/
def ActorKind.ofSql (text : Str) : Option ActorKind :=
  if text = "service".toList then some .service
  else if text = "worker".toList then some .worker
  else none

/-- The identity that the manifest lists a service under. -/
def ServiceSpec.id? (s : ServiceSpec) : Option ActorId := (uuidIn s.serviceId).map ActorId.mk

/-! ## Identities -/

/-- The row that the `INSERT` of an identity proposes, and the verdict of its `CHECK`
constraints. -/
def ServiceSpec.identityRow (s : ServiceSpec) : Except DbError IdentityRow := do
  checkText s.kind
  checkText s.displayName
  let id ← castUuid s.serviceId
  require (checkTrimmed 200 s.displayName) (.checkViolation "identities_display_name_check")
  let kind ← (ActorKind.ofSql s.kind).elim (.error (.checkViolation "identities_kind_check")) .ok
  return ⟨⟨id⟩, kind, s.displayName, .active⟩

/-- `INSERT INTO identities ... ON CONFLICT (id) DO UPDATE`. -/
def upsertIdentityRow (row : IdentityRow) : Sql (Except DbError Upserted) :=
  upsert store "INSERT INTO identities ON CONFLICT (id) DO UPDATE"
    (fun d => d.identityRows.find? fun r => r.id = row.id)
    (fun _ old => .ok (if old = row then none else some row))
    (fun d => d.checkIdentity row)
    (.identities (.insert row))
    fun new => .identities (.update new)

/-- The statement, with the trigger `identities_initialize_communication_admission`, which fires for
a row that is inserted. -/
def upsertIdentity (row : IdentityRow) (transactionTime : ℤ) : PlPgSql Upserted := do
  let upserted ← perform (upsertIdentityRow row)
  match upserted with
  | .inserted => do
    let _ ← perform (insertAdmission (row.admission transactionTime))
    return .inserted
  | other => return other

/-! ## Bindings -/

/-- `INSERT INTO service_enrollment_bindings ... ON CONFLICT (service_id) DO UPDATE`. -/
def upsertBinding (row : EnrollmentBindingRow) : Sql (Except DbError Upserted) :=
  upsert store "INSERT INTO service_enrollment_bindings ON CONFLICT (service_id) DO UPDATE"
    (fun d => d.enrollmentBindings.find? fun r => r.serviceId = row.serviceId)
    (fun d old => do
      row.check
      if old = row then return none
      else do
        d.checkWorkload row
        return some row)
    (fun d => d.checkEnrollmentBinding row)
    (.enrollmentBindings (.insert row))
    fun new => .enrollmentBindings (.update new)

/-! ## Admission -/

/-- `SELECT (set_service_communication_admission(...)).*`, which names the call once for each column
of the answer. PostgreSQL may evaluate them all, each with a UUID of its own: `repeats` are those
after the first. The client reads the outcome, the last column. -/
def setAdmission (r : AdmissionRequest) (repeats : List Uuid) : PlPgSql AdmissionResult := do
  let result ← setServiceCommunicationAdmission r
  repeats.foldlM
    (fun _ correlationId => setServiceCommunicationAdmission { r with correlationId }) result

/-- The text of an outcome in SQL. -/
def AdmissionOutcome.sql : AdmissionOutcome → String
  | changed => "changed"
  | noOp => "no_op"

/-! ## Grants -/

/-- The grant is counted as live: the test under which the registrar creates no other one. -/
def GrantRow.Live (row : GrantRow) (id : ActorId) (g : GrantSpec) (now : ℤ) : Prop :=
  row.sourceServiceId = id ∧ row.action = g.action ∧ row.scope = g.scope ∧
    row.destinationServiceId = none ∧ row.revokedAt = none ∧ ∀ limit ∈ row.validUntil, now < limit

instance (row : GrantRow) (id : ActorId) (g : GrantSpec) (now : ℤ) :
    Decidable (row.Live id g now) :=
  inferInstanceAs (Decidable (_ ∧ _))

/-- `SELECT count(*) FROM authority_grants`. -/
def countLiveGrants (id : ActorId) (g : GrantSpec) (now : ℤ) : Sql (Except DbError ℕ) :=
  statement "SELECT count(*) FROM authority_grants" (fun _ _ => {}) fun d _ => do
    checkText g.action
    checkText g.scope
    return d.grants.countP fun row => row.Live id g now

/-- `NO_ARTIFACT_SCHEMA_VERSION`. -/
def noArtifactSchemaVersion : Str := "00000000-0000-0000-0000-000000000001".toList

/-- `NO_ARTIFACT_PERMISSION_POLICY_SCHEMA_VERSION`. -/
def noArtifactPermissionPolicySchemaVersion : Str := "00000000-0000-0000-0000-000000000002".toList

/-! ## Reconciliation -/

/-- What `reconcile` works with: the resolver, the administrator's name, and what the database
answers for the current time and for random UUIDs. A service is given by its place in the manifest,
and a grant by its place in the service's list. -/
structure Registrar where
  /-- `ServiceAccountResolver::uid`. -/
  resolver : Str → Str → Except RegistrarError Str
  administrator : Str
  now : ℤ
  admissionCorrelation : ℕ → Uuid
  admissionRepeats : ℕ → List Uuid
  grantId : ℕ → ℕ → GrantId
  grantCorrelation : ℕ → ℕ → Uuid

/-- What `reconcile` answers: for each service, by its display name, what was applied, in order of
the names. -/
abbrev ServiceChanges : Type := List (Str × List Str)

/-- `BTreeMap::insert`. -/
def ServiceChanges.insert (name : Str) (applied : List Str) : ServiceChanges → ServiceChanges
  | [] => [(name, applied)]
  | entry :: changes =>
    if name = entry.1 then (name, applied) :: changes
    else if name < entry.1 then (name, applied) :: entry :: changes
    else entry :: ServiceChanges.insert name applied changes

namespace Registrar

variable (r : Registrar)

/-- What the statement about the enrollment binding of a service does. -/
def reconcileBinding (id : ActorId) (s : ServiceSpec) : Fallible RegistrarError (List Str) :=
  match s.workloadNamespace, s.serviceAccount with
  | some workloadNamespace, some serviceAccount => do
    let uid ← ensure (r.resolver workloadNamespace serviceAccount)
    let upserted ← orFail .database
      (autocommit (upsertBinding ⟨id, workloadNamespace, serviceAccount, uid, true⟩))
    return if 0 < upserted.rows then ["binding -> ".toList ++ uid] else []
  | _, _ => return []

/-- The request for the admission of the service at the place `i`. -/
def admissionRequest (i : ℕ) (id : ActorId) (enabled : Bool) : AdmissionRequest where
  serviceId := id
  enabled := enabled
  administratorIdentity := r.administrator
  reason := "registrar reconciliation".toList
  correlationId := r.admissionCorrelation i
  changedAt := r.now

/-- What the statement about the admission of a service does. -/
def reconcileAdmission (i : ℕ) (id : ActorId) (s : ServiceSpec) :
    Fallible RegistrarError (List Str) := do
  let result ← orFail .database (callFunction
    (setAdmission (r.admissionRequest i id s.communicationEnabled) (r.admissionRepeats i)))
  return if result.outcome = .noOp then []
    else [("admission=" ++ toString s.communicationEnabled ++ " (" ++ result.outcome.sql ++
      ")").toList]

/-- The arguments of `create_authority_grant` for a listed grant. -/
def grantRow (i k : ℕ) (id : ActorId) (g : GrantSpec) : Except DbError GrantRow := do
  let artifact ← castUuid noArtifactSchemaVersion
  let permissionPolicy ← castUuid noArtifactPermissionPolicySchemaVersion
  return {
    grantId := r.grantId i k
    sourceServiceId := id
    action := g.action
    scope := g.scope
    artifactSchemaVersionId := ⟨artifact⟩
    permissionPolicySchemaVersionId := ⟨permissionPolicy⟩
    destinationServiceId := none
    validFrom := 0
    validUntil := none
    administratorIdentity := r.administrator
    reason := "registrar grant for ".toList ++ g.action
    correlationId := r.grantCorrelation i k
    createdAt := r.now
    revokedAt := none }

/-- What the statements about one grant do. -/
def reconcileGrant (i k : ℕ) (id : ActorId) (g : GrantSpec) :
    Fallible RegistrarError (List Str) := do
  let count ← orFail .database (autocommit (countLiveGrants id g r.now))
  if 0 < count then return []
  else do
    let row ← ensure ((r.grantRow i k id g).mapError .database)
    let _ ← orFail .database (callFunction (createAuthorityGrant row))
    return ["grant ".toList ++ g.action ++ " ".toList ++ g.scope]

/-- The loop over the grants of a service. -/
def reconcileGrants (i : ℕ) (id : ActorId) : ℕ → List GrantSpec → Fallible RegistrarError (List Str)
  | _, [] => return []
  | k, g :: grants => do
    let applied ← r.reconcileGrant i k id g
    let rest ← reconcileGrants i id (k + 1) grants
    return applied ++ rest

/-- What `reconcile` does about the service at the place `i`. -/
def reconcileService (i : ℕ) (s : ServiceSpec) : Fallible RegistrarError (List Str) := do
  let row ← ensure (s.identityRow.mapError .database)
  let identity ← orFail .database (callFunction (upsertIdentity row r.now))
  let binding ← r.reconcileBinding row.id s
  let admission ← r.reconcileAdmission i row.id s
  let grants ← r.reconcileGrants i row.id 0 s.grants
  return (if 0 < identity.rows then ["identity".toList] else []) ++ binding ++ admission ++ grants

/-- The loop over the services. -/
def reconcileServices :
    ℕ → List ServiceSpec → ServiceChanges → Fallible RegistrarError ServiceChanges
  | _, [], changes => return changes
  | i, s :: services, changes => do
    let applied ← r.reconcileService i s
    reconcileServices (i + 1) services (changes.insert s.displayName applied)

/-- `reconcile`. -/
def reconcile (manifest : Manifest) : Fallible RegistrarError ServiceChanges :=
  r.reconcileServices 0 manifest.services []

/-! ## Pruning -/

/-- The `UPDATE` that disables the enrollment bindings of the services that are not `managed`. -/
def disableBindings (managed : List Str) : Sql (Except DbError (List EnrollmentBindingRow)) :=
  updateAll "UPDATE service_enrollment_bindings SET enabled = false"
    (fun d => d.enrollmentBindings.filter fun b => b.enabled ∧ uuidOut b.serviceId.uuid ∉ managed)
    (fun d b => d.enrollmentBindings.find? fun b' => b'.serviceId = b.serviceId ∧ b'.enabled)
    (fun b => { b with enabled := false })
    fun b => .enrollmentBindings (.update b)

/-- `SELECT grant_id::text, source_service_id::text, action, scope FROM authority_grants`. -/
def unrevokedGrants : Sql (Except DbError (List (Str × Str × Str × Str))) :=
  query "SELECT grant_id::text, source_service_id::text, action, scope FROM authority_grants"
    fun d =>
    (d.grants.filter fun e => e.revokedAt = none).map fun e =>
      (uuidOut e.grantId.uuid, uuidOut e.sourceServiceId.uuid, e.action, e.scope)

/-- The grants that the manifest lists, in the manifest's own texts. -/
def wanted (manifest : Manifest) : List (Str × Str × Str) :=
  manifest.services.flatMap fun s => s.grants.map fun g => (s.serviceId, g.action, g.scope)

/-- What `prune` does about one grant, with the UUID that it draws. -/
def pruneGrant (manifest : Manifest) (correlationId : Uuid) (row : Str × Str × Str × Str) :
    Fallible RegistrarError (List Str) :=
  if row.2 ∈ wanted manifest then return []
  else do
    let id ← ensure ((castUuid row.1).mapError .database)
    let _ ← orFail .database (callFunction (revokeAuthorityGrant ⟨id⟩ r.administrator
      "registrar prune: not present in manifest".toList correlationId r.now))
    return ["grant revoked: ".toList ++ row.2.2.1 ++ " ".toList ++ row.2.2.2 ++ " for ".toList ++
      row.2.1]

/-- The loop over the grants. -/
def pruneGrants (manifest : Manifest) (draw : ℕ → Uuid) : ℕ → List (Str × Str × Str × Str) →
    Fallible RegistrarError (List Str)
  | _, [] => return []
  | k, row :: rows => do
    let removed ← r.pruneGrant manifest (draw k) row
    let rest ← pruneGrants manifest draw (k + 1) rows
    return removed ++ rest

/-- `prune`. -/
def prune (manifest : Manifest) (draw : ℕ → Uuid) : Fallible RegistrarError (List Str) := do
  let bindings ← orFail .database
    (autocommit (disableBindings (manifest.services.map ServiceSpec.serviceId)))
  let live ← orFail .database (autocommit unrevokedGrants)
  let removed ← r.pruneGrants manifest draw 0 live
  return bindings.map (fun b => "binding disabled: ".toList ++ b.serviceAccount) ++ removed

end Registrar

end InfernalLaw
