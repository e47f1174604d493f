import InfernalLaw.Infrastructure.HttpPolicyEvaluator
import InfernalLaw.Infrastructure.IdentityRepository
import InfernalLaw.Postgres.Answers
import InfernalLaw.Runs.Retries

/-!
# Text that is stored

Scopes, policy bundle versions and display names are validated by the kernel, and then stored in
columns that PostgreSQL constrains. The validations imply the constraints, but they let the
character NUL through, which no text of PostgreSQL can have: such a text is accepted, and fails at
its storage.
-/

namespace InfernalLaw

open Postgres (Avoids DbError Proc)

/-! ## Trimmed text -/

namespace Str

/-- Trimming keeps every character that is not whitespace. -/
theorem mem_trim {c : Char} (hc : isWhitespace c = false) {s : Str} : c ∈ s.trim ↔ c ∈ s := by
  have hdrop : ∀ t : Str, c ∈ t.dropWhile isWhitespace ↔ c ∈ t := by
    intro t
    refine ⟨fun h => (List.dropWhile_suffix _).subset h, fun h => ?_⟩
    rw [← List.takeWhile_append_dropWhile (p := isWhitespace) (l := t), List.mem_append] at h
    refine h.resolve_left fun h => ?_
    rw [List.mem_takeWhile_imp h] at hc
    cases hc
  unfold trim List.rdropWhile
  rw [List.mem_reverse, hdrop, List.mem_reverse, hdrop]

end Str

/-! ## The columns -/

/-- A display name that was checked satisfies the constraint of its column. -/
theorem checkTrimmed_of_validateDisplayName {displayName checked : Str}
    (h : validateDisplayName displayName = .ok checked) : checkTrimmed 200 checked := by
  unfold validateDisplayName at h
  split at h
  · rename_i hvalid
    rw [← Except.ok.inj h]
    simp only [isValidDisplayName, Bool.and_eq_true, Bool.not_eq_true', List.isEmpty_eq_false_iff,
      decide_eq_true_eq] at hvalid
    rw [checkTrimmed, Str.btrim_of_trim (Str.trim_trim displayName)]
    exact ⟨List.length_pos_iff.mpr hvalid.1, hvalid.2⟩
  · cases h

/-- A display name that was checked has the NULs that it had before. -/
theorem nul_mem_of_validateDisplayName {displayName checked : Str}
    (h : validateDisplayName displayName = .ok checked) : '\x00' ∈ checked ↔
      '\x00' ∈ displayName := by
  unfold validateDisplayName at h
  split at h
  · rw [← Except.ok.inj h, Str.mem_trim (by decide)]
  · cases h

/-- The error is about a text: that it cannot be stored, or that a constraint of its column does not
hold. -/
def RefusesText : DbError → Prop
  | .invalidText => True
  | .checkViolation constraint => constraint ∈ ["authority_decisions_scope_check",
      "accepted_requests_scope_check", "identities_display_name_check"]
  | _ => False

/-- Where a text can be stored, its check reports nothing. -/
theorem avoids_checkText {value : Str} (h : '\x00' ∉ value) :
    Avoids RefusesText (checkText value) := .require fun hnot => absurd h hnot

/-- A decision is not refused for its texts. -/
theorem Db.avoids_checkDecision {d : Db} {decision : AuthorityDecision}
    (hscope : '\x00' ∉ decision.facts.scope.text)
    (hversion : ∀ version ∈ decision.policyBundleVersion, '\x00' ∉ version.text) :
    Avoids RefusesText (d.checkDecision decision.row) := by
  have hversionCheck : Avoids RefusesText
      (decision.row.policyBundleVersion.elim (.ok ()) checkText) := by
    unfold AuthorityDecision.row
    dsimp only
    cases h : decision.policyBundleVersion with
    | none => exact .ok
    | some version => exact avoids_checkText (hversion version h)
  unfold Db.checkDecision
  refine .bind (avoids_checkText hscope) fun _ _ => .bind hversionCheck fun _ _ => ?_
  refine .bind (.require fun _ => by simp [RefusesText]) fun _ _ => ?_
  refine .bind (.require fun _ => by simp [RefusesText]) fun _ _ => ?_
  refine .bind (.require fun hnot => absurd decision.facts.scope.check hnot) fun _ _ => ?_
  refine .bind (.require fun _ => id) fun _ _ => ?_
  refine .bind (.require fun _ => id) fun _ _ => .bind (.require fun _ => id) fun _ _ => ?_
  refine .bind (.require fun _ => id) fun _ _ => .bind (.require fun _ => id) fun _ _ => ?_
  exact .require fun _ => id

/-- A request is not refused for its scope. -/
theorem Request.avoids_check {request : Request} (h : '\x00' ∉ request.scope.text)
    (fingerprint : RequestFingerprint) (now : ℤ) :
    Avoids RefusesText (request.row fingerprint now).check := by
  unfold AcceptedRequestRow.check
  refine .bind (avoids_checkText h) fun _ _ => .bind (.require fun _ => by simp [RefusesText]) ?_
  exact fun _ _ => .require fun hnot => absurd request.scope.check hnot

/-- An identity is not refused for its name. -/
theorem Identity.avoids_check {identity : Identity} (h : '\x00' ∉ identity.displayName) {d : Db} :
    Avoids RefusesText (d.checkIdentity identity.row) ∧
      Avoids RefusesText (changeIdentity identity.row) := by
  have hname : checkTrimmed 200 identity.row.displayName :=
    checkTrimmed_of_validateDisplayName identity.displayName_valid
  refine ⟨?_, ?_⟩
  · unfold Db.checkIdentity
    refine .bind (avoids_checkText h) fun _ _ => ?_
    exact .bind (.require fun hnot => absurd hname hnot) fun _ _ => .require fun _ h => h
  · unfold changeIdentity
    refine .bind (avoids_checkText h) fun _ _ => ?_
    exact .bind (.require fun hnot => absurd hname hnot) fun _ _ => .ok

/-! ## The answers -/

/-- The answer does not report that a text is refused, where `error` reports an error of the
database. -/
def KeepsText {ε α : Type} (error : DbError → ε) (a : Except ε α) : Prop :=
  ∀ e, a = .error (error e) → ¬ RefusesText e

section Answers

variable {ε α β : Type} {error : DbError → ε}

/-- A result refuses no text. -/
theorem KeepsText.ok {a : α} : KeepsText error (.ok a : Except ε α) := fun _ h => by cases h

/-- Nor does an error of the database that is about something else. -/
theorem KeepsText.database (herror : Function.Injective error) {e : DbError} (h : ¬ RefusesText e) :
    KeepsText error (.error (error e) : Except ε α) := by
  intro e' he
  rwa [← herror (Except.error.inj he)]

/-- Nor does an error that does not come from the database. -/
theorem KeepsText.other {er : ε} (h : ∀ e, er ≠ error e) :
    KeepsText error (.error er : Except ε α) := fun e he => absurd (Except.error.inj he) (h e)

/-- An error is reported as it is by what follows. -/
theorem KeepsText.cast {er : ε} (h : KeepsText error (.error er : Except ε α)) :
    KeepsText error (.error er : Except ε β) := fun e he => h e (congrArg _ (Except.error.inj he))

end Answers

section Authority

variable {evaluator : PolicyEvaluator} {decisionId : DecisionId} {facts : PolicyFacts} {now : ℤ}
  {decision : AuthorityDecision}

/-- The error of the database can be told from the authority's. -/
theorem AuthorityError.ofDatabase_injective : Function.Injective AuthorityError.ofDatabase :=
  fun _ _ h => Failure.database.inj (AuthorityError.repository.inj h)

/-- A stored grant that cannot be read is no error of the database. -/
theorem grantFromRow_ne_ofDatabase {row : GrantRow} {er : AuthorityError}
    (h : grantFromRow row = .error er) : ∀ e, er ≠ .ofDatabase e := by
  rintro e rfl
  simp only [grantFromRow, Postgres.bind_eq_error, Postgres.elim_eq_error] at h
  rcases h with ⟨-, h⟩ | ⟨_, -, ⟨-, h⟩ | ⟨_, -, h⟩⟩
  · cases h
  · cases h
  · unfold Grant.restore at h
    split at h <;> cases h

/-- A decision whose texts can be stored is not refused for them. -/
theorem Authority.ends_record (hscope : '\x00' ∉ decision.facts.scope.text)
    (hversion : ∀ version ∈ decision.policyBundleVersion, '\x00' ∉ version.text) :
    (PostgresAuthorityRepository.record decision).run.Ends
      (KeepsText AuthorityError.ofDatabase) := by
  refine .orFail (.autocommit (.database AuthorityError.ofDatabase_injective id)
    (.insert (.database AuthorityError.ofDatabase_injective id) fun d => ?_))
  exact (Db.avoids_checkDecision hscope hversion).mapError AuthorityError.ofDatabase_injective

/-- The search for grants is not refused for a scope that can be sent. -/
theorem Authority.ends_matchingGrants (hscope : '\x00' ∉ facts.scope.text) :
    (PostgresAuthorityRepository.matchingGrants facts now).run.Ends
      (KeepsText AuthorityError.ofDatabase) := by
  refine .orFail_bind (.autocommit (.database AuthorityError.ofDatabase_injective id) (.statement
    (.database AuthorityError.ofDatabase_injective id) fun _ d => ?_))
  rw [checkText_eq_ok.mpr hscope]
  intro e he
  exact absurd rfl (Postgres.error_of_mapM (P := fun er => ∀ e, er ≠ .ofDatabase e)
    (fun _ _ => grantFromRow_ne_ofDatabase) he e)

/-- An authorization whose texts can be stored is not refused for them. -/
theorem Authority.ends_authorize (hscope : '\x00' ∉ facts.scope.text)
    (hversion : ∀ grants evaluation, evaluator.evaluate facts grants = .ok evaluation →
      '\x00' ∉ evaluation.policyBundleVersion.text) :
    (AuthorityService.authorize evaluator decisionId facts now).Ends
      (KeepsText AuthorityError.ofDatabase) := by
  refine .run_bind ((Authority.ends_matchingGrants hscope).mono fun r hr => ?_)
  cases r with
  | error er => exact hr.cast
  | ok grants =>
    dsimp only
    refine .run_bind ((Authority.ends_record hscope ?_).mono fun r hr => ?_)
    · intro version hmem
      cases hevaluate : evaluator.evaluate facts grants with
      | error _ =>
        rw [hevaluate] at hmem
        cases hmem
      | ok evaluation =>
        rw [hevaluate] at hmem
        rw [← Option.some.inj hmem]
        exact hversion grants evaluation hevaluate
    · cases r with
      | error er => exact hr.cast
      | ok _ => exact .ok

/-- The search for grants fails with the scope that cannot be sent, whatever is stored. -/
theorem Authority.ends_authorize_nul (facts : PolicyFacts)
    (hscope : '\x00' ∈ facts.scope.text) :
    (AuthorityService.authorize evaluator decisionId facts now).Ends fun a =>
      ∃ e, a = .error (.ofDatabase e) := by
  have htext : checkText facts.scope.text = .error .invalidText := if_neg (not_not.mpr hscope)
  refine .run_bind (.orFail_bind (.autocommit ⟨_, rfl⟩ (.statement ⟨_, rfl⟩ fun _ d => ?_)))
  rw [htext]
  exact ⟨_, rfl⟩

/-- An authorization is not refused for its scope exactly when the scope can be stored. -/
theorem Authority.ends_authorize_iff
    (hversion : ∀ grants evaluation, evaluator.evaluate facts grants = .ok evaluation →
      '\x00' ∉ evaluation.policyBundleVersion.text) :
    (AuthorityService.authorize evaluator decisionId facts now).Ends
      (KeepsText AuthorityError.ofDatabase) ↔ '\x00' ∉ facts.scope.text := by
  refine ⟨fun hends hnul => ?_, fun hscope => Authority.ends_authorize hscope hversion⟩
  have hanswer := hends.exec (S := store) {} []
  rw [Requests.exec_authorize, Authority.matched_eq, if_pos hnul] at hanswer
  exact hanswer _ rfl trivial

/-- A decision is not refused for the version of its bundle exactly when that can be stored. -/
theorem Authority.ends_record_iff (hscope : '\x00' ∉ decision.facts.scope.text)
    {version : PolicyBundleVersion} (hversion : decision.policyBundleVersion = some version) :
    (PostgresAuthorityRepository.record decision).run.Ends (KeepsText AuthorityError.ofDatabase) ↔
      '\x00' ∉ version.text := by
  constructor
  · intro hends hnul
    have hcheck : Db.checkDecision {} decision.row = .error .invalidText := by
      have hrow : decision.row.policyBundleVersion = some version.text := by
        rw [AuthorityDecision.row, hversion]
        rfl
      have htext : checkText version.text = .error .invalidText := if_neg (not_not.mpr hnul)
      unfold Db.checkDecision
      rw [hrow, Option.elim_some, htext,
        show checkText decision.row.scope = .ok () from checkText_eq_ok.mpr hscope]
      rfl
    have hanswered : (PostgresAuthorityRepository.record decision >>= fun _ =>
        pure decision).run.Ends (KeepsText AuthorityError.ofDatabase) := by
      refine .run_bind (hends.mono fun r hr => ?_)
      cases r with
      | error er => exact hr.cast
      | ok _ => exact .ok
    have hanswer := hanswered.exec (S := store) {} []
    rw [Requests.exec_record, hcheck] at hanswer
    exact hanswer _ rfl trivial
  · intro hnul
    refine Authority.ends_record hscope fun version' hmem => ?_
    rw [hversion] at hmem
    rwa [← Option.some.inj hmem]

end Authority

section Requests

variable {request : Request} {fingerprint : RequestFingerprint} {now : ℤ}

/-- It can be told from the requests' error. -/
theorem RequestError.ofDatabase_injective : Function.Injective RequestError.ofDatabase :=
  fun _ _ h => Failure.database.inj (RequestError.repository.inj h)

/-- A stored request that cannot be read is no error of the database. -/
theorem acceptedRequestFromRow_ne_ofDatabase {row : AcceptedRequestRow} {er : RequestError}
    (h : acceptedRequestFromRow row = .error er) : ∀ e, er ≠ .ofDatabase e := by
  rintro e rfl
  simp only [acceptedRequestFromRow, Postgres.bind_eq_error, Postgres.elim_eq_error,
    Postgres.mapError_eq_error] at h
  rcases h with ⟨-, h⟩ | ⟨_, -, ⟨_, -, h⟩ | ⟨_, -, _, -, h⟩⟩ <;> cases h

/-- Nor is the conclusion of an acceptance refused for a text. -/
theorem Requests.ends_conclude {outcome : AcceptanceOutcome}
    {answer : Except RequestError RequestAcceptance}
    (h : KeepsText RequestError.ofDatabase answer) :
    (PostgresRequestRepository.conclude request fingerprint outcome answer).run.Ends
      (KeepsText RequestError.ofDatabase) := by
  have haudit : ∀ d : Db, Avoids RefusesText
      (d.referencesAcceptanceAudit (request.auditRow fingerprint outcome)) :=
    fun d => .require fun _ h => h
  refine .orFail_bind (.insert (.database RequestError.ofDatabase_injective id) fun d => ?_)
  cases hd : d.referencesAcceptanceAudit (request.auditRow fingerprint outcome) with
  | error e => exact .database RequestError.ofDatabase_injective (haudit d e hd)
  | ok _ => exact .orFail_bind (.commitNow (.database RequestError.ofDatabase_injective id) h)

/-- What is reported of an insert as an error of the database is that error. -/
theorem RequestError.ofInsert_eq_ofDatabase {source : ActorId} {e e' : DbError}
    (h : RequestError.ofInsert source e = .ofDatabase e') : e = e' := by
  unfold ofInsert at h
  split at h
  · cases h
  · cases h
  · cases h
  · exact RequestError.ofDatabase_injective h

/-- The insert of a request with a scope that can be stored is not refused for it. -/
theorem Requests.avoids_insert (hscope : '\x00' ∉ request.scope.text) {conflict : Bool} {d : Db} :
    Avoids RefusesText ((request.row fingerprint now).check.bind fun _ =>
      if conflict then .ok 0
      else (d.referencesAcceptedRequest (request.row fingerprint now)).map fun _ => 1) := by
  refine .bind (Request.avoids_check hscope fingerprint now) fun _ _ => ?_
  have hreferences : Avoids RefusesText
      (d.referencesAcceptedRequest (request.row fingerprint now)) :=
    .bind (.require fun _ h => h) fun _ _ => .bind (.require fun _ h => h) fun _ _ =>
      .require fun _ h => h
  split
  · exact .ok
  · cases hd : d.referencesAcceptedRequest (request.row fingerprint now) with
    | error e =>
      intro e' he
      rw [← Except.error.inj he]
      exact hreferences e hd
    | ok _ => exact .ok

/-- An acceptance of a request with a scope that can be stored is not refused for it. -/
theorem Requests.ends_accept (hscope : '\x00' ∉ request.scope.text) :
    (PostgresRequestRepository.accept request fingerprint now).Ends
      (KeepsText RequestError.ofDatabase) := by
  have hinsert : ∀ e, ¬ RefusesText e → KeepsText RequestError.ofDatabase
      (.error (.ofInsert request.sourceService e) : Except RequestError RequestAcceptance) := by
    intro e h e' he
    rwa [← RequestError.ofInsert_eq_ofDatabase (Except.error.inj he)]
  refine .transaction (.orFail_bind (.insertOrNothing (hinsert _ id) fun d => ?_))
  split
  · split
    · exact .ensure_bind (fun er her => .other (acceptedRequestFromRow_ne_ofDatabase her))
        fun stored _ => Requests.ends_conclude .ok
    · refine .orFail_bind (.query (.database RequestError.ofDatabase_injective id) fun d => ?_)
      dsimp only
      refine .ensure_bind (fun er her => ?_) fun row _ => ?_
      · rw [← (Postgres.elim_eq_error.mp her).2]
        exact .other fun _ h => by cases h
      · refine .ensure_bind (fun er her => .other (acceptedRequestFromRow_ne_ofDatabase her))
          fun stored _ => ?_
        split
        · exact Requests.ends_conclude (.other fun _ h => by cases h)
        · exact Requests.ends_conclude .ok
  · rename_i e he
    exact hinsert e (Requests.avoids_insert hscope e he)

/-- An acceptance is not refused for the scope exactly when the scope can be stored. -/
theorem Requests.ends_accept_iff :
    (PostgresRequestRepository.accept request fingerprint now).Ends
      (KeepsText RequestError.ofDatabase) ↔ '\x00' ∉ request.scope.text := by
  refine ⟨fun hends hnul => ?_, Requests.ends_accept⟩
  have hcheck : (request.row fingerprint now).check = .error .invalidText := by
    have htext : checkText (request.row fingerprint now).scope = .error .invalidText :=
      if_neg (not_not.mpr hnul)
    rw [AcceptedRequestRow.check, htext]
    rfl
  have hanswer := hends.exec (S := store) {} []
  unfold PostgresRequestRepository.accept at hanswer
  rw [Proc.exec_transaction, Proc.exec_orFail_bind, PostgresRequestRepository.insertRequest,
    Proc.insertOrNothing, Proc.exec_statement, hcheck] at hanswer
  exact hanswer _ rfl trivial

end Requests

section Identities

variable {identity : Identity} {id : ActorId} {kind : ActorKind} {displayName : Str} {time : ℤ}

/-- And from the identities'. -/
theorem IdentityError.ofDatabase_injective : Function.Injective IdentityError.ofDatabase :=
  fun _ _ h => Failure.database.inj (IdentityError.repository.inj h)

/-- What is reported of the insert of an identity is about a text only if the error is. -/
theorem PostgresIdentityRepository.keepsText_ofInsert {α : Type} {e : DbError}
    (h : ¬ RefusesText e) :
    KeepsText IdentityError.ofDatabase (.error (ofInsert id e) : Except IdentityError α) := by
  unfold ofInsert
  split
  · exact .other fun _ h => by cases h
  · exact .database IdentityError.ofDatabase_injective h

/-- Storing an identity with a name that can be stored is not refused for it. -/
theorem PostgresIdentityRepository.ends_insert (h : '\x00' ∉ identity.displayName) :
    (PostgresIdentityRepository.insert identity time).run.Ends
      (KeepsText IdentityError.ofDatabase) := by
  have hfail : ∀ e : DbError, ¬ RefusesText e → KeepsText IdentityError.ofDatabase
      (((.error e : Except DbError Unit)).mapError (ofInsert identity.id)) :=
    fun _ h => keepsText_ofInsert h
  have hadmission : ∀ d : Db, Avoids RefusesText
      (d.checkAdmission (identity.row.admission time)) := by
    intro d
    refine .bind (.bind (.require fun _ => by simp [RefusesText]) fun _ _ => ?_) fun _ _ => ?_
    · exact .require fun _ => by simp [RefusesText]
    · exact .bind (.require fun _ h => h) fun _ _ => .require fun _ h => h
  refine .orFail (.autocommit (hfail _ fun h => h)
    (.orFail_bind (.insert (hfail _ fun h => h) fun d => ?_)))
  cases hd : d.checkIdentity identity.row with
  | error e => exact hfail e ((Identity.avoids_check h).1 e hd)
  | ok _ =>
    refine .orFail (.insert (hfail _ fun h => h) fun d => ?_)
    cases hd : d.checkAdmission (identity.row.admission time) with
    | error e => exact hfail e (hadmission d e hd)
    | ok _ => exact .ok

/-- Nor is saving one. -/
theorem PostgresIdentityRepository.ends_save (h : '\x00' ∉ identity.displayName) :
    (PostgresIdentityRepository.save identity).run.Ends (KeepsText IdentityError.ofDatabase) := by
  refine .orFail_bind (.autocommit (.database IdentityError.ofDatabase_injective fun h => h)
    (.update (.database IdentityError.ofDatabase_injective fun h => h) ?_ fun d r old _ => ?_))
  · exact .other fun _ h => by cases h
  · cases hc : changeIdentity identity.row with
    | error e =>
      have hkeeps : KeepsText IdentityError.ofDatabase
          (.error (.ofDatabase e) : Except IdentityError Unit) :=
        .database IdentityError.ofDatabase_injective
          ((Identity.avoids_check (d := {}) h).2 e hc)
      exact hkeeps
    | ok _ => exact .ok

/-- What a name that was checked makes of an identity. -/
theorem Identity.exists_restore {checked : Str} (id : ActorId) (kind : ActorKind)
    (status : IdentityStatus) (h : validateDisplayName displayName = .ok checked) : ∃ identity,
      Identity.restore id kind displayName status = .ok identity ∧
      identity.displayName = checked := by
  unfold Identity.restore
  split
  · rename_i checked' hchecked
    exact ⟨_, rfl, Except.ok.inj (hchecked.symm.trans h)⟩
  · rename_i e he
    cases he.symm.trans h

/-- What the database says of a name with a NUL. -/
theorem Identity.check_of_nul (h : '\x00' ∈ identity.displayName) {d : Db} :
    d.checkIdentity identity.row = .error .invalidText ∧
      changeIdentity identity.row = .error .invalidText := by
  have htext : checkText identity.row.displayName = .error .invalidText :=
    if_neg (not_not.mpr h)
  unfold Db.checkIdentity changeIdentity
  rw [htext]
  exact ⟨rfl, rfl⟩

/-- A new identity is not refused for its name exactly when the name can be stored. -/
theorem IdentityService.ends_create_iff {checked : Str}
    (h : validateDisplayName displayName = .ok checked) :
    (IdentityService.create id kind displayName time).run.Ends
      (KeepsText IdentityError.ofDatabase) ↔ '\x00' ∉ displayName := by
  obtain ⟨identity, hidentity, hname⟩ := Identity.exists_restore id kind .active h
  rw [← nul_mem_of_validateDisplayName h, ← hname]
  unfold IdentityService.create Identity.create
  rw [hidentity]
  constructor
  · intro hends hnul
    have hanswer := hends.exec (S := store) {} []
    have hinsert : ((PostgresIdentityRepository.insert identity time >>= fun _ =>
        pure identity).run.exec store {} []).result = .error (.ofDatabase .invalidText) := by
      unfold PostgresIdentityRepository.insert callFunction insertIdentity perform
      rw [Proc.exec_orFail_bind, Proc.exec_autocommit, Proc.exec_orFail_bind, insertIdentityRow,
        Proc.exec_insert_error (Identity.check_of_nul hnul).1]
      rfl
    exact hanswer _ hinsert trivial
  · intro hnul
    refine .ensure_bind (fun _ he => by cases he) fun _ he => ?_
    obtain rfl := Except.ok.inj he
    refine .run_bind ((PostgresIdentityRepository.ends_insert hnul).mono fun r hr => ?_)
    cases r with
    | error er => exact hr.cast
    | ok _ => exact .ok

/-- A stored identity that cannot be read is no error of the database. -/
theorem identityFromRow_ne_ofDatabase {row : IdentityRow} {er : IdentityError}
    (h : identityFromRow row = .error er) : ∀ e, er ≠ .ofDatabase e := by
  unfold identityFromRow Identity.restore at h
  split at h
  · cases h
  · rename_i e he
    unfold validateDisplayName at he
    split at he
    · cases he
    · rw [← Except.error.inj h, ← Except.error.inj he]
      exact fun _ h => by cases h

/-- The search for an identity is not refused for a text. -/
theorem IdentityService.ends_findRequired :
    (IdentityService.findRequired id).run.Ends (KeepsText IdentityError.ofDatabase) := by
  have hfail : ∀ {α : Type}, KeepsText IdentityError.ofDatabase
      (.error (.ofDatabase .unavailable) : Except IdentityError α) :=
    .database IdentityError.ofDatabase_injective fun h => h
  have hfind : (PostgresIdentityRepository.find id).run.Ends
      (KeepsText IdentityError.ofDatabase) := by
    refine .orFail_bind (.autocommit hfail (.query hfail fun d => ?_))
    change KeepsText _ (Option.elim _ _ _)
    cases d.identityRows.find? fun r => r.id = id with
    | none => exact .ok
    | some row =>
      change KeepsText _ ((identityFromRow row).map some)
      cases hrow : identityFromRow row with
      | error er => exact .other (identityFromRow_ne_ofDatabase hrow)
      | ok _ => exact .ok
  refine .run_bind (hfind.mono fun r hr => ?_)
  cases r with
  | error er => exact hr.cast
  | ok found =>
    cases found with
    | none => exact .other fun _ h => by cases h
    | some identity => exact .ok

/-- A new name of an identity is not refused exactly when it can be stored. -/
theorem IdentityService.ends_rename_iff {checked : Str}
    (h : validateDisplayName displayName = .ok checked) :
    (IdentityService.rename id displayName).run.Ends (KeepsText IdentityError.ofDatabase) ↔
      '\x00' ∉ displayName := by
  constructor
  · intro hends hnul
    -- An identity that is there is not renamed.
    obtain ⟨stored, hstored, -⟩ := Identity.exists_restore id .service .active
      (show validateDisplayName ['a'] = .ok ['a'] from rfl)
    obtain ⟨renamed, hrenamed, hname⟩ :=
      Identity.exists_restore stored.id stored.kind stored.status h
    rw [← nul_mem_of_validateDisplayName h, ← hname] at hnul
    let d : Db := { identityRows := [⟨id, .service, ['a'], .active⟩] }
    have hrow : d.identityRows.find? (fun r => r.id = id) = some ⟨id, .service, ['a'], .active⟩ :=
      List.find?_cons_of_pos (decide_eq_true rfl)
    have hfind : (IdentityService.findRequired id).run.exec store d [] = ⟨d, [], .ok stored⟩ := by
      unfold IdentityService.findRequired PostgresIdentityRepository.find
      rw [Proc.exec_run_bind, Proc.exec_orFail_query_ensure, hrow, Option.elim_some,
        identityFromRow, hstored]
      rfl
    have hid : renamed.id = id :=
      (Identity.restore_eq_ok hrenamed).1.trans (Identity.restore_eq_ok hstored).1
    have hsave : ((PostgresIdentityRepository.save renamed >>= fun _ => pure renamed).run.exec store
        d []).result = .error (.ofDatabase .invalidText) := by
      unfold PostgresIdentityRepository.save
      rw [hid, Proc.exec_run_bind, Proc.exec_orFail_bind, Proc.exec_autocommit, Proc.exec_update,
        Postgres.Store.view_nil, hrow, Option.bind_some, (Identity.check_of_nul (d := d) hnul).2]
    have hanswer := hends.exec (S := store) d []
    unfold IdentityService.rename at hanswer
    rw [Proc.exec_run_bind, hfind] at hanswer
    dsimp only at hanswer
    unfold Identity.rename at hanswer
    rw [hrenamed, Proc.exec_ensure_bind] at hanswer
    exact hanswer _ hsave trivial
  · intro hnul
    refine .run_bind (IdentityService.ends_findRequired.mono fun r hr => ?_)
    cases r with
    | error er => exact hr.cast
    | ok identity =>
      obtain ⟨renamed, hrenamed, hname⟩ :=
        Identity.exists_restore identity.id identity.kind identity.status h
      dsimp only
      unfold Identity.rename
      rw [hrenamed]
      refine .ensure_bind (fun _ he => by cases he) fun _ he => ?_
      obtain rfl := Except.ok.inj he
      rw [← nul_mem_of_validateDisplayName h, ← hname] at hnul
      refine .run_bind ((PostgresIdentityRepository.ends_save hnul).mono fun r hr => ?_)
      cases r with
      | error er => exact hr.cast
      | ok _ => exact .ok

end Identities

/-! ## What is accepted and cannot be stored -/

/-- A submission with a scope that cannot be stored is answered as unavailable, whatever is
stored. -/
theorem Requests.ends_submitRequest_nul {crates : HttpCrates} {evaluator : PolicyEvaluator}
    {draws : SubmissionDraws} {retry : ParsedRequest} {request : Request}
    (hsubmits : Requests.Submits crates retry request) (hscope : '\x00' ∈ request.scope.text) :
    (submitRequest crates evaluator draws retry request.sourceService request.id).Ends
      (· = errorResponse crates "503 Service Unavailable" .internalError) := by
  rw [Requests.submitRequest_eq hsubmits]
  refine .bind ((Authority.ends_authorize_nul (Requests.Request.facts request) hscope).mono ?_)
  rintro _ ⟨e, rfl⟩
  exact rfl

/-- Accepted text can be stored exactly when it has no NUL, and then nothing that stores it is
refused for it: not the authorization and the acceptance of a request, nor the record of a decision,
nor an identity. -/
theorem text_storable_iff (s : Str) :
    (∀ scope, Scope.new s = some scope →
      checkScope scope.text ∧ (checkText scope.text = .ok () ↔ '\x00' ∉ s) ∧
      (∀ evaluator decisionId facts now, facts.scope = scope →
        (∀ grants evaluation, evaluator.evaluate facts grants = .ok evaluation →
          '\x00' ∉ evaluation.policyBundleVersion.text) →
        ((AuthorityService.authorize evaluator decisionId facts now).Ends
          (KeepsText AuthorityError.ofDatabase) ↔ '\x00' ∉ s)) ∧
      (∀ request fingerprint now, request.scope = scope →
        ((PostgresRequestRepository.accept request fingerprint now).Ends
          (KeepsText RequestError.ofDatabase) ↔ '\x00' ∉ s)) ∧
      ('\x00' ∈ s → ∀ crates evaluator draws retry request,
        Requests.Submits crates retry request → request.scope = scope →
        (submitRequest crates evaluator draws retry request.sourceService request.id).Ends
          (· = errorResponse crates "503 Service Unavailable" .internalError))) ∧
    (∀ version, PolicyBundleVersion.new s = some version →
      (checkText version.text = .ok () ↔ '\x00' ∉ s) ∧
      ∀ decision, decision.policyBundleVersion = some version →
        '\x00' ∉ decision.facts.scope.text →
        ((PostgresAuthorityRepository.record decision).run.Ends
          (KeepsText AuthorityError.ofDatabase) ↔ '\x00' ∉ s)) ∧
    ∀ name, validateDisplayName s = .ok name →
      checkTrimmed 200 name ∧ (checkText name = .ok () ↔ '\x00' ∉ s) ∧
      (∀ id kind time, (IdentityService.create id kind s time).run.Ends
        (KeepsText IdentityError.ofDatabase) ↔ '\x00' ∉ s) ∧
      ∀ id, (IdentityService.rename id s).run.Ends
        (KeepsText IdentityError.ofDatabase) ↔ '\x00' ∉ s := by
  -- The constructors keep the text, or trim it, so its NUL comes to the columns.
  refine ⟨fun scope h => ?_, fun version h => ?_, fun name h => ?_⟩
  · obtain rfl := Scope.new_eq_some.mp h
    refine ⟨scope.check, checkText_eq_ok, ?_, ?_, ?_⟩
    · rintro evaluator decisionId facts now rfl hversion
      exact Authority.ends_authorize_iff hversion
    · rintro request fingerprint now rfl
      exact Requests.ends_accept_iff
    · rintro hnul crates evaluator draws retry request hsubmits rfl
      exact Requests.ends_submitRequest_nul hsubmits hnul
  · obtain rfl := PolicyBundleVersion.new_eq_some.mp h
    exact ⟨checkText_eq_ok, fun decision hversion hscope =>
      Authority.ends_record_iff hscope hversion⟩
  · refine ⟨checkTrimmed_of_validateDisplayName h, ?_, ?_, ?_⟩
    · rw [checkText_eq_ok, nul_mem_of_validateDisplayName h]
    · exact fun id kind time => IdentityService.ends_create_iff h
    · exact fun id => IdentityService.ends_rename_iff h

/-- The scope that is the character NUL. -/
def nulScope : Scope := ⟨['\x00'], by decide⟩

/-- The text that is the character NUL is a scope, a version and a display name. -/
theorem nul_not_storable : ¬ ∀ s : Str,
    (∀ scope, Scope.new s = some scope → checkText scope.text = .ok () ∧ checkScope scope.text) ∧
    (∀ version, PolicyBundleVersion.new s = some version → checkText version.text = .ok ()) ∧
    ∀ name, validateDisplayName s = .ok name →
      checkText name = .ok () ∧ checkTrimmed 200 name := by
  intro h
  exact absurd ((h ['\x00']).1 nulScope rfl).1 (by decide)

/-- The body of a submission with that scope, which JSON writes as an escape. -/
def nulSubmission : List UInt8 :=
  Str.asBytes (Requests.exampleJson
    [("action", .string Requests.exampleDto.action), ("scope", .string "\\u0000".toList),
      ("artifact_schema_version_id", .string Requests.exampleDto.artifactSchemaVersionId),
      ("permission_policy_schema_version_id",
        .string Requests.exampleDto.permissionPolicySchemaVersionId)])

/-- The crates, at that body. -/
def nulCrates : HttpCrates where
  toCrates := Requests.exampleHttpCrates.toCrates
  toJson object := some (Requests.exampleJson object)
  submitRequestRequest body :=
    if body = nulSubmission then some { Requests.exampleDto with scope := ['\x00'] } else none
  claimRequest _ := none

/-- The body with the NUL is a submission that can be read. -/
theorem nulSubmission_submits : Requests.Submits nulCrates
    { Requests.exampleRetry with body := nulSubmission } (Requests.submission nulScope) := by
  refine ⟨by decide +kernel, { Requests.exampleDto with scope := ['\x00'] }, by decide +kernel, ?_⟩
  have hrequest : (SubmitRequestRequest.intoRequest nulCrates.toCrates
      { Requests.exampleDto with scope := ['\x00'] } ⟨1⟩ ⟨5⟩).toOption =
        some (Requests.submission nulScope) := by decide +kernel
  exact Postgres.toOption_eq_some.mp hrequest

/-- The submission is answered as unavailable, although a grant permits it. -/
theorem text_storable_iff_nul :
    ((submitRequest nulCrates Requests.exampleEvaluator (Requests.exampleDraws 20)
      { Requests.exampleRetry with body := nulSubmission } ⟨1⟩ ⟨5⟩).exec store
        Requests.grantedSource []).result =
      errorResponse nulCrates "503 Service Unavailable" .internalError := by
  have hanswer : ∀ crates evaluator draws retry request, Requests.Submits crates retry request →
      request.scope = nulScope → ∀ d,
      ((submitRequest crates evaluator draws retry request.sourceService request.id).exec store d
        []).result = errorResponse crates "503 Service Unavailable" .internalError := by
    intro crates evaluator draws retry request hsubmits hscope d
    exact (((text_storable_iff ['\x00']).1 nulScope rfl).2.2.2.2 List.mem_cons_self crates evaluator
      draws retry request hsubmits hscope).exec d []
  exact hanswer nulCrates Requests.exampleEvaluator (Requests.exampleDraws 20) _ _
    nulSubmission_submits rfl Requests.grantedSource

end InfernalLaw
