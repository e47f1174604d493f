import InfernalLaw.Infrastructure.Grants
import InfernalLaw.Runs.Authority

/-!
# The audit of rejected administration

The administrative functions write a row to their audit before they raise the exception of a
rejection. The exception aborts the statement that called the function, and the row with it. So in
no reachable state does an audit have a row about a rejection.
-/

namespace InfernalLaw.Authority

open Postgres (Contract DbError Event Proc State Store)

/-! ## Rejections -/

/-- The call gets as far as a rejection that the functions write to their audit: of a status for a
version that is unknown or terminal, and of a grant whose identifier is taken. -/
def Rejected (d : Db) : Op → Prop
  | .setStatus id status administratorIdentity reason correlationId changedAt =>
    checkMetadata administratorIdentity reason changedAt = true ∧ status ≠ .published ∧
      (∀ a ∈ d.schemaStatusAudit, a.schemaVersionId = id → a.correlationId ≠ correlationId) ∧
      ∀ r ∈ d.schemaVersions, r.schemaVersionId = id → r.status.isTerminal = true
  | .createGrant requested =>
    checkMetadata requested.administratorIdentity requested.reason requested.createdAt = true ∧
      (d.schemaVersions.find? fun r =>
        r.schemaVersionId = requested.artifactSchemaVersionId).map SchemaVersionRow.kind =
          some .artifact ∧
      (d.schemaVersions.find? fun r =>
        r.schemaVersionId = requested.permissionPolicySchemaVersionId).map SchemaVersionRow.kind =
          some .permissionPolicy ∧
      (∀ r ∈ d.grants, r.correlationId ≠ requested.correlationId) ∧
      ∃ r ∈ d.grants, r.grantId = requested.grantId
  | _ => False

/-- The audit has a row about the call's rejection. -/
def Recorded (d : Db) : Op → Prop
  | .setStatus id _ _ _ correlationId _ => ∃ a ∈ d.schemaStatusAudit, a.schemaVersionId = id ∧
      a.correlationId = correlationId ∧ a.outcome.isRejection = true
  | .createGrant requested => ∃ a ∈ d.grantAudit, a.grantId = requested.grantId ∧
      a.correlationId = requested.correlationId ∧ a.outcome.isRejection = true
  | _ => False

/-- The database that a call leaves when it runs alone. -/
def after (d : Db) (op : Op) : Db := ((program op).exec store d []).db

/-- A rejected call is recorded, and changes nothing that is governed. -/
def Audited (d : Db) (op : Op) : Prop :=
  Recorded (after d op) op ∧ (after d op).schemaVersions = d.schemaVersions ∧
    (after d op).grants = d.grants

/-! ## Rejected calls alone -/

section Rejections

variable {d : Db}

/-- A version that is unknown or terminal: the row of the audit is written, and the exception
raised. -/
theorem applySchemaStatus_rejected (id : SchemaVersionId) (status : SchemaStatus)
    (audit : Option SchemaStatus → SchemaStatusOutcome → SchemaStatusAuditRow)
    {version : Option SchemaVersionRow}
    (h : ∀ r, version = some r → r.status.isTerminal = true) : ∃ e ws,
      (applySchemaStatus id status audit version).run.exec store d [] = ⟨d, ws, .error e⟩ := by
  cases version with
  | none => exact Proc.exec_orFail_throw _
  | some r =>
    unfold applySchemaStatus
    dsimp only
    rw [if_pos (h r rfl)]
    exact Proc.exec_orFail_throw _

/-- A status that is rejected. -/
theorem setStatus_rejected {id : SchemaVersionId} {status : SchemaStatus}
    {administratorIdentity reason : Str} {correlationId : Uuid} {changedAt : ℤ}
    (h : Rejected d (.setStatus id status administratorIdentity reason correlationId changedAt)) :
    ∃ e, (callFunction
      (setAuthoritySchemaStatus id status administratorIdentity reason correlationId
      changedAt)).exec store d [] = ⟨d, [], .error e⟩ := by
  obtain ⟨hmetadata, hstatus, hnew, hterminal⟩ := h
  -- The call is not a repeated one, and its version is unknown or in a final status.
  have haudit : (d.schemaStatusAudit.find? fun r =>
      r.schemaVersionId = id ∧ r.correlationId = correlationId) = none := by
    refine List.find?_eq_none.mpr fun a ha => ?_
    rw [decide_eq_true_eq]
    exact fun ⟨hid, hcorrelation⟩ => hnew a ha hid hcorrelation
  have hguard : ¬ (checkMetadata administratorIdentity reason changedAt = false ∨
      status = .published) := by
    rw [hmetadata]
    simp [hstatus]
  refine exec_callFunction_error ?_
  unfold setAuthoritySchemaStatus perform
  rw [if_neg hguard, Proc.exec_orFail_bind, findSchemaStatusAudit, Proc.exec_query]
  simp only [Store.view_nil, haudit]
  rw [Proc.exec_orFail_bind, lockSchemaVersion, Proc.exec_selectForUpdate]
  simp only [Store.view_nil]
  rw [Proc.exec_run_bind]
  have hversion : ∀ r, ((d.schemaVersions.find? fun r => r.schemaVersionId = id).bind fun _ =>
      d.schemaVersions.find? fun r => r.schemaVersionId = id) = some r →
      r.status.isTerminal = true := by
    intro r hr
    obtain ⟨-, -, hfind⟩ := Option.bind_eq_some_iff.mp hr
    have hid := List.find?_some hfind
    rw [decide_eq_true_eq] at hid
    exact hterminal r (List.mem_of_find?_eq_some hfind) hid
  -- The entry in the audit is written, and then the exception takes it away.
  obtain ⟨e, ws, hrejected⟩ := applySchemaStatus_rejected id status
    (fun oldStatus outcome =>
      { schemaVersionId := id, oldStatus, newStatus := status, outcome
        administratorIdentity := btrim administratorIdentity, reason := btrim reason
        correlationId, recordedAt := changedAt }) hversion
  rw [hrejected]
  exact ⟨e, ws, rfl⟩

/-- A grant that is rejected. -/
theorem createGrant_rejected {requested : GrantRow} (h : Rejected d (.createGrant requested)) :
    ∃ e, (callFunction (createAuthorityGrant requested)).exec store d [] = ⟨d, [], .error e⟩ := by
  obtain ⟨hmetadata, hartifact, hpolicy, hnew, taken, htaken, hid⟩ := h
  have hcorrelation : (d.grants.find? fun r => r.correlationId = requested.correlationId) = none :=
    List.find?_eq_none.mpr fun r hr => by simpa using hnew r hr
  have hfound : (d.grants.find? fun r => r.grantId = requested.grantId).isSome = true :=
    List.find?_isSome.mpr ⟨taken, htaken, decide_eq_true hid⟩
  refine exec_callFunction_error ?_
  unfold createAuthorityGrant perform
  rw [if_neg (by simp [hmetadata]), Proc.exec_orFail_bind, findSchemaKind, Proc.exec_query]
  simp only [Store.view_nil, hartifact, ne_eq, not_true_eq_false, if_false]
  rw [Proc.exec_orFail_bind, findSchemaKind, Proc.exec_query]
  simp only [Store.view_nil, hpolicy, not_true_eq_false, if_false]
  rw [Proc.exec_orFail_bind, findGrantByCorrelation, Proc.exec_query]
  simp only [Store.view_nil, hcorrelation]
  unfold createGrantRow perform
  dsimp only
  rw [Proc.exec_orFail_bind, findGrant, Proc.exec_query]
  simp only [Store.view_nil, hfound, if_true]
  exact Proc.exec_orFail_throw _

/-- A rejected call alone changes nothing. -/
theorem after_rejected {op : Op} (h : Rejected d op) : after d op = d := by
  cases op with
  | setStatus =>
    obtain ⟨e, hexec⟩ := setStatus_rejected h
    unfold after program
    rw [Proc.exec_bind, hexec]
    rfl
  | createGrant =>
    obtain ⟨e, hexec⟩ := createGrant_rejected h
    unfold after program
    rw [Proc.exec_bind, hexec]
    rfl
  | _ => exact h.elim

end Rejections

/-! ## Every run -/

/-- The audits have no row about a rejection. -/
structure NoRejections (d : Db) : Prop where
  status : ∀ a ∈ d.schemaStatusAudit, a.outcome.isRejection = false
  grants : ∀ a ∈ d.grantAudit, a.outcome.isRejection = false

/-- The write is no row about a rejection. -/
def IsNoRejection : Write → Prop
  | .schemaStatusAudit a => a.outcome.isRejection = false
  | .grantAudit a => a.outcome.isRejection = false
  | _ => True

/-- Such writes keep the audits without one. -/
theorem NoRejections.apply {d : Db} {w : Write} (h : NoRejections d) (hw : IsNoRejection w) :
    NoRejections (store.apply d w) := by
  cases w with
  | schemaStatusAudit row =>
    refine ⟨fun a ha => ?_, h.grants⟩
    rcases List.mem_append.mp ha with ha | ha
    · exact h.status a ha
    · rw [List.mem_singleton.mp ha]
      exact hw
  | grantAudit row =>
    refine ⟨h.status, fun a ha => ?_⟩
    rcases List.mem_append.mp ha with ha | ha
    · exact h.grants a ha
    · rw [List.mem_singleton.mp ha]
      exact hw
  | _ => exact ⟨h.status, h.grants⟩

/-- Writes to other tables are none. -/
theorem isNoRejection_other {w : Write} (h : w.table ∉ tables) : IsNoRejection w := by
  cases w with
  | schemaStatusAudit => exact absurd (by decide : TableName.schemaStatusAudit ∈ tables) h
  | grantAudit => exact absurd (by decide : TableName.grantAudit ∈ tables) h
  | _ => trivial

/-- An event commits no row about a rejection. -/
def auditContract : Contract system where
  inv d _ := NoRejections d
  guar _ _ ws _ := ∀ w ∈ ws, IsNoRejection w

/-- Every operation keeps to the contract: what is committed is what a function that has returned
has written. -/
theorem auditContract_sound : auditContract.Sound where
  stutter _ _ := by simp [auditContract]
  preserves _ _ _ _ _ _ hinv hguar :=
    Postgres.Store.view_of_writes (I := NoRejections) (fun _ _ hd hw => hd.apply hw) hinv hguar
  program op e hgood := by
    have hquiet : ∀ op d, auditContract.guar op d [] none := fun _ _ => by simp [auditContract]
    have herr : ∀ op d, auditContract.Final op () d [] [] [] := fun _ _ => by
      simp [Contract.Final, auditContract]
    -- The functions write the entries of what they have done; that of a rejection is never
    -- committed.
    cases op with
    | publish id kind name owner contentDigest publishedAt =>
      refine Contract.wp_bind.mpr ?_
      unfold SchemaService.publish
      split
      · exact herr _ _
      · refine Contract.wp_orFail_bind.mpr (wp_publishAuthoritySchemaVersion (hquiet _) ?_ ?_)
        · exact fun d _ _ => herr _ d
        · intro d row _ _ _ w hw
          rw [List.mem_singleton.mp hw]
          trivial
    | setStatus =>
      refine Contract.wp_bind.mpr (wp_setAuthoritySchemaStatus (hquiet _) ?_ ?_ hgood)
      · exact fun d _ _ => herr _ d
      · intro d _ ws _ hsets w hw
        cases hsets with
        | nothing => cases hw
        | audited h =>
          rw [List.mem_singleton.mp hw]
          exact h
        | changed _ _ h =>
          rcases List.mem_cons.mp hw with rfl | hw
          · trivial
          · rw [List.mem_singleton.mp hw]
            exact h
    | createGrant requested =>
      refine Contract.wp_bind.mpr (wp_createAuthorityGrant (hquiet _) ?_ ?_ hgood)
      · exact fun d _ _ => herr _ d
      · intro d row ws _ hcreates w hw
        cases hcreates with
        | existing => cases hw
        | created =>
          rcases List.mem_cons.mp hw with rfl | hw
          · trivial
          · rw [List.mem_singleton.mp hw]
            rfl
    | revokeGrant =>
      refine Contract.wp_bind.mpr (wp_revokeAuthorityGrant (hquiet _) ?_ ?_ hgood)
      · exact fun d _ _ => herr _ d
      · intro d _ ws _ hrevokes w hw
        cases hrevokes with
        | audited h =>
          rw [List.mem_singleton.mp hw]
          exact h
        | revoked h =>
          rcases List.mem_cons.mp hw with rfl | hw
          · trivial
          · rw [List.mem_singleton.mp hw]
            exact h
    | other writes hwrites =>
      refine wp_background (hquiet _) (fun d _ => herr _ d) fun d _ => ?_
      exact fun w hw => isNoRejection_other (hwrites w hw)

/-- No reachable state has a row about a rejection in an audit. -/
theorem noRejections {d₀ : Db} (hstatus : d₀.schemaStatusAudit = []) (hgrants : d₀.grantAudit = [])
    {s : State Db Write Key Op Unit} (hs : system.Reaches d₀ s) : NoRejections s.db := by
  refine (auditContract_sound.holds (fun _ _ _ => trivial) ⟨?_, ?_⟩ hs).inv
  · rw [hstatus]
    exact nofun
  · rw [hgrants]
    exact nofun

/-- Without rejections on record none is recorded. -/
theorem NoRejections.not_recorded {d : Db} (h : NoRejections d) (op : Op) : ¬ Recorded d op := by
  cases op with
  | setStatus =>
    rintro ⟨a, ha, -, -, hrejection⟩
    rw [h.status a ha] at hrejection
    cases hrejection
  | createGrant =>
    rintro ⟨a, ha, -, -, hrejection⟩
    rw [h.grants a ha] at hrejection
    cases hrejection
  | _ => exact id

/-- No rejected call is audited: alone it leaves the database as it was, without a row about it, and
whatever runs besides it and afterwards, there is none. -/
theorem rejections_unaudited {d₀ : Db} (hstatus : d₀.schemaStatusAudit = [])
    (hgrants : d₀.grantAudit = []) {s : State Db Write Key Op Unit} (hs : system.Reaches d₀ s)
    {op : Op} (hrejected : Rejected s.db op) :
    ¬ Audited s.db op ∧ after s.db op = s.db ∧
      ∀ s', system.Later s s' → ¬ Recorded s'.db op := by
  have hafter := after_rejected hrejected
  refine ⟨fun h => ?_, hafter, fun s' hl => ?_⟩
  · rw [Audited, hafter] at h
    exact (noRejections hstatus hgrants hs).not_recorded op h.1
  · exact (noRejections hstatus hgrants (hs.later hl)).not_recorded op

/-- A status for a version that does not exist. -/
def unknownStatus : Op := .setStatus ⟨9⟩ .active ['a'] ['r'] 3 10

/-- A status for an unknown schema version is rejected. -/
theorem unknownStatus_rejected : Rejected reservedSchemas unknownStatus := by
  unfold unknownStatus Rejected
  decide

/-- Not every rejected call is audited. -/
theorem rejection_not_audited : ¬ ∀ d₀ s op, d₀.schemaStatusAudit = [] → d₀.grantAudit = [] →
    system.Reaches d₀ s → Rejected s.db op → Audited s.db op := by
  intro h
  have haudited := h reservedSchemas { db := reservedSchemas } unknownStatus rfl rfl .init
    unknownStatus_rejected
  obtain ⟨⟨a, ha, -⟩, -⟩ := haudited
  rw [after_rejected unknownStatus_rejected] at ha
  cases ha

/-- A rejected status is not audited. -/
theorem rejections_unaudited_unknown : Rejected reservedSchemas unknownStatus ∧
    ¬ Audited reservedSchemas unknownStatus :=
  ⟨unknownStatus_rejected, (rejections_unaudited rfl rfl
    (.init : system.Reaches reservedSchemas { db := reservedSchemas }) unknownStatus_rejected).1⟩

end InfernalLaw.Authority
