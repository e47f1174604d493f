import InfernalLaw.Infrastructure.AuthorityRepository
import InfernalLaw.Infrastructure.Background
import InfernalLaw.Postgres.Writes

/-!
# Grants and schema versions in every run

Publication of schema versions and the administrative functions, run concurrently with each other
and with anything that leaves their tables alone. Stored grants have valid windows, so
`matching_grants` reads what the SQL selects. It looks at the schema versions' identifiers and not
at their status.
-/

namespace InfernalLaw.Authority

open Postgres (Contract Event Proc State Store)

/-! ## The operations -/

/-- The tables of the authority. -/
def tables : List TableName := [.schemaVersions, .schemaStatusAudit, .grants, .grantAudit]

/-- What runs. -/
inductive Op where
  | publish (id : SchemaVersionId) (kind : SchemaKind) (name : SchemaName) (owner : ActorId)
      (contentDigest : Bytes32) (publishedAt : ℤ)
  | setStatus (id : SchemaVersionId) (status : SchemaStatus) (administratorIdentity reason : Str)
      (correlationId : Uuid) (changedAt : ℤ)
  | createGrant (requested : GrantRow)
  | revokeGrant (id : GrantId) (administratorIdentity reason : Str) (correlationId : Uuid)
      (revokedAt : ℤ)
  /-- Another component's transaction. -/
  | other (writes : List Write) (h : ∀ w ∈ writes, w.table ∉ tables)

/-- What the operations do; their answers do not matter here. -/
def program : Op → Sql Unit
  | .publish id kind name owner contentDigest publishedAt =>
    (SchemaService.publish id kind name owner contentDigest publishedAt).run.bind fun _ => .done ()
  | .setStatus id status administratorIdentity reason correlationId changedAt =>
    (callFunction (setAuthoritySchemaStatus id status administratorIdentity reason correlationId
      changedAt)).bind fun _ => .done ()
  | .createGrant requested => (callFunction (createAuthorityGrant requested)).bind fun _ => .done ()
  | .revokeGrant id administratorIdentity reason correlationId revokedAt =>
    (callFunction (revokeAuthorityGrant id administratorIdentity reason correlationId
      revokedAt)).bind fun _ => .done ()
  | .other writes _ => background writes

/-- The sessions of the kernels that share the database. -/
abbrev system : Postgres.System Db Write Key Op Unit := kernelSystem program

/-! ## The invariant -/

/-- Every grant has a valid window. -/
def Windows (d : Db) : Prop := ∀ row ∈ d.grants, row.Window

/-- A write stores no grant without a valid window. -/
def WritesWindow (w : Write) : Prop := ∀ g, w = .grants g → g.row.Window

/-- Such writes keep the windows valid. -/
theorem Windows.apply {d : Db} {w : Write} (h : Windows d) (hw : WritesWindow w) :
    Windows (store.apply d w) := by
  cases w with
  | grants g =>
    intro row hrow
    rcases Postgres.RowWrite.mem_of_mem_apply hrow with hrow | rfl
    · exact h row hrow
    · exact hw g rfl
  | _ => exact h

/-- A write to another table stores no grant. -/
theorem writesWindow_other {w : Write} (h : w.table ≠ .grants) : WritesWindow w := by
  rintro g rfl
  exact absurd rfl h

/-! ## What the operations write -/

section Writes

open Postgres.Proc.Writes

/-- The body of a statement of a function. -/
theorem writes_perform {α : Type} {p : Sql (Except Postgres.DbError α)}
    (h : p.Writes Windows WritesWindow) : (perform p).run.Writes Windows WritesWindow := orFail h

/-- A row that an insert checks and that is no grant. -/
theorem writes_insert {sql : String} {waits : Db → List Key}
    {check : Db → Except Postgres.DbError Unit} {w : Write} (h : w.table ≠ .grants) :
    (Proc.insert store sql waits check w).Writes Windows WritesWindow :=
  insert fun _ _ _ => writesWindow_other h

/-- `publish` writes no grant. -/
theorem writes_publish (id : SchemaVersionId) (kind : SchemaKind) (name : SchemaName)
    (owner : ActorId) (contentDigest : Bytes32) (publishedAt : ℤ) :
    (SchemaService.publish id kind name owner contentDigest publishedAt).run.Writes
      Windows WritesWindow := by
  unfold SchemaService.publish
  split
  · exact run_throw
  refine run_bind (orFail (autocommit ?_)) fun _ => ensure
  refine run_bind (writes_perform selectForUpdate) fun latest => run_bind ensure fun next => ?_
  exact run_bind (writes_perform (writes_insert (by simp [Write.table]))) fun _ => run_pure

/-- Nor does `set_authority_schema_status`. -/
theorem writes_setStatus (id : SchemaVersionId) (status : SchemaStatus)
    (administratorIdentity reason : Str) (correlationId : Uuid) (changedAt : ℤ) :
    (setAuthoritySchemaStatus id status administratorIdentity reason correlationId
      changedAt).run.Writes Windows WritesWindow := by
  have haudit : ∀ row, (perform (insertSchemaStatusAudit row)).run.Writes Windows WritesWindow :=
    fun row => writes_perform (writes_insert (by simp [Write.table]))
  unfold setAuthoritySchemaStatus
  split
  · exact run_throw
  refine run_bind (writes_perform query) fun existing => ?_
  split
  · split
    · exact run_throw
    · exact run_pure
  refine run_bind (writes_perform selectForUpdate) fun version => run_bind ?_ fun _ => run_pure
  unfold applySchemaStatus
  split
  · exact run_bind (haudit _) fun _ => run_throw
  split
  · exact run_bind (haudit _) fun _ => run_throw
  split
  · exact run_bind (haudit _) fun _ => run_pure
  · refine run_bind (writes_perform (update fun _ _ _ _ _ _ _ => ?_)) fun _ =>
      run_bind (haudit _) fun _ => run_pure
    exact writesWindow_other (by simp [Write.table])

/-- The `CHECK` constraints of a new grant include its window. -/
theorem window_of_checkGrant {d : Db} {row : GrantRow} (h : d.checkGrant row = .ok ()) :
    row.Window := by
  simp only [Db.checkGrant, Postgres.require_bind_eq_ok] at h
  obtain ⟨-, -, huntil, -, -, -, -, hfrom, -⟩ := h
  exact ⟨hfrom, huntil⟩

/-- A change of a grant leaves its window as it is. -/
theorem window_of_changeGrant {old new new' : GrantRow} (h : changeGrant old new = .ok new')
    (hw : old.Window) : new'.Window := by
  simp only [changeGrant, Postgres.require_bind_eq_ok, pure, Except.pure, Except.ok.injEq] at h
  obtain ⟨-, hsame, -, rfl⟩ := h
  rw [← hsame] at hw
  exact hw

/-- A new grant has its window, by the checks of its row. -/
theorem writes_createGrant (requested : GrantRow) :
    (createAuthorityGrant requested).run.Writes Windows WritesWindow := by
  have haudit : ∀ row, (perform (insertGrantAudit row)).run.Writes Windows WritesWindow :=
    fun row => writes_perform (writes_insert (by simp [Write.table]))
  unfold createAuthorityGrant
  split
  · exact run_throw
  refine run_bind (writes_perform query) fun artifactKind => ?_
  split
  · exact run_throw
  refine run_bind (writes_perform query) fun policyKind => ?_
  split
  · exact run_throw
  refine run_bind (writes_perform query) fun existing => ?_
  unfold createGrantRow
  split
  · split
    · exact run_pure
    · exact run_throw
  refine run_bind (writes_perform query) fun taken => ?_
  split
  · exact run_bind (haudit _) fun _ => run_throw
  · refine run_bind (writes_perform (insert fun d _ hcheck => ?_)) fun _ =>
      run_bind (haudit _) fun _ => run_pure
    rintro g hg
    obtain rfl := Write.grants.inj hg
    exact window_of_checkGrant hcheck

/-- A revoked grant has the window it had. -/
theorem writes_revokeGrant (id : GrantId) (administratorIdentity reason : Str)
    (correlationId : Uuid) (revokedAt : ℤ) :
    (revokeAuthorityGrant id administratorIdentity reason correlationId revokedAt).run.Writes
      Windows WritesWindow := by
  have haudit : ∀ row, (perform (insertGrantAudit row)).run.Writes Windows WritesWindow :=
    fun row => writes_perform (writes_insert (by simp [Write.table]))
  unfold revokeAuthorityGrant
  split
  · exact run_throw
  refine run_bind (writes_perform query) fun existing => ?_
  unfold revokeGrantRow
  split
  · exact run_throw
  split
  · exact run_bind (haudit _) fun _ => run_pure
  · refine run_bind (writes_perform (update fun d r old new hd hfound hchange => ?_)) fun _ =>
      run_bind (haudit _) fun _ => run_pure
    rintro g hg
    obtain rfl := Write.grants.inj hg
    exact window_of_changeGrant hchange (hd old (List.mem_of_find?_eq_some hfound))

/-- Every operation stores valid windows only. -/
theorem writes_program (op : Op) : (program op).Writes Windows WritesWindow := by
  cases op with
  | publish => exact bind (writes_publish ..) fun _ => done
  | setStatus => exact bind (autocommit (writes_setStatus ..)) fun _ => done
  | createGrant => exact bind (autocommit (writes_createGrant _)) fun _ => done
  | revokeGrant => exact bind (autocommit (writes_revokeGrant ..)) fun _ => done
  | other writes hwrites =>
    refine bind (autocommit (statement fun _ _ _ _ w hw => ?_)) fun _ => done
    exact writesWindow_other fun h => hwrites w hw (by simp [h, tables])

end Writes

/-! ## What holds in every run -/

/-- An event commits valid windows. -/
def contract : Contract system where
  inv d _ := Windows d
  guar _ _ ws _ := ∀ w ∈ ws, WritesWindow w

/-- Every operation keeps to the contract. -/
theorem contract_sound : contract.Sound where
  stutter _ _ := by simp [contract]
  preserves _ _ _ _ _ _ hinv hguar :=
    Postgres.Store.view_of_writes (I := Windows) (fun _ _ hd hw => hd.apply hw) hinv hguar
  program op d hgood := by
    refine Contract.wp_of_writes (I := Windows) (fun d hd => hd.choose_spec)
      (fun _ _ hd hw => hd.apply hw) (fun _ _ _ hu => hu) ?_ (writes_program op) hgood ?_ ?_
    · exact fun _ _ _ _ _ _ hu => hu
    · simp
    · simp

/-- Stored grants have valid windows. -/
theorem windows {d₀ : Db} (hd₀ : d₀.grants = []) {s : State Db Write Key Op Unit}
    (hs : system.Reaches d₀ s) : Windows s.db := by
  refine (contract_sound.reaches (fun _ _ _ => ?_) (d := d₀) ?_ hs).inv
  · exact fun _ _ _ _ _ _ _ _ => trivial
  · exact fun row hrow => absurd (hd₀ ▸ hrow) List.not_mem_nil

/-! ## What `matching_grants` answers -/

/-- The status of a schema version. -/
def schemaStatus (d : Db) (id : SchemaVersionId) : Option SchemaStatus :=
  (d.schemaVersions.find? fun r => r.schemaVersionId = id).map SchemaVersionRow.status

/-- Both schema versions are active. -/
def Active (d : Db) (refs : SchemaVersionRefs) : Prop :=
  schemaStatus d refs.artifact = some .active ∧ schemaStatus d refs.permissionPolicy = some .active

instance (d : Db) (refs : SchemaVersionRefs) : Decidable (Active d refs) :=
  inferInstanceAs (Decidable (_ ∧ _))

/-- The answer of `matching_grants` in the database `d`. -/
def matched (d : Db) (facts : PolicyFacts) (now : ℤ) : Except AuthorityError (List Grant) :=
  ((PostgresAuthorityRepository.matchingGrants facts now).run.exec store d []).result

/-- `matching_grants` reads the rows that the SQL selects, unless the scope cannot be sent. -/
theorem matched_eq (d : Db) (facts : PolicyFacts) (now : ℤ) : matched d facts now =
    if '\x00' ∈ facts.scope.text then .error (.ofDatabase .invalidText)
    else (d.grants.filter fun row =>
      PostgresAuthorityRepository.MatchesSql facts now row).mapM grantFromRow := by
  unfold matched PostgresAuthorityRepository.matchingGrants
  rw [Proc.exec_orFail_bind, PostgresAuthorityRepository.matchingGrantRows, Proc.exec_autocommit,
    Proc.exec_statement]
  by_cases hnul : '\x00' ∈ facts.scope.text
  · simp [checkText, Postgres.require, hnul, bind, Except.bind]
  · simp [checkText, Postgres.require, hnul, bind, Except.bind, pure, Except.pure, Proc.ensure]

variable {d : Db} {facts : PolicyFacts} {now : ℤ}

/-- Among stored grants with valid windows, `matching_grants` finds those that permit the facts. -/
theorem matched_eq_ok (hd : Windows d) (hnul : '\x00' ∉ facts.scope.text) : ∃ grants,
    matched d facts now = .ok grants ∧ ∀ g, g ∈ grants ↔
      ∃ row ∈ d.grants, row.Permits facts now ∧ grantFromRow row = .ok g := by
  rw [matched_eq, if_neg hnul]
  have hread : ∀ row ∈ d.grants.filter fun row =>
      PostgresAuthorityRepository.MatchesSql facts now row, ∃ g, grantFromRow row = .ok g := by
    intro row hrow
    obtain ⟨hrow, hmatches⟩ := List.mem_filter.mp hrow
    obtain ⟨-, g, hg, -⟩ := (PostgresAuthorityRepository.matchesSql_iff (hd row hrow)).mp
      (of_decide_eq_true hmatches)
    exact ⟨g, hg⟩
  obtain ⟨grants, hgrants⟩ := Postgres.exists_mapM_eq_ok hread
  refine ⟨grants, hgrants, fun g => (Postgres.mem_of_mapM_eq_ok hgrants).trans ?_⟩
  constructor
  · rintro ⟨row, hrow, hg⟩
    obtain ⟨hrow, hmatches⟩ := List.mem_filter.mp hrow
    exact ⟨row, hrow, (PostgresAuthorityRepository.matchesSql_iff (hd row hrow)).mp
      (of_decide_eq_true hmatches), hg⟩
  · rintro ⟨row, hrow, hpermits, hg⟩
    refine ⟨row, List.mem_filter.mpr ⟨hrow, decide_eq_true ?_⟩, hg⟩
    exact (PostgresAuthorityRepository.matchesSql_iff (hd row hrow)).mpr hpermits

/-- The grants that `matching_grants` answers rest on active schema versions. -/
def FailsClosed (d : Db) (facts : PolicyFacts) (now : ℤ) : Prop :=
  ∀ grants, matched d facts now = .ok grants → ∀ g ∈ grants, Active d g.schemaVersions

/-- In every reachable state, the answer fails closed exactly when the schema versions of the facts
are active, or there is nothing to answer: the scope is no text for the database, or no stored grant
permits the facts. -/
theorem failsClosed_iff {d₀ : Db} (hd₀ : d₀.grants = []) {s : State Db Write Key Op Unit}
    (hs : system.Reaches d₀ s) (facts : PolicyFacts) (now : ℤ) : FailsClosed s.db facts now ↔
      Active s.db facts.schemaVersions ∨ '\x00' ∈ facts.scope.text ∨
        ∀ row ∈ s.db.grants, ¬ row.Permits facts now := by
  -- A grant that permits the facts names their schema versions.
  have hrefs : ∀ g : Grant, g.permits facts now = true → g.schemaVersions = facts.schemaVersions :=
    fun g hg => (Grant.permits_iff.mp hg).2.2.2.1
  by_cases hnul : '\x00' ∈ facts.scope.text
  · simp [FailsClosed, matched_eq, hnul]
  obtain ⟨grants, hgrants, hmem⟩ := matched_eq_ok (windows hd₀ hs) hnul
  unfold FailsClosed
  rw [hgrants]
  constructor
  · intro h
    by_cases hnone : ∀ row ∈ s.db.grants, ¬ row.Permits facts now
    · exact .inr (.inr hnone)
    push Not at hnone
    obtain ⟨row, hrow, hpermits⟩ := hnone
    obtain ⟨-, g, hg, hgp⟩ := id hpermits
    have hactive := h grants rfl g ((hmem g).mpr ⟨row, hrow, hpermits, hg⟩)
    rw [hrefs g hgp] at hactive
    exact .inl hactive
  · rintro h _ ⟨⟩ g hg
    obtain ⟨row, hrow, hpermits, hread⟩ := (hmem g).mp hg
    obtain ⟨-, g', hg', hgp⟩ := id hpermits
    obtain rfl := Except.ok.inj (hread.symm.trans hg')
    rw [hrefs g hgp]
    rcases h with h | h | h
    · exact h
    · exact absurd h hnul
    · exact absurd hpermits (h row hrow)

/-- A database with one service and the two reserved schema versions. -/
def reservedSchemas : Db where
  identityRows := [⟨⟨1⟩, .service, ['a'], .active⟩]
  schemaVersions :=
    [⟨⟨1⟩, .artifact, "kernel.no-artifact".toList, 1, ⟨0⟩, .fill 0, none, 0, .active⟩,
      ⟨⟨2⟩, .permissionPolicy, "kernel.no-artifact-permission-policy".toList, 1, ⟨0⟩, .fill 0,
        none, 0, .active⟩]

/-- The facts of a creation of subscriptions by that service. -/
def subscriptionFacts : PolicyFacts where
  source := ⟨1⟩
  action := ⟨"subscription.create".toList, by decide⟩
  scope := Scope.wildcard
  schemaVersions := noArtifactSchemaVersions
  destination := none

/-- An administrator's grant for it. -/
def subscriptionGrant : GrantRow where
  grantId := ⟨7⟩
  sourceServiceId := ⟨1⟩
  action := "subscription.create".toList
  scope := ['*']
  artifactSchemaVersionId := ⟨1⟩
  permissionPolicySchemaVersionId := ⟨2⟩
  destinationServiceId := none
  validFrom := 0
  validUntil := none
  administratorIdentity := ['a']
  reason := ['r']
  correlationId := 8
  createdAt := 5
  revokedAt := none

/-- The grant is created, and then the artifact schema is suspended. -/
theorem reaches_suspended : ∃ s, system.Reaches reservedSchemas s ∧
    s.db.grants = [subscriptionGrant] ∧ schemaStatus s.db ⟨1⟩ = some .suspended := by
  obtain ⟨s₁, hs₁, hidle₁, hdb₁, -⟩ := Postgres.System.exec_reaches
    (.init : system.Reaches reservedSchemas { db := reservedSchemas }) rfl
    (.createGrant subscriptionGrant)
  obtain ⟨s₂, hs₂, -, hdb₂, -⟩ := Postgres.System.exec_reaches hs₁ hidle₁
    (.setStatus ⟨1⟩ .suspended ['a'] ['r'] 9 6)
  refine ⟨s₂, hs₂, ?_, ?_⟩ <;> rw [hdb₂, hdb₁] <;> decide

/-- The grant under the suspended schema is still answered. -/
theorem matching_grants_fails_open : ¬ ∀ d₀ s, d₀.grants = [] → system.Reaches d₀ s →
    ∀ facts now, FailsClosed s.db facts now := by
  intro h
  obtain ⟨s, hs, hgrants, hstatus⟩ := reaches_suspended
  let g : Grant :=
    { id := ⟨7⟩, source := ⟨1⟩, action := ⟨"subscription.create".toList, by decide⟩
      scope := Scope.wildcard, schemaVersions := noArtifactSchemaVersions, destination := none
      validFrom := 0, validUntil := none, window := by decide }
  have hmatched : matched s.db subscriptionFacts 10 = .ok [g] := by
    rw [matched_eq, hgrants]
    decide
  have hactive := h _ s rfl hs subscriptionFacts 10 [g] hmatched g List.mem_cons_self
  rw [Active, show g.schemaVersions.artifact = ⟨1⟩ from rfl, hstatus] at hactive
  exact absurd hactive.1 (by decide)

/-- While both schema versions are active, a grant under them is answered, and the answer fails
closed. -/
theorem failsClosed_granted : ∃ s, system.Reaches reservedSchemas s ∧
    s.db.grants = [subscriptionGrant] ∧ FailsClosed s.db subscriptionFacts 10 := by
  obtain ⟨s, hs, -, hdb, -⟩ := Postgres.System.exec_reaches
    (.init : system.Reaches reservedSchemas { db := reservedSchemas }) rfl
    (.createGrant subscriptionGrant)
  refine ⟨s, hs, ?_, (failsClosed_iff rfl hs subscriptionFacts 10).mpr (.inl ?_)⟩ <;>
    rw [hdb] <;> decide

end InfernalLaw.Authority
