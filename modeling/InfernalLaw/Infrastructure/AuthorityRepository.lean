import InfernalLaw.Infrastructure.AuthorityFunctions
import InfernalLaw.Postgres.Rules

/-!
# The authority repository

`PostgresAuthorityRepository`: `matching_grants`, `record` and `publish` as processes over the
database, and what `AuthorityService::authorize` does with the first two.
-/

namespace InfernalLaw

open Postgres (Contract DbError Store)
open Postgres.Proc (autocommit ensure insert orFail statement)

/-- `repository_error`. -/
def AuthorityError.ofDatabase (e : DbError) : AuthorityError := .repository (.database e)

/-- `grant_from_row`. -/
def grantFromRow (row : GrantRow) : Except AuthorityError Grant := do
  let action ← (ActionName.new row.action).elim
    (.error (.repository (.kernel "stored grant action is invalid"))) .ok
  let scope ← (Scope.new row.scope).elim
    (.error (.repository (.kernel "stored grant scope is invalid"))) .ok
  Grant.restore row.grantId row.sourceServiceId action scope
    ⟨row.artifactSchemaVersionId, row.permissionPolicySchemaVersionId⟩ row.destinationServiceId
    row.validFrom row.validUntil

/-- `schema_record_from_row`. -/
def schemaRecordFromRow (row : SchemaVersionRow) : Except AuthorityError SchemaRecord := do
  let name ← (SchemaName.new row.name).elim
    (.error (.repository (.kernel "stored schema name is invalid"))) .ok
  let version ← SchemaVersion.restore row.schemaVersionId row.kind name row.version
    row.ownerServiceId row.contentDigest row.predecessorId row.publishedAt
  return ⟨version, row.status⟩

/-- The row of a decision. -/
def AuthorityDecision.row (d : AuthorityDecision) : DecisionRow where
  decisionId := d.id
  sourceServiceId := d.facts.source
  action := d.facts.action.text
  scope := d.facts.scope.text
  artifactSchemaVersionId := d.facts.schemaVersions.artifact
  permissionPolicySchemaVersionId := d.facts.schemaVersions.permissionPolicy
  destinationServiceId := d.facts.destination
  verdict := d.verdict
  evaluatorServiceId := d.evaluator
  policyBundleVersion := d.policyBundleVersion.map PolicyBundleVersion.text
  decidedAt := d.decidedAt

/-- What the row of a grant reads as. -/
theorem grantFromRow_eq_ok {row : GrantRow} {g : Grant} : grantFromRow row = .ok g ↔
    g.id = row.grantId ∧ g.source = row.sourceServiceId ∧ g.action.text = row.action ∧
      g.scope.text = row.scope ∧ g.schemaVersions.artifact = row.artifactSchemaVersionId ∧
      g.schemaVersions.permissionPolicy = row.permissionPolicySchemaVersionId ∧
      g.destination = row.destinationServiceId ∧ g.validFrom = row.validFrom ∧
      g.validUntil = row.validUntil := by
  simp only [grantFromRow, Postgres.bind_eq_ok, Postgres.elim_eq_ok, ActionName.new_eq_some,
    Scope.new_eq_some, Grant.restore_eq_ok]
  constructor
  · rintro ⟨action, haction, scope, hscope, hid, hsource, rfl, rfl, hversions, hrest⟩
    exact ⟨hid, hsource, haction, hscope, by rw [hversions], by rw [hversions], hrest⟩
  · rintro ⟨hid, hsource, haction, hscope, hartifact, hpolicy, hrest⟩
    refine ⟨g.action, haction, g.scope, hscope, hid, hsource, rfl, rfl, ?_, hrest⟩
    rw [← hartifact, ← hpolicy]

/-- The validity window of a stored grant, as its `CHECK` constraints have it. -/
def GrantRow.Window (row : GrantRow) : Prop :=
  0 ≤ row.validFrom ∧ ∀ limit ∈ row.validUntil, row.validFrom < limit

/-- The stored, unrevoked grant permits the facts at `now`. -/
def GrantRow.Permits (row : GrantRow) (facts : PolicyFacts) (now : ℤ) : Prop :=
  row.revokedAt = none ∧ ∃ g, grantFromRow row = .ok g ∧ g.permits facts now = true

namespace PostgresAuthorityRepository

/-- The `WHERE` clause of `MATCHING_GRANTS_SQL`. -/
def MatchesSql (facts : PolicyFacts) (now : ℤ) (row : GrantRow) : Prop :=
  row.sourceServiceId = facts.source ∧ row.action = facts.action.text ∧
    row.artifactSchemaVersionId = facts.schemaVersions.artifact ∧
    row.permissionPolicySchemaVersionId = facts.schemaVersions.permissionPolicy ∧
    row.destinationServiceId = facts.destination ∧
    (row.scope = ['*'] ∨ row.scope = facts.scope.text) ∧ row.validFrom ≤ now ∧
    (∀ limit ∈ row.validUntil, now < limit) ∧ row.revokedAt = none

instance (facts : PolicyFacts) (now : ℤ) : DecidablePred (MatchesSql facts now) :=
  fun _ => inferInstanceAs (Decidable (_ ∧ _))

/-- The SQL selects the unrevoked grants that `Grant::permits` accepts. -/
theorem matchesSql_iff {facts : PolicyFacts} {now : ℤ} {row : GrantRow} (hw : row.Window) :
    MatchesSql facts now row ↔ row.Permits facts now := by
  constructor
  · rintro ⟨hsource, haction, hartifact, hpolicy, hdestination, hscope, hfrom, huntil, hrevoked⟩
    -- The scope that matches is the wildcard or the requested one, so it is a valid scope.
    obtain ⟨scope, hread⟩ : ∃ scope : Scope, scope.text = row.scope := by
      rcases hscope with hscope | hscope
      · exact ⟨Scope.wildcard, hscope.symm⟩
      · exact ⟨facts.scope, hscope.symm⟩
    let g : Grant :=
      { id := row.grantId, source := row.sourceServiceId, action := facts.action, scope := scope
        schemaVersions := facts.schemaVersions, destination := row.destinationServiceId
        validFrom := row.validFrom, validUntil := row.validUntil, window := hw }
    refine ⟨hrevoked, g, ?_, Grant.permits_iff.mpr ?_⟩
    · exact grantFromRow_eq_ok.mpr ⟨rfl, rfl, haction.symm, hread, hartifact.symm, hpolicy.symm,
        rfl, rfl, rfl⟩
    · exact ⟨hsource, rfl, hread ▸ hscope, rfl, hdestination, hfrom, huntil⟩
  · rintro ⟨hrevoked, g, hg, hpermits⟩
    obtain ⟨-, hsource, haction, hscope, hartifact, hpolicy, hdestination, hfrom, huntil⟩ :=
      grantFromRow_eq_ok.mp hg
    obtain ⟨hsource', haction', hscope', hversions, hdestination', hfrom', huntil'⟩ :=
      Grant.permits_iff.mp hpermits
    refine ⟨hsource.symm.trans hsource', ?_, ?_, ?_, hdestination.symm.trans hdestination', ?_, ?_,
      ?_, hrevoked⟩
    · rw [← haction, haction']
    · rw [← hartifact, hversions]
    · rw [← hpolicy, hversions]
    · exact hscope ▸ hscope'
    · exact hfrom ▸ hfrom'
    · exact huntil ▸ huntil'

/-- `MATCHING_GRANTS_SQL`. -/
def matchingGrantRows (facts : PolicyFacts) (now : ℤ) : Sql (Except DbError (List GrantRow)) :=
  statement "MATCHING_GRANTS_SQL" (fun _ _ => {}) fun d _ => do
    checkText facts.scope.text
    return d.grants.filter fun row => MatchesSql facts now row

/-- `matching_grants`. -/
def matchingGrants (facts : PolicyFacts) (now : ℤ) : Fallible AuthorityError (List Grant) := do
  let rows ← orFail .ofDatabase (autocommit (matchingGrantRows facts now))
  ensure (rows.mapM grantFromRow)

/-- `RECORD_DECISION_SQL`. -/
def recordDecision (row : DecisionRow) : Sql (Except DbError Unit) :=
  insert store "RECORD_DECISION_SQL" (fun _ => []) (fun d => d.checkDecision row) (.decisions row)

/-- `record`. -/
def record (decision : AuthorityDecision) : Fallible AuthorityError Unit :=
  orFail .ofDatabase (autocommit (recordDecision decision.row))

/-- `publish`, with the identifier that it draws. -/
def publish (id : SchemaVersionId) (kind : SchemaKind) (name : SchemaName) (owner : ActorId)
    (contentDigest : Bytes32) (publishedAt : ℤ) : Fallible AuthorityError SchemaRecord := do
  let row ← orFail .ofDatabase
    (callFunction (publishAuthoritySchemaVersion id kind name.text owner contentDigest publishedAt))
  ensure (schemaRecordFromRow row)

end PostgresAuthorityRepository

/-- `SchemaService::publish`. -/
def SchemaService.publish (id : SchemaVersionId) (kind : SchemaKind) (name : SchemaName)
    (owner : ActorId) (contentDigest : Bytes32) (publishedAt : ℤ) :
    Fallible AuthorityError SchemaRecord :=
  if publishedAt < 0 then throw .invalidSchemaVersion
  else PostgresAuthorityRepository.publish id kind name owner contentDigest publishedAt

/-- The evaluator of an authority service: its identity, and its answer to facts and grants. -/
structure PolicyEvaluator where
  id : ActorId
  evaluate : PolicyFacts → List Grant → Except AuthorityError PolicyEvaluation

/-- `AuthorityService::authorize` over the repository, with the identifier that it draws. -/
def AuthorityService.authorize (evaluator : PolicyEvaluator) (decisionId : DecisionId)
    (facts : PolicyFacts) (now : ℤ) : Sql (Except AuthorityError AuthorityDecision) :=
  (InfernalLaw.authorize PostgresAuthorityRepository.matchingGrants evaluator.evaluate
    PostgresAuthorityRepository.record evaluator.id decisionId facts now).run

/-- The rule of `authorize`: its decision is about the facts, and is recorded when it is
answered. -/
theorem AuthorityService.wp_authorize {Op α : Type} {program : Op → Sql α}
    {C : Contract (kernelSystem program)} {op : Op} {evaluator : PolicyEvaluator}
    {decisionId : DecisionId} {facts : PolicyFacts} {now : ℤ} (hquiet : ∀ d, C.guar op d [] none)
    {Q : C.Post (Except AuthorityError AuthorityDecision)}
    (herr : ∀ d er, C.Good d → Q (.error er) d [] [] [])
    (hok : ∀ d decision, C.Good d → decision.facts = facts →
      Q (.ok decision) d [.decisions decision.row] [] []) {e : Db} :
    C.wp op (AuthorityService.authorize evaluator decisionId facts now) Q e [] [] [] := by
  refine Contract.wp_run_bind.mpr (Contract.wp_orFail_bind.mpr (Contract.wp_autocommit.mpr ?_))
  refine Contract.wp_statement (hquiet e) (fun d er _ _ hg => herr d _ hg) ?_
  intro d₁ d₂ _ _ _ _ hg₂
  dsimp only
  split
  · rename_i rows _
    refine ⟨hquiet d₂, fun d₃ _ hg₃ => ⟨herr d₃ _ hg₃, ?_⟩⟩
    change C.wp op (Postgres.Proc.done (rows.mapM grantFromRow)) _ d₃ [] [] []
    cases rows.mapM grantFromRow with
    | error er => exact herr d₃ er hg₃
    | ok grants =>
      refine Contract.wp_run_bind.mpr (Contract.wp_bind.mpr (Contract.wp_autocommit.mpr ?_))
      refine Contract.wp_insert (hquiet d₃) (fun d er _ _ hg => herr d _ hg) fun d₄ _ hg₄ _ => ?_
      exact ⟨hquiet d₄, fun d₅ _ hg₅ => ⟨herr d₅ _ hg₅, hok d₅ _ hg₅ rfl⟩⟩
  · exact herr d₂ _ hg₂

end InfernalLaw
