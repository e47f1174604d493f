import InfernalLaw.Kernel.Identity
import InfernalLaw.Kernel.Names

/-!
# Authority

Grants and facts, schema versions, and the decision that `AuthorityService::authorize` records. The
verdict is an evaluator's, outside of the kernel.
-/

namespace InfernalLaw

/-- The two schema versions that every decision and every grant is pinned to. -/
structure SchemaVersionRefs where
  artifact : SchemaVersionId
  permissionPolicy : SchemaVersionId
  deriving DecidableEq

/-- The reserved pair for actions that concern no artifact. -/
def noArtifactSchemaVersions : SchemaVersionRefs := ⟨⟨1⟩, ⟨2⟩⟩

/-- What a decision is about. Acceptance of a request has no destination, a route has one. -/
structure PolicyFacts where
  source : ActorId
  action : ActionName
  scope : Scope
  schemaVersions : SchemaVersionRefs
  destination : Option ActorId
  deriving DecidableEq

/-- `PolicyFacts::for_request_acceptance`. -/
def PolicyFacts.forRequestAcceptance (source : ActorId) (action : ActionName) (scope : Scope)
    (schemaVersions : SchemaVersionRefs) : PolicyFacts :=
  { source, action, scope, schemaVersions, destination := none }

/-- A grant that an administrator made. The last field is what `Grant::restore` checks. -/
structure Grant where
  id : GrantId
  source : ActorId
  action : ActionName
  scope : Scope
  schemaVersions : SchemaVersionRefs
  destination : Option ActorId
  validFrom : ℤ
  validUntil : Option ℤ
  window : 0 ≤ validFrom ∧ ∀ limit ∈ validUntil, validFrom < limit
  deriving DecidableEq

/-- `Grant::permits`. -/
def Grant.permits (g : Grant) (facts : PolicyFacts) (now : ℤ) : Bool :=
  decide (g.source = facts.source) && decide (g.action = facts.action) &&
    g.scope.matchesScope facts.scope && decide (g.schemaVersions = facts.schemaVersions) &&
    decide (g.destination = facts.destination) && decide (g.validFrom ≤ now) &&
    g.validUntil.all fun limit => decide (now < limit)

/-- What a grant must agree on with the facts that it permits. -/
theorem Grant.permits_iff {g : Grant} {facts : PolicyFacts} {now : ℤ} :
    g.permits facts now = true ↔
      g.source = facts.source ∧ g.action = facts.action ∧
        (g.scope.text = ['*'] ∨ g.scope.text = facts.scope.text) ∧
        g.schemaVersions = facts.schemaVersions ∧ g.destination = facts.destination ∧
        g.validFrom ≤ now ∧ ∀ limit ∈ g.validUntil, now < limit := by
  simp [permits, Scope.matchesScope, Option.all_eq_true, and_assoc]

/-- The two namespaces of schema versions. -/
inductive SchemaKind where
  | artifact
  | permissionPolicy
  deriving DecidableEq

/-- The status of a schema version, which only an administrator changes. -/
inductive SchemaStatus where
  | published
  | active
  | suspended
  | superseded
  | retired
  deriving DecidableEq

/-- A published schema version. The last field is what `SchemaVersion::restore` checks. -/
structure SchemaVersion where
  id : SchemaVersionId
  kind : SchemaKind
  name : SchemaName
  version : ℤ
  owner : ActorId
  contentDigest : Bytes32
  predecessor : Option SchemaVersionId
  publishedAt : ℤ
  numbered : 1 ≤ version ∧ 0 ≤ publishedAt
  deriving DecidableEq

/-- A schema version with its status. -/
structure SchemaRecord where
  version : SchemaVersion
  status : SchemaStatus
  deriving DecidableEq

/-- What an evaluator decides. -/
inductive Verdict where
  | allow
  | deny
  deriving DecidableEq

/-- A decision, recorded once and never evaluated again. -/
structure AuthorityDecision where
  id : DecisionId
  facts : PolicyFacts
  verdict : Verdict
  evaluator : ActorId
  policyBundleVersion : Option PolicyBundleVersion
  decidedAt : ℤ
  deriving DecidableEq

/-- `AuthorityDecision::is_allowed`. -/
def AuthorityDecision.isAllowed (d : AuthorityDecision) : Bool := decide (d.verdict = .allow)

/-- What an evaluator answers for facts that it could evaluate. -/
structure PolicyEvaluation where
  verdict : Verdict
  policyBundleVersion : PolicyBundleVersion
  deriving DecidableEq

/-- What can go wrong with authority. -/
inductive AuthorityError where
  | invalidScope
  | invalidPolicyBundleVersion
  | invalidValidityWindow
  | invalidGrantId
  | invalidSchemaName
  | invalidSchemaVersionId
  | invalidSchemaVersion
  | invalidDecisionId
  | schemaNamespaceConflict (name : SchemaName)
  | repository (failure : Failure)
  | evaluator (message : Str)
  deriving DecidableEq

/-- `Grant::restore`. -/
def Grant.restore (id : GrantId) (source : ActorId) (action : ActionName) (scope : Scope)
    (schemaVersions : SchemaVersionRefs) (destination : Option ActorId) (validFrom : ℤ)
    (validUntil : Option ℤ) : Except AuthorityError Grant :=
  if h : validFrom < 0 ∨ ∃ limit ∈ validUntil, limit ≤ validFrom then
    .error .invalidValidityWindow
  else
    .ok
      { id, source, action, scope, schemaVersions, destination, validFrom, validUntil
        window :=
          ⟨Int.not_lt.mp fun hlt => h (.inl hlt),
            fun limit hl => Int.not_le.mp fun hle => h (.inr ⟨limit, hl, hle⟩)⟩ }

/-- What `Grant::restore` builds has the given fields, when its window is valid. -/
theorem Grant.restore_eq_ok {id : GrantId} {source : ActorId} {action : ActionName} {scope : Scope}
    {schemaVersions : SchemaVersionRefs} {destination : Option ActorId} {validFrom : ℤ}
    {validUntil : Option ℤ} {g : Grant} :
    Grant.restore id source action scope schemaVersions destination validFrom validUntil = .ok g ↔
      g.id = id ∧ g.source = source ∧ g.action = action ∧ g.scope = scope ∧
        g.schemaVersions = schemaVersions ∧ g.destination = destination ∧
        g.validFrom = validFrom ∧ g.validUntil = validUntil := by
  have hwindow := g.window
  unfold Grant.restore
  split
  · rename_i h
    simp only [reduceCtorEq, false_iff]
    rintro ⟨-, -, -, -, -, -, rfl, rfl⟩
    rcases h with h | ⟨limit, hl, h⟩
    · omega
    · have := hwindow.2 limit hl
      omega
  · cases g
    simp [eq_comm]

/-- `SchemaVersion::restore`. -/
def SchemaVersion.restore (id : SchemaVersionId) (kind : SchemaKind) (name : SchemaName)
    (version : ℤ) (owner : ActorId) (contentDigest : Bytes32)
    (predecessor : Option SchemaVersionId) (publishedAt : ℤ) :
    Except AuthorityError SchemaVersion :=
  if h : version < 1 ∨ publishedAt < 0 then .error .invalidSchemaVersion
  else
    .ok
      { id, kind, name, version, owner, contentDigest, predecessor, publishedAt
        numbered := by omega }

/-- What `SchemaVersion::restore` builds has the given fields. -/
theorem SchemaVersion.restore_eq_ok {id : SchemaVersionId} {kind : SchemaKind} {name : SchemaName}
    {version : ℤ} {owner : ActorId} {contentDigest : Bytes32} {predecessor : Option SchemaVersionId}
    {publishedAt : ℤ} {v : SchemaVersion} :
    SchemaVersion.restore id kind name version owner contentDigest predecessor publishedAt = .ok v ↔
      v.id = id ∧ v.kind = kind ∧ v.name = name ∧ v.version = version ∧ v.owner = owner ∧
        v.contentDigest = contentDigest ∧ v.predecessor = predecessor ∧
        v.publishedAt = publishedAt := by
  have hnumbered := v.numbered
  unfold SchemaVersion.restore
  split
  · simp only [reduceCtorEq, false_iff]
    rintro ⟨-, -, -, rfl, -, -, -, rfl⟩
    omega
  · cases v
    simp [eq_comm]

/-- `AuthorityService::authorize`, over any monad: the matching grants, the evaluator's verdict, and
the decision recorded before it is returned. An evaluator that fails or answers nonsense denies. -/
def authorize {m : Type → Type} [Monad m]
    (matchingGrants : PolicyFacts → ℤ → ExceptT AuthorityError m (List Grant))
    (evaluate : PolicyFacts → List Grant → Except AuthorityError PolicyEvaluation)
    (record : AuthorityDecision → ExceptT AuthorityError m Unit) (evaluatorId : ActorId)
    (decisionId : DecisionId) (facts : PolicyFacts) (now : ℤ) :
    ExceptT AuthorityError m AuthorityDecision := do
  let grants ← matchingGrants facts now
  let (verdict, policyBundleVersion) :=
    match evaluate facts grants with
    | .ok evaluation => (evaluation.verdict, some evaluation.policyBundleVersion)
    | .error _ => (Verdict.deny, none)
  let decision : AuthorityDecision :=
    { id := decisionId, facts, verdict, evaluator := evaluatorId, policyBundleVersion
      decidedAt := now }
  record decision
  return decision

end InfernalLaw
