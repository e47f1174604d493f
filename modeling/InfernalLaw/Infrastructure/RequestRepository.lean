import InfernalLaw.Infrastructure.SchemaVersions
import InfernalLaw.Postgres.Faults

/-!
# The request repository

`PostgresRequestRepository::accept` as a process over the database, and what it may commit: a new
row, or the verdict on the row that is there already, each with a row in the audit.
-/

namespace InfernalLaw

open Postgres (Avoids Contract DbError Store require_bind_eq_error require_bind_eq_ok
  require_eq_error require_eq_ok)
open Postgres.Proc (commitNow ensure insert insertOrNothing orFail query transaction)

/-- `repository_error`. -/
def RequestError.ofDatabase (e : DbError) : RequestError := .repository (.database e)

/-- `foreign_key_violation_error` of the request repository, or else `repository_error`. -/
def RequestError.ofInsert (sourceService : ActorId) : DbError → RequestError
  | .foreignKeyViolation "accepted_requests_source_service_id_fkey" => .unknownSource sourceService
  | .foreignKeyViolation "accepted_requests_artifact_schema_version_fk" => .unknownSchemaVersion
  | .foreignKeyViolation "accepted_requests_permission_policy_schema_version_fk" =>
    .unknownSchemaVersion
  | e => .ofDatabase e

/-- The row that `accept` inserts, with the time of its transaction. -/
def Request.row (r : Request) (fingerprint : RequestFingerprint) (acceptedAt : ℤ) :
    AcceptedRequestRow where
  sourceServiceId := r.sourceService
  requestId := r.id
  action := r.action.text
  scope := r.scope.text
  artifactSchemaVersionId := r.schemaVersions.artifact
  permissionPolicySchemaVersionId := r.schemaVersions.permissionPolicy
  semanticFingerprint := fingerprint.digest
  acceptedAt := acceptedAt

/-- The row of a stored request. -/
def AcceptedRequest.row (r : AcceptedRequest) : AcceptedRequestRow :=
  r.request.row r.fingerprint r.acceptedAt

/-- The row of `request_acceptance_audit`. -/
def Request.auditRow (r : Request) (fingerprint : RequestFingerprint)
    (outcome : AcceptanceOutcome) : AcceptanceAuditRow where
  sourceServiceId := r.sourceService
  requestId := r.id
  attemptedAction := r.action.text
  attemptedScope := r.scope.text
  attemptedArtifactSchemaVersionId := r.schemaVersions.artifact
  attemptedPermissionPolicySchemaVersionId := r.schemaVersions.permissionPolicy
  attemptedFingerprint := fingerprint.digest
  outcome := outcome

/-- `accepted_request_from_row`. -/
def acceptedRequestFromRow (row : AcceptedRequestRow) : Except RequestError AcceptedRequest := do
  let scope ← (Scope.new row.scope).elim
    (.error (.repository (.kernel "stored request scope is invalid"))) .ok
  let request ← (Request.restore row.requestId row.sourceServiceId row.action scope
    ⟨row.artifactSchemaVersionId, row.permissionPolicySchemaVersionId⟩).mapError
      fun _ => .repository (.kernel "stored request action is invalid")
  (AcceptedRequest.restore request ⟨row.semanticFingerprint⟩ row.acceptedAt).mapError
    fun _ => .repository (.kernel "stored acceptance time is invalid")

/-- A stored request is read back as it was, and nothing else reads back as it. -/
theorem acceptedRequestFromRow_eq_ok {row : AcceptedRequestRow} {r : AcceptedRequest} :
    acceptedRequestFromRow row = .ok r ↔ row = r.row := by
  simp only [acceptedRequestFromRow, Postgres.bind_eq_ok, Postgres.elim_eq_ok,
    Postgres.mapError_eq_ok, Scope.new_eq_some, Request.restore_eq_ok,
    AcceptedRequest.restore_eq_ok]
  constructor
  · rintro ⟨scope, hscope, request, ⟨hid, hsource, haction, rfl, hversions⟩, rfl, hfp, hat⟩
    cases row
    simp_all [AcceptedRequest.row, Request.row]
  · rintro rfl
    exact ⟨_, rfl, _, ⟨rfl, rfl, rfl, rfl, rfl⟩, rfl, rfl, rfl⟩

/-- A row determines the stored request. -/
theorem AcceptedRequest.row_injective {r r' : AcceptedRequest} (h : r.row = r'.row) : r = r' := by
  have hr := acceptedRequestFromRow_eq_ok.mpr (Eq.refl r.row)
  rw [acceptedRequestFromRow_eq_ok.mpr h] at hr
  exact (Except.ok.inj hr).symm

/-- A row determines the request and its fingerprint. -/
theorem Request.row_injective {r r' : Request} {fingerprint fingerprint' : RequestFingerprint}
    {acceptedAt acceptedAt' : ℤ}
    (h : r.row fingerprint acceptedAt = r'.row fingerprint' acceptedAt') :
    r = r' ∧ fingerprint = fingerprint' := by
  obtain ⟨id, source, ⟨action, ha⟩, ⟨scope, hs⟩, ⟨artifact, policy⟩⟩ := r
  obtain ⟨id', source', ⟨action', ha'⟩, ⟨scope', hs'⟩, ⟨artifact', policy'⟩⟩ := r'
  obtain ⟨digest⟩ := fingerprint
  obtain ⟨digest'⟩ := fingerprint'
  simp only [Request.row, AcceptedRequestRow.mk.injEq] at h
  simp [h]

/-- What is wrong with a row is reported as a failure of the repository. -/
theorem acceptedRequestFromRow_error {row : AcceptedRequestRow} {e : RequestError}
    (h : acceptedRequestFromRow row = .error e) : ∃ message, e = .repository (.kernel message) := by
  simp only [acceptedRequestFromRow, Postgres.bind_eq_error, Postgres.elim_eq_error,
    Postgres.mapError_eq_error] at h
  rcases h with ⟨-, rfl⟩ | ⟨_, -, ⟨_, -, rfl⟩ | ⟨_, -, _, -, rfl⟩⟩ <;> exact ⟨_, rfl⟩

namespace PostgresRequestRepository

/-- `INSERT_SQL`. -/
def insertRequest (row : AcceptedRequestRow) : Sql (Except DbError ℕ) :=
  insertOrNothing store "INSERT_SQL" row.check
    (fun d => d.acceptedRequests.any fun r =>
      r.sourceServiceId = row.sourceServiceId ∧ r.requestId = row.requestId)
    (fun d => d.referencesAcceptedRequest row) (.acceptedRequests row)

/-- `FIND_SQL`. -/
def findRequest (sourceService : ActorId) (requestId : RequestId) :
    Sql (Except DbError (Option AcceptedRequestRow)) :=
  query "FIND_SQL" fun d => d.acceptedRequests.find? fun r =>
    r.sourceServiceId = sourceService ∧ r.requestId = requestId

/-- `append_audit`. -/
def appendAudit (row : AcceptanceAuditRow) : Sql (Except DbError Unit) :=
  insert store "AUDIT_SQL" (fun _ => []) (fun d => d.referencesAcceptanceAudit row)
    (.acceptanceAudit row)

/-- How `accept` ends: with an audit row, a commit, and its answer. -/
def conclude (request : Request) (fingerprint : RequestFingerprint) (outcome : AcceptanceOutcome)
    (answer : Except RequestError RequestAcceptance) : Fallible RequestError RequestAcceptance := do
  let _ ← orFail .ofDatabase (appendAudit (request.auditRow fingerprint outcome))
  let _ ← orFail .ofDatabase commitNow
  ensure answer

/-- `accept`, in a transaction that begins at `now`. -/
def accept (request : Request) (fingerprint : RequestFingerprint) (now : ℤ) :
    Sql (Except RequestError RequestAcceptance) :=
  transaction do
    let inserted ← orFail (.ofInsert request.sourceService)
      (insertRequest (request.row fingerprint now))
    if inserted = 1 then do
      let stored ← ensure (acceptedRequestFromRow (request.row fingerprint now))
      conclude request fingerprint .accepted (.ok (.accepted stored))
    else do
      let row ← orFail .ofDatabase (findRequest request.sourceService request.id)
      let row ← ensure (row.elim
        (.error (.repository (.kernel "conflicting request disappeared during acceptance"))) .ok)
      let stored ← ensure (acceptedRequestFromRow row)
      if stored.request ≠ request ∨ stored.fingerprint ≠ fingerprint then
        conclude request fingerprint .requestConflictRejected
          (.error (.requestIdConflict request.id))
      else
        conclude request fingerprint .safeRetry (.ok (.safeRetry stored))

end PostgresRequestRepository

/-! ## What an acceptance commits -/

/-- No write changes an accepted request or takes it away. -/
theorem appendOnly_acceptedRequests :
    store.AppendOnly Db.acceptedRequests Write.acceptedRequests where
  apply_write _ _ := rfl
  apply_other _ w h := by cases w <;> first | rfl | exact absurd rfl (h _)

/-- Nor an audit entry on one. -/
theorem appendOnly_acceptanceAudit : store.AppendOnly Db.acceptanceAudit Write.acceptanceAudit where
  apply_write _ _ := rfl
  apply_other _ w h := by cases w <;> first | rfl | exact absurd rfl (h _)

/-- The primary key of `accepted_requests`. -/
def AcceptedRequestRow.key (row : AcceptedRequestRow) : ActorId × RequestId :=
  (row.sourceServiceId, row.requestId)

/-- The source's name for the request. -/
def Request.key (r : Request) : ActorId × RequestId := (r.sourceService, r.id)

/-- No request is stored under this one's name. -/
def Db.Unaccepted (d : Db) (request : Request) : Prop :=
  ∀ row ∈ d.acceptedRequests, row.key ≠ request.key

/-- The request's source and its schema versions are stored. -/
def Db.Resolves (d : Db) (request : Request) : Prop :=
  request.sourceService ∈ d.identities ∧
    request.schemaVersions.artifact ∈ d.schemaVersions.map SchemaVersionRow.schemaVersionId ∧
    request.schemaVersions.permissionPolicy ∈
      d.schemaVersions.map SchemaVersionRow.schemaVersionId

/-- The answers that are committed, each with its writes and what they find. -/
inductive Accepts (request : Request) (fingerprint : RequestFingerprint) (now : ℤ) (d : Db) :
    Except RequestError RequestAcceptance → List Write → Prop where
  | accepted {stored : AcceptedRequest} (hfree : d.Unaccepted request)
      (hresolves : d.Resolves request) (hstored : stored.row = request.row fingerprint now) :
      Accepts request fingerprint now d (.ok (.accepted stored))
        [.acceptedRequests stored.row, .acceptanceAudit (request.auditRow fingerprint .accepted)]
  | conflict {stored : AcceptedRequest} (hmem : stored.row ∈ d.acceptedRequests)
      (hkey : stored.request.key = request.key)
      (hne : stored.request ≠ request ∨ stored.fingerprint ≠ fingerprint) :
      Accepts request fingerprint now d (.error (.requestIdConflict request.id))
        [.acceptanceAudit (request.auditRow fingerprint .requestConflictRejected)]
  | safeRetry {stored : AcceptedRequest} (hmem : stored.row ∈ d.acceptedRequests)
      (hrequest : stored.request = request) (hfingerprint : stored.fingerprint = fingerprint) :
      Accepts request fingerprint now d (.ok (.safeRetry stored))
        [.acceptanceAudit (request.auditRow fingerprint .safeRetry)]

/-- The errors of `accept` that are no failure of the server, each with what it finds. -/
inductive Refuses (request : Request) (fingerprint : RequestFingerprint) (now : ℤ) (d : Db) :
    RequestError → Prop where
  /-- A `CHECK` constraint refuses the row, whatever is stored under the name. -/
  | invalid {e : DbError} (hcheck : (request.row fingerprint now).check = .error e) :
      Refuses request fingerprint now d (.ofInsert request.sourceService e)
  /-- A foreign key refuses a row that would be new. -/
  | unresolved {e : RequestError} (hfree : d.Unaccepted request) (hnot : ¬ d.Resolves request)
      (he : e = if request.sourceService ∈ d.identities then .unknownSchemaVersion
        else .unknownSource request.sourceService) : Refuses request fingerprint now d e
  /-- The row that was inserted cannot be read back. -/
  | untimely {f : Failure} (hnow : now < 0) : Refuses request fingerprint now d (.repository f)
  /-- The row that is stored under the name cannot be read. -/
  | unreadable {row : AcceptedRequestRow} {f : Failure} (hmem : row ∈ d.acceptedRequests)
      (hkey : row.key = request.key) (hnot : ∀ stored : AcceptedRequest, stored.row ≠ row) :
      Refuses request fingerprint now d (.repository f)

/-- What is refused is no conflict. -/
theorem Refuses.ne_requestIdConflict {request : Request} {fingerprint : RequestFingerprint}
    {now : ℤ} {d : Db} {e : RequestError} (h : Refuses request fingerprint now d e)
    (id : RequestId) :
    e ≠ .requestIdConflict id := by
  cases h with
  | @invalid e =>
    unfold RequestError.ofInsert
    split <;> simp [RequestError.ofDatabase]
  | unresolved _ _ he =>
    rw [he]
    split <;> simp
  | untimely => simp
  | unreadable => simp

/-- What a request refers to stays stored. -/
theorem stable_resolves {locks : List Key} {request : Request} :
    store.Stable locks fun d => d.Resolves request := by
  have hsource : store.Stable locks fun d => request.sourceService ∈ d.identities :=
    identities_versioned.stable_mem_pk _
  have hversion : ∀ id, store.Stable locks fun d =>
      id ∈ d.schemaVersions.map SchemaVersionRow.schemaVersionId :=
    fun id => schemaVersions_versioned.stable_mem_pk id
  exact fun d w hd hk => ⟨hsource d w hd.1 hk, hversion _ d w hd.2.1 hk, hversion _ d w hd.2.2 hk⟩

/-- The foreign keys of a row ask for what the request refers to. -/
theorem Db.referencesAcceptedRequest_eq_ok {d : Db} {request : Request}
    {fingerprint : RequestFingerprint} {now : ℤ} :
    d.referencesAcceptedRequest (request.row fingerprint now) = .ok () ↔ d.Resolves request := by
  unfold referencesAcceptedRequest
  rw [require_bind_eq_ok, require_bind_eq_ok, require_eq_ok]
  simp only [Resolves, Request.row, List.mem_map]

/-- What a foreign key of the row reports. -/
theorem Db.referencesAcceptedRequest_eq_error {d : Db} {request : Request}
    {fingerprint : RequestFingerprint} {now : ℤ} {e : DbError}
    (h : d.referencesAcceptedRequest (request.row fingerprint now) = .error e) :
    ¬ d.Resolves request ∧ RequestError.ofInsert request.sourceService e =
      if request.sourceService ∈ d.identities then .unknownSchemaVersion
        else .unknownSource request.sourceService := by
  refine ⟨fun hresolves => ?_, ?_⟩
  · rw [referencesAcceptedRequest_eq_ok.mpr hresolves] at h
    cases h
  unfold referencesAcceptedRequest at h
  rcases require_bind_eq_error.mp h with ⟨hsource, rfl⟩ | ⟨hsource, h⟩
  · exact (if_neg hsource).symm
  refine Eq.trans ?_ (if_pos hsource).symm
  rcases require_bind_eq_error.mp h with ⟨-, rfl⟩ | ⟨-, h⟩
  · rfl
  · obtain ⟨-, rfl⟩ := require_eq_error.mp h
    rfl

/-- While its index entry is held, a name stays free of others' requests. -/
theorem stable_unaccepted {locks : List Key} {request : Request}
    (h : .acceptedRequest request.sourceService request.id ∈ locks) :
    store.Stable locks fun d => d.Unaccepted request := by
  intro d w hd hk row hmem hkey
  rcases appendOnly_acceptedRequests.mem_apply hmem with hmem | rfl
  · exact hd row hmem hkey
  · obtain ⟨hsource, hid⟩ := Prod.ext_iff.mp hkey
    exact hk (.acceptedRequest row.sourceServiceId row.requestId) (by simp [Write.keys])
      ((show row.sourceServiceId = _ from hsource) ▸ (show row.requestId = _ from hid) ▸ h)

/-- What is answered as accepted is stored. -/
theorem Accepts.record {request : Request} {fingerprint : RequestFingerprint} {now : ℤ} {d : Db}
    {acceptance : RequestAcceptance} {ws : List Write}
    (h : Accepts request fingerprint now d (.ok acceptance) ws) :
    acceptance.record.request = request ∧
      acceptance.record.row ∈ (store.view d ws).acceptedRequests := by
  have hstable : ∀ row, store.Stable [] fun d => row ∈ d.acceptedRequests :=
    fun row => appendOnly_acceptedRequests.stable_mem row
  cases h with
  | @accepted stored _ _ hstored =>
    have hrows : (store.view d [.acceptedRequests stored.row,
        .acceptanceAudit (request.auditRow fingerprint .accepted)]).acceptedRequests =
          d.acceptedRequests ++ [stored.row] := rfl
    exact ⟨(Request.row_injective hstored).1,
      hrows ▸ List.mem_append_right _ (List.mem_singleton_self _)⟩
  | @safeRetry stored hmem hrequest _ =>
    exact ⟨hrequest, (hstable stored.row).view _ d (fun _ _ _ _ => List.not_mem_nil) hmem⟩

namespace PostgresRequestRepository

variable {Op α : Type} {program : Op → Sql α} {C : Contract (kernelSystem program)} {op : Op}
  {request : Request} {fingerprint : RequestFingerprint} {now : ℤ}
  {Q : C.Post (Except RequestError RequestAcceptance)}

/-- A name that no row has is free. -/
theorem unaccepted_of_any {d : Db} (h : d.acceptedRequests.any (fun r =>
    r.sourceServiceId = request.sourceService ∧ r.requestId = request.id) = false) :
    d.Unaccepted request := by
  intro row hmem hkey
  simp only [List.any_eq_false, decide_eq_true_eq] at h
  exact h row hmem (Prod.ext_iff.mp hkey)

/-- The rule of `conclude`, where the request that the audit names is stored. -/
theorem wp_conclude (hquiet : ∀ d, C.guar op d [] none) {outcome : AcceptanceOutcome}
    {answer : Except RequestError RequestAcceptance}
    (hfail : ∀ d, C.Good d → Q (.error (.ofDatabase .unavailable)) d [] [] []) {e : Db}
    {locks : List Key} {ws : List Write}
    (hstored : ∀ d, C.Rely locks e d → ∃ row ∈ (store.view d ws).acceptedRequests,
      row.sourceServiceId = request.sourceService ∧ row.requestId = request.id)
    (hok : ∀ d, C.Rely locks e d → C.Good d →
      Q answer d (ws ++ [.acceptanceAudit (request.auditRow fingerprint outcome)]) [] []) :
    C.wp op (conclude request fingerprint outcome answer).run (fun r e u _ _ => Q r e u [] [])
      e [] locks ws := by
  refine Contract.wp_orFail_bind.mpr ?_
  refine Contract.wp_insert' (hquiet e) hfail (fun d₁ er hr₁ _ hrefused => ?_)
    fun d₁ hr₁ hg₁ _ => ?_
  · exact absurd (hrefused.symm.trans (require_eq_ok.mpr (hstored d₁ hr₁))) (by simp)
  refine Contract.wp_orFail_bind.mpr ?_
  refine Contract.wp_commitNow' (hquiet d₁) hfail fun d₂ hr₂ hg₂ => ?_
  exact hok d₂ (hr₁.trans (hr₂.mono fun k hk => List.mem_append_left _ hk)) hg₂

/-- The rule of `accept`. Besides a failure of the server, only what `Refuses` lists keeps a call
from being committed. -/
theorem wp_accept (hquiet : ∀ d, C.guar op d [] none)
    (hfail : ∀ d, C.Good d → Q (.error (.ofDatabase .unavailable)) d [] [] [])
    (hrefused : ∀ d er, C.Good d → Refuses request fingerprint now d er →
      Q (.error er) d [] [] [])
    (hok : ∀ d answer ws, C.Good d → Accepts request fingerprint now d answer ws →
      Q answer d ws [] []) {e : Db} :
    C.wp op (accept request fingerprint now) Q e [] [] [] := by
  refine Contract.wp_transaction.mpr (Contract.wp_orFail_bind.mpr ?_)
  refine Contract.wp_insertOrNothing' (hquiet e) hfail ?_ ?_ ?_ ?_
  · intro d₁ er _ _ _ hg₁ hcheck
    exact hrefused d₁ _ hg₁ (.invalid hcheck)
  · intro d₁ er _ hg₁ hfree hcheck
    obtain ⟨hnot, he⟩ := Db.referencesAcceptedRequest_eq_error hcheck
    exact hrefused d₁ _ hg₁ (.unresolved (unaccepted_of_any hfree) hnot he)
  · -- The name is taken: the row that the `INSERT` has met is committed, and stays, so that the
    -- `SELECT` finds it.
    intro d₁ hr₁ hg₁ _ htaken
    dsimp only
    rw [if_neg (by decide)]
    refine Contract.wp_orFail_bind.mpr ?_
    refine Contract.wp_query' (hquiet d₁) hfail ?_
    intro d₂ d₃ hr₂ hg₂ _ hr₃ hg₃
    obtain ⟨row, hfind, hmem₂, hfound⟩ :=
      hr₂.exists_find (d := d₁) appendOnly_acceptedRequests htaken
    have hkey : row.key = request.key := Prod.ext_iff.mpr (of_decide_eq_true hfound)
    -- The row that was found stays.
    have hmem : ∀ d, C.Rely [] d₃ d → row ∈ d.acceptedRequests := fun d hr =>
      hr.stable (appendOnly_acceptedRequests.stable_mem _)
        (hr₃.stable (appendOnly_acceptedRequests.stable_mem _) hmem₂)
    have hfind : (store.view d₂ []).acceptedRequests.find? (fun r =>
        r.sourceServiceId = request.sourceService ∧ r.requestId = request.id) = some row := hfind
    dsimp only
    rw [hfind, Contract.wp_ensure_bind]
    dsimp only [Option.elim]
    rw [Contract.wp_ensure_bind]
    split
    · rename_i stored hstored
      obtain rfl := acceptedRequestFromRow_eq_ok.mp hstored
      have hstored : ∀ d, C.Rely [] d₃ d → ∃ row ∈ (store.view d []).acceptedRequests,
          row.sourceServiceId = request.sourceService ∧ row.requestId = request.id :=
        fun d hr => ⟨_, hmem d hr, Prod.ext_iff.mp hkey⟩
      split
      · rename_i hne
        exact wp_conclude hquiet hfail hstored fun d hr hg =>
          hok d _ _ hg (.conflict (hmem d hr) hkey hne)
      · rename_i heq
        rw [not_or, not_not, not_not] at heq
        exact wp_conclude hquiet hfail hstored fun d hr hg =>
          hok d _ _ hg (.safeRetry (hmem d hr) heq.1 heq.2)
    · rename_i er her
      obtain ⟨f, rfl⟩ := acceptedRequestFromRow_error her
      refine hrefused d₃ _ hg₃ (.unreadable (hmem d₃ .refl) hkey fun stored hrow => ?_)
      rw [acceptedRequestFromRow_eq_ok.mpr hrow.symm] at her
      cases her
  · -- The name is new, and its index entry is held from here on.
    intro d₁ hr₁ hg₁ _ hfree hresolves
    have hresolves₁ : d₁.Resolves request := Db.referencesAcceptedRequest_eq_ok.mp hresolves
    dsimp only
    rw [if_pos rfl, Contract.wp_ensure_bind]
    split
    · rename_i stored hstored
      have hrow := acceptedRequestFromRow_eq_ok.mp hstored
      refine wp_conclude hquiet hfail (fun d _ => ?_) fun d hr hg => ?_
      · exact ⟨_, List.mem_append_right _ (List.mem_singleton_self _), rfl, rfl⟩
      have hfree' : d.Unaccepted request :=
        hr.stable (stable_unaccepted (by simp [Write.keys, Request.row])) (unaccepted_of_any hfree)
      rw [hrow]
      exact hok d _ _ hg (.accepted hfree' (hr.stable stable_resolves hresolves₁) hrow.symm)
    · rename_i er her
      obtain ⟨f, rfl⟩ := acceptedRequestFromRow_error her
      refine hrefused d₁ _ hg₁ (.untimely ?_)
      by_contra hnow
      -- A row with a time is read back as the request that it was made from.
      let stored : AcceptedRequest := ⟨request, fingerprint, now, not_lt.mp hnow⟩
      have hread : acceptedRequestFromRow (request.row fingerprint now) = .ok stored :=
        acceptedRequestFromRow_eq_ok.mpr rfl
      rw [hread] at her
      cases her

/-- What `accept` answers when the server does not fail it is no failure of the server. -/
theorem accept_delivers : (accept request fingerprint now).Delivers fun answer =>
    answer ≠ .error (.ofDatabase .unavailable) := by
  -- An error with a text of the kernel's own, and the verdict of a constraint.
  have hread : ∀ {row e}, acceptedRequestFromRow row = .error e → (.error e : Except _ _) ≠
      (.error (.ofDatabase .unavailable) : Except RequestError RequestAcceptance) := by
    intro row e he
    obtain ⟨message, rfl⟩ := acceptedRequestFromRow_error he
    rintro ⟨⟩
  have hverdict : ∀ {e : DbError}, e ≠ .unavailable →
      (.error (.ofInsert request.sourceService e) : Except RequestError RequestAcceptance) ≠
        .error (.ofDatabase .unavailable) := by
    intro e he heq
    have hinsert := Except.error.inj heq
    unfold RequestError.ofInsert at hinsert
    split at hinsert
    · cases hinsert
    · cases hinsert
    · cases hinsert
    · cases hinsert
      exact he rfl
  have hconclude : ∀ outcome answer, answer ≠ .error (.ofDatabase .unavailable) →
      (conclude request fingerprint outcome answer).run.Delivers fun answer =>
        answer ≠ .error (.ofDatabase .unavailable) := by
    intro outcome answer hanswer
    refine .orFail_bind (.insert fun d => ?_)
    cases hcheck : d.referencesAcceptanceAudit (request.auditRow fingerprint outcome) with
    | error e =>
      obtain ⟨-, rfl⟩ := require_eq_error.mp hcheck
      rintro ⟨⟩
    | ok _ => exact .orFail_bind (.commitNow hanswer)
  refine .transaction (.orFail_bind (.insertOrNothing (fun e he => ?_) (fun d e he => ?_)
    fun n => ?_))
  · have hcheck : Avoids (· = .unavailable) (request.row fingerprint now).check :=
      .bind (.require fun _ => by simp) fun _ _ =>
        .bind (.require fun _ => by simp) fun _ _ => .require fun _ => by simp
    exact hverdict (hcheck e he)
  · have hreferences : Avoids (· = .unavailable)
        (d.referencesAcceptedRequest (request.row fingerprint now)) :=
      .bind (.require fun _ => by simp) fun _ _ =>
        .bind (.require fun _ => by simp) fun _ _ => .require fun _ => by simp
    exact hverdict (hreferences e he)
  dsimp only
  split
  · exact .ensure_bind (fun e he => hread he) fun stored _ => hconclude _ _ (by rintro ⟨⟩)
  refine .orFail_bind (.query fun d => .ensure_bind (fun e he => ?_) fun row _ =>
    .ensure_bind (fun e he => hread he) fun stored _ => ?_)
  · obtain ⟨-, rfl⟩ := Postgres.elim_eq_error.mp he
    rintro ⟨⟩
  split
  · exact hconclude _ _ (by rintro ⟨⟩)
  · exact hconclude _ _ (by rintro ⟨⟩)

end PostgresRequestRepository

end InfernalLaw
