import InfernalLaw.Infrastructure.AuthorityFunctions
import InfernalLaw.Infrastructure.Background

/-!
# What the functions on schema versions commit

`publish_authority_schema_version` locks the version that it takes for the latest one, and inserts
its successor. `set_authority_schema_status` locks the version whose status it changes. What they
have seen of the locked row, and that the new row is alone under its number, still holds when they
commit.
-/

namespace InfernalLaw

open Postgres (Contract DbError RowWrite Store)

/-- Schema versions come in addition, or get a new status. -/
theorem schemaVersions_versioned :
    store.Versioned Db.schemaVersions Write.schemaVersions SchemaVersionRow.schemaVersionId where
  apply_write _ _ := rfl
  apply_other _ w hw := by cases w <;> first | rfl | exact absurd rfl (hw _)

/-- A locked version stays as it is. -/
theorem stable_mem_schemaVersions {row : SchemaVersionRow} {locks : List Key}
    (hl : .schemaVersion row.schemaVersionId ∈ locks) :
    store.Stable locks fun d => row ∈ d.schemaVersions :=
  schemaVersions_versioned.stable_mem fun rw hrw =>
    ⟨.schemaVersion rw.row.schemaVersionId, by simp [Write.keys], hrw ▸ hl⟩

/-- The version that comes after another one. -/
structure SchemaVersionRow.Succeeds (row latest : SchemaVersionRow) : Prop where
  kind : latest.kind = row.kind
  name : latest.name = row.name
  version : row.version = latest.version + 1
  owner : latest.ownerServiceId = row.ownerServiceId
  predecessor : row.predecessorId = some latest.schemaVersionId

/-- The number and the predecessor of a version: it is the first one, or comes after one that is
stored. -/
def Db.FollowsUp (d : Db) (row : SchemaVersionRow) : Prop :=
  (row.version = 1 ∧ row.predecessorId = none) ∨ ∃ latest ∈ d.schemaVersions, row.Succeeds latest

/-- A version is under an identifier and a number of its own. -/
structure Db.Unpublished (d : Db) (row : SchemaVersionRow) : Prop where
  fresh_id : ∀ r ∈ d.schemaVersions, r.schemaVersionId ≠ row.schemaVersionId
  fresh_version : ∀ r ∈ d.schemaVersions, r.kind = row.kind → r.name = row.name →
    r.version ≠ row.version

/-- What holds when `publish_authority_schema_version` commits. -/
structure Publishes (d : Db) (row : SchemaVersionRow) : Prop where
  follows : d.FollowsUp row
  unpublished : d.Unpublished row
  status : row.status = .published
  bound : row.version < 2 ^ 63

/-- The artifact schema that the migrations seed, with the digest of its name. -/
def reservedArtifactSchema (contentDigest : Bytes32) : SchemaVersionRow where
  schemaVersionId := ⟨1⟩
  kind := .artifact
  name := "kernel.no-artifact".toList
  version := 1
  ownerServiceId := ⟨0⟩
  contentDigest := contentDigest
  predecessorId := none
  publishedAt := 0
  status := .active

/-- The permission-policy schema that the migrations seed, with the digest of its name. -/
def reservedPermissionPolicySchema (contentDigest : Bytes32) : SchemaVersionRow where
  schemaVersionId := ⟨2⟩
  kind := .permissionPolicy
  name := "kernel.no-artifact-permission-policy".toList
  version := 1
  ownerServiceId := ⟨0⟩
  contentDigest := contentDigest
  predecessorId := none
  publishedAt := 0
  status := .active

/-- Rows that differ in their status only. -/
def SchemaVersionRow.EqButStatus (r r' : SchemaVersionRow) : Prop :=
  { r with status := r'.status } = r'

namespace SchemaVersionRow.EqButStatus

variable {r r' r'' : SchemaVersionRow}

/-- The columns that never change. -/
theorem columns (h : EqButStatus r r') : (r.schemaVersionId = r'.schemaVersionId ∧
    r.kind = r'.kind ∧ r.name = r'.name) ∧ r.version = r'.version ∧
      r.ownerServiceId = r'.ownerServiceId ∧ r.predecessorId = r'.predecessorId := by
  unfold EqButStatus at h
  rw [← h]
  exact ⟨⟨rfl, rfl, rfl⟩, rfl, rfl, rfl⟩

/-- To differ in the status only is transitive. -/
theorem trans (h : EqButStatus r r') (h' : EqButStatus r' r'') : EqButStatus r r'' := by
  unfold EqButStatus at *
  rw [← h', ← h]

end SchemaVersionRow.EqButStatus

/-- What holds when `set_authority_schema_status` commits `new` in place of `old`. -/
structure Restates (d : Db) (old new : SchemaVersionRow) : Prop where
  mem : old ∈ d.schemaVersions
  same : new.EqButStatus old
  open_ : old.status.isTerminal = false

/-- The outcomes with which a call is rejected. -/
def SchemaStatusOutcome.isRejection : SchemaStatusOutcome → Bool
  | rejectedTerminal => true
  | rejectedUnknownSchema => true
  | _ => false

/-- What `set_authority_schema_status` commits: nothing when it repeats an earlier answer, else a
row of the audit, and with it the new status if it changes. -/
inductive SetsStatus (id : SchemaVersionId) (d : Db) : List Write → Prop where
  | nothing : SetsStatus id d []
  | audited {audit : SchemaStatusAuditRow} (h : audit.outcome.isRejection = false) :
      SetsStatus id d [.schemaStatusAudit audit]
  | changed {old new : SchemaVersionRow} {audit : SchemaStatusAuditRow}
      (hid : old.schemaVersionId = id) (h : Restates d old new)
      (haudit : audit.outcome.isRejection = false) :
      SetsStatus id d [.schemaVersions (.update new), .schemaStatusAudit audit]

/-- A row alone under its keys stays so while they are held. -/
theorem unpublished_stable {row : SchemaVersionRow} {locks : List Key}
    (hid : .schemaVersion row.schemaVersionId ∈ locks)
    (hversion : .schemaNumber row.kind row.name row.version ∈ locks) :
    store.Stable locks fun d => d.Unpublished row := by
  intro d w hd hk
  have hid' : store.Stable locks fun d => ∀ r ∈ d.schemaVersions,
      r.schemaVersionId ≠ row.schemaVersionId :=
    schemaVersions_versioned.stable_forall fun rw hrw heq =>
      hrw (.schemaVersion rw.row.schemaVersionId) (by simp [Write.keys]) (heq ▸ hid)
  have hversion' : store.Stable locks fun d => ∀ r ∈ d.schemaVersions, r.kind = row.kind →
      r.name = row.name → r.version ≠ row.version :=
    schemaVersions_versioned.stable_forall fun rw hrw hkind hname hnumber =>
      hrw (.schemaNumber rw.row.kind rw.row.name rw.row.version) (by simp [Write.keys])
        (hkind ▸ hname ▸ hnumber ▸ hversion)
  exact ⟨hid' d w hd.fresh_id hk, hversion' d w hd.fresh_version hk⟩

/-- What the constraints of `authority_schema_versions` let through. -/
theorem Db.unpublished_of_check {d : Db} {row : SchemaVersionRow}
    (h : d.checkSchemaVersion row = .ok ()) : d.Unpublished row := by
  simp only [checkSchemaVersion, Postgres.require_bind_eq_ok, Postgres.require_eq_ok] at h
  obtain ⟨-, -, -, hid, hversion, -⟩ := h
  exact ⟨hid, hversion⟩

/-- What the trigger lets through. -/
theorem changeSchemaVersion_eq_ok {old new new' : SchemaVersionRow}
    (h : changeSchemaVersion old new = .ok new') :
    new' = new ∧ new.EqButStatus old ∧ old.status.isTerminal = false := by
  simp only [changeSchemaVersion, Postgres.require_bind_eq_ok, pure, Except.pure,
    Except.ok.injEq] at h
  obtain ⟨hsame, hopen, -, hnew⟩ := h
  exact ⟨hnew.symm, hsame, hopen⟩

/-- A function that fails leaves the database as it was. -/
theorem exec_callFunction_error {α : Type} {f : PlPgSql α} {d : Db}
    (h : ∃ e ws, f.run.exec store d [] = ⟨d, ws, .error e⟩) :
    ∃ e, (callFunction f).exec store d [] = ⟨d, [], .error e⟩ := by
  obtain ⟨e, ws, h⟩ := h
  refine ⟨e, ?_⟩
  unfold callFunction
  rw [Postgres.Proc.exec_autocommit, h]

section Rules

variable {Op α β : Type} {program : Op → Sql α} {C : Contract (kernelSystem program)} {op : Op}

/-- The rule of a statement that calls a function: nothing is committed before the function has
returned. -/
theorem wp_callFunction (hquiet : ∀ d, C.guar op d [] none) {f : PlPgSql β}
    {Q : C.Post (Except DbError β)} (herr : ∀ d er, C.Good d → Q (.error er) d [] [] []) {e : Db}
    (h : C.wp op f.run (fun r d u locks ws => u = [] ∧ C.Good d ∧ ∀ b, r = .ok b →
      ∀ d', C.Rely locks d d' → C.Good d' → Q (.ok b) d' ws [] []) e [] [] []) :
    C.wp op (callFunction f) Q e [] [] [] := by
  refine Contract.wp_autocommit.mpr (Contract.wp_mono ?_ h)
  rintro (er | b) d u locks ws ⟨rfl, hg, hok⟩
  · exact herr d er hg
  · exact ⟨hquiet d, fun d' hr hg' => ⟨herr d' _ hg', hok b rfl d' hr hg'⟩⟩

/-- The rule of the lock that `publish_authority_schema_version` takes. -/
theorem wp_lockLatestSchemaVersion {kind : SchemaKind} {name : Str}
    {Q : C.Post (Except DbError (Option SchemaVersionRow))} {e : Db} (hg : C.guar op e [] none)
    (herr : ∀ d er locks ws, C.Good d → Q (.error er) d [] locks ws)
    (hok : ∀ d latest locks, C.Good d → (∀ r, latest = some r → r ∈ d.schemaVersions ∧
        r.kind = kind ∧ r.name = name ∧ .schemaVersion r.schemaVersionId ∈ locks) →
      Q (.ok latest) d [] locks []) :
    C.wp op (lockLatestSchemaVersion kind name) Q e [] [] [] := by
  refine Contract.wp_selectForUpdate hg herr fun d₁ d₂ _ _ _ hg₂ => hok d₂ _ _ hg₂ fun r h => ?_
  -- The row that is locked is the current version of one that the snapshot has.
  obtain ⟨r', hr', hfind⟩ := Option.bind_eq_some_iff.mp h
  have hfound := List.find?_some hfind
  rw [decide_eq_true_eq] at hfound
  obtain ⟨hid, hkind, hname⟩ := hfound
  refine ⟨List.mem_of_find?_eq_some hfind, hkind, hname, ?_⟩
  rw [hr', hid]
  simp

/-- A row with the next number follows up on the locked row, while that one stays locked. -/
theorem followsUp_of_next (row : SchemaVersionRow) {latest : Option SchemaVersionRow}
    {locks : List Key} {d : Db}
    (hnext : nextSchemaVersion row.name row.ownerServiceId latest =
      .ok (row.version, row.predecessorId))
    (hlocked : ∀ r, latest = some r → r ∈ d.schemaVersions ∧ r.kind = row.kind ∧
      r.name = row.name ∧ .schemaVersion r.schemaVersionId ∈ locks) :
    row.version < 2 ^ 63 ∧ ∀ d', C.Rely locks d d' → d'.FollowsUp row := by
  cases latest with
  | none =>
    obtain ⟨hversion, hpredecessor⟩ := Prod.mk.inj (Except.ok.inj hnext)
    exact ⟨by omega, fun _ _ => .inl ⟨hversion.symm, hpredecessor.symm⟩⟩
  | some r =>
    obtain ⟨hmem, hkind, hname, hlock⟩ := hlocked r rfl
    unfold nextSchemaVersion at hnext
    dsimp only at hnext
    split at hnext
    · cases hnext
    rename_i howner
    split at hnext
    · obtain ⟨hversion, hpredecessor⟩ := Prod.mk.inj (Except.ok.inj hnext)
      refine ⟨by omega, fun d' hr => .inr ⟨r, hr.stable (stable_mem_schemaVersions hlock) hmem, ?_⟩⟩
      exact ⟨hkind, hname, hversion.symm, not_not.mp howner, hpredecessor.symm⟩
    · cases hnext

/-- The rule of `publish_authority_schema_version`. -/
theorem wp_publishAuthoritySchemaVersion (hquiet : ∀ d, C.guar op d [] none)
    {id : SchemaVersionId} {kind : SchemaKind} {name : Str} {owner : ActorId}
    {contentDigest : Bytes32} {publishedAt : ℤ} {Q : C.Post (Except DbError SchemaVersionRow)}
    (herr : ∀ d er, C.Good d → Q (.error er) d [] [] [])
    (hok : ∀ d row, C.Good d → row.kind = kind ∧ row.name = name ∧ row.ownerServiceId = owner →
      Publishes d row → Q (.ok row) d [.schemaVersions (.insert row)] [] []) {e : Db} :
    C.wp op (callFunction
      (publishAuthoritySchemaVersion id kind name owner contentDigest publishedAt)) Q e
      [] [] [] := by
  refine wp_callFunction hquiet herr (Contract.wp_orFail_bind.mpr ?_)
  refine wp_lockLatestSchemaVersion (hquiet e) (fun d _ _ _ hg => ⟨rfl, hg, nofun⟩) ?_
  intro d₂ latest locks hg₂ hlocked
  refine Contract.wp_ensure_bind.mpr ?_
  rcases hnext : nextSchemaVersion name owner latest with er | ⟨version, predecessorId⟩
  · exact ⟨rfl, hg₂, nofun⟩
  let row : SchemaVersionRow :=
    { schemaVersionId := id, kind, name, version, ownerServiceId := owner, contentDigest
      predecessorId, publishedAt, status := .published }
  obtain ⟨hbound, hfollows⟩ := followsUp_of_next (C := C) row hnext hlocked
  refine Contract.wp_orFail_bind.mpr ?_
  refine Contract.wp_insert (hquiet d₂) (fun d _ _ _ hg => ⟨rfl, hg, nofun⟩) ?_
  intro d₃ hr₃ hg₃ hcheck
  refine ⟨rfl, hg₃, fun b hb d₄ hr₄ hg₄ => ?_⟩
  obtain rfl := Except.ok.inj hb
  have hstable : store.Stable (locks ++ (Write.schemaVersions (.insert row)).keys)
      fun d => d.Unpublished row := by
    refine unpublished_stable (List.mem_append_right _ ?_) (List.mem_append_right _ ?_) <;>
      simp [Write.keys]
  refine hok d₄ row hg₄ ⟨rfl, rfl, rfl⟩
    ⟨?_, hr₄.stable hstable (Db.unpublished_of_check hcheck), rfl, hbound⟩
  exact hfollows d₄ (hr₃.trans (hr₄.mono fun k hk => List.mem_append_left _ hk))

/-- The rule of the insert into the status audit, whatever the function goes on with. -/
theorem wp_insertSchemaStatusAudit {row : SchemaStatusAuditRow} {Q : C.Post (Except DbError Unit)}
    {e : Db} {locks : List Key} {ws : List Write} (hg : C.guar op e [] none)
    (herr : ∀ d er locks ws, C.Good d → Q (.error er) d [] locks ws)
    (hok : ∀ d, C.Rely locks e d → C.Good d → Q (.ok ()) d []
      (locks ++ [.schemaStatusAudit row.schemaVersionId row.correlationId])
      (ws ++ [.schemaStatusAudit row])) :
    C.wp op (insertSchemaStatusAudit row) Q e [] locks ws :=
  Contract.wp_insert hg herr fun d hr hg₂ _ => hok d hr hg₂

/-- The rule of what `set_authority_schema_status` does with the version that it has locked. -/
theorem wp_applySchemaStatus (hquiet : ∀ d, C.guar op d [] none) {id : SchemaVersionId}
    {status : SchemaStatus} {audit : Option SchemaStatus → SchemaStatusOutcome →
      SchemaStatusAuditRow}
    (haudit : ∀ old outcome, (audit old outcome).outcome = outcome)
    {Q : C.Post (Except DbError SchemaStatusOutcome)}
    (herr : ∀ d er locks ws, C.Good d → Q (.error er) d [] locks ws)
    (hok : ∀ d outcome locks ws, C.Good d → (∀ d', C.Rely locks d d' → SetsStatus id d' ws) →
      Q (.ok outcome) d [] locks ws) (version : Option SchemaVersionRow) {e : Db}
    {locks : List Key} :
    C.wp op (applySchemaStatus id status audit version).run Q e [] locks [] := by
  cases version with
  | none =>
    refine Contract.wp_orFail_bind.mpr (wp_insertSchemaStatusAudit (hquiet e) ?_ ?_)
    · exact fun d _ _ _ hg => herr d _ _ _ hg
    · exact fun d _ hg => herr d _ _ _ hg
  | some existing =>
    unfold applySchemaStatus
    dsimp only
    split
    · refine Contract.wp_orFail_bind.mpr (wp_insertSchemaStatusAudit (hquiet e) ?_ ?_)
      · exact fun d _ _ _ hg => herr d _ _ _ hg
      · exact fun d _ hg => herr d _ _ _ hg
    split
    · refine Contract.wp_orFail_bind.mpr (wp_insertSchemaStatusAudit (hquiet e) ?_ ?_)
      · exact fun d _ _ _ hg => herr d _ _ _ hg
      · exact fun d _ hg => hok d _ _ _ hg fun _ _ => .audited (by rw [haudit]; rfl)
    refine Contract.wp_orFail_bind.mpr (Contract.wp_update (hquiet e) ?_ ?_ ?_)
    · exact fun d _ _ _ hg => herr d _ _ _ hg
    · -- An update that finds no row would leave the status as it is.
      intro _ d₂ _ _ _ hg₂ _
      refine Contract.wp_orFail_bind.mpr (wp_insertSchemaStatusAudit (hquiet d₂) ?_ ?_)
      · exact fun d _ _ _ hg => herr d _ _ _ hg
      · exact fun d _ hg => hok d _ _ _ hg fun _ _ => .audited (by rw [haudit]; rfl)
    · intro d₁ d₂ r old new _ _ _ hg₂ _ hold hchange
      have hmem := List.mem_of_find?_eq_some hold
      have hid := List.find?_some hold
      rw [decide_eq_true_eq] at hid
      obtain ⟨rfl, hsame, hopen⟩ := changeSchemaVersion_eq_ok hchange
      refine Contract.wp_orFail_bind.mpr (wp_insertSchemaStatusAudit (hquiet d₂) ?_ ?_)
      · exact fun d _ _ _ hg => herr d _ _ _ hg
      intro d₃ hr₃ hg₃
      refine hok d₃ _ _ _ hg₃ fun d' hr =>
        .changed hid ⟨?_, hsame, hopen⟩ (by rw [haudit]; rfl)
      have hstable : ∀ locks', .schemaVersion old.schemaVersionId ∈ locks' →
          store.Stable locks' fun d => old ∈ d.schemaVersions :=
        fun _ hl => stable_mem_schemaVersions hl
      have hmem₃ := hr₃.stable (hstable _ (by simp [Write.keys])) hmem
      exact hr.stable (hstable _ (by simp [Write.keys])) hmem₃

/-- The rule of `set_authority_schema_status`. -/
theorem wp_setAuthoritySchemaStatus (hquiet : ∀ d, C.guar op d [] none) {id : SchemaVersionId}
    {status : SchemaStatus} {administratorIdentity reason : Str} {correlationId : Uuid}
    {changedAt : ℤ} {Q : C.Post (Except DbError (SchemaStatus × ℤ × SchemaStatusOutcome))}
    (herr : ∀ d er, C.Good d → Q (.error er) d [] [] [])
    (hok : ∀ d answer ws, C.Good d → SetsStatus id d ws → Q (.ok answer) d ws [] []) {e : Db}
    (hgood : C.Good e) :
    C.wp op (callFunction (setAuthoritySchemaStatus id status administratorIdentity reason
      correlationId changedAt)) Q e [] [] [] := by
  refine wp_callFunction hquiet herr ?_
  unfold setAuthoritySchemaStatus
  split
  · exact ⟨rfl, hgood, nofun⟩
  refine Contract.wp_orFail_bind.mpr (Contract.wp_query (hquiet e) ?_ ?_)
  · exact fun d _ _ _ hg => ⟨rfl, hg, nofun⟩
  intro d₁ d₂ _ _ _ _ hg₂
  dsimp only
  split
  · split
    · exact ⟨rfl, hg₂, nofun⟩
    · exact ⟨rfl, hg₂, fun b _ d' _ hg' => hok d' b [] hg' .nothing⟩
  refine Contract.wp_orFail_bind.mpr (Contract.wp_selectForUpdate (hquiet d₂) ?_ ?_)
  · exact fun d _ _ _ hg => ⟨rfl, hg, nofun⟩
  intro _ d₃ _ _ _ _
  refine Contract.wp_run_bind.mpr (wp_applySchemaStatus hquiet (fun _ _ => rfl) ?_ ?_ _)
  · exact fun d _ _ _ hg => ⟨rfl, hg, nofun⟩
  · exact fun d _ _ ws hg hsets => ⟨rfl, hg, fun b _ d' hr hg' => hok d' b ws hg' (hsets d' hr)⟩

end Rules

end InfernalLaw
