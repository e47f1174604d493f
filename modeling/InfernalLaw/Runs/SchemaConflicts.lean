import InfernalLaw.Http.Responses
import InfernalLaw.Infrastructure.AuthorityRepository
import InfernalLaw.Runs.Schemas

/-!
# Publications under a taken name

`SchemaRepository::publish` is to answer `SchemaNamespaceConflict` when the name belongs to a
different service. The function in the database raises an exception then, and the race for a new
name ends in a unique violation; the adapter takes either one for a failure of the repository.
-/

namespace InfernalLaw

open Postgres (Contract DbError Entry Proc RowWrite State Store)

namespace SchemaConflicts

/-! ## The operations -/

/-- What runs: publications with their answers, and what else changes schema versions. -/
inductive Op where
  | publish (id : SchemaVersionId) (kind : SchemaKind) (name : SchemaName) (owner : ActorId)
      (contentDigest : Bytes32) (publishedAt : ℤ)
  | setStatus (id : SchemaVersionId) (status : SchemaStatus) (administratorIdentity reason : Str)
      (correlationId : Uuid) (changedAt : ℤ)
  /-- Another component's transaction. -/
  | other (writes : List Write) (h : ∀ w ∈ writes, w.table ≠ .schemaVersions)

/-- What an operation answers, if it is a publication. -/
abbrev Result : Type := Option (Except AuthorityError SchemaRecord)

/-- What the operations do. -/
def program : Op → Sql Result
  | .publish id kind name owner contentDigest publishedAt =>
    (PostgresAuthorityRepository.publish id kind name owner contentDigest publishedAt).run.bind
      fun r => .done (some r)
  | .setStatus id status administratorIdentity reason correlationId changedAt =>
    (callFunction (setAuthoritySchemaStatus id status administratorIdentity reason correlationId
      changedAt)).bind fun _ => .done none
  | .other writes _ => (background writes).bind fun _ => .done none

/-- The sessions of the kernels that share the database. -/
abbrev system : Postgres.System Db Write Key Op Result := kernelSystem program

/-! ## What publications answer -/

/-- A version under the name belongs to the service. -/
def Owns (d : Db) (kind : SchemaKind) (name : SchemaName) (owner : ActorId) : Prop :=
  ∃ r ∈ d.versionsOf kind name.text, r.ownerServiceId = owner

/-- A version under the name belongs to a different service. -/
def Foreign (d : Db) (kind : SchemaKind) (name : SchemaName) (owner : ActorId) : Prop :=
  ∃ r ∈ d.versionsOf kind name.text, r.ownerServiceId ≠ owner

/-- The answer is that the repository has failed. -/
def Fails (a : Result) : Prop := ∃ failure, a = some (.error (.repository failure))

/-- The answer is the conflict. -/
def Reports (a : Result) (name : SchemaName) : Prop :=
  a = some (.error (.schemaNamespaceConflict name))

/-- What an operation may answer: a publication that does not fail has left a version of its owner,
and does not report a conflict. -/
def Answers (d : Db) : Op → Result → Prop
  | .publish _ kind name owner _ _, a =>
    Fails a ∨ Owns d kind name owner ∧ ∀ name', ¬ Reports a name'
  | _, a => a = none

/-- A step keeps a version of the owner. -/
theorem Owns.step {d : Db} {kind : SchemaKind} {name : SchemaName} {owner : ActorId}
    {ws : List Write} (h : Owns d kind name owner) (hinv : Schemas.Inv d) (hs : Schemas.Step d ws) :
    Owns (store.view d ws) kind name owner := by
  obtain ⟨r, hr, rfl⟩ := h
  obtain ⟨hmem, hkind, hname⟩ := Db.mem_versionsOf.mp hr
  cases hs with
  | other hws =>
    refine ⟨r, Db.mem_versionsOf.mpr ⟨?_, hkind, hname⟩, rfl⟩
    rw [Schemas.view_schemaVersions hws]
    exact hmem
  | publish => exact ⟨r, Db.mem_versionsOf.mpr ⟨List.mem_append_left _ hmem, hkind, hname⟩, rfl⟩
  | @restate old new hres audit =>
    obtain ⟨⟨hid, hkind', hname'⟩, -, howner, -⟩ := hres.same.columns
    by_cases heq : r.schemaVersionId = old.schemaVersionId
    · obtain rfl := List.inj_on_of_nodup_map hinv.nodup_id hmem hres.mem heq
      have hnew : new ∈ (store.view d [.schemaVersions (.update new),
          .schemaStatusAudit audit]).schemaVersions := RowWrite.new_mem_update hres.mem hid.symm
      exact ⟨new, Db.mem_versionsOf.mpr ⟨hnew, hkind'.trans hkind, hname'.trans hname⟩, howner⟩
    · have hkept : r ∈ (store.view d [.schemaVersions (.update new),
          .schemaStatusAudit audit]).schemaVersions :=
        (RowWrite.mem_update hres.mem hid.symm).mpr (.inr ⟨hmem, hid ▸ heq⟩)
      exact ⟨r, Db.mem_versionsOf.mpr ⟨hkept, hkind, hname⟩, rfl⟩

/-- A step keeps what has been answered. -/
theorem Answers.step {d : Db} {op : Op} {a : Result} {ws : List Write} (h : Answers d op a)
    (hinv : Schemas.Inv d) (hs : Schemas.Step d ws) : Answers (store.view d ws) op a := by
  cases op with
  | publish => exact h.imp_right fun ⟨howns, hnot⟩ => ⟨howns.step hinv hs, hnot⟩
  | _ => exact h

/-- What a published row is read as is no conflict. -/
theorem not_reports_of_row (row : SchemaVersionRow) (name : SchemaName) :
    ¬ Reports (some (schemaRecordFromRow row)) name := by
  intro h
  have hconflict := Option.some.inj h
  unfold schemaRecordFromRow SchemaVersion.restore at hconflict
  cases hname : SchemaName.new row.name with
  | none =>
    rw [hname] at hconflict
    cases hconflict
  | some name' =>
    rw [hname] at hconflict
    by_cases hbad : row.version < 1 ∨ row.publishedAt < 0
    · simp only [dif_pos hbad] at hconflict
      cases hconflict
    · simp only [dif_neg hbad] at hconflict
      cases hconflict

/-! ## The contract -/

/-- What holds between events: the versions are chains, and every answer is one that may be
given. -/
structure Inv (d : Db) (log : List (Entry Op Result)) : Prop where
  chains : Schemas.Inv d
  answers : ∀ e ∈ log, Answers d e.op e.result

/-- What each call owes to the owners of the names. -/
def contract : Contract system where
  inv := Inv
  guar op d ws r := Schemas.Step d ws ∧ ∀ a ∈ r, Answers (store.view d ws) op a

/-- Every operation keeps to the contract. -/
theorem contract_sound : contract.Sound where
  stutter _ _ := ⟨.other (by simp), by simp⟩
  preserves id op d log ws r h hg := by
    refine ⟨h.chains.step hg.1, fun e he => ?_⟩
    rcases List.mem_append.mp he with he | he
    · exact (h.answers e he).step h.chains hg.1
    · obtain ⟨a, ha, rfl⟩ := Option.mem_map.mp (Option.mem_toList.mp he)
      exact hg.2 a ha
  program op e hgood := by
    have hquiet : ∀ op d, contract.guar op d [] none := fun _ _ => ⟨.other (by simp), by simp⟩
    -- An answer is about the state that its own writes leave.
    have hends : ∀ {op d ws a}, Schemas.Step d ws → Answers (store.view d ws) op a →
        contract.guar op d ws (some a) := by
      intro op d ws a hs ha
      refine ⟨hs, fun a' ha' => ?_⟩
      rwa [← Option.some.inj (Option.mem_def.mp ha')]
    have hother : ∀ {d : Db}, Schemas.Step d [] := .other (by simp)
    cases op with
    | publish id kind name owner contentDigest publishedAt =>
      refine Contract.wp_bind.mpr (Contract.wp_orFail_bind.mpr ?_)
      refine wp_publishAuthoritySchemaVersion (hquiet _) ?_ ?_
      · exact fun d er _ => hends hother (.inl ⟨_, rfl⟩)
      · rintro d row _ ⟨hkind, hname, howner⟩ hpublishes
        refine hends (.publish hpublishes) (.inr ⟨⟨row, ?_, howner⟩, not_reports_of_row row⟩)
        exact Db.mem_versionsOf.mpr
          ⟨List.mem_append_right _ (List.mem_singleton_self row), hkind, hname⟩
    | setStatus =>
      refine Contract.wp_bind.mpr (wp_setAuthoritySchemaStatus (hquiet _) ?_ ?_ hgood)
      · exact fun d _ _ => hends hother rfl
      · intro d _ ws _ hsets
        cases hsets with
        | nothing => exact hends hother rfl
        | audited => exact hends (.other (by simp [Write.table])) rfl
        | changed _ hr => exact hends (.restate hr _) rfl
    | other writes hwrites =>
      refine Contract.wp_bind.mpr (wp_background (hquiet _) (fun d _ => ?_) fun d _ => ?_)
      · exact hends hother rfl
      · exact hends (.other hwrites) rfl

/-! ## Alone -/

/-- The name belongs to a different service: a publication alone fails, and leaves the database as
it was. -/
theorem exec_publish_foreign {d : Db} (hd : Schemas.Inv d) {kind : SchemaKind} {name : SchemaName}
    {owner : ActorId} (h : Foreign d kind name owner) (id : SchemaVersionId)
    (contentDigest : Bytes32) (publishedAt : ℤ) : ∃ failure,
      (PostgresAuthorityRepository.publish id kind name owner contentDigest publishedAt).run.exec
        store d [] = ⟨d, [], .error (.repository failure)⟩ := by
  obtain ⟨r, hr, hforeign⟩ := h
  -- The function finds the latest version, which has the same owner.
  have hlocked : ∃ latest, ((d.versionsOf kind name.text).argmax SchemaVersionRow.version).bind
      (fun r => d.schemaVersions.find? fun r' =>
        r'.schemaVersionId = r.schemaVersionId ∧ r'.kind = kind ∧ r'.name = name.text) =
          some latest ∧
      latest.ownerServiceId ≠ owner := by
    cases hmax : (d.versionsOf kind name.text).argmax SchemaVersionRow.version with
    | none =>
      rw [List.argmax_eq_none.mp hmax] at hr
      exact absurd hr List.not_mem_nil
    | some latest =>
      have hlatest := List.argmax_mem hmax
      obtain ⟨hmem, hkind, hname⟩ := Db.mem_versionsOf.mp hlatest
      refine ⟨latest, ?_, ?_⟩
      · rw [Option.bind_some]
        have hsome : (d.schemaVersions.find? fun r' => r'.schemaVersionId = latest.schemaVersionId ∧
            r'.kind = kind ∧ r'.name = name.text).isSome = true :=
          List.find?_isSome.mpr ⟨latest, hmem, decide_eq_true ⟨rfl, hkind, hname⟩⟩
        obtain ⟨r', hfind⟩ := Option.isSome_iff_exists.mp hsome
        have hfound := List.find?_some hfind
        rw [decide_eq_true_eq] at hfound
        rw [hfind, List.inj_on_of_nodup_map hd.nodup_id
          (List.mem_of_find?_eq_some hfind) hmem hfound.1]
      · rw [hd.one_owner kind name.text latest hlatest r hr]
        exact hforeign
  obtain ⟨latest, hlatest, howner⟩ := hlocked
  obtain ⟨er, hcall⟩ := exec_callFunction_error (d := d)
    (f := publishAuthoritySchemaVersion id kind name.text owner contentDigest publishedAt) (by
      refine ⟨.raised s!"schema name {String.ofList name.text} is owned by a different service",
        [], ?_⟩
      unfold publishAuthoritySchemaVersion perform
      rw [Proc.exec_orFail_bind, lockLatestSchemaVersion, Proc.exec_selectForUpdate]
      simp only [Store.view_nil]
      rw [Proc.exec_ensure_bind]
      have hnext : nextSchemaVersion name.text owner (some latest) =
          .error
            (.raised s!"schema name {String.ofList name.text} is owned by a different service") :=
        if_pos howner
      rw [← Db.versionsOf, hlatest, hnext])
  refine ⟨.database er, ?_⟩
  unfold PostgresAuthorityRepository.publish
  rw [Proc.exec_orFail_bind, hcall]
  rfl

/-! ## What is reported -/

/-- No publication of any run reports a conflict. One for a name of which a version belongs to a
different service fails, however the two have overlapped, and the caller is told that the request
could not be completed; alone it adds nothing. -/
theorem conflicts_unreported {d₀ : Db} (h₀ : Schemas.Migrated d₀) {s : State Db Write Key Op Result}
    (hs : system.Reaches d₀ s) :
    (∀ e ∈ s.log, ∀ name, ¬ Reports e.result name) ∧
    (∀ e ∈ s.log, ∀ id kind name owner contentDigest publishedAt,
      e.op = .publish id kind name owner contentDigest publishedAt → Foreign s.db kind name owner →
      ∃ failure, e.result = some (.error (.repository failure)) ∧
        ∀ crates, schemaErrorResponse crates (.repository failure) =
          errorResponse crates "503 Service Unavailable" .internalError) ∧
    ∀ id kind name owner contentDigest publishedAt, Foreign s.db kind name owner → ∃ failure,
      (PostgresAuthorityRepository.publish id kind name owner contentDigest publishedAt).run.exec
        store s.db [] = ⟨s.db, [], .error (.repository failure)⟩ := by
  have hinv : Inv s.db s.log :=
    (contract_sound.holds (fun _ _ _ => trivial)
      ⟨Schemas.inv_migrated h₀, fun _ he => absurd he List.not_mem_nil⟩ hs).inv
  refine ⟨fun e he name hreports => ?_, ?_, ?_⟩
  · have hanswers := hinv.answers e he
    cases hop : e.op with
    | publish =>
      rw [hop] at hanswers
      rcases hanswers with ⟨failure, hfails⟩ | ⟨-, hnot⟩
      · cases hfails.symm.trans hreports
      · exact hnot name hreports
    | _ =>
      rw [hop] at hanswers
      cases (show e.result = none from hanswers).symm.trans hreports
  · rintro e he id kind name owner contentDigest publishedAt hop ⟨r, hr, hforeign⟩
    have hanswers := hinv.answers e he
    rw [hop] at hanswers
    rcases hanswers with ⟨failure, hfails⟩ | ⟨⟨r', hr', howner⟩, -⟩
    · exact ⟨failure, hfails, fun _ => rfl⟩
    · -- All versions under the name have one owner.
      rw [hinv.chains.one_owner kind name.text r hr r' hr'] at hforeign
      exact absurd howner hforeign
  · intro id kind name owner contentDigest publishedAt hforeign
    exact exec_publish_foreign hinv.chains hforeign id contentDigest publishedAt

/-- The name under which two services publish. -/
def exampleName : SchemaName := ⟨"a.b".toList, by decide⟩

/-- The first publication of a service under that name. -/
def exampleFirst : Op := .publish ⟨3⟩ .artifact exampleName ⟨1⟩ (.fill 0) 10

/-- The publication of another service. -/
def exampleSecond : Op := .publish ⟨4⟩ .artifact exampleName ⟨2⟩ (.fill 0) 20

/-- The second publication ends with a failure of the repository. -/
theorem reaches_second : ∃ s n, system.Reaches Schemas.oneOwner s ∧
    Foreign s.db .artifact exampleName ⟨2⟩ ∧ ⟨n, exampleSecond, some (.error (.repository (.database
      (.raised "schema name a.b is owned by a different service"))))⟩ ∈ s.log := by
  obtain ⟨s₁, hs₁, hidle₁, hdb₁, -⟩ := Postgres.System.exec_reaches
    (.init : system.Reaches Schemas.oneOwner { db := Schemas.oneOwner }) rfl exampleFirst
  obtain ⟨s₂, hs₂, -, hdb₂, hlog₂⟩ := Postgres.System.exec_reaches hs₁ hidle₁ exampleSecond
  rw [hdb₁] at hdb₂ hlog₂
  refine ⟨s₂, s₁.fresh, hs₂, ?_, ?_⟩
  · have howners : (s₂.db.versionsOf .artifact exampleName.text).any
        (fun r => decide (r.ownerServiceId ≠ ⟨2⟩)) = true := by
      rw [hdb₂]
      decide +kernel
    obtain ⟨r, hr, howner⟩ := List.any_eq_true.mp howners
    exact ⟨r, hr, of_decide_eq_true howner⟩
  · have hresult : ((system.program exampleSecond).exec system.toStore ((system.program
        exampleFirst).exec system.toStore Schemas.oneOwner []).db []).result =
        some (.error (.repository (.database
          (.raised "schema name a.b is owned by a different service")))) := by
      decide +kernel
    rw [hlog₂, hresult]
    exact List.mem_append_right _ (List.mem_singleton_self _)

/-- The second publication of a name is reported as a failure. -/
theorem conflicts_unreported_second : ∃ s, system.Reaches Schemas.oneOwner s ∧
    Foreign s.db .artifact exampleName ⟨2⟩ ∧ (∃ e ∈ s.log, e.op = exampleSecond) ∧
    ∀ e ∈ s.log, ∀ name, ¬ Reports e.result name := by
  obtain ⟨s, n, hs, hforeign, hmem⟩ := reaches_second
  have hmigrated : Schemas.Migrated Schemas.oneOwner := .inr ⟨_, _, rfl⟩
  exact ⟨s, hs, hforeign, ⟨_, hmem, rfl⟩, (conflicts_unreported hmigrated hs).1⟩

/-- Not every publication for a name of another service reports the conflict. -/
theorem second_unreported : ¬ ∀ d₀ s, Schemas.Migrated d₀ → system.Reaches d₀ s →
    ∀ e ∈ s.log, ∀ id kind name owner contentDigest publishedAt,
      e.op = .publish id kind name owner contentDigest publishedAt → Foreign s.db kind name owner →
      Reports e.result name := by
  intro h
  obtain ⟨s, n, hs, hforeign, hmem⟩ := reaches_second
  have hreports := h _ s (.inr ⟨_, _, rfl⟩) hs _ hmem _ _ _ _ _ _ rfl hforeign
  cases hreports

end SchemaConflicts

end InfernalLaw
