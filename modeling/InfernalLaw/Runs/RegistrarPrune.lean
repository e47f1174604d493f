import InfernalLaw.Runs.Registrar

/-!
# What the registrar withdraws

`prune` decides by the texts of the manifest what is listed, where `reconcile` casts them to UUIDs.
So it withdraws what is listed under another text than the one that PostgreSQL prints, and nothing
else that is listed. What it leaves is listed in any case.
-/

namespace InfernalLaw

open Postgres (DbError RowWrite Store)
open Postgres.Proc (autocommit ensure orFail)

/-- The grant is listed, in the text that PostgreSQL prints for its service. -/
def GrantRow.Wanted (e : GrantRow) (manifest : Manifest) : Prop :=
  (uuidOut e.sourceServiceId.uuid, e.action, e.scope) ∈ Registrar.wanted manifest

instance (e : GrantRow) (manifest : Manifest) : Decidable (e.Wanted manifest) :=
  inferInstanceAs (Decidable (_ ∈ _))

/-- A text that is listed for a grant is that of a listed service with this grant. -/
theorem Registrar.mem_wanted {manifest : Manifest} {text action scope : Str} :
    (text, action, scope) ∈ wanted manifest ↔
      ∃ s ∈ manifest.services, s.serviceId = text ∧ ⟨action, scope⟩ ∈ s.grants := by
  simp only [wanted, List.mem_flatMap, List.mem_map, Prod.mk.injEq]
  constructor
  · rintro ⟨s, hs, ⟨action', scope'⟩, hg, htext, rfl, rfl⟩
    exact ⟨s, hs, htext, hg⟩
  · rintro ⟨s, hs, htext, hg⟩
    exact ⟨s, hs, ⟨action, scope⟩, hg, htext, rfl, rfl⟩

/-! ## Bindings -/

/-- What the update of the bindings commits. -/
theorem exec_disableBindings (managed : List Str) (d : Db) : ∃ news : List EnrollmentBindingRow,
    (∀ b ∈ news, b.enabled = false ∧ uuidOut b.serviceId.uuid ∉ managed) ∧
      (∀ b ∈ d.enrollmentBindings, b.enabled = true → uuidOut b.serviceId.uuid ∉ managed →
        ∃ new ∈ news, new.serviceId = b.serviceId) ∧
      (autocommit (Registrar.disableBindings managed)).exec store d [] =
        ⟨store.view d (news.map fun b => .enrollmentBindings (.update b)), [], .ok news⟩ := by
  let selected := d.enrollmentBindings.filter fun b => b.enabled ∧
    uuidOut b.serviceId.uuid ∉ managed
  let current := selected.filterMap fun b =>
    d.enrollmentBindings.find? fun b' => b'.serviceId = b.serviceId ∧ b'.enabled
  refine ⟨current.map fun b => { b with enabled := false }, ?_, ?_, ?_⟩
  · -- What is written is disabled, and was of no service of the manifest.
    intro b hb
    obtain ⟨old, hold, rfl⟩ := List.mem_map.mp hb
    obtain ⟨b₀, hb₀, hfind⟩ := List.mem_filterMap.mp hold
    have hkeys := List.find?_some hfind
    have hselected := (List.mem_filter.mp hb₀).2
    rw [decide_eq_true_eq] at hkeys hselected
    exact ⟨rfl, hkeys.1 ▸ hselected.2⟩
  · -- Every such binding is found again by its key, since the row that is found may be itself.
    intro b hb henabled htext
    have hselected : b ∈ selected := List.mem_filter.mpr ⟨hb, by simp [henabled, htext]⟩
    cases hfind : d.enrollmentBindings.find? (fun b' => b'.serviceId = b.serviceId ∧
      b'.enabled) with
    | none =>
      have hnone := List.find?_eq_none.mp hfind b hb
      simp [henabled] at hnone
    | some old =>
      have hkeys := List.find?_some hfind
      rw [decide_eq_true_eq] at hkeys
      exact ⟨_, List.mem_map_of_mem (List.mem_filterMap.mpr ⟨b, hselected, hfind⟩), hkeys.1⟩
  · -- The statement writes exactly these rows.
    rw [Postgres.Proc.exec_autocommit_eq_ok]
    refine ⟨d, _, rfl, ?_, rfl⟩
    rw [List.map_map]
    rfl

/-- Updates of bindings change the table of the bindings, and nothing else. -/
theorem view_enrollmentBindings : ∀ (news : List EnrollmentBindingRow) (d : Db),
    store.view d (news.map fun b => .enrollmentBindings (.update b)) =
      { d with
        enrollmentBindings := news.foldl
          (fun rows new => (RowWrite.update new).apply EnrollmentBindingRow.serviceId rows)
          d.enrollmentBindings }
  | [], d => rfl
  | b :: news, d => by
    rw [List.map_cons, Store.view_cons, view_enrollmentBindings news]
    rfl

/-! ## Grants -/

/-- A call of `revoke_authority_grant` for a grant that is not revoked. -/
theorem exec_revokeAuthorityGrant (correlationId : Uuid) {e : GrantRow}
    {administratorIdentity reason : Str} {now : ℤ} {d : Db}
    (hfind : d.grants.find? (fun r => r.grantId = e.grantId) = some e)
    (hrevoked : e.revokedAt = none) (hmetadata : checkMetadata administratorIdentity reason now =
      true) : ∃ audit : GrantAuditRow,
        (callFunction (revokeAuthorityGrant e.grantId administratorIdentity reason correlationId
        now)).exec store d [] =
        ⟨store.view d [.grants (.update { e with revokedAt := some now }), .grantAudit audit], [],
          .ok (now, .revoked)⟩ := by
  have hmeta := hmetadata
  simp only [checkMetadata, Bool.and_eq_true, decide_eq_true_eq] at hmeta
  let audit : GrantAuditRow :=
    { grantId := e.grantId, outcome := .revoked,
      administratorIdentity := btrim administratorIdentity
      reason := btrim reason, correlationId, recordedAt := now }
  -- The entry in the audit is stored with its texts trimmed.
  have hcheck : audit.check = .ok () := by
    simp only [GrantAuditRow.check, Postgres.require_bind_eq_ok, Postgres.require_eq_ok]
    exact ⟨checkTrimmed_btrim.mpr hmeta.1.1, checkTrimmed_btrim.mpr hmeta.1.2, hmeta.2⟩
  -- The trigger lets a grant that is not revoked change by its revocation.
  have hchange : changeGrant e { e with revokedAt := some now } =
      .ok { e with revokedAt := some now } := by
    obtain ⟨⟩ := e
    subst hrevoked
    simp [changeGrant, Postgres.require, hmeta.2, bind, Except.bind, pure, Except.pure]
  have hupdate : (updateGrantRevoked e.grantId now).exec store d [] =
      ⟨d, [.grants (.update { e with revokedAt := some now })],
        .ok (some { e with revokedAt := some now })⟩ := by
    rw [updateGrantRevoked, Postgres.Proc.exec_update]
    simp only [Store.view_nil, hfind, Option.bind_some, hchange, List.nil_append]
  refine ⟨audit, exec_callFunction_eq_ok.mpr ⟨d, _, ?_, rfl, rfl⟩⟩
  unfold revokeAuthorityGrant
  rw [if_neg (by simp [hmetadata])]
  refine Postgres.Proc.exec_run_bind_eq_ok.mpr ⟨d, [], some e, ?_, ?_⟩
  · refine Postgres.Proc.exec_orFail_eq_ok.mpr ?_
    rw [findGrant, Postgres.Proc.exec_query, Store.view_nil, hfind]
  unfold revokeGrantRow
  simp only [hrevoked]
  refine Postgres.Proc.exec_run_bind_eq_ok.mpr
    ⟨d, _, _, Postgres.Proc.exec_orFail_eq_ok.mpr hupdate, ?_⟩
  exact Postgres.Proc.exec_run_bind_eq_ok.mpr
    ⟨d, _, (), Postgres.Proc.exec_orFail_eq_ok.mpr (Postgres.Proc.exec_insert_ok hcheck), rfl⟩

/-- A call with invalid metadata. -/
theorem exec_revokeAuthorityGrant_invalid (id : GrantId) (correlationId : Uuid) (d : Db)
    {administratorIdentity reason : Str} {now : ℤ}
    (hmetadata : checkMetadata administratorIdentity reason now = false) :
    (callFunction (revokeAuthorityGrant id administratorIdentity reason correlationId now)).exec
      store d [] =
      ⟨d, [], .error (.raised "invalid authority grant administration metadata")⟩ := by
  unfold revokeAuthorityGrant
  rw [if_pos hmetadata]
  rfl

/-- A grant with its texts, as `prune` reads it. -/
def GrantRow.texts (e : GrantRow) : Str × Str × Str × Str :=
  (uuidOut e.grantId.uuid, uuidOut e.sourceServiceId.uuid, e.action, e.scope)

/-- The grant, revoked. -/
def GrantRow.revoked (now : ℤ) (e : GrantRow) : GrantRow := { e with revokedAt := some now }

namespace Registrar

/-- The reason that `prune` gives. -/
def pruneReason : Str := "registrar prune: not present in manifest".toList

/-- With valid metadata the loop revokes every grant that is not wanted. -/
theorem exec_pruneGrants {r : Registrar} (manifest : Manifest) (draw : ℕ → Uuid)
    (hmetadata : checkMetadata r.administrator pruneReason r.now = true) (live : List GrantRow) :
    ∀ {k : ℕ} {d : Db}, (d.grants.map GrantRow.grantId).Nodup →
      (live.map GrantRow.grantId).Nodup → (∀ e ∈ live, e ∈ d.grants ∧ e.revokedAt = none) →
      ∃ (d' : Db) (removed : List Str),
        (r.pruneGrants manifest draw k (live.map GrantRow.texts)).run.exec store d [] =
          ⟨d', [], .ok removed⟩ ∧ d'.enrollmentBindings = d.enrollmentBindings ∧
        d'.grants = ((live.filter fun e => ¬ e.Wanted manifest).map (GrantRow.revoked r.now)).foldl
          (fun rows new => (RowWrite.update new).apply GrantRow.grantId rows) d.grants := by
  induction live with
  | nil => exact fun _ _ _ => ⟨_, [], rfl, rfl, rfl⟩
  | cons e live ih =>
    intro k d hpk hnodup hlive
    rw [List.map_cons, List.nodup_cons] at hnodup
    obtain ⟨hmem, hrevoked⟩ := hlive e List.mem_cons_self
    by_cases hwanted : e.Wanted manifest
    · obtain ⟨d', removed, hexec, hbindings, hgrants⟩ := ih (k := k + 1) hpk hnodup.2
        fun e' he' => hlive e' (List.mem_cons_of_mem _ he')
      refine ⟨d', [] ++ removed, ?_, hbindings, ?_⟩
      · refine Postgres.Proc.exec_run_bind_eq_ok.mpr ⟨d, [], [], ?_, ?_⟩
        · rw [pruneGrant, if_pos (show e.texts.2 ∈ wanted manifest from hwanted)]
          rfl
        · exact Postgres.Proc.exec_run_bind_eq_ok.mpr ⟨d', [], removed, hexec, rfl⟩
      · rw [List.filter_cons_of_neg (by simp [hwanted])]
        exact hgrants
    · have hfind := RowWrite.find_eq_some hpk hmem rfl
      obtain ⟨audit, hcall⟩ := exec_revokeAuthorityGrant (draw k) hfind hrevoked hmetadata
      -- The grants that are left are still there, and not revoked.
      let d₁ := store.view d [.grants (.update (e.revoked r.now)), .grantAudit audit]
      have hgrants₁ : d₁.grants =
          (RowWrite.update (e.revoked r.now)).apply GrantRow.grantId d.grants := rfl
      obtain ⟨d', removed, hexec, hbindings, hgrants⟩ := ih (k := k + 1) (d := d₁)
        (by rw [hgrants₁, RowWrite.map_pk_update]; exact hpk) hnodup.2 (fun e' he' => by
          obtain ⟨hmem', hrevoked'⟩ := hlive e' (List.mem_cons_of_mem _ he')
          refine ⟨?_, hrevoked'⟩
          rw [hgrants₁]
          refine RowWrite.mem_apply_of_ne hmem' fun heq => hnodup.1 ?_
          exact List.mem_map.mpr ⟨e', he', heq⟩)
      let line : Str := "grant revoked: ".toList ++ e.action ++ " ".toList ++ e.scope ++
        " for ".toList ++ uuidOut e.sourceServiceId.uuid
      refine ⟨d', [line] ++ removed, ?_, hbindings, ?_⟩
      · refine Postgres.Proc.exec_run_bind_eq_ok.mpr ⟨d₁, [], [line], ?_, ?_⟩
        · rw [pruneGrant, if_neg (show ¬ e.texts.2 ∈ wanted manifest from hwanted)]
          refine Postgres.Proc.exec_run_bind_eq_ok.mpr ⟨d, [], e.grantId.uuid, ?_, ?_⟩
          · refine Postgres.Proc.exec_ensure_eq_ok.mpr ⟨rfl, rfl, Postgres.mapError_eq_ok.mpr ?_⟩
            rw [castUuid, GrantRow.texts, uuidIn_uuidOut]
            rfl
          · exact Postgres.Proc.exec_run_bind_eq_ok.mpr
              ⟨d₁, [], _, Postgres.Proc.exec_orFail_eq_ok.mpr hcall, rfl⟩
        · exact Postgres.Proc.exec_run_bind_eq_ok.mpr ⟨d', [], removed, hexec, rfl⟩
      · rw [List.filter_cons_of_pos (by simp [hwanted]), List.map_cons, List.foldl_cons, ← hgrants₁]
        exact hgrants

/-- The administrator of a pass that succeeds and lists a service is one that the database
accepts. -/
theorem checkMetadata_of_reconcile {r : Registrar} {s : ServiceSpec} {services : List ServiceSpec}
    {i : ℕ} {changes : ServiceChanges} {d d' : Db} {ws : List Write} {answer : ServiceChanges}
    (h : (r.reconcileServices i (s :: services) changes).run.exec store d
      [] = ⟨d', ws, .ok answer⟩) :
    checkMetadata r.administrator "registrar reconciliation".toList r.now = true := by
  -- Each statement before the one on the admission leaves no transaction open.
  obtain ⟨_, _, _, hservice, -⟩ := Postgres.Proc.exec_run_bind_eq_ok.mp h
  obtain ⟨_, _, row, hensure, hservice⟩ := Postgres.Proc.exec_run_bind_eq_ok.mp hservice
  obtain ⟨rfl, rfl, -⟩ := Postgres.Proc.exec_ensure_eq_ok.mp hensure
  obtain ⟨_, _, _, hidentity, hservice⟩ := Postgres.Proc.exec_run_bind_eq_ok.mp hservice
  obtain ⟨_, _, -, -, rfl⟩ := exec_orFail_callFunction.mp hidentity
  obtain ⟨_, _, _, hbinding, hservice⟩ := Postgres.Proc.exec_run_bind_eq_ok.mp hservice
  obtain ⟨rfl, -⟩ := exec_reconcileBinding hbinding
  obtain ⟨_, _, _, hadmission, -⟩ := Postgres.Proc.exec_run_bind_eq_ok.mp hservice
  obtain ⟨_, _, result, hcall, -⟩ := Postgres.Proc.exec_run_bind_eq_ok.mp hadmission
  obtain ⟨_, us, hset, -, -⟩ := exec_orFail_callFunction.mp hcall
  obtain ⟨_, _, _, hfirst, -⟩ := Postgres.Proc.exec_run_bind_eq_ok.mp hset
  exact (exec_setServiceCommunicationAdmission hfirst).1

/-- So it is one for which the reason of `prune` is accepted, then or later. -/
theorem checkMetadata_pruneReason {administrator reason : Str} {now later : ℤ}
    (h : checkMetadata administrator reason now = true) (hle : now ≤ later) :
    checkMetadata administrator pruneReason later = true := by
  simp only [checkMetadata, Bool.and_eq_true, decide_eq_true_eq] at h ⊢
  exact ⟨⟨h.1.1, by decide⟩, h.2.trans hle⟩

/-! ## What a pass withdraws -/

/-- The bindings that `prune` disables. -/
theorem mem_disabled {managed : List Str} {rows news : List EnrollmentBindingRow}
    (hnews : ∀ b ∈ news, b.enabled = false ∧ uuidOut b.serviceId.uuid ∉ managed)
    (hall : ∀ b ∈ rows, b.enabled = true → uuidOut b.serviceId.uuid ∉ managed →
      ∃ new ∈ news, new.serviceId = b.serviceId) {b : EnrollmentBindingRow}
    (henabled : b.enabled = true) :
    b ∈ news.foldl (fun rows new => (RowWrite.update new).apply EnrollmentBindingRow.serviceId rows)
        rows ↔ b ∈ rows ∧ uuidOut b.serviceId.uuid ∈ managed := by
  constructor
  · intro hb
    rcases RowWrite.mem_updates hb with hb | ⟨hb, hne⟩
    · exact absurd (hnews b hb).1 (by simp [henabled])
    · refine ⟨hb, ?_⟩
      by_contra htext
      obtain ⟨new, hnew, heq⟩ := hall b hb henabled htext
      exact hne new hnew heq
  · rintro ⟨hb, htext⟩
    refine RowWrite.mem_updates_of_ne hb fun new hnew heq => (hnews new hnew).2 ?_
    rw [heq]
    exact htext

/-- The grants that `prune` leaves unrevoked. -/
theorem mem_unrevoked {p : GrantRow → Prop} [DecidablePred p] {rows : List GrantRow} {now : ℤ}
    (hpk : (rows.map GrantRow.grantId).Nodup) {e : GrantRow} (hrevoked : e.revokedAt = none) :
    e ∈ (((rows.filter fun e => e.revokedAt = none).filter fun e => ¬ p e).map
        (GrantRow.revoked now)).foldl
          (fun rows new => (RowWrite.update new).apply GrantRow.grantId rows) rows ↔
      e ∈ rows ∧ p e := by
  constructor
  · intro he
    rcases RowWrite.mem_updates he with he | ⟨he, hne⟩
    · obtain ⟨e', -, rfl⟩ := List.mem_map.mp he
      cases hrevoked
    · refine ⟨he, ?_⟩
      by_contra hp
      refine hne _ (List.mem_map_of_mem (f := GrantRow.revoked now) (a := e) ?_) rfl
      simp [he, hrevoked, hp]
  · rintro ⟨he, hp⟩
    refine RowWrite.mem_updates_of_ne he fun new hnew heq => ?_
    obtain ⟨e', he', rfl⟩ := List.mem_map.mp hnew
    simp only [List.mem_filter, decide_eq_true_eq] at he'
    -- The two grants have the same key.
    obtain rfl : e' = e := List.inj_on_of_nodup_map hpk he'.1.1 he heq
    exact he'.2 hp

end Registrar

/-- The service is listed with the grant. -/
def ServiceSpec.Lists (s : ServiceSpec) (e : GrantRow) : Prop :=
  s.id? = some e.sourceServiceId ∧ ⟨e.action, e.scope⟩ ∈ s.grants

instance (s : ServiceSpec) (e : GrantRow) : Decidable (s.Lists e) :=
  inferInstanceAs (Decidable (_ ∧ _))

namespace Manifest

variable (manifest : Manifest)

/-- No enabled binding and no unrevoked grant that the manifest lists has changed. -/
structure Spares (d d' : Db) : Prop where
  bindings : ∀ s ∈ manifest.services, ∀ b ∈ d.enrollmentBindings, b.enabled = true →
    s.id? = some b.serviceId → b ∈ d'.enrollmentBindings
  grants : ∀ s ∈ manifest.services, ∀ e ∈ d.grants, e.revokedAt = none → s.Lists e → e ∈ d'.grants

/-- Every enabled binding and every unrevoked grant is listed. -/
structure Covers (d : Db) : Prop where
  bindings : ∀ b ∈ d.enrollmentBindings, b.enabled = true →
    ∃ s ∈ manifest.services, s.id? = some b.serviceId
  grants : ∀ e ∈ d.grants, e.revokedAt = none → ∃ s ∈ manifest.services, s.Lists e

/-- Each enabled binding and each unrevoked grant that the manifest lists is also listed in the text
that PostgreSQL prints for its service. -/
structure Canonical (d : Db) : Prop where
  bindings : ∀ s ∈ manifest.services, ∀ b ∈ d.enrollmentBindings, b.enabled = true →
    s.id? = some b.serviceId →
      uuidOut b.serviceId.uuid ∈ manifest.services.map ServiceSpec.serviceId
  grants : ∀ s ∈ manifest.services, ∀ e ∈ d.grants, e.revokedAt = none → s.Lists e →
    e.Wanted manifest

variable {manifest}

/-- What is listed in the text that PostgreSQL prints is listed. -/
theorem exists_lists {e : GrantRow} (h : e.Wanted manifest) :
    ∃ s ∈ manifest.services, s.Lists e := by
  obtain ⟨s, hs, htext, hg⟩ := Registrar.mem_wanted.mp h
  refine ⟨s, hs, ?_, hg⟩
  rw [ServiceSpec.id?, htext, uuidIn_uuidOut]
  rfl

/-- So is a service. -/
theorem exists_listed {id : ActorId}
    (h : uuidOut id.uuid ∈ manifest.services.map ServiceSpec.serviceId) :
    ∃ s ∈ manifest.services, s.id? = some id := by
  obtain ⟨s, hs, htext⟩ := List.mem_map.mp h
  refine ⟨s, hs, ?_⟩
  rw [ServiceSpec.id?, htext, uuidIn_uuidOut]
  rfl

end Manifest

namespace Registrar

/-- What `prune` does for an administrator that the database accepts. -/
theorem exec_prune {r : Registrar} {manifest : Manifest} {draw : ℕ → Uuid} {d d' : Db}
    {ws : List Write} {result : Except RegistrarError (List Str)}
    (hmetadata : checkMetadata r.administrator pruneReason r.now = true)
    (hpk : (d.grants.map GrantRow.grantId).Nodup)
    (h : (r.prune manifest draw).run.exec store d [] = ⟨d', ws, result⟩) :
    (∀ b : EnrollmentBindingRow, b.enabled = true → (b ∈ d'.enrollmentBindings ↔
      b ∈ d.enrollmentBindings ∧
        uuidOut b.serviceId.uuid ∈ manifest.services.map ServiceSpec.serviceId)) ∧
      ∀ e : GrantRow, e.revokedAt = none → (e ∈ d'.grants ↔ e ∈ d.grants ∧ e.Wanted manifest) := by
  obtain ⟨news, hnews, hall, hdisable⟩ :=
    exec_disableBindings (manifest.services.map ServiceSpec.serviceId) d
  rw [view_enrollmentBindings] at hdisable
  -- First the bindings are disabled, and then the grants that are live are gone through one by one.
  let d₁ : Db := { d with
    enrollmentBindings := news.foldl
      (fun rows new => (RowWrite.update new).apply EnrollmentBindingRow.serviceId rows)
      d.enrollmentBindings }
  let live := d.grants.filter fun e => e.revokedAt = none
  obtain ⟨d₂, removed, hloop, hbindings, hgrants⟩ := exec_pruneGrants manifest draw
    hmetadata live (k := 0) (d := d₁) hpk
    ((List.filter_sublist.map GrantRow.grantId).nodup hpk)
    (fun e he => by simpa [live] using he)
  -- The pass does both, so its database is the one above.
  have hprune : (r.prune manifest draw).run.exec store d [] =
      ⟨d₂, [], .ok (news.map (fun b => "binding disabled: ".toList ++ b.serviceAccount) ++
        removed)⟩ := by
    refine Postgres.Proc.exec_run_bind_eq_ok.mpr
      ⟨d₁, [], news, Postgres.Proc.exec_orFail_eq_ok.mpr hdisable, ?_⟩
    refine Postgres.Proc.exec_run_bind_eq_ok.mpr
      ⟨d₁, [], live.map GrantRow.texts, Postgres.Proc.exec_orFail_eq_ok.mpr rfl, ?_⟩
    exact Postgres.Proc.exec_run_bind_eq_ok.mpr ⟨d₂, [], removed, hloop, rfl⟩
  rw [h] at hprune
  obtain ⟨rfl, -, -⟩ := Postgres.Outcome.mk.inj hprune
  refine ⟨fun b henabled => ?_, fun e hrevoked => ?_⟩
  · rw [hbindings]
    exact mem_disabled hnews hall henabled
  · rw [hgrants]
    exact mem_unrevoked hpk hrevoked

/-- The loop fails at the first grant that is not wanted if the administrator is one that the
database does not accept. -/
theorem exec_pruneGrants_invalid {r : Registrar} {manifest : Manifest} {draw : ℕ → Uuid} {k : ℕ}
    {d d' : Db} {ws : List Write} {removed : List Str} {e : GrantRow} {live : List GrantRow}
    (hmetadata : checkMetadata r.administrator pruneReason r.now = false)
    (hwanted : ¬ e.Wanted manifest) :
    (r.pruneGrants manifest draw k ((e :: live).map GrantRow.texts)).run.exec store d [] ≠
      ⟨d', ws, .ok removed⟩ := by
  intro h
  obtain ⟨_, _, _, hgrant, -⟩ := Postgres.Proc.exec_run_bind_eq_ok.mp h
  rw [pruneGrant, if_neg (show ¬ e.texts.2 ∈ wanted manifest from hwanted)] at hgrant
  obtain ⟨d₁, _, id, hensure, hgrant⟩ := Postgres.Proc.exec_run_bind_eq_ok.mp hgrant
  obtain ⟨rfl, rfl, -⟩ := Postgres.Proc.exec_ensure_eq_ok.mp hensure
  obtain ⟨_, _, answer, hcall, -⟩ := Postgres.Proc.exec_run_bind_eq_ok.mp hgrant
  obtain ⟨_, _, hrevoke, -, -⟩ := exec_orFail_callFunction.mp hcall
  have hfails := exec_revokeAuthorityGrant_invalid ⟨id⟩ (draw k) d₁ hmetadata
  cases (exec_callFunction_eq_ok.mpr ⟨_, _, hrevoke, rfl, rfl⟩).symm.trans hfails

/-- `prune` of an empty manifest leaves nothing, if it does not fail. -/
theorem covers_of_prune_empty {r : Registrar} {manifest : Manifest} {draw : ℕ → Uuid} {d d' : Db}
    {ws : List Write} {removed : List Str} (hempty : manifest.services = [])
    (hmetadata : checkMetadata r.administrator pruneReason r.now = false)
    (h : (r.prune manifest draw).run.exec store d [] = ⟨d', ws, .ok removed⟩) :
    manifest.Covers d' := by
  obtain ⟨news, hnews, hall, hdisable⟩ :=
    exec_disableBindings (manifest.services.map ServiceSpec.serviceId) d
  rw [view_enrollmentBindings] at hdisable
  obtain ⟨d₁, ws₁, bindings, hbindings, hrest⟩ := Postgres.Proc.exec_run_bind_eq_ok.mp h
  rw [Postgres.Proc.exec_orFail_eq_ok, hdisable] at hbindings
  obtain ⟨rfl, rfl, -⟩ := Postgres.Outcome.mk.inj hbindings
  obtain ⟨d₂, ws₂, live, hlive, hrest⟩ := Postgres.Proc.exec_run_bind_eq_ok.mp hrest
  rw [Postgres.Proc.exec_orFail_eq_ok] at hlive
  obtain ⟨rfl, rfl, hanswer⟩ := Postgres.Outcome.mk.inj hlive
  obtain ⟨d₃, ws₃, removed', hloop, hdone⟩ := Postgres.Proc.exec_run_bind_eq_ok.mp hrest
  obtain ⟨rfl, -, -⟩ := Postgres.Outcome.mk.inj hdone
  have hlive : (d.grants.filter fun e => e.revokedAt = none).map GrantRow.texts = live :=
    Except.ok.inj hanswer
  rw [← hlive] at hloop
  -- With these metadata no grant can be revoked, and the manifest wants none, so none was live.
  have hnone : d.grants.filter (fun e => e.revokedAt = none) = [] := by
    by_contra hne
    obtain ⟨e, rest, hcons⟩ := List.exists_cons_of_ne_nil hne
    rw [hcons] at hloop
    refine exec_pruneGrants_invalid hmetadata ?_ hloop
    rw [GrantRow.Wanted, wanted, hempty]
    exact List.not_mem_nil
  rw [hnone] at hloop
  obtain ⟨rfl, -, -⟩ := Postgres.Outcome.mk.inj hloop
  refine ⟨fun b hb henabled => ?_, fun e he hrevoked => ?_⟩
  · have htext := ((mem_disabled hnews hall henabled).mp hb).2
    rw [hempty] at htext
    exact absurd htext List.not_mem_nil
  · have hmem : e ∈ d.grants.filter fun e => e.revokedAt = none :=
      List.mem_filter.mpr ⟨he, decide_eq_true hrevoked⟩
    rw [hnone] at hmem
    exact absurd hmem List.not_mem_nil

/-- After a pass that succeeds, `prune` withdraws what the manifest does not list, and nothing else,
if and only if what it lists is listed in the text that PostgreSQL prints. -/
theorem prune_spares_iff {r r' : Registrar} {manifest : Manifest} {draw : ℕ → Uuid} {d d' d'' : Db}
    {ws ws' : List Write} {changes : ServiceChanges} {result : Except RegistrarError (List Str)}
    (hok : (r.reconcile manifest).run.exec store d [] = ⟨d', ws, .ok changes⟩)
    (hadministrator : r'.administrator = r.administrator) (hnow : r.now ≤ r'.now)
    (hpk : (d'.grants.map GrantRow.grantId).Nodup)
    (hprune : (r'.prune manifest draw).run.exec store d' [] = ⟨d'', ws', result⟩) :
    manifest.Spares d' d'' ∧ (∀ removed, result = .ok removed → manifest.Covers d'') ↔
      manifest.Canonical d' := by
  cases hmetadata : checkMetadata r'.administrator pruneReason r'.now with
  | false =>
    -- Only a pass over no service accepts such an administrator.
    have hempty : manifest.services = [] := by
      by_contra hne
      obtain ⟨s, services, hcons⟩ := List.exists_cons_of_ne_nil hne
      rw [reconcile, hcons] at hok
      have hvalid := checkMetadata_pruneReason (checkMetadata_of_reconcile hok) hnow
      rw [← hadministrator, hmetadata] at hvalid
      cases hvalid
    refine ⟨fun _ => ⟨?_, ?_⟩, fun _ => ⟨⟨?_, ?_⟩, ?_⟩⟩
    · simp [hempty]
    · simp [hempty]
    · simp [hempty]
    · simp [hempty]
    · rintro removed rfl
      exact covers_of_prune_empty hempty hmetadata hprune
  | true =>
    obtain ⟨hbindings, hgrants⟩ := exec_prune hmetadata hpk hprune
    constructor
    · rintro ⟨hspares, -⟩
      constructor
      · intro s hs b hb henabled hid
        exact ((hbindings b henabled).mp (hspares.bindings s hs b hb henabled hid)).2
      · intro s hs e he hrevoked hlists
        exact ((hgrants e hrevoked).mp (hspares.grants s hs e he hrevoked hlists)).2
    · intro hcanonical
      refine ⟨⟨?_, ?_⟩, fun removed _ => ⟨?_, ?_⟩⟩
      · intro s hs b hb henabled hid
        exact (hbindings b henabled).mpr ⟨hb, hcanonical.bindings s hs b hb henabled hid⟩
      · intro s hs e he hrevoked hlists
        exact (hgrants e hrevoked).mpr ⟨he, hcanonical.grants s hs e he hrevoked hlists⟩
      · intro b hb henabled
        exact Manifest.exists_listed ((hbindings b henabled).mp hb).2
      · intro e he hrevoked
        exact Manifest.exists_lists ((hgrants e hrevoked).mp he).2

/-- The manifest with one service, in another text of its identifier. -/
def unhyphenated : Manifest where
  services := oneService.services.map fun s =>
    { s with serviceId := "00000000000000000000000000000001".toList }

/-- A pass over the manifest with one service leaves what `prune` keeps. -/
theorem prune_spares_seeded : ∃ (d' d'' : Db) (ws ws' : List Write) (changes : ServiceChanges)
    (result : Except RegistrarError (List Str)),
    (passAtTen.reconcile oneService).run.exec store seeded [] = ⟨d', ws, .ok changes⟩ ∧
      (passAtTen.prune oneService fun _ => 200).run.exec store d' [] = ⟨d'', ws', result⟩ ∧
      oneService.Spares d' d'' ∧ (∀ removed, result = .ok removed → oneService.Covers d'') := by
  have hok : ((passAtTen.reconcile oneService).run.exec store seeded []).result.isOk = true := by
    decide +kernel
  have hstate : ((passAtTen.reconcile oneService).run.exec store seeded []).db.grants.map
      (fun e => (e.grantId, e.sourceServiceId, e.action, e.scope)) =
        [(⟨20⟩, ⟨1⟩, "subscription.create".toList, ['*'])] := by
    decide +kernel
  have hbindings :
      ((passAtTen.reconcile oneService).run.exec store seeded []).db.enrollmentBindings = [] := by
    decide +kernel
  rcases hexec : (passAtTen.reconcile oneService).run.exec store seeded [] with
    ⟨d', ws, er | changes⟩
  · rw [hexec] at hok
    cases hok
  rw [hexec] at hstate hbindings
  dsimp only at hstate hbindings
  rcases hprune : (passAtTen.prune oneService fun _ => 200).run.exec store d' [] with
    ⟨d'', ws', result⟩
  refine ⟨d', d'', ws, ws', changes, result, rfl, hprune,
    (prune_spares_iff hexec rfl le_rfl ?_ hprune).mpr ⟨?_, ?_⟩⟩
  · -- The grants have different identifiers.
    have hids : d'.grants.map GrantRow.grantId = [⟨20⟩] := by
      have := congrArg (List.map Prod.fst) hstate
      simpa [List.map_map] using this
    rw [hids]
    exact List.nodup_singleton _
  · -- There are no bindings.
    intro s _ b hb
    rw [hbindings] at hb
    exact absurd hb List.not_mem_nil
  · -- The one grant is what the manifest lists.
    intro s _ e he _ _
    have hmem := List.mem_map_of_mem
      (f := fun e : GrantRow => (e.grantId, e.sourceServiceId, e.action, e.scope)) he
    rw [hstate, List.mem_singleton] at hmem
    obtain ⟨-, hsource, haction, hscope⟩ := by simpa only [Prod.mk.injEq] using hmem
    rw [GrantRow.Wanted, hsource, haction, hscope]
    decide +kernel

/-- In another text of its identifier the listed grant of a service is revoked. -/
theorem prune_revokes_unhyphenated :
    ¬ ∀ (r r' : Registrar) (manifest : Manifest) (draw : ℕ → Uuid) (d d' d'' : Db)
      (ws ws' : List Write) (changes : ServiceChanges) (result : Except RegistrarError (List Str)),
      Authority.system.Reaches seeded { db := d } →
      (r.reconcile manifest).run.exec store d [] = ⟨d', ws, .ok changes⟩ →
      r'.administrator = r.administrator → r.now ≤ r'.now → (d'.grants.map GrantRow.grantId).Nodup →
      (r'.prune manifest draw).run.exec store d' [] = ⟨d'', ws', result⟩ →
      manifest.Spares d' d'' ∧ (∀ removed, result = .ok removed → manifest.Covers d'') := by
  intro h
  have hok : ((passAtTen.reconcile unhyphenated).run.exec store seeded []).result.isOk = true := by
    decide +kernel
  have hpk : (((passAtTen.reconcile unhyphenated).run.exec store seeded []).db.grants.map
      GrantRow.grantId).Nodup := by decide +kernel
  -- The service's identifier is written without hyphens, so its grant is not recognised as listed.
  have hrevoked : ∃ e ∈ ((passAtTen.reconcile unhyphenated).run.exec store seeded []).db.grants,
      e.revokedAt = none ∧ (∃ s ∈ unhyphenated.services, s.Lists e) ∧
        e ∉ ((passAtTen.prune unhyphenated fun _ => 200).run.exec store
          ((passAtTen.reconcile unhyphenated).run.exec store seeded []).db []).db.grants := by
    decide +kernel
  rcases hexec : (passAtTen.reconcile unhyphenated).run.exec store seeded [] with
    ⟨d', ws, er | changes⟩
  · rw [hexec] at hok
    cases hok
  rw [hexec] at hpk hrevoked
  dsimp only at hpk hrevoked
  rcases hprune : (passAtTen.prune unhyphenated fun _ => 200).run.exec store d' [] with
    ⟨d'', ws', result⟩
  rw [hprune] at hrevoked
  obtain ⟨e, he, hlive, ⟨s, hs, hlists⟩, hgone⟩ := hrevoked
  have hspares := (h passAtTen passAtTen unhyphenated (fun _ => 200) seeded d' d'' ws ws' changes
    result .init hexec rfl le_rfl hpk hprune).1
  exact hgone (hspares.grants s hs e he hlive hlists)

end Registrar

end InfernalLaw
