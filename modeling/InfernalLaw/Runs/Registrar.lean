import InfernalLaw.Infrastructure.Registrar
import InfernalLaw.Runs.Authority

/-!
# What the registrar establishes

A pass of `reconcile` that succeeds, run alone. Everything that the registrar does about a service
is about what the database says of that service, its `ServiceRecord`, and leaves the records of the
other services as they are. So a pass is understood service by service: each step of it has its
effect on one part of the record.
-/

namespace InfernalLaw

open Postgres (DbError RowWrite Store require)
open Postgres.Proc (Upserted autocommit ensure orFail upsert)

/-! ## Records -/

/-- What the database says about one service. -/
structure ServiceRecord where
  identity : Option IdentityRow
  binding : Option EnrollmentBindingRow
  admission : Option AdmissionRow
  history : List AdmissionHistoryRow
  grants : List GrantRow

/-- The record of a service. -/
def Db.record (d : Db) (id : ActorId) : ServiceRecord where
  identity := d.identityRows.find? fun r => r.id = id
  binding := d.enrollmentBindings.find? fun r => r.serviceId = id
  admission := d.admissions.find? fun r => r.serviceId = id
  history := d.admissionHistory.filter fun h => h.serviceId = id
  grants := d.grants.filter fun g => g.sourceServiceId = id

/-- The service may communicate. One without an admission may not, nor may one with the admission
that comes with a new identity. -/
def ServiceRecord.enabled (c : ServiceRecord) : Bool :=
  c.admission.any AdmissionRow.communicationEnabled

/-- A write about the service: to a row that belongs to it, or to a table that no record shows.
Grants are only ever added. -/
def Write.About (id : ActorId) : Write → Prop
  | identities w => w.row.id = id
  | enrollmentBindings w => w.row.serviceId = id
  | admissions w => w.row.serviceId = id
  | admissionHistory h => h.serviceId = id
  | grants w => ∃ row, w = .insert row ∧ row.sourceServiceId = id
  | grantAudit _ => True
  | _ => False

/-- A write about one service leaves the record of another one as it is. -/
theorem Db.record_apply_of_ne {d : Db} {w : Write} {id id' : ActorId} (h : w.About id)
    (hne : id ≠ id') : (d.apply w).record id' = d.record id' := by
  cases w with
  | identities w =>
    have hid : w.row.id ≠ id' := fun heq => hne (h.symm.trans heq)
    simp [record, apply, RowWrite.find_apply_of_ne hid]
  | enrollmentBindings w =>
    have hid : w.row.serviceId ≠ id' := fun heq => hne (h.symm.trans heq)
    simp [record, apply, RowWrite.find_apply_of_ne hid]
  | admissions w =>
    have hid : w.row.serviceId ≠ id' := fun heq => hne (h.symm.trans heq)
    simp [record, apply, RowWrite.find_apply_of_ne hid]
  | admissionHistory row =>
    have hid : row.serviceId ≠ id' := fun heq => hne (h.symm.trans heq)
    simp [record, apply, hid]
  | grants w =>
    obtain ⟨row, rfl, hrow⟩ := h
    have hid : row.sourceServiceId ≠ id' := fun heq => hne (hrow.symm.trans heq)
    simp [record, apply, hid]
  | grantAudit row => rfl
  | _ => exact h.elim

/-- So does a list of them. -/
theorem Db.record_view_of_ne {id id' : ActorId} (hne : id ≠ id') : ∀ (ws : List Write) (d : Db),
    (∀ w ∈ ws, w.About id) → (store.view d ws).record id' = d.record id'
  | [], _, _ => rfl
  | w :: ws, d, h => by
    rw [Store.view_cons, record_view_of_ne hne ws _ fun w' hw' => h w' (List.mem_cons_of_mem _ hw')]
    exact record_apply_of_ne (h w List.mem_cons_self) hne

/-! ## Functions that succeed alone -/

/-- A call that succeeds alone commits what the function has written. -/
theorem exec_callFunction_eq_ok {α : Type} {f : PlPgSql α} {d d' : Db} {ws : List Write} {a : α} :
    (callFunction f).exec store d [] = ⟨d', ws, .ok a⟩ ↔ ∃ d₁ ws₁,
      f.run.exec store d [] = ⟨d₁, ws₁, .ok a⟩ ∧ d' = store.view d₁ ws₁ ∧ ws = [] :=
  Postgres.Proc.exec_autocommit_eq_ok

/-- The same, as a statement of the registrar. -/
theorem exec_orFail_callFunction {α : Type} {f : PlPgSql α} {d d' : Db} {ws : List Write} {a : α} :
    (orFail RegistrarError.database (callFunction f)).run.exec store d [] = ⟨d', ws, .ok a⟩ ↔
      ∃ d₁ ws₁, f.run.exec store d [] = ⟨d₁, ws₁, .ok a⟩ ∧ d' = store.view d₁ ws₁ ∧ ws = [] := by
  rw [Postgres.Proc.exec_orFail_eq_ok, exec_callFunction_eq_ok]

/-! ## Identities -/

/-- A row that is found by its identifier has it. -/
theorem IdentityRow.id_of_find {d : Db} {id : ActorId} {row : IdentityRow}
    (h : d.identityRows.find? (fun r => r.id = id) = some row) : row.id = id := by
  have := List.find?_some h
  rwa [decide_eq_true_eq] at this

/-- What the statement about an identity writes when it succeeds. -/
theorem exec_upsertIdentity {row : IdentityRow} {now : ℤ} {d d₁ : Db} {ws : List Write}
    {o : Upserted} (h : (upsertIdentity row now).run.exec store d [] = ⟨d₁, ws, .ok o⟩) : d₁ = d ∧
      (∀ w ∈ ws, w.About row.id ∧ (w.table = .identities ∨ w.table = .admissions)) ∧
      ((store.view d ws).record row.id).identity = some row ∧
      (0 < o.rows ↔ (d.record row.id).identity ≠ some row) ∧
      ((d.record row.id).identity.isSome = true ∧
          ((store.view d ws).record row.id).admission = (d.record row.id).admission ∨
        (d.record row.id).admission = none ∧
          ((store.view d ws).record row.id).admission = some (row.admission now)) := by
  obtain ⟨d₂, ws₂, o₂, hupsert, hrest⟩ := Postgres.Proc.exec_run_bind_eq_ok.mp h
  rw [perform, Postgres.Proc.exec_orFail_eq_ok] at hupsert
  obtain ⟨rfl, hcases⟩ := Postgres.Proc.exec_upsert_eq_ok hupsert
  rcases hcases with ⟨old, hfind, hchange, rfl, rfl⟩ | ⟨old, new, hfind, hchange, rfl, rfl⟩ |
    ⟨hfind, hcheck, rfl, rfl⟩
  · -- The row is there already.
    obtain ⟨rfl, rfl, ho⟩ := Postgres.Outcome.mk.inj hrest
    obtain rfl := Except.ok.inj ho
    have hsame : old = row := by
      by_contra hne
      simp [hne] at hchange
    subst hsame
    exact ⟨rfl, by simp, hfind, iff_of_false (lt_irrefl _) (not_not.mpr hfind),
      .inl ⟨Option.isSome_iff_exists.mpr ⟨_, hfind⟩, rfl⟩⟩
  · obtain ⟨rfl, rfl, ho⟩ := Postgres.Outcome.mk.inj hrest
    obtain rfl := Except.ok.inj ho
    have hdiffers : old ≠ row := fun hsame => by simp [hsame] at hchange
    obtain rfl : row = new := by simpa [hdiffers] using hchange
    have hbefore : (d₂.record row.id).identity ≠ some row := by
      intro hrow
      exact hdiffers (Option.some.inj (hfind.symm.trans hrow))
    exact ⟨rfl, by simp [Write.About, Write.table], RowWrite.find_update rfl hfind,
      iff_of_true Nat.one_pos hbefore, .inl ⟨Option.isSome_iff_exists.mpr ⟨_, hfind⟩, rfl⟩⟩
  · obtain ⟨d₃, ws₃, _, hinsert, hdone⟩ := Postgres.Proc.exec_run_bind_eq_ok.mp hrest
    rw [perform, Postgres.Proc.exec_orFail_eq_ok] at hinsert
    obtain ⟨rfl, rfl, ho⟩ := Postgres.Outcome.mk.inj hdone
    obtain rfl := Except.ok.inj ho
    obtain ⟨rfl, rfl, hadmission⟩ := Postgres.Proc.exec_insert_eq_ok hinsert
    -- The admission that comes with the row is the first one of the service.
    have hfirst : d₃.admissions.find? (fun r => r.serviceId = row.id) = none := by
      obtain ⟨_, -, hadmission⟩ := Postgres.bind_eq_ok.mp hadmission
      obtain ⟨hunique, -⟩ := Postgres.require_bind_eq_ok.mp hadmission
      exact List.find?_eq_none.mpr fun r hr => by
        rw [decide_eq_true_eq]
        exact hunique r hr
    have hbefore : (d₃.record row.id).identity ≠ some row := by
      intro hrow
      cases hfind.symm.trans hrow
    exact ⟨rfl, by simp [Write.About, Write.table, IdentityRow.admission],
      RowWrite.find_insert rfl hfind, iff_of_true Nat.one_pos hbefore,
      .inr ⟨hfirst, RowWrite.find_insert rfl hfirst⟩⟩

/-! ## Bindings -/

/-- What the statement about a binding writes when it succeeds. -/
theorem exec_upsertBinding {row : EnrollmentBindingRow} {d d' : Db} {ws : List Write} {o : Upserted}
    (h : (autocommit (upsertBinding row)).exec store d [] = ⟨d', ws, .ok o⟩) : ws = [] ∧
      ∃ us, d' = store.view d us ∧
        (∀ w ∈ us, w.About row.serviceId ∧ w.table = .enrollmentBindings) ∧
        (d'.record row.serviceId).binding = some row ∧ row.check = .ok () ∧
        (0 < o.rows ↔ (d.record row.serviceId).binding ≠ some row) ∧
        ((d.record row.serviceId).binding = some row ∨ d.checkWorkload row = .ok ()) ∧
        ((d.enrollmentBindings.map EnrollmentBindingRow.serviceId).Nodup →
          (d'.enrollmentBindings.map EnrollmentBindingRow.serviceId).Nodup) := by
  obtain ⟨d₁, ws₁, hupsert, rfl, rfl⟩ := Postgres.Proc.exec_autocommit_eq_ok.mp h
  obtain ⟨rfl, hcases⟩ := Postgres.Proc.exec_upsert_eq_ok hupsert
  refine ⟨rfl, ws₁, rfl, ?_⟩
  rcases hcases with ⟨old, hfind, hchange, rfl, rfl⟩ | ⟨old, new, hfind, hchange, rfl, rfl⟩ |
    ⟨hfind, hcheck, rfl, rfl⟩
  · -- The row is there as it should be: the `WHERE` clause of the update does not ask for it.
    obtain ⟨_, hcheck, hrest⟩ := Postgres.bind_eq_ok.mp hchange
    have hsame : old = row := by
      by_contra hne
      rw [if_neg hne] at hrest
      obtain ⟨_, _, hnone⟩ := Postgres.bind_eq_ok.mp hrest
      cases hnone
    subst hsame
    exact ⟨by simp, hfind, hcheck, iff_of_false (lt_irrefl _) (not_not.mpr hfind), .inl hfind, id⟩
  · -- The row is there and differs, so the update writes it.
    obtain ⟨_, hcheck, hrest⟩ := Postgres.bind_eq_ok.mp hchange
    have hdiffers : old ≠ row := by
      intro hsame
      rw [if_pos hsame] at hrest
      cases hrest
    rw [if_neg hdiffers] at hrest
    obtain ⟨_, hworkload, hsome⟩ := Postgres.bind_eq_ok.mp hrest
    obtain rfl := Option.some.inj (Except.ok.inj hsome)
    have hbefore : (d₁.record row.serviceId).binding ≠ some row := by
      intro hrow
      exact hdiffers (Option.some.inj (hfind.symm.trans hrow))
    refine ⟨by simp [Write.About, Write.table], RowWrite.find_update rfl hfind, hcheck,
      iff_of_true Nat.one_pos hbefore, .inr hworkload, fun hnodup => ?_⟩
    exact RowWrite.nodup_apply (w := .update row) hnodup fun _ heq => by cases heq
  · -- There is no row of the service.
    obtain ⟨_, hvalid, hrest⟩ := Postgres.bind_eq_ok.mp hcheck
    obtain ⟨hnew, hrest⟩ := Postgres.require_bind_eq_ok.mp hrest
    obtain ⟨_, hworkload, -⟩ := Postgres.bind_eq_ok.mp hrest
    have hbefore : (d₁.record row.serviceId).binding ≠ some row := by
      intro hrow
      cases hfind.symm.trans hrow
    refine ⟨by simp [Write.About, Write.table], RowWrite.find_insert rfl hfind, hvalid,
      iff_of_true Nat.one_pos hbefore, .inr hworkload, fun hnodup => ?_⟩
    refine RowWrite.nodup_apply (w := .insert row) hnodup fun new heq => ?_
    obtain rfl := RowWrite.insert.inj heq
    exact hnew

/-- The binding that a service is listed with. -/
def ServiceSpec.bindingRow (s : ServiceSpec) (id : ActorId)
    (resolver : Str → Str → Except RegistrarError Str) (row : EnrollmentBindingRow) : Prop :=
  ∃ workloadNamespace ∈ s.workloadNamespace, ∃ serviceAccount ∈ s.serviceAccount,
    ∃ uid, resolver workloadNamespace serviceAccount = .ok uid ∧
      row = ⟨id, workloadNamespace, serviceAccount, uid, true⟩

namespace ServiceSpec.bindingRow

variable {s : ServiceSpec} {id : ActorId} {resolver : Str → Str → Except RegistrarError Str}
  {row row' : EnrollmentBindingRow}

/-- A service that has a binding is listed with a service account. -/
theorem not_unlisted (h : s.bindingRow id resolver row) :
    ¬ (s.workloadNamespace = none ∨ s.serviceAccount = none) := by
  obtain ⟨_, hnamespace, _, haccount, -⟩ := h
  rintro (hnone | hnone)
  · cases hnone.symm.trans hnamespace
  · cases hnone.symm.trans haccount

/-- It is listed with one. -/
theorem unique (h : s.bindingRow id resolver row) (h' : s.bindingRow id resolver row') :
    row' = row := by
  obtain ⟨_, hnamespace, _, haccount, uid, huid, rfl⟩ := h
  obtain ⟨_, hnamespace', _, haccount', uid', huid', rfl⟩ := h'
  cases Option.mem_unique hnamespace hnamespace'
  cases Option.mem_unique haccount haccount'
  rw [Except.ok.inj (huid'.symm.trans huid)]

end ServiceSpec.bindingRow

/-- What the part of a pass that is about a binding does. -/
theorem exec_reconcileBinding {r : Registrar} {id : ActorId} {s : ServiceSpec} {d d' : Db}
    {ws : List Write} {applied : List Str}
    (h : (r.reconcileBinding id s).run.exec store d [] = ⟨d', ws, .ok applied⟩) : ws = [] ∧
      ∃ us, d' = store.view d us ∧ (∀ w ∈ us, w.About id ∧ w.table = .enrollmentBindings) ∧
        ((d.enrollmentBindings.map EnrollmentBindingRow.serviceId).Nodup →
          (d'.enrollmentBindings.map EnrollmentBindingRow.serviceId).Nodup) ∧
        ((s.workloadNamespace = none ∨ s.serviceAccount = none) ∧
            (d'.record id).binding = (d.record id).binding ∧ applied = [] ∨
          ∃ row, s.bindingRow id r.resolver row ∧ (d'.record id).binding = some row ∧
            row.check = .ok () ∧ (applied = if (d.record id).binding = some row then []
              else ["binding -> ".toList ++ row.serviceAccountUid]) ∧
            ((d.record id).binding = some row ∨ d.checkWorkload row = .ok ())) := by
  unfold Registrar.reconcileBinding at h
  cases hnamespace : s.workloadNamespace with
  | none =>
    simp only [hnamespace] at h
    cases h
    exact ⟨rfl, [], rfl, by simp, fun h => h, .inl ⟨.inl rfl, rfl, rfl⟩⟩
  | some workloadNamespace =>
    cases haccount : s.serviceAccount with
    | none =>
      simp only [hnamespace, haccount] at h
      cases h
      exact ⟨rfl, [], rfl, by simp, fun h => h, .inl ⟨.inr rfl, rfl, rfl⟩⟩
    | some serviceAccount =>
      simp only [hnamespace, haccount] at h
      -- Both parts of the workload are given: the account is resolved, and its row is put.
      obtain ⟨d₁, ws₁, uid, hensure, hrest⟩ := Postgres.Proc.exec_run_bind_eq_ok.mp h
      obtain ⟨rfl, rfl, huid⟩ := Postgres.Proc.exec_ensure_eq_ok.mp hensure
      obtain ⟨d₂, ws₂, o, hupsert, hdone⟩ := Postgres.Proc.exec_run_bind_eq_ok.mp hrest
      obtain ⟨rfl, rfl, happlied⟩ := Postgres.Outcome.mk.inj hdone
      obtain ⟨rfl, us, hview, habout, hbinding, hcheck, hrows, hfits, hnodup⟩ :=
        exec_upsertBinding (Postgres.Proc.exec_orFail_eq_ok.mp hupsert)
      refine ⟨rfl, us, hview, habout, hnodup, .inr
        ⟨_, ⟨workloadNamespace, hnamespace, serviceAccount,
        haccount, uid, huid, rfl⟩, hbinding, hcheck, ?_, hfits⟩⟩
      rw [← Except.ok.inj happlied, if_congr hrows rfl rfl, ite_not]

/-! ## Admission -/

/-- What a call of `set_service_communication_admission` writes when it succeeds. -/
inductive Administers (r : AdmissionRequest) (v : Db) : AdmissionResult → List Write → Prop where
  /-- The call repeats one that the history has. -/
  | repeats {h : AdmissionHistoryRow} (hmem : h ∈ v.admissionHistory)
      (hservice : h.serviceId = r.serviceId) (hcorrelation : h.correlationId = r.correlationId)
      (hsame : r.Repeats h) : Administers r v h.result []
  | records {current : AdmissionRow} {h : AdmissionHistoryRow} {ws : List Write}
      (hfind : v.admissions.find? (fun row => row.serviceId = r.serviceId) = some current)
      (htime : current.updatedAt ≤ r.changedAt) (hrecords : r.Records current h ws)
      (hcheck : (store.view v ws).checkAdmissionHistory h = .ok ()) :
      Administers r v h.result (ws ++ [.admissionHistory h])

/-- The last step of the function, when it succeeds. -/
theorem exec_recordAdmission {h : AdmissionHistoryRow} {d d' : Db} {ws ws' : List Write}
    {a : AdmissionResult} (hexec : (recordAdmission h).run.exec store d ws = ⟨d', ws', .ok a⟩) :
    d' = d ∧ ws' = ws ++ [.admissionHistory h] ∧ a = h.result ∧
      (store.view d ws).checkAdmissionHistory h = .ok () := by
  obtain ⟨d₁, ws₁, _, hinsert, hdone⟩ := Postgres.Proc.exec_run_bind_eq_ok.mp hexec
  rw [perform, Postgres.Proc.exec_orFail_eq_ok] at hinsert
  obtain ⟨rfl, rfl, hcheck⟩ := Postgres.Proc.exec_insert_eq_ok hinsert
  cases hdone
  exact ⟨rfl, rfl, rfl, hcheck⟩

/-- What the function does about the locked admission, when it succeeds. -/
theorem exec_applyAdmission {r : AdmissionRequest} {current : AdmissionRow} {d d' : Db}
    {ws ws' : List Write} {a : AdmissionResult}
    (hfind : (store.view d ws).admissions.find? (fun row => row.serviceId = r.serviceId) =
      some current)
    (hexec : (applyAdmission r current).run.exec store d ws = ⟨d', ws', .ok a⟩) :
    d' = d ∧ (current.communicationEnabled ≠ r.enabled → current.revision + 1 < 2 ^ 63) ∧
      ∃ us, ws' = ws ++ us ∧ Administers r (store.view d ws) a us := by
  unfold applyAdmission at hexec
  split at hexec
  · cases hexec
  rename_i htime
  split at hexec
  · rename_i hsame
    -- Nothing changes: only the history records the call.
    obtain ⟨rfl, rfl, rfl, hcheck⟩ := exec_recordAdmission hexec
    have hrecords : r.Records current _ [] := .noOp hsame
    exact ⟨rfl, absurd hsame, _, rfl, .records hfind (not_lt.mp htime) hrecords hcheck⟩
  rename_i hchanges
  -- The flag changes, and with it the revision, which must not overflow.
  obtain ⟨d₁, ws₁, revision, hensure, hrest⟩ := Postgres.Proc.exec_run_bind_eq_ok.mp hexec
  obtain ⟨rfl, rfl, hrevision⟩ := Postgres.Proc.exec_ensure_eq_ok.mp hensure
  obtain ⟨d₂, ws₂, _, hupdate, hrecord⟩ := Postgres.Proc.exec_run_bind_eq_ok.mp hrest
  rw [perform, Postgres.Proc.exec_orFail_eq_ok, updateAdmission,
    Postgres.Proc.exec_update] at hupdate
  simp only [hfind, Option.bind_some] at hupdate
  obtain ⟨hroom, rfl⟩ : current.revision + 1 < 2 ^ 63 ∧ revision = current.revision + 1 := by
    split at hrevision
    · rename_i hroom
      exact ⟨hroom, (Except.ok.inj hrevision).symm⟩
    · cases hrevision
  split at hupdate
  · rename_i new hchange
    obtain ⟨rfl, hpos⟩ := changeAdmission_eq_ok hchange
    obtain ⟨rfl, rfl, -⟩ := Postgres.Outcome.mk.inj hupdate
    obtain ⟨rfl, rfl, rfl, hcheck⟩ := exec_recordAdmission hrecord
    refine ⟨rfl, fun _ => hroom, [.admissions (.update (r.next current))] ++ [.admissionHistory _],
      List.append_assoc .., .records hfind (not_lt.mp htime) (.changed hchanges hpos) ?_⟩
    rw [← Store.view_append]
    exact hcheck
  · cases hupdate

/-- What a call of `set_service_communication_admission` does when it succeeds. -/
theorem exec_setServiceCommunicationAdmission {r : AdmissionRequest} {d d' : Db}
    {ws ws' : List Write} {a : AdmissionResult}
    (hexec : (setServiceCommunicationAdmission r).run.exec store d ws = ⟨d', ws', .ok a⟩) :
    checkMetadata r.administratorIdentity r.reason r.changedAt = true ∧ d' = d ∧
      ((∀ h ∈ (store.view d ws).admissionHistory, h.serviceId = r.serviceId →
        h.correlationId ≠ r.correlationId) →
        ∀ current ∈ ((store.view d ws).record r.serviceId).admission,
          current.communicationEnabled ≠ r.enabled → current.revision + 1 < 2 ^ 63) ∧
      ∃ us, ws' = ws ++ us ∧ Administers r (store.view d ws) a us := by
  unfold setServiceCommunicationAdmission at hexec
  split at hexec
  · cases hexec
  rename_i hmetadata
  refine ⟨by simpa using hmetadata, ?_⟩
  obtain ⟨d₁, ws₁, locked, hlock, hrest⟩ := Postgres.Proc.exec_run_bind_eq_ok.mp hexec
  rw [perform, Postgres.Proc.exec_orFail_eq_ok, lockAdmission,
    Postgres.Proc.exec_selectForUpdate] at hlock
  obtain ⟨rfl, rfl, hlocked⟩ := Postgres.Outcome.mk.inj hlock
  have hcurrent := Except.ok.inj hlocked
  split at hrest
  · cases hrest
  rename_i current
  have hfind : (store.view d ws).admissions.find? (fun row => row.serviceId = r.serviceId) =
      some current := by
    obtain ⟨_, _, hfind⟩ := Option.bind_eq_some_iff.mp hcurrent
    exact hfind
  obtain ⟨d₂, ws₂, found, hquery, hrest⟩ := Postgres.Proc.exec_run_bind_eq_ok.mp hrest
  rw [perform, Postgres.Proc.exec_orFail_eq_ok, findAdmissionHistory,
    Postgres.Proc.exec_query] at hquery
  obtain ⟨rfl, rfl, hanswer⟩ := Postgres.Outcome.mk.inj hquery
  have hfound := Except.ok.inj hanswer
  split at hrest
  · rename_i h
    -- The identifier of the call is taken: it is answered again what it was, if it asks for the
    -- same.
    have hkeys := List.find?_some hfound
    rw [decide_eq_true_eq] at hkeys
    split at hrest
    · rename_i hsame
      cases hrest
      exact ⟨rfl, fun hfresh =>
        absurd hkeys.2 (hfresh h (List.mem_of_find?_eq_some hfound) hkeys.1),
        [], by simp, .repeats (List.mem_of_find?_eq_some hfound) hkeys.1 hkeys.2 hsame⟩
    · cases hrest
  · -- The identifier is new, and the change is applied to the row that is locked.
    obtain ⟨rfl, hroom, hrest⟩ := exec_applyAdmission hfind hrest
    refine ⟨rfl, fun _ current' hcurrent' => ?_, hrest⟩
    obtain rfl := Option.some.inj (hfind.symm.trans hcurrent')
    exact hroom

/-- The service has the admission that the request asks for. -/
def Administered (r : AdmissionRequest) (v : Db) : Prop :=
  ∃ row, v.admissions.find? (fun row => row.serviceId = r.serviceId) = some row ∧
    row.communicationEnabled = r.enabled ∧ row.updatedAt ≤ r.changedAt ∧ 0 ≤ row.revision

/-- What a call writes is about its service. -/
theorem Administers.about {r : AdmissionRequest} {v : Db} {a : AdmissionResult} {ws : List Write}
    (h : Administers r v a ws) : ∀ w ∈ ws,
      w.About r.serviceId ∧ (w.table = .admissions ∨ w.table = .admissionHistory) := by
  cases h with
  | «repeats» => simp
  | records hfind htime hrecords hcheck =>
    have hservice := List.find?_some hfind
    rw [decide_eq_true_eq] at hservice
    cases hrecords with
    | noOp => simp [Write.About, Write.table, AdmissionRequest.historyRow]
    | changed => simp [Write.About, Write.table, AdmissionRequest.historyRow, hservice]

/-- A new call leaves the admission as the request asks for it. -/
theorem Administers.administered {r : AdmissionRequest} {v : Db} {a : AdmissionResult}
    {ws : List Write} (h : Administers r v a ws)
    (hnew : ∀ h ∈ v.admissionHistory, h.serviceId = r.serviceId →
      h.correlationId = r.correlationId → Administered r v) :
    Administered r (store.view v ws) := by
  cases h with
  | «repeats» hmem hservice hcorrelation => exact hnew _ hmem hservice hcorrelation
  | @records current row _ hfind htime hrecords hcheck =>
    have hservice := List.find?_some hfind
    rw [decide_eq_true_eq] at hservice
    have hrevision : 0 ≤ row.revision := by
      simp only [Db.checkAdmissionHistory, Postgres.require_bind_eq_ok] at hcheck
      exact hcheck.2.2.2.1
    cases hrecords with
    | noOp hsame => exact ⟨current, hfind, hsame, htime, hrevision⟩
    | changed hchanges hpos =>
      exact ⟨r.next current, RowWrite.find_update hservice hfind, rfl, le_rfl, hpos⟩

/-- A new call says whether the admission was the requested one before. -/
theorem Administers.outcome {r : AdmissionRequest} {v : Db} {a : AdmissionResult} {ws : List Write}
    (h : Administers r v a ws)
    (hnew : ∀ h ∈ v.admissionHistory, h.serviceId = r.serviceId →
      h.correlationId ≠ r.correlationId) :
    a.outcome = if (v.record r.serviceId).enabled = r.enabled then .noOp else .changed := by
  cases h with
  | «repeats» hmem hservice hcorrelation => exact absurd hcorrelation (hnew _ hmem hservice)
  | @records current row _ hfind _ hrecords _ =>
    have hbefore : (v.record r.serviceId).enabled = current.communicationEnabled :=
      congrArg (Option.any AdmissionRow.communicationEnabled) hfind
    rw [hbefore]
    cases hrecords with
    | noOp hsame =>
      rw [if_pos hsame]
      rfl
    | changed hchanges =>
      rw [if_neg hchanges]
      rfl

/-- What the statement about an admission does when it succeeds and its first UUID is new. -/
theorem exec_setAdmission {r : AdmissionRequest} {repeated : List Uuid} {d d' : Db}
    {ws : List Write} {a : AdmissionResult}
    (hfresh : ∀ h ∈ d.admissionHistory, h.serviceId = r.serviceId →
      h.correlationId ≠ r.correlationId)
    (hexec : (setAdmission r repeated).run.exec store d [] = ⟨d', ws, .ok a⟩) :
    checkMetadata r.administratorIdentity r.reason r.changedAt = true ∧ d' = d ∧
      (∀ current ∈ (d.record r.serviceId).admission,
        current.communicationEnabled ≠ r.enabled → current.revision + 1 < 2 ^ 63) ∧
      (∀ w ∈ ws, w.About r.serviceId ∧ (w.table = .admissions ∨ w.table = .admissionHistory)) ∧
      Administered r (store.view d ws) := by
  obtain ⟨d₁, ws₁, a₁, hfirst, hrest⟩ := Postgres.Proc.exec_run_bind_eq_ok.mp hexec
  obtain ⟨hmetadata, rfl, hroom, us, hus, hadministers⟩ :=
    exec_setServiceCommunicationAdmission hfirst
  rw [List.nil_append] at hus
  subst hus
  refine ⟨hmetadata, and_left_comm.mp ⟨hroom hfresh, ?_⟩⟩
  have habout := hadministers.about
  have hheld : Administered r (store.view d₁ ws₁) :=
    hadministers.administered fun h hmem hservice hcorrelation =>
    absurd hcorrelation (hfresh h hmem hservice)
  -- The further calls find the admission as the first one has left it.
  clear hfirst hadministers hexec hfresh hroom
  induction repeated generalizing ws₁ a₁ with
  | nil =>
    obtain ⟨rfl, rfl, -⟩ := Postgres.Outcome.mk.inj hrest
    exact ⟨rfl, habout, hheld⟩
  | cons correlationId repeated ih =>
    rw [List.foldlM_cons] at hrest
    obtain ⟨d₂, ws₂, a₂, hcall, hrest⟩ := Postgres.Proc.exec_run_bind_eq_ok.mp hrest
    obtain ⟨-, rfl, -, us₂, rfl, hadministers⟩ := exec_setServiceCommunicationAdmission hcall
    refine ih (ws₁ ++ us₂) a₂ hrest (fun w hw => ?_) ?_
    · rcases List.mem_append.mp hw with hw | hw
      · exact habout w hw
      · exact hadministers.about w hw
    · rw [Store.view_append]
      exact hadministers.administered fun _ _ _ _ => hheld

/-- The text under which the report names a change of the admission. -/
def AdmissionOutcome.changedTo (enabled : Bool) : Str :=
  ("admission=" ++ toString enabled ++ " (" ++ changed.sql ++ ")").toList

/-- What the part of a pass that is about an admission does. -/
theorem exec_reconcileAdmission {r : Registrar} {i : ℕ} {id : ActorId} {s : ServiceSpec} {d d' : Db}
    {ws : List Write} {applied : List Str}
    (hfresh : ∀ h ∈ d.admissionHistory, h.serviceId = id →
      h.correlationId ≠ r.admissionCorrelation i)
    (h : (r.reconcileAdmission i id s).run.exec store d [] = ⟨d', ws, .ok applied⟩) : ws = [] ∧
      ∃ us, d' = store.view d us ∧
        (∀ w ∈ us, w.About id ∧ (w.table = .admissions ∨ w.table = .admissionHistory)) ∧
        Administered (r.admissionRequest i id s.communicationEnabled) d' ∧
        checkMetadata r.administrator "registrar reconciliation".toList r.now = true ∧
        (∀ current ∈ (d.record id).admission,
          current.communicationEnabled ≠ s.communicationEnabled → current.revision + 1 < 2 ^ 63) ∧
        (r.admissionRepeats i = [] → applied =
          if (d.record id).enabled = s.communicationEnabled then []
          else [AdmissionOutcome.changedTo s.communicationEnabled]) := by
  obtain ⟨d₁, ws₁, result, hcall, hdone⟩ := Postgres.Proc.exec_run_bind_eq_ok.mp h
  obtain ⟨rfl, rfl, happlied⟩ := Postgres.Outcome.mk.inj hdone
  obtain ⟨d₂, us, hset, rfl, rfl⟩ := exec_orFail_callFunction.mp hcall
  obtain ⟨hmetadata, rfl, hroom, habout, hadministered⟩ := exec_setAdmission hfresh hset
  refine ⟨rfl, us, rfl, habout, hadministered, hmetadata, hroom, fun honce => ?_⟩
  -- Without repeats the function runs once, and its outcome is whether the flag was as it should
  -- be.
  rw [honce] at hset
  obtain ⟨d₃, ws₃, result₁, hfirst, hrest⟩ := Postgres.Proc.exec_run_bind_eq_ok.mp hset
  obtain ⟨rfl, rfl, hresult⟩ := Postgres.Outcome.mk.inj hrest
  obtain rfl := Except.ok.inj hresult
  obtain ⟨-, -, -, us', -, hadministers⟩ := exec_setServiceCommunicationAdmission hfirst
  have houtcome : result₁.outcome =
      if (d₃.record id).enabled = s.communicationEnabled then .noOp else .changed :=
    hadministers.outcome hfresh
  rw [← Except.ok.inj happlied]
  by_cases hsame : (d₃.record id).enabled = s.communicationEnabled
  · rw [if_pos hsame] at houtcome
    rw [if_pos houtcome, if_pos hsame]
  · rw [if_neg hsame] at houtcome
    rw [if_neg (by simp [houtcome]), if_neg hsame, houtcome]
    rfl

/-! ## Grants -/

/-- The text under which the report names a grant that has been created. -/
def GrantSpec.applied (g : GrantSpec) : Str := "grant ".toList ++ g.action ++ " ".toList ++ g.scope

/-- A grant that the registrar has created for a listed one. -/
structure Registrar.Created (r : Registrar) (id : ActorId) (g : GrantSpec) (row : GrantRow) :
    Prop where
  source : row.sourceServiceId = id
  action : row.action = g.action
  scope : row.scope = g.scope
  artifact : row.artifactSchemaVersionId = noArtifactSchemaVersions.artifact
  permissionPolicy :
    row.permissionPolicySchemaVersionId = noArtifactSchemaVersions.permissionPolicy
  destination : row.destinationServiceId = none
  validFrom : row.validFrom = 0
  validUntil : row.validUntil = none
  revokedAt : row.revokedAt = none
  now : 0 ≤ r.now
  valid : checkDottedName 3 2 g.action

/-- A grant has the UUIDs that are drawn for the place `k` of the service at the place `i`. -/
def Registrar.Drawn (r : Registrar) (i k : ℕ) (row : GrantRow) : Prop :=
  row.grantId = r.grantId i k ∧ row.correlationId = r.grantCorrelation i k

/-- It counts as live. -/
theorem Registrar.Created.live {r : Registrar} {id : ActorId} {g : GrantSpec} {row : GrantRow}
    (h : r.Created id g row) : row.Live id g r.now :=
  ⟨h.source, h.action, h.scope, h.destination, h.revokedAt, by simp [h.validUntil]⟩

/-- The reserved schema versions, as the registrar names them. -/
theorem castUuid_noArtifact : castUuid noArtifactSchemaVersion = .ok 1 ∧
    castUuid noArtifactPermissionPolicySchemaVersion = .ok 2 := by decide +kernel

/-- What a call of `create_authority_grant` writes when it succeeds. -/
theorem exec_createAuthorityGrant {requested : GrantRow} {d d' : Db} {ws : List Write}
    {a : GrantRow}
    (hexec : (createAuthorityGrant requested).run.exec store d [] = ⟨d', ws, .ok a⟩) : ∃ row :
      GrantRow, row = { requested with
        administratorIdentity := btrim requested.administratorIdentity
        reason := btrim requested.reason
        revokedAt := none } ∧ d' = d ∧
      ((∃ e ∈ d.grants, e.correlationId = requested.correlationId ∧ e.sameContent row ∧ ws = []) ∨
        (ws = [.grants (.insert row), .grantAudit (row.auditRow .created)] ∧
          d.checkGrant row = .ok ())) := by
  refine ⟨_, rfl, ?_⟩
  unfold createAuthorityGrant at hexec
  split at hexec
  · cases hexec
  -- The two schema versions are looked up, and must be of their kinds.
  obtain ⟨d₁, ws₁, artifactKind, hkind, hrest⟩ := Postgres.Proc.exec_run_bind_eq_ok.mp hexec
  rw [perform, Postgres.Proc.exec_orFail_eq_ok, findSchemaKind, Postgres.Proc.exec_query] at hkind
  obtain ⟨rfl, rfl, -⟩ := Postgres.Outcome.mk.inj hkind
  split at hrest
  · cases hrest
  obtain ⟨d₂, ws₂, policyKind, hkind₂, hrest⟩ := Postgres.Proc.exec_run_bind_eq_ok.mp hrest
  rw [perform, Postgres.Proc.exec_orFail_eq_ok, findSchemaKind, Postgres.Proc.exec_query] at hkind₂
  obtain ⟨rfl, rfl, -⟩ := Postgres.Outcome.mk.inj hkind₂
  split at hrest
  · cases hrest
  -- Then the grant that the correlation identifier may have created before.
  obtain ⟨d₃, ws₃, existing, hfind, hrest⟩ := Postgres.Proc.exec_run_bind_eq_ok.mp hrest
  rw [perform, Postgres.Proc.exec_orFail_eq_ok, findGrantByCorrelation,
    Postgres.Proc.exec_query] at hfind
  obtain ⟨rfl, rfl, hexisting⟩ := Postgres.Outcome.mk.inj hfind
  have hfound := Except.ok.inj hexisting
  unfold createGrantRow at hrest
  split at hrest
  · rename_i e
    have hcorrelation := List.find?_some hfound
    rw [decide_eq_true_eq] at hcorrelation
    split at hrest
    · rename_i hsame
      obtain ⟨rfl, rfl, -⟩ := Postgres.Outcome.mk.inj hrest
      exact ⟨rfl, .inl ⟨e, List.mem_of_find?_eq_some hfound, hcorrelation, hsame, rfl⟩⟩
    · cases hrest
  · -- There is none, so the grant is new, and its row is written with its entry in the audit.
    obtain ⟨d₄, ws₄, taken, hquery, hrest⟩ := Postgres.Proc.exec_run_bind_eq_ok.mp hrest
    rw [perform, Postgres.Proc.exec_orFail_eq_ok, findGrant, Postgres.Proc.exec_query] at hquery
    obtain ⟨rfl, rfl, -⟩ := Postgres.Outcome.mk.inj hquery
    split at hrest
    · obtain ⟨_, _, _, _, hthrow⟩ := Postgres.Proc.exec_run_bind_eq_ok.mp hrest
      cases hthrow
    · obtain ⟨d₅, ws₅, _, hinsert, hrest⟩ := Postgres.Proc.exec_run_bind_eq_ok.mp hrest
      rw [perform, Postgres.Proc.exec_orFail_eq_ok] at hinsert
      obtain ⟨rfl, rfl, hcheck⟩ := Postgres.Proc.exec_insert_eq_ok hinsert
      obtain ⟨d₆, ws₆, _, haudit, hrest⟩ := Postgres.Proc.exec_run_bind_eq_ok.mp hrest
      rw [perform, Postgres.Proc.exec_orFail_eq_ok] at haudit
      obtain ⟨rfl, rfl, -⟩ := Postgres.Proc.exec_insert_eq_ok haudit
      obtain ⟨rfl, rfl, -⟩ := Postgres.Outcome.mk.inj hrest
      exact ⟨rfl, .inr ⟨rfl, hcheck⟩⟩

/-- What the statements about one grant do when they succeed: nothing if a grant is live, else they
create one. That is not so if the UUID that is drawn is one of an older grant, which `hnew` excludes
but for grants that are still live. -/
theorem exec_reconcileGrant {r : Registrar} {i k : ℕ} {id : ActorId} {g : GrantSpec} {d d' : Db}
    {ws : List Write} {applied : List Str}
    (hnew : ∀ e ∈ d.grants, e.sourceServiceId = id → e.correlationId = r.grantCorrelation i k →
      e.revokedAt = none ∧ e.validUntil = none)
    (h : (r.reconcileGrant i k id g).run.exec store d [] = ⟨d', ws, .ok applied⟩) : ws = [] ∧
      (checkText g.action = .ok () ∧ checkText g.scope = .ok ()) ∧
      ((∃ e ∈ d.grants, e.Live id g r.now) ∧ d' = d ∧ applied = [] ∨
        (∀ e ∈ d.grants, ¬ e.Live id g r.now) ∧ applied = [g.applied] ∧ ∃ row, r.Created id g row ∧
          r.Drawn i k row ∧
          d' = store.view d [.grants (.insert row), .grantAudit (row.auditRow .created)]) := by
  obtain ⟨d₁, ws₁, count, hcount, hrest⟩ := Postgres.Proc.exec_run_bind_eq_ok.mp h
  rw [Postgres.Proc.exec_orFail_eq_ok, Postgres.Proc.exec_autocommit_eq_ok] at hcount
  obtain ⟨d₂, ws₂, hcount, rfl, rfl⟩ := hcount
  rw [countLiveGrants, Postgres.Proc.exec_statement] at hcount
  obtain ⟨rfl, rfl, hanswer⟩ := Postgres.Outcome.mk.inj hcount
  obtain ⟨_, haction, hanswer⟩ := Postgres.bind_eq_ok.mp hanswer
  obtain ⟨_, hscope, hanswer⟩ := Postgres.bind_eq_ok.mp hanswer
  have hcount : d.grants.countP (fun row => row.Live id g r.now) = count := Except.ok.inj hanswer
  change (if 0 < count then _ else _ : Fallible RegistrarError (List Str)).run.exec store d [] = _
    at hrest
  split at hrest
  · rename_i hpos
    obtain ⟨rfl, rfl, happlied⟩ := Postgres.Outcome.mk.inj hrest
    rw [← hcount, List.countP_pos_iff] at hpos
    exact ⟨rfl, ⟨haction, hscope⟩, .inl ⟨by simpa using hpos, rfl, (Except.ok.inj happlied).symm⟩⟩
  rename_i hnone
  have hdead : ∀ e ∈ d.grants, ¬ e.Live id g r.now := by
    rw [← hcount, List.countP_pos_iff] at hnone
    simpa using hnone
  obtain ⟨d₃, ws₃, requested, hensure, hrest⟩ := Postgres.Proc.exec_run_bind_eq_ok.mp hrest
  obtain ⟨rfl, rfl, hrequested⟩ := Postgres.Proc.exec_ensure_eq_ok.mp hensure
  obtain ⟨d₄, ws₄, a, hcall, hdone⟩ := Postgres.Proc.exec_run_bind_eq_ok.mp hrest
  obtain ⟨rfl, rfl, happlied⟩ := Postgres.Outcome.mk.inj hdone
  obtain ⟨d₅, us, hcreate, rfl, rfl⟩ := exec_orFail_callFunction.mp hcall
  obtain ⟨row, hrow, rfl, hcases⟩ := exec_createAuthorityGrant hcreate
  rw [Postgres.mapError_eq_ok, Registrar.grantRow, castUuid_noArtifact.1, castUuid_noArtifact.2]
    at hrequested
  obtain rfl := Except.ok.inj hrequested
  refine ⟨rfl, ⟨haction, hscope⟩, .inr ⟨hdead, (Except.ok.inj happlied).symm, ?_⟩⟩
  rcases hcases with ⟨e, hmem, hcorrelation, hsame, -⟩ | ⟨rfl, hcheck⟩
  · -- A grant with this UUID and this content would be live.
    subst hrow
    obtain ⟨-, hsource, heaction, hescope, -, -, hdestination, -, -⟩ := hsame
    obtain ⟨hrevoked, huntil⟩ := hnew e hmem hsource hcorrelation
    exact absurd ⟨hsource, heaction, hescope, hdestination, hrevoked, by simp [huntil]⟩
      (hdead e hmem)
  · refine ⟨row, ?_, hrow ▸ ⟨rfl, rfl⟩, rfl⟩
    subst hrow
    simp only [Db.checkGrant, Postgres.require_bind_eq_ok] at hcheck
    exact ⟨rfl, rfl, rfl, rfl, rfl, rfl, rfl, rfl, rfl, hcheck.2.2.2.1, hcheck.1⟩

/-- What the loop over the grants does when it succeeds. A listed grant without a live one is
created once, also if it is listed more than once. -/
theorem exec_reconcileGrants {r : Registrar} {i : ℕ} {id : ActorId} (grants : List GrantSpec) :
    ∀ {k : ℕ} {d d' : Db} {ws : List Write} {applied : List Str},
      (∀ e ∈ d.grants, e.sourceServiceId = id → (∃ k, e.correlationId = r.grantCorrelation i k) →
        e.revokedAt = none ∧ e.validUntil = none) →
      (r.reconcileGrants i id k grants).run.exec store d [] = ⟨d', ws, .ok applied⟩ → ws = [] ∧
        (∀ g ∈ grants, checkText g.action = .ok () ∧ checkText g.scope = .ok ()) ∧
        ∃ us new, d' = store.view d us ∧
          (∀ w ∈ us, w.About id ∧ (w.table = .grants ∨ w.table = .grantAudit)) ∧
          d'.grants = d.grants ++ new ∧
          (∀ row ∈ new, ∃ g ∈ grants, r.Created id g row ∧ ∀ e ∈ d.grants, ¬ e.Live id g r.now) ∧
          (∀ g ∈ grants, (∀ e ∈ d.grants, ¬ e.Live id g r.now) → ∃ row ∈ new, r.Created id g row) ∧
          (∀ row ∈ new, ∃ j < grants.length, r.Drawn i (k + j) row) ∧
          ∀ text, text ∈ applied ↔
            ∃ g ∈ grants, (∀ e ∈ d.grants, ¬ e.Live id g r.now) ∧ text = g.applied := by
  induction grants with
  | nil =>
    intro k d d' ws applied _ h
    obtain ⟨rfl, rfl, happlied⟩ := Postgres.Outcome.mk.inj h
    obtain rfl := Except.ok.inj happlied
    exact ⟨rfl, by simp, [], [], rfl, by simp, by simp, by simp, by simp, by simp, by simp⟩
  | cons g grants ih =>
    intro k d d' ws applied hnew h
    obtain ⟨d₁, ws₁, applied₁, hgrant, hrest⟩ := Postgres.Proc.exec_run_bind_eq_ok.mp h
    obtain ⟨rfl, htexts, hcases⟩ := exec_reconcileGrant
      (fun e hmem hsource hk => hnew e hmem hsource ⟨k, hk⟩) hgrant
    obtain ⟨d₂, ws₂, applied₂, hgrants, hdone⟩ := Postgres.Proc.exec_run_bind_eq_ok.mp hrest
    obtain ⟨rfl, rfl, happlied⟩ := Postgres.Outcome.mk.inj hdone
    obtain rfl := Except.ok.inj happlied
    rcases hcases with ⟨⟨e, he, hlive⟩, rfl, rfl⟩ | ⟨hdead, rfl, row, hcreated, hdrawn, rfl⟩
    · obtain ⟨rfl, hall, us, new, hd, habout, heq, hsound, hcomplete, hdrawns, htext⟩ :=
        ih hnew hgrants
      refine ⟨rfl, ?_, us, new, hd, habout, heq, fun row hrow => ?_, fun g' hg' hdead => ?_,
        fun row hrow => ?_, fun text => ?_⟩
      · exact List.forall_mem_cons.mpr ⟨htexts, hall⟩
      · obtain ⟨g', hg', hrest⟩ := hsound row hrow
        exact ⟨g', List.mem_cons_of_mem _ hg', hrest⟩
      · rcases List.mem_cons.mp hg' with rfl | hg'
        · exact absurd hlive (hdead e he)
        · exact hcomplete g' hg' hdead
      · obtain ⟨j, hj, hdrawn⟩ := hdrawns row hrow
        refine ⟨j + 1, Nat.succ_lt_succ hj, ?_⟩
        rwa [Nat.add_right_comm] at hdrawn
      · have hnot : ¬ ∀ e ∈ d₁.grants, ¬ e.Live id g r.now := fun hdead => hdead e he hlive
        simp [htext, hnot]
    · have hgrants₁ :
          (store.view d [.grants (.insert row), .grantAudit (row.auditRow .created)]).grants
          = d.grants ++ [row] := rfl
      obtain ⟨rfl, hall, us, new, hd, habout, heq, hsound, hcomplete, hdrawns, htext⟩ :=
        ih (fun e he hsource hk => by
        rw [hgrants₁] at he
        rcases List.mem_append.mp he with he | he
        · exact hnew e he hsource hk
        · rw [List.mem_singleton.mp he]
          exact ⟨hcreated.revokedAt, hcreated.validUntil⟩) hgrants
      rw [hgrants₁] at heq hsound hcomplete htext
      refine ⟨rfl, List.forall_mem_cons.mpr ⟨htexts, hall⟩,
        [.grants (.insert row), .grantAudit (row.auditRow .created)] ++ us, row :: new, ?_, ?_, ?_,
        ?_, fun g' hg' hdead' => ?_,
        List.forall_mem_cons.mpr ⟨⟨0, Nat.succ_pos _, hdrawn⟩, fun row hrow => ?_⟩, fun text => ?_⟩
      · rw [Store.view_append]
        exact hd
      · intro w hw
        rcases List.mem_append.mp hw with hw | hw
        · simp only [List.mem_cons, List.not_mem_nil, or_false] at hw
          rcases hw with rfl | rfl
          · exact ⟨⟨row, rfl, hcreated.source⟩, .inl rfl⟩
          · exact ⟨trivial, .inr rfl⟩
        · exact habout w hw
      · rw [heq, List.append_assoc, List.singleton_append]
      · intro row' hrow'
        rcases List.mem_cons.mp hrow' with rfl | hrow'
        · exact ⟨g, List.mem_cons_self, hcreated, hdead⟩
        · obtain ⟨g', hg', hcreated', hdead'⟩ := hsound row' hrow'
          exact ⟨g', List.mem_cons_of_mem _ hg', hcreated',
            fun e he => hdead' e (List.mem_append_left _ he)⟩
      · -- A grant that is live now and was not before is the one that has just been created.
        rcases List.mem_cons.mp hg' with rfl | hg'
        · exact ⟨row, List.mem_cons_self, hcreated⟩
        · by_cases hlive : row.Live id g' r.now
          · refine ⟨row, List.mem_cons_self, { hcreated with
              action := hlive.2.1, scope := hlive.2.2.1, valid := ?_ }⟩
            rw [← hlive.2.1, hcreated.action]
            exact hcreated.valid
          · obtain ⟨row', hrow', hcreated'⟩ := hcomplete g' hg' fun e he => by
              rcases List.mem_append.mp he with he | he
              · exact hdead' e he
              · rwa [List.mem_singleton.mp he]
            exact ⟨row', List.mem_cons_of_mem _ hrow', hcreated'⟩
      · obtain ⟨j, hj, hdrawn⟩ := hdrawns row hrow
        refine ⟨j + 1, Nat.succ_lt_succ hj, ?_⟩
        rwa [Nat.add_right_comm] at hdrawn
      · rw [List.singleton_append, List.mem_cons, htext]
        constructor
        · rintro (rfl | ⟨g', hg', hdead', rfl⟩)
          · exact ⟨g, List.mem_cons_self, hdead, rfl⟩
          · exact ⟨g', List.mem_cons_of_mem _ hg',
              fun e he => hdead' e (List.mem_append_left _ he), rfl⟩
        · rintro ⟨g', hg', hdead', rfl⟩
          rcases List.mem_cons.mp hg' with rfl | hg'
          · exact .inl rfl
          -- The grant that has just been created may be for this one too; then it has the same
          -- text.
          by_cases hlive : row.Live id g' r.now
          · left
            unfold GrantSpec.applied
            rw [← hlive.2.1, ← hlive.2.2.1, hcreated.action, hcreated.scope]
          · refine .inr ⟨g', hg', fun e he => ?_, rfl⟩
            rcases List.mem_append.mp he with he | he
            · exact hdead' e he
            · rwa [List.mem_singleton.mp he]

/-! ## Services -/

/-- Writes to other tables leave a table as it is. -/
theorem view_of_table {β : Type} {f : Db → β} {t : TableName}
    (hf : ∀ d w, w.table ≠ t → f (d.apply w) = f d) : ∀ {ws : List Write} {d : Db},
    (∀ w ∈ ws, w.table ≠ t) → f (store.view d ws) = f d
  | [], _, _ => rfl
  | w :: ws, d, h => by
    rw [Store.view_cons, view_of_table hf fun w' hw' => h w' (List.mem_cons_of_mem _ hw'),
      store_apply, hf d w (h w List.mem_cons_self)]

/-- Writes to other tables leave the identities as they are. -/
theorem identityRows_view {ws : List Write} {d : Db} (h : ∀ w ∈ ws, w.table ≠ .identities) :
    (store.view d ws).identityRows = d.identityRows :=
  view_of_table (fun d w hw => by cases w <;> first | rfl | exact absurd rfl hw) h

/-- They leave the bindings as they are. -/
theorem enrollmentBindings_view {ws : List Write} {d : Db}
    (h : ∀ w ∈ ws, w.table ≠ .enrollmentBindings) :
    (store.view d ws).enrollmentBindings = d.enrollmentBindings :=
  view_of_table (fun d w hw => by cases w <;> first | rfl | exact absurd rfl hw) h

/-- And the admissions. -/
theorem admissions_view {ws : List Write} {d : Db} (h : ∀ w ∈ ws, w.table ≠ .admissions) :
    (store.view d ws).admissions = d.admissions :=
  view_of_table (fun d w hw => by cases w <;> first | rfl | exact absurd rfl hw) h

/-- And their history. -/
theorem admissionHistory_view {ws : List Write} {d : Db}
    (h : ∀ w ∈ ws, w.table ≠ .admissionHistory) :
    (store.view d ws).admissionHistory = d.admissionHistory :=
  view_of_table (fun d w hw => by cases w <;> first | rfl | exact absurd rfl hw) h

/-- And the grants. -/
theorem grants_view {ws : List Write} {d : Db} (h : ∀ w ∈ ws, w.table ≠ .grants) :
    (store.view d ws).grants = d.grants :=
  view_of_table (fun d w hw => by cases w <;> first | rfl | exact absurd rfl hw) h

/-- What a pass leaves of a service when it succeeds: the record before it is `c`, and after it
`c'`. -/
structure Registrar.Reconciles (r : Registrar) (s : ServiceSpec) (id : ActorId)
    (c c' : ServiceRecord) : Prop where
  listed : s.id? = some id
  identity : ∃ row, s.identityRow = .ok row ∧ row.id = id ∧ c'.identity = some row
  binding : (s.workloadNamespace = none ∨ s.serviceAccount = none) ∨
    ∃ row, s.bindingRow id r.resolver row ∧ c'.binding = some row ∧ row.check = .ok ()
  admission : ∃ row, c'.admission = some row ∧ row.communicationEnabled = s.communicationEnabled ∧
    row.updatedAt ≤ r.now ∧ 0 ≤ row.revision
  metadata : checkMetadata r.administrator "registrar reconciliation".toList r.now = true
  texts : ∀ g ∈ s.grants, checkText g.action = .ok () ∧ checkText g.scope = .ok ()
  grants : ∃ new, c'.grants = c.grants ++ new ∧
    (∀ row ∈ new, ∃ g ∈ s.grants, r.Created id g row ∧ ∀ e ∈ c.grants, ¬ e.Live id g r.now) ∧
    ∀ g ∈ s.grants, (∀ e ∈ c.grants, ¬ e.Live id g r.now) → ∃ row ∈ new, r.Created id g row

/-- The UUIDs that the pass draws for the service are those of no earlier row. -/
structure Registrar.Fresh (r : Registrar) (i : ℕ) (c : ServiceRecord) : Prop where
  admission : ∀ h ∈ c.history, h.correlationId ≠ r.admissionCorrelation i
  grants : ∀ e ∈ c.grants, ∀ k, e.correlationId ≠ r.grantCorrelation i k

/-- A change that a pass has to make, by the text under which its report names it: the record of the
service before the pass is `c`. -/
inductive Registrar.Due (r : Registrar) (s : ServiceSpec) (id : ActorId) (c : ServiceRecord) :
    Str → Prop
  | identity {row : IdentityRow} (hrow : s.identityRow = .ok row) (h : c.identity ≠ some row) :
    Due r s id c "identity".toList
  | binding {row : EnrollmentBindingRow} (hrow : s.bindingRow id r.resolver row)
    (h : c.binding ≠ some row) : Due r s id c ("binding -> ".toList ++ row.serviceAccountUid)
  | admission (h : c.enabled ≠ s.communicationEnabled) :
    Due r s id c (AdmissionOutcome.changedTo s.communicationEnabled)
  | grant {g : GrantSpec} (hg : g ∈ s.grants) (h : ∀ e ∈ c.grants, ¬ e.Live id g r.now) :
    Due r s id c g.applied

/-- The row of a service is what the manifest lists. -/
theorem ServiceSpec.identityRow_eq_ok {s : ServiceSpec} {row : IdentityRow}
    (h : s.identityRow = .ok row) : s.id? = some row.id ∧
      ∃ kind, ActorKind.ofSql s.kind = some kind ∧
      row = ⟨row.id, kind, s.displayName, .active⟩ := by
  obtain ⟨_, -, h⟩ := Postgres.bind_eq_ok.mp h
  obtain ⟨_, -, h⟩ := Postgres.bind_eq_ok.mp h
  obtain ⟨id, hid, h⟩ := Postgres.bind_eq_ok.mp h
  obtain ⟨-, h⟩ := Postgres.require_bind_eq_ok.mp h
  obtain ⟨kind, hkind, h⟩ := Postgres.bind_eq_ok.mp h
  cases h
  rw [castUuid, Postgres.elim_eq_ok] at hid
  refine ⟨?_, kind, Postgres.elim_eq_ok.mp hkind, rfl⟩
  rw [ServiceSpec.id?, hid, Option.map_some]

/-- What a pass does about one service when it succeeds: from `d` to `d'`, with what it reports. -/
structure Registrar.Serves (r : Registrar) (i : ℕ) (s : ServiceSpec) (id : ActorId) (d d' : Db)
    (applied : List Str) : Prop where
  writes : ∃ us, d' = store.view d us ∧ ∀ w ∈ us, w.About id
  reconciles : r.Reconciles s id (d.record id) (d'.record id)
  unlisted : s.workloadNamespace = none ∨ s.serviceAccount = none →
    (d'.record id).binding = (d.record id).binding
  placed : ∀ row, s.bindingRow id r.resolver row →
    (d.record id).binding = some row ∨ d.checkWorkload row = .ok ()
  room : ∀ current ∈ (d.record id).admission,
    current.communicationEnabled ≠ s.communicationEnabled → current.revision + 1 < 2 ^ 63
  nodup : (d.enrollmentBindings.map EnrollmentBindingRow.serviceId).Nodup →
    (d'.enrollmentBindings.map EnrollmentBindingRow.serviceId).Nodup
  drawn : ∃ new, d'.grants = d.grants ++ new ∧
    ∀ row ∈ new, ∃ k < s.grants.length, r.Drawn i k row
  due : r.admissionRepeats i = [] → ∀ text, text ∈ applied ↔ r.Due s id (d.record id) text

/-- A text that is reported if a test holds. -/
theorem mem_ite_singleton {α : Type} {p : Prop} [Decidable p] {a b : α} :
    a ∈ (if p then [b] else []) ↔ p ∧ a = b := by
  by_cases h : p <;> simp [h]

/-- The four steps report what is due, each its own part of it. -/
theorem due_iff {r : Registrar} {s : ServiceSpec} {row : IdentityRow} {c : ServiceRecord}
    {text : Str} {applied₁ applied₂ applied₃ applied₄ : List Str} (hrow : s.identityRow = .ok row)
    (hmem₁ : text ∈ applied₁ ↔ c.identity ≠ some row ∧ text = "identity".toList)
    (hmem₂ : text ∈ applied₂ ↔ ∃ brow, s.bindingRow row.id r.resolver brow ∧ c.binding ≠ some brow ∧
      text = "binding -> ".toList ++ brow.serviceAccountUid)
    (hmem₃ : text ∈ applied₃ ↔ c.enabled ≠ s.communicationEnabled ∧
      text = AdmissionOutcome.changedTo s.communicationEnabled)
    (hmem₄ : text ∈ applied₄ ↔ ∃ g ∈ s.grants, (∀ e ∈ c.grants, ¬ e.Live row.id g r.now) ∧
      text = g.applied) :
    text ∈ applied₁ ++ applied₂ ++ applied₃ ++ applied₄ ↔ r.Due s row.id c text := by
  rw [List.mem_append, List.mem_append, List.mem_append, hmem₁, hmem₂, hmem₃, hmem₄]
  constructor
  · rintro (((⟨h, rfl⟩ | ⟨brow, hlisted, h, rfl⟩) | ⟨h, rfl⟩) | ⟨g, hg, h, rfl⟩)
    · exact .identity hrow h
    · exact .binding hlisted h
    · exact .admission h
    · exact .grant hg h
  · rintro (⟨hrow', h⟩ | ⟨hlisted, h⟩ | h | ⟨hg, h⟩)
    · obtain rfl := Except.ok.inj (hrow.symm.trans hrow')
      exact .inl (.inl (.inl ⟨h, rfl⟩))
    · exact .inl (.inl (.inr ⟨_, hlisted, h, rfl⟩))
    · exact .inl (.inr ⟨h, rfl⟩)
    · exact .inr ⟨_, hg, h, rfl⟩

section

variable {us₁ us₂ us₃ : List Write} {d : Db}

/-- The steps about the identity and the binding leave the history of the admissions alone. -/
theorem admissionHistory_view_steps (h₁ : ∀ w ∈ us₁, w.table = .identities ∨ w.table = .admissions)
    (h₂ : ∀ w ∈ us₂, w.table = .enrollmentBindings) :
    (store.view (store.view d us₁) us₂).admissionHistory = d.admissionHistory := by
  rw [admissionHistory_view fun w hw => by simp [h₂ w hw],
    admissionHistory_view fun w hw => by rcases h₁ w hw with ht | ht <;> simp [ht]]

/-- So do they, and the step about the admission, the grants. -/
theorem grants_view_steps (h₁ : ∀ w ∈ us₁, w.table = .identities ∨ w.table = .admissions)
    (h₂ : ∀ w ∈ us₂, w.table = .enrollmentBindings)
    (h₃ : ∀ w ∈ us₃, w.table = .admissions ∨ w.table = .admissionHistory) :
    (store.view (store.view (store.view d us₁) us₂) us₃).grants = d.grants := by
  rw [grants_view fun w hw => by rcases h₃ w hw with ht | ht <;> simp [ht],
    grants_view fun w hw => by simp [h₂ w hw],
    grants_view fun w hw => by rcases h₁ w hw with ht | ht <;> simp [ht]]

end

/-- What the pass does about one service when it succeeds. -/
theorem exec_reconcileService {r : Registrar} {i : ℕ} {s : ServiceSpec} {d d' : Db}
    {ws : List Write} {applied : List Str}
    (hall : ∀ id, s.id? = some id → r.Fresh i (d.record id))
    (h : (r.reconcileService i s).run.exec store d [] = ⟨d', ws, .ok applied⟩) : ws = [] ∧ ∃ id,
      r.Serves i s id d d' applied := by
  obtain ⟨d₁, ws₁, row, hensure, h₁⟩ := Postgres.Proc.exec_run_bind_eq_ok.mp h
  obtain ⟨rfl, rfl, hrow⟩ := Postgres.Proc.exec_ensure_eq_ok.mp hensure
  rw [Postgres.mapError_eq_ok] at hrow
  have hid := (ServiceSpec.identityRow_eq_ok hrow).1
  have hfresh := hall row.id hid
  -- The four steps, each with its writes.
  obtain ⟨d₂, ws₂, o, hidentity, h₂⟩ := Postgres.Proc.exec_run_bind_eq_ok.mp h₁
  obtain ⟨d₃, us₁, hupsert, rfl, rfl⟩ := exec_orFail_callFunction.mp hidentity
  obtain ⟨rfl, hus₁, hidentity₁, hrows, hadmission₁⟩ := exec_upsertIdentity hupsert
  obtain ⟨d₄, ws₄, applied₂, hbinding, h₃⟩ := Postgres.Proc.exec_run_bind_eq_ok.mp h₂
  obtain ⟨rfl, us₂, rfl, hus₂, hnodup, hbinding₂⟩ := exec_reconcileBinding hbinding
  obtain ⟨d₅, ws₅, applied₃, hadmission, h₄⟩ := Postgres.Proc.exec_run_bind_eq_ok.mp h₃
  have htable₁ : ∀ w ∈ us₁, w.table = .identities ∨ w.table = .admissions :=
    fun w hw => (hus₁ w hw).2
  have htable₂ : ∀ w ∈ us₂, w.table = .enrollmentBindings := fun w hw => (hus₂ w hw).2
  have hhistory := admissionHistory_view_steps (d := d₃) htable₁ htable₂
  obtain ⟨rfl, us₃, rfl, hus₃, ⟨arow, hadmission₃, harow⟩, hmetadata, hroom, happlied₃⟩ :=
    exec_reconcileAdmission (by
      rw [hhistory]
      exact fun e he hservice => hfresh.admission e
        (List.mem_filter.mpr ⟨he, by simpa using hservice⟩))
      hadmission
  have htable₃ : ∀ w ∈ us₃, w.table = .admissions ∨ w.table = .admissionHistory :=
    fun w hw => (hus₃ w hw).2
  have hgrants := grants_view_steps (d := d₃) htable₁ htable₂ htable₃
  obtain ⟨d₆, ws₆, applied₄, hloop, hdone⟩ := Postgres.Proc.exec_run_bind_eq_ok.mp h₄
  obtain ⟨rfl, rfl, happlied⟩ := Postgres.Outcome.mk.inj hdone
  obtain ⟨rfl, htexts, us₄, new, rfl, hus₄, hnew, hsound, hcomplete, hdrawn, happlied₄⟩ :=
    exec_reconcileGrants s.grants (by
      rw [hgrants]
      exact fun e he hsource ⟨k, hk⟩ =>
        absurd hk (hfresh.grants e (List.mem_filter.mpr ⟨he, by simpa using hsource⟩) k))
      hloop
  rw [hgrants] at hnew hsound hcomplete happlied₄
  have htable₄ : ∀ w ∈ us₄, w.table = .grants ∨ w.table = .grantAudit := fun w hw => (hus₄ w hw).2
  -- Nothing that comes later touches the part of the record that a step has set.
  have hbindings₁ : (store.view d₃ us₁).enrollmentBindings = d₃.enrollmentBindings :=
    enrollmentBindings_view fun w hw => by rcases htable₁ w hw with ht | ht <;> simp [ht]
  have hbindings₄ : (store.view (store.view (store.view (store.view d₃ us₁) us₂) us₃)
      us₄).enrollmentBindings = (store.view (store.view d₃ us₁) us₂).enrollmentBindings := by
    rw [enrollmentBindings_view fun w hw => by rcases htable₄ w hw with ht | ht <;> simp [ht],
      enrollmentBindings_view fun w hw => by rcases htable₃ w hw with ht | ht <;> simp [ht]]
  have hbinding₁ : ((store.view d₃ us₁).record row.id).binding = (d₃.record row.id).binding := by
    simp only [Db.record, hbindings₁]
  have hbinding₄ : ((store.view (store.view (store.view (store.view d₃ us₁) us₂) us₃) us₄).record
      row.id).binding = ((store.view (store.view d₃ us₁) us₂).record row.id).binding := by
    simp only [Db.record, hbindings₄]
  have hadmission₂ : ((store.view (store.view d₃ us₁) us₂).record row.id).admission =
      ((store.view d₃ us₁).record row.id).admission := by
    simp only [Db.record]
    rw [admissions_view fun w hw => by simp [htable₂ w hw]]
  rw [hbindings₁, ← hbindings₄] at hnodup
  refine ⟨rfl, row.id, ⟨us₁ ++ us₂ ++ us₃ ++ us₄, ?_, fun w hw => ?_⟩,
    ⟨hid, ⟨row, hrow, rfl, ?_⟩, ?_, ⟨arow, ?_, harow⟩, hmetadata, htexts, new, ?_, ?_, ?_⟩,
    fun hnone => ?_, fun brow hlisted => ?_, fun current hcurrent => ?_, hnodup, ⟨new, hnew, ?_⟩,
    fun honce text => ?_⟩
  · simp only [Store.view_append]
  · simp only [List.mem_append] at hw
    rcases hw with ((hw | hw) | hw) | hw
    · exact (hus₁ w hw).1
    · exact (hus₂ w hw).1
    · exact (hus₃ w hw).1
    · exact (hus₄ w hw).1
  · rw [← hidentity₁]
    simp only [Db.record]
    rw [identityRows_view fun w hw => by rcases htable₄ w hw with ht | ht <;> simp [ht],
      identityRows_view fun w hw => by rcases htable₃ w hw with ht | ht <;> simp [ht],
      identityRows_view fun w hw => by simp [htable₂ w hw]]
  · rw [hbinding₄]
    exact hbinding₂.imp And.left fun ⟨brow, hlisted, hfound, hcheck, _⟩ =>
      ⟨brow, hlisted, hfound, hcheck⟩
  · rw [← hadmission₃]
    simp only [Db.record]
    rw [admissions_view fun w hw => by rcases htable₄ w hw with ht | ht <;> simp [ht]]
    rfl
  · simp only [Db.record, hnew, List.filter_append, List.append_cancel_left_eq]
    refine List.filter_eq_self.mpr fun e he => ?_
    obtain ⟨g, -, hcreated, -⟩ := hsound e he
    simp [hcreated.source]
  · intro e he
    obtain ⟨g, hg, hcreated, hdead⟩ := hsound e he
    exact ⟨g, hg, hcreated, fun e' he' => hdead e' (List.mem_filter.mp he').1⟩
  · exact fun g hg hdead => hcomplete g hg fun e he hlive =>
      hdead e (List.mem_filter.mpr ⟨he, by simp [hlive.1]⟩) hlive
  · rw [hbinding₄]
    rcases hbinding₂ with ⟨-, hsame, -⟩ | ⟨brow, hlisted, -⟩
    · exact hsame.trans hbinding₁
    · exact absurd hnone hlisted.not_unlisted
  · rcases hbinding₂ with ⟨hnone, -⟩ | ⟨brow', hlisted', -, -, -, hplaced⟩
    · exact absurd hnone hlisted.not_unlisted
    · obtain rfl := hlisted'.unique hlisted
      rw [← hbinding₁]
      rw [Db.checkWorkload, hbindings₁] at hplaced
      exact hplaced
  · -- The admission that comes with a new identity leaves room.
    rcases hadmission₁ with ⟨-, hsame⟩ | ⟨hnone, -⟩
    · exact hroom current (hadmission₂.trans hsame ▸ hcurrent)
    · cases hnone.symm.trans hcurrent
  · intro row hrow
    obtain ⟨k, hk, hplace⟩ := hdrawn row hrow
    exact ⟨k, hk, Nat.zero_add k ▸ hplace⟩
  -- The text is one of the four steps'.
  · have hmem₁ : text ∈ (if 0 < o.rows then ["identity".toList] else []) ↔
        (d₃.record row.id).identity ≠ some row ∧ text = "identity".toList := by
      rw [if_congr hrows rfl rfl, mem_ite_singleton]
    have hmem₂ : text ∈ applied₂ ↔ ∃ brow, s.bindingRow row.id r.resolver brow ∧
        (d₃.record row.id).binding ≠ some brow ∧
        text = "binding -> ".toList ++ brow.serviceAccountUid := by
      rcases hbinding₂ with ⟨hnone, -, rfl⟩ | ⟨brow, hlisted, -, -, rfl, -⟩
      · refine iff_of_false List.not_mem_nil fun ⟨brow, hlisted, _⟩ => ?_
        exact hlisted.not_unlisted hnone
      · rw [hbinding₁, ← ite_not, mem_ite_singleton]
        refine ⟨fun h => ⟨brow, hlisted, h⟩, fun ⟨brow', hlisted', h⟩ => ?_⟩
        exact hlisted.unique hlisted' ▸ h
    have hmem₃ : text ∈ applied₃ ↔ (d₃.record row.id).enabled ≠ s.communicationEnabled ∧
        text = AdmissionOutcome.changedTo s.communicationEnabled := by
      have henabled : ((store.view (store.view d₃ us₁) us₂).record row.id).enabled =
          (d₃.record row.id).enabled := by
        rw [ServiceRecord.enabled, hadmission₂]
        rcases hadmission₁ with ⟨-, hsame⟩ | ⟨hnone, hnew⟩
        · rw [hsame]
          rfl
        · rw [hnew, ServiceRecord.enabled, hnone]
          rfl
      rw [happlied₃ honce, henabled, ← ite_not, mem_ite_singleton]
    have hmem₄ : text ∈ applied₄ ↔ ∃ g ∈ s.grants,
        (∀ e ∈ (d₃.record row.id).grants, ¬ e.Live row.id g r.now) ∧ text = g.applied := by
      rw [happlied₄]
      refine exists_congr fun g => and_congr_right fun _ => and_congr_left fun _ => ?_
      refine ⟨fun hdead e he => hdead e (List.mem_filter.mp he).1, fun hdead e he hlive => ?_⟩
      exact hdead e (List.mem_filter.mpr ⟨he, by simp [hlive.1]⟩) hlive
    rw [← Except.ok.inj happlied]
    exact due_iff hrow hmem₁ hmem₂ hmem₃ hmem₄

/-- What the loop over the services does when it succeeds and each service is listed once. -/
theorem exec_reconcileServices {r : Registrar} (services : List ServiceSpec) :
    ∀ {i : ℕ} {changes : ServiceChanges} {d d' : Db} {ws : List Write} {answer : ServiceChanges},
      (services.filterMap ServiceSpec.id?).Nodup →
      (∀ s ∈ services, ∀ id, s.id? = some id → ∀ i, r.Fresh i (d.record id)) →
      (r.reconcileServices i services changes).run.exec store d [] = ⟨d', ws, .ok answer⟩ →
      (∀ s ∈ services, ∃ id, r.Reconciles s id (d.record id) (d'.record id) ∧
        (s.workloadNamespace = none ∨ s.serviceAccount = none →
          (d'.record id).binding = (d.record id).binding)) ∧
        ∀ id ∉ services.filterMap ServiceSpec.id?, d'.record id = d.record id := by
  induction services with
  | nil =>
    intro i changes d d' ws answer _ _ h
    obtain ⟨rfl, rfl, -⟩ := Postgres.Outcome.mk.inj h
    exact ⟨by simp, fun _ _ => rfl⟩
  | cons s services ih =>
    intro i changes d d' ws answer hnodup hfresh h
    obtain ⟨d₁, ws₁, applied, hservice, hrest⟩ := Postgres.Proc.exec_run_bind_eq_ok.mp h
    obtain ⟨rfl, id, hserves⟩ := exec_reconcileService
      (fun id hid => hfresh s List.mem_cons_self id hid i) hservice
    obtain ⟨us, rfl, habout⟩ := hserves.writes
    have hreconciles := hserves.reconciles
    rw [List.filterMap_cons_some hreconciles.listed, List.nodup_cons] at hnodup
    obtain ⟨hnew, hnodup⟩ := hnodup
    have hother : ∀ id' ≠ id, (store.view d us).record id' = d.record id' :=
      fun id' hne => Db.record_view_of_ne (Ne.symm hne) us d habout
    have hne : ∀ s' ∈ services, ∀ id', s'.id? = some id' → id' ≠ id := fun s' hs' id' hid' heq =>
      hnew (List.mem_filterMap.mpr ⟨s', hs', heq ▸ hid'⟩)
    obtain ⟨hall, hframe⟩ := ih hnodup (fun s' hs' id' hid' => by
      rw [hother id' (hne s' hs' id' hid')]
      exact hfresh s' (List.mem_cons_of_mem _ hs') id' hid') hrest
    refine ⟨fun s' hs' => ?_, fun id' hid' => ?_⟩
    · rcases List.mem_cons.mp hs' with rfl | hs'
      · refine ⟨id, ?_⟩
        rw [hframe id hnew]
        exact ⟨hreconciles, hserves.unlisted⟩
      · obtain ⟨id', hid'⟩ := hall s' hs'
        rw [hother id' (hne s' hs' id' hid'.1.listed)] at hid'
        exact ⟨id', hid'⟩
    · rw [List.filterMap_cons_some hreconciles.listed, List.mem_cons, not_or] at hid'
      rw [hframe id' hid'.2, hother id' hid'.1]

/-- The UUIDs that a pass draws are those of no row in the database. -/
structure Registrar.Draws (r : Registrar) (d : Db) : Prop where
  admission : ∀ h ∈ d.admissionHistory, ∀ i, h.correlationId ≠ r.admissionCorrelation i ∧
    h.correlationId ∉ r.admissionRepeats i
  grants : ∀ e ∈ d.grants, ∀ i k, e.correlationId ≠ r.grantCorrelation i k

/-- They are those of no row on one service. -/
theorem Registrar.Draws.fresh {r : Registrar} {d : Db} (h : r.Draws d) (i : ℕ) (id : ActorId) :
    r.Fresh i (d.record id) where
  admission e he := (h.admission e (List.mem_filter.mp he).1 i).1
  grants e he k := h.grants e (List.mem_filter.mp he).1 i k

/-! ## The manifest is established -/

/-- An unrevoked grant permits the facts of a request acceptance that the listed grant is for. -/
def GrantSpec.Permitted (g : GrantSpec) (id : ActorId) (now : ℤ) (grants : List GrantRow) : Prop :=
  ∃ (action : ActionName) (scope : Scope), action.text = g.action ∧ scope.text = g.scope ∧
    ∃ row ∈ grants,
      row.Permits (.forRequestAcceptance id action scope noArtifactSchemaVersions) now

/-- The record of a service is what the manifest lists. -/
structure Registrar.Establishes (r : Registrar) (s : ServiceSpec) (id : ActorId)
    (c : ServiceRecord) : Prop where
  identity : ∃ kind, ActorKind.ofSql s.kind = some kind ∧
    c.identity = some ⟨id, kind, s.displayName, .active⟩
  binding : ∀ workloadNamespace ∈ s.workloadNamespace, ∀ serviceAccount ∈ s.serviceAccount,
    ∃ uid, r.resolver workloadNamespace serviceAccount = .ok uid ∧
      c.binding = some ⟨id, workloadNamespace, serviceAccount, uid, true⟩
  admission : ∃ row, c.admission = some row ∧ row.communicationEnabled = s.communicationEnabled
  grants : ∀ g ∈ s.grants, g.Permitted id r.now c.grants

/-- The listed grant for every scope of the same action. -/
def GrantSpec.wildcard (g : GrantSpec) : GrantSpec := ⟨g.action, Scope.wildcard.text⟩

/-- The grants of the record `c` do not keep the registrar from creating what the manifest lists:
the kernel can read each listed scope, and where a grant counts as live, it permits what is listed,
or a grant for every scope is listed too and none of those is live. -/
def Registrar.Grantable (r : Registrar) (s : ServiceSpec) (id : ActorId) (c : ServiceRecord) :
    Prop :=
  ∀ g ∈ s.grants, (∃ scope : Scope, scope.text = g.scope) ∧
    ((∃ e ∈ c.grants, e.Live id g r.now) → g.Permitted id r.now c.grants ∨
      g.wildcard ∈ s.grants ∧ ∀ e ∈ c.grants, ¬ e.Live id g.wildcard r.now)

/-- What a grant that the registrar has created permits. -/
theorem Registrar.Created.permits_iff {r : Registrar} {id : ActorId} {g : GrantSpec}
    {row : GrantRow} (h : r.Created id g row) (action : ActionName) (scope : Scope) :
    row.Permits (.forRequestAcceptance id action scope noArtifactSchemaVersions) r.now ↔
      g.action = action.text ∧ (g.scope = ['*'] ∨ g.scope = scope.text) := by
  have hwindow : row.Window := by
    refine ⟨h.validFrom.ge, fun limit hlimit => ?_⟩
    rw [h.validUntil] at hlimit
    cases hlimit
  rw [← PostgresAuthorityRepository.matchesSql_iff hwindow]
  simp only [PostgresAuthorityRepository.MatchesSql, PolicyFacts.forRequestAcceptance, h.source,
    h.action, h.scope, h.artifact, h.permissionPolicy, h.destination, h.validFrom, h.validUntil,
    h.revokedAt, h.now]
  simp

/-- A service's record is what the manifest lists if and only if its earlier grants allow it. -/
theorem Registrar.Reconciles.establishes_iff {r : Registrar} {s : ServiceSpec} {id : ActorId}
    {c c' : ServiceRecord} (h : r.Reconciles s id c c') :
    r.Establishes s id c' ↔ r.Grantable s id c := by
  obtain ⟨new, hnew, hsound, hcomplete⟩ := h.grants
  constructor
  · intro hestablishes g hg
    obtain ⟨action, scope, haction, hscope, row, hrow, hpermits⟩ := hestablishes.grants g hg
    refine ⟨⟨scope, hscope⟩, fun ⟨e, he, hlive⟩ => ?_⟩
    rw [hnew] at hrow
    rcases List.mem_append.mp hrow with hrow | hrow
    · exact .inl ⟨action, scope, haction, hscope, row, hrow, hpermits⟩
    -- A new grant permits what is listed only if it is for every scope.
    · obtain ⟨g₀, hg₀, hcreated, hdead⟩ := hsound row hrow
      obtain ⟨haction₀, hscope₀⟩ := (hcreated.permits_iff action scope).mp hpermits
      rcases hscope₀ with hscope₀ | hscope₀
      · have hwildcard : g.wildcard = g₀ := by
          cases g₀
          simp only at haction₀ hscope₀
          rw [GrantSpec.wildcard, haction₀, hscope₀, ← haction]
          rfl
        exact .inr ⟨hwildcard ▸ hg₀, hwildcard ▸ hdead⟩
      · have hsame : g₀ = g := by
          cases g₀
          cases g
          simp_all
        exact absurd (hsame ▸ hlive) (hdead e he)
  · intro hgrantable
    refine ⟨?_, fun workloadNamespace hnamespace serviceAccount haccount => ?_, ?_, fun g hg => ?_⟩
    · obtain ⟨row, hrow, rfl, hidentity⟩ := h.identity
      obtain ⟨-, kind, hkind, heq⟩ := ServiceSpec.identityRow_eq_ok hrow
      exact ⟨kind, hkind, heq ▸ hidentity⟩
    · rcases h.binding with (hnone | hnone) | ⟨row, hlisted, hbinding, -⟩
      · rw [hnone] at hnamespace
        cases hnamespace
      · rw [hnone] at haccount
        cases haccount
      · obtain ⟨_, hnamespace', _, haccount', uid, huid, rfl⟩ := hlisted
        cases Option.mem_unique hnamespace hnamespace'
        cases Option.mem_unique haccount haccount'
        exact ⟨uid, huid, hbinding⟩
    · obtain ⟨row, hrow, henabled, -⟩ := h.admission
      exact ⟨row, hrow, henabled⟩
    · obtain ⟨⟨scope, hscope⟩, hlive⟩ := hgrantable g hg
      rw [hnew]
      by_cases hdead : ∀ e ∈ c.grants, ¬ e.Live id g r.now
      · obtain ⟨row, hrow, hcreated⟩ := hcomplete g hg hdead
        obtain ⟨action, haction⟩ := exists_action_of_checkDottedName hcreated.valid
        exact ⟨action, scope, haction, hscope, row, List.mem_append_right _ hrow,
          (hcreated.permits_iff action scope).mpr ⟨haction.symm, .inr hscope.symm⟩⟩
      · push Not at hdead
        rcases hlive hdead with hpermitted | ⟨hlisted, hdead'⟩
        · obtain ⟨action, scope', haction, hscope', row, hrow, hpermits⟩ := hpermitted
          exact ⟨action, scope', haction, hscope', row, List.mem_append_left _ hrow, hpermits⟩
        · obtain ⟨row, hrow, hcreated⟩ := hcomplete g.wildcard hlisted hdead'
          obtain ⟨action, haction⟩ := exists_action_of_checkDottedName hcreated.valid
          exact ⟨action, scope, haction, hscope, row, List.mem_append_right _ hrow,
            (hcreated.permits_iff action scope).mpr ⟨haction.symm, .inl rfl⟩⟩

namespace Registrar

/-- A pass that succeeds establishes the manifest if and only if the grants that the database had
allow it. -/
theorem reconcile_establishes_iff {r : Registrar} {manifest : Manifest} {d d' : Db}
    {ws : List Write} {changes : ServiceChanges}
    (hids : (manifest.services.filterMap ServiceSpec.id?).Nodup) (hdraws : r.Draws d)
    (hok : (r.reconcile manifest).run.exec store d [] = ⟨d', ws, .ok changes⟩) :
    (∀ s ∈ manifest.services, ∃ id, s.id? = some id ∧ r.Establishes s id (d'.record id)) ↔
      ∀ s ∈ manifest.services, ∀ id, s.id? = some id → r.Grantable s id (d.record id) := by
  obtain ⟨hall, -⟩ := exec_reconcileServices manifest.services hids
    (fun _ _ id _ i => hdraws.fresh i id) hok
  constructor
  · intro hestablishes s hs id hid
    obtain ⟨id₁, hid₁, hestablished⟩ := hestablishes s hs
    obtain ⟨id₂, hreconciles, -⟩ := hall s hs
    obtain rfl := Option.some.inj (hid₁.symm.trans hid)
    obtain rfl := Option.some.inj (hreconciles.listed.symm.trans hid)
    exact hreconciles.establishes_iff.mp hestablished
  · intro hgrantable s hs
    obtain ⟨id, hreconciles, -⟩ := hall s hs
    exact ⟨id, hreconciles.listed,
      hreconciles.establishes_iff.mpr (hgrantable s hs id hreconciles.listed)⟩

/-- A database with one service, its admission, and the two reserved schema versions. -/
def seeded : Db := { Authority.reservedSchemas with admissions := [⟨⟨1⟩, false, 0, 0⟩] }

/-- A manifest that lists this service with one grant. -/
def oneService : Manifest where
  services := [{
    serviceId := "00000000-0000-0000-0000-000000000001".toList
    kind := "service".toList
    displayName := ['a']
    workloadNamespace := none
    serviceAccount := none
    communicationEnabled := true
    grants := [⟨"subscription.create".toList, ['*']⟩] }]

/-- A pass at the time 10. -/
def passAtTen : Registrar where
  resolver _ _ := .error (.kubernetes [])
  administrator := ['a']
  now := 10
  admissionCorrelation _ := 100
  admissionRepeats _ := [101, 102, 103]
  grantId _ _ := ⟨20⟩
  grantCorrelation _ _ := 21

/-- On that database the pass establishes the manifest. -/
theorem reconcile_establishes_seeded : ∃ d' ws changes,
    (passAtTen.reconcile oneService).run.exec store seeded [] = ⟨d', ws, .ok changes⟩ ∧
      ∀ s ∈ oneService.services, ∃ id, s.id? = some id ∧
      passAtTen.Establishes s id (d'.record id) := by
  have hok : ((passAtTen.reconcile oneService).run.exec store seeded []).result.isOk = true := by
    decide +kernel
  rcases hexec : (passAtTen.reconcile oneService).run.exec store seeded [] with
    ⟨d', ws, er | changes⟩
  · rw [hexec] at hok
    cases hok
  refine ⟨d', ws, changes, rfl,
    (reconcile_establishes_iff (by decide +kernel) ⟨?_, ?_⟩ hexec).mpr ?_⟩
  · exact fun h hh => absurd hh List.not_mem_nil
  · exact fun e he => absurd he List.not_mem_nil
  · intro s hs id _ g hg
    rw [List.mem_singleton.mp hs] at hg
    rw [List.mem_singleton.mp hg]
    exact ⟨⟨Scope.wildcard, rfl⟩, fun ⟨e, he, _⟩ => absurd he List.not_mem_nil⟩

/-- A grant of an administrator that is valid from the time 1000. -/
def futureGrant : GrantRow := { Authority.subscriptionGrant with validFrom := 1000 }

/-- A grant that is not valid yet counts as live, so the pass creates no other one. -/
theorem reconcile_skips_future_grant :
    ¬ ∀ t, Authority.system.Reaches seeded t → ∀ (r : Registrar) (manifest : Manifest) (d' : Db)
      (ws : List Write) (changes : ServiceChanges),
      (manifest.services.filterMap ServiceSpec.id?).Nodup →
      r.Draws t.db → (r.reconcile manifest).run.exec store t.db [] = ⟨d', ws, .ok changes⟩ →
      ∀ s ∈ manifest.services, ∃ id, s.id? = some id ∧ r.Establishes s id (d'.record id) := by
  intro h
  obtain ⟨t, ht, -, hdb, -⟩ := Postgres.System.exec_reaches
    (.init : Authority.system.Reaches seeded { db := seeded }) rfl (.createGrant futureGrant)
  have hstate : t.db = (seeded.apply (.grants (.insert futureGrant))).apply
      (.grantAudit (futureGrant.auditRow .created)) := by
    rw [hdb]
    decide +kernel
  have hok : ((passAtTen.reconcile oneService).run.exec store t.db []).result.isOk = true := by
    rw [hstate]
    decide +kernel
  rcases hexec : (passAtTen.reconcile oneService).run.exec store t.db [] with ⟨d', ws, er | changes⟩
  · rw [hexec] at hok
    cases hok
  have hgrants : t.db.grants = [futureGrant] := by
    rw [hstate]
    rfl
  have hdraws : passAtTen.Draws t.db := by
    refine ⟨?_, ?_⟩
    · rw [hstate]
      exact fun h hh => absurd hh List.not_mem_nil
    · rw [hgrants]
      simp [futureGrant, Authority.subscriptionGrant, passAtTen]
  have hids : (oneService.services.filterMap ServiceSpec.id?).Nodup := by decide +kernel
  obtain ⟨id, hid, hestablishes⟩ :=
    h t ht passAtTen oneService d' ws changes hids hdraws hexec _ List.mem_cons_self
  obtain ⟨id', hreconciles, -⟩ := (exec_reconcileServices oneService.services hids
    (fun _ _ id _ i => hdraws.fresh i id) hexec).1 _ List.mem_cons_self
  obtain rfl := Option.some.inj (hreconciles.listed.symm.trans hid)
  obtain rfl : id' = ⟨1⟩ := Option.some.inj (hid.symm.trans (by decide +kernel))
  -- The future grant is live, permits nothing now, and is itself for every scope.
  obtain ⟨-, hlive⟩ := hreconciles.establishes_iff.mp hestablishes _ List.mem_cons_self
  have hrecord : (t.db.record ⟨1⟩).grants = [futureGrant] := by
    simp only [Db.record, hgrants]
    decide
  rw [hrecord] at hlive
  rcases hlive ⟨futureGrant, List.mem_cons_self, by decide +kernel⟩ with
    ⟨action, scope, -, -, row, hrow, -, g, hg, hpermits⟩ | ⟨-, hdead⟩
  · obtain rfl := List.mem_singleton.mp hrow
    obtain ⟨-, -, -, -, -, -, -, hfrom, -⟩ := grantFromRow_eq_ok.mp hg
    obtain ⟨-, -, -, -, -, hnow, -⟩ := Grant.permits_iff.mp hpermits
    rw [hfrom] at hnow
    exact absurd hnow (by decide)
  · exact hdead futureGrant List.mem_cons_self (by decide +kernel)

end Registrar

end InfernalLaw
