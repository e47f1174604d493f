import InfernalLaw.Runs.RegistrarRepeats

/-!
# When a pass of the registrar succeeds

Every statement of a pass succeeds on a database that the constraints and triggers of the migrations
have kept sound, but for two: the one on a binding fails if another service still has the service
account, and the one on an admission if its revision has no successor. The bindings are written one
at a time, so a service account that moves is free only once the service that had it has got another
one.
-/

namespace InfernalLaw

open Postgres (DbError RowWrite Store require)
open Postgres.Proc (Upserted autocommit ensure orFail upsert)

/-! ## Statements that succeed -/

/-- A row of the manifest that passes its checks is inserted or brought up to date. -/
theorem exec_upsertIdentity_ok {row : IdentityRow} {now : ℤ} {d : Db}
    (htext : checkText row.displayName = .ok ()) (htrimmed : checkTrimmed 200 row.displayName)
    (hnow : 0 ≤ now)
    (hadmitted : (d.record row.id).identity.isSome = (d.record row.id).admission.isSome) :
    ∃ d₁ ws o, (upsertIdentity row now).run.exec store d [] = ⟨d₁, ws, .ok o⟩ := by
  cases hfind : d.identityRows.find? fun r => r.id = row.id with
  | some old =>
    by_cases hsame : old = row
    · have hupsert : (upsertIdentityRow row).exec store d [] = ⟨d, [], .ok .unchanged⟩ :=
        Postgres.Proc.exec_upsert_found (r := none) hfind (congrArg Except.ok (if_pos hsame))
      exact ⟨d, [], .unchanged, Postgres.Proc.exec_run_bind_eq_ok.mpr
        ⟨d, [], .unchanged, Postgres.Proc.exec_orFail_eq_ok.mpr hupsert, rfl⟩⟩
    · have hupsert : (upsertIdentityRow row).exec store d [] =
          ⟨d, [.identities (.update row)], .ok .updated⟩ :=
        Postgres.Proc.exec_upsert_found (r := some row) hfind (congrArg Except.ok (if_neg hsame))
      exact ⟨d, _, .updated, Postgres.Proc.exec_run_bind_eq_ok.mpr
        ⟨d, _, .updated, Postgres.Proc.exec_orFail_eq_ok.mpr hupsert, rfl⟩⟩
  | none =>
    have hidentity : row.id ∉ d.identities := by
      intro hmem
      obtain ⟨r, hr, hid⟩ := List.mem_map.mp hmem
      simpa [hid] using List.find?_eq_none.mp hfind r hr
    have hadmission : d.admissions.find? (fun r => r.serviceId = row.id) = none := by
      have hnone : (d.record row.id).admission.isSome = false := by
        rw [← hadmitted]
        exact Option.isSome_eq_false_iff.mpr (Option.isNone_iff_eq_none.mpr hfind)
      exact Option.isNone_iff_eq_none.mp (Option.isSome_eq_false_iff.mp hnone)
    have hcheck : d.checkIdentity row = .ok () := by
      rw [Db.checkIdentity, htext]
      exact Postgres.require_bind_eq_ok.mpr ⟨htrimmed, Postgres.require_eq_ok.mpr hidentity⟩
    have hupsert : (upsertIdentityRow row).exec store d [] = _ :=
      Postgres.Proc.exec_upsert_new hfind hcheck
    -- The trigger's row is the first one of the service, and refers to the new identity.
    have hinsert : (store.view d [.identities (.insert row)]).checkAdmission (row.admission now) =
        .ok () := by
      have hrow : (row.admission now).check = .ok () :=
        Postgres.require_bind_eq_ok.mpr ⟨le_rfl, Postgres.require_eq_ok.mpr hnow⟩
      rw [Db.checkAdmission, hrow]
      refine Postgres.require_bind_eq_ok.mpr ⟨fun r hr heq => ?_, Postgres.require_eq_ok.mpr ?_⟩
      · exact List.find?_eq_none.mp hadmission r hr (decide_eq_true heq)
      · exact List.mem_map.mpr ⟨row, List.mem_append_right _ List.mem_cons_self, rfl⟩
    exact ⟨d, _, .inserted, Postgres.Proc.exec_run_bind_eq_ok.mpr
      ⟨d, _, .inserted, Postgres.Proc.exec_orFail_eq_ok.mpr hupsert,
        Postgres.Proc.exec_run_bind_eq_ok.mpr ⟨d, _, (),
          Postgres.Proc.exec_orFail_eq_ok.mpr (Postgres.Proc.exec_insert_ok hinsert), rfl⟩⟩⟩

/-- A binding that no other service has is written, or is there already. -/
theorem exec_upsertBinding_ok {row : EnrollmentBindingRow} {d : Db}
    (hidentity : (d.record row.serviceId).identity.isSome = true) (hcheck : row.check = .ok ())
    (hplaced : (d.record row.serviceId).binding = some row ∨ d.checkWorkload row = .ok ()) :
    ∃ ws o, (upsertBinding row).exec store d [] = ⟨d, ws, .ok o⟩ := by
  cases hfind : d.enrollmentBindings.find? fun r => r.serviceId = row.serviceId with
  | some old =>
    by_cases hsame : old = row
    · have hupsert : (upsertBinding row).exec store d [] = _ :=
        Postgres.Proc.exec_upsert_found hfind (by rw [hcheck, if_pos hsame]; rfl)
      exact ⟨_, _, hupsert⟩
    · have hworkload := hplaced.resolve_left fun h => hsame (Option.some.inj (hfind.symm.trans h))
      have hupsert : (upsertBinding row).exec store d [] = _ :=
        Postgres.Proc.exec_upsert_found (r := some row) hfind (by
          rw [hcheck, if_neg hsame]
          exact Postgres.bind_eq_ok.mpr ⟨(), rfl, Postgres.bind_eq_ok.mpr ⟨(), hworkload, rfl⟩⟩)
      exact ⟨_, _, hupsert⟩
  | none =>
    have hworkload := hplaced.resolve_left fun h => by cases hfind.symm.trans h
    have hnew : d.checkEnrollmentBinding row = .ok () := by
      rw [Db.checkEnrollmentBinding, hcheck]
      refine Postgres.require_bind_eq_ok.mpr ⟨fun r hr heq => ?_, ?_⟩
      · exact List.find?_eq_none.mp hfind r hr (decide_eq_true heq)
      · rw [hworkload]
        obtain ⟨irow, hirow⟩ := Option.isSome_iff_exists.mp hidentity
        exact Postgres.require_eq_ok.mpr (List.mem_map.mpr
          ⟨irow, List.mem_of_find?_eq_some hirow, IdentityRow.id_of_find hirow⟩)
    have hupsert : (upsertBinding row).exec store d [] = _ :=
      Postgres.Proc.exec_upsert_new hfind hnew
    exact ⟨_, _, hupsert⟩

/-- A service account that no other service has is bound. -/
theorem exec_reconcileBinding_ok {r : Registrar} {id : ActorId} {s : ServiceSpec} {d : Db}
    (hidentity : (d.record id).identity.isSome = true)
    (hresolves : ∀ workloadNamespace ∈ s.workloadNamespace, ∀ serviceAccount ∈ s.serviceAccount,
      ∃ uid, r.resolver workloadNamespace serviceAccount = .ok uid)
    (hplaced : ∀ row, s.bindingRow id r.resolver row → row.check = .ok () ∧
      ((d.record id).binding = some row ∨ d.checkWorkload row = .ok ())) :
    ∃ d' ws applied, (r.reconcileBinding id s).run.exec store d [] = ⟨d', ws, .ok applied⟩ := by
  cases hnamespace : s.workloadNamespace with
  | none =>
    refine ⟨d, [], [], ?_⟩
    unfold Registrar.reconcileBinding
    rw [hnamespace]
    rfl
  | some workloadNamespace =>
    cases haccount : s.serviceAccount with
    | none =>
      refine ⟨d, [], [], ?_⟩
      unfold Registrar.reconcileBinding
      rw [hnamespace, haccount]
      rfl
    | some serviceAccount =>
      obtain ⟨uid, huid⟩ := hresolves _ hnamespace _ haccount
      obtain ⟨hcheck, hfits⟩ := hplaced ⟨id, workloadNamespace, serviceAccount, uid, true⟩
        ⟨_, hnamespace, _, haccount, uid, huid, rfl⟩
      have hupsert : ∃ ws o, (upsertBinding ⟨id, workloadNamespace, serviceAccount, uid, true⟩).exec
          store d [] = ⟨d, ws, .ok o⟩ := exec_upsertBinding_ok hidentity hcheck hfits
      obtain ⟨ws, o, hupsert⟩ := hupsert
      have hexec : (do
          let uid ← ensure (r.resolver workloadNamespace serviceAccount)
          let upserted ← orFail RegistrarError.database
            (autocommit (upsertBinding ⟨id, workloadNamespace, serviceAccount, uid, true⟩))
          return if 0 < upserted.rows then ["binding -> ".toList ++ uid] else [] :
            Fallible RegistrarError (List Str)).run.exec store d [] =
          ⟨store.view d ws, [], .ok (if 0 < o.rows then ["binding -> ".toList ++ uid] else [])⟩ :=
        Postgres.Proc.exec_run_bind_eq_ok.mpr
          ⟨d, [], uid, Postgres.Proc.exec_ensure_eq_ok.mpr ⟨rfl, rfl, huid⟩,
            Postgres.Proc.exec_run_bind_eq_ok.mpr ⟨_, _, o, Postgres.Proc.exec_orFail_eq_ok.mpr
              (Postgres.Proc.exec_autocommit_eq_ok.mpr ⟨d, ws, hupsert, rfl, rfl⟩), rfl⟩⟩
      refine ⟨store.view d ws, [], if 0 < o.rows then ["binding -> ".toList ++ uid] else [], ?_⟩
      unfold Registrar.reconcileBinding
      rw [hnamespace, haccount]
      exact hexec

/-- A row of the history that a request records passes the constraints, if its UUID is new. -/
theorem checkAdmissionHistory_historyRow {r : AdmissionRequest} {v : Db} {old : Bool} {revision : ℤ}
    {outcome : AdmissionOutcome}
    (hmetadata : checkMetadata r.administratorIdentity r.reason r.changedAt = true)
    (hrevision : 0 ≤ revision)
    (hnew : v.admissionHistory.find? (fun h =>
      h.serviceId = r.serviceId ∧ h.correlationId = r.correlationId) = none) :
    v.checkAdmissionHistory (r.historyRow old revision outcome) = .ok () := by
  simp only [checkMetadata, Bool.and_eq_true, decide_eq_true_eq] at hmetadata
  simp only [Db.checkAdmissionHistory, Postgres.require_bind_eq_ok, Postgres.require_eq_ok]
  refine ⟨checkTrimmed_btrim.mpr hmetadata.1.1, hmetadata.2, checkTrimmed_btrim.mpr hmetadata.1.2,
    hrevision, fun h hh hservice hcorrelation => ?_⟩
  exact List.find?_eq_none.mp hnew h hh (decide_eq_true ⟨hservice, hcorrelation⟩)

/-- A request with a new UUID succeeds on an admission that has room for it. -/
theorem exec_applyAdmission_ok {r : AdmissionRequest} (d : Db) (ws : List Write)
    {current : AdmissionRow}
    (hmetadata : checkMetadata r.administratorIdentity r.reason r.changedAt = true)
    (hfind : (store.view d ws).admissions.find? (fun row => row.serviceId = r.serviceId) =
    some current) (htime : current.updatedAt ≤ r.changedAt) (hrevision : 0 ≤ current.revision)
    (hroom : current.communicationEnabled ≠ r.enabled → current.revision + 1 < 2 ^ 63)
    (hnew : (store.view d ws).admissionHistory.find? (fun h =>
      h.serviceId = r.serviceId ∧ h.correlationId = r.correlationId) = none) :
    ∃ ws' a, (applyAdmission r current).run.exec store d ws = ⟨d, ws', .ok a⟩ := by
  -- The history takes the record of any outcome, whatever has been written to other tables.
  have hrecord : ∀ ws' old revision outcome, 0 ≤ revision →
      (store.view d ws').admissionHistory = (store.view d ws).admissionHistory →
      (recordAdmission (r.historyRow old revision outcome)).run.exec store d ws' =
        ⟨d, ws' ++ [.admissionHistory (r.historyRow old revision outcome)],
          .ok (r.historyRow old revision outcome).result⟩ := by
    intro ws' old revision outcome hrevision hhistory
    have hcheck : (store.view d ws').checkAdmissionHistory
        (r.historyRow old revision outcome) = .ok () :=
      checkAdmissionHistory_historyRow hmetadata hrevision (hhistory ▸ hnew)
    exact Postgres.Proc.exec_run_bind_eq_ok.mpr ⟨d, _, (),
      Postgres.Proc.exec_orFail_eq_ok.mpr (Postgres.Proc.exec_insert_ok hcheck), rfl⟩
  unfold applyAdmission
  rw [if_neg (not_lt.mpr htime)]
  by_cases hsame : current.communicationEnabled = r.enabled
  · rw [if_pos hsame]
    exact ⟨_, _, hrecord ws _ _ _ hrevision rfl⟩
  rw [if_neg hsame, if_pos (hroom hsame)]
  have hchanged : 0 ≤ current.revision + 1 := by omega
  -- The trigger lets the row change: its revision goes up by one and its time does not go back.
  have hupdate : (updateAdmission r (current.revision + 1)).exec store d ws =
      ⟨d, ws ++ [.admissions (.update (r.next current))], .ok (some (r.next current))⟩ := by
    have hchange : changeAdmission current (r.next current) = .ok (r.next current) := by
      have htime' : 0 ≤ r.changedAt := by
        simp only [checkMetadata, Bool.and_eq_true, decide_eq_true_eq] at hmetadata
        exact hmetadata.2
      refine Postgres.require_bind_eq_ok.mpr ⟨⟨rfl, rfl, Ne.symm hsame, htime⟩, ?_⟩
      exact Postgres.bind_eq_ok.mpr ⟨(), Postgres.require_bind_eq_ok.mpr
        ⟨hchanged, Postgres.require_eq_ok.mpr htime'⟩, rfl⟩
    rw [updateAdmission, Postgres.Proc.exec_update]
    simp only [hfind, Option.bind_some]
    rw [show changeAdmission current { current with
      communicationEnabled := r.enabled, revision := current.revision + 1,
        updatedAt := r.changedAt } =
      .ok (r.next current) from hchange]
  have hhistory : (store.view d (ws ++ [.admissions (.update (r.next current))])).admissionHistory =
      (store.view d ws).admissionHistory := by
    rw [Store.view_append]
    rfl
  exact ⟨_, _, Postgres.Proc.exec_run_bind_eq_ok.mpr ⟨d, ws, current.revision + 1,
    Postgres.Proc.exec_ensure_eq_ok.mpr ⟨rfl, rfl, rfl⟩, Postgres.Proc.exec_run_bind_eq_ok.mpr
      ⟨d, _, _, Postgres.Proc.exec_orFail_eq_ok.mpr hupdate, hrecord _ _ _ _ hchanged hhistory⟩⟩⟩

/-- A request succeeds if its UUID is new or has been used for the same request, and the admission
has room for it. -/
theorem exec_setServiceCommunicationAdmission_ok {r : AdmissionRequest} (d : Db) (ws : List Write)
    {current : AdmissionRow}
    (hmetadata : checkMetadata r.administratorIdentity r.reason r.changedAt = true)
    (hfind : (store.view d ws).admissions.find? (fun row => row.serviceId = r.serviceId) =
    some current) (htime : current.updatedAt ≤ r.changedAt) (hrevision : 0 ≤ current.revision)
    (hroom : current.communicationEnabled ≠ r.enabled → current.revision + 1 < 2 ^ 63)
    (hhistory : ∀ h ∈ (store.view d ws).admissionHistory, h.serviceId = r.serviceId →
      h.correlationId = r.correlationId → r.Repeats h) :
    ∃ ws' a, (setServiceCommunicationAdmission r).run.exec store d ws = ⟨d, ws', .ok a⟩ := by
  unfold setServiceCommunicationAdmission
  rw [if_neg (by simp [hmetadata])]
  have hlock : (lockAdmission r.serviceId).exec store d ws = ⟨d, ws, .ok (some current)⟩ := by
    simp only [lockAdmission, Postgres.Proc.exec_selectForUpdate, hfind, Option.bind_some]
  have hquery : (findAdmissionHistory r.serviceId r.correlationId).exec store d ws =
      ⟨d, ws, .ok ((store.view d ws).admissionHistory.find? fun h =>
        h.serviceId = r.serviceId ∧ h.correlationId = r.correlationId)⟩ := by
    rw [findAdmissionHistory, Postgres.Proc.exec_query]
  cases hfound : (store.view d ws).admissionHistory.find? fun h =>
      h.serviceId = r.serviceId ∧ h.correlationId = r.correlationId with
  | some h =>
    rw [hfound] at hquery
    -- A call with this identifier is on record: it asked for the same, so its result is answered.
    have hkeys := List.find?_some hfound
    rw [decide_eq_true_eq] at hkeys
    have hsame := hhistory h (List.mem_of_find?_eq_some hfound) hkeys.1 hkeys.2
    refine ⟨ws, h.result, Postgres.Proc.exec_run_bind_eq_ok.mpr
      ⟨d, ws, some current, Postgres.Proc.exec_orFail_eq_ok.mpr hlock,
        Postgres.Proc.exec_run_bind_eq_ok.mpr
          ⟨d, ws, some h, Postgres.Proc.exec_orFail_eq_ok.mpr hquery, ?_⟩⟩⟩
    simp [hsame]
  | none =>
    -- Else the change is applied.
    rw [hfound] at hquery
    obtain ⟨ws', a, happly⟩ :=
      exec_applyAdmission_ok d ws hmetadata hfind htime hrevision hroom hfound
    exact ⟨ws', a, Postgres.Proc.exec_run_bind_eq_ok.mpr
      ⟨d, ws, some current, Postgres.Proc.exec_orFail_eq_ok.mpr hlock,
        Postgres.Proc.exec_run_bind_eq_ok.mpr
          ⟨d, ws, none, Postgres.Proc.exec_orFail_eq_ok.mpr hquery, happly⟩⟩⟩

/-- What a call adds to the history repeats its request. -/
theorem Administers.history {r : AdmissionRequest} {v : Db} {a : AdmissionResult} {ws : List Write}
    (h : Administers r v a ws) :
    ∀ e ∈ (store.view v ws).admissionHistory, e ∈ v.admissionHistory ∨ r.Repeats e := by
  cases h with
  | «repeats» => exact fun e he => .inl he
  | records hfind htime hrecords hcheck =>
    intro e he
    cases hrecords with
    | noOp =>
      rcases List.mem_append.mp he with he | he
      · exact .inl he
      · rw [List.mem_singleton.mp he]
        exact .inr ⟨rfl, rfl, rfl, rfl⟩
    | changed =>
      rcases List.mem_append.mp he with he | he
      · exact .inl he
      · rw [List.mem_singleton.mp he]
        exact .inr ⟨rfl, rfl, rfl, rfl⟩

/-- The calls of a statement after the first one succeed, since that has made the admission what
they ask for. -/
theorem exec_repeatedAdmissions_ok {r : AdmissionRequest} {d : Db}
    (hmetadata : checkMetadata r.administratorIdentity r.reason r.changedAt = true)
    (repeated : List Uuid) : ∀ (ws : List Write) (a : AdmissionResult),
      Administered r (store.view d ws) →
      (∀ h ∈ (store.view d ws).admissionHistory, h.serviceId = r.serviceId →
        h.correlationId ∈ repeated → r.Repeats h) →
      ∃ ws' a', (repeated.foldlM (fun _ correlationId =>
        setServiceCommunicationAdmission { r with correlationId }) a).run.exec store d ws =
          ⟨d, ws', .ok a'⟩ := by
  induction repeated with
  | nil => exact fun ws a _ _ => ⟨ws, a, rfl⟩
  | cons correlationId repeated ih =>
    intro ws a ⟨current, hfind, henabled, htime, hrevision⟩ hhistory
    obtain ⟨ws₁, a₁, hcall⟩ := exec_setServiceCommunicationAdmission_ok
      (r := { r with correlationId }) d ws hmetadata hfind htime hrevision (absurd henabled)
      fun h hh hservice hcorrelation => hhistory h hh hservice (hcorrelation ▸ List.mem_cons_self)
    obtain ⟨-, -, -, us, rfl, hadministers⟩ := exec_setServiceCommunicationAdmission hcall
    have hheld : Administered r (store.view d (ws ++ us)) := by
      rw [Store.view_append]
      exact hadministers.administered fun _ _ _ _ => ⟨current, hfind, henabled, htime, hrevision⟩
    obtain ⟨ws', a', hrest⟩ := ih (ws ++ us) a₁ hheld fun h hh hservice hmem => by
      rw [Store.view_append] at hh
      rcases hadministers.history h hh with hh | hsame
      · exact hhistory h hh hservice (List.mem_cons_of_mem _ hmem)
      · exact hsame
    refine ⟨ws', a', ?_⟩
    rw [List.foldlM_cons]
    exact Postgres.Proc.exec_run_bind_eq_ok.mpr ⟨d, _, a₁, hcall, hrest⟩

/-- The statement about an admission that has room succeeds, when its UUIDs are new. -/
theorem exec_setAdmission_ok {r : AdmissionRequest} (repeated : List Uuid) {d : Db}
    {current : AdmissionRow}
    (hmetadata : checkMetadata r.administratorIdentity r.reason r.changedAt = true)
    (hfind : d.admissions.find? (fun row => row.serviceId = r.serviceId) = some current)
    (htime : current.updatedAt ≤ r.changedAt) (hrevision : 0 ≤ current.revision)
    (hroom : current.communicationEnabled ≠ r.enabled → current.revision + 1 < 2 ^ 63)
    (hfresh : ∀ h ∈ d.admissionHistory, h.serviceId = r.serviceId →
      h.correlationId ≠ r.correlationId ∧ h.correlationId ∉ repeated) :
    ∃ ws a, (setAdmission r repeated).run.exec store d [] = ⟨d, ws, .ok a⟩ := by
  obtain ⟨ws₁, a₁, hfirst⟩ := exec_setServiceCommunicationAdmission_ok d [] hmetadata hfind htime
    hrevision hroom fun h hh hservice hcorrelation => absurd hcorrelation (hfresh h hh hservice).1
  obtain ⟨-, -, -, us, hus, hadministers⟩ := exec_setServiceCommunicationAdmission hfirst
  rw [List.nil_append] at hus
  subst hus
  obtain ⟨ws, a, hrest⟩ := exec_repeatedAdmissions_ok hmetadata repeated ws₁ a₁
    (hadministers.administered fun h hh hservice hcorrelation =>
      absurd hcorrelation (hfresh h hh hservice).1)
    fun h hh hservice hmem => (hadministers.history h hh).resolve_left fun hh =>
      (hfresh h hh hservice).2 hmem
  exact ⟨ws, a, Postgres.Proc.exec_run_bind_eq_ok.mpr ⟨d, _, a₁, hfirst, hrest⟩⟩

/-- So does the part of a pass that is about it. -/
theorem exec_reconcileAdmission_ok {r : Registrar} {i : ℕ} {id : ActorId} {s : ServiceSpec} {d : Db}
    {current : AdmissionRow}
    (hmetadata : checkMetadata r.administrator "registrar reconciliation".toList r.now = true)
    (hfind : (d.record id).admission = some current) (htime : current.updatedAt ≤ r.now)
    (hrevision : 0 ≤ current.revision)
    (hroom : current.communicationEnabled ≠ s.communicationEnabled → current.revision + 1 < 2 ^ 63)
    (hfresh : ∀ h ∈ d.admissionHistory, h.serviceId = id →
      h.correlationId ≠ r.admissionCorrelation i ∧ h.correlationId ∉ r.admissionRepeats i) :
    ∃ d' ws applied, (r.reconcileAdmission i id s).run.exec store d [] = ⟨d', ws, .ok applied⟩ := by
  obtain ⟨ws, a, hset⟩ := exec_setAdmission_ok
    (r := r.admissionRequest i id s.communicationEnabled)
    (r.admissionRepeats i) hmetadata hfind htime hrevision hroom hfresh
  exact ⟨_, _, _, Postgres.Proc.exec_run_bind_eq_ok.mpr ⟨_, [], a, exec_orFail_callFunction.mpr
    ⟨d, ws, hset, rfl, rfl⟩, rfl⟩⟩

/-! ## Grants -/

/-- The reason of a grant for a listed action passes its check. -/
theorem checkTrimmed_grantReason {action : Str} (h : action.length ≤ 200) :
    checkTrimmed 1000 ("registrar grant for ".toList ++ action) := by
  have hdrop : ("registrar grant for ".toList ++ action).dropWhile (· == ' ') =
      "registrar grant for ".toList ++ action := rfl
  have hne : btrim ("registrar grant for ".toList ++ action) ≠ [] := by
    rw [btrim, hdrop, Ne, List.rdropWhile_eq_nil_iff]
    exact fun hall => absurd (hall 'r' List.mem_cons_self) (by decide)
  have hle : (btrim ("registrar grant for ".toList ++ action)).length ≤ 20 + action.length := by
    rw [btrim, hdrop]
    exact (List.rdropWhile_prefix _ _).length_le.trans (List.length_append ..).le
  have hpos := List.length_pos_of_ne_nil hne
  unfold checkTrimmed
  omega

/-- The reserved schema versions are there, with the kinds of migration 0018. -/
structure Db.Reserved (d : Db) : Prop where
  artifact : (d.schemaVersions.find? fun v =>
    v.schemaVersionId = noArtifactSchemaVersions.artifact).map SchemaVersionRow.kind =
      some .artifact
  permissionPolicy : (d.schemaVersions.find? fun v =>
    v.schemaVersionId = noArtifactSchemaVersions.permissionPolicy).map SchemaVersionRow.kind =
      some .permissionPolicy

/-- A version that is found is there. -/
theorem exists_schemaVersion {d : Db} {id : SchemaVersionId} {kind : SchemaKind}
    (h : (d.schemaVersions.find? fun v => v.schemaVersionId = id).map SchemaVersionRow.kind =
      some kind) :
    ∃ v ∈ d.schemaVersions, v.schemaVersionId = id := by
  obtain ⟨v, hv, -⟩ := Option.map_eq_some_iff.mp h
  exact ⟨v, List.mem_of_find?_eq_some hv, by simpa using List.find?_some hv⟩

/-- A grant that passes its checks is created, when its UUIDs are new. -/
theorem exec_createAuthorityGrant_ok (requested : GrantRow) (d : Db) {row : GrantRow}
    (hrow : row = { requested with
      administratorIdentity := btrim requested.administratorIdentity
      reason := btrim requested.reason
      revokedAt := none })
    (hmetadata : checkMetadata requested.administratorIdentity requested.reason
      requested.createdAt = true)
    (hartifact : (d.schemaVersions.find? fun v =>
      v.schemaVersionId = requested.artifactSchemaVersionId).map SchemaVersionRow.kind =
        some .artifact)
    (hpolicy : (d.schemaVersions.find? fun v =>
      v.schemaVersionId = requested.permissionPolicySchemaVersionId).map SchemaVersionRow.kind =
        some .permissionPolicy)
    (hid : ∀ e ∈ d.grants, e.grantId ≠ requested.grantId)
    (hcorrelation : ∀ e ∈ d.grants, e.correlationId ≠ requested.correlationId)
    (hcheck : d.checkGrant row = .ok ()) :
    ∃ ws, (createAuthorityGrant requested).run.exec store d [] = ⟨d, ws, .ok row⟩ := by
  have hfind : d.grants.find? (fun e => e.correlationId = requested.correlationId) = none :=
    List.find?_eq_none.mpr fun e he => by simpa using hcorrelation e he
  have hfree : d.grants.find? (fun e => e.grantId = requested.grantId) = none :=
    List.find?_eq_none.mpr fun e he => by simpa using hid e he
  -- The texts are trimmed when they are stored, so the constraints on the entry in the audit hold.
  have haudit : (row.auditRow .created).check = .ok () := by
    simp only [checkMetadata, Bool.and_eq_true, decide_eq_true_eq] at hmetadata
    subst hrow
    exact Postgres.require_bind_eq_ok.mpr ⟨checkTrimmed_btrim.mpr hmetadata.1.1,
      Postgres.require_bind_eq_ok.mpr ⟨checkTrimmed_btrim.mpr hmetadata.1.2,
        Postgres.require_eq_ok.mpr hmetadata.2⟩⟩
  -- Neither the grant's identifier nor its correlation identifier is taken: the row is written.
  have hcreate : (createGrantRow row none).run.exec store d [] =
      ⟨d, [.grants (.insert row), .grantAudit (row.auditRow .created)], .ok row⟩ := by
    have hquery : (findGrant row.grantId).exec store d [] = ⟨d, [], .ok none⟩ := by
      subst hrow
      rw [findGrant, Postgres.Proc.exec_query, Store.view_nil, hfree]
    exact Postgres.Proc.exec_run_bind_eq_ok.mpr ⟨d, [], none,
      Postgres.Proc.exec_orFail_eq_ok.mpr hquery, Postgres.Proc.exec_run_bind_eq_ok.mpr ⟨d, _, (),
        Postgres.Proc.exec_orFail_eq_ok.mpr (Postgres.Proc.exec_insert_ok hcheck),
        Postgres.Proc.exec_run_bind_eq_ok.mpr ⟨d, _, (),
          Postgres.Proc.exec_orFail_eq_ok.mpr (Postgres.Proc.exec_insert_ok haudit), rfl⟩⟩⟩
  have hkind : ∀ id, (findSchemaKind id).exec store d
      [] = ⟨d, [], .ok ((d.schemaVersions.find? fun v =>
      v.schemaVersionId = id).map SchemaVersionRow.kind)⟩ := fun id => by
    rw [findSchemaKind, Postgres.Proc.exec_query, Store.view_nil]
  have hexisting : (findGrantByCorrelation requested.correlationId).exec store d [] =
      ⟨d, [], .ok none⟩ := by
    rw [findGrantByCorrelation, Postgres.Proc.exec_query, Store.view_nil, hfind]
  -- The function comes to it: the metadata and both schema versions are as they should be.
  refine ⟨[.grants (.insert row), .grantAudit (row.auditRow .created)], ?_⟩
  unfold createAuthorityGrant
  rw [if_neg (by simp [hmetadata])]
  refine Postgres.Proc.exec_run_bind_eq_ok.mpr
    ⟨d, [], _, Postgres.Proc.exec_orFail_eq_ok.mpr (hkind _), ?_⟩
  rw [if_neg (by simp [hartifact])]
  refine Postgres.Proc.exec_run_bind_eq_ok.mpr
    ⟨d, [], _, Postgres.Proc.exec_orFail_eq_ok.mpr (hkind _), ?_⟩
  rw [if_neg (by simp [hpolicy])]
  refine Postgres.Proc.exec_run_bind_eq_ok.mpr
    ⟨d, [], none, Postgres.Proc.exec_orFail_eq_ok.mpr hexisting, ?_⟩
  rw [← hrow]
  exact hcreate

/-- A listed grant passes the checks of the database. -/
structure GrantSpec.Valid (g : GrantSpec) : Prop where
  action : checkDottedName 3 2 g.action
  scope : checkScope g.scope
  texts : checkText g.action = .ok () ∧ checkText g.scope = .ok ()

/-- No grant has the UUIDs that are drawn for the place `k` of the service at the place `i`. -/
def Registrar.Undrawn (r : Registrar) (i k : ℕ) (d : Db) : Prop :=
  ∀ e ∈ d.grants, e.grantId ≠ r.grantId i k ∧ e.correlationId ≠ r.grantCorrelation i k

/-- The statements about one grant succeed. -/
theorem exec_reconcileGrant_ok {r : Registrar} {i k : ℕ} {id : ActorId} {g : GrantSpec} {d : Db}
    (hmetadata : checkMetadata r.administrator "registrar reconciliation".toList r.now = true)
    (hidentity : (d.record id).identity.isSome = true) (hreserved : d.Reserved) (hvalid : g.Valid)
    (hnew : r.Undrawn i k d) :
    ∃ d' ws applied, (r.reconcileGrant i k id g).run.exec store d [] = ⟨d', ws, .ok applied⟩ := by
  have hcount : (countLiveGrants id g r.now).exec store d [] =
      ⟨d, [], .ok (d.grants.countP fun row => row.Live id g r.now)⟩ := by
    simp [countLiveGrants, hvalid.texts.1, hvalid.texts.2, bind, Except.bind, pure, Except.pure]
  have hcounted : (orFail RegistrarError.database
      (autocommit (countLiveGrants id g r.now))).run.exec
      store d [] = ⟨d, [], .ok (d.grants.countP fun row => row.Live id g r.now)⟩ :=
    Postgres.Proc.exec_orFail_eq_ok.mpr
      (Postgres.Proc.exec_autocommit_eq_ok.mpr ⟨d, [], hcount, rfl, rfl⟩)
  by_cases hpos : 0 < d.grants.countP fun row => row.Live id g r.now
  · -- An equivalent grant is live, and nothing is done.
    refine ⟨d, [], [], Postgres.Proc.exec_run_bind_eq_ok.mpr ⟨d, [], _, hcounted, ?_⟩⟩
    rw [if_pos hpos]
    rfl
  -- Else one is requested, under the reserved schema versions.
  obtain ⟨requested, hrequested⟩ : ∃ requested, r.grantRow i k id g = .ok requested := by
    unfold Registrar.grantRow
    rw [castUuid_noArtifact.1, castUuid_noArtifact.2]
    exact ⟨_, rfl⟩
  have hmeta := hmetadata
  simp only [checkMetadata, Bool.and_eq_true, decide_eq_true_eq] at hmeta
  have hreason := checkTrimmed_grantReason hvalid.action.2.1
  have hcreate : ∃ ws row, (createAuthorityGrant requested).run.exec store d
      [] = ⟨d, ws, .ok row⟩ := by
    have hcreates := exec_createAuthorityGrant_ok requested d rfl
    have hrow := hrequested
    unfold Registrar.grantRow at hrow
    rw [castUuid_noArtifact.1, castUuid_noArtifact.2] at hrow
    obtain rfl := Except.ok.inj hrow
    obtain ⟨irow, hirow⟩ := Option.isSome_iff_exists.mp hidentity
    have hsource : id ∈ d.identities := List.mem_map.mpr
      ⟨irow, List.mem_of_find?_eq_some hirow, IdentityRow.id_of_find hirow⟩
    obtain ⟨ws, hexec⟩ := hcreates
      (by simp only [checkMetadata, Bool.and_eq_true, decide_eq_true_eq]
          exact ⟨⟨hmeta.1.1, hreason⟩, hmeta.2⟩)
      hreserved.artifact hreserved.permissionPolicy (fun e he => (hnew e he).1)
      (fun e he => (hnew e he).2) (by
        simp only [Db.checkGrant, Postgres.require_bind_eq_ok, Postgres.require_eq_ok]
        have hnone : ∀ {α : Type} {p : α → Prop}, ∀ a ∈ (none : Option α), p a := fun a ha => by
          cases ha
        exact ⟨hvalid.action, checkTrimmed_btrim.mpr hmeta.1.1, hnone, hmeta.2,
          checkTrimmed_btrim.mpr hreason, hnone, hvalid.scope, le_rfl, fun e he => (hnew e he).1,
          fun e he => (hnew e he).2, hsource, hnone, exists_schemaVersion hreserved.artifact,
          exists_schemaVersion hreserved.permissionPolicy⟩)
    exact ⟨ws, _, hexec⟩
  obtain ⟨ws, row, hcreate⟩ := hcreate
  refine ⟨store.view d ws, [], [g.applied],
    Postgres.Proc.exec_run_bind_eq_ok.mpr ⟨d, [], _, hcounted, ?_⟩⟩
  rw [if_neg hpos]
  exact Postgres.Proc.exec_run_bind_eq_ok.mpr ⟨d, [], requested,
    Postgres.Proc.exec_ensure_eq_ok.mpr ⟨rfl, rfl, Postgres.mapError_eq_ok.mpr hrequested⟩,
    Postgres.Proc.exec_run_bind_eq_ok.mpr ⟨_, [], row,
      exec_orFail_callFunction.mpr ⟨d, ws, hcreate, rfl, rfl⟩, rfl⟩⟩

/-- So does the loop over the grants of a service, when the UUIDs that it draws differ. -/
theorem exec_reconcileGrants_ok {r : Registrar} {i : ℕ} {id : ActorId}
    (hmetadata : checkMetadata r.administrator "registrar reconciliation".toList r.now = true)
    (grants : List GrantSpec) : ∀ {k : ℕ} {d : Db},
      (d.record id).identity.isSome = true → d.Reserved → (∀ g ∈ grants, g.Valid) →
      (∀ j < grants.length, r.Undrawn i (k + j) d) →
      (∀ j j', j < j' → j' < grants.length → r.grantId i (k + j) ≠ r.grantId i (k + j') ∧
        r.grantCorrelation i (k + j) ≠ r.grantCorrelation i (k + j')) →
      ∃ d' ws applied, (r.reconcileGrants i id k grants).run.exec store d [] =
        ⟨d', ws, .ok applied⟩ := by
  induction grants with
  | nil => exact fun _ _ _ _ _ => ⟨_, _, _, rfl⟩
  | cons g grants ih =>
    intro k d hidentity hreserved hvalid hnew hdistinct
    obtain ⟨d₁, ws₁, applied₁, hgrant⟩ := exec_reconcileGrant_ok hmetadata hidentity hreserved
      (hvalid g List.mem_cons_self) (hnew 0 (Nat.succ_pos _))
    obtain ⟨rfl, -, hcases⟩ := exec_reconcileGrant (fun e he _ hcorrelation =>
      absurd hcorrelation (hnew 0 (Nat.succ_pos _) e he).2) hgrant
    have hdistinct' : ∀ j j', j < j' → j' < grants.length →
        r.grantId i (k + 1 + j) ≠ r.grantId i (k + 1 + j') ∧
          r.grantCorrelation i (k + 1 + j) ≠ r.grantCorrelation i (k + 1 + j') := by
      intro j j' hlt hj'
      rw [Nat.add_right_comm, Nat.add_right_comm k 1 j']
      exact hdistinct (j + 1) (j' + 1) (Nat.succ_lt_succ hlt) (Nat.succ_lt_succ hj')
    have hvalid' : ∀ g' ∈ grants, g'.Valid := fun g' hg' => hvalid g' (List.mem_cons_of_mem _ hg')
    have hrest : ∃ d' ws applied, (r.reconcileGrants i id (k + 1) grants).run.exec store d₁ [] =
        ⟨d', ws, .ok applied⟩ := by
      rcases hcases with ⟨-, rfl, -⟩ | ⟨-, -, row, -, hdrawn, rfl⟩
      · refine ih hidentity hreserved hvalid' (fun j hj => ?_) hdistinct'
        rw [Nat.add_right_comm]
        exact hnew (j + 1) (Nat.succ_lt_succ hj)
      · refine ih hidentity ⟨hreserved.artifact, hreserved.permissionPolicy⟩ hvalid'
          (fun j hj e he => ?_) hdistinct'
        rw [Nat.add_right_comm]
        rcases List.mem_append.mp he with he | he
        · exact hnew (j + 1) (Nat.succ_lt_succ hj) e he
        -- The grant that has just been created has the UUIDs of another place.
        · rw [List.mem_singleton.mp he, hdrawn.1, hdrawn.2]
          exact hdistinct 0 (j + 1) (Nat.succ_pos j) (Nat.succ_lt_succ hj)
    obtain ⟨d', ws, applied, hrest⟩ := hrest
    exact ⟨d', ws, applied₁ ++ applied, Postgres.Proc.exec_run_bind_eq_ok.mpr
      ⟨d₁, [], applied₁, hgrant, Postgres.Proc.exec_run_bind_eq_ok.mpr
        ⟨d', ws, applied, hrest, rfl⟩⟩⟩

/-! ## Services -/

/-- Writes to other tables leave the schema versions as they are. -/
theorem schemaVersions_view {ws : List Write} {d : Db} (h : ∀ w ∈ ws, w.table ≠ .schemaVersions) :
    (store.view d ws).schemaVersions = d.schemaVersions :=
  view_of_table (fun d w hw => by cases w <;> first | rfl | exact absurd rfl hw) h

/-- What the constraints and triggers of the migrations keep true of a database. -/
structure Db.Sound (d : Db) : Prop where
  /-- An identity has an admission, from the trigger, and an admission refers to an identity. -/
  admitted : ∀ id, (d.record id).identity.isSome = (d.record id).admission.isSome
  revision : ∀ id, ∀ row ∈ (d.record id).admission, 0 ≤ row.revision
  nodup : (d.enrollmentBindings.map EnrollmentBindingRow.serviceId).Nodup
  reserved : d.Reserved

namespace Registrar

/-- A listed service is well formed, and its service account can be resolved. -/
structure Accepts (r : Registrar) (s : ServiceSpec) : Prop where
  identity : ∃ row, s.identityRow = .ok row
  resolves : ∀ workloadNamespace ∈ s.workloadNamespace, ∀ serviceAccount ∈ s.serviceAccount,
    ∃ uid, r.resolver workloadNamespace serviceAccount = .ok uid
  binding : ∀ id row, s.bindingRow id r.resolver row → row.check = .ok ()
  grants : ∀ g ∈ s.grants, g.Valid

/-- What a pass finds of a service at the place `i` allows each of its statements. -/
structure Fits (r : Registrar) (i : ℕ) (s : ServiceSpec) (id : ActorId) (d : Db) : Prop where
  clock : ∀ row ∈ (d.record id).admission, row.updatedAt ≤ r.now
  fresh : ∀ h ∈ (d.record id).history,
    h.correlationId ≠ r.admissionCorrelation i ∧ h.correlationId ∉ r.admissionRepeats i
  undrawn : ∀ k < s.grants.length, r.Undrawn i k d
  distinct : ∀ k k', k < k' → k' < s.grants.length →
    r.grantId i k ≠ r.grantId i k' ∧ r.grantCorrelation i k ≠ r.grantCorrelation i k'
  placed : ∀ row, s.bindingRow id r.resolver row →
    (d.record id).binding = some row ∨ d.checkWorkload row = .ok ()
  room : ∀ current ∈ (d.record id).admission,
    current.communicationEnabled ≠ s.communicationEnabled → current.revision + 1 < 2 ^ 63

end Registrar

/-- The check of the name of a service passes once more when its row is inserted. -/
theorem ServiceSpec.checks_of_identityRow {s : ServiceSpec} {row : IdentityRow}
    (h : s.identityRow = .ok row) :
    checkText row.displayName = .ok () ∧ checkTrimmed 200 row.displayName := by
  obtain ⟨_, -, h⟩ := Postgres.bind_eq_ok.mp h
  obtain ⟨_, htext, h⟩ := Postgres.bind_eq_ok.mp h
  obtain ⟨id, -, h⟩ := Postgres.bind_eq_ok.mp h
  obtain ⟨htrimmed, h⟩ := Postgres.require_bind_eq_ok.mp h
  obtain ⟨kind, -, h⟩ := Postgres.bind_eq_ok.mp h
  obtain rfl := Except.ok.inj h
  exact ⟨htext, htrimmed⟩

/-- The admission that is there after the identity has been written allows the statement about
it. -/
theorem Registrar.Fits.exists_current {r : Registrar} {i : ℕ} {s : ServiceSpec} {row : IdentityRow}
    {d d' : Db} (h : r.Fits i s row.id d) (hsound : d.Sound)
    (hadmission : (d.record row.id).identity.isSome = true ∧
        (d'.record row.id).admission = (d.record row.id).admission ∨
      (d.record row.id).admission = none ∧
        (d'.record row.id).admission = some (row.admission r.now)) :
    ∃ current, (d'.record row.id).admission = some current ∧ current.updatedAt ≤ r.now ∧
      0 ≤ current.revision ∧
      (current.communicationEnabled ≠ s.communicationEnabled → current.revision + 1 < 2 ^ 63) := by
  rcases hadmission with ⟨hsome, hsame⟩ | ⟨-, hnew⟩
  · rw [hsound.admitted] at hsome
    obtain ⟨current, hcurrent⟩ := Option.isSome_iff_exists.mp hsome
    exact ⟨current, hsame.trans hcurrent, h.clock current hcurrent,
      hsound.revision row.id current hcurrent, h.room current hcurrent⟩
  · exact ⟨_, hnew, le_rfl, le_rfl, fun _ => (by decide : (0 : ℤ) + 1 < 2 ^ 63)⟩

/-- What a pass does about a service succeeds, when the database allows it. -/
theorem exec_reconcileService_ok {r : Registrar} {i : ℕ} {s : ServiceSpec} {id : ActorId} {d : Db}
    (hmetadata : checkMetadata r.administrator "registrar reconciliation".toList r.now = true)
    (haccepts : r.Accepts s) (hsound : d.Sound) (hid : s.id? = some id) (hfits : r.Fits i s id d) :
    ∃ d' ws applied, (r.reconcileService i s).run.exec store d [] = ⟨d', ws, .ok applied⟩ := by
  obtain ⟨row, hrow⟩ := haccepts.identity
  obtain rfl := Option.some.inj ((ServiceSpec.identityRow_eq_ok hrow).1.symm.trans hid)
  obtain ⟨htext, htrimmed⟩ := ServiceSpec.checks_of_identityRow hrow
  have hnow : 0 ≤ r.now := by
    simp only [checkMetadata, Bool.and_eq_true, decide_eq_true_eq] at hmetadata
    exact hmetadata.2
  -- Each statement succeeds, and leaves what the next one needs.
  obtain ⟨d₁, us₁, o, hupsert⟩ := exec_upsertIdentity_ok htext htrimmed hnow
    (hsound.admitted row.id)
  obtain ⟨rfl, hus₁, hidentity₁, -, hadmission₁⟩ := exec_upsertIdentity hupsert
  have htable₁ : ∀ w ∈ us₁, w.table = .identities ∨ w.table = .admissions :=
    fun w hw => (hus₁ w hw).2
  have hbindings₁ : (store.view d₁ us₁).enrollmentBindings = d₁.enrollmentBindings :=
    enrollmentBindings_view fun w hw => by rcases htable₁ w hw with ht | ht <;> simp [ht]
  have hsome₁ : ((store.view d₁ us₁).record row.id).identity.isSome = true := by
    rw [hidentity₁]
    rfl
  have hplaced₁ : ∀ brow, s.bindingRow row.id r.resolver brow → brow.check = .ok () ∧
      (((store.view d₁ us₁).record row.id).binding = some brow ∨
        (store.view d₁ us₁).checkWorkload brow = .ok ()) := by
    intro brow hbrow
    have hplaced := hfits.placed brow hbrow
    rw [Db.checkWorkload] at hplaced
    rw [Db.checkWorkload, hbindings₁]
    refine ⟨haccepts.binding _ brow hbrow, ?_⟩
    simpa only [Db.record, hbindings₁] using hplaced
  obtain ⟨d₂, ws₂, applied₂, hbinding⟩ := exec_reconcileBinding_ok hsome₁ haccepts.resolves hplaced₁
  obtain ⟨rfl, us₂, rfl, hus₂, -, -⟩ := exec_reconcileBinding hbinding
  have htable₂ : ∀ w ∈ us₂, w.table = .enrollmentBindings := fun w hw => (hus₂ w hw).2
  have hadmission₂ : ((store.view (store.view d₁ us₁) us₂).record row.id).admission =
      ((store.view d₁ us₁).record row.id).admission := by
    simp only [Db.record]
    rw [admissions_view fun w hw => by simp [htable₂ w hw]]
  have hhistory := admissionHistory_view_steps (d := d₁) htable₁ htable₂
  obtain ⟨current, hcurrent, htime, hrevision, hroom⟩ := hfits.exists_current hsound hadmission₁
  rw [← hadmission₂] at hcurrent
  obtain ⟨d₃, ws₃, applied₃, hadmission⟩ :=
    exec_reconcileAdmission_ok (i := i) hmetadata hcurrent htime
    hrevision hroom fun h hh hservice => by
      rw [hhistory] at hh
      exact hfits.fresh h (List.mem_filter.mpr ⟨hh, by simpa using hservice⟩)
  obtain ⟨rfl, us₃, rfl, hus₃, -⟩ := exec_reconcileAdmission (fun h hh hservice => by
    rw [hhistory] at hh
    exact (hfits.fresh h (List.mem_filter.mpr ⟨hh, by simpa using hservice⟩)).1) hadmission
  have htable₃ : ∀ w ∈ us₃, w.table = .admissions ∨ w.table = .admissionHistory :=
    fun w hw => (hus₃ w hw).2
  have hgrants := grants_view_steps (d := d₁) htable₁ htable₂ htable₃
  have hschemas : (store.view (store.view (store.view d₁ us₁) us₂) us₃).schemaVersions =
      d₁.schemaVersions := by
    rw [schemaVersions_view fun w hw => by rcases htable₃ w hw with ht | ht <;> simp [ht],
      schemaVersions_view fun w hw => by simp [htable₂ w hw],
      schemaVersions_view fun w hw => by rcases htable₁ w hw with ht | ht <;> simp [ht]]
  have hidentity₃ : ((store.view (store.view (store.view d₁ us₁) us₂) us₃).record row.id).identity =
      some row := by
    rw [← hidentity₁]
    simp only [Db.record]
    rw [identityRows_view fun w hw => by rcases htable₃ w hw with ht | ht <;> simp [ht],
      identityRows_view fun w hw => by simp [htable₂ w hw]]
  obtain ⟨d₄, ws₄, applied₄, hloop⟩ := exec_reconcileGrants_ok (i := i) hmetadata s.grants (k := 0)
    (d := store.view (store.view (store.view d₁ us₁) us₂) us₃) (by rw [hidentity₃]; rfl)
    ⟨by rw [hschemas]; exact hsound.reserved.artifact,
      by rw [hschemas]; exact hsound.reserved.permissionPolicy⟩ haccepts.grants
    (fun k hk e he => by
      rw [hgrants] at he
      rw [Nat.zero_add]
      exact hfits.undrawn k hk e he)
    fun k k' hlt hk' => by
      rw [Nat.zero_add, Nat.zero_add]
      exact hfits.distinct k k' hlt hk'
  exact ⟨d₄, ws₄, _, Postgres.Proc.exec_run_bind_eq_ok.mpr ⟨d₁, [], row,
    Postgres.Proc.exec_ensure_eq_ok.mpr ⟨rfl, rfl, Postgres.mapError_eq_ok.mpr hrow⟩,
    Postgres.Proc.exec_run_bind_eq_ok.mpr ⟨_, [], o,
      exec_orFail_callFunction.mpr ⟨d₁, us₁, hupsert, rfl, rfl⟩,
      Postgres.Proc.exec_run_bind_eq_ok.mpr ⟨_, [], applied₂, hbinding,
        Postgres.Proc.exec_run_bind_eq_ok.mpr ⟨_, [], applied₃, hadmission,
          Postgres.Proc.exec_run_bind_eq_ok.mpr ⟨d₄, ws₄, applied₄, hloop, rfl⟩⟩⟩⟩⟩⟩

/-- A pass over a service leaves the schema versions as they are. -/
theorem schemaVersions_of_about {id : ActorId} : ∀ {ws : List Write} {d : Db},
    (∀ w ∈ ws, w.About id) → (store.view d ws).schemaVersions = d.schemaVersions := by
  intro ws d h
  refine schemaVersions_view fun w hw htable => ?_
  have habout := h w hw
  cases w with
  | schemaVersions => exact habout
  | _ => cases htable

namespace Registrar.Serves

variable {r : Registrar} {i : ℕ} {s : ServiceSpec} {id : ActorId} {d d' : Db} {applied : List Str}

/-- The records of the other services stay. -/
theorem record_of_ne (h : r.Serves i s id d d' applied) {id' : ActorId} (hne : id ≠ id') :
    d'.record id' = d.record id' := by
  obtain ⟨us, rfl, habout⟩ := h.writes
  exact Db.record_view_of_ne hne us d habout

/-- The database stays sound. -/
theorem sound (h : r.Serves i s id d d' applied) (hsound : d.Sound) : d'.Sound := by
  have hreserved : d'.schemaVersions = d.schemaVersions := by
    obtain ⟨us, rfl, habout⟩ := h.writes
    exact schemaVersions_of_about habout
  obtain ⟨irow, -, -, hidentity⟩ := h.reconciles.identity
  obtain ⟨arow, hadmission, -, -, hrevision⟩ := h.reconciles.admission
  refine ⟨fun id' => ?_, fun id' row hrow => ?_, h.nodup hsound.nodup, ⟨?_, ?_⟩⟩
  · by_cases hne : id = id'
    · rw [← hne, hidentity, hadmission]
      rfl
    · rw [h.record_of_ne hne]
      exact hsound.admitted id'
  · by_cases hne : id = id'
    · rw [← hne, hadmission] at hrow
      rwa [← Option.some.inj hrow]
    · rw [h.record_of_ne hne] at hrow
      exact hsound.revision id' row hrow
  · rw [hreserved]
    exact hsound.reserved.artifact
  · rw [hreserved]
    exact hsound.reserved.permissionPolicy

end Registrar.Serves

/-! ## The bindings -/

/-- The binding that a service is listed with is its own. -/
theorem ServiceSpec.bindingRow.serviceId_eq {s : ServiceSpec} {id : ActorId}
    {resolver : Str → Str → Except RegistrarError Str} {row : EnrollmentBindingRow}
    (h : s.bindingRow id resolver row) : row.serviceId = id := by
  obtain ⟨_, -, _, -, _, -, rfl⟩ := h
  rfl

/-- Two bindings are for the same service account. -/
def EnrollmentBindingRow.SameWorkload (b b' : EnrollmentBindingRow) : Prop :=
  b.workloadNamespace = b'.workloadNamespace ∧ b.serviceAccount = b'.serviceAccount ∧
    b.serviceAccountUid = b'.serviceAccountUid

/-- The unique index refuses a service account that another service has. -/
theorem Db.checkWorkload_eq_ok {d : Db} {row : EnrollmentBindingRow} :
    d.checkWorkload row = .ok () ↔ ∀ b ∈ d.enrollmentBindings, b.serviceId ≠ row.serviceId →
      ¬ b.SameWorkload row := by
  rw [Db.checkWorkload, Postgres.require_eq_ok]
  refine forall_congr' fun b => forall_congr' fun _ => forall_congr' fun _ => ?_
  exact ⟨fun h hsame => h hsame.1 hsame.2.1 hsame.2.2, fun h h₁ h₂ h₃ => h ⟨h₁, h₂, h₃⟩⟩

/-- Where the primary key holds, a binding is the one of its service's record. -/
theorem Db.mem_enrollmentBindings {d : Db}
    (hnodup : (d.enrollmentBindings.map EnrollmentBindingRow.serviceId).Nodup)
    {b : EnrollmentBindingRow} :
    b ∈ d.enrollmentBindings ↔ (d.record b.serviceId).binding = some b :=
  ⟨fun h => RowWrite.find_eq_some hnodup h rfl, fun h => List.mem_of_find?_eq_some h⟩

namespace Registrar

/-- One of the services is listed with a binding for this identifier. -/
def Rebinds (r : Registrar) (services : List ServiceSpec) (id : ActorId) : Prop :=
  ∃ s ∈ services, s.id? = some id ∧ ∃ row, s.bindingRow id r.resolver row

/-- Whoever has a service account that is listed for another service gets another one before the
pass comes to that service. -/
def Placeable (r : Registrar) (services : List ServiceSpec) (d : Db) : Prop :=
  ∀ before s after, services = before ++ s :: after → ∀ id row, s.id? = some id →
    s.bindingRow id r.resolver row → (d.record id).binding = some row ∨
      ∀ b ∈ d.enrollmentBindings, b.serviceId ≠ id → b.SameWorkload row →
        r.Rebinds before b.serviceId

/-- The admissions that are to change have a next revision. -/
def HasRoom (services : List ServiceSpec) (d : Db) : Prop :=
  ∀ s ∈ services, ∀ id, s.id? = some id → ∀ current ∈ (d.record id).admission,
    current.communicationEnabled ≠ s.communicationEnabled → current.revision + 1 < 2 ^ 63

/-- Two services are listed with different service accounts. -/
def Apart (s s' : ServiceSpec) : Prop :=
  ∀ workloadNamespace ∈ s.workloadNamespace, ∀ serviceAccount ∈ s.serviceAccount,
    ¬ (s'.workloadNamespace = some workloadNamespace ∧ s'.serviceAccount = some serviceAccount)

/-- Such services have bindings for different service accounts. -/
theorem Apart.not_sameWorkload {r : Registrar} {s s' : ServiceSpec} {id id' : ActorId}
    {row row' : EnrollmentBindingRow} (h : Apart s s') (hrow : s.bindingRow id r.resolver row)
    (hrow' : s'.bindingRow id' r.resolver row') : ¬ row.SameWorkload row' := by
  obtain ⟨_, hnamespace, _, haccount, _, -, rfl⟩ := hrow
  obtain ⟨_, hnamespace', _, haccount', _, -, rfl⟩ := hrow'
  rintro ⟨hn, ha, -⟩
  exact h _ hnamespace _ haccount
    ⟨hnamespace'.trans (congrArg some hn.symm), haccount'.trans (congrArg some ha.symm)⟩

/-- A service that comes in front rebinds no other one. -/
theorem rebinds_cons {r : Registrar} {s : ServiceSpec} {services : List ServiceSpec}
    {id : ActorId} :
    r.Rebinds (s :: services) id ↔
      (s.id? = some id ∧ ∃ row, s.bindingRow id r.resolver row) ∨ r.Rebinds services id := by
  constructor
  · rintro ⟨s', hs', h⟩
    rcases List.mem_cons.mp hs' with rfl | hs'
    · exact .inl h
    · exact .inr ⟨s', hs', h⟩
  · rintro (h | ⟨s', hs', h⟩)
    · exact ⟨s, List.mem_cons_self, h⟩
    · exact ⟨s', List.mem_cons_of_mem _ hs', h⟩

/-- What is left to place after the first service. -/
theorem placeable_cons {r : Registrar} {i : ℕ} {s : ServiceSpec} {services : List ServiceSpec}
    {id : ActorId} {d d' : Db} {applied : List Str} (hserves : r.Serves i s id d d' applied)
    (hnodup : (d.enrollmentBindings.map EnrollmentBindingRow.serviceId).Nodup)
    (hnew : id ∉ services.filterMap ServiceSpec.id?) (hapart : ∀ s' ∈ services, Apart s s') :
    r.Placeable (s :: services) d ↔ r.Placeable services d' := by
  have hnodup' := hserves.nodup hnodup
  have hid := hserves.reconciles.listed
  -- The bindings of the other services stay; that of this one is the listed one, or stays too.
  have hother : ∀ b : EnrollmentBindingRow, b.serviceId ≠ id →
      (b ∈ d'.enrollmentBindings ↔ b ∈ d.enrollmentBindings) := by
    intro b hne
    rw [Db.mem_enrollmentBindings hnodup', Db.mem_enrollmentBindings hnodup,
      hserves.record_of_ne hne.symm]
  have hunlisted : (s.workloadNamespace = none ∨ s.serviceAccount = none) →
      ∀ b : EnrollmentBindingRow, b.serviceId = id →
        (b ∈ d'.enrollmentBindings ↔ b ∈ d.enrollmentBindings) := by
    intro hnone b hb
    rw [Db.mem_enrollmentBindings hnodup', Db.mem_enrollmentBindings hnodup, hb,
      hserves.unlisted hnone]
  constructor
  · rintro h before s' after rfl id' row hid' hrow
    have hs' : s' ∈ before ++ s' :: after := List.mem_append_right _ List.mem_cons_self
    have hne : id ≠ id' := fun heq => hnew (List.mem_filterMap.mpr ⟨s', hs', heq ▸ hid'⟩)
    rw [hserves.record_of_ne hne]
    refine (h (s :: before) s' after rfl id' row hid' hrow).imp_right
      fun hothers b hb hbne hsame => ?_
    by_cases hown : b.serviceId = id
    · rcases hserves.reconciles.binding with hnone | ⟨brow, hlisted, hfound, -⟩
      · have hrebinds := hothers b ((hunlisted hnone b hown).mp hb) hbne hsame
        refine (rebinds_cons.mp hrebinds).resolve_left fun ⟨_, _, hlisted⟩ => ?_
        exact hlisted.not_unlisted hnone
      · have hbinding := (Db.mem_enrollmentBindings hnodup').mp hb
        rw [hown, hfound] at hbinding
        obtain rfl := Option.some.inj hbinding
        exact absurd hsame ((hapart s' hs').not_sameWorkload hlisted hrow)
    · have hrebinds := hothers b ((hother b hown).mp hb) hbne hsame
      refine (rebinds_cons.mp hrebinds).resolve_left fun ⟨hid'', _⟩ => ?_
      exact hown (Option.some.inj (hid''.symm.trans hid))
  · intro h before s' after heq id' row hid' hrow
    cases before with
    | nil =>
      obtain ⟨rfl, rfl⟩ := List.cons.inj heq
      obtain rfl := Option.some.inj (hid'.symm.trans hid)
      refine (hserves.placed row hrow).imp_right fun hworkload b hb hbne hsame => ?_
      rw [Db.checkWorkload_eq_ok, hrow.serviceId_eq] at hworkload
      exact absurd hsame (hworkload b hb hbne)
    | cons first before =>
      obtain ⟨rfl, rfl⟩ := List.cons.inj heq
      have hs' : s' ∈ before ++ s' :: after := List.mem_append_right _ List.mem_cons_self
      have hne : id ≠ id' := fun heq => hnew (List.mem_filterMap.mpr ⟨s', hs', heq ▸ hid'⟩)
      have hplaced := h before s' after rfl id' row hid' hrow
      rw [hserves.record_of_ne hne] at hplaced
      refine hplaced.imp_right fun hothers b hb hbne hsame => rebinds_cons.mpr ?_
      by_cases hown : b.serviceId = id
      · rcases hserves.reconciles.binding with hnone | ⟨brow, hlisted, -⟩
        · exact .inr (hothers b ((hunlisted hnone b hown).mpr hb) hbne hsame)
        · rw [hown]
          exact .inl ⟨hid, brow, hlisted⟩
      · exact .inr (hothers b ((hother b hown).mpr hb) hbne hsame)

/-! ## The pass -/

/-- The UUIDs that a pass draws for grants, from the place `i` on, are new and differ from each
other. -/
structure DrawsGrants (r : Registrar) (i : ℕ) (services : List ServiceSpec) (d : Db) : Prop where
  undrawn : ∀ j s, services[j]? = some s → ∀ k < s.grants.length, r.Undrawn (i + j) k d
  distinct : ∀ j j' s s' k k', services[j]? = some s → services[j']? = some s' →
    k < s.grants.length → k' < s'.grants.length → (j, k) ≠ (j', k') →
      r.grantId (i + j) k ≠ r.grantId (i + j') k' ∧
        r.grantCorrelation (i + j) k ≠ r.grantCorrelation (i + j') k'

/-- They still are once the first service has got its grants. -/
theorem DrawsGrants.tail {r : Registrar} {i : ℕ} {s : ServiceSpec} {services : List ServiceSpec}
    {id : ActorId} {d d' : Db} {applied : List Str} (h : r.DrawsGrants i (s :: services) d)
    (hserves : r.Serves i s id d d' applied) : r.DrawsGrants (i + 1) services d' := by
  refine ⟨fun j s' hs' k hk e he => ?_, fun j j' s' s'' k k' hs' hs'' hk hk' hne => ?_⟩
  · rw [Nat.add_right_comm]
    obtain ⟨new, hgrants, hdrawn⟩ := hserves.drawn
    rw [hgrants] at he
    rcases List.mem_append.mp he with he | he
    · exact h.undrawn (j + 1) s' hs' k hk e he
    · obtain ⟨k₀, hk₀, hid, hcorrelation⟩ := hdrawn e he
      rw [hid, hcorrelation]
      exact h.distinct 0 (j + 1) s s' k₀ k rfl hs' hk₀ hk fun heq => by cases heq
  · rw [Nat.add_right_comm, Nat.add_right_comm i 1 j']
    exact h.distinct (j + 1) (j' + 1) s' s'' k k' hs' hs'' hk hk' fun heq => hne (by
      obtain ⟨hj, rfl⟩ := Prod.mk.inj heq
      rw [Nat.succ_inj.mp hj])

/-- What a pass finds of the listed services: nothing is later than its clock, and it draws no UUID
of theirs. -/
structure Timely (r : Registrar) (services : List ServiceSpec) (d : Db) : Prop where
  clock : ∀ s ∈ services, ∀ id, s.id? = some id → ∀ row ∈ (d.record id).admission,
    row.updatedAt ≤ r.now
  fresh : ∀ s ∈ services, ∀ id, s.id? = some id → ∀ i, r.Fresh i (d.record id)
  repeats : ∀ s ∈ services, ∀ id, s.id? = some id → ∀ h ∈ (d.record id).history, ∀ i,
    h.correlationId ∉ r.admissionRepeats i

/-- The loop over the services succeeds if and only if each service account is free in time, and the
admissions have room. -/
theorem exec_reconcileServices_ok_iff {r : Registrar}
    (hmetadata : checkMetadata r.administrator "registrar reconciliation".toList r.now = true)
    (services : List ServiceSpec) : ∀ {i : ℕ} {changes : ServiceChanges} {d : Db}, d.Sound →
      (∀ s ∈ services, r.Accepts s) → (services.filterMap ServiceSpec.id?).Nodup →
      services.Pairwise Apart → r.Timely services d → r.DrawsGrants i services d →
      ((∃ d' ws answer, (r.reconcileServices i services changes).run.exec store d [] =
          ⟨d', ws, .ok answer⟩) ↔ r.Placeable services d ∧ HasRoom services d) := by
  induction services with
  | nil =>
    intro i changes d _ _ _ _ _ _
    refine iff_of_true ⟨_, _, _, rfl⟩ ⟨fun before s after heq => ?_, fun s hs => ?_⟩
    · cases before <;> cases heq
    · cases hs
  | cons s services ih =>
    intro i changes d hsound haccepts hids hapart htimely hdraws
    obtain ⟨row, hrow⟩ := (haccepts s List.mem_cons_self).identity
    have hid := (ServiceSpec.identityRow_eq_ok hrow).1
    obtain ⟨hapart₀, hapart⟩ := List.pairwise_cons.mp hapart
    rw [List.filterMap_cons_some hid, List.nodup_cons] at hids
    obtain ⟨hnew, hids⟩ := hids
    have hne : ∀ s' ∈ services, ∀ id', s'.id? = some id' → row.id ≠ id' :=
      fun s' hs' id' hid' heq =>
      hnew (List.mem_filterMap.mpr ⟨s', hs', heq ▸ hid'⟩)
    -- Once the first service is done, the others are left as they were.
    have hrest : ∀ d₁ applied, r.Serves i s row.id d d₁ applied →
        ((∃ d' ws answer, (r.reconcileServices (i + 1) services
            (changes.insert s.displayName applied)).run.exec store d₁ [] = ⟨d', ws, .ok answer⟩) ↔
          r.Placeable (s :: services) d ∧ HasRoom services d) := by
      intro d₁ applied hserves
      have hrecord : ∀ s' ∈ services, ∀ id', s'.id? = some id' → d₁.record id' = d.record id' :=
        fun s' hs' id' hid' => hserves.record_of_ne (hne s' hs' id' hid')
      have htimely₁ : r.Timely services d₁ := by
        refine ⟨fun s' hs' id' hid' => ?_, fun s' hs' id' hid' => ?_, fun s' hs' id' hid' => ?_⟩
        · rw [hrecord s' hs' id' hid']
          exact htimely.clock s' (List.mem_cons_of_mem _ hs') id' hid'
        · rw [hrecord s' hs' id' hid']
          exact htimely.fresh s' (List.mem_cons_of_mem _ hs') id' hid'
        · rw [hrecord s' hs' id' hid']
          exact htimely.repeats s' (List.mem_cons_of_mem _ hs') id' hid'
      rw [ih (hserves.sound hsound) (fun s' hs' => haccepts s' (List.mem_cons_of_mem _ hs')) hids
        hapart htimely₁ (hdraws.tail hserves), placeable_cons hserves hsound.nodup hnew hapart₀]
      refine and_congr_right fun _ => forall_congr' fun s' => forall_congr' fun hs' =>
        forall_congr' fun id' => forall_congr' fun hid' => ?_
      rw [hrecord s' hs' id' hid']
    have hservice : ∀ d₁ ws₁ applied,
        (r.reconcileService i s).run.exec store d [] = ⟨d₁, ws₁, .ok applied⟩ →
          ws₁ = [] ∧ r.Serves i s row.id d d₁ applied := by
      intro d₁ ws₁ applied hexec
      obtain ⟨hws, id, hserves⟩ := exec_reconcileService
        (fun id hid => htimely.fresh s List.mem_cons_self id hid i) hexec
      obtain rfl := Option.some.inj (hserves.reconciles.listed.symm.trans hid)
      exact ⟨hws, hserves⟩
    constructor
    · rintro ⟨d', ws, answer, hexec⟩
      obtain ⟨d₁, ws₁, applied, hfirst, hloop⟩ := Postgres.Proc.exec_run_bind_eq_ok.mp hexec
      obtain ⟨rfl, hserves⟩ := hservice d₁ ws₁ applied hfirst
      obtain ⟨hplaceable, hroom⟩ := (hrest d₁ applied hserves).mp ⟨d', ws, answer, hloop⟩
      refine ⟨hplaceable, List.forall_mem_cons.mpr ⟨fun id' hid' => ?_, hroom⟩⟩
      obtain rfl := Option.some.inj (hid.symm.trans hid')
      exact hserves.room
    · rintro ⟨hplaceable, hroom⟩
      have hfits : r.Fits i s row.id d := by
        refine ⟨htimely.clock s List.mem_cons_self row.id hid, fun h hh => ⟨?_, ?_⟩,
          hdraws.undrawn 0 s rfl, fun k k' hlt hk' => ?_, fun brow hbrow => ?_,
          hroom s List.mem_cons_self row.id hid⟩
        · exact (htimely.fresh s List.mem_cons_self row.id hid i).admission h hh
        · exact htimely.repeats s List.mem_cons_self row.id hid h hh i
        · exact hdraws.distinct 0 0 s s k k' rfl rfl (hlt.trans hk') hk' fun heq =>
            hlt.ne (Prod.mk.inj heq).2
        · refine (hplaceable [] s services rfl row.id brow hid hbrow).imp_right fun hothers => ?_
          rw [Db.checkWorkload_eq_ok, hbrow.serviceId_eq]
          intro b hb hbne hsame
          obtain ⟨_, hmem, -⟩ := hothers b hb hbne hsame
          exact List.not_mem_nil hmem
      obtain ⟨d₁, ws₁, applied, hfirst⟩ :=
        exec_reconcileService_ok hmetadata (haccepts s List.mem_cons_self) hsound hid hfits
      obtain ⟨rfl, hserves⟩ := hservice d₁ ws₁ applied hfirst
      obtain ⟨d', ws, answer, hloop⟩ := (hrest d₁ applied hserves).mpr
        ⟨hplaceable, fun s' hs' => hroom s' (List.mem_cons_of_mem _ hs')⟩
      exact ⟨d', ws, answer, Postgres.Proc.exec_run_bind_eq_ok.mpr ⟨d₁, [], applied, hfirst, hloop⟩⟩

/-- A pass over a well-formed manifest succeeds if and only if each service account is free when its
turn comes, and the admissions that are to change have a next revision. -/
theorem reconcile_succeeds_iff {r : Registrar} {manifest : Manifest} {d : Db} (hsound : d.Sound)
    (hmetadata : checkMetadata r.administrator "registrar reconciliation".toList r.now = true)
    (haccepts : ∀ s ∈ manifest.services, r.Accepts s)
    (hids : (manifest.services.filterMap ServiceSpec.id?).Nodup)
    (hapart : manifest.services.Pairwise Apart)
    (hclock : ∀ row ∈ d.admissions, row.updatedAt ≤ r.now)
    (hdraws : r.Draws d) (hgrants : r.DrawsGrants 0 manifest.services d) :
    (∃ d' ws changes, (r.reconcile manifest).run.exec store d [] = ⟨d', ws, .ok changes⟩) ↔
      r.Placeable manifest.services d ∧ HasRoom manifest.services d := by
  have htimely : r.Timely manifest.services d := by
    refine ⟨fun s _ id _ row hrow => hclock row (List.mem_of_find?_eq_some hrow),
      fun s _ id _ i => hdraws.fresh i id, fun s _ id _ h hh i => ?_⟩
    exact (hdraws.admission h (List.mem_filter.mp hh).1 i).2
  exact exec_reconcileServices_ok_iff hmetadata manifest.services hsound haccepts hids hapart
    htimely hgrants

/-- The loop over the services keeps the database sound, when it succeeds. -/
theorem sound_of_exec_reconcileServices {r : Registrar} (services : List ServiceSpec) :
    ∀ {i : ℕ} {changes answer : ServiceChanges} {d d' : Db} {ws : List Write}, d.Sound →
      (services.filterMap ServiceSpec.id?).Nodup →
      (∀ s ∈ services, ∀ id, s.id? = some id → ∀ i, r.Fresh i (d.record id)) →
      (r.reconcileServices i services changes).run.exec store d [] = ⟨d', ws, .ok answer⟩ →
      d'.Sound := by
  induction services with
  | nil =>
    intro i changes answer d d' ws hsound _ _ hexec
    obtain ⟨rfl, -, -⟩ := Postgres.Outcome.mk.inj hexec
    exact hsound
  | cons s services ih =>
    intro i changes answer d d' ws hsound hids hfresh hexec
    obtain ⟨d₁, ws₁, applied, hfirst, hloop⟩ := Postgres.Proc.exec_run_bind_eq_ok.mp hexec
    obtain ⟨rfl, id, hserves⟩ := exec_reconcileService
      (fun id hid => hfresh s List.mem_cons_self id hid i) hfirst
    have hid := hserves.reconciles.listed
    rw [List.filterMap_cons_some hid, List.nodup_cons] at hids
    refine ih (hserves.sound hsound) hids.2 (fun s' hs' id' hid' => ?_) hloop
    have hne : id ≠ id' := fun heq => hids.1 (List.mem_filterMap.mpr ⟨s', hs', heq ▸ hid'⟩)
    rw [hserves.record_of_ne hne]
    exact hfresh s' (List.mem_cons_of_mem _ hs') id' hid'

/-- The database as the migrations leave it. -/
def migrated : Db where
  schemaVersions := Authority.reservedSchemas.schemaVersions

/-- The databases that passes of the registrar have made of it. -/
inductive Deployed : Db → Prop where
  | migrated : Deployed migrated
  | pass {r : Registrar} {manifest : Manifest} {d d' : Db} {ws : List Write}
      {changes : ServiceChanges} (h : Deployed d)
      (hids : (manifest.services.filterMap ServiceSpec.id?).Nodup) (hdraws : r.Draws d)
      (hexec : (r.reconcile manifest).run.exec store d [] = ⟨d', ws, .ok changes⟩) : Deployed d'

/-- They are sound. -/
theorem Deployed.sound {d : Db} (h : Deployed d) : d.Sound := by
  induction h with
  | migrated =>
    refine ⟨fun id => rfl, fun id row hrow => ?_, List.nodup_nil, ⟨by decide, by decide⟩⟩
    cases hrow
  | pass _ hids hdraws hexec ih =>
    exact sound_of_exec_reconcileServices _ ih hids (fun _ _ id _ i => hdraws.fresh i id) hexec

/-- A database with two services that are bound to the service accounts `x` and `y`. -/
def twoBound : Db where
  identityRows := [⟨⟨1⟩, .service, ['a'], .active⟩, ⟨⟨2⟩, .service, ['b'], .active⟩]
  admissions := [⟨⟨1⟩, false, 0, 0⟩, ⟨⟨2⟩, false, 0, 0⟩]
  enrollmentBindings := [⟨⟨1⟩, ['n'], ['x'], ['u'], true⟩, ⟨⟨2⟩, ['n'], ['y'], ['v'], true⟩]
  schemaVersions := Authority.reservedSchemas.schemaVersions

/-- It is sound. -/
theorem twoBound_sound : twoBound.Sound := by
  refine ⟨fun id => ?_, fun id row hrow => ?_, by decide, ⟨by decide, by decide⟩⟩
  · rw [Bool.eq_iff_iff, Db.record, List.find?_isSome, List.find?_isSome]
    simp [twoBound]
  · have hmem := List.mem_of_find?_eq_some hrow
    simp only [twoBound, List.mem_cons, List.not_mem_nil, or_false] at hmem
    rcases hmem with rfl | rfl <;> exact le_rfl

/-- Three service accounts of one namespace, each with a UID of its own. -/
def accountUid (workloadNamespace serviceAccount : Str) : Except RegistrarError Str :=
  if workloadNamespace = ['n'] ∧ serviceAccount = ['x'] then .ok ['u']
  else if workloadNamespace = ['n'] ∧ serviceAccount = ['y'] then .ok ['v']
  else if workloadNamespace = ['n'] ∧ serviceAccount = ['z'] then .ok ['w']
  else .error (.kubernetes [])

/-- The accounts of the example have identifiers of their own. -/
theorem accountUid_injective (n a n' a' uid : Str) (h : accountUid n a = .ok uid)
    (h' : accountUid n' a' = .ok uid) : n = n' ∧ a = a' := by
  unfold accountUid at h h'
  grind

/-- A pass at the time 10 that can resolve them. -/
def passAccounts : Registrar := { passAtTen with resolver := accountUid }

/-- A service that is listed with a service account, without grants. -/
def boundService (serviceId : Str) (displayName : Char) (serviceAccount : Char) : ServiceSpec where
  serviceId := serviceId
  kind := "service".toList
  displayName := [displayName]
  workloadNamespace := some ['n']
  serviceAccount := some [serviceAccount]
  communicationEnabled := false
  grants := []

/-- Such a service is well formed, if its identifier is and the service account has a UID. -/
theorem boundService_accepts {r : Registrar} {serviceId : Str}
    {displayName serviceAccount uid : Char} (hidentity : ∃ row,
      (boundService serviceId displayName serviceAccount).identityRow = .ok row)
    (huid : r.resolver ['n'] [serviceAccount] = .ok [uid])
    (hcheck : ∀ id, EnrollmentBindingRow.check ⟨id, ['n'], [serviceAccount], [uid], true⟩ = .ok
      ()) :
    r.Accepts (boundService serviceId displayName serviceAccount) := by
  refine ⟨hidentity, fun workloadNamespace hn account ha => ?_, fun id row hrow => ?_,
    fun g hg => ?_⟩
  · obtain rfl := Option.some.inj hn
    obtain rfl := Option.some.inj ha
    exact ⟨_, huid⟩
  · obtain ⟨_, hn, _, ha, uid', huid', rfl⟩ := hrow
    obtain rfl := Option.some.inj hn
    obtain rfl := Option.some.inj ha
    obtain rfl := Except.ok.inj (huid.symm.trans huid')
    exact hcheck id
  · cases hg

/-- The two services with the given service accounts. -/
def twoServices (first second : Char) : Manifest where
  services := [boundService "00000000-0000-0000-0000-000000000001".toList 'a' first,
    boundService "00000000-0000-0000-0000-000000000002".toList 'b' second]

/-- They are well formed. -/
theorem twoServices_accepts {r : Registrar} (hresolver : r.resolver = accountUid)
    {first second : Char} (hfirst : first ∈ ['x', 'y', 'z']) (hsecond : second ∈ ['x', 'y', 'z']) :
    ∀ s ∈ (twoServices first second).services, r.Accepts s := by
  have huid : ∀ account ∈ ['x', 'y', 'z'], ∃ uid ∈ ['u', 'v', 'w'],
      r.resolver ['n'] [account] = .ok [uid] := by
    intro account haccount
    rw [hresolver]
    simp only [List.mem_cons, List.not_mem_nil, or_false] at haccount
    rcases haccount with rfl | rfl | rfl
    exacts [⟨'u', by decide, rfl⟩, ⟨'v', by decide, rfl⟩, ⟨'w', by decide, rfl⟩]
  have hcheck : ∀ account ∈ ['x', 'y', 'z'], ∀ uid ∈ ['u', 'v', 'w'], ∀ id,
      EnrollmentBindingRow.check ⟨id, ['n'], [account], [uid], true⟩ = .ok () := by
    intro account haccount uid huid id
    simp only [List.mem_cons, List.not_mem_nil, or_false] at haccount huid
    rcases haccount with rfl | rfl | rfl <;> rcases huid with rfl | rfl | rfl <;> rfl
  obtain ⟨uid₁, hmem₁, huid₁⟩ := huid first hfirst
  obtain ⟨uid₂, hmem₂, huid₂⟩ := huid second hsecond
  refine List.forall_mem_cons.mpr ⟨?_, List.forall_mem_singleton.mpr ?_⟩
  · exact boundService_accepts ⟨⟨⟨1⟩, .service, ['a'], .active⟩, rfl⟩ huid₁
      (hcheck first hfirst uid₁ hmem₁)
  · exact boundService_accepts ⟨⟨⟨2⟩, .service, ['b'], .active⟩, rfl⟩ huid₂
      (hcheck second hsecond uid₂ hmem₂)

/-- They have different service accounts, if the given ones differ. -/
theorem twoServices_apart {first second : Char} (hne : first ≠ second) :
    (twoServices first second).services.Pairwise Apart := by
  refine List.pairwise_pair.mpr fun workloadNamespace hn account ha hboth => ?_
  obtain rfl := Option.some.inj ha
  exact hne (List.cons.inj (Option.some.inj hboth.2)).1.symm

/-- A pass draws no UUIDs for grants that are not listed. -/
theorem drawsGrants_twoServices (r : Registrar) (first second : Char) (d : Db) :
    r.DrawsGrants 0 (twoServices first second).services d := by
  have hnone : ∀ (j : ℕ) (s : ServiceSpec), (twoServices first second).services[j]? = some s →
      ∀ k, ¬ k < s.grants.length := by
    intro j s hs k
    have hmem := List.mem_of_getElem? hs
    simp only [twoServices, List.mem_cons, List.not_mem_nil, or_false] at hmem
    rcases hmem with rfl | rfl <;> exact Nat.not_lt_zero k
  exact ⟨fun j s hs k hk => absurd hk (hnone j s hs k),
    fun j _ s _ k _ hs _ hk => absurd hk (hnone j s hs k)⟩

/-- The first of the two services gives the service account that the second one gets. -/
theorem reconcile_succeeds_chain : ∃ d' ws changes,
    (passAccounts.reconcile (twoServices 'z' 'x')).run.exec store twoBound [] =
      ⟨d', ws, .ok changes⟩ := by
  have hids : ((twoServices 'z' 'x').services.filterMap ServiceSpec.id?).Nodup := by decide +kernel
  have hdraws : passAccounts.Draws twoBound :=
    ⟨fun h hh => absurd hh List.not_mem_nil, fun e he => absurd he List.not_mem_nil⟩
  have hfirst : (boundService "00000000-0000-0000-0000-000000000001".toList 'a' 'z').id? =
      some ⟨1⟩ := by
    decide +kernel
  have hsecond : (boundService "00000000-0000-0000-0000-000000000002".toList 'b' 'x').id? =
      some ⟨2⟩ := by
    decide +kernel
  refine (reconcile_succeeds_iff twoBound_sound (by decide +kernel)
    (twoServices_accepts rfl (by decide) (by decide)) hids (twoServices_apart (by decide))
    (by decide) hdraws (drawsGrants_twoServices ..)).mpr ⟨?_, ?_⟩
  · intro before s after heq id row hid hrow
    refine .inr fun b hb hne hsame => ?_
    simp only [twoBound, List.mem_cons, List.not_mem_nil, or_false] at hb
    obtain ⟨_, -, _, haccount, _, -, rfl⟩ := hrow
    match before, heq with
    | [], heq =>
      obtain ⟨rfl, -⟩ := List.cons.inj heq
      obtain rfl := Option.some.inj haccount
      have haccount : b.serviceAccount = ['z'] := hsame.2.1
      -- No service has the account z.
      rcases hb with rfl | rfl <;> exact absurd haccount (by decide)
    | [_], heq =>
      obtain ⟨rfl, htail⟩ := List.cons.inj heq
      obtain ⟨rfl, -⟩ := List.cons.inj htail
      rw [hsecond] at hid
      obtain rfl := Option.some.inj hid
      rcases hb with rfl | rfl
      · exact ⟨_, List.mem_cons_self, hfirst, _, _, rfl, _, rfl, _, rfl, rfl⟩
      · exact absurd rfl hne
    | _ :: _ :: before, heq =>
      obtain ⟨-, htail⟩ := List.cons.inj heq
      obtain ⟨-, htail⟩ := List.cons.inj htail
      cases before <;> cases htail
  · intro s hs id hid current hcurrent hchanged
    simp only [twoServices, List.mem_cons, List.not_mem_nil, or_false] at hs
    have hmem := List.mem_of_find?_eq_some hcurrent
    simp only [twoBound, List.mem_cons, List.not_mem_nil, or_false] at hmem
    rcases hmem with rfl | rfl <;> decide

/-- Two services do not get each other's service account, as each finds the other one bound to
it. -/
theorem swap_fails : ¬ ∀ d, Deployed d → ∀ (r : Registrar) (manifest : Manifest),
    checkMetadata r.administrator "registrar reconciliation".toList r.now = true →
    (∀ s ∈ manifest.services, r.Accepts s) → (manifest.services.filterMap ServiceSpec.id?).Nodup →
    manifest.services.Pairwise Apart → (∀ row ∈ d.admissions, row.updatedAt ≤ r.now) → r.Draws d →
    r.DrawsGrants 0 manifest.services d →
    (∀ n a n' a' uid, r.resolver n a = .ok uid → r.resolver n' a' = .ok uid → n = n' ∧ a = a') →
    ∃ d' ws changes, (r.reconcile manifest).run.exec store d [] = ⟨d', ws, .ok changes⟩ := by
  intro h
  let r : Registrar := { passAccounts with
    admissionCorrelation := fun _ => 200, admissionRepeats := fun _ => [201, 202, 203] }
  -- The first pass binds the two services to the accounts `x` and `y`.
  have hfirst : ((passAccounts.reconcile (twoServices 'x' 'y')).run.exec store migrated
      []).result.isOk = true := by decide +kernel
  rcases hexec : (passAccounts.reconcile (twoServices 'x' 'y')).run.exec store migrated [] with
    ⟨d, ws, er | changes⟩
  · rw [hexec] at hfirst
    cases hfirst
  have hd : d = ((passAccounts.reconcile (twoServices 'x' 'y')).run.exec store migrated []).db := by
    rw [hexec]
  have hdeployed : Deployed d := .pass .migrated (by decide +kernel)
    ⟨fun h hh => absurd hh List.not_mem_nil, fun e he => absurd he List.not_mem_nil⟩ hexec
  have hhistory : ∀ e ∈ d.admissionHistory,
      e.correlationId ≠ 200 ∧ e.correlationId ∉ ([201, 202, 203] : List Uuid) := by
    rw [hd]
    decide +kernel
  have hgrants : d.grants = [] := by
    rw [hd]
    decide +kernel
  -- The second one swaps them: the first service takes an account that the other still has.
  obtain ⟨d', ws', changes', hok⟩ := h d hdeployed r (twoServices 'y' 'x') (by decide +kernel)
    (twoServices_accepts rfl (by decide) (by decide)) (by decide +kernel)
    (twoServices_apart (by decide)) (by rw [hd]; decide +kernel)
    ⟨fun e he _ => hhistory e he, fun e he => by rw [hgrants] at he; cases he⟩
    (drawsGrants_twoServices ..) accountUid_injective
  have hfails : ((r.reconcile (twoServices 'y' 'x')).run.exec store d []).result.isOk = false := by
    rw [hd]
    decide +kernel
  rw [hok] at hfails
  cases hfails

end Registrar

end InfernalLaw
