import InfernalLaw.Runs.Registrar

/-!
# A repeated pass of the registrar

A pass over a database that is settled for the manifest changes nothing but the history of admission
changes, to which every call of the administrative function adds a row, and reports nothing. What
the first pass leaves is settled, as long as no grant runs out in between.
-/

namespace InfernalLaw

open Postgres (DbError RowWrite Store)
open Postgres.Proc (Upserted autocommit ensure orFail upsert)

namespace Registrar

/-- The record of a service is as a pass leaves it. -/
structure Settled (r : Registrar) (s : ServiceSpec) (id : ActorId) (c : ServiceRecord) : Prop where
  identity : ∃ row, s.identityRow = .ok row ∧ row.id = id ∧ c.identity = some row
  binding : (s.workloadNamespace = none ∨ s.serviceAccount = none) ∨
    ∃ row, s.bindingRow id r.resolver row ∧ c.binding = some row ∧ row.check = .ok ()
  admission : ∃ row, c.admission = some row ∧ row.communicationEnabled = s.communicationEnabled ∧
    row.updatedAt ≤ r.now ∧ 0 ≤ row.revision
  metadata : checkMetadata r.administrator "registrar reconciliation".toList r.now = true
  texts : ∀ g ∈ s.grants, checkText g.action = .ok () ∧ checkText g.scope = .ok ()
  grants : ∀ g ∈ s.grants, ∃ e ∈ c.grants, e.Live id g r.now

/-- What a pass leaves is settled for a later one. -/
theorem Reconciles.settled {r r' : Registrar} {s : ServiceSpec} {id : ActorId}
    {c c' : ServiceRecord} (h : r.Reconciles s id c c') (hresolver : r'.resolver = r.resolver)
    (hadministrator : r'.administrator = r.administrator) (hnow : r.now ≤ r'.now)
    (hclock : ∀ e ∈ c'.grants, ∀ limit ∈ e.validUntil, r.now < limit → r'.now < limit) :
    r'.Settled s id c' where
  identity := h.identity
  binding := hresolver ▸ h.binding
  admission := by
    obtain ⟨row, hrow, henabled, htime, hrevision⟩ := h.admission
    exact ⟨row, hrow, henabled, htime.trans hnow, hrevision⟩
  metadata := by
    have hmetadata := h.metadata
    simp only [checkMetadata, hadministrator, Bool.and_eq_true, decide_eq_true_eq] at hmetadata ⊢
    exact ⟨hmetadata.1, hmetadata.2.trans hnow⟩
  texts := h.texts
  grants := by
    intro g hg
    obtain ⟨new, hnew, -, hcomplete⟩ := h.grants
    -- A grant that was live before, or the one that has been created.
    obtain ⟨e, he, hlive⟩ : ∃ e ∈ c'.grants, e.Live id g r.now := by
      by_cases hdead : ∀ e ∈ c.grants, ¬ e.Live id g r.now
      · obtain ⟨row, hrow, hcreated⟩ := hcomplete g hg hdead
        exact ⟨row, hnew ▸ List.mem_append_right _ hrow, hcreated.live⟩
      · push Not at hdead
        obtain ⟨e, he, hlive⟩ := hdead
        exact ⟨e, hnew ▸ List.mem_append_left _ he, hlive⟩
    obtain ⟨hsource, haction, hscope, hdestination, hrevoked, huntil⟩ := hlive
    exact ⟨e, he, hsource, haction, hscope, hdestination, hrevoked,
      fun limit hlimit => hclock e he limit hlimit (huntil limit hlimit)⟩

end Registrar

/-! ## The steps of a repeated pass -/

/-- An identity that is there already is left alone. -/
theorem exec_upsertIdentity_settled {row : IdentityRow} {now : ℤ} {d : Db}
    (h : (d.record row.id).identity = some row) :
    (upsertIdentity row now).run.exec store d [] = ⟨d, [], .ok .unchanged⟩ := by
  have hfind : d.identityRows.find? (fun r => r.id = row.id) = some row := h
  have hrow : (upsertIdentityRow row).exec store d [] = ⟨d, [], .ok .unchanged⟩ := by
    simp [upsertIdentityRow, upsert, Postgres.Proc.upsertOutcome, hfind, Except.map]
  exact Postgres.Proc.exec_run_bind_eq_ok.mpr
    ⟨d, [], .unchanged, Postgres.Proc.exec_orFail_eq_ok.mpr hrow, rfl⟩

/-- So is a binding. -/
theorem exec_reconcileBinding_settled {r : Registrar} {id : ActorId} {s : ServiceSpec} {d : Db}
    (h : (s.workloadNamespace = none ∨ s.serviceAccount = none) ∨
      ∃ row, s.bindingRow id r.resolver row ∧ (d.record id).binding = some row ∧
        row.check = .ok ()) :
    (r.reconcileBinding id s).run.exec store d [] = ⟨d, [], .ok []⟩ := by
  unfold Registrar.reconcileBinding
  rcases h with (hnone | hnone) | ⟨row, hlisted, hbinding, hcheck⟩
  · rw [hnone]
    rfl
  · rw [hnone]
    cases s.workloadNamespace <;> rfl
  · obtain ⟨workloadNamespace, hnamespace, serviceAccount, haccount, uid, huid, rfl⟩ := hlisted
    rw [Option.mem_def.mp hnamespace, Option.mem_def.mp haccount]
    have hfind : d.enrollmentBindings.find? (fun r => r.serviceId = id) =
        some ⟨id, workloadNamespace, serviceAccount, uid, true⟩ := hbinding
    have hupsert : (upsertBinding ⟨id, workloadNamespace, serviceAccount, uid, true⟩).exec store d
        [] = ⟨d, [], .ok .unchanged⟩ := by
      simp [upsertBinding, upsert, Postgres.Proc.upsertOutcome, hfind, Except.map, hcheck, bind,
        Except.bind, pure, Except.pure]
    refine Postgres.Proc.exec_run_bind_eq_ok.mpr
      ⟨d, [], uid, Postgres.Proc.exec_ensure_eq_ok.mpr ⟨rfl, rfl, huid⟩, ?_⟩
    refine Postgres.Proc.exec_run_bind_eq_ok.mpr ⟨d, [], .unchanged, ?_, rfl⟩
    exact Postgres.Proc.exec_orFail_eq_ok.mpr
      (Postgres.Proc.exec_autocommit_eq_ok.mpr ⟨d, [], hupsert, rfl, rfl⟩)

/-- A row of the history that a request which changes nothing adds. -/
structure AdmissionRequest.Echo (r : AdmissionRequest) (h : AdmissionHistoryRow) : Prop where
  service : h.serviceId = r.serviceId
  same : r.Repeats h
  outcome : h.outcome = .noOp

/-- A request for the admission that the service has adds at most a row to the history. Where its
UUID is taken, the row must be one of the same statement. -/
theorem exec_setServiceCommunicationAdmission_settled {r : AdmissionRequest} (d : Db)
    (ws : List Write) {current : AdmissionRow}
    (hmetadata : checkMetadata r.administratorIdentity r.reason r.changedAt = true)
    (hfind : (store.view d ws).admissions.find? (fun row => row.serviceId = r.serviceId) =
      some current)
    (henabled : current.communicationEnabled = r.enabled) (htime : current.updatedAt ≤ r.changedAt)
    (hrevision : 0 ≤ current.revision)
    (hhistory : ∀ h ∈ (store.view d ws).admissionHistory, h.serviceId = r.serviceId →
      h.correlationId = r.correlationId → r.Echo h) :
    ∃ (hs : List AdmissionHistoryRow) (a : AdmissionResult), a.outcome = .noOp ∧
      (∀ h ∈ hs, r.Echo h) ∧
      (setServiceCommunicationAdmission r).run.exec store d ws =
        ⟨d, ws ++ hs.map .admissionHistory, .ok a⟩ := by
  have hmeta := hmetadata
  simp only [checkMetadata, Bool.and_eq_true, decide_eq_true_eq] at hmeta
  unfold setServiceCommunicationAdmission
  rw [if_neg (by simp [hmetadata])]
  have hlock : (lockAdmission r.serviceId).exec store d ws = ⟨d, ws, .ok (some current)⟩ := by
    simp only [lockAdmission, Postgres.Proc.exec_selectForUpdate, hfind, Option.bind_some]
  cases hfound : (store.view d ws).admissionHistory.find? fun h =>
      h.serviceId = r.serviceId ∧ h.correlationId = r.correlationId with
  | some h =>
    -- The call is on record, and was answered that nothing changed.
    have hkeys := List.find?_some hfound
    rw [decide_eq_true_eq] at hkeys
    have hecho := hhistory h (List.mem_of_find?_eq_some hfound) hkeys.1 hkeys.2
    refine ⟨[], h.result, hecho.outcome, by simp, ?_⟩
    refine Postgres.Proc.exec_run_bind_eq_ok.mpr
      ⟨d, ws, some current, Postgres.Proc.exec_orFail_eq_ok.mpr hlock, ?_⟩
    refine Postgres.Proc.exec_run_bind_eq_ok.mpr ⟨d, ws, some h, ?_, ?_⟩
    · refine Postgres.Proc.exec_orFail_eq_ok.mpr ?_
      rw [findAdmissionHistory, Postgres.Proc.exec_query, hfound]
    · simp [hecho.same]
  | none =>
    -- The call is new, and the history records that nothing changes.
    let h := r.historyRow current.communicationEnabled current.revision .noOp
    have hecho : r.Echo h := ⟨rfl, ⟨rfl, rfl, rfl, rfl⟩, rfl⟩
    have hcheck : (store.view d ws).checkAdmissionHistory h = .ok () := by
      simp only [Db.checkAdmissionHistory, Postgres.require_bind_eq_ok, Postgres.require_eq_ok]
      refine ⟨checkTrimmed_btrim.mpr hmeta.1.1, hmeta.2, checkTrimmed_btrim.mpr hmeta.1.2,
        hrevision, fun h' hh' hservice hcorrelation => ?_⟩
      have hnone := List.find?_eq_none.mp hfound h' hh'
      rw [decide_eq_true_eq] at hnone
      exact hnone ⟨hservice, hcorrelation⟩
    refine ⟨[h], h.result, rfl, by simpa using hecho, ?_⟩
    refine Postgres.Proc.exec_run_bind_eq_ok.mpr
      ⟨d, ws, some current, Postgres.Proc.exec_orFail_eq_ok.mpr hlock, ?_⟩
    refine Postgres.Proc.exec_run_bind_eq_ok.mpr ⟨d, ws, none, ?_, ?_⟩
    · refine Postgres.Proc.exec_orFail_eq_ok.mpr ?_
      rw [findAdmissionHistory, Postgres.Proc.exec_query, hfound]
    · simp only [applyAdmission, if_neg (not_lt.mpr htime), if_pos henabled]
      refine Postgres.Proc.exec_run_bind_eq_ok.mpr ⟨d, ws ++ [.admissionHistory h], (), ?_, rfl⟩
      exact Postgres.Proc.exec_orFail_eq_ok.mpr (Postgres.Proc.exec_insert_ok hcheck)

/-- Rows of the history change nothing else. -/
theorem view_admissionHistory : ∀ (hs : List AdmissionHistoryRow) (d : Db),
    store.view d (hs.map .admissionHistory) =
      { d with admissionHistory := d.admissionHistory ++ hs }
  | [], d => by simp
  | h :: hs, d => by
    rw [List.map_cons, Store.view_cons, view_admissionHistory hs]
    simp [Db.apply]

/-- The statement about an admission, when the service has it: each of its calls adds a row to the
history, or finds the row that an earlier one has added. -/
theorem exec_setAdmission_settled {r : AdmissionRequest} (repeated : List Uuid) {d : Db}
    {current : AdmissionRow}
    (hmetadata : checkMetadata r.administratorIdentity r.reason r.changedAt = true)
    (hfind : d.admissions.find? (fun row => row.serviceId = r.serviceId) = some current)
    (henabled : current.communicationEnabled = r.enabled) (htime : current.updatedAt ≤ r.changedAt)
    (hrevision : 0 ≤ current.revision)
    (hfresh : ∀ h ∈ d.admissionHistory, h.serviceId = r.serviceId →
      h.correlationId ≠ r.correlationId ∧ h.correlationId ∉ repeated) :
    ∃ (hs : List AdmissionHistoryRow) (a : AdmissionResult), a.outcome = .noOp ∧
      (∀ h ∈ hs, r.Echo h) ∧
      (setAdmission r repeated).run.exec store d [] = ⟨d, hs.map .admissionHistory, .ok a⟩ := by
  -- The calls that are left, after some that have added the rows `hs`.
  have hcalls : ∀ (repeated : List Uuid) (hs : List AdmissionHistoryRow) (a : AdmissionResult),
      (∀ h ∈ d.admissionHistory, h.serviceId = r.serviceId → h.correlationId ∉ repeated) →
      a.outcome = .noOp → (∀ h ∈ hs, r.Echo h) →
      ∃ (hs' : List AdmissionHistoryRow) (a' : AdmissionResult), a'.outcome = .noOp ∧
        (∀ h ∈ hs', r.Echo h) ∧
        (repeated.foldlM (fun _ correlationId =>
          setServiceCommunicationAdmission { r with correlationId }) a).run.exec store d
            (hs.map .admissionHistory) = ⟨d, hs'.map .admissionHistory, .ok a'⟩ := by
    intro repeated
    induction repeated with
    | nil => exact fun hs a _ ha hecho => ⟨hs, a, ha, hecho, rfl⟩
    | cons correlationId repeated ih =>
      intro hs a hnew ha hecho
      obtain ⟨hs₁, a₁, ha₁, hecho₁, hcall⟩ := exec_setServiceCommunicationAdmission_settled
        (r := { r with correlationId }) d (hs.map .admissionHistory) hmetadata
        (by rw [view_admissionHistory]; exact hfind) henabled htime hrevision
        (by
          rw [view_admissionHistory]
          intro h hh hservice hcorrelation
          rcases List.mem_append.mp hh with hh | hh
          · exact absurd (hcorrelation ▸ List.mem_cons_self) (hnew h hh hservice)
          · obtain ⟨hservice', hsame, houtcome⟩ := hecho h hh
            exact ⟨hservice', hsame, houtcome⟩)
      obtain ⟨hs', a', ha', hecho', hrest⟩ := ih (hs ++ hs₁) a₁
        (fun h hh hservice hmem => hnew h hh hservice (List.mem_cons_of_mem _ hmem)) ha₁
        (fun h hh => by
          rcases List.mem_append.mp hh with hh | hh
          · exact hecho h hh
          · obtain ⟨hservice', hsame, houtcome⟩ := hecho₁ h hh
            exact ⟨hservice', hsame, houtcome⟩)
      refine ⟨hs', a', ha', hecho', ?_⟩
      rw [List.foldlM_cons]
      rw [List.map_append] at hrest
      exact Postgres.Proc.exec_run_bind_eq_ok.mpr ⟨d, _, a₁, hcall, hrest⟩
  obtain ⟨hs₁, a₁, ha₁, hecho₁, hcall⟩ := exec_setServiceCommunicationAdmission_settled d []
    hmetadata hfind henabled htime hrevision
    fun h hh hservice hcorrelation => absurd hcorrelation (hfresh h hh hservice).1
  obtain ⟨hs, a, ha, hecho, hrest⟩ := hcalls repeated hs₁ a₁
    (fun h hh hservice => (hfresh h hh hservice).2) ha₁ hecho₁
  exact ⟨hs, a, ha, hecho, Postgres.Proc.exec_run_bind_eq_ok.mpr ⟨d, _, a₁, hcall, hrest⟩⟩

/-- Listed grants that are live are left alone. -/
theorem exec_reconcileGrants_settled {r : Registrar} {i : ℕ} {id : ActorId} {d : Db}
    (grants : List GrantSpec) : ∀ {k : ℕ},
      (∀ g ∈ grants, checkText g.action = .ok () ∧ checkText g.scope = .ok ()) →
      (∀ g ∈ grants, ∃ e ∈ d.grants, e.Live id g r.now) →
      (r.reconcileGrants i id k grants).run.exec store d [] = ⟨d, [], .ok []⟩ := by
  induction grants with
  | nil => exact fun _ _ => rfl
  | cons g grants ih =>
    intro k htexts hlive
    obtain ⟨e, he, hlive₀⟩ := hlive g List.mem_cons_self
    obtain ⟨haction, hscope⟩ := htexts g List.mem_cons_self
    have hpos : 0 < d.grants.countP fun row => row.Live id g r.now :=
      List.countP_pos_iff.mpr ⟨e, he, by simpa using hlive₀⟩
    have hcount : (countLiveGrants id g r.now).exec store d [] =
        ⟨d, [], .ok (d.grants.countP fun row => row.Live id g r.now)⟩ := by
      simp [countLiveGrants, haction, hscope, bind, Except.bind, pure, Except.pure]
    have hgrant : (r.reconcileGrant i k id g).run.exec store d [] = ⟨d, [], .ok []⟩ := by
      refine Postgres.Proc.exec_run_bind_eq_ok.mpr ⟨d, [], _, Postgres.Proc.exec_orFail_eq_ok.mpr
        (Postgres.Proc.exec_autocommit_eq_ok.mpr ⟨d, [], hcount, rfl, rfl⟩), ?_⟩
      rw [if_pos hpos]
      rfl
    have hrest := ih (k := k + 1) (fun g' hg' => htexts g' (List.mem_cons_of_mem _ hg'))
      fun g' hg' => hlive g' (List.mem_cons_of_mem _ hg')
    exact Postgres.Proc.exec_run_bind_eq_ok.mpr ⟨d, [], [], hgrant,
      Postgres.Proc.exec_run_bind_eq_ok.mpr ⟨d, [], [], hrest, rfl⟩⟩

/-! ## The pass -/

namespace Registrar

/-- What a repeated pass does about one service. -/
theorem exec_reconcileService_settled {r : Registrar} {i : ℕ} {s : ServiceSpec} {id : ActorId}
    {d : Db} (h : r.Settled s id (d.record id))
    (hfresh : ∀ h ∈ d.admissionHistory, h.serviceId = id →
      h.correlationId ≠ r.admissionCorrelation i ∧ h.correlationId ∉ r.admissionRepeats i) :
    ∃ hs : List AdmissionHistoryRow, (∀ h ∈ hs, h.serviceId = id) ∧
      (r.reconcileService i s).run.exec store d [] =
        ⟨{ d with admissionHistory := d.admissionHistory ++ hs }, [], .ok []⟩ := by
  obtain ⟨row, hrow, rfl, hidentity⟩ := h.identity
  obtain ⟨current, hcurrent, henabled, htime, hrevision⟩ := h.admission
  obtain ⟨hs, a, ha, hecho, hadmission⟩ := exec_setAdmission_settled
    (r := r.admissionRequest i row.id s.communicationEnabled) (r.admissionRepeats i) h.metadata
    hcurrent henabled htime hrevision hfresh
  refine ⟨hs, fun e he => (hecho e he).service, ?_⟩
  -- Only the history of the admission grows.
  have hstatement : (r.reconcileAdmission i row.id s).run.exec store d [] =
      ⟨{ d with admissionHistory := d.admissionHistory ++ hs }, [], .ok []⟩ := by
    refine Postgres.Proc.exec_run_bind_eq_ok.mpr ⟨_, [], a, exec_orFail_callFunction.mpr
      ⟨d, _, hadmission, (view_admissionHistory hs d).symm, rfl⟩, ?_⟩
    rw [if_pos ha]
    rfl
  refine Postgres.Proc.exec_run_bind_eq_ok.mpr ⟨d, [], row, Postgres.Proc.exec_ensure_eq_ok.mpr
    ⟨rfl, rfl, Postgres.mapError_eq_ok.mpr hrow⟩, ?_⟩
  refine Postgres.Proc.exec_run_bind_eq_ok.mpr ⟨d, [], .unchanged, exec_orFail_callFunction.mpr
    ⟨d, [], exec_upsertIdentity_settled hidentity, rfl, rfl⟩, ?_⟩
  refine Postgres.Proc.exec_run_bind_eq_ok.mpr
    ⟨d, [], [], exec_reconcileBinding_settled h.binding, ?_⟩
  refine Postgres.Proc.exec_run_bind_eq_ok.mpr ⟨_, [], [], hstatement, ?_⟩
  refine Postgres.Proc.exec_run_bind_eq_ok.mpr
    ⟨_, [], [], exec_reconcileGrants_settled s.grants h.texts fun g hg => ?_, rfl⟩
  obtain ⟨e, he, hlive⟩ := h.grants g hg
  exact ⟨e, (List.mem_filter.mp he).1, hlive⟩

end Registrar

/-- What an ordered insertion leaves in the answer. -/
theorem ServiceChanges.mem_insert {name : Str} {applied : List Str} {entry : Str × List Str} :
    ∀ {changes : ServiceChanges}, entry ∈ changes.insert name applied →
      entry = (name, applied) ∨ entry ∈ changes
  | [], h => .inl (List.mem_singleton.mp h)
  | e :: changes, h => by
    unfold ServiceChanges.insert at h
    split at h
    · exact (List.mem_cons.mp h).imp_right (List.mem_cons_of_mem _)
    · split at h
      · exact List.mem_cons.mp h
      · rcases List.mem_cons.mp h with rfl | h
        · exact .inr List.mem_cons_self
        · exact (mem_insert h).imp_right (List.mem_cons_of_mem _)

/-- The new entry is there. -/
theorem ServiceChanges.self_mem_insert {name : Str} {applied : List Str} :
    ∀ changes : ServiceChanges, (name, applied) ∈ changes.insert name applied
  | [] => List.mem_singleton_self _
  | e :: changes => by
    unfold ServiceChanges.insert
    split
    · exact List.mem_cons_self
    · split
      · exact List.mem_cons_self
      · exact List.mem_cons_of_mem _ (self_mem_insert changes)

/-- So are the entries under other names. -/
theorem ServiceChanges.mem_insert_of_ne {name : Str} {applied : List Str} {entry : Str × List Str}
    (hne : entry.1 ≠ name) : ∀ {changes : ServiceChanges}, entry ∈ changes →
      entry ∈ changes.insert name applied
  | e :: changes, h => by
    unfold ServiceChanges.insert
    split
    · rename_i heq
      rcases List.mem_cons.mp h with rfl | h
      · exact absurd heq.symm hne
      · exact List.mem_cons_of_mem _ h
    · split
      · exact List.mem_cons_of_mem _ h
      · rcases List.mem_cons.mp h with rfl | h
        · exact List.mem_cons_self
        · exact List.mem_cons_of_mem _ (mem_insert_of_ne hne h)

namespace Registrar

/-- What a repeated pass does about the services: it adds rows to the history, and its answer has an
empty list for each of them. -/
theorem exec_reconcileServices_settled {r : Registrar} (services : List ServiceSpec) :
    ∀ (i : ℕ) (changes : ServiceChanges) (d : Db),
      (services.filterMap ServiceSpec.id?).Nodup →
      (∀ s ∈ services, ∃ id, s.id? = some id ∧ r.Settled s id (d.record id)) →
      (∀ s ∈ services, ∀ id, s.id? = some id → ∀ h ∈ d.admissionHistory, h.serviceId = id →
        ∀ i, h.correlationId ≠ r.admissionCorrelation i ∧
          h.correlationId ∉ r.admissionRepeats i) →
      (∀ entry ∈ changes, entry.2 = []) →
      ∃ (hs : List AdmissionHistoryRow) (answer : ServiceChanges),
        (r.reconcileServices i services changes).run.exec store d [] =
          ⟨{ d with admissionHistory := d.admissionHistory ++ hs }, [], .ok answer⟩ ∧
        (∀ entry ∈ answer, entry.2 = []) ∧
        (∀ entry ∈ changes, entry ∈ answer) ∧ ∀ s ∈ services, (s.displayName, []) ∈ answer := by
  induction services with
  | nil =>
    intro i changes d _ _ _ hempty
    exact ⟨[], changes, by rw [List.append_nil]; rfl, hempty, fun _ h => h, by simp⟩
  | cons s services ih =>
    intro i changes d hnodup hsettled hfresh hempty
    obtain ⟨id, hid, hs₀⟩ := hsettled s List.mem_cons_self
    obtain ⟨hs₁, hservice, hexec⟩ := exec_reconcileService_settled (i := i) hs₀
      fun h hh hsid => hfresh s List.mem_cons_self id hid h hh hsid i
    rw [List.filterMap_cons_some hid, List.nodup_cons] at hnodup
    obtain ⟨hnew, hnodup⟩ := hnodup
    -- The first service has nothing to report, and the others find their records as they were.
    have hinsert : ∀ entry ∈ changes.insert s.displayName [], entry.2 = [] := by
      intro entry hentry
      rcases ServiceChanges.mem_insert hentry with rfl | hentry
      · rfl
      · exact hempty entry hentry
    obtain ⟨hs₂, answer, hrest, hanswer, hkeep, hlisted⟩ :=
      ih (i + 1) (changes.insert s.displayName [])
        { d with admissionHistory := d.admissionHistory ++ hs₁ } hnodup
        (fun s' hs' => by
          obtain ⟨id', hid', hsettled'⟩ := hsettled s' (List.mem_cons_of_mem _ hs')
          exact ⟨id', hid', hsettled'.identity, hsettled'.binding, hsettled'.admission,
            hsettled'.metadata, hsettled'.texts, hsettled'.grants⟩)
        (fun s' hs' id' hid' h hh hsid => by
          rcases List.mem_append.mp hh with hh | hh
          · exact hfresh s' (List.mem_cons_of_mem _ hs') id' hid' h hh hsid
          · have heq : id' = id := hsid.symm.trans (hservice h hh)
            exact absurd (List.mem_filterMap.mpr ⟨s', hs', heq ▸ hid'⟩) hnew)
        hinsert
    refine ⟨hs₁ ++ hs₂, answer, ?_, hanswer, fun entry hentry => ?_, fun s' hs' => ?_⟩
    · rw [← List.append_assoc]
      exact Postgres.Proc.exec_run_bind_eq_ok.mpr ⟨_, [], [], hexec, hrest⟩
    · by_cases hname : entry.1 = s.displayName
      · have hentry' : entry = (s.displayName, []) := Prod.ext hname (hempty entry hentry)
        exact hentry' ▸ hkeep _ (ServiceChanges.self_mem_insert changes)
      · exact hkeep entry (ServiceChanges.mem_insert_of_ne hname hentry)
    · rcases List.mem_cons.mp hs' with rfl | hs'
      · exact hkeep _ (ServiceChanges.self_mem_insert changes)
      · exact hlisted s' hs'

/-- A pass that follows another one, with nothing in between, changes no identity, no binding, no
admission and no grant, and reports no change. -/
theorem reconcile_idempotent {r r' : Registrar} {manifest : Manifest} {d d' : Db}
    {ws : List Write} {changes : ServiceChanges}
    (hids : (manifest.services.filterMap ServiceSpec.id?).Nodup) (hdraws : r.Draws d)
    (hok : (r.reconcile manifest).run.exec store d [] = ⟨d', ws, .ok changes⟩)
    (hresolver : r'.resolver = r.resolver) (hadministrator : r'.administrator = r.administrator)
    (hnow : r.now ≤ r'.now)
    (hclock : ∀ e ∈ d'.grants, ∀ limit ∈ e.validUntil, r.now < limit → r'.now < limit)
    (hdraws' : r'.Draws d') :
    ∃ (d'' : Db) (answer : ServiceChanges),
      (r'.reconcile manifest).run.exec store d' [] = ⟨d'', [], .ok answer⟩ ∧
      (∀ entry ∈ answer, entry.2 = []) ∧ (∀ s ∈ manifest.services, (s.displayName, []) ∈ answer) ∧
      d''.identityRows = d'.identityRows ∧ d''.enrollmentBindings = d'.enrollmentBindings ∧
      d''.admissions = d'.admissions ∧ d''.grants = d'.grants := by
  obtain ⟨hall, -⟩ := exec_reconcileServices manifest.services hids
    (fun _ _ id _ i => hdraws.fresh i id) hok
  obtain ⟨hs, answer, hexec, hempty, -, hlisted⟩ := exec_reconcileServices_settled (r := r')
    manifest.services 0 [] d' hids
    (fun s hs => by
      obtain ⟨id, hreconciles, -⟩ := hall s hs
      exact ⟨id, hreconciles.listed, hreconciles.settled hresolver hadministrator hnow
        fun e he => hclock e (List.mem_filter.mp he).1⟩)
    (fun _ _ _ _ h hh _ i => hdraws'.admission h hh i) (by simp)
  exact ⟨_, answer, hexec, hempty, hlisted, rfl, rfl, rfl, rfl⟩

/-- A later pass, with other draws. -/
def passAtTwenty : Registrar :=
  { passAtTen with
    now := 20
    admissionCorrelation := fun _ => 200
    admissionRepeats := fun _ => [201, 202, 203]
    grantCorrelation := fun _ _ => 31 }

/-- Two passes over a database with one service. -/
theorem reconcile_idempotent_seeded :
    ∃ (d' d'' : Db) (ws : List Write) (changes answer : ServiceChanges),
    (passAtTen.reconcile oneService).run.exec store seeded [] = ⟨d', ws, .ok changes⟩ ∧
      (passAtTwenty.reconcile oneService).run.exec store d' [] = ⟨d'', [], .ok answer⟩ ∧
      (['a'], []) ∈ answer ∧ d''.grants = d'.grants := by
  have hok : ((passAtTen.reconcile oneService).run.exec store seeded []).result.isOk = true := by
    decide +kernel
  -- What the first pass leaves: a grant without an end, and four entries of the history.
  have hgrants : ((passAtTen.reconcile oneService).run.exec store seeded []).db.grants.map
      (fun e => (e.correlationId, e.validUntil)) = [(21, none)] := by decide +kernel
  have hhistory : ((passAtTen.reconcile oneService).run.exec store seeded
      []).db.admissionHistory.map AdmissionHistoryRow.correlationId = [100, 101, 102, 103] := by
      decide +kernel
  rcases hexec : (passAtTen.reconcile oneService).run.exec store seeded [] with
    ⟨d', ws, er | changes⟩
  · rw [hexec] at hok
    cases hok
  rw [hexec] at hgrants hhistory
  have hresolver : passAtTwenty.resolver = passAtTen.resolver := rfl
  obtain ⟨d'', answer, hexec', -, hlisted, -, -, -, hsame⟩ :=
    reconcile_idempotent (by decide +kernel)
    ⟨fun h hh => absurd hh List.not_mem_nil, fun e he => absurd he List.not_mem_nil⟩ hexec
    hresolver rfl (by decide)
    (fun e he limit hlimit => by
      have hmem := List.mem_map_of_mem (f := fun e : GrantRow => (e.correlationId, e.validUntil)) he
      rw [hgrants, List.mem_singleton, Prod.mk.injEq] at hmem
      rw [hmem.2] at hlimit
      cases hlimit)
    ⟨fun h hh i => by
      have hmem := List.mem_map_of_mem (f := AdmissionHistoryRow.correlationId) hh
      rw [hhistory] at hmem
      revert hmem
      generalize h.correlationId = u
      simp only [List.mem_cons, List.not_mem_nil, or_false, passAtTwenty]
      rintro (rfl | rfl | rfl | rfl) <;> decide, fun e he i k => by
      have hmem := List.mem_map_of_mem (f := fun e : GrantRow => (e.correlationId, e.validUntil)) he
      rw [hgrants, List.mem_singleton, Prod.mk.injEq] at hmem
      rw [hmem.1]
      change (21 : Uuid) ≠ 31
      decide⟩
  exact ⟨d', d'', ws, changes, answer, rfl, hexec', hlisted _ List.mem_cons_self, hsame⟩

end Registrar

end InfernalLaw
