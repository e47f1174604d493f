import InfernalLaw.Infrastructure.SchemaVersions
import InfernalLaw.Kernel.RequestGate

/-!
# Admission

The creation of an identity, whose trigger initialises the admission, the administrative function
`set_service_communication_admission`, and the query of `PostgresAdmissionRepository`.
-/

namespace InfernalLaw

open Postgres (Contract DbError RowWrite Store)
open Postgres.Proc (autocommit ensure insert orFail query selectForUpdate update)

/-! ## Identities -/

/-- The `INSERT` of an identity. -/
def insertIdentityRow (row : IdentityRow) : Sql (Except DbError Unit) :=
  insert store "INSERT INTO identities" (fun _ => []) (fun d => d.checkIdentity row)
    (.identities (.insert row))

/-- The `INSERT` of an admission. -/
def insertAdmission (row : AdmissionRow) : Sql (Except DbError Unit) :=
  insert store "INSERT INTO service_communication_admission" (fun _ => [])
    (fun d => d.checkAdmission row) (.admissions (.insert row))

/-- The admission of a new identity. -/
def IdentityRow.admission (row : IdentityRow) (transactionTime : ℤ) : AdmissionRow where
  serviceId := row.id
  communicationEnabled := false
  revision := 0
  updatedAt := transactionTime

/-- `INSERT INTO identities`, with the trigger `identities_initialize_communication_admission`. -/
def insertIdentity (row : IdentityRow) (transactionTime : ℤ) : PlPgSql Unit := do
  let _ ← perform (insertIdentityRow row)
  perform (insertAdmission (row.admission transactionTime))

/-! ## The administrative function -/

/-- The arguments of `set_service_communication_admission`. -/
structure AdmissionRequest where
  serviceId : ActorId
  enabled : Bool
  administratorIdentity : Str
  reason : Str
  correlationId : Uuid
  changedAt : ℤ
  deriving DecidableEq

/-- What `set_service_communication_admission` answers. -/
structure AdmissionResult where
  enabled : Bool
  revision : ℤ
  changedAt : ℤ
  outcome : AdmissionOutcome
  deriving DecidableEq

/-- The answer that a row of the history stands for. -/
def AdmissionHistoryRow.result (h : AdmissionHistoryRow) : AdmissionResult where
  enabled := h.newEnabled
  revision := h.revision
  changedAt := h.committedAt
  outcome := h.outcome

/-- The row that a request adds to the history. -/
def AdmissionRequest.historyRow (r : AdmissionRequest) (oldEnabled : Bool) (revision : ℤ)
    (outcome : AdmissionOutcome) : AdmissionHistoryRow where
  serviceId := r.serviceId
  oldEnabled := oldEnabled
  newEnabled := r.enabled
  revision := revision
  outcome := outcome
  administratorIdentity := btrim r.administratorIdentity
  reason := btrim r.reason
  correlationId := r.correlationId
  committedAt := r.changedAt

/-- The admission of a service, locked. -/
def lockAdmission (id : ActorId) : Sql (Except DbError (Option AdmissionRow)) :=
  selectForUpdate "SELECT * INTO current_admission FROM service_communication_admission"
    (fun d => d.admissions.find? fun r => r.serviceId = id)
    (fun r => .admission r.serviceId)
    fun d _ => d.admissions.find? fun r => r.serviceId = id

/-- The row of the history under a correlation identifier. -/
def findAdmissionHistory (id : ActorId) (correlationId : Uuid) :
    Sql (Except DbError (Option AdmissionHistoryRow)) :=
  query "SELECT * INTO existing_history FROM service_communication_admission_history" fun d =>
    d.admissionHistory.find? fun h => h.serviceId = id ∧ h.correlationId = correlationId

/-- The `UPDATE` of an admission. -/
def updateAdmission (r : AdmissionRequest) (revision : ℤ) :
    Sql (Except DbError (Option AdmissionRow)) :=
  update "UPDATE service_communication_admission SET communication_enabled"
    (fun d => d.admissions.find? fun row => row.serviceId = r.serviceId)
    (fun row => .admission row.serviceId)
    (fun d _ => d.admissions.find? fun row => row.serviceId = r.serviceId)
    (fun _ old => changeAdmission old
      { old with communicationEnabled := r.enabled, revision, updatedAt := r.changedAt })
    fun new => .admissions (.update new)

/-- The `INSERT` of a row of the history. -/
def insertAdmissionHistory (row : AdmissionHistoryRow) : Sql (Except DbError Unit) :=
  insert store "INSERT INTO service_communication_admission_history" (fun _ => [])
    (fun d => d.checkAdmissionHistory row) (.admissionHistory row)

/-- What a request must repeat of the row with its correlation identifier. -/
def AdmissionRequest.Repeats (r : AdmissionRequest) (h : AdmissionHistoryRow) : Prop :=
  h.newEnabled = r.enabled ∧ h.administratorIdentity = btrim r.administratorIdentity ∧
    h.reason = btrim r.reason ∧ h.committedAt = r.changedAt

instance (r : AdmissionRequest) (h : AdmissionHistoryRow) : Decidable (r.Repeats h) :=
  inferInstanceAs (Decidable (_ ∧ _))

/-- The last step of `set_service_communication_admission`. -/
def recordAdmission (row : AdmissionHistoryRow) : PlPgSql AdmissionResult := do
  let _ ← perform (insertAdmissionHistory row)
  return row.result

/-- What `set_service_communication_admission` does about the locked admission when the correlation
identifier is new. -/
def applyAdmission (r : AdmissionRequest) (current : AdmissionRow) : PlPgSql AdmissionResult :=
  if r.changedAt < current.updatedAt then
    throw (.raised "communication admission timestamp precedes current state")
  else if current.communicationEnabled = r.enabled then
    recordAdmission (r.historyRow current.communicationEnabled current.revision .noOp)
  else do
    let nextRevision ← ensure
      (if current.revision + 1 < 2 ^ 63 then .ok (current.revision + 1)
        else .error (.raised "bigint out of range"))
    let _ ← perform (updateAdmission r nextRevision)
    recordAdmission (r.historyRow current.communicationEnabled nextRevision .changed)

/-- `set_service_communication_admission`. -/
def setServiceCommunicationAdmission (r : AdmissionRequest) : PlPgSql AdmissionResult := do
  if checkMetadata r.administratorIdentity r.reason r.changedAt = false then
    throw (.raised "invalid communication admission administration metadata")
  else do
    let current ← perform (lockAdmission r.serviceId)
    match current with
    | none => throw (.raised "service communication admission was not found")
    | some current => do
      let existing ← perform (findAdmissionHistory r.serviceId r.correlationId)
      match existing with
      | some row =>
        if r.Repeats row then return row.result
        else throw (.raised "communication admission correlation ID conflicts")
      | none => applyAdmission r current

/-! ## The query -/

namespace PostgresAdmissionRepository

/-- `repository_error`. -/
def repositoryError (e : DbError) : AdmissionError := .repository (.database e)

/-- `find`. -/
def find (id : ActorId) : Sql (Except AdmissionError (Option CommunicationAdmission)) :=
  ExceptT.run do
    let row ← orFail repositoryError (autocommit
      (query "SELECT service_id::text, communication_enabled, revision, updated_at" fun d =>
        d.admissions.find? fun r => r.serviceId = id))
    ensure (row.elim (.ok none) fun row => (CommunicationAdmission.restore row.serviceId
      row.communicationEnabled row.revision row.updatedAt).map some)

end PostgresAdmissionRepository

/-! ## What the operations commit -/

/-- Admissions come in addition, or change in place. -/
theorem admissions_versioned :
    store.Versioned Db.admissions Write.admissions AdmissionRow.serviceId where
  apply_write _ _ := rfl
  apply_other _ w hw := by cases w <;> first | rfl | exact absurd rfl (hw _)

/-- The history only ever grows. -/
theorem admissionHistory_appendOnly :
    store.AppendOnly Db.admissionHistory Write.admissionHistory where
  apply_write _ _ := rfl
  apply_other _ w hw := by cases w <;> first | rfl | exact absurd rfl (hw _)

/-- The admission that a request leaves. -/
def AdmissionRequest.next (r : AdmissionRequest) (current : AdmissionRow) : AdmissionRow :=
  { current with
    communicationEnabled := r.enabled
    revision := current.revision + 1
    updatedAt := r.changedAt }

/-- The next admission is of the same service. -/
@[simp] theorem AdmissionRequest.next_serviceId (r : AdmissionRequest) (current : AdmissionRow) :
    (r.next current).serviceId = current.serviceId := rfl

/-- What a request adds to the history of `current`, and what it writes before. -/
inductive AdmissionRequest.Records (r : AdmissionRequest) (current : AdmissionRow) :
    AdmissionHistoryRow → List Write → Prop where
  | noOp (h : current.communicationEnabled = r.enabled) :
      Records r current (r.historyRow current.communicationEnabled current.revision .noOp) []
  | changed (h : current.communicationEnabled ≠ r.enabled) (hrevision : 0 ≤ current.revision + 1) :
      Records r current (r.historyRow current.communicationEnabled (current.revision + 1) .changed)
        [.admissions (.update (r.next current))]

/-- What holds when a request that is new commits the writes `ws` and the row `h`. -/
structure Admits (d : Db) (r : AdmissionRequest) (current : AdmissionRow) (h : AdmissionHistoryRow)
    (ws : List Write) : Prop where
  metadata : checkMetadata r.administratorIdentity r.reason r.changedAt = true
  mem : current ∈ d.admissions
  service : current.serviceId = r.serviceId
  fresh : ∀ h' ∈ d.admissionHistory, h'.serviceId = r.serviceId → h'.correlationId ≠ r.correlationId
  time : current.updatedAt ≤ r.changedAt
  records : r.Records current h ws

/-- What holds when a request that repeats the row `h` is answered. -/
structure Readmits (d : Db) (r : AdmissionRequest) (h : AdmissionHistoryRow) : Prop where
  mem : h ∈ d.admissionHistory
  service : h.serviceId = r.serviceId
  correlation : h.correlationId = r.correlationId
  same : r.Repeats h

/-- A locked admission stays as it is. -/
theorem stable_mem_admissions {row : AdmissionRow} {locks : List Key}
    (hl : .admission row.serviceId ∈ locks) : store.Stable locks fun d => row ∈ d.admissions :=
  admissions_versioned.stable_mem fun rw hrw =>
    ⟨.admission rw.row.serviceId, by simp [Write.keys], hrw ▸ hl⟩

/-- No other transaction enters an admission whose key is held. -/
theorem stable_fresh_admission {id : ActorId} {locks : List Key} (hl : .admission id ∈ locks) :
    store.Stable locks fun d => ∀ r ∈ d.admissions, r.serviceId ≠ id :=
  admissions_versioned.stable_forall fun rw hrw heq =>
    hrw (.admission rw.row.serviceId) (by simp [Write.keys]) (heq ▸ hl)

/-- No other transaction uses a correlation identifier whose key is held. -/
theorem stable_fresh_correlation {id : ActorId} {correlationId : Uuid} {locks : List Key}
    (hl : .admissionHistory id correlationId ∈ locks) : store.Stable locks fun d =>
      ∀ h ∈ d.admissionHistory, h.serviceId = id → h.correlationId ≠ correlationId :=
  admissionHistory_appendOnly.stable_forall fun h hh hservice hcorrelation =>
    hh (.admissionHistory h.serviceId h.correlationId) (by simp [Write.keys])
      (hservice ▸ hcorrelation ▸ hl)

/-- What the constraints of `service_communication_admission` let through. -/
theorem Db.checkAdmission_eq_ok {d : Db} {row : AdmissionRow} (h : d.checkAdmission row = .ok ()) :
    0 ≤ row.updatedAt ∧ ∀ r ∈ d.admissions, r.serviceId ≠ row.serviceId := by
  obtain ⟨_, hcheck, hkey⟩ := Postgres.bind_eq_ok.mp h
  have hcolumns : row.check = .ok () := hcheck
  unfold AdmissionRow.check at hcolumns
  rw [Postgres.require_bind_eq_ok, Postgres.require_eq_ok] at hcolumns
  exact ⟨hcolumns.2, (Postgres.require_bind_eq_ok.mp hkey).1⟩

/-- What the trigger and the constraints let through is the changed row. -/
theorem changeAdmission_eq_ok {old new new' : AdmissionRow}
    (h : changeAdmission old new = .ok new') : new' = new ∧ 0 ≤ new.revision := by
  obtain ⟨-, hrest⟩ := Postgres.require_bind_eq_ok.mp h
  obtain ⟨_, hcheck, hnew⟩ := Postgres.bind_eq_ok.mp hrest
  have hcolumns : new.check = .ok () := hcheck
  unfold AdmissionRow.check at hcolumns
  rw [Postgres.require_bind_eq_ok] at hcolumns
  exact ⟨(Except.ok.inj hnew).symm, hcolumns.1⟩

/-- A correlation identifier that the unique index lets through is new. -/
theorem Db.fresh_of_checkAdmissionHistory {d : Db} {row : AdmissionHistoryRow}
    (h : d.checkAdmissionHistory row = .ok ()) : ∀ h' ∈ d.admissionHistory,
      h'.serviceId = row.serviceId → h'.correlationId ≠ row.correlationId := by
  simp only [checkAdmissionHistory, Postgres.require_bind_eq_ok, Postgres.require_eq_ok] at h
  exact h.2.2.2.2

section Rules

variable {Op α : Type} {program : Op → Sql α} {C : Contract (kernelSystem program)} {op : Op}

/-- The rule of the creation of an identity. -/
theorem wp_insertIdentity (hquiet : ∀ d, C.guar op d [] none) {row : IdentityRow}
    {transactionTime : ℤ} {Q : C.Post (Except DbError Unit)}
    (herr : ∀ d er, C.Good d → Q (.error er) d [] [] [])
    (hok : ∀ d, C.Good d → 0 ≤ transactionTime → (∀ r ∈ d.admissions, r.serviceId ≠ row.id) →
      Q (.ok ()) d [.identities (.insert row), .admissions
        (.insert (row.admission transactionTime))] [] []) {e : Db} :
    C.wp op (callFunction (insertIdentity row transactionTime)) Q e [] [] [] := by
  refine wp_callFunction hquiet herr (Contract.wp_orFail_bind.mpr ?_)
  refine Contract.wp_insert (hquiet e) (fun d _ _ _ hg => ⟨rfl, hg, nofun⟩) ?_
  intro d₁ _ _ _
  refine Contract.wp_bind.mpr ?_
  refine Contract.wp_insert (hquiet d₁) (fun d _ _ _ hg => ⟨rfl, hg, nofun⟩) ?_
  intro d₂ _ hg₂ hcheck
  obtain ⟨htime, hfresh⟩ := Db.checkAdmission_eq_ok hcheck
  refine ⟨rfl, hg₂, fun b _ d₃ hr₃ hg₃ => hok d₃ hg₃ htime ?_⟩
  exact hr₃.stable (stable_fresh_admission (by simp [Write.keys, IdentityRow.admission])) hfresh

/-- The rule of the last step of `set_service_communication_admission`, when the current admission
is locked. -/
theorem wp_recordAdmission (hquiet : ∀ d, C.guar op d [] none) {r : AdmissionRequest}
    {current : AdmissionRow} {h : AdmissionHistoryRow} {locks : List Key} {ws : List Write}
    (hmetadata : checkMetadata r.administratorIdentity r.reason r.changedAt = true)
    (hservice : current.serviceId = r.serviceId) (htime : current.updatedAt ≤ r.changedAt)
    (hlock : .admission current.serviceId ∈ locks) (hrecords : r.Records current h ws)
    {Q : C.Post (Except DbError AdmissionResult)}
    (herr : ∀ d er locks ws, C.Good d → Q (.error er) d [] locks ws)
    (hok : ∀ d locks, C.Good d → (∀ d', C.Rely locks d d' → Admits d' r current h ws) →
      Q (.ok h.result) d [] locks (ws ++ [.admissionHistory h]))
    {e : Db} (hmem : current ∈ e.admissions) :
    C.wp op (recordAdmission h).run Q e [] locks ws := by
  have hkeys : h.serviceId = r.serviceId ∧ h.correlationId = r.correlationId := by
    cases hrecords <;> exact ⟨rfl, rfl⟩
  have hhistory : ∀ d, (store.view d ws).admissionHistory = d.admissionHistory := by
    cases hrecords <;> exact fun _ => rfl
  refine Contract.wp_orFail_bind.mpr ?_
  refine Contract.wp_insert (hquiet e) (fun d _ _ _ hg => herr d _ _ _ hg) ?_
  intro d₁ hr₁ hg₁ hcheck
  have hfresh := Db.fresh_of_checkAdmissionHistory hcheck
  have hmem₁ := hr₁.stable (stable_mem_admissions hlock) hmem
  refine hok d₁ _ hg₁ fun d' hr' => ⟨hmetadata, ?_, hservice, ?_, htime, hrecords⟩
  · exact hr'.stable (stable_mem_admissions (List.mem_append_left _ hlock)) hmem₁
  · refine hr'.stable (stable_fresh_correlation (List.mem_append_right _ ?_)) ?_
    · simp [Write.keys, hkeys]
    · rw [hkeys.1, hkeys.2] at hfresh
      exact hhistory d₁ ▸ hfresh

/-- The rule of what `set_service_communication_admission` does about the locked admission. -/
theorem wp_applyAdmission (hquiet : ∀ d, C.guar op d [] none)
    (hpk : ∀ d, C.Good d → (d.admissions.map AdmissionRow.serviceId).Nodup) {r : AdmissionRequest}
    {current : AdmissionRow} {locks : List Key}
    (hmetadata : checkMetadata r.administratorIdentity r.reason r.changedAt = true)
    (hservice : current.serviceId = r.serviceId) (hlock : .admission current.serviceId ∈ locks)
    {Q : C.Post (Except DbError AdmissionResult)}
    (herr : ∀ d er locks ws, C.Good d → Q (.error er) d [] locks ws)
    (hok : ∀ d h locks ws, C.Good d → (∀ d', C.Rely locks d d' → Admits d' r current h ws) →
      Q (.ok h.result) d [] locks (ws ++ [.admissionHistory h]))
    {e : Db} (hgood : C.Good e) (hmem : current ∈ e.admissions) :
    C.wp op (applyAdmission r current).run Q e [] locks [] := by
  have hfind : ∀ d, C.Good d → current ∈ d.admissions →
      d.admissions.find? (fun row => row.serviceId = r.serviceId) = some current :=
    fun d hg hmem => RowWrite.find_eq_some (hpk d hg) hmem hservice
  unfold applyAdmission
  split
  · exact herr e _ _ _ hgood
  rename_i htime
  split
  · rename_i hsame
    exact wp_recordAdmission hquiet hmetadata hservice (not_lt.mp htime) hlock (.noOp hsame) herr
      (fun d locks hg hadmits => hok d _ locks [] hg hadmits) hmem
  rename_i hchanges
  refine Contract.wp_ensure_bind.mpr ?_
  split
  · rename_i revision hrevision
    have hnext : revision = current.revision + 1 := by
      split at hrevision
      · exact (Except.ok.inj hrevision).symm
      · cases hrevision
    subst hnext
    refine Contract.wp_orFail_bind.mpr (Contract.wp_update (hquiet e) ?_ ?_ ?_)
    · exact fun d _ _ _ hg => herr d _ _ _ hg
    · -- The locked row is there to be changed.
      intro d₁ d₂ hr₁ hg₁ hr₂ hg₂ hnone
      have hmem₁ := hr₁.stable (stable_mem_admissions hlock) hmem
      rw [Store.view_nil, Store.view_nil, hfind d₁ hg₁ hmem₁, Option.bind_some,
        hfind d₂ hg₂ (hr₂.stable (stable_mem_admissions hlock) hmem₁)] at hnone
      cases hnone
    · intro d₁ d₂ row old new hr₁ hg₁ hr₂ hg₂ hsel hold hchange
      have hmem₁ := hr₁.stable (stable_mem_admissions hlock) hmem
      have hmem₂ := hr₂.stable (stable_mem_admissions hlock) hmem₁
      rw [Store.view_nil, hfind d₂ hg₂ hmem₂] at hold
      obtain rfl := Option.some.inj hold
      obtain ⟨rfl, hrevision⟩ := changeAdmission_eq_ok hchange
      exact wp_recordAdmission hquiet hmetadata hservice (not_lt.mp htime)
        (List.mem_append_left _ hlock) (.changed hchanges hrevision) herr
        (fun d locks hg hadmits => hok d _ locks _ hg hadmits) hmem₂
  · exact herr e _ _ _ hgood

/-- The rule of `set_service_communication_admission`. -/
theorem wp_setServiceCommunicationAdmission (hquiet : ∀ d, C.guar op d [] none)
    (hpk : ∀ d, C.Good d → (d.admissions.map AdmissionRow.serviceId).Nodup) {r : AdmissionRequest}
    {Q : C.Post (Except DbError AdmissionResult)}
    (herr : ∀ d er, C.Good d → Q (.error er) d [] [] [])
    (hrepeat : ∀ d h, C.Good d → Readmits d r h → Q (.ok h.result) d [] [] [])
    (hok : ∀ d current h ws, C.Good d → Admits d r current h ws →
      Q (.ok h.result) d (ws ++ [.admissionHistory h]) [] []) {e : Db} (hgood : C.Good e) :
    C.wp op (callFunction (setServiceCommunicationAdmission r)) Q e [] [] [] := by
  refine wp_callFunction hquiet herr ?_
  unfold setServiceCommunicationAdmission
  split
  · exact ⟨rfl, hgood, nofun⟩
  rename_i hmetadata
  rw [Bool.not_eq_false] at hmetadata
  refine Contract.wp_orFail_bind.mpr (Contract.wp_selectForUpdate (hquiet e) ?_ ?_)
  · exact fun d _ _ _ hg => ⟨rfl, hg, nofun⟩
  intro d₁ d₂ _ _ _ hg₂
  dsimp only
  split
  · exact ⟨rfl, hg₂, nofun⟩
  rename_i current hcurrent
  -- The row that is locked is the current version of one that the snapshot has.
  obtain ⟨row, hrow, hfind⟩ := Option.bind_eq_some_iff.mp hcurrent
  have hservice := List.find?_some hfind
  have hservice' := List.find?_some hrow
  rw [decide_eq_true_eq] at hservice hservice'
  have hmem := List.mem_of_find?_eq_some hfind
  have hlock : Key.admission current.serviceId ∈
      ([] : List Key) ++ ((some row).map fun row => Key.admission row.serviceId).toList := by
    simp [hservice, hservice']
  rw [hrow]
  refine Contract.wp_orFail_bind.mpr (Contract.wp_query (hquiet d₂) ?_ ?_)
  · exact fun d _ _ _ hg => ⟨rfl, hg, nofun⟩
  intro d₃ d₄ hr₃ _ _ hr₄ hg₄
  dsimp only
  split
  · rename_i h hfound
    have hkeys := List.find?_some hfound
    rw [decide_eq_true_eq] at hkeys
    have hmem₄ := hr₄.stable (admissionHistory_appendOnly.stable_mem h)
      (List.mem_of_find?_eq_some hfound)
    split
    · rename_i hsame
      refine ⟨rfl, hg₄, fun b hb d' hr' hg' => ?_⟩
      rw [← Except.ok.inj hb]
      have hmem' := hr'.stable (admissionHistory_appendOnly.stable_mem h) hmem₄
      exact hrepeat d' h hg' ⟨hmem', hkeys.1, hkeys.2, hsame⟩
    · exact ⟨rfl, hg₄, nofun⟩
  · have hmem₃ := hr₃.stable (stable_mem_admissions hlock) hmem
    refine wp_applyAdmission hquiet hpk hmetadata hservice hlock ?_ ?_ hg₄
      (hr₄.stable (stable_mem_admissions hlock) hmem₃)
    · exact fun d _ _ _ hg => ⟨rfl, hg, nofun⟩
    · intro d h locks ws hg hadmits
      refine ⟨rfl, hg, fun b hb d' hr' hg' => ?_⟩
      rw [← Except.ok.inj hb]
      exact hok d' current h ws hg' (hadmits d' hr')

end Rules

/-- The communication of the service is enabled. -/
def Db.Enabled (d : Db) (id : ActorId) : Prop :=
  ∃ row ∈ d.admissions, row.serviceId = id ∧ row.communicationEnabled = true

section Rules

variable {Op α : Type} {program : Op → Sql α} {C : Contract (kernelSystem program)} {op : Op}
  {e : Db} {u : List Write} {id : ActorId}

/-- The rule of the query for an admission. -/
theorem wp_findAdmission {Q : C.Post (Except AdmissionError (Option CommunicationAdmission))}
    (hg : C.guar op e u none) (hquiet : ∀ d, C.guar op d [] none)
    (herr : ∀ d er, C.Good d → Q (.error er) d [] [] [])
    (hok : ∀ d sql d₁ answer, C.Good d → C.Rely [] (store.view e u) d₁ → C.assume op sql d₁ →
      (∀ a ∈ answer, a.enabled = true → d₁.Enabled id) → Q (.ok answer) d [] [] []) :
    C.wp op (PostgresAdmissionRepository.find id) Q e u [] [] := by
  refine Contract.wp_orFail_bind.mpr (Contract.wp_autocommit.mpr ?_)
  refine Contract.wp_query hg (fun d _ _ _ hg => herr d _ hg) fun d₁ d₂ hr _ hassume _ _ => ?_
  refine ⟨hquiet d₂, fun d _ hg => ⟨herr d _ hg, ?_⟩⟩
  cases hrow : (store.view d₁ []).admissions.find? fun r => r.serviceId = id with
  | none => exact hok d _ d₁ none hg hr hassume nofun
  | some row =>
    have hid := List.find?_some hrow
    rw [decide_eq_true_eq] at hid
    change Q ((CommunicationAdmission.restore row.serviceId row.communicationEnabled row.revision
      row.updatedAt).map some) d _ _ _
    unfold CommunicationAdmission.restore
    split
    · exact herr d _ hg
    · refine hok d _ d₁ _ hg hr hassume fun a ha henabled => ?_
      obtain rfl := Option.mem_some.mp ha
      exact ⟨row, List.mem_of_find?_eq_some hrow, hid, henabled⟩

/-- The rule of the check of the sender's admission. -/
theorem wp_requireCommunication {Q : C.Post (Except AdmissionError ℤ)}
    (hg : C.guar op e u none) (hquiet : ∀ d, C.guar op d [] none)
    (herr : ∀ d er, C.Good d → Q (.error er) d [] [] [])
    (hok : ∀ d sql d₁ revision, C.Good d → C.Rely [] (store.view e u) d₁ → C.assume op sql d₁ →
      d₁.Enabled id → Q (.ok revision) d [] [] []) :
    C.wp op (AdmissionService.requireCommunication
      (fun id => ExceptT.mk (PostgresAdmissionRepository.find id)) id).run Q e u [] [] := by
  refine Contract.wp_run_bind.mpr (wp_findAdmission hg hquiet (fun d er hg => herr d er hg) ?_)
  intro d sql d₁ answer hg hr hassume henabled
  cases answer with
  | none => exact herr d _ hg
  | some admission =>
    dsimp only
    split
    · rename_i h
      exact hok d sql d₁ _ hg hr hassume (henabled admission rfl h)
    · exact herr d _ hg

end Rules

end InfernalLaw
