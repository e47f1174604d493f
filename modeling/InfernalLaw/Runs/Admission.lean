import InfernalLaw.Infrastructure.AdmissionRepository
import InfernalLaw.Postgres.Atomic
import InfernalLaw.Tenure.Historic

/-!
# Admission in every run

Any number of identities are created and admissions set, concurrently with each other and with
anything that leaves the admissions and their history alone. A call that answers has added its row
to the history, or has found the row of an earlier call that it repeats. So the history, read from
its beginning, tells every answer and the state that the last one left.
-/

namespace InfernalLaw

open Postgres (Atomic Contract DbError Entry Event Proc RowWrite State Store)

/-- The history of a service, oldest row first. -/
def Db.historyOf (d : Db) (id : ActorId) : List AdmissionHistoryRow :=
  d.admissionHistory.filter fun h => h.serviceId = id

namespace Admission

/-! ## The operations -/

/-- The tables of the admissions. -/
def tables : List TableName := [.admissions, .admissionHistory]

/-- What runs. -/
inductive Op where
  | createIdentity (row : IdentityRow) (transactionTime : ℤ)
  | set (r : AdmissionRequest)
  /-- Another component's transaction. -/
  | other (writes : List Write) (h : ∀ w ∈ writes, w.table ∉ tables)

/-- What an operation answers. -/
inductive Result where
  | created (r : Except DbError Unit)
  | set (r : Except DbError AdmissionResult)
  | other

/-- What the operations do. -/
def program : Op → Sql Result
  | .createIdentity row transactionTime =>
    (callFunction (insertIdentity row transactionTime)).bind fun r => .done (.created r)
  | .set r => (callFunction (setServiceCommunicationAdmission r)).bind fun a => .done (.set a)
  | .other writes _ => (background writes).bind fun _ => .done .other

/-- The sessions of the kernels and administrators that share the database. -/
abbrev system : Postgres.System Db Write Key Op Result := kernelSystem program

/-- What an operation that succeeds commits. -/
inductive Commits : Op → Db → Result → List Write → Prop where
  | createIdentity {row transactionTime d} (htime : 0 ≤ transactionTime)
      (h : ∀ r ∈ d.admissions, r.serviceId ≠ row.id) :
      Commits (.createIdentity row transactionTime) d (.created (.ok ()))
        [.identities (.insert row), .admissions (.insert (row.admission transactionTime))]
  | repeated {r d h} (hr : Readmits d r h) : Commits (.set r) d (.set (.ok h.result)) []
  | admitted {r d current h ws} (ha : Admits d r current h ws) :
      Commits (.set r) d (.set (.ok h.result)) (ws ++ [.admissionHistory h])

/-! ## Reading the history -/

/-- What a row of the history makes of whether communication is enabled, and of the revision. -/
def applyHistory (state : Bool × ℤ) (h : AdmissionHistoryRow) : Bool × ℤ :=
  match h.outcome with
  | .changed => (!state.1, state.2 + 1)
  | .noOp => state

/-- The state that a history leads to, from an admission that was never set. -/
def replay (history : List AdmissionHistoryRow) : Bool × ℤ := history.foldl applyHistory (false, 0)

/-- What a row of the history says, when it is written in a state. -/
def RecordedIn (state : Bool × ℤ) (h : AdmissionHistoryRow) : Prop :=
  h.oldEnabled = state.1 ∧ (h.newEnabled, h.revision) = applyHistory state h

/-- One more entry of the history is applied last. -/
theorem replay_snoc (history : List AdmissionHistoryRow) (h : AdmissionHistoryRow) :
    replay (history ++ [h]) = applyHistory (replay history) h := List.foldl_append

/-- What a request records is recorded in the state of the admission that it finds. -/
theorem recordedIn_of_records {r : AdmissionRequest} {current : AdmissionRow}
    {h : AdmissionHistoryRow} {ws : List Write} (hr : r.Records current h ws) :
    RecordedIn (current.communicationEnabled, current.revision) h := by
  cases hr with
  | noOp hsame => exact ⟨rfl, by rw [hsame]; rfl⟩
  | changed hchanges _ =>
    have hflip : r.enabled = !current.communicationEnabled := by
      cases hc : current.communicationEnabled <;> cases hr : r.enabled <;> simp_all
    refine ⟨rfl, ?_⟩
    simp [AdmissionRequest.historyRow, applyHistory, hflip]

/-! ## The invariant -/

/-- What the columns of the history satisfy. -/
structure Metadata (h : AdmissionHistoryRow) : Prop where
  administrator : 1 ≤ h.administratorIdentity.length ∧ h.administratorIdentity.length ≤ 200
  reason : 1 ≤ h.reason.length ∧ h.reason.length ≤ 1000
  committed : 0 ≤ h.committedAt

/-- What holds of the admissions, their history and the log between events. -/
structure Inv (d : Db) (log : List (Entry Op Result)) : Prop where
  nodup_service : (d.admissions.map AdmissionRow.serviceId).Nodup
  nonneg : ∀ r ∈ d.admissions, 0 ≤ r.revision ∧ 0 ≤ r.updatedAt
  known : ∀ h ∈ d.admissionHistory, ∃ r ∈ d.admissions, r.serviceId = h.serviceId
  faithful : ∀ id, Tenure.Faithful applyHistory RecordedIn (false, 0) (d.historyOf id)
  current : ∀ r ∈ d.admissions,
    replay (d.historyOf r.serviceId) = (r.communicationEnabled, r.revision)
  nodup_correlation : (d.admissionHistory.map fun h => (h.serviceId, h.correlationId)).Nodup
  metadata : ∀ h ∈ d.admissionHistory, Metadata h
  /-- Every answer is that of a row. -/
  answered : ∀ e ∈ log, ∀ r a, e.op = .set r → e.result = .set (.ok a) →
    ∃ h, Readmits d r h ∧ h.result = a

namespace Inv

variable {d d' : Db} {log log' : List (Entry Op Result)} {r : AdmissionRequest}
  {current : AdmissionRow} {h : AdmissionHistoryRow} {ws : List Write} {n : ℕ}

/-- The invariant, when the tables stay and every new answer is that of a row. -/
theorem congr (hinv : Inv d log) (hrows : d'.admissions = d.admissions)
    (hhistory : d'.admissionHistory = d.admissionHistory)
    (hlog : ∀ e ∈ log', e ∈ log ∨ ∀ r a, e.op = .set r → e.result = .set (.ok a) →
      ∃ h, Readmits d r h ∧ h.result = a) : Inv d' log' := by
  have hof : ∀ id, d'.historyOf id = d.historyOf id := fun _ => congrArg (List.filter _) hhistory
  constructor
  · rw [hrows]
    exact hinv.nodup_service
  · rw [hrows]
    exact hinv.nonneg
  · rw [hrows, hhistory]
    exact hinv.known
  · intro id
    rw [hof]
    exact hinv.faithful id
  · intro r hr
    rw [hof]
    exact hinv.current r (hrows ▸ hr)
  · rw [hhistory]
    exact hinv.nodup_correlation
  · rw [hhistory]
    exact hinv.metadata
  · intro e he r a hop ha
    have hanswer : ∃ h, Readmits d r h ∧ h.result = a := by
      rcases hlog e he with he | he
      · exact hinv.answered e he r a hop ha
      · exact he r a hop ha
    obtain ⟨h, hr, hresult⟩ := hanswer
    exact ⟨h, ⟨hhistory ▸ hr.mem, hr.service, hr.correlation, hr.same⟩, hresult⟩

/-- Writes to other tables keep the invariant. -/
theorem other (hinv : Inv d log) (hws : ∀ w ∈ ws, w.table ∉ tables) :
    Inv (store.view d ws) log := by
  refine hinv.congr ?_ ?_ fun e he => .inl he
  · exact admissions_versioned.view_other fun w hw rw hrw =>
      hws w hw (by simp [hrw, Write.table, tables])
  · exact admissionHistory_appendOnly.view_other fun w hw row hrow =>
      hws w hw (by simp [hrow, Write.table, tables])

/-- An identity that is created, with its admission. -/
theorem createIdentity (hinv : Inv d log) {row : IdentityRow} {transactionTime : ℤ}
    (htime : 0 ≤ transactionTime) (hfresh : ∀ r ∈ d.admissions, r.serviceId ≠ row.id) :
    Inv (store.view d [.identities (.insert row),
        .admissions (.insert (row.admission transactionTime))])
      (log ++ [⟨n, .createIdentity row transactionTime, .created (.ok ())⟩]) := by
  have hrows : (store.view d [.identities (.insert row),
      .admissions (.insert (row.admission transactionTime))]).admissions =
      d.admissions ++ [row.admission transactionTime] := rfl
  have hhistory : (store.view d [.identities (.insert row),
      .admissions (.insert (row.admission transactionTime))]).admissionHistory =
      d.admissionHistory := rfl
  -- A service without an admission has no history.
  have hnone : d.historyOf row.id = [] := by
    refine List.filter_eq_nil_iff.mpr fun h hh heq => ?_
    obtain ⟨r, hr, hservice⟩ := hinv.known h hh
    exact hfresh r hr (hservice.trans (of_decide_eq_true heq))
  constructor
  · refine RowWrite.nodup_apply (w := .insert (row.admission transactionTime)) hinv.nodup_service
      fun x hx r hr => ?_
    obtain rfl := RowWrite.insert.inj hx
    exact hfresh r hr
  · rw [hrows]
    intro r hr
    rcases List.mem_append.mp hr with hr | hr
    · exact hinv.nonneg r hr
    · rw [List.mem_singleton.mp hr]
      exact ⟨le_refl 0, htime⟩
  · rw [hrows, hhistory]
    intro h hh
    obtain ⟨r, hr, hservice⟩ := hinv.known h hh
    exact ⟨r, List.mem_append_left _ hr, hservice⟩
  · exact hinv.faithful
  · rw [hrows]
    intro r hr
    rcases List.mem_append.mp hr with hr | hr
    · exact hinv.current r hr
    · rw [List.mem_singleton.mp hr]
      exact congrArg replay hnone
  · exact hinv.nodup_correlation
  · exact hinv.metadata
  · intro e he r a hop ha
    rcases List.mem_append.mp he with he | he
    · obtain ⟨h, hr, hresult⟩ := hinv.answered e he r a hop ha
      exact ⟨h, ⟨hr.mem, hr.service, hr.correlation, hr.same⟩, hresult⟩
    · rw [List.mem_singleton.mp he] at hop
      cases hop

/-- The admission that a request leaves, and where it stands. -/
theorem next (hinv : Inv d log) (ha : Admits d r current h ws) : ∃ next : AdmissionRow,
    next.serviceId = r.serviceId ∧ (next.communicationEnabled, next.revision) =
      (h.newEnabled, h.revision) ∧ 0 ≤ next.revision ∧ 0 ≤ next.updatedAt ∧
    ((store.view d (ws ++ [.admissionHistory h])).admissions.map AdmissionRow.serviceId =
      d.admissions.map AdmissionRow.serviceId) ∧
    ∀ row, row ∈ (store.view d (ws ++ [.admissionHistory h])).admissions ↔
      row = next ∨ row ∈ d.admissions ∧ row.serviceId ≠ r.serviceId := by
  have hnonneg := hinv.nonneg current ha.mem
  have hservice := ha.service
  have htime := ha.time
  cases ha.records with
  | noOp hsame =>
    refine ⟨current, hservice, by rw [hsame]; rfl, hnonneg.1, hnonneg.2, rfl, fun row => ?_⟩
    constructor
    · intro hrow
      by_cases heq : row.serviceId = r.serviceId
      · exact .inl (List.inj_on_of_nodup_map hinv.nodup_service hrow ha.mem
          (heq.trans hservice.symm))
      · exact .inr ⟨hrow, heq⟩
    · rintro (rfl | ⟨hrow, -⟩)
      · exact ha.mem
      · exact hrow
  | changed hchanges hrevision =>
    have hupdated : 0 ≤ (r.next current).updatedAt := hnonneg.2.trans htime
    refine ⟨r.next current, hservice, rfl, hrevision, hupdated, RowWrite.map_pk_update,
      fun row => ?_⟩
    rw [← hservice]
    exact RowWrite.mem_update ha.mem rfl

/-- A request that is recorded. -/
theorem record (hinv : Inv d log) (ha : Admits d r current h ws) :
    Inv (store.view d (ws ++ [.admissionHistory h]))
      (log ++ [⟨n, .set r, .set (.ok h.result)⟩]) := by
  obtain ⟨next, hnext, hstate, hrevision, hupdated, hmap, hrows⟩ := hinv.next ha
  have hkeys : h.serviceId = r.serviceId ∧ h.correlationId = r.correlationId ∧ r.Repeats h := by
    cases ha.records <;> exact ⟨rfl, rfl, rfl, rfl, rfl, rfl⟩
  have hhistory : (store.view d (ws ++ [.admissionHistory h])).admissionHistory =
      d.admissionHistory ++ [h] := by
    cases ha.records <;> rfl
  have hof : ∀ id, (store.view d (ws ++ [.admissionHistory h])).historyOf id =
      d.historyOf id ++ if r.serviceId = id then [h] else [] := by
    intro id
    rw [Db.historyOf, hhistory, List.filter_append]
    by_cases heq : r.serviceId = id <;> simp [Db.historyOf, hkeys.1, heq]
  -- The history so far has led to the locked admission.
  have hreplay : replay (d.historyOf r.serviceId) =
      (current.communicationEnabled, current.revision) := by
    rw [← ha.service]
    exact hinv.current current ha.mem
  have hrecorded := recordedIn_of_records ha.records
  constructor
  · rw [hmap]
    exact hinv.nodup_service
  · intro row hrow
    rcases (hrows row).mp hrow with rfl | ⟨hrow, -⟩
    · exact ⟨hrevision, hupdated⟩
    · exact hinv.nonneg row hrow
  · intro h' hh'
    have hfound : ∃ row ∈ d.admissions, row.serviceId = h'.serviceId := by
      rw [hhistory] at hh'
      rcases List.mem_append.mp hh' with hh' | hh'
      · exact hinv.known h' hh'
      · rw [List.mem_singleton.mp hh', hkeys.1]
        exact ⟨current, ha.mem, ha.service⟩
    obtain ⟨row, hrow, hservice⟩ := hfound
    by_cases heq : row.serviceId = r.serviceId
    · exact ⟨next, (hrows _).mpr (.inl rfl), hnext.trans (heq.symm.trans hservice)⟩
    · exact ⟨row, (hrows row).mpr (.inr ⟨hrow, heq⟩), hservice⟩
  · intro id
    rw [hof]
    split
    · rename_i heq
      subst heq
      refine Tenure.Historic.snoc (hinv.faithful _) ?_
      change RecordedIn (replay (d.historyOf r.serviceId)) h
      rw [hreplay]
      exact hrecorded
    · rw [List.append_nil]
      exact hinv.faithful id
  · intro row hrow
    rw [hof]
    rcases (hrows row).mp hrow with rfl | ⟨hrow, hne⟩
    · rw [if_pos hnext.symm, replay_snoc, hnext, hreplay, hstate]
      exact hrecorded.2.symm
    · rw [if_neg (Ne.symm hne), List.append_nil]
      exact hinv.current row hrow
  · rw [hhistory, List.map_append, List.nodup_append]
    refine ⟨hinv.nodup_correlation, List.nodup_singleton _, ?_⟩
    rintro k hk k' hk' rfl
    obtain ⟨h', hh', heq⟩ := List.mem_map.mp hk
    rw [List.map_singleton, List.mem_singleton] at hk'
    obtain ⟨hservice, hcorrelation⟩ := Prod.mk.inj (heq.trans hk')
    exact ha.fresh h' hh' (hservice.trans hkeys.1) (hcorrelation.trans hkeys.2.1)
  · intro h' hh'
    rw [hhistory] at hh'
    rcases List.mem_append.mp hh' with hh' | hh'
    · exact hinv.metadata h' hh'
    · rw [List.mem_singleton.mp hh']
      obtain ⟨-, hadministrator, hreason, hcommitted⟩ := hkeys.2.2
      have hmetadata := ha.metadata
      simp only [checkMetadata, Bool.and_eq_true, decide_eq_true_eq] at hmetadata
      obtain ⟨⟨h₁, h₂⟩, h₃⟩ := hmetadata
      exact ⟨hadministrator ▸ h₁, hreason ▸ h₂, hcommitted ▸ h₃⟩
  · intro e he r' a hop hresult
    rcases List.mem_append.mp he with he | he
    · obtain ⟨h', hr, hanswer⟩ := hinv.answered e he r' a hop hresult
      refine ⟨h', ⟨?_, hr.service, hr.correlation, hr.same⟩, hanswer⟩
      rw [hhistory]
      exact List.mem_append_left _ hr.mem
    · rw [List.mem_singleton.mp he] at hop hresult
      obtain rfl := Op.set.inj hop
      refine ⟨h, ⟨?_, hkeys.1, hkeys.2.1, hkeys.2.2⟩, Except.ok.inj (Result.set.inj hresult)⟩
      rw [hhistory]
      exact List.mem_append_right _ (List.mem_singleton_self _)

end Inv

/-! ## The contract -/

/-- The answers of calls that succeed. -/
def Answers (a : Result) : Prop := a = .created (.ok ()) ∨ ∃ x, a = .set (.ok x)

/-- An answer is about what has been committed. -/
theorem Commits.answers {op : Op} {d : Db} {a : Result} {ws : List Write} (h : Commits op d a ws) :
    Answers a := by
  cases h with
  | createIdentity => exact .inl rfl
  | _ => exact .inr ⟨_, rfl⟩

/-- Creating an identity and setting an admission are atomic. -/
def atomic : Atomic system where
  inv := Inv
  quiet ws := ∀ w ∈ ws, w.table ∉ tables
  done := Answers
  commits := Commits
  quiet_nil := by simp
  done_of_commits := Commits.answers
  inv_quiet hinv hws := hinv.other hws
  inv_ends e hinv hne := by
    refine hinv.congr rfl rfl fun e' he' => ?_
    rcases List.mem_append.mp he' with he' | he'
    · exact .inl he'
    · rw [List.mem_singleton.mp he']
      exact .inr fun _ a _ hresult => absurd (.inr ⟨a, hresult⟩) hne
  inv_commits id op a ws hinv h := by
    cases h with
    | createIdentity htime hfresh => exact hinv.createIdentity htime hfresh
    | admitted ha => exact hinv.record ha
    | @repeated r d h hr =>
      refine hinv.congr rfl rfl fun e he => ?_
      rcases List.mem_append.mp he with he | he
      · exact .inl he
      · rw [List.mem_singleton.mp he]
        refine .inr fun r' a' hop hresult => ?_
        obtain rfl := Op.set.inj hop
        exact ⟨h, hr, Except.ok.inj (Result.set.inj hresult)⟩

/-- Every operation keeps to the contract. -/
theorem atomic_sound : atomic.contract.Sound := by
  refine Atomic.sound fun op e hgood => ?_
  have hquiet : ∀ op d, atomic.contract.guar op d [] none := fun _ _ => Atomic.guar_nil _ _
  -- An operation that answers otherwise has committed nothing.
  have herr : ∀ op a d, ¬ Answers a → atomic.contract.Final op a d [] [] [] :=
    fun _ _ _ ha => Atomic.guar_of_not_done ha
  cases op with
  | createIdentity row transactionTime =>
    refine Contract.wp_bind.mpr (wp_insertIdentity (hquiet _) ?_ ?_)
    · exact fun d er _ => herr _ _ d fun h => by rcases h with h | ⟨_, h⟩ <;> cases h
    · exact fun d _ htime hfresh => .inr ⟨_, rfl, .createIdentity htime hfresh⟩
  | set r =>
    have hpk : ∀ d, atomic.contract.Good d → (d.admissions.map AdmissionRow.serviceId).Nodup :=
      fun d ⟨_, hinv⟩ => hinv.nodup_service
    refine Contract.wp_bind.mpr (wp_setServiceCommunicationAdmission (hquiet _) hpk ?_ ?_ ?_ hgood)
    · exact fun d er _ => herr _ _ d fun h => by rcases h with h | ⟨_, h⟩ <;> cases h
    · exact fun d h _ hr => .inr ⟨_, rfl, .repeated hr⟩
    · exact fun d current h ws _ ha => .inr ⟨_, rfl, .admitted ha⟩
  | other writes hwrites =>
    have hother : ¬ Answers .other := fun h => by rcases h with h | ⟨_, h⟩ <;> cases h
    refine Contract.wp_bind.mpr (wp_background (hquiet _) (fun d _ => herr _ _ d hother)
      fun d _ => ?_)
    exact .inl ⟨hwrites, fun _ ha => Option.some.inj ha ▸ hother⟩

/-! ## Calls alone -/

section Alone

variable {d : Db} {log : List (Entry Op Result)} {r : AdmissionRequest} {h : AdmissionHistoryRow}

/-- A call that is to be rejected: its correlation identifier was used with other parameters, or it
is new and its time precedes that of the last change. -/
def Rejected (d : Db) (r : AdmissionRequest) : Prop :=
  (∃ h ∈ d.admissionHistory, h.serviceId = r.serviceId ∧ h.correlationId = r.correlationId ∧
      ¬ r.Repeats h) ∨
    (∀ h ∈ d.admissionHistory, h.serviceId = r.serviceId → h.correlationId ≠ r.correlationId) ∧
      ∃ row ∈ d.admissions, row.serviceId = r.serviceId ∧ r.changedAt < row.updatedAt

/-- The row that the history has under a correlation identifier. -/
theorem find_history (hinv : Inv d log) (hmem : h ∈ d.admissionHistory)
    (hservice : h.serviceId = r.serviceId) (hcorrelation : h.correlationId = r.correlationId) :
    d.admissionHistory.find? (fun h => h.serviceId = r.serviceId ∧
      h.correlationId = r.correlationId) = some h := by
  have hfound : (d.admissionHistory.find? fun h => h.serviceId = r.serviceId ∧
      h.correlationId = r.correlationId).isSome = true :=
    List.find?_isSome.mpr ⟨h, hmem, decide_eq_true ⟨hservice, hcorrelation⟩⟩
  obtain ⟨h', hh'⟩ := Option.isSome_iff_exists.mp hfound
  have hkeys := List.find?_some hh'
  rw [decide_eq_true_eq] at hkeys
  have heq : h' = h := by
    refine List.inj_on_of_nodup_map hinv.nodup_correlation (List.mem_of_find?_eq_some hh') hmem ?_
    rw [hkeys.1, hkeys.2, hservice, hcorrelation]
  rw [hh', heq]

/-- The function alone, when the service has an admission. -/
theorem exec_set (hmetadata : checkMetadata r.administratorIdentity r.reason r.changedAt = true)
    {current : AdmissionRow}
    (hcurrent : d.admissions.find? (fun row => row.serviceId = r.serviceId) = some current) :
    (setServiceCommunicationAdmission r).run.exec store d [] =
      match d.admissionHistory.find? (fun h => h.serviceId = r.serviceId ∧
        h.correlationId = r.correlationId) with
      | some row => if r.Repeats row then ⟨d, [], .ok row.result⟩
        else ⟨d, [], .error (.raised "communication admission correlation ID conflicts")⟩
      | none => (applyAdmission r current).run.exec store d [] := by
  unfold setServiceCommunicationAdmission perform
  rw [if_neg (by rw [hmetadata]; exact Bool.noConfusion), Proc.exec_orFail_bind, lockAdmission,
    Proc.exec_selectForUpdate]
  simp only [Store.view_nil, hcurrent, Option.bind_some]
  rw [Proc.exec_orFail_bind, findAdmissionHistory, Proc.exec_query]
  simp only [Store.view_nil]
  cases d.admissionHistory.find? fun h => h.serviceId = r.serviceId ∧
      h.correlationId = r.correlationId with
  | none => rfl
  | some row =>
    dsimp only
    split <;> rfl

/-- A call that repeats another one gets the answer of that one, and changes nothing. -/
theorem exec_repeated (hinv : Inv d log) (hr : Readmits d r h) :
    (callFunction (setServiceCommunicationAdmission r)).exec store d [] =
      ⟨d, [], .ok h.result⟩ := by
  obtain ⟨-, hadministrator, hreason, hcommitted⟩ := hr.same
  have hcolumns := hinv.metadata h hr.mem
  have hidentity : checkTrimmed 200 r.administratorIdentity := by
    unfold checkTrimmed
    rw [← hadministrator]
    exact hcolumns.administrator
  have htext : checkTrimmed 1000 r.reason := by
    unfold checkTrimmed
    rw [← hreason]
    exact hcolumns.reason
  have htime : 0 ≤ r.changedAt := hcommitted ▸ hcolumns.committed
  have hmetadata : checkMetadata r.administratorIdentity r.reason r.changedAt = true := by
    simp [checkMetadata, hidentity, htext, htime]
  obtain ⟨current, hcurrent, hservice⟩ := hinv.known h hr.mem
  have hfind := RowWrite.find_eq_some hinv.nodup_service hcurrent (hservice.trans hr.service)
  unfold callFunction
  rw [Proc.exec_autocommit, exec_set hmetadata hfind,
    find_history hinv hr.mem hr.service hr.correlation]
  simp only [hr.same, if_true]
  rfl

/-- A call that is to be rejected changes nothing. -/
theorem exec_rejected (hinv : Inv d log) (hr : Rejected d r) :
    ∃ e, (callFunction (setServiceCommunicationAdmission r)).exec store d [] =
      ⟨d, [], .error e⟩ := by
  refine exec_callFunction_error ?_
  -- Metadata that are not valid are rejected before anything is read.
  by_cases hmetadata : checkMetadata r.administratorIdentity r.reason r.changedAt = false
  · unfold setServiceCommunicationAdmission
    rw [if_pos hmetadata]
    exact ⟨_, _, rfl⟩
  rw [Bool.not_eq_false] at hmetadata
  rcases hr with ⟨h, hmem, hservice, hcorrelation, hother⟩ | ⟨hnew, row, hrow, hservice, htime⟩
  · obtain ⟨current, hcurrent, hknown⟩ := hinv.known h hmem
    have hfind := RowWrite.find_eq_some hinv.nodup_service hcurrent (hknown.trans hservice)
    rw [exec_set hmetadata hfind, find_history hinv hmem hservice hcorrelation]
    simp only [hother, if_false]
    exact ⟨_, _, rfl⟩
  · have hnone : d.admissionHistory.find? (fun h => h.serviceId = r.serviceId ∧
        h.correlationId = r.correlationId) = none := by
      refine List.find?_eq_none.mpr fun h hh => ?_
      rw [decide_eq_true_eq]
      exact fun ⟨hs, hc⟩ => hnew h hh hs hc
    rw [exec_set hmetadata (RowWrite.find_eq_some hinv.nodup_service hrow hservice), hnone]
    unfold applyAdmission
    rw [if_pos htime]
    exact ⟨_, _, rfl⟩

/-- The query alone answers the state that the history leads to. -/
theorem exec_find (hinv : Inv d log) {row : AdmissionRow} (hrow : row ∈ d.admissions) :
    ∃ a, (PostgresAdmissionRepository.find row.serviceId).exec store d [] = ⟨d, [], .ok (some a)⟩ ∧
      a.serviceId = row.serviceId ∧
      (a.enabled, a.revision) = replay (d.historyOf row.serviceId) := by
  have hfind := RowWrite.find_eq_some hinv.nodup_service hrow rfl
  have hnonneg := hinv.nonneg row hrow
  have hvalid : ¬ (row.revision < 0 ∨ row.updatedAt < 0) := by omega
  refine ⟨⟨row.serviceId, row.communicationEnabled, row.revision, row.updatedAt, hnonneg⟩, ?_, rfl,
    (hinv.current row hrow).symm⟩
  unfold PostgresAdmissionRepository.find
  refine Proc.exec_orFail_query_ensure.trans ?_
  rw [hfind, Option.elim_some, CommunicationAdmission.restore, dif_neg hvalid]
  rfl

end Alone

/-! ## Every run -/

/-- The admissions as the migration leaves them, of the services that were there before. -/
structure Migrated (d : Db) : Prop where
  nodup_service : (d.admissions.map AdmissionRow.serviceId).Nodup
  initial : ∀ r ∈ d.admissions, r.communicationEnabled = false ∧ r.revision = 0 ∧ 0 ≤ r.updatedAt
  history : d.admissionHistory = []

/-- What the migrations leave has no history to replay. -/
theorem inv_migrated {d₀ : Db} (h₀ : Migrated d₀) : Inv d₀ [] := by
  have hof : ∀ id, d₀.historyOf id = [] := fun id => by rw [Db.historyOf, h₀.history]; rfl
  constructor
  · exact h₀.nodup_service
  · intro r hr
    obtain ⟨-, hrevision, hupdated⟩ := h₀.initial r hr
    exact ⟨hrevision.ge, hupdated⟩
  · rw [h₀.history]
    exact fun _ he => absurd he List.not_mem_nil
  · intro id
    rw [hof]
    exact Tenure.Historic.nil
  · intro r hr
    obtain ⟨henabled, hrevision, -⟩ := h₀.initial r hr
    rw [hof, henabled, hrevision]
    rfl
  · rw [h₀.history]
    exact List.nodup_nil
  · rw [h₀.history]
    exact fun _ he => absurd he List.not_mem_nil
  · exact fun _ he => absurd he List.not_mem_nil

/-- Two calls with the same correlation identifier and the same parameters. -/
def Same (r r' : AdmissionRequest) : Prop :=
  r.serviceId = r'.serviceId ∧ r.correlationId = r'.correlationId ∧ r.enabled = r'.enabled ∧
    btrim r.administratorIdentity = btrim r'.administratorIdentity ∧
    btrim r.reason = btrim r'.reason ∧ r.changedAt = r'.changedAt

/-- A row that a call repeats is one that every such call repeats. -/
theorem Same.readmits {d : Db} {r r' : AdmissionRequest} {h : AdmissionHistoryRow}
    (hsame : Same r' r) (hr : Readmits d r h) : Readmits d r' h := by
  obtain ⟨hservice, hcorrelation, henabled, hadministrator, hreason, htime⟩ := hsame
  obtain ⟨h₁, h₂, h₃, h₄⟩ := hr.same
  exact ⟨hr.mem, hr.service.trans hservice.symm, hr.correlation.trans hcorrelation.symm,
    h₁.trans henabled.symm, h₂.trans hadministrator.symm, h₃.trans hreason.symm,
    h₄.trans htime.symm⟩

/-- The admissions and their history are the same. -/
def Unchanged (d d' : Db) : Prop :=
  d'.admissions = d.admissions ∧ d'.admissionHistory = d.admissionHistory

/-- What a call that answers does to the admissions and their history. -/
inductive Succeeds (d d' : Db) : Op → Result → Prop where
  /-- The new identity has an admission, which is disabled. -/
  | created {row transactionTime} (hfresh : ∀ r ∈ d.admissions, r.serviceId ≠ row.id)
      (hrows : d'.admissions = d.admissions ++ [row.admission transactionTime])
      (hhistory : d'.admissionHistory = d.admissionHistory) :
      Succeeds d d' (.createIdentity row transactionTime) (.created (.ok ()))
  /-- The call repeats an earlier one. -/
  | repeated {r h} (hr : Readmits d r h) (hsame : Unchanged d d') :
      Succeeds d d' (.set r) (.set (.ok h.result))
  /-- The call adds its row to the history. -/
  | recorded {r current h} (hmem : current ∈ d.admissions)
      (hservice : current.serviceId = r.serviceId) (htime : current.updatedAt ≤ r.changedAt)
      (hrecorded : RecordedIn (current.communicationEnabled, current.revision) h)
      (hr : Readmits d' r h) (hhistory : d'.admissionHistory = d.admissionHistory ++ [h]) :
      Succeeds d d' (.set r) (.set (.ok h.result))

/-- A call that answers an admission has its effect. -/
theorem Commits.succeeds {d : Db} {op : Op} {a : Result} {ws : List Write}
    (h : Commits op d a ws) : Succeeds d (store.view d ws) op a := by
  cases h with
  | createIdentity htime hfresh => exact .created hfresh rfl rfl
  | repeated hr => exact .repeated hr ⟨rfl, rfl⟩
  | @admitted r _ current h ws ha =>
    have hhistory : (store.view d (ws ++ [.admissionHistory h])).admissionHistory =
        d.admissionHistory ++ [h] := by
      cases ha.records <;> rfl
    refine .recorded ha.mem ha.service ha.time (recordedIn_of_records ha.records) ?_ hhistory
    have hmem : h ∈ (store.view d (ws ++ [.admissionHistory h])).admissionHistory := by
      rw [hhistory]
      exact List.mem_append_right _ (List.mem_singleton_self _)
    cases ha.records <;> exact ⟨hmem, rfl, rfl, rfl, rfl, rfl, rfl⟩

/-- A call is not answered where it is to be rejected. -/
theorem Commits.not_rejected {d : Db} {log : List (Entry Op Result)} (hinv : Inv d log)
    {r : AdmissionRequest} {a : Result} {ws : List Write} (h : Commits (.set r) d a ws) :
    ¬ Rejected d r := by
  cases h with
  | @repeated _ _ h hr =>
    rintro (⟨h', hmem, hservice, hcorrelation, hother⟩ | ⟨hnew, -⟩)
    · have heq : h' = h := by
        refine List.inj_on_of_nodup_map hinv.nodup_correlation hmem hr.mem ?_
        rw [hservice, hcorrelation, hr.service, hr.correlation]
      exact hother (heq ▸ hr.same)
    · exact hnew h hr.mem hr.service hr.correlation
  | @admitted _ _ current h ws ha =>
    rintro (⟨h', hmem, hservice, hcorrelation, -⟩ | ⟨-, row, hrow, hservice, htime⟩)
    · exact ha.fresh h' hmem hservice hcorrelation
    · have heq : row = current := by
        refine List.inj_on_of_nodup_map hinv.nodup_service hrow ha.mem ?_
        exact hservice.trans ha.service.symm
      rw [heq] at htime
      exact absurd ha.time (not_le.mpr htime)

/-- Writes to other tables leave the admissions as they are. -/
theorem unchanged_of_other {d : Db} {ws : List Write} (hws : ∀ w ∈ ws, w.table ∉ tables) :
    Unchanged d (store.view d ws) := by
  constructor
  · exact admissions_versioned.view_other fun w hw rw hrw =>
      hws w hw (by simp [hrw, Write.table, tables])
  · exact admissionHistory_appendOnly.view_other fun w hw row hrow =>
      hws w hw (by simp [hrow, Write.table, tables])

/-- The history of admission, in every state `s` of every run from a migrated database. -/
theorem admission_faithful {d₀ : Db} (h₀ : Migrated d₀) {s : State Db Write Key Op Result}
    (hs : system.Reaches d₀ s) :
    -- Every row of a history tells how the state after the rows before it changes.
    (∀ id, Tenure.Faithful applyHistory RecordedIn (false, 0) (s.db.historyOf id)) ∧
    -- A history leads to the current state, which is what the query alone answers.
    (∀ r ∈ s.db.admissions,
      replay (s.db.historyOf r.serviceId) = (r.communicationEnabled, r.revision) ∧
      ∃ a, (PostgresAdmissionRepository.find r.serviceId).exec store s.db [] =
          ⟨s.db, [], .ok (some a)⟩ ∧ a.serviceId = r.serviceId ∧
        (a.enabled, a.revision) = replay (s.db.historyOf r.serviceId)) ∧
    -- A call that repeats one that was answered has the same answer, and alone changes nothing.
    (∀ e ∈ s.log, ∀ r a, e.op = .set r → e.result = .set (.ok a) → ∀ r', Same r' r →
      (callFunction (setServiceCommunicationAdmission r')).exec store s.db [] =
        ⟨s.db, [], .ok a⟩ ∧
      ∀ e' ∈ s.log, ∀ a', e'.op = .set r' → e'.result = .set (.ok a') → a' = a) ∧
    -- A call that is to be rejected alone fails, and changes nothing.
    (∀ r, Rejected s.db r → ∃ error,
      (callFunction (setServiceCommunicationAdmission r)).exec store s.db [] =
        ⟨s.db, [], .error error⟩) ∧
    -- An event leaves the tables alone, or it ends a call that is answered and is not to be
    -- rejected.
    (∀ ev s', system.step s ev = some s' →
      (Unchanged s.db s'.db ∧ ∀ e, s'.log = s.log ++ [e] → ¬ Answers e.result) ∨
      ∃ id op a, s.Runs ev id op ∧ s'.log = s.log ++ [⟨id, op, a⟩] ∧ Succeeds s.db s'.db op a ∧
        ∀ r, op = .set r → ¬ Rejected s.db r) ∧
    -- A call that fails changes nothing in any of its events.
    ∀ ev s' id op, system.step s ev = some s' → s.Runs ev id op → ∀ s₂ op₂ a, system.Later s' s₂ →
      ⟨id, op₂, a⟩ ∈ s₂.log → ¬ Answers a → Unchanged s.db s'.db := by
  have hinv := (Atomic.holds atomic_sound (inv_migrated h₀) hs).inv
  refine ⟨hinv.faithful, fun r hr => ⟨hinv.current r hr, exec_find hinv hr⟩, ?_,
    fun r hr => exec_rejected hinv hr, ?_, ?_⟩
  · intro e he r a hop hresult r' hsame
    obtain ⟨h, hr, rfl⟩ := hinv.answered e he r a hop hresult
    have hr' := hsame.readmits hr
    refine ⟨exec_repeated hinv hr', fun e' he' a' hop' hresult' => ?_⟩
    obtain ⟨h', hrepeats, rfl⟩ := hinv.answered e' he' r' a' hop' hresult'
    have heq : h' = h := by
      refine List.inj_on_of_nodup_map hinv.nodup_correlation hrepeats.mem hr'.mem ?_
      rw [hrepeats.service, hrepeats.correlation, hr'.service, hr'.correlation]
    rw [heq]
  · intro ev s' hstep
    rcases Atomic.event atomic_sound (inv_migrated h₀) hs hstep with
      ⟨ws, hws, hdb, hnot⟩ | ⟨id, op, a, ws, hruns, hcommits, hdb, hlog⟩
    · refine .inl ⟨?_, hnot⟩
      rw [hdb]
      exact unchanged_of_other hws
    · refine .inr ⟨id, op, a, hruns, hlog, ?_, ?_⟩
      · rw [hdb]
        exact hcommits.succeeds
      · rintro r rfl
        exact hcommits.not_rejected hinv
  · intro ev s' id op hstep hruns s₂ op₂ a hl he ha
    obtain ⟨ws, hws, hdb⟩ :=
      Atomic.quiet_of_not_done atomic_sound (inv_migrated h₀) hs hstep hruns hl he ha
    rw [hdb]
    exact unchanged_of_other hws

/-- A request to enable the communication of a service. -/
def enableRequest (correlationId : Uuid) (changedAt : ℤ) : AdmissionRequest :=
  ⟨⟨7⟩, true, ['a'], ['r'], correlationId, changedAt⟩

/-- A service that is created and enabled, and enabled again: by the same call, and by another
one. -/
theorem admission_faithful_enabled : ∃ s, system.Reaches {} s ∧
    (s.db.historyOf ⟨7⟩).map AdmissionHistoryRow.outcome = [.changed, .noOp] ∧
    Tenure.Faithful applyHistory RecordedIn (false, 0) (s.db.historyOf ⟨7⟩) ∧
    replay (s.db.historyOf ⟨7⟩) = (true, 1) := by
  have h₀ : Migrated {} := ⟨List.nodup_nil, nofun, rfl⟩
  obtain ⟨s₁, hs₁, hidle₁, hdb₁, -⟩ := Postgres.System.exec_reaches
    (.init : system.Reaches {} { db := {} }) rfl
    (.createIdentity ⟨⟨7⟩, .service, ['a'], .active⟩ 100)
  obtain ⟨s₂, hs₂, hidle₂, hdb₂, -⟩ :=
    Postgres.System.exec_reaches hs₁ hidle₁ (.set (enableRequest 1 110))
  obtain ⟨s₃, hs₃, hidle₃, hdb₃, -⟩ :=
    Postgres.System.exec_reaches hs₂ hidle₂ (.set (enableRequest 1 110))
  obtain ⟨s₄, hs₄, -, hdb₄, -⟩ :=
    Postgres.System.exec_reaches hs₃ hidle₃ (.set (enableRequest 2 120))
  refine ⟨s₄, hs₄, ?_, (admission_faithful h₀ hs₄).1 ⟨7⟩, ?_⟩ <;>
    rw [hdb₄, hdb₃, hdb₂, hdb₁] <;> decide

end Admission

end InfernalLaw
