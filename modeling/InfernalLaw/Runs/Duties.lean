import InfernalLaw.Infrastructure.Relations
import InfernalLaw.Runs.Callers

/-!
# Duties

Each operation has tables that it is there to change, and in no run does it change another. A
connection does not reach who exists and what is permitted, and the registrar does not reach what
services have done.
-/

namespace InfernalLaw

/-- Writes to other tables leave a table as it is. -/
theorem Db.table_view_of_not_mem {d : Db} {ws : List Write} {t : TableName}
    (h : ∀ w ∈ ws, w.table ≠ t) : (store.view d ws).table t = d.table t :=
  Postgres.Store.view_of_writes (I := fun d' : Db => d'.table t = d.table t)
    (P := fun w : Write => w.table ≠ t) (fun _ _ hd hw =>
      (Db.table_apply_of_ne hw.symm).trans hd) rfl h

namespace Kernel

open Postgres.Proc

/-! ## Tables -/

/-- What the gate keeps of the requests that it has seen. -/
def reservationTables : List TableName := [.serviceRequestNonces, .serviceRequestIds, .replayAudit]

/-- What a workload that enrolls has changed. -/
def enrollmentTables : List TableName :=
  [.enrollmentChallenges, .serviceInstances, .serviceInstanceKeys, .registryAudit]

/-- What the requests of admitted services are about. -/
def callerTables : List TableName :=
  [.schemaVersions, .decisions, .acceptedRequests, .acceptanceAudit, .requestRoutes, .subscriptions,
    .subscriptionAudit, .workClaims, .serviceInstances, .registryAudit]

/-- What the registrar's role may change, by itself and through the functions that it may call. -/
def registrarTables : List TableName :=
  [.identities, .enrollmentBindings, .admissions, .admissionHistory, .grants, .grantAudit]

/-- The tables that an operation is there to change. -/
def Op.tables : Op → List TableName
  | .connection _ _ => reservationTables ++ enrollmentTables ++ callerTables
  | .createIdentity _ _ _ _ => [.identities, .admissions]
  | .renameIdentity _ _ | .disableIdentity _ => [.identities]
  | .insertBinding _ | .setBindingEnabled _ _ => [.enrollmentBindings]
  | .revokeInstance _ _ => [.serviceInstances, .serviceInstanceKeys, .registryAudit]
  | .reconcileHandshakes _ => [.handshakeChallenges, .handshakes, .handshakeAudit]
  | .setAdmission _ => [.admissions, .admissionHistory]
  | .setSchemaStatus _ _ _ _ _ _ => [.schemaVersions, .schemaStatusAudit]
  | .createGrant _ | .revokeGrant _ _ _ _ _ => [.grants, .grantAudit]
  | .reconcile _ _ | .prune _ _ _ => registrarTables

/-- The process writes to these tables only, whatever it sees. -/
abbrev WritesTo {α : Type} (tables : List TableName) (p : Sql α) : Prop :=
  p.Writes (fun _ => True) fun w => w.table ∈ tables

/-- It does so with what the constraints let through. -/
abbrev LawfulTo {α : Type} (tables : List TableName) (p : Sql α) : Prop :=
  Lawful (fun w => w.table ∈ tables) p

/-- The tables may be more. -/
theorem LawfulTo.mono {α : Type} {tables tables' : List TableName} {p : Sql α}
    (hp : LawfulTo tables p) (h : tables ⊆ tables') : LawfulTo tables' p :=
  Lawful.mono (fun _ hw => h hw) hp

/-! ## Connections -/

section

variable {crates : ServerCrates} {app : Application} {draws : ConnectionDraws}
  {request : ParsedRequest}

/-- The gate keeps what it reserves. -/
theorem lawfulTo_admitService {crates : KeyCrates} {signed : SignedServiceRequest} {now : ℤ} :
    LawfulTo reservationTables (admitService crates signed now).run := by
  have hnonces : TableName.serviceRequestNonces ∈ reservationTables := by decide
  have hids : TableName.serviceRequestIds ∈ reservationTables := by decide
  have haudit : TableName.replayAudit ∈ reservationTables := by decide
  exact Handlers.lawful_admitService (fun _ => hnonces) (fun _ => hids) fun _ => haudit

/-- The caller's own is in the tables that the requests are about. -/
theorem Owned.table_mem {v : VerifiedServiceRequest} {w : Write} (h : Owned v w) :
    w.table ∈ callerTables := by
  cases w <;> first | exact absurd h not_false | simp [Write.table, callerTables]

/-- So is what a caller does to claims. -/
theorem lawfulTo_dispatchAdmitted {v : VerifiedServiceRequest} :
    LawfulTo callerTables (dispatchAdmitted crates app draws request v) := by
  have hclaims : TableName.workClaims ∈ callerTables := by decide
  exact lawful_dispatchAdmitted (fun _ hw => hw.table_mem) fun _ => hclaims

/-- A governed request comes to its handler through the gate. -/
theorem lawfulTo_dispatchBehindGate : LawfulTo (reservationTables ++ callerTables)
    (dispatchBehindGate crates app draws request) := by
  unfold dispatchBehindGate
  split
  · exact Obeys.done
  split
  · exact Obeys.done
  refine Obeys.bind ?_ fun r => ?_
  · unfold authenticateGovernedRequest
    split
    · exact Obeys.done
    · refine Obeys.bind ?_ fun _ => Obeys.done
      exact LawfulTo.mono lawfulTo_admitService (List.subset_append_left _ _)
  · cases r with
    | error response => exact Obeys.done
    | ok admitted => exact LawfulTo.mono lawfulTo_dispatchAdmitted (List.subset_append_right _ _)

/-- The first request of an enrollment. -/
theorem lawfulTo_dispatchChallenge :
    LawfulTo enrollmentTables (dispatchChallenge crates draws request) := by
  have hchallenges : TableName.enrollmentChallenges ∈ enrollmentTables := by decide
  exact Handlers.lawful_dispatchChallenge fun _ => hchallenges

/-- The second one. -/
theorem lawfulTo_dispatchEnrollment :
    LawfulTo enrollmentTables (dispatchEnrollment crates app draws request) := by
  have hchallenges : TableName.enrollmentChallenges ∈ enrollmentTables := by decide
  have hinstances : TableName.serviceInstances ∈ enrollmentTables := by decide
  have hkeys : TableName.serviceInstanceKeys ∈ enrollmentTables := by decide
  have haudit : TableName.registryAudit ∈ enrollmentTables := by decide
  exact Handlers.lawful_dispatchEnrollment (fun _ => hchallenges) (fun _ => hinstances)
    (fun _ => hkeys) fun _ => haudit

/-- What is read from a connection comes to one of these, or is answered at once. -/
theorem lawfulTo_handleConnection {stream : List UInt8} :
    LawfulTo (Op.connection draws stream).tables (handleConnection crates app draws stream) := by
  have henrollment : enrollmentTables ⊆ (Op.connection draws stream).tables := by
    unfold Op.tables
    grind
  have hgoverned : reservationTables ++ callerTables ⊆ (Op.connection draws stream).tables := by
    unfold Op.tables
    grind
  unfold handleConnection
  split
  · unfold dispatch
    split
    · exact LawfulTo.mono lawfulTo_dispatchChallenge henrollment
    split
    · exact LawfulTo.mono lawfulTo_dispatchEnrollment henrollment
    split
    · exact LawfulTo.mono lawfulTo_dispatchBehindGate hgoverned
    split
    · exact Obeys.bind (Obeys.autocommit Obeys.query) fun _ => Obeys.done
    split
    · split <;> exact Obeys.done
    · exact Obeys.done
  · exact Obeys.done
  · exact Obeys.done

end

/-! ## The kernel -/

section

variable {crates : ServerCrates} {app : Application}

/-- What the registrar writes for a manifest is in the tables of its role. -/
theorem lawfulTo_reconcile {r : Registrar} {manifest : Manifest} :
    LawfulTo registrarTables (r.reconcile manifest).run := by
  have hidentities : TableName.identities ∈ registrarTables := by decide
  have hbindings : TableName.enrollmentBindings ∈ registrarTables := by decide
  have hadmissions : TableName.admissions ∈ registrarTables := by decide
  have hhistory : TableName.admissionHistory ∈ registrarTables := by decide
  have hgrants : TableName.grants ∈ registrarTables := by decide
  have haudit : TableName.grantAudit ∈ registrarTables := by decide
  exact Registrar.lawful_reconcile (fun _ => hidentities) (fun _ => hbindings)
    (fun _ => hadmissions) (fun _ => hhistory) (fun _ => hgrants) fun _ => haudit

/-- So is what it takes back. -/
theorem lawfulTo_prune {r : Registrar} {manifest : Manifest} {draw : ℕ → Uuid} :
    LawfulTo registrarTables (r.prune manifest draw).run := by
  have hbindings : TableName.enrollmentBindings ∈ registrarTables := by decide
  have hgrants : TableName.grants ∈ registrarTables := by decide
  have haudit : TableName.grantAudit ∈ registrarTables := by decide
  exact Registrar.lawful_prune (fun _ => hbindings) (fun _ => hgrants) fun _ => haudit

/-- Every operation writes what the constraints let through, into the tables that it is there to
change. -/
theorem lawful_program (op : Op) : LawfulTo op.tables (program crates app op) := by
  -- One function, or a few, for each operation.
  cases op with
  | connection draws stream => exact Obeys.bind lawfulTo_handleConnection fun _ => Obeys.done
  | createIdentity =>
    exact Obeys.bind (IdentityService.lawful_create (fun _ => .head _) fun _ => .tail _ (.head _))
      fun _ => Obeys.done
  | renameIdentity =>
    exact Obeys.bind (IdentityService.lawful_rename fun _ => .head _) fun _ => Obeys.done
  | disableIdentity =>
    exact Obeys.bind (IdentityService.lawful_disable fun _ => .head _) fun _ => Obeys.done
  | insertBinding =>
    exact Obeys.bind (PostgresEnrollmentBindingRepository.lawful_insertDisabled fun _ => .head _)
      fun _ => Obeys.done
  | setBindingEnabled =>
    exact Obeys.bind (PostgresEnrollmentBindingRepository.lawful_setEnabled fun _ => .head _)
      fun _ => Obeys.done
  | revokeInstance =>
    exact Obeys.bind (InstanceRegistryService.lawful_revoke (fun _ _ => .head _)
      (fun _ _ => .tail _ (.tail _ (.head _))) fun _ => .tail _ (.head _)) fun _ => Obeys.done
  | reconcileHandshakes call =>
    exact Obeys.bind (HandshakeReconciler.lawful_reconcile (fun _ => .head _)
      (fun _ => .tail _ (.head _)) fun _ => .tail _ (.tail _ (.head _))) fun _ => Obeys.done
  | setAdmission =>
    exact Obeys.bind (lawful_callFunction (lawful_setServiceCommunicationAdmission
      (fun _ => .head _) fun _ => .tail _ (.head _))) fun _ => Obeys.done
  | setSchemaStatus =>
    exact Obeys.bind (lawful_callFunction (lawful_setAuthoritySchemaStatus (fun _ => .head _)
      fun _ => .tail _ (.head _))) fun _ => Obeys.done
  | createGrant =>
    exact Obeys.bind (lawful_callFunction (lawful_createAuthorityGrant (fun _ => .head _)
      fun _ => .tail _ (.head _))) fun _ => Obeys.done
  | revokeGrant =>
    exact Obeys.bind (lawful_callFunction (lawful_revokeAuthorityGrant (fun _ => .head _)
      fun _ => .tail _ (.head _))) fun _ => Obeys.done
  | reconcile => exact Obeys.bind lawfulTo_reconcile fun _ => Obeys.done
  | prune => exact Obeys.bind lawfulTo_prune fun _ => Obeys.done

/-- So an operation writes to its tables only. -/
theorem writesTo_program (op : Op) : WritesTo op.tables (program crates app op) :=
  Lawful.writes (lawful_program op)

/-- An event changes no table but those of its operation. -/
theorem table_of_step {d₀ : Db} {s s' : Postgres.State Db Write Key Op (Option Response)}
    (hs : (system crates app).Reaches d₀ s) {ev : Postgres.Event Op}
    (hstep : (system crates app).step s ev = some s') {id : ℕ} {op : Op} (hruns : s.Runs ev id op)
    {t : TableName} (ht : t ∉ op.tables) : s'.db.table t = s.db.table t := by
  obtain ⟨id', op', ws, hruns', hws, hdb⟩ :=
    Postgres.System.commits_of_writes writesTo_program hs hstep
  obtain ⟨-, rfl⟩ := Postgres.State.Runs.unique hs.wellFormed hruns hruns'
  rw [hdb]
  exact Db.table_view_of_not_mem fun w hw h => ht (h ▸ hws w hw)

/-- No event of a run changes a table that its operation is not there to change. So between two
states of a run a table has been changed by an operation that is there to change it: no connection
changes who exists and what is permitted, and the registrar changes nothing of what services have
done. -/
theorem duties_are_separate {d₀ : Db} {s s' : Postgres.State Db Write Key Op (Option Response)}
    (hs : (system crates app).Reaches d₀ s) (hl : (system crates app).Later s s') :
    (∀ s₁ ev s₂ id op, (system crates app).Later s s₁ → (system crates app).step s₁ ev = some s₂ →
      s₁.Runs ev id op → ∀ t ∉ op.tables, s₂.db.table t = s₁.db.table t) ∧
    ∀ t, s'.db.table t ≠ s.db.table t →
      ∃ s₁ ev s₂ id op, (system crates app).Later s s₁ ∧ (system crates app).step s₁ ev = some s₂ ∧
        (system crates app).Later s₂ s' ∧ s₁.Runs ev id op ∧ s₂.db.table t ≠ s₁.db.table t ∧
        t ∈ op.tables := by
  have hstep : ∀ s₁ ev s₂ id op, (system crates app).Later s s₁ →
      (system crates app).step s₁ ev = some s₂ → s₁.Runs ev id op → ∀ t ∉ op.tables,
        s₂.db.table t = s₁.db.table t :=
    fun _ _ _ _ _ hl₁ hstep hruns _ ht => table_of_step (hs.later hl₁) hstep hruns ht
  refine ⟨hstep, fun t hchange => ?_⟩
  obtain ⟨s₁, ev, s₂, hl₁, hev, hl₂, hne⟩ := hl.exists_change (f := fun d => d.table t) hchange
  obtain ⟨id, op, -, hruns, -, -⟩ :=
    Postgres.System.commits_of_writes writesTo_program (hs.later hl₁) hev
  refine ⟨s₁, ev, s₂, id, op, hl₁, hev, hl₂, hruns, hne, ?_⟩
  by_contra ht
  exact hne (hstep s₁ ev s₂ id op hl₁ hev hruns t ht)

/-- The admission of a service is changed by an operation that is there to change admissions, and
its identity is not. -/
theorem duties_are_separate_admission :
    ∃ s s' : Postgres.State Db Write Key Op (Option Response),
      (system exampleServerCrates exampleApplication).Reaches (migrated (.fill 0) (.fill 0) 5) s ∧
      (system exampleServerCrates exampleApplication).Later s s' ∧
      s.db.admissions = [⟨⟨0⟩, false, 0, 5⟩] ∧ s'.db.admissions = [⟨⟨0⟩, true, 1, 8⟩] ∧
      ((∀ s₁ ev s₂ id op, (system exampleServerCrates exampleApplication).Later s s₁ →
          (system exampleServerCrates exampleApplication).step s₁ ev = some s₂ → s₁.Runs ev id op →
          ∀ t ∉ op.tables, s₂.db.table t = s₁.db.table t) ∧
        ∃ s₁ ev s₂ id op, (system exampleServerCrates exampleApplication).Later s s₁ ∧
          (system exampleServerCrates exampleApplication).step s₁ ev = some s₂ ∧
          (system exampleServerCrates exampleApplication).Later s₂ s' ∧ s₁.Runs ev id op ∧
          s₂.db.table .admissions ≠ s₁.db.table .admissions ∧ .admissions ∈ op.tables) := by
  obtain ⟨s, hs, hidle, hinit⟩ := Postgres.System.exec_all_reaches
    (.init : (system exampleServerCrates exampleApplication).Reaches
      (migrated (.fill 0) (.fill 0) 5) { db := migrated (.fill 0) (.fill 0) 5 }) rfl []
  obtain ⟨s', hl, -, hdb⟩ : ∃ s', (system exampleServerCrates exampleApplication).Later s s' ∧ _ :=
    Postgres.System.exec_later hidle (.setAdmission ⟨⟨0⟩, true, ['a'], ['r'], 9, 8⟩)
  have hbefore : s.db.admissions = [⟨⟨0⟩, false, 0, 5⟩] := by
    rw [hinit]
    rfl
  have hadmissions : s'.db.admissions = [⟨⟨0⟩, true, 1, 8⟩] := by
    rw [hdb, hinit]
    decide +kernel
  obtain ⟨hkept, hchanged⟩ := duties_are_separate hs hl
  refine ⟨s, s', hs, hl, hbefore, hadmissions, hkept, hchanged .admissions fun h => ?_⟩
  simp only [Db.table, hbefore, hadmissions, List.map_cons, List.map_nil, Multiset.coe_singleton,
    Multiset.singleton_inj] at h
  exact absurd h (by simp)

end

end Kernel

end InfernalLaw
