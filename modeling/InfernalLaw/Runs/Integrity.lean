import InfernalLaw.Runs.Duties

/-!
# Integrity of the database

The handlers of the server write what the constraints let through, as the repositories below them
do. So in every run of the kernel the database stays legal, whatever overlaps, and its rows only
ever go through the changes that are meant for them.
-/

namespace InfernalLaw.Kernel

open Postgres (Schema check_bind_eq_ok require_eq_ok)
open Postgres.Proc

variable {crates : ServerCrates} {app : Application}

/-! ## Operations -/

/-- Every operation writes what the constraints permit in a legal database. -/
theorem permits_program (op : Op) :
    ((system crates app).program op).Obeys (system crates app).toStore
    integrity.Keeps integrity.Permits :=
  Lawful.permits (lawful_program op)

/-! ## What the migrations leave -/

section Migrated

variable {artifact permissionPolicy : Bytes32} {transactionTime : ℤ}

/-- The rows that the migrations insert, as an operation would: a version begins as a published
one. -/
def seeds (artifact permissionPolicy : Bytes32) (transactionTime : ℤ) : List Write :=
  [.identities (.insert ⟨⟨0⟩, .service, "reserved: kernel schema registry".toList, .active⟩),
    .admissions (.insert ⟨⟨0⟩, false, 0, transactionTime⟩),
    .schemaVersions (.insert { reservedArtifactSchema artifact with status := .published }),
    .schemaVersions
      (.insert { reservedPermissionPolicySchema permissionPolicy with status := .published }),
    .schemaVersions (.update (reservedArtifactSchema artifact)),
    .schemaVersions (.update (reservedPermissionPolicySchema permissionPolicy))]

/-- The database without rows is legal. -/
theorem legal_nil : schema.Legal ({} : Db).rows := by
  have hnil : ({} : Db).rows = 0 := by
    refine Multiset.eq_zero_of_forall_notMem fun r hr => ?_
    cases r <;> cases Db.mem_rows.mp hr
  rw [hnil]
  exact ⟨by simp, by simp, by simp, by simp⟩

/-- The name of the first seeded schema is valid. -/
theorem checkDottedName_artifact : checkDottedName 3 2 "kernel.no-artifact".toList := by
  decide

/-- So is that of the second. -/
theorem checkDottedName_permissionPolicy :
    checkDottedName 3 2 "kernel.no-artifact-permission-policy".toList := by
  decide

/-- The constraints let the seeds through, one after the other. -/
theorem chain_seeds (h : 0 ≤ transactionTime) :
    store.Chain Db.Lets {} (seeds artifact permissionPolicy transactionTime) := by
  have hkinds : SchemaKind.artifact ≠ .permissionPolicy := by decide
  have hstatus : SchemaStatus.active ≠ .published := by decide
  refine ⟨⟨?_, rfl⟩, ⟨?_, rfl, rfl⟩, ⟨?_, rfl⟩, ⟨?_, rfl⟩, ?_, ?_, trivial⟩
  · show Db.checkIdentity _ _ = _
    decide
  · simp only [Db.Verdict, Db.checkAdmission, AdmissionRow.check, check_bind_eq_ok, require_eq_ok]
    exact ⟨⟨le_rfl, h⟩, List.forall_mem_nil _, .head _⟩
  · simp only [Db.Verdict, Db.checkSchemaVersion, check_bind_eq_ok, require_eq_ok]
    exact ⟨checkDottedName_artifact, le_rfl, le_rfl, List.forall_mem_nil _, List.forall_mem_nil _,
      .head _, fun _ hk => absurd hk (Option.not_mem_none _)⟩
  · simp only [Db.Verdict, Db.checkSchemaVersion, check_bind_eq_ok, require_eq_ok]
    refine ⟨checkDottedName_permissionPolicy, le_rfl, le_rfl, ?_, ?_, .head _,
      fun _ hk => absurd hk (Option.not_mem_none _)⟩
    · exact List.forall_mem_singleton.mpr (by decide : (⟨1⟩ : SchemaVersionId) ≠ ⟨2⟩)
    · exact List.forall_mem_singleton.mpr fun hkind => absurd hkind hkinds
  · exact .update (.schemaVersions { reservedArtifactSchema artifact with status := .published })
      rfl trivial (.head _) rfl rfl ⟨rfl, rfl, hstatus⟩
  · exact .update
      (.schemaVersions
        { reservedPermissionPolicySchema permissionPolicy with status := .published })
      rfl trivial (.tail _ (.head _)) rfl rfl ⟨rfl, rfl, hstatus⟩

/-- What the migrations leave is legal. -/
theorem legal_migrated (h : 0 ≤ transactionTime) :
    integrity.Keeps (migrated artifact permissionPolicy transactionTime) := by
  refine (chain_seeds h).view (I := integrity.Keeps) (fun d w hd hw => ?_) legal_nil
  exact Postgres.Discipline.Keeps.apply hd (integrity_permits hd hw)

end Migrated

/-! ## Every run -/

/-- In every reachable state, the rows of all tables satisfy the constraints that the migrations
declare, and each of them has come about by changes that are meant for it. -/
theorem database_stays_legal {artifact permissionPolicy : Bytes32} {transactionTime : ℤ}
    (h : 0 ≤ transactionTime) {s : Postgres.State Db Write Key Op (Option Response)}
    (hs : (system crates app).Reaches (migrated artifact permissionPolicy transactionTime) s) :
    schema.Legal s.db.rows :=
  Postgres.Discipline.keeps_of_reaches permits_program (legal_migrated h) hs

/-- A service is created and admitted. -/
theorem database_stays_legal_created : ∃ s, (system exampleServerCrates exampleApplication).Reaches
      (migrated (.fill 0) (.fill 0) 5) s ∧
    s.db.admissions = [⟨⟨0⟩, false, 0, 5⟩, ⟨⟨1⟩, true, 1, 8⟩] ∧ schema.Legal s.db.rows := by
  obtain ⟨s, hs, -, hdb⟩ := Postgres.System.exec_all_reaches
    (.init : (system exampleServerCrates exampleApplication).Reaches
      (migrated (.fill 0) (.fill 0) 5) { db := migrated (.fill 0) (.fill 0) 5 }) rfl
    [.createIdentity ⟨1⟩ .service ['a'] 7, .setAdmission ⟨⟨1⟩, true, ['a'], ['r'], 9, 8⟩]
  refine ⟨s, hs, ?_, database_stays_legal (by decide) hs⟩
  rw [hdb]
  decide

/-- Rows only evolve between two states of a run that begins with a legal database. -/
theorem evolves_of_later {d₀ : Db} (h₀ : integrity.Keeps d₀)
    {s s' : Postgres.State Db Write Key Op (Option Response)}
    (hs : (system crates app).Reaches d₀ s) (hl : (system crates app).Later s s') :
    schema.Evolves s.db.rows s'.db.rows := by
  refine Postgres.Discipline.later permits_program h₀
    (fun d d' => schema.Evolves d.rows d'.rows) (fun _ => Schema.Evolves.refl) ?_ hs hl
  intro d d' w hd' hevolves hw
  show schema.Evolves d.rows (d'.apply w).rows
  rw [Db.rows_apply]
  exact hevolves.act hd' hw

/-- A row that is final stays. -/
theorem hasRow_of_later {d₀ : Db} (h₀ : integrity.Keeps d₀)
    {s s' : Postgres.State Db Write Key Op (Option Response)}
    (hs : (system crates app).Reaches d₀ s) (hl : (system crates app).Later s s') {r : Row}
    (hfinal : r.final) (hr : s.db.HasRow r) :
    s'.db.HasRow r :=
  Db.mem_rows.mp ((evolves_of_later h₀ hs hl).mem (Db.mem_rows.mpr hr) fun _ =>
    Row.not_moves_of_final hfinal)

/-- Between any two states of a run no row is lost, and none is changed other than by changes that
are meant for it. What is final stays for good, in every table: an audit, a reservation, an accepted
request or a decision, and what has been consumed, revoked, disabled or ended. -/
theorem rows_evolve {artifact permissionPolicy : Bytes32} {transactionTime : ℤ}
    (h : 0 ≤ transactionTime) {s s' : Postgres.State Db Write Key Op (Option Response)}
    (hs : (system crates app).Reaches (migrated artifact permissionPolicy transactionTime) s)
    (hl : (system crates app).Later s s') : schema.Evolves s.db.rows s'.db.rows ∧
      ∀ r : Row, r.final → s.db.HasRow r → s'.db.HasRow r :=
  ⟨evolves_of_later (legal_migrated h) hs hl, fun _ => hasRow_of_later (legal_migrated h) hs hl⟩

/-- The history of an admission stays when the admission is changed again. -/
theorem rows_evolve_admission : ∃ s s' : Postgres.State Db Write Key Op (Option Response),
    (system exampleServerCrates exampleApplication).Reaches (migrated (.fill 0) (.fill 0) 5) s ∧
    s.db.HasRow (.admissionHistory ⟨⟨0⟩, false, true, 1, .changed, ['a'], ['r'], 9, 8⟩) ∧
    s'.db.admissions = [⟨⟨0⟩, false, 2, 9⟩] ∧
    s'.db.HasRow (.admissionHistory ⟨⟨0⟩, false, true, 1, .changed, ['a'], ['r'], 9, 8⟩) := by
  obtain ⟨s, hs, hidle, hdb⟩ := Postgres.System.exec_all_reaches
    (.init : (system exampleServerCrates exampleApplication).Reaches
      (migrated (.fill 0) (.fill 0) 5) { db := migrated (.fill 0) (.fill 0) 5 }) rfl
      [.setAdmission ⟨⟨0⟩, true, ['a'], ['r'], 9, 8⟩]
  obtain ⟨s', hl, -, hdb'⟩ := Postgres.System.exec_later hidle
    (.setAdmission ⟨⟨0⟩, false, ['a'], ['r'], 10, 9⟩)
  have hrow : s.db.HasRow
      (.admissionHistory ⟨⟨0⟩, false, true, 1, .changed, ['a'], ['r'], 9, 8⟩) := by
    rw [hdb]
    show _ ∈ Db.admissionHistory _
    decide
  refine ⟨s, s', hs, hrow, ?_, (rows_evolve (by decide) hs hl).2 _ trivial hrow⟩
  rw [hdb', hdb]
  decide

end InfernalLaw.Kernel
