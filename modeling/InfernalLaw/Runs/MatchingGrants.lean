import InfernalLaw.Runs.Authority

/-!
# The grants that match

`Grant::permits` says which grants permit some facts, and the `WHERE` clause of
`MATCHING_GRANTS_SQL` says it a second time. The answer of `matching_grants` is what the first one
says of the stored grants, unless the facts have a scope that no statement can carry.
-/

namespace InfernalLaw.Authority

open Postgres (State)

/-! ## What is to be answered -/

/-- The grant of a row, if it can be read and permits the facts. -/
def permittedGrant (facts : PolicyFacts) (now : ℤ) (row : GrantRow) : Option Grant :=
  (grantFromRow row).toOption.filter fun g => g.permits facts now

/-- The stored grants that are not revoked and permit the facts. -/
def permitted (d : Db) (facts : PolicyFacts) (now : ℤ) : List Grant :=
  (d.grants.filter fun row => row.revokedAt = none).filterMap (permittedGrant facts now)

/-- `matching_grants` answers these, in some order. -/
def Refines (d : Db) (facts : PolicyFacts) (now : ℤ) : Prop :=
  ∃ grants, matched d facts now = .ok grants ∧ grants.Perm (permitted d facts now)

/-! ## Row by row -/

section Rows

variable {facts : PolicyFacts} {now : ℤ} {row : GrantRow}

/-- What is read from a row that permits the facts. -/
theorem permittedGrant_eq_some {g : Grant} : permittedGrant facts now row = some g ↔
    grantFromRow row = .ok g ∧ g.permits facts now = true := by
  rw [permittedGrant, Option.filter_eq_some_iff, Postgres.toOption_eq_some]

/-- A row that the SQL selects is read, and its grant permits the facts. -/
theorem permittedGrant_of_matches (hw : row.Window)
    (h : PostgresAuthorityRepository.MatchesSql facts now row) :
    ∃ g, grantFromRow row = .ok g ∧ permittedGrant facts now row = some g ∧
      row.revokedAt = none := by
  obtain ⟨hrevoked, g, hread, hpermits⟩ := (PostgresAuthorityRepository.matchesSql_iff hw).mp h
  exact ⟨g, hread, permittedGrant_eq_some.mpr ⟨hread, hpermits⟩, hrevoked⟩

/-- A row that the SQL does not select is revoked, or has no grant that permits the facts. -/
theorem permittedGrant_of_not_matches (hw : row.Window)
    (h : ¬ PostgresAuthorityRepository.MatchesSql facts now row) (hrevoked : row.revokedAt = none) :
    permittedGrant facts now row = none := by
  rw [Option.eq_none_iff_forall_ne_some]
  intro g hg
  obtain ⟨hread, hpermits⟩ := permittedGrant_eq_some.mp hg
  exact h ((PostgresAuthorityRepository.matchesSql_iff hw).mpr ⟨hrevoked, g, hread, hpermits⟩)

/-- The rows that the SQL selects are read as the grants to be answered. -/
theorem mapM_matches {rows : List GrantRow} (hw : ∀ row ∈ rows, row.Window) :
    (rows.filter fun row => PostgresAuthorityRepository.MatchesSql facts now row).mapM
      grantFromRow = .ok ((rows.filter fun row => row.revokedAt = none).filterMap
        (permittedGrant facts now)) := by
  induction rows with
  | nil => rfl
  | cons row rows ih =>
    have hrow := hw row List.mem_cons_self
    have hrest := ih fun row' hrow' => hw row' (List.mem_cons_of_mem _ hrow')
    by_cases hmatches : PostgresAuthorityRepository.MatchesSql facts now row
    · obtain ⟨g, hread, hpermitted, hrevoked⟩ := permittedGrant_of_matches hrow hmatches
      rw [List.filter_cons_of_pos (by simpa using hmatches),
        List.filter_cons_of_pos (by simpa using hrevoked), List.filterMap_cons_some hpermitted]
      exact Postgres.mapM_eq_ok.mpr (.cons hread (Postgres.mapM_eq_ok.mp hrest))
    · rw [List.filter_cons_of_neg (by simpa using hmatches), hrest]
      by_cases hrevoked : row.revokedAt = none
      · rw [List.filter_cons_of_pos (by simpa using hrevoked),
          List.filterMap_cons_none (permittedGrant_of_not_matches hrow hmatches hrevoked)]
      · rw [List.filter_cons_of_neg (by simpa using hrevoked)]

end Rows

/-! ## What is answered -/

/-- In every reachable state, `matching_grants` answers the stored grants that permit the facts,
exactly when the scope of the facts is a text for the database. -/
theorem refines_iff {d₀ : Db} (hd₀ : d₀.grants = []) {s : State Db Write Key Op Unit}
    (hs : system.Reaches d₀ s) (facts : PolicyFacts) (now : ℤ) :
    Refines s.db facts now ↔ '\x00' ∉ facts.scope.text := by
  constructor
  · rintro ⟨grants, hmatched, -⟩ hnul
    rw [matched_eq, if_pos hnul] at hmatched
    cases hmatched
  · intro hnul
    refine ⟨permitted s.db facts now, ?_, List.Perm.refl _⟩
    rw [matched_eq, if_neg hnul]
    exact mapM_matches (windows hd₀ hs)

/-- A grant for every scope is answered. -/
theorem refines_granted :
    ∃ s, system.Reaches reservedSchemas s ∧ s.db.grants = [subscriptionGrant] ∧
    Refines s.db subscriptionFacts 10 := by
  obtain ⟨s, hs, -, hdb, -⟩ := Postgres.System.exec_reaches
    (.init : system.Reaches reservedSchemas { db := reservedSchemas }) rfl
    (.createGrant subscriptionGrant)
  refine ⟨s, hs, ?_, (refines_iff rfl hs subscriptionFacts 10).mpr (by decide)⟩
  rw [hdb]
  decide

/-- Facts whose scope has the character NUL, which `Scope::new` accepts. -/
def nulFacts : PolicyFacts :=
  { subscriptionFacts with scope := ⟨['a', '\x00', 'b'], by decide⟩ }

example : (permitted { reservedSchemas with grants := [subscriptionGrant] } nulFacts 10).length =
  1 := by
  decide

/-- Where that grant is stored, which permits them, `matching_grants` fails. -/
theorem matching_grants_fails : ¬ ∀ d₀ s, d₀.grants = [] → system.Reaches d₀ s →
    ∀ facts now, Refines s.db facts now := by
  intro h
  obtain ⟨s, hs, -⟩ := Postgres.System.exec_reaches
    (.init : system.Reaches reservedSchemas { db := reservedSchemas }) rfl
    (.createGrant subscriptionGrant)
  obtain ⟨grants, hmatched, -⟩ := h reservedSchemas s rfl hs nulFacts 10
  have hfails : matched s.db nulFacts 10 = .error (.ofDatabase .invalidText) := by
    rw [matched_eq, if_pos (by decide)]
  cases hfails.symm.trans hmatched

end InfernalLaw.Authority
