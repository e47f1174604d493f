import InfernalLaw.Infrastructure.SchemaVersions

/-!
# What the functions on grants commit

`create_authority_grant` and `revoke_authority_grant` write a grant together with a row of its
audit.
-/

namespace InfernalLaw

open Postgres (Contract DbError)

/-- The outcome with which a call is rejected. -/
def GrantAuditOutcome.isRejection : GrantAuditOutcome → Bool
  | createConflictRejected => true
  | _ => false

/-- What `create_authority_grant` commits when it answers the grant `row`: nothing when it repeats
an earlier answer, else the grant. -/
inductive CreatesGrant : GrantRow → List Write → Prop where
  | existing {row : GrantRow} : CreatesGrant row []
  | created {row : GrantRow} :
      CreatesGrant row [.grants (.insert row), .grantAudit (row.auditRow .created)]

/-- What `revoke_authority_grant` commits: a row of the audit, and with it the revocation if the
grant was not revoked before. -/
inductive RevokesGrant : List Write → Prop where
  | audited {audit : GrantAuditRow} (h : audit.outcome.isRejection = false) :
      RevokesGrant [.grantAudit audit]
  | revoked {new : GrantRow} {audit : GrantAuditRow} (h : audit.outcome.isRejection = false) :
      RevokesGrant [.grants (.update new), .grantAudit audit]

section Rules

variable {Op α : Type} {program : Op → Sql α} {C : Contract (kernelSystem program)} {op : Op}

/-- The rule of what `create_authority_grant` does when the schema versions are of the right
kinds. -/
theorem wp_createGrantRow (hquiet : ∀ d, C.guar op d [] none) {row : GrantRow}
    {Q : C.Post (Except DbError GrantRow)}
    (herr : ∀ d er locks ws, C.Good d → Q (.error er) d [] locks ws)
    (hok : ∀ d row locks ws, C.Good d → CreatesGrant row ws → Q (.ok row) d [] locks ws)
    (existing : Option GrantRow) {e : Db} {locks : List Key} (hgood : C.Good e) :
    C.wp op (createGrantRow row existing).run Q e [] locks [] := by
  cases existing with
  | some grant =>
    unfold createGrantRow
    dsimp only
    split
    · exact hok e _ _ _ hgood .existing
    · exact herr e _ _ _ hgood
  | none =>
    refine Contract.wp_orFail_bind.mpr (Contract.wp_query (hquiet e) ?_ ?_)
    · exact fun d _ _ _ hg => herr d _ _ _ hg
    intro d₁ d₂ _ _ _ _ hg₂
    dsimp only
    split
    · -- The row of the audit is dropped with the rest of the transaction.
      refine Contract.wp_orFail_bind.mpr (Contract.wp_insert (hquiet d₂) ?_ ?_)
      · exact fun d _ _ _ hg => herr d _ _ _ hg
      · exact fun d _ hg _ => herr d _ _ _ hg
    · refine Contract.wp_orFail_bind.mpr (Contract.wp_insert (hquiet d₂) ?_ ?_)
      · exact fun d _ _ _ hg => herr d _ _ _ hg
      intro d₃ _ _ _
      refine Contract.wp_orFail_bind.mpr (Contract.wp_insert (hquiet d₃) ?_ ?_)
      · exact fun d _ _ _ hg => herr d _ _ _ hg
      · exact fun d _ hg _ => hok d _ _ _ hg .created

/-- The rule of `create_authority_grant`. -/
theorem wp_createAuthorityGrant (hquiet : ∀ d, C.guar op d [] none) {requested : GrantRow}
    {Q : C.Post (Except DbError GrantRow)} (herr : ∀ d er, C.Good d → Q (.error er) d [] [] [])
    (hok : ∀ d row ws, C.Good d → CreatesGrant row ws → Q (.ok row) d ws [] []) {e : Db}
    (hgood : C.Good e) :
    C.wp op (callFunction (createAuthorityGrant requested)) Q e [] [] [] := by
  refine wp_callFunction hquiet herr ?_
  unfold createAuthorityGrant
  split
  · exact ⟨rfl, hgood, nofun⟩
  refine Contract.wp_orFail_bind.mpr (Contract.wp_query (hquiet e) ?_ ?_)
  · exact fun d _ _ _ hg => ⟨rfl, hg, nofun⟩
  intro d₁ d₂ _ _ _ _ hg₂
  dsimp only
  split
  · exact ⟨rfl, hg₂, nofun⟩
  refine Contract.wp_orFail_bind.mpr (Contract.wp_query (hquiet d₂) ?_ ?_)
  · exact fun d _ _ _ hg => ⟨rfl, hg, nofun⟩
  intro d₃ d₄ _ _ _ _ hg₄
  dsimp only
  split
  · exact ⟨rfl, hg₄, nofun⟩
  refine Contract.wp_orFail_bind.mpr (Contract.wp_query (hquiet d₄) ?_ ?_)
  · exact fun d _ _ _ hg => ⟨rfl, hg, nofun⟩
  intro d₅ d₆ _ _ _ _ hg₆
  refine wp_createGrantRow hquiet ?_ ?_ _ hg₆
  · exact fun d _ _ _ hg => ⟨rfl, hg, nofun⟩
  · intro d row _ ws hg hcreates
    refine ⟨rfl, hg, fun b hb d' _ hg' => ?_⟩
    obtain rfl := Except.ok.inj hb
    exact hok d' row ws hg' hcreates

/-- The rule of what `revoke_authority_grant` does with the grant that it has found. -/
theorem wp_revokeGrantRow (hquiet : ∀ d, C.guar op d [] none) {id : GrantId} {revokedAt : ℤ}
    {audit : GrantAuditOutcome → GrantAuditRow} (haudit : ∀ outcome,
      (audit outcome).outcome = outcome)
    {Q : C.Post (Except DbError (ℤ × GrantAuditOutcome))}
    (herr : ∀ d er locks ws, C.Good d → Q (.error er) d [] locks ws)
    (hok : ∀ d answer locks ws, C.Good d → RevokesGrant ws → Q (.ok answer) d [] locks ws)
    (existing : Option GrantRow) {e : Db} {locks : List Key} (hgood : C.Good e) :
    C.wp op (revokeGrantRow id revokedAt audit existing).run Q e [] locks [] := by
  cases existing with
  | none => exact herr e _ _ _ hgood
  | some grant =>
    unfold revokeGrantRow
    dsimp only
    split
    · refine Contract.wp_orFail_bind.mpr (Contract.wp_insert (hquiet e) ?_ ?_)
      · exact fun d _ _ _ hg => herr d _ _ _ hg
      · exact fun d _ hg _ => hok d _ _ _ hg (.audited (by rw [haudit]; rfl))
    refine Contract.wp_orFail_bind.mpr (Contract.wp_update (hquiet e) ?_ ?_ ?_)
    · exact fun d _ _ _ hg => herr d _ _ _ hg
    · intro _ d₂ _ _ _ _ _
      refine Contract.wp_orFail_bind.mpr (Contract.wp_insert (hquiet d₂) ?_ ?_)
      · exact fun d _ _ _ hg => herr d _ _ _ hg
      · exact fun d _ hg _ => hok d _ _ _ hg (.audited (by rw [haudit]; rfl))
    · intro _ d₂ _ _ _ _ _ _ _ _ _ _
      refine Contract.wp_orFail_bind.mpr (Contract.wp_insert (hquiet d₂) ?_ ?_)
      · exact fun d _ _ _ hg => herr d _ _ _ hg
      · exact fun d _ hg _ => hok d _ _ _ hg (.revoked (by rw [haudit]; rfl))

/-- The rule of `revoke_authority_grant`. -/
theorem wp_revokeAuthorityGrant (hquiet : ∀ d, C.guar op d [] none) {id : GrantId}
    {administratorIdentity reason : Str} {correlationId : Uuid} {revokedAt : ℤ}
    {Q : C.Post (Except DbError (ℤ × GrantAuditOutcome))}
    (herr : ∀ d er, C.Good d → Q (.error er) d [] [] [])
    (hok : ∀ d answer ws, C.Good d → RevokesGrant ws → Q (.ok answer) d ws [] []) {e : Db}
    (hgood : C.Good e) :
    C.wp op (callFunction (revokeAuthorityGrant id administratorIdentity reason correlationId
      revokedAt)) Q e [] [] [] := by
  refine wp_callFunction hquiet herr ?_
  unfold revokeAuthorityGrant
  split
  · exact ⟨rfl, hgood, nofun⟩
  refine Contract.wp_orFail_bind.mpr (Contract.wp_query (hquiet e) ?_ ?_)
  · exact fun d _ _ _ hg => ⟨rfl, hg, nofun⟩
  intro d₁ d₂ _ _ _ _ hg₂
  refine wp_revokeGrantRow hquiet (fun _ => rfl) ?_ ?_ _ hg₂
  · exact fun d _ _ _ hg => ⟨rfl, hg, nofun⟩
  · exact fun d _ _ ws hg hrevokes => ⟨rfl, hg, fun b _ d' _ hg' => hok d' b ws hg' hrevokes⟩

end Rules

end InfernalLaw
