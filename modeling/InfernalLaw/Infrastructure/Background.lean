import InfernalLaw.Infrastructure.Database
import InfernalLaw.Postgres.Rules

/-!
# Other activity in the database

What the rest of the world does to the database while the operations under study run: transactions
that commit some writes. Which tables they may write to is for each system to say.
-/

namespace InfernalLaw

open Postgres (Contract)

/-- A transaction of another component that commits the writes, or fails. -/
def background (writes : List Write) : Sql Unit :=
  (Postgres.Proc.autocommit
    (Postgres.Proc.statement "" (fun _ _ => { writes }) fun _ _ => .ok ())).bind
    fun _ => .done ()

/-- The rule of `background`. -/
theorem wp_background {Op α : Type} {program : Op → Sql α} {C : Contract (kernelSystem program)}
    {op : Op} {writes : List Write} (hquiet : ∀ d, C.guar op d [] none) {Q : C.Post Unit}
    (hfail : ∀ d, C.Good d → Q () d [] [] []) (hok : ∀ d, C.Good d → Q () d writes [] []) {e : Db} :
    C.wp op (background writes) Q e [] [] [] := by
  refine Contract.wp_bind.mpr (Contract.wp_autocommit.mpr ?_)
  refine ⟨hquiet e, fun d₁ _ hg₁ => ⟨hfail d₁ hg₁, fun _ d₂ _ hg₂ => ?_⟩⟩
  exact ⟨hquiet d₂, fun d _ hg => ⟨hfail d hg, hok d hg⟩⟩

/-- A write to the claims changes their table as it says. -/
theorem Db.workClaims_apply {d : Db} {w : Postgres.RowWrite WorkClaimRow} :
    (d.apply (.workClaims w)).workClaims = w.apply WorkClaimRow.claimId d.workClaims := rfl

/-- Writes to other tables leave a table as it is. -/
theorem Db.apply_workClaims {d : Db} {w : Write} (h : w.table ≠ .workClaims) :
    (d.apply w).workClaims = d.workClaims := by
  cases w <;> first | rfl | exact absurd rfl h

end InfernalLaw
