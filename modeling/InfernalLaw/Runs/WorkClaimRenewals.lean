import InfernalLaw.Runs.WorkClaims

/-!
# Renewals of work claims

What a renewal that runs alone answers in any reachable state. The service asks that the new lease
ends after `now`, and the trigger that it ends after the old one, and the adapter reports what the
trigger raises as a failure of the repository.
-/

namespace InfernalLaw

open Postgres (DbError Outcome RowWrite State Store)

namespace WorkClaims

/-! ## Rows are claims -/

/-- Every row is the stored form of a claim. -/
def Readable (d : Db) : Prop := ∀ r ∈ d.workClaims, ∃ c : WorkClaim, c.row = r

/-- A claim with another status. -/
theorem exists_claim_expired (c : WorkClaim) : ∃ c' : WorkClaim,
    c'.row = { c.row with status := .expired } :=
  ⟨{ c with status := .expired }, rfl⟩

/-- An update is a single write. -/
theorem view_update (new : WorkClaimRow) (d : Db) :
    store.view d [.workClaims (.update new)] = d.apply (.workClaims (.update new)) := rfl

/-- A commit leaves the rows readable. -/
theorem Readable.step {d : Db} {c : WorkClaim} {ws : List Write} (h : Readable d)
    (hs : Step d c ws) :
    Readable (store.view d ws) := by
  have hinsert : ∀ d' : Db, Readable d' → Readable (d'.apply (.workClaims (.insert c.row))) := by
    intro d' hd' r hr
    rcases List.mem_append.mp hr with hr | hr
    · exact hd' r hr
    · exact ⟨c, (List.mem_singleton.mp hr).symm⟩
  cases hs with
  | @mint ws hm =>
    rw [Store.view_append]
    refine hinsert _ ?_
    have hretires := hm.retires
    generalize c.row.fencingToken = token at hretires
    cases hretires with
    | nothing => exact h
    | closed => exact h
    | lapsed old hmem hroute hactive hlapsed =>
      intro r hr
      rw [view_update] at hr
      rcases Db.mem_workClaims_apply hr with hr | ⟨_, hw, rfl⟩
      · exact h r hr
      · obtain rfl := Write.workClaims.inj hw
        obtain ⟨c', hc'⟩ := h old hmem
        obtain ⟨c'', hc''⟩ := exists_claim_expired c'
        exact ⟨c'', by rw [hc'', hc']; rfl⟩
  | change hc =>
    intro r hr
    rw [view_update] at hr
    rcases Db.mem_workClaims_apply hr with hr | ⟨_, hw, rfl⟩
    · exact h r hr
    · obtain rfl := Write.workClaims.inj hw
      exact ⟨c, rfl⟩

/-- The rows are readable in every run from an empty table. -/
theorem readable {d₀ : Db} (h₀ : d₀.workClaims = []) {s : State Db Write Key Op Result}
    (hs : system.Reaches d₀ s) : Readable s.db := by
  induction hs with
  | init =>
    intro r hr
    rw [h₀] at hr
    exact absurd hr List.not_mem_nil
  | step ev hs _ hstep ih =>
    rcases event h₀ hs hstep with heq | ⟨-, -, c, ws, -, hcommit, hdb, -⟩
    · intro r hr
      rw [heq] at hr
      exact ih r hr
    · rw [hdb]
      exact ih.step hcommit

/-! ## A renewal alone -/

open PostgresWorkClaimRepository in
/-- What `lock_current` answers alone. -/
theorem exec_lockCurrent (claimId : ClaimId) (fencingToken now : ℤ) (d : Db) :
    (lockCurrent claimId fencingToken now).run.exec store d [] = ⟨d, [],
      match d.workClaims.find? fun r => r.claimId = claimId with
      | none => .error (.notFound claimId)
      | some row =>
        match claimFromRow row with
        | .error e => .error e
        | .ok c =>
          if c.fencingToken ≠ fencingToken ∨ c.isCurrent now = false then .error .fenced
          else .ok c⟩ := by
  unfold lockCurrent
  rw [Postgres.Proc.exec_orFail_bind, lockClaimById, Postgres.Proc.exec_selectForUpdate]
  cases hfind : d.workClaims.find? fun r => r.claimId = claimId with
  | none =>
    simp only [Store.view_nil, hfind, Option.bind_none]
    rfl
  | some row =>
    have hid := List.find?_some hfind
    rw [decide_eq_true_eq] at hid
    simp only [Store.view_nil, hfind, Option.bind_some, hid, Postgres.Proc.exec_ensure_bind,
      Option.elim_some]
    cases claimFromRow row with
    | error e => rfl
    | ok c =>
      dsimp only
      split <;> rfl

/-- The claim is current, under this token. -/
def Held (r : WorkClaimRow) (fencingToken now : ℤ) : Prop :=
  r.fencingToken = fencingToken ∧ r.status = .active ∧ now < r.leaseExpiresAt

/-- A claim is fenced if and only if its row is not held. -/
theorem held_iff {c : WorkClaim} {fencingToken now : ℤ} : Held c.row fencingToken now ↔
    ¬ (c.fencingToken ≠ fencingToken ∨ c.isCurrent now = false) := by
  simp [Held, WorkClaim.isCurrent, WorkClaim.row]

section Renew

variable {claimId : ClaimId} {fencingToken leaseExpiresAt now : ℤ} {d : Db} {c : WorkClaim}

/-- A renewal of no claim. -/
theorem exec_renew_notFound (hnone : ∀ r ∈ d.workClaims, r.claimId ≠ claimId) :
    (PostgresWorkClaimRepository.renew claimId fencingToken leaseExpiresAt now).exec store d [] =
      ⟨d, [], .error (.notFound claimId)⟩ := by
  have hfind : d.workClaims.find? (fun r => r.claimId = claimId) = none := by
    simpa using hnone
  rw [PostgresWorkClaimRepository.renew, PostgresWorkClaimRepository.changeLocked,
    Postgres.Proc.exec_transaction, Postgres.Proc.exec_run_bind, exec_lockCurrent]
  simp only [hfind]

/-- A change of a claim that is not held. -/
theorem exec_changeLocked_fenced {statement : ClaimId → Sql (Except DbError (Option WorkClaimRow))}
    (hfind : d.workClaims.find? (fun r => r.claimId = claimId) = some c.row)
    (hfenced : ¬ Held c.row fencingToken now) :
    (PostgresWorkClaimRepository.changeLocked claimId fencingToken now statement).exec store d [] =
      ⟨d, [], .error .fenced⟩ := by
  rw [PostgresWorkClaimRepository.changeLocked, Postgres.Proc.exec_transaction,
    Postgres.Proc.exec_run_bind, exec_lockCurrent]
  rw [held_iff, not_not] at hfenced
  simp only [hfind, claimFromRow_eq_ok.mpr rfl, if_pos hfenced]

/-- A change of a held claim whose statement fails. -/
theorem exec_changeLocked_error {statement : ClaimId → Sql (Except DbError (Option WorkClaimRow))}
    {e : DbError} (hfind : d.workClaims.find? (fun r => r.claimId = claimId) = some c.row)
    (hheld : Held c.row fencingToken now)
    (hstatement : (statement claimId).exec store d [] = ⟨d, [], .error e⟩) :
    (PostgresWorkClaimRepository.changeLocked claimId fencingToken now statement).exec store d [] =
      ⟨d, [], .error (.ofDatabase e)⟩ := by
  have hid : c.row.claimId = claimId := by simpa using List.find?_some hfind
  rw [PostgresWorkClaimRepository.changeLocked, Postgres.Proc.exec_transaction,
    Postgres.Proc.exec_run_bind, exec_lockCurrent]
  simp only [hfind, claimFromRow_eq_ok.mpr rfl, if_neg (held_iff.mp hheld),
    show c.id = claimId from hid, Postgres.Proc.exec_orFail_bind,
      Postgres.Proc.exec_one, hstatement]
  rfl

/-- A change of a held claim whose statement succeeds. -/
theorem exec_changeLocked_ok {statement : ClaimId → Sql (Except DbError (Option WorkClaimRow))}
    {c' : WorkClaim} (hfind : d.workClaims.find? (fun r => r.claimId = claimId) = some c.row)
    (hheld : Held c.row fencingToken now) (hstatement : (statement claimId).exec store d [] =
      ⟨d, [.workClaims (.update c'.row)], .ok (some c'.row)⟩) :
    (PostgresWorkClaimRepository.changeLocked claimId fencingToken now statement).exec store d [] =
      ⟨store.view d [.workClaims (.update c'.row)], [], .ok c'⟩ := by
  have hid : c.row.claimId = claimId := by simpa using List.find?_some hfind
  have hread : claimFromRow c'.row = .ok c' := claimFromRow_eq_ok.mpr rfl
  rw [PostgresWorkClaimRepository.changeLocked, Postgres.Proc.exec_transaction,
    Postgres.Proc.exec_run_bind, exec_lockCurrent]
  simp only [hfind, claimFromRow_eq_ok.mpr rfl, if_neg (held_iff.mp hheld),
    show c.id = claimId from hid, Postgres.Proc.exec_orFail_bind,
      Postgres.Proc.exec_one, hstatement]
  simp only [Except.bind, Option.elim_some, Postgres.Proc.exec_ensure_bind, hread,
    Postgres.Proc.exec_orFail_bind, Postgres.Proc.exec_commitNow]
  rfl

/-- The update of a claim. -/
theorem exec_updateClaim {sql : String} {change : WorkClaimRow → WorkClaimRow}
    (hfind : d.workClaims.find? (fun r => r.claimId = claimId) = some c.row) :
    (PostgresWorkClaimRepository.updateClaim sql claimId change).exec store d [] =
      match changeWorkClaim c.row (change c.row) with
      | .ok new => ⟨d, [.workClaims (.update new)], .ok (some new)⟩
      | .error e => ⟨d, [], .error e⟩ := by
  obtain rfl : c.row.claimId = claimId := by simpa using List.find?_some hfind
  rw [PostgresWorkClaimRepository.updateClaim, Postgres.Proc.exec_update]
  simp only [Store.view_nil, hfind, Option.bind_some, List.nil_append]
  cases changeWorkClaim c.row (change c.row) <;> rfl

/-- A renewal of a held claim to a later time. -/
theorem exec_renew_extended (hfind : d.workClaims.find? (fun r => r.claimId = claimId) = some c.row)
    (hheld : Held c.row fencingToken now) (hlater : c.leaseExpiresAt < leaseExpiresAt) :
    ∃ c' : WorkClaim, c'.row = { c.row with leaseExpiresAt } ∧
      (PostgresWorkClaimRepository.renew claimId fencingToken leaseExpiresAt now).exec store d [] =
        ⟨store.view d [.workClaims (.update c'.row)], [], .ok c'⟩ := by
  let c' : WorkClaim :=
    { c with leaseExpiresAt, lease_window := ⟨c.lease_window.1, c.lease_window.2.trans hlater⟩ }
  have hchange : changeWorkClaim c.row { c.row with leaseExpiresAt } = .ok c'.row := by
    refine changeWorkClaim_eq_ok.mpr ⟨rfl, protectWorkClaim_eq_ok.mpr ?_, c'.lease_window.2⟩
    refine ⟨⟨rfl, rfl, rfl, rfl, rfl, rfl⟩, hheld.2.1, ?_⟩
    rw [if_pos (show c.row.status = .active from hheld.2.1)]
    exact hlater
  refine ⟨c', rfl, exec_changeLocked_ok hfind hheld ?_⟩
  rw [PostgresWorkClaimRepository.renewRow, exec_updateClaim hfind, hchange]

/-- A renewal of a held claim to a time that is not later. -/
theorem exec_renew_refused (hfind : d.workClaims.find? (fun r => r.claimId = claimId) = some c.row)
    (hheld : Held c.row fencingToken now) (hearlier : leaseExpiresAt ≤ c.leaseExpiresAt) :
    (PostgresWorkClaimRepository.renew claimId fencingToken leaseExpiresAt now).exec store d [] =
      ⟨d, [], .error (.ofDatabase (.raised "work claim renewal must extend the lease"))⟩ := by
  have hactive : c.row.status = .active := hheld.2.1
  have hchange : changeWorkClaim c.row { c.row with leaseExpiresAt } =
      .error (.raised "work claim renewal must extend the lease") := by
    have hle : ¬ c.row.leaseExpiresAt < leaseExpiresAt := not_lt.mpr hearlier
    simp [changeWorkClaim, protectWorkClaim, Postgres.require, hactive, hle, bind, Except.bind]
  refine exec_changeLocked_error hfind hheld ?_
  rw [PostgresWorkClaimRepository.renewRow, exec_updateClaim hfind, hchange]

/-- A transition of a held claim. -/
theorem exec_transition {status : WorkClaimStatus}
    (hfind : d.workClaims.find? (fun r => r.claimId = claimId) = some c.row)
    (hheld : Held c.row fencingToken now) (hstatus : status ≠ .active) :
    ∃ c' : WorkClaim, c'.row = { c.row with status } ∧
      (PostgresWorkClaimRepository.transition claimId fencingToken now status).exec store d [] =
        ⟨store.view d [.workClaims (.update c'.row)], [], .ok c'⟩ := by
  let c' : WorkClaim := { c with status }
  have hchange : changeWorkClaim c.row { c.row with status } = .ok c'.row := by
    refine changeWorkClaim_eq_ok.mpr ⟨rfl, protectWorkClaim_eq_ok.mpr ?_, c'.lease_window.2⟩
    exact ⟨⟨rfl, rfl, rfl, rfl, rfl, rfl⟩, hheld.2.1, by rw [if_neg hstatus]⟩
  refine ⟨c', rfl, exec_changeLocked_ok hfind hheld ?_⟩
  rw [PostgresWorkClaimRepository.transitionRow, exec_updateClaim hfind, hchange]

end Renew

/-! ## What a renewal answers -/

/-- The answers that the contract of `renew` names: a held claim is extended, any other is fenced or
not found, and the repository does not fail. -/
structure AnswersRenewal (claimId : ClaimId) (fencingToken leaseExpiresAt now : ℤ) (d : Db)
    (o : Outcome Db Write (Except WorkClaimError WorkClaim)) : Prop where
  held : ∀ r ∈ d.workClaims, r.claimId = claimId → Held r fencingToken now →
    ∃ c, o.result = .ok c ∧ c.row = { r with leaseExpiresAt } ∧ c.row ∈ o.db.workClaims
  fenced : ∀ r ∈ d.workClaims, r.claimId = claimId → ¬ Held r fencingToken now →
    o.result = .error .fenced
  notFound : (∀ r ∈ d.workClaims, r.claimId ≠ claimId) → o.result = .error (.notFound claimId)
  works : ∀ failure, o.result ≠ .error (.repository failure)

/-- A renewal answers as the contract says if and only if a held claim is asked to be extended. -/
theorem renew_answers_iff {d₀ : Db} (h₀ : d₀.workClaims = []) {s : State Db Write Key Op Result}
    (hs : system.Reaches d₀ s) {claimId : ClaimId} {fencingToken leaseExpiresAt now : ℤ}
    (hnow : 0 ≤ now) (hlease : now < leaseExpiresAt) :
    AnswersRenewal claimId fencingToken leaseExpiresAt now s.db
      ((WorkClaimService.renew claimId fencingToken leaseExpiresAt now).exec store s.db []) ↔
      ∀ r ∈ s.db.workClaims, r.claimId = claimId → Held r fencingToken now →
        r.leaseExpiresAt < leaseExpiresAt := by
  have hvalid : ¬ (now < 0 ∨ leaseExpiresAt ≤ now) := by omega
  have hpk := (holds h₀ hs).inv.nodup_id
  rw [WorkClaimService.renew, if_neg hvalid]
  by_cases hnone : ∀ r ∈ s.db.workClaims, r.claimId ≠ claimId
  · rw [exec_renew_notFound hnone]
    refine ⟨fun _ r hr hid => absurd hid (hnone r hr), fun _ => ⟨?_, ?_, fun _ => rfl, by simp⟩⟩
    · exact fun r hr hid => absurd hid (hnone r hr)
    · exact fun r hr hid => absurd hid (hnone r hr)
  push Not at hnone
  obtain ⟨old, hmem, hid⟩ := hnone
  obtain ⟨c, rfl⟩ := readable h₀ hs old hmem
  have hfind := RowWrite.find_eq_some hpk hmem hid
  -- The claim has no other row.
  have honly : ∀ r ∈ s.db.workClaims, r.claimId = claimId → r = c.row := fun r hr hid' =>
    List.inj_on_of_nodup_map hpk hr hmem (hid'.trans hid.symm)
  by_cases hheld : Held c.row fencingToken now
  · rcases lt_or_ge c.leaseExpiresAt leaseExpiresAt with hlater | hearlier
    · obtain ⟨c', hrow, hexec⟩ := exec_renew_extended hfind hheld hlater
      rw [hexec]
      refine ⟨fun _ r hr hid' _ => honly r hr hid' ▸ hlater, fun _ => ⟨?_, ?_, ?_, by simp⟩⟩
      · intro r hr hid' _
        refine ⟨c', rfl, by rw [honly r hr hid', hrow], ?_⟩
        exact RowWrite.new_mem_update hmem (by rw [hrow])
      · exact fun r hr hid' hfenced => absurd (honly r hr hid' ▸ hheld) hfenced
      · exact fun hnone => absurd hid (hnone _ hmem)
    · rw [exec_renew_refused hfind hheld hearlier]
      constructor
      · exact fun h => absurd rfl (h.works _)
      · exact fun h => absurd (h _ hmem hid hheld) (not_lt.mpr hearlier)
  · rw [PostgresWorkClaimRepository.renew, exec_changeLocked_fenced hfind hheld]
    refine ⟨fun _ r hr hid' h => absurd (honly r hr hid' ▸ h) hheld, fun _ => ⟨?_, ?_, ?_, by simp⟩⟩
    · exact fun r hr hid' h => absurd (honly r hr hid' ▸ h) hheld
    · exact fun _ _ _ _ => rfl
    · exact fun hnone => absurd hid (hnone _ hmem)

/-- A claim is extended. -/
theorem renew_answers_extended : ∃ s, system.Reaches oneRoute s ∧ s.db.workClaims ≠ [] ∧
    AnswersRenewal ⟨6⟩ 1 30 15 s.db ((WorkClaimService.renew ⟨6⟩ 1 30 15).exec store s.db []) := by
  obtain ⟨s, hs, -, hdb, -⟩ := Postgres.System.exec_reaches
    (.init : system.Reaches oneRoute { db := oneRoute }) rfl
    (.claim ⟨6⟩ ⟨3⟩ ⟨1⟩ ⟨2⟩ 20 10)
  have hrows : s.db.workClaims = [⟨⟨6⟩, ⟨3⟩, ⟨1⟩, ⟨2⟩, 1, .active, 10, 20⟩] := by
    rw [hdb]
    decide
  refine ⟨s, hs, by simp [hrows], (renew_answers_iff rfl hs (by decide) (by decide)).mpr ?_⟩
  intro r hr _ _
  rw [hrows, List.mem_singleton] at hr
  rw [hr]
  decide

/-- A renewal to the same time fails as if the database did not work. -/
theorem renew_fails_same_lease : ¬ ∀ s, system.Reaches oneRoute s → ∀ (claimId : ClaimId)
    (fencingToken leaseExpiresAt now : ℤ), 0 ≤ now → now < leaseExpiresAt →
    AnswersRenewal claimId fencingToken leaseExpiresAt now s.db
      ((WorkClaimService.renew claimId fencingToken leaseExpiresAt now).exec store s.db []) := by
  intro h
  obtain ⟨s, hs, -, hdb, -⟩ := Postgres.System.exec_reaches
    (.init : system.Reaches oneRoute { db := oneRoute }) rfl
    (.claim ⟨6⟩ ⟨3⟩ ⟨1⟩ ⟨2⟩ 20 10)
  refine (h s hs ⟨6⟩ 1 20 15 (by decide) (by decide)).works
    (.database (.raised "work claim renewal must extend the lease")) ?_
  rw [hdb]
  decide

end WorkClaims

end InfernalLaw
