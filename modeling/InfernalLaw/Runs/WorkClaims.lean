import InfernalLaw.Infrastructure.Background
import InfernalLaw.Infrastructure.WorkClaimRepository
import InfernalLaw.Tenure.Orderly

/-!
# Work claims in every run

The operations of the work claim repository, run concurrently with each other and with anything that
leaves `work_claims` alone. The claims of a route are an orderly history in every reachable state: a
claim is minted only once its predecessor has been released or has expired. A claimer holds its
predecessor's row lock and its own token's index entry until it commits, so what it has seen of them
still holds then, and that no other row has the next token makes the predecessor the last claim.
-/

namespace InfernalLaw

open Postgres (Contract Entry Event State Store)

/-- The claims of a route, oldest first. -/
def Db.claimsOf (d : Db) (routeId : RouteId) : List WorkClaimRow :=
  d.workClaims.filter fun r => r.routeId = routeId

/-- The claims of a route are the rows with its identifier. -/
theorem Db.mem_claimsOf {d : Db} {routeId : RouteId} {r : WorkClaimRow} :
    r ∈ d.claimsOf routeId ↔ r ∈ d.workClaims ∧ r.routeId = routeId := by
  simp [claimsOf]

namespace WorkClaims

/-! ## The operations -/

/-- What runs. The repository's functions take any time as `now`, and the identifiers that they draw
are given. -/
inductive Op where
  | claim (claimId : ClaimId) (routeId : RouteId) (workerService : ActorId)
      (workerInstance : InstanceId) (leaseExpiresAt now : ℤ)
  | renew (claimId : ClaimId) (fencingToken leaseExpiresAt now : ℤ)
  | release (claimId : ClaimId) (fencingToken now : ℤ)
  | complete (claimId : ClaimId) (fencingToken now : ℤ)
  /-- Another component's transaction. -/
  | other (writes : List Write) (h : ∀ w ∈ writes, w.table ≠ .workClaims)

/-- What an operation answers; another component's transaction answers nothing. -/
abbrev Result : Type := Option (Except WorkClaimError WorkClaim)

/-- What the operations do. -/
def program : Op → Sql Result
  | .claim claimId routeId workerService workerInstance leaseExpiresAt now =>
    (PostgresWorkClaimRepository.claim claimId routeId workerService workerInstance leaseExpiresAt
      now).bind fun r => .done (some r)
  | .renew claimId fencingToken leaseExpiresAt now =>
    (PostgresWorkClaimRepository.renew claimId fencingToken leaseExpiresAt now).bind fun r =>
      .done (some r)
  | .release claimId fencingToken now =>
    (PostgresWorkClaimRepository.release claimId fencingToken now).bind fun r => .done (some r)
  | .complete claimId fencingToken now =>
    (PostgresWorkClaimRepository.complete claimId fencingToken now).bind fun r => .done (some r)
  | .other writes _ => (background writes).bind fun _ => .done none

/-- The sessions of the kernels that share the database. -/
abbrev system : Postgres.System Db Write Key Op Result := kernelSystem program

/-! ## The invariant -/

/-- A claim that frees its route for the next one. -/
def Ended (r : WorkClaimRow) : Prop := r.status = .released ∨ r.status = .expired

/-- The claims of every route are an orderly history, under distinct identifiers, with tokens that
are `i64` values. -/
structure Inv (d : Db) : Prop where
  nodup_id : (d.workClaims.map WorkClaimRow.claimId).Nodup
  orderly : ∀ routeId, Tenure.Orderly WorkClaimRow.fencingToken Ended (d.claimsOf routeId)
  bounded : ∀ r ∈ d.workClaims, r.fencingToken < 2 ^ 63

namespace Inv

variable {d : Db} {old new : WorkClaimRow}

/-- A row that replaces another one under the same identity, and does not revive it. -/
theorem update (h : Inv d) (hmem : old ∈ d.workClaims) (hid : new.identity = old.identity)
    (hended : Ended old → Ended new) : Inv (d.apply (.workClaims (.update new))) := by
  obtain ⟨hclaim, hroute, htoken⟩ : new.claimId = old.claimId ∧ new.routeId = old.routeId ∧
      new.fencingToken = old.fencingToken := by simpa [WorkClaimRow.identity] using hid
  -- The row that is replaced is `old`.
  have hold : ∀ r ∈ d.workClaims, r.claimId = new.claimId → r = old := fun r hr hr' =>
    List.inj_on_of_nodup_map h.nodup_id hr hmem (hr'.trans hclaim)
  refine ⟨?_, fun routeId => ?_, fun r hr => ?_⟩
  · rw [Db.workClaims_apply, Postgres.RowWrite.map_pk_update]
    exact h.nodup_id
  · have hfilter : (d.apply (.workClaims (.update new))).claimsOf routeId =
        (Postgres.RowWrite.update new).apply WorkClaimRow.claimId (d.claimsOf routeId) :=
      Postgres.RowWrite.filter_update fun r hr hr' => by rw [hold r hr hr', hroute]
    rw [hfilter]
    refine (h.orderly routeId).map fun r hr => ?_
    split
    · rename_i hr'
      rw [hold r (Db.mem_claimsOf.mp hr).1 hr']
      exact ⟨htoken, hended⟩
    · exact ⟨rfl, id⟩
  · rw [Db.workClaims_apply] at hr
    rcases Postgres.RowWrite.mem_of_mem_apply hr with hr | rfl
    · exact h.bounded r hr
    · exact htoken ▸ h.bounded old hmem

/-- A new row, when all claims of its route have ended. -/
theorem insert (h : Inv d) (hid : ∀ r ∈ d.workClaims, r.claimId ≠ new.claimId)
    (hended : ∀ r ∈ d.claimsOf new.routeId, Ended r)
    (htoken : new.fencingToken = (d.claimsOf new.routeId).length + 1)
    (hbound : new.fencingToken < 2 ^ 63) : Inv (d.apply (.workClaims (.insert new))) := by
  refine ⟨?_, fun routeId => ?_, fun r hr => ?_⟩
  · rw [Db.workClaims_apply]
    refine Postgres.RowWrite.nodup_apply h.nodup_id fun x hx => ?_
    obtain rfl := Postgres.RowWrite.insert.inj hx
    exact hid
  · have hfilter : (d.apply (.workClaims (.insert new))).claimsOf routeId =
        d.claimsOf routeId ++ [new].filter fun r => r.routeId = routeId := List.filter_append ..
    rw [hfilter]
    by_cases hroute : new.routeId = routeId
    · subst hroute
      simpa using (h.orderly new.routeId).snoc hended htoken
    · simpa [hroute] using h.orderly routeId
  · rw [Db.workClaims_apply] at hr
    rcases Postgres.RowWrite.mem_of_mem_apply hr with hr | rfl
    · exact h.bounded r hr
    · exact hbound

/-- A claim is the last one of its route when its successor's token is free. -/
theorem token_eq_length (h : Inv d) (hmem : old ∈ d.claimsOf routeId)
    (hfree : ∀ r ∈ d.claimsOf routeId, r.fencingToken ≠ old.fencingToken + 1) :
    old.fencingToken = (d.claimsOf routeId).length := by
  have hold := (h.orderly routeId).number_mem hmem
  by_contra hne
  obtain ⟨r, hr, hnum⟩ := (h.orderly routeId).exists_number (k := old.fencingToken + 1) (by omega)
    (by omega)
  exact hfree r hr hnum

end Inv

/-- After the writes before the insert, all claims of the route have ended, and the token is the
next number. -/
theorem Inv.retire {d : Db} {ws : List Write} {new : WorkClaimRow} (h : Inv d)
    (hm : Mints d ws new) : Inv (store.view d ws) ∧
      (∀ r ∈ (store.view d ws).claimsOf new.routeId, Ended r) ∧
      new.fencingToken = ((store.view d ws).claimsOf new.routeId).length + 1 ∧
      new.fencingToken < 2 ^ 63 := by
  have ho := h.orderly new.routeId
  -- An old claim of the route is the last one, and the token is its successor.
  have hlast : ∀ old ∈ d.workClaims, old.routeId = new.routeId →
      new.fencingToken = wrapI64 (old.fencingToken + 1) →
      old.fencingToken = (d.claimsOf new.routeId).length ∧
        new.fencingToken = old.fencingToken + 1 ∧ new.fencingToken < 2 ^ 63 := by
    intro old hmem hroute htoken
    have hold := Db.mem_claimsOf.mpr ⟨hmem, hroute⟩
    have hpos := hm.token_pos
    have hbounds := ho.number_mem hold
    rcases wrapI64_succ (by omega) (h.bounded old hmem) with ⟨hsucc, hlt⟩ | hneg
    · refine ⟨h.token_eq_length hold fun r hr hfree => ?_, by omega, by omega⟩
      obtain ⟨hr, hroute'⟩ := Db.mem_claimsOf.mp hr
      exact hm.fresh_token r hr hroute' (by omega)
    · omega
  have hretires := hm.retires
  have hids := hretires.map_identity h.nodup_id
  generalize hn : new.fencingToken = n at hretires hlast
  cases hretires with
  | nothing =>
    have hnone : d.claimsOf new.routeId = [] := by
      by_contra hne
      obtain ⟨r, hr, hone⟩ := ho.exists_number (k := 1) le_rfl
        (by exact_mod_cast List.length_pos_iff.mpr hne)
      obtain ⟨hr, hroute⟩ := Db.mem_claimsOf.mp hr
      exact hm.fresh_token r hr hroute (hone.trans hn.symm)
    refine ⟨h, ?_, ?_, by omega⟩ <;> simp [hnone]
  | closed old hmem hroute hactive hcompleted =>
    obtain ⟨hnum, hsucc, hlt⟩ := hlast old hmem hroute rfl
    refine ⟨h, ho.all_ended (Db.mem_claimsOf.mpr ⟨hmem, hroute⟩) hnum ?_, ?_, hlt⟩
    · cases hst : old.status with
      | active => exact absurd hst hactive
      | completed => exact absurd hst hcompleted
      | released => exact .inl hst
      | expired => exact .inr hst
    · rw [Store.view_nil]
      omega
  | lapsed old hmem hroute hactive hlapsed =>
    obtain ⟨hnum, hsucc, hlt⟩ := hlast old hmem hroute rfl
    have hinv : Inv (store.view d [.workClaims (.update { old with status := .expired })]) :=
      h.update hmem rfl fun _ => .inr rfl
    -- The updated table has the same identities, so the expired claim is still the last one.
    have hlen : ((store.view d [.workClaims (.update { old with status := .expired })]).claimsOf
        new.routeId).length = (d.claimsOf new.routeId).length := by
      have hcount := congrArg (fun l : List (ClaimId × RouteId × ℤ) =>
        (l.filter fun i => i.2.1 = new.routeId).length) hids
      simp only [List.filter_map, List.length_map] at hcount
      exact hcount
    refine ⟨hinv, (hinv.orderly new.routeId).all_ended (r := { old with status := .expired })
      (Db.mem_claimsOf.mpr ⟨Postgres.RowWrite.new_mem_update hmem rfl, hroute⟩) ?_
      (.inr rfl), ?_, hlt⟩
    · rw [hlen]
      exact hnum
    · omega

/-! ## The contract -/

/-- What the commit of a successful operation does to the table: it mints the claim that it answers,
or changes the row of it. -/
inductive Step (d : Db) (c : WorkClaim) : List Write → Prop where
  | mint {ws : List Write} (h : Mints d ws c.row) : Step d c (ws ++ [.workClaims (.insert c.row)])
  | change {claimId : ClaimId} {fencingToken now : ℤ} {old : WorkClaimRow}
      (h : Changes d claimId fencingToken now old c.row) : Step d c [.workClaims (.update c.row)]

/-- An event leaves the table alone, or ends an operation with a claim. -/
def contract : Contract system where
  inv d _ := Inv d
  guar _ d ws r :=
    (∀ w ∈ ws, w.table ≠ .workClaims) ∨ ∃ c, r = some (some (.ok c)) ∧ Step d c ws

/-- Writes to other tables leave the table as it is. -/
theorem view_workClaims {ws : List Write} : ∀ {d : Db}, (∀ w ∈ ws, w.table ≠ .workClaims) →
    (store.view d ws).workClaims = d.workClaims := by
  induction ws with
  | nil => exact fun _ => rfl
  | cons w ws ih =>
    intro d h
    rw [Store.view_cons, ih fun w' hw' => h w' (List.mem_cons_of_mem _ hw'), store_apply,
      Db.apply_workClaims (h w List.mem_cons_self)]

/-- What the contract allows keeps the invariant. -/
theorem Inv.step {d : Db} {c : WorkClaim} {ws : List Write} (h : Inv d) (hs : Step d c ws) :
    Inv (store.view d ws) := by
  cases hs with
  | mint hm =>
    obtain ⟨hinv, hended, htoken, hbound⟩ := h.retire hm
    rw [Store.view_append]
    refine hinv.insert ?_ hended htoken hbound
    exact WorkClaimRow.forall_of_map_identity (hm.retires.map_identity h.nodup_id).symm
      (p := fun i => i.1 ≠ c.row.claimId) hm.fresh_id
  | @change claimId fencingToken now old hc =>
    obtain ⟨-, hprotect, -⟩ := changeWorkClaim_eq_ok.mp hc.change
    obtain ⟨⟨hid, hroute, -, -, htoken, -⟩, -, -⟩ := protectWorkClaim_eq_ok.mp hprotect
    refine h.update hc.mem (by simp [WorkClaimRow.identity, hid, hroute, htoken]) fun hended => ?_
    rw [Ended, hc.active] at hended
    rcases hended with hended | hended <;> cases hended

/-- Writes to other tables keep the invariant. -/
theorem Inv.other {d : Db} {ws : List Write} (h : Inv d)
    (hother : ∀ w ∈ ws, w.table ≠ .workClaims) :
    Inv (store.view d ws) := by
  refine ⟨?_, fun routeId => ?_, ?_⟩
  · rw [view_workClaims hother]
    exact h.nodup_id
  · rw [Db.claimsOf, view_workClaims hother]
    exact h.orderly routeId
  · rw [view_workClaims hother]
    exact h.bounded

/-- The rule of the operations, in any system whose operations keep the claims' identifiers
distinct: an operation answers an error, or a claim that its commit has minted or changed. -/
theorem wp_program {Op' α : Type} {program' : Op' → Sql α} {C : Contract (kernelSystem program')}
    {op' : Op'} (hquiet : ∀ d, C.guar op' d [] none)
    (hpk : ∀ d, C.Good d → (d.workClaims.map WorkClaimRow.claimId).Nodup) {Q : C.Post Result}
    (op : Op) (herr : ∀ d er, C.Good d → Q (some (.error er)) d [] [] [])
    (hok : ∀ d c ws, C.Good d → Step d c ws → Q (some (.ok c)) d ws [] [])
    (hother : ∀ writes h, op = .other writes h → ∀ d, C.Good d →
      Q none d [] [] [] ∧ Q none d writes [] []) {e : Db} :
    C.wp op' (program op) Q e [] [] [] := by
  cases op with
  | claim =>
    refine Contract.wp_bind.mpr (PostgresWorkClaimRepository.wp_claim hquiet hpk herr ?_)
    exact fun d ws c hg _ hm => hok d c _ hg (.mint hm)
  | renew =>
    refine Contract.wp_bind.mpr (PostgresWorkClaimRepository.wp_changeLocked hquiet hpk herr ?_)
    exact fun d old c hg _ hc => hok d c _ hg (.change hc)
  | release =>
    refine Contract.wp_bind.mpr (PostgresWorkClaimRepository.wp_changeLocked hquiet hpk herr ?_)
    exact fun d old c hg _ hc => hok d c _ hg (.change hc)
  | complete =>
    refine Contract.wp_bind.mpr (PostgresWorkClaimRepository.wp_changeLocked hquiet hpk herr ?_)
    exact fun d old c hg _ hc => hok d c _ hg (.change hc)
  | other writes hwrites =>
    exact Contract.wp_bind.mpr (wp_background hquiet
      (fun d hg => (hother writes hwrites rfl d hg).1)
      fun d hg => (hother writes hwrites rfl d hg).2)

/-- Every operation keeps to the contract. -/
theorem contract_sound : contract.Sound where
  stutter _ _ := .inl (by simp)
  preserves id op d log ws r hinv hguar := by
    rcases hguar with hother | ⟨c, -, hs⟩
    · exact hinv.other hother
    · exact hinv.step hs
  program op e _ := by
    have hquiet : ∀ d, contract.guar op d [] none := fun _ => .inl (by simp)
    refine wp_program hquiet (fun d ⟨_, hinv⟩ => hinv.nodup_id) op ?_ ?_ ?_
    · exact fun d er _ => .inl (by simp)
    · exact fun d c ws _ hs => .inr ⟨c, rfl, hs⟩
    · exact fun writes hwrites _ d _ => ⟨.inl (by simp), .inl hwrites⟩

/-! ## What holds in every run -/

/-- The claims of every route: the tokens are `1, ..., n`, and an active or completed claim is the
only one of its kind, with the highest token. -/
structure Safe (d : Db) : Prop where
  tokens : ∀ routeId, (d.claimsOf routeId).map WorkClaimRow.fencingToken =
    (List.range (d.claimsOf routeId).length).map fun i : ℕ => (i : ℤ) + 1
  active : ∀ routeId, ∀ r ∈ d.claimsOf routeId, r.status = .active →
    ∀ r' ∈ d.claimsOf routeId, r' ≠ r → r'.status ≠ .active ∧ r'.fencingToken < r.fencingToken
  completed : ∀ routeId, ∀ r ∈ d.claimsOf routeId, r.status = .completed →
    ∀ r' ∈ d.claimsOf routeId, r' ≠ r → r'.status ≠ .completed ∧ r'.fencingToken < r.fencingToken

namespace Inv

variable {d : Db} {c : WorkClaim} {ws : List Write} {r r' : WorkClaimRow} {routeId : RouteId}

/-- A claim that has not ended has a higher token than the others, which have ended. -/
theorem lt_of_not_ended (h : Inv d) (hr : r ∈ d.claimsOf routeId) (he : ¬ Ended r)
    (hr' : r' ∈ d.claimsOf routeId) (hne : r' ≠ r) :
    Ended r' ∧ r'.fencingToken < r.fencingToken := by
  have ho := h.orderly routeId
  have hlast := ho.number_of_not_ended hr he
  have hbound := ho.number_mem hr'
  have hnum : r'.fencingToken ≠ r.fencingToken := fun heq =>
    hne (List.inj_on_of_nodup_map ho.nodup_number hr' hr heq)
  refine ⟨?_, by omega⟩
  by_contra hnot
  exact hnum ((ho.number_of_not_ended hr' hnot).trans hlast.symm)

/-- The invariant gives the safety of the claims. -/
theorem safe (h : Inv d) : Safe d where
  tokens routeId := (h.orderly routeId).map_number
  active routeId r hr hst r' hr' hne := by
    obtain ⟨hended, hlt⟩ := h.lt_of_not_ended hr (by simp [Ended, hst]) hr' hne
    exact ⟨by rcases hended with hst' | hst' <;> simp [hst'], hlt⟩
  completed routeId r hr hst r' hr' hne := by
    obtain ⟨hended, hlt⟩ := h.lt_of_not_ended hr (by simp [Ended, hst]) hr' hne
    exact ⟨by rcases hended with hst' | hst' <;> simp [hst'], hlt⟩

end Inv

/-- The writes of a commit: an active row of the claim's route is replaced under the same identity,
the claim is inserted, or both. -/
theorem Step.writes {d : Db} {c : WorkClaim} {ws : List Write} (hs : Step d c ws) :
    ws = [.workClaims (.insert c.row)] ∨ ∃ old ∈ d.workClaims, old.status = .active ∧
      old.routeId = c.routeId ∧ ∃ new, new.identity = old.identity ∧
        (ws = [.workClaims (.update new)] ∨
          ws = [.workClaims (.update new), .workClaims (.insert c.row)]) := by
  cases hs with
  | @mint ws hm =>
    have hretires := hm.retires
    generalize hroute : c.row.routeId = route at hretires
    generalize c.row.fencingToken = token at hretires
    cases hretires with
    | nothing => exact .inl rfl
    | closed => exact .inl rfl
    | lapsed old hmem hroute' hactive =>
      exact .inr ⟨old, hmem, hactive, hroute'.trans hroute.symm, { old with status := .expired },
        rfl, .inr rfl⟩
  | @change claimId fencingToken now old hc =>
    obtain ⟨-, hprotect, -⟩ := changeWorkClaim_eq_ok.mp hc.change
    obtain ⟨⟨hid, hroute, -, -, htoken, -⟩, -, -⟩ := protectWorkClaim_eq_ok.mp hprotect
    exact .inr ⟨old, hc.mem, hc.active, hroute.symm, c.row,
      by simp [WorkClaimRow.identity, hid, hroute, htoken], .inl rfl⟩

/-- A row that is not active stays. -/
theorem Step.mem {d : Db} {c : WorkClaim} {ws : List Write} (h : Inv d) (hs : Step d c ws)
    {r : WorkClaimRow} (hr : r ∈ d.workClaims) (hst : r.status ≠ .active) :
    r ∈ (store.view d ws).workClaims := by
  rcases hs.writes with rfl | ⟨old, hmem, hactive, -, new, hid, hws⟩
  · exact List.mem_append_left _ hr
  · have hne : r.claimId ≠ new.claimId := by
      intro heq
      have hid' : new.claimId = old.claimId := congrArg Prod.fst hid
      exact hst (List.inj_on_of_nodup_map h.nodup_id hr hmem (heq.trans hid') ▸ hactive)
    have hupdate : r ∈ (d.apply (.workClaims (.update new))).workClaims := by
      rw [Db.workClaims_apply]
      exact Postgres.RowWrite.mem_apply_of_ne hr hne
    rcases hws with rfl | rfl
    · exact hupdate
    · exact List.mem_append_left _ hupdate

/-- The claims of another route stay. -/
theorem Step.claimsOf {d : Db} {c : WorkClaim} {ws : List Write} (h : Inv d) (hs : Step d c ws)
    {routeId : RouteId} (hne : routeId ≠ c.routeId) :
    (store.view d ws).claimsOf routeId = d.claimsOf routeId := by
  have hinsert : ∀ d' : Db, (d'.apply (.workClaims (.insert c.row))).claimsOf routeId =
      d'.claimsOf routeId := by
    intro d'
    have hroute : c.row.routeId ≠ routeId := fun heq => hne heq.symm
    simp [Db.claimsOf, Db.workClaims_apply, hroute]
  rcases hs.writes with rfl | ⟨old, hmem, -, hroute, new, hid, hws⟩
  · exact hinsert d
  · obtain ⟨hid', hroute', -⟩ : new.claimId = old.claimId ∧ new.routeId = old.routeId ∧
        new.fencingToken = old.fencingToken := by simpa [WorkClaimRow.identity] using hid
    have hold : ∀ r ∈ d.workClaims, r.claimId = new.claimId → r = old := fun r hr heq =>
      List.inj_on_of_nodup_map h.nodup_id hr hmem (heq.trans hid')
    have hupdate : (d.apply (.workClaims (.update new))).claimsOf routeId = d.claimsOf routeId := by
      refine (Postgres.RowWrite.filter_update fun r hr heq => ?_).trans
        (Postgres.RowWrite.apply_update_of_not_mem fun r hr heq => ?_)
      · rw [hold r hr heq, hroute']
      · obtain ⟨hr, hr'⟩ := Db.mem_claimsOf.mp hr
        rw [hold r hr heq] at hr'
        exact hne (hr'.symm.trans hroute)
    rcases hws with rfl | rfl
    · exact hupdate
    · exact (hinsert _).trans hupdate

/-- The invariant holds in every run from an empty table. -/
theorem holds {d₀ : Db} (h₀ : d₀.workClaims = []) {s : State Db Write Key Op Result}
    (hs : system.Reaches d₀ s) : contract.Holds s := by
  refine contract_sound.reaches (fun _ _ _ => ?_) ⟨?_, fun routeId => ?_, ?_⟩ hs
  · exact fun _ _ _ _ _ _ _ _ => trivial
  · rw [h₀]
    exact List.nodup_nil
  · rw [Db.claimsOf, h₀]
    exact .nil
  · rw [h₀]
    exact fun _ h => absurd h List.not_mem_nil

/-- What one event does to the table: nothing, or it ends its operation with a claim. -/
theorem event {d₀ : Db} (h₀ : d₀.workClaims = []) {s s' : State Db Write Key Op Result}
    (hs : system.Reaches d₀ s) {ev : Event Op} (hstep : system.step s ev = some s') :
    s'.db.workClaims = s.db.workClaims ∨ ∃ id op c ws, s.Runs ev id op ∧ Step s.db c ws ∧
      s'.db = store.view s.db ws ∧ s'.log = s.log ++ [⟨id, op, some (.ok c)⟩] := by
  obtain ⟨-, id, op, ws, r, hruns, hguar, hdb, hlog⟩ :=
    (holds h₀ hs).step contract_sound (fun _ _ _ _ _ _ _ _ => trivial) hstep
  rcases hguar with hother | ⟨c, rfl, hstep⟩
  · exact .inl (by rw [hdb]; exact view_workClaims hother)
  · exact .inr ⟨id, op, c, ws, hruns, hstep, hdb, hlog⟩

/-- A row that is not active stays for good. -/
theorem later_mem {d₀ : Db} (h₀ : d₀.workClaims = []) {s s' : State Db Write Key Op Result}
    (hs : system.Reaches d₀ s) (hl : system.Later s s') {r : WorkClaimRow}
    (hr : r ∈ s.db.workClaims) (hst : r.status ≠ .active) : r ∈ s'.db.workClaims := by
  induction hl with
  | refl => exact hr
  | @tail t t' hl hstep ih =>
    obtain ⟨ev, hstep⟩ := hstep
    rcases event h₀ (hs.later hl) hstep with heq | ⟨id, op, c, ws, -, hs', hdb, -⟩
    · rw [heq]
      exact ih
    · rw [hdb]
      exact hs'.mem (holds h₀ (hs.later hl)).inv ih hst

/-- A completed route has no further claim. -/
theorem completed_closed {d₀ : Db} (h₀ : d₀.workClaims = []) {s s' : State Db Write Key Op Result}
    (hs : system.Reaches d₀ s) (hl : system.Later s s') {r r' : WorkClaimRow}
    (hr : r ∈ s.db.workClaims) (hst : r.status = .completed) (hr' : r' ∈ s'.db.claimsOf r.routeId) :
    r' ∈ s.db.claimsOf r.routeId := by
  have hinv := (holds h₀ hs).inv
  have ho := hinv.orderly r.routeId
  have ho' := (holds h₀ (hs.later hl)).inv.orderly r.routeId
  have hne : ¬ Ended r := by simp [Ended, hst]
  have hmem := Db.mem_claimsOf.mpr ⟨hr, rfl⟩
  have hmem' := Db.mem_claimsOf.mpr ⟨later_mem h₀ hs hl hr (by simp [hst]), rfl⟩
  -- The completed claim has the highest token before and after, so the histories have one length.
  have hlen := ho.number_of_not_ended hmem hne
  have hlen' := ho'.number_of_not_ended hmem' hne
  have hnum := ho'.number_mem hr'
  obtain ⟨x, hx, hxr⟩ := ho.exists_number hnum.1 (by omega)
  have hx' : x ∈ s'.db.claimsOf r.routeId := by
    by_cases hxr' : x = r
    · rw [hxr']
      exact hmem'
    · obtain ⟨hxmem, hxroute⟩ := Db.mem_claimsOf.mp hx
      obtain ⟨hended, -⟩ := hinv.lt_of_not_ended hmem hne hx hxr'
      refine Db.mem_claimsOf.mpr ⟨later_mem h₀ hs hl hxmem ?_, hxroute⟩
      rcases hended with h | h <;> simp [h]
  rw [List.inj_on_of_nodup_map ho'.nodup_number hr' hx' hxr.symm]
  exact hx

/-- Work-claim safety, in every state `s` of every run from an empty table. -/
theorem workClaims_safe {d₀ : Db} (h₀ : d₀.workClaims = []) {s : State Db Write Key Op Result}
    (hs : system.Reaches d₀ s) :
    Safe s.db ∧
    -- A row that is not active never changes again.
    (∀ s', system.Later s s' → ∀ r ∈ s.db.workClaims, r.status ≠ .active →
      r ∈ s'.db.workClaims ∧ ∀ r' ∈ s'.db.workClaims, r'.claimId = r.claimId → r' = r) ∧
    -- A completed route has no further claim.
    (∀ s', system.Later s s' → ∀ r ∈ s.db.workClaims, r.status = .completed →
      ∀ r' ∈ s'.db.claimsOf r.routeId, r' ∈ s.db.claimsOf r.routeId) ∧
    -- An operation changes the table in one event at most, and there rows of one route only.
    (∀ ev s' id op, system.step s ev = some s' → s.Runs ev id op →
      s'.db.workClaims ≠ s.db.workClaims →
      (∃ routeId, ∀ other ≠ routeId, s'.db.claimsOf other = s.db.claimsOf other) ∧
      ∀ s₂, system.Later s' s₂ → ∀ ev₂ op₂, ¬ s₂.Runs ev₂ id op₂) ∧
    -- An operation that answers an error changes nothing in any of its events.
    (∀ ev s' id op, system.step s ev = some s' → s.Runs ev id op →
      ∀ s₂ op₂ error, system.Later s' s₂ → ⟨id, op₂, some (.error error)⟩ ∈ s₂.log →
      s'.db.workClaims = s.db.workClaims) := by
  have hinv := (holds h₀ hs).inv
  refine ⟨hinv.safe, fun s' hl r hr hst => ?_, fun s' hl r hr hst r' hr' => ?_,
    fun ev s' id op hstep hruns hchanged => ?_,
    fun ev s' id op hstep hruns s₂ op₂ error hl he => ?_⟩
  · have hr' := later_mem h₀ hs hl hr hst
    exact ⟨hr', fun r'' hr'' hid =>
      List.inj_on_of_nodup_map (holds h₀ (hs.later hl)).inv.nodup_id hr'' hr' hid⟩
  · exact completed_closed h₀ hs hl hr hst hr'
  · rcases event h₀ hs hstep with heq | ⟨id', op', c, ws, hruns', hs', hdb, hlog⟩
    · exact absurd heq hchanged
    obtain ⟨rfl, rfl⟩ := hruns.unique (holds h₀ hs).wellFormed hruns'
    refine ⟨⟨c.routeId, fun other hne => ?_⟩, fun s₂ hl ev₂ op₂ => ?_⟩
    · rw [hdb]
      exact hs'.claimsOf hinv hne
    · have hs₁ : system.Reaches d₀ s' := .step ev hs trivial hstep
      exact (holds h₀ (hs₁.later hl)).wellFormed.not_runs
        (hl.log_extends.subset (hlog ▸ List.mem_append_right _ (List.mem_singleton_self _)))
  · rcases event h₀ hs hstep with heq | ⟨id', op', c, ws, hruns', -, -, hlog⟩
    · exact heq
    obtain ⟨rfl, rfl⟩ := hruns.unique (holds h₀ hs).wellFormed hruns'
    -- The operation would have two entries in the log.
    have hs₁ : system.Reaches d₀ s' := .step ev hs trivial hstep
    have hok : (⟨id, op, some (.ok c)⟩ : Entry Op Result) ∈ s₂.log :=
      hl.log_extends.subset (hlog ▸ List.mem_append_right _ (List.mem_singleton_self _))
    have heq := List.inj_on_of_nodup_map (holds h₀ (hs₁.later hl)).wellFormed.log_nodup hok he rfl
    cases heq

/-- A database with one service, one instance of it, and one route to it. -/
def oneRoute : Db where
  identityRows := [⟨⟨1⟩, .service, ['a'], .active⟩]
  serviceInstances := [⟨⟨2⟩, ⟨1⟩, "https://worker".toList, 0, 1000, 1, none⟩]
  requestRoutes := [⟨⟨3⟩, ⟨1⟩, ⟨4⟩, ⟨5⟩, ⟨1⟩, 0⟩]

/-- A claim whose lease lapses, its successor, and the completion of that. -/
theorem workClaims_safe_takeover : ∃ s, system.Reaches oneRoute s ∧
    s.db.workClaims.map WorkClaimRow.status = [.expired, .completed] ∧ Safe s.db := by
  obtain ⟨s₁, hs₁, hidle₁, hdb₁, -⟩ := Postgres.System.exec_reaches
    (.init : system.Reaches oneRoute { db := oneRoute }) rfl
    (.claim ⟨6⟩ ⟨3⟩ ⟨1⟩ ⟨2⟩ 20 10)
  obtain ⟨s₂, hs₂, hidle₂, hdb₂, -⟩ := Postgres.System.exec_reaches hs₁ hidle₁
    (.claim ⟨7⟩ ⟨3⟩ ⟨1⟩ ⟨2⟩ 50 30)
  obtain ⟨s₃, hs₃, -, hdb₃, -⟩ := Postgres.System.exec_reaches hs₂ hidle₂ (.complete ⟨7⟩ 2 40)
  refine ⟨s₃, hs₃, ?_, (workClaims_safe rfl hs₃).1⟩
  rw [hdb₃, hdb₂, hdb₁]
  decide

end WorkClaims

end InfernalLaw
