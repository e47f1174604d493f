import Mathlib.Data.List.Dedup
import Mathlib.Data.List.MinMax
import InfernalLaw.Infrastructure.Constraints
import InfernalLaw.Postgres.Rules

/-!
# The work claim repository

`PostgresWorkClaimRepository`: `claim`, `renew`, `release` and `complete` as processes over the
database, and what each of them may commit. The rules at the end hold under any contract in which an
event may commit nothing: they leave to the contract's user what the operation's last event means.
-/

namespace InfernalLaw

open Postgres (Contract DbError Store System)
open Postgres.Proc
  (autocommit commitNow insert ensure one orFail query selectForUpdate transaction update)

/-- `repository_error`. -/
def WorkClaimError.ofDatabase (e : DbError) : WorkClaimError := .repository (.database e)

/-- `claim_from_row`. -/
def claimFromRow (row : WorkClaimRow) : Except WorkClaimError WorkClaim :=
  (WorkClaim.restore row.claimId row.routeId row.workerServiceId row.workerInstanceId
    row.fencingToken row.status row.claimedAt row.leaseExpiresAt).mapError
      fun _ => .repository (.kernel "stored work claim is invalid")

namespace PostgresWorkClaimRepository

/-- `ROUTE_DESTINATION_SQL`. -/
def routeDestination (routeId : RouteId) : Sql (Except DbError (Option ActorId)) :=
  query "ROUTE_DESTINATION_SQL" fun d =>
    (d.requestRoutes.find? fun r => r.routeId = routeId).map RouteRow.destinationServiceId

/-- `LOCK_LATEST_CLAIM_FOR_ROUTE_SQL`. -/
def lockLatestClaimForRoute (routeId : RouteId) : Sql (Except DbError (Option WorkClaimRow)) :=
  selectForUpdate "LOCK_LATEST_CLAIM_FOR_ROUTE_SQL"
    (fun d => (d.workClaims.filter fun r => r.routeId = routeId).argmax WorkClaimRow.fencingToken)
    (fun r => .claim r.claimId)
    fun d r => d.workClaims.find? fun r' => r'.claimId = r.claimId ∧ r'.routeId = routeId

/-- `LOCK_CLAIM_BY_ID_SQL`. -/
def lockClaimById (claimId : ClaimId) : Sql (Except DbError (Option WorkClaimRow)) :=
  selectForUpdate "LOCK_CLAIM_BY_ID_SQL" (fun d => d.workClaims.find? fun r => r.claimId = claimId)
    (fun r => .claim r.claimId) fun d r => d.workClaims.find? fun r' => r'.claimId = r.claimId

/-- `INSERT_CLAIM_SQL`, which waits for a transaction that may end the route's active claim. -/
def insertClaim (row : WorkClaimRow) : Sql (Except DbError Unit) :=
  insert store "INSERT_CLAIM_SQL"
    (fun d => (d.workClaims.filter fun r => r.routeId = row.routeId ∧ r.status = .active).map
      fun r => .claim r.claimId)
    (fun d => d.checkWorkClaim row) (.workClaims (.insert row))

/-- An `UPDATE work_claims ... WHERE claim_id = $1`, with the row as it is changed. -/
def updateClaim (sql : String) (claimId : ClaimId) (change : WorkClaimRow → WorkClaimRow) :
    Sql (Except DbError (Option WorkClaimRow)) :=
  update sql (fun d => d.workClaims.find? fun r => r.claimId = claimId) (fun r => .claim r.claimId)
    (fun d r => d.workClaims.find? fun r' => r'.claimId = r.claimId)
    (fun _ old => changeWorkClaim old (change old)) fun new => .workClaims (.update new)

/-- `EXPIRE_SQL`. -/
def expire (claimId : ClaimId) : Sql (Except DbError (Option WorkClaimRow)) :=
  updateClaim "EXPIRE_SQL" claimId fun row => { row with status := .expired }

/-- `RENEW_SQL`. -/
def renewRow (claimId : ClaimId) (leaseExpiresAt : ℤ) :
    Sql (Except DbError (Option WorkClaimRow)) :=
  updateClaim "RENEW_SQL" claimId fun row => { row with leaseExpiresAt }

/-- `TRANSITION_SQL`. -/
def transitionRow (claimId : ClaimId) (status : WorkClaimStatus) :
    Sql (Except DbError (Option WorkClaimRow)) :=
  updateClaim "TRANSITION_SQL" claimId fun row => { row with status }

/-- What `claim` does about the route's latest claim: refuse, or retire it. The answer is the next
fencing token. -/
def supersede (routeId : RouteId) (now : ℤ) :
    Option WorkClaimRow → Fallible WorkClaimError ℤ
  | none => return 1
  | some row => do
    let claim ← ensure (claimFromRow row)
    if claim.isCurrent now then
      throw (.alreadyClaimed routeId)
    -- A completed route is never claimed again, whatever the time.
    else if claim.status = .completed then
      throw (.alreadyCompleted routeId)
    else if claim.status = .active then do
      let _ ← orFail .ofDatabase (expire claim.id)
      return wrapI64 (claim.fencingToken + 1)
    else
      return wrapI64 (claim.fencingToken + 1)

/-- `claim`, with the claim identifier that it draws. -/
def claim (claimId : ClaimId) (routeId : RouteId) (workerService : ActorId)
    (workerInstance : InstanceId) (leaseExpiresAt now : ℤ) : Sql
      (Except WorkClaimError WorkClaim) :=
  transaction do
    let destination ← orFail .ofDatabase (routeDestination routeId)
    if destination ≠ some workerService then
      throw (.routeNotFound routeId)
    else do
      let latest ← orFail .ofDatabase (lockLatestClaimForRoute routeId)
      let nextFencingToken ← supersede routeId now latest
      let row : WorkClaimRow :=
        { claimId, routeId, workerServiceId := workerService, workerInstanceId := workerInstance
          fencingToken := nextFencingToken, status := .active, claimedAt := now, leaseExpiresAt }
      let _ ← orFail .ofDatabase (insertClaim row)
      let claim ← ensure (claimFromRow row)
      let _ ← orFail .ofDatabase commitNow
      return claim

/-- `lock_current`: the claim, if the token is its own and it is current. -/
def lockCurrent (claimId : ClaimId) (fencingToken now : ℤ) :
    Fallible WorkClaimError WorkClaim := do
  let row ← orFail .ofDatabase (lockClaimById claimId)
  let row ← ensure (row.elim (.error (.notFound claimId)) .ok)
  let claim ← ensure (claimFromRow row)
  if claim.fencingToken ≠ fencingToken ∨ claim.isCurrent now = false then
    throw .fenced
  else
    return claim

/-- What `renew` and `transition` do with the claim that they have locked: change its row. -/
def changeLocked (claimId : ClaimId) (fencingToken now : ℤ)
    (statement : ClaimId → Sql (Except DbError (Option WorkClaimRow))) :
    Sql (Except WorkClaimError WorkClaim) :=
  transaction do
    let current ← lockCurrent claimId fencingToken now
    let row ← orFail .ofDatabase (one (statement current.id))
    let claim ← ensure (claimFromRow row)
    let _ ← orFail .ofDatabase commitNow
    return claim

/-- `renew`. -/
def renew (claimId : ClaimId) (fencingToken leaseExpiresAt now : ℤ) :
    Sql (Except WorkClaimError WorkClaim) :=
  changeLocked claimId fencingToken now fun id => renewRow id leaseExpiresAt

/-- `transition`. -/
def transition (claimId : ClaimId) (fencingToken now : ℤ) (status : WorkClaimStatus) :
    Sql (Except WorkClaimError WorkClaim) :=
  changeLocked claimId fencingToken now fun id => transitionRow id status

/-- `release`. -/
def release (claimId : ClaimId) (fencingToken now : ℤ) : Sql (Except WorkClaimError WorkClaim) :=
  transition claimId fencingToken now .released

/-- `complete`. -/
def complete (claimId : ClaimId) (fencingToken now : ℤ) : Sql (Except WorkClaimError WorkClaim) :=
  transition claimId fencingToken now .completed

/-- `ACTIVE_ROUTE_IDS_SQL`. -/
def activeRouteIdRows (routeIds : List RouteId) (now : ℤ) (d : Db) : List RouteId :=
  ((d.workClaims.filter fun r =>
    r.routeId ∈ routeIds ∧ r.status = .active ∧ now < r.leaseExpiresAt).map
      WorkClaimRow.routeId).dedup

/-- `active_route_ids`. -/
def activeRouteIds (routeIds : List RouteId) (now : ℤ) : Fallible WorkClaimError (List RouteId) :=
  if routeIds.isEmpty then return []
  else orFail .ofDatabase
    (autocommit (query "ACTIVE_ROUTE_IDS_SQL" (activeRouteIdRows routeIds now)))

/-- `COMPLETED_ROUTE_IDS_SQL`. -/
def completedRouteIdRows (routeIds : List RouteId) (d : Db) : List RouteId :=
  ((d.workClaims.filter fun r => r.routeId ∈ routeIds ∧ r.status = .completed).map
    WorkClaimRow.routeId).dedup

/-- `completed_route_ids`. -/
def completedRouteIds (routeIds : List RouteId) : Fallible WorkClaimError (List RouteId) :=
  if routeIds.isEmpty then return []
  else orFail .ofDatabase
    (autocommit (query "COMPLETED_ROUTE_IDS_SQL" (completedRouteIdRows routeIds)))

end PostgresWorkClaimRepository

namespace WorkClaimService

/-- `WorkClaimService::claim`. -/
def claim (claimId : ClaimId) (routeId : RouteId) (workerService : ActorId)
    (workerInstance : InstanceId) (leaseExpiresAt now : ℤ) : Sql
      (Except WorkClaimError WorkClaim) :=
  if now < 0 ∨ leaseExpiresAt ≤ now then .done (.error .invalidLease)
  else PostgresWorkClaimRepository.claim claimId routeId workerService workerInstance leaseExpiresAt
    now

/-- `WorkClaimService::renew`. -/
def renew (claimId : ClaimId) (fencingToken leaseExpiresAt now : ℤ) :
    Sql (Except WorkClaimError WorkClaim) :=
  if now < 0 ∨ leaseExpiresAt ≤ now then .done (.error .invalidLease)
  else PostgresWorkClaimRepository.renew claimId fencingToken leaseExpiresAt now

/-- `WorkClaimService::release`. -/
def release (claimId : ClaimId) (fencingToken now : ℤ) : Sql (Except WorkClaimError WorkClaim) :=
  if now < 0 then .done (.error .invalidLease)
  else PostgresWorkClaimRepository.release claimId fencingToken now

/-- `WorkClaimService::complete`. -/
def complete (claimId : ClaimId) (fencingToken now : ℤ) : Sql (Except WorkClaimError WorkClaim) :=
  if now < 0 then .done (.error .invalidLease)
  else PostgresWorkClaimRepository.complete claimId fencingToken now

/-- `WorkClaimService::active_route_ids`. -/
def activeRouteIds (routeIds : List RouteId) (now : ℤ) : Fallible WorkClaimError (List RouteId) :=
  if now < 0 then throw .invalidTimestamp
  else PostgresWorkClaimRepository.activeRouteIds routeIds now

/-- `WorkClaimService::completed_route_ids`. -/
def completedRouteIds (routeIds : List RouteId) : Fallible WorkClaimError (List RouteId) :=
  PostgresWorkClaimRepository.completedRouteIds routeIds

end WorkClaimService

/-! ## Rows and claims -/

/-- The stored form of a claim. -/
def WorkClaim.row (c : WorkClaim) : WorkClaimRow where
  claimId := c.id
  routeId := c.routeId
  workerServiceId := c.workerService
  workerInstanceId := c.workerInstance
  fencingToken := c.fencingToken
  status := c.status
  claimedAt := c.claimedAt
  leaseExpiresAt := c.leaseExpiresAt

/-- A row is read as the claim of which it is the stored form. -/
theorem claimFromRow_eq_ok {row : WorkClaimRow} {c : WorkClaim} :
    claimFromRow row = .ok c ↔ c.row = row := by
  obtain ⟨id, routeId, service, inst, token, status, claimedAt, lease⟩ := row
  obtain ⟨id', routeId', service', inst', token', status', claimedAt', lease', ht, hl⟩ := c
  simp only [claimFromRow, WorkClaim.restore, WorkClaim.row, WorkClaimRow.mk.injEq]
  split
  · simp only [Except.mapError, reduceCtorEq, false_iff]
    rintro ⟨-, -, -, -, rfl, -⟩
    omega
  · split
    · simp only [Except.mapError, reduceCtorEq, false_iff]
      rintro ⟨-, -, -, -, -, -, rfl, rfl⟩
      omega
    · simp only [Except.mapError, Except.ok.injEq, WorkClaim.mk.injEq]
      exact ⟨fun ⟨h₁, h₂, h₃, h₄, h₅, h₆, h₇, h₈⟩ =>
          ⟨h₁.symm, h₂.symm, h₃.symm, h₄.symm, h₅.symm, h₆.symm, h₇.symm, h₈.symm⟩,
        fun ⟨h₁, h₂, h₃, h₄, h₅, h₆, h₇, h₈⟩ =>
          ⟨h₁.symm, h₂.symm, h₃.symm, h₄.symm, h₅.symm, h₆.symm, h₇.symm, h₈.symm⟩⟩

/-! ## Stable facts -/

/-- Claims come in addition, or get a new version. -/
theorem workClaims_versioned :
    store.Versioned Db.workClaims Write.workClaims WorkClaimRow.claimId where
  apply_write _ _ := rfl
  apply_other _ w hw := by cases w <;> first | rfl | exact absurd rfl (hw _)

/-- A row of `work_claims` after a write was there before, or was written. -/
theorem Db.mem_workClaims_apply {d : Db} {w : Write} {r : WorkClaimRow}
    (h : r ∈ (d.apply w).workClaims) :
    r ∈ d.workClaims ∨ ∃ rw, w = .workClaims rw ∧ r = rw.row := by
  cases w with
  | workClaims rw => exact (Postgres.RowWrite.mem_of_mem_apply h).imp_right fun h => ⟨rw, rfl, h⟩
  | _ => exact .inl h

/-- What holds of all rows stays so, if a row with unlocked keys satisfies it. -/
theorem stable_forall_workClaims {locks : List Key} {p : WorkClaimRow → Prop}
    (hp : ∀ rw, (∀ k ∈ (Write.workClaims rw).keys, k ∉ locks) → p rw.row) :
    store.Stable locks fun d => ∀ r ∈ d.workClaims, p r := by
  intro d w hd hk r hr
  rcases Db.mem_workClaims_apply hr with hr | ⟨rw, rfl, rfl⟩
  · exact hd r hr
  · exact hp rw hk

/-- A locked row stays as it is. -/
theorem stable_mem_workClaims {locks : List Key} {row : WorkClaimRow}
    (hl : .claim row.claimId ∈ locks) : store.Stable locks fun d => row ∈ d.workClaims := by
  intro d w hd hk
  cases w with
  | workClaims rw =>
    refine Postgres.RowWrite.mem_apply_of_ne hd fun heq => ?_
    exact hk (.claim rw.row.claimId) (by simp [Write.keys]) (heq ▸ hl)
  | _ => exact hd

/-! ## What the operations commit -/

/-- The row that `claim` retires, and the writes of its transaction before the insert. -/
inductive Retires (routeId : RouteId) (now : ℤ) (d : Db) : ℤ → List Write → Prop where
  /-- The route has no claim that the transaction has seen. -/
  | nothing : Retires routeId now d 1 []
  /-- The latest claim was released, or has been marked as expired. -/
  | closed (old : WorkClaimRow) (hmem : old ∈ d.workClaims) (hroute : old.routeId = routeId)
      (hactive : old.status ≠ .active) (hcompleted : old.status ≠ .completed) :
      Retires routeId now d (wrapI64 (old.fencingToken + 1)) []
  /-- The latest claim is active, and its lease has lapsed. -/
  | lapsed (old : WorkClaimRow) (hmem : old ∈ d.workClaims) (hroute : old.routeId = routeId)
      (hactive : old.status = .active) (hlapsed : old.leaseExpiresAt ≤ now) :
      Retires routeId now d (wrapI64 (old.fencingToken + 1))
        [.workClaims (.update { old with status := .expired })]

/-- What the unique indexes and the primary key are about, besides the status. -/
def WorkClaimRow.identity (r : WorkClaimRow) : ClaimId × RouteId × ℤ :=
  (r.claimId, r.routeId, r.fencingToken)

/-- Tables with the same identities agree on what is about the identities. -/
theorem WorkClaimRow.forall_of_map_identity {l l' : List WorkClaimRow}
    (h : l.map WorkClaimRow.identity = l'.map WorkClaimRow.identity)
    {p : ClaimId × RouteId × ℤ → Prop} (hp : ∀ r ∈ l, p r.identity) : ∀ r ∈ l', p r.identity := by
  intro r hr
  have hmem : r.identity ∈ l.map WorkClaimRow.identity := h ▸ List.mem_map_of_mem hr
  obtain ⟨r', hr', heq⟩ := List.mem_map.mp hmem
  exact heq ▸ hp r' hr'

/-- Retiring a claim leaves the identities as they are. -/
theorem Retires.map_identity {routeId : RouteId} {now token : ℤ} {d : Db} {ws : List Write}
    (h : Retires routeId now d token ws) (hpk : (d.workClaims.map WorkClaimRow.claimId).Nodup) :
    (store.view d ws).workClaims.map WorkClaimRow.identity =
      d.workClaims.map WorkClaimRow.identity := by
  cases h with
  | nothing => rfl
  | closed => rfl
  | lapsed old hmem =>
    refine Postgres.RowWrite.map_update fun r hr hid => ?_
    rw [List.inj_on_of_nodup_map hpk hr hmem hid]
    rfl

/-- What holds when `claim` commits the row `new` after the writes `ws`. -/
structure Mints (d : Db) (ws : List Write) (new : WorkClaimRow) : Prop where
  retires : Retires new.routeId new.claimedAt d new.fencingToken ws
  status : new.status = .active
  token_pos : 1 ≤ new.fencingToken
  lease : 0 ≤ new.claimedAt ∧ new.claimedAt < new.leaseExpiresAt
  fresh_id : ∀ r ∈ d.workClaims, r.claimId ≠ new.claimId
  fresh_token : ∀ r ∈ d.workClaims, r.routeId = new.routeId → r.fencingToken ≠ new.fencingToken

/-- What holds when a transition or a renewal commits `new` in place of `old`. -/
structure Changes (d : Db) (claimId : ClaimId) (fencingToken now : ℤ) (old new : WorkClaimRow) :
    Prop where
  mem : old ∈ d.workClaims
  id : old.claimId = claimId
  token : old.fencingToken = fencingToken
  active : old.status = .active
  lease : now < old.leaseExpiresAt
  change : changeWorkClaim old new = .ok new

namespace PostgresWorkClaimRepository

variable {Op α : Type} {program : Op → Sql α} {C : Contract (kernelSystem program)} {op : Op}

/-- What a transaction that has retired the latest claim knows, while it holds `locks`. -/
def RetiresUnder (routeId : RouteId) (now : ℤ) (locks : List Key) (d : Db) (token : ℤ)
    (ws : List Write) : Prop :=
  ∀ d', C.Rely locks d d' → Retires routeId now d' token ws

/-- The rule of `supersede`, when the latest claim is locked. -/
theorem wp_supersede (hquiet : ∀ d, C.guar op d [] none)
    (hpk : ∀ d, C.Good d → (d.workClaims.map WorkClaimRow.claimId).Nodup)
    {routeId : RouteId} {now : ℤ} {latest : Option WorkClaimRow} {e : Db} {locks : List Key}
    (hlatest : ∀ row, latest = some row →
      row ∈ e.workClaims ∧ row.routeId = routeId ∧ .claim row.claimId ∈ locks)
    {Q : C.Post (Except WorkClaimError ℤ)}
    (herr : ∀ d er locks ws, C.Good d → Q (.error er) d [] locks ws) (hgood : C.Good e)
    (hok : ∀ d token locks ws, C.Good d → RetiresUnder (C := C) routeId now locks d token ws →
      Q (.ok token) d [] locks ws) :
    C.wp op (supersede routeId now latest).run Q e [] locks [] := by
  cases latest with
  | none => exact hok e 1 locks [] hgood fun _ _ => .nothing
  | some row =>
    obtain ⟨hmem, hroute, hlock⟩ := hlatest row rfl
    have hstable := stable_mem_workClaims hlock
    unfold supersede
    rw [Contract.wp_ensure_bind]
    split
    · rename_i c hc
      obtain rfl := claimFromRow_eq_ok.mp hc
      by_cases hcur : c.isCurrent now
      · rw [if_pos hcur]
        exact herr e _ _ _ hgood
      rw [if_neg hcur]
      by_cases hdone : c.status = .completed
      · rw [if_pos hdone]
        exact herr e _ _ _ hgood
      rw [if_neg hdone]
      by_cases hactive : c.status = .active
      · -- An active claim that is not current has a lapsed lease.
        have hlapsed : c.leaseExpiresAt ≤ now := by
          simpa [WorkClaim.isCurrent, hactive] using hcur
        rw [if_pos hactive, Contract.wp_orFail_bind]
        have hfind : ∀ d, C.Good d → c.row ∈ d.workClaims →
            d.workClaims.find? (fun r => r.claimId = c.row.claimId) = some c.row :=
          fun d hg hmem => Postgres.RowWrite.find_eq_some (hpk d hg) hmem rfl
        refine Contract.wp_update (hquiet e) (fun d _ locks ws hg => herr d _ locks ws hg) ?_ ?_
        · intro d₁ d₂ hr hg₁ hr' hg₂ hnone
          have hmem₁ := hr.stable hstable hmem
          simp only [Store.view_nil] at hnone
          rw [show c.id = c.row.claimId from rfl, hfind d₁ hg₁ hmem₁, Option.bind_some,
            hfind d₂ hg₂ (hr'.stable hstable hmem₁)] at hnone
          cases hnone
        · intro d₁ d₂ r old new hr hg₁ hr' hg₂ hsel hre hch
          have hmem₁ := hr.stable hstable hmem
          have hmem₂ := hr'.stable hstable hmem₁
          simp only [Store.view_nil] at hsel hre hch
          rw [show c.id = c.row.claimId from rfl, hfind d₁ hg₁ hmem₁] at hsel
          obtain rfl := Option.some.inj hsel
          rw [hfind d₂ hg₂ hmem₂] at hre
          obtain rfl := Option.some.inj hre
          rw [(changeWorkClaim_eq_ok.mp hch).1]
          refine hok d₂ _ _ _ hg₂ fun d' hr'' => ?_
          have hmem' := hr''.stable (hstable.mono fun k hk => List.mem_append_left _ hk) hmem₂
          exact .lapsed c.row hmem' hroute hactive hlapsed
      · rw [if_neg hactive]
        exact hok e _ locks [] hgood fun d' hr =>
          .closed c.row (hr.stable hstable hmem) hroute hactive hdone
    · exact herr e _ _ _ hgood

/-- The row that `claim` mints under a token. -/
def mintedRow (claimId : ClaimId) (routeId : RouteId) (workerService : ActorId)
    (workerInstance : InstanceId) (leaseExpiresAt now token : ℤ) : WorkClaimRow :=
  { claimId, routeId, workerServiceId := workerService, workerInstanceId := workerInstance
    fencingToken := token, status := .active, claimedAt := now, leaseExpiresAt }

/-- The rule of `claim`. -/
theorem wp_claim (hquiet : ∀ d, C.guar op d [] none)
    (hpk : ∀ d, C.Good d → (d.workClaims.map WorkClaimRow.claimId).Nodup)
    {claimId : ClaimId} {routeId : RouteId} {workerService : ActorId} {workerInstance : InstanceId}
    {leaseExpiresAt now : ℤ} {Q : C.Post (Except WorkClaimError WorkClaim)}
    (herr : ∀ d er, C.Good d → Q (.error er) d [] [] [])
    (hok : ∀ d ws c, C.Good d → c.row = mintedRow claimId routeId workerService workerInstance
        leaseExpiresAt now c.fencingToken → Mints d ws c.row →
      Q (.ok c) d (ws ++ [.workClaims (.insert c.row)]) [] []) {e : Db} :
    C.wp op (claim claimId routeId workerService workerInstance leaseExpiresAt now) Q e
      [] [] [] := by
  have herr' : ∀ d (er : DbError) (_ : List Key) (_ : List Write), C.Good d →
      Q (.error (.ofDatabase er)) d [] [] [] := fun d er _ _ hg => herr d _ hg
  refine Contract.wp_transaction.mpr (Contract.wp_orFail_bind.mpr ?_)
  refine Contract.wp_query (hquiet e) herr' fun d₁ d₂ hr hg₁ _ hr' hg₂ => ?_
  dsimp only
  split
  · exact herr d₂ _ hg₂
  refine Contract.wp_orFail_bind.mpr ?_
  refine Contract.wp_selectForUpdate (hquiet d₂) herr' fun d₃ d₄ hr hg₃ hr' hg₄ => ?_
  -- The latest claim in the snapshot, as it is when its row has been locked.
  refine Contract.wp_run_bind.mpr
    (wp_supersede hquiet hpk ?_ (fun d er _ _ hg => herr d er hg) hg₄ ?_)
  · intro row hrow
    obtain ⟨r, hsel, hcur⟩ := Option.bind_eq_some_iff.mp hrow
    have hfound := List.find?_some hcur
    simp only [decide_eq_true_eq] at hfound
    refine ⟨List.mem_of_find?_eq_some hcur, hfound.2, ?_⟩
    rw [hsel, hfound.1]
    simp
  intro d₅ token locks ws hg₅ hretires
  refine Contract.wp_orFail_bind.mpr ?_
  refine Contract.wp_insert (hquiet d₅) herr' fun d₆ hr hg₆ hcheck => ?_
  obtain ⟨hlease, hclaimed, htoken, hid, hroute, -, -, -, -⟩ := Db.checkWorkClaim_eq_ok.mp hcheck
  refine Contract.wp_ensure_bind.mpr ?_
  split
  · rename_i c hc
    refine Contract.wp_orFail_bind.mpr
      (Contract.wp_commitNow (hquiet d₆) herr' fun d₇ hr' hg₇ => ?_)
    have hrow : c.row = mintedRow claimId routeId workerService workerInstance leaseExpiresAt now
        token := claimFromRow_eq_ok.mp hc
    have htok : c.fencingToken = token := congrArg WorkClaimRow.fencingToken hrow
    -- The identities that the constraints have seen are those of the committed rows.
    have hids := (hretires d₆ hr).map_identity (hpk d₆ hg₆)
    have hid₆ : ∀ r ∈ d₆.workClaims, r.claimId ≠ claimId :=
      WorkClaimRow.forall_of_map_identity hids (p := fun i => i.1 ≠ claimId) hid
    have htok₆ : ∀ r ∈ d₆.workClaims, r.routeId = routeId → r.fencingToken ≠ token :=
      WorkClaimRow.forall_of_map_identity hids (p := fun i => i.2.1 = routeId →
        i.2.2 ≠ token) hroute
    -- They stay fresh while the transaction holds the new row's keys.
    have hid₇ := hr'.stable (stable_forall_workClaims fun rw hk heq =>
      hk (.claim rw.row.claimId) (by simp [Write.keys])
        (by simp [Write.keys, heq])) hid₆
    have htok₇ := hr'.stable (stable_forall_workClaims fun rw hk hrt heq =>
      hk (.claimToken rw.row.routeId rw.row.fencingToken) (by simp [Write.keys])
        (by simp [Write.keys, hrt, heq])) htok₆
    have hret₇ := hretires d₇ (hr.trans (hr'.mono fun k hk => List.mem_append_left _ hk))
    have hdone := hok d₇ ws c hg₇ (by rw [hrow, htok])
      (by rw [hrow]; exact ⟨hret₇, rfl, htoken, ⟨hclaimed, hlease⟩, hid₇, htok₇⟩)
    rw [hrow] at hdone
    exact hdone
  · exact herr d₆ _ hg₆

/-- The rule of `changeLocked`, for an `UPDATE` of the claim. -/
theorem wp_changeLocked (hquiet : ∀ d, C.guar op d [] none)
    (hpk : ∀ d, C.Good d → (d.workClaims.map WorkClaimRow.claimId).Nodup)
    {claimId : ClaimId} {fencingToken now : ℤ} {sql : String} {change : WorkClaimRow → WorkClaimRow}
    {Q : C.Post (Except WorkClaimError WorkClaim)}
    (herr : ∀ d er, C.Good d → Q (.error er) d [] [] [])
    (hok : ∀ d old c, C.Good d → c.row = change old →
      Changes d claimId fencingToken now old c.row →
      Q (.ok c) d [.workClaims (.update c.row)] [] []) {e : Db} :
    C.wp op (changeLocked claimId fencingToken now fun id => updateClaim sql id change) Q e
      [] [] [] := by
  have herr' : ∀ d (er : DbError) (_ : List Key) (_ : List Write), C.Good d →
      Q (.error (.ofDatabase er)) d [] [] [] := fun d er _ _ hg => herr d _ hg
  refine Contract.wp_transaction.mpr (Contract.wp_run_bind.mpr ?_)
  refine Contract.wp_orFail_bind.mpr ?_
  refine Contract.wp_selectForUpdate (hquiet e) herr' fun d₁ d₂ hr hg₁ hr' hg₂ => ?_
  refine Contract.wp_ensure_bind.mpr ?_
  -- The claim as it is when its row has been locked.
  cases hrow : (d₁.workClaims.find? fun r => r.claimId = claimId).bind fun r =>
      d₂.workClaims.find? fun r' => r'.claimId = r.claimId with
  | none =>
    simp only [Store.view_nil, hrow]
    exact herr d₂ _ hg₂
  | some old =>
    obtain ⟨r, hsel, hcur⟩ := Option.bind_eq_some_iff.mp hrow
    have hsel' : r.claimId = claimId := by simpa using List.find?_some hsel
    have hold : old.claimId = claimId := by simpa [hsel'] using List.find?_some hcur
    have hmem₂ := List.mem_of_find?_eq_some hcur
    have hlock : Key.claim old.claimId ∈ [] ++ (Option.map (fun r => Key.claim r.claimId)
        (d₁.workClaims.find? fun r => r.claimId = claimId)).toList := by
      rw [hsel]
      simp [hold, hsel']
    simp only [Store.view_nil, hrow]
    generalize ([] : List Key) ++ (Option.map (fun r => Key.claim r.claimId)
        (d₁.workClaims.find? fun r => r.claimId = claimId)).toList = locks at hlock
    refine Contract.wp_ensure_bind.mpr ?_
    cases hc : claimFromRow old with
    | error er => exact herr d₂ _ hg₂
    | ok held =>
      obtain rfl := claimFromRow_eq_ok.mp hc
      dsimp only
      by_cases hfenced : held.fencingToken ≠ fencingToken ∨ held.isCurrent now = false
      · rw [if_pos hfenced]
        exact herr d₂ _ hg₂
      rw [if_neg hfenced]
      simp only [not_or, ne_eq, not_not, Bool.not_eq_false, WorkClaim.isCurrent, Bool.and_eq_true,
        decide_eq_true_eq] at hfenced
      obtain ⟨htoken, hactive, hlease⟩ := hfenced
      have hstable := stable_mem_workClaims hlock
      have hfind : ∀ d, C.Good d → held.row ∈ d.workClaims →
          d.workClaims.find? (fun r => r.claimId = held.row.claimId) = some held.row :=
        fun d hg hmem => Postgres.RowWrite.find_eq_some (hpk d hg) hmem rfl
      refine Contract.wp_orFail_bind.mpr (Contract.wp_one.mpr ?_)
      refine Contract.wp_update (hquiet d₂) herr' (fun _ d _ _ _ hg _ => herr d _ hg) ?_
      intro d₃ d₄ r₁ r₂ new hr₃ hg₃ hr₄ hg₄ hsel₃ hre₄ hch
      have hmem₃ := hr₃.stable hstable hmem₂
      have hmem₄ := hr₄.stable hstable hmem₃
      simp only [Store.view_nil] at hsel₃ hre₄ hch
      rw [show held.id = held.row.claimId from rfl, hfind d₃ hg₃ hmem₃] at hsel₃
      obtain rfl := Option.some.inj hsel₃
      rw [hfind d₄ hg₄ hmem₄] at hre₄
      obtain rfl := Option.some.inj hre₄
      obtain rfl := (changeWorkClaim_eq_ok.mp hch).1
      refine Contract.wp_ensure_bind.mpr ?_
      cases hnew : claimFromRow (change held.row) with
      | error er => exact herr d₄ _ hg₄
      | ok c =>
        have hrow' := claimFromRow_eq_ok.mp hnew
        refine Contract.wp_orFail_bind.mpr (Contract.wp_commitNow (hquiet d₄) herr' ?_)
        intro d₅ hr₅ hg₅
        have hmem₅ := hr₅.stable (hstable.mono fun k hk => List.mem_append_left _ hk) hmem₄
        have hdone := hok d₅ held.row c hg₅ hrow'
          ⟨hmem₅, hold, htoken, hactive, hlease, by rw [hrow']; exact hch⟩
        rw [hrow'] at hdone
        exact hdone

end PostgresWorkClaimRepository

end InfernalLaw
