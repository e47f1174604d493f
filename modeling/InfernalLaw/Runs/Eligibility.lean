import InfernalLaw.Http.EligibleRoutes
import InfernalLaw.Runs.WorkClaims

/-!
# Eligible routes in every run

The work claims of `WorkClaims.lean`, run concurrently with the materialization of routes. The query
for eligible routes looks at all claims of a route, and the claim at its latest one. They agree
because a claim that is active or completed is the latest one of its route.
-/

namespace InfernalLaw.Eligibility

open Postgres (Contract Event Proc State Store)
open WorkClaims (Ended)

/-! ## The operations -/

/-- The operation leaves a table alone: another component's transaction may be about any but the
claims. -/
def leaves (table : TableName) : WorkClaims.Op → Prop
  | .other writes _ => ∀ w ∈ writes, w.table ≠ table
  | _ => True

/-- What runs. -/
inductive Op where
  | claims (op : WorkClaims.Op) (h : leaves .requestRoutes op)
  | materialize (routeId : RouteId) (sourceService : ActorId) (requestId : RequestId)
      (subscriptionId : SubscriptionId) (destinationService : ActorId) (now : ℤ)

/-- What the operations do; their answers do not matter here. -/
def program : Op → Sql Unit
  | .claims op _ => (WorkClaims.program op).bind fun _ => .done ()
  | .materialize routeId sourceService requestId subscriptionId destinationService now =>
    (RouteService.materialize routeId sourceService requestId subscriptionId destinationService
      now).run.bind fun _ => .done ()

/-- The sessions of the kernels that share the database. -/
abbrev system : Postgres.System Db Write Key Op Unit := kernelSystem program

/-! ## The invariant -/

/-- The routes can be read, have distinct identifiers, and lead to services. -/
structure Routes (d : Db) : Prop where
  nodup_id : (d.requestRoutes.map RouteRow.routeId).Nodup
  created : ∀ r ∈ d.requestRoutes, 0 ≤ r.createdAt
  destination : ∀ r ∈ d.requestRoutes, r.destinationServiceId ∈ d.identities
  request : ∀ r ∈ d.requestRoutes, ∃ a ∈ d.acceptedRequests,
    a.key = (r.sourceServiceId, r.requestId)

/-- Every claim has a lease that a claim can have. -/
def Leases (d : Db) : Prop :=
  ∀ r ∈ d.workClaims, 0 ≤ r.claimedAt ∧ r.claimedAt < r.leaseExpiresAt

/-- What holds of the database between events. -/
structure Inv (d : Db) : Prop where
  claims : WorkClaims.Inv d
  leases : Leases d
  routes : Routes d

/-- What an event commits: writes to other tables, a step of the claims, or a new route. -/
inductive Commits (d : Db) : List Write → Prop where
  | other {ws : List Write} (h : ∀ w ∈ ws, w.table ≠ .workClaims ∧ w.table ≠ .requestRoutes) :
      Commits d ws
  | claim {c : WorkClaim} {ws : List Write} (h : WorkClaims.Step d c ws) : Commits d ws
  | route {row : RouteRow} (h : Enters d row) : Commits d [.requestRoutes row]

/-- Writes to other tables leave the routes as they are. -/
theorem view_requestRoutes {ws : List Write} {d : Db} (h : ∀ w ∈ ws, w.table ≠ .requestRoutes) :
    (store.view d ws).requestRoutes = d.requestRoutes := by
  refine requestRoutes_appendOnly.view_other fun w hw row hrow => ?_
  exact h w hw (by rw [hrow]; rfl)

/-- Identities stay. -/
theorem mem_identities_view {ws : List Write} {d : Db} {id : ActorId} (h : id ∈ d.identities) :
    id ∈ (store.view d ws).identities := by
  have hstable : store.Stable [] fun d => id ∈ d.identities :=
    identities_versioned.stable_mem_pk id
  exact hstable.view ws d (fun _ _ _ _ => List.not_mem_nil) h

/-- The rows of claims after a step of the claims have leases that claims can have: a row that is
written is the stored form of a claim, or has the lease of the row that it replaces. -/
theorem Leases.step {d : Db} {c : WorkClaim} {ws : List Write} (h : Leases d)
    (hs : WorkClaims.Step d c ws) : Leases (store.view d ws) := by
  -- One write of a row with such a lease.
  have hwrite : ∀ (d : Db) (w : Postgres.RowWrite WorkClaimRow), Leases d →
      (0 ≤ w.row.claimedAt ∧ w.row.claimedAt < w.row.leaseExpiresAt) →
      Leases (store.apply d (.workClaims w)) := by
    intro d w hd hw r hr
    rcases Postgres.RowWrite.mem_of_mem_apply hr with hr | rfl
    · exact hd r hr
    · exact hw
  cases hs with
  | mint hm =>
    rw [Store.view_append]
    refine hwrite _ _ ?_ c.lease_window
    have hretires := hm.retires
    generalize c.row.fencingToken = n at hretires
    cases hretires with
    | nothing => exact h
    | closed => exact h
    | lapsed old hmem => exact hwrite d _ h (h old hmem)
  | change => exact hwrite d _ h c.lease_window

/-- Accepted requests stay. -/
theorem exists_accepted_view {ws : List Write} {d : Db} {key : ActorId × RequestId}
    (h : ∃ a ∈ d.acceptedRequests, a.key = key) :
    ∃ a ∈ (store.view d ws).acceptedRequests, a.key = key := by
  obtain ⟨a, ha, hkey⟩ := h
  have hstable : store.Stable [] fun d => a ∈ d.acceptedRequests :=
    appendOnly_acceptedRequests.stable_mem a
  exact ⟨a, hstable.view ws d (fun _ _ _ _ => List.not_mem_nil) ha, hkey⟩

section

variable {d : Db} {ws : List Write}

/-- What an event leaves of the routes: all of them, and perhaps a new one. -/
theorem Commits.routes (h : Commits d ws) : (store.view d ws).requestRoutes = d.requestRoutes ∨
    ∃ row, Enters d row ∧ (store.view d ws).requestRoutes = d.requestRoutes ++ [row] := by
  cases h with
  | other hother => exact .inl (view_requestRoutes fun w hw => (hother w hw).2)
  | claim hs =>
    refine .inl (view_requestRoutes fun w hw => ?_)
    rcases hs.writes with rfl | ⟨old, -, -, -, new, -, rfl | rfl⟩ <;>
      simp only [List.mem_cons, List.not_mem_nil, or_false] at hw
    · rw [hw]
      simp [Write.table]
    · rw [hw]
      simp [Write.table]
    · rcases hw with rfl | rfl <;> simp [Write.table]
  | route henters => exact .inr ⟨_, henters, rfl⟩

/-- Every event keeps what holds of the routes. -/
theorem Routes.commits (h : Routes d) (hc : Commits d ws) : Routes (store.view d ws) := by
  rcases hc.routes with hroutes | ⟨row, henters, hroutes⟩
  · refine ⟨?_, ?_, fun r hr => ?_, fun r hr => ?_⟩
    · rw [hroutes]
      exact h.nodup_id
    · rw [hroutes]
      exact h.created
    · rw [hroutes] at hr
      exact mem_identities_view (h.destination r hr)
    · rw [hroutes] at hr
      exact exists_accepted_view (h.request r hr)
  -- The new row is at the end of the table.
  · have hmem : ∀ r ∈ (store.view d ws).requestRoutes, r ∈ d.requestRoutes ∨ r = row := by
      intro r hr
      rw [hroutes] at hr
      exact (List.mem_append.mp hr).imp_right List.mem_singleton.mp
    refine ⟨?_, fun r hr => ?_, fun r hr => ?_, fun r hr => ?_⟩
    · rw [hroutes, List.map_append, List.nodup_append]
      refine ⟨h.nodup_id, List.nodup_singleton _, ?_⟩
      rintro k hk k' hk' rfl
      obtain ⟨r, hr, rfl⟩ := List.mem_map.mp hk
      exact henters.fresh_id r hr (List.mem_singleton.mp hk')
    · rcases hmem r hr with hold | rfl
      · exact h.created r hold
      · exact henters.created
    · rcases hmem r hr with hold | rfl
      · exact mem_identities_view (h.destination r hold)
      · exact mem_identities_view henters.destination
    · rcases hmem r hr with hold | rfl
      · exact exists_accepted_view (h.request r hold)
      · exact exists_accepted_view henters.request

/-- Every event keeps the invariant. -/
theorem Inv.commits (h : Inv d) (hc : Commits d ws) : Inv (store.view d ws) := by
  have hroutes := h.routes.commits hc
  have hother : (∀ w ∈ ws, w.table ≠ .workClaims) → Inv (store.view d ws) := by
    intro hws
    refine ⟨h.claims.other hws, ?_, hroutes⟩
    rw [Leases, WorkClaims.view_workClaims hws]
    exact h.leases
  cases hc with
  | other hws => exact hother fun w hw => (hws w hw).1
  | claim hs => exact ⟨h.claims.step hs, h.leases.step hs, hroutes⟩
  | route => exact hother (by simp [Write.table])

end

/-! ## The contract -/

/-- An event commits what it may commit. -/
def contract : Contract system where
  inv d _ := Inv d
  guar _ d ws _ := Commits d ws

/-- Every operation keeps to the contract. -/
theorem contract_sound : contract.Sound where
  stutter _ _ := .other (by simp)
  preserves _ _ _ _ _ _ hinv hguar := hinv.commits hguar
  program op d _ := by
    have hquiet : ∀ d, Commits d [] := fun _ => .other (by simp)
    cases op with
    | claims op hop =>
      refine Contract.wp_bind.mpr (WorkClaims.wp_program hquiet ?_ op ?_ ?_ ?_)
      · exact fun d ⟨_, hinv⟩ => hinv.claims.nodup_id
      · exact fun _ _ _ => hquiet _
      · exact fun d c ws _ hs => .claim hs
      · rintro writes hwrites rfl d _
        exact ⟨hquiet _, .other fun w hw => ⟨hwrites w hw, hop w hw⟩⟩
    | materialize =>
      refine Contract.wp_bind.mpr (Contract.wp_ensure_bind.mpr ?_)
      split
      · refine PostgresRouteRepository.wp_materialize hquiet ?_ ?_ ?_ (hquiet _)
        · exact fun _ _ _ _ _ => hquiet _
        · exact fun d _ henters => .route henters
        · exact fun _ _ _ _ _ => hquiet _
      · exact hquiet _

/-- The invariant holds in every run that begins with neither routes nor claims. -/
theorem inv {d₀ : Db} (hclaims : d₀.workClaims = []) (hroutes : d₀.requestRoutes = [])
    {s : State Db Write Key Op Unit} (hs : system.Reaches d₀ s) : Inv s.db := by
  refine (contract_sound.reaches (fun _ _ _ => ?_) (d := d₀) ?_ hs).inv
  · exact fun _ _ _ _ _ _ _ _ => trivial
  · refine ⟨⟨?_, fun routeId => ?_, ?_⟩, ?_, ?_, ?_, ?_, ?_⟩
    · simp [hclaims]
    · rw [Db.claimsOf, hclaims]
      exact .nil
    · simp [hclaims]
    · simp [Leases, hclaims]
    · simp [hroutes]
    · simp [hroutes]
    · simp [hroutes]
    · simp [hroutes]

/-! ## The query -/

/-- The answer of `eligible_for` in the database `d`. -/
def eligible (d : Db) (destinationService : ActorId) (now : ℤ) : Except RequestError (List Route) :=
  ((EligibleRouteQuery.eligibleFor destinationService now).run.exec store d []).result

/-- The route exists, and leads to the service. -/
def LeadsTo (d : Db) (routeId : RouteId) (destinationService : ActorId) : Prop :=
  ∃ row ∈ d.requestRoutes, row.routeId = routeId ∧ row.destinationServiceId = destinationService

/-- No claim holds the route at `now`, and none has completed it. -/
def Open (d : Db) (routeId : RouteId) (now : ℤ) : Prop :=
  ∀ c ∈ d.claimsOf routeId, c.status ≠ .completed ∧ (c.status = .active → c.leaseExpiresAt ≤ now)

section Query

variable {d : Db} {now : ℤ}

/-- The routes of a destination can be listed. -/
theorem listForDestination_alone (h : Routes d) (destinationService : ActorId) : ∃ routes,
    (PostgresRouteRepository.listForDestination destinationService).run.exec store d [] =
      ⟨d, [], .ok routes⟩ ∧ ∀ r, r ∈ routes ↔ r.row ∈ d.requestRoutes ∧
        r.destinationService = destinationService := by
  have hread : ∀ row ∈ PostgresRouteRepository.destinationRows destinationService d,
      ∃ r, routeFromRow row = .ok r := by
    intro row hrow
    have hmem := (List.mem_filter.mp ((List.mergeSort_perm ..).mem_iff.mp hrow)).1
    let r : Route :=
      { id := row.routeId, sourceService := row.sourceServiceId, requestId := row.requestId
        subscriptionId := row.subscriptionId, destinationService := row.destinationServiceId
        createdAt := row.createdAt, timestamp := h.created row hmem }
    exact ⟨r, routeFromRow_eq_ok.mpr rfl⟩
  obtain ⟨routes, hroutes⟩ := Postgres.exists_mapM_eq_ok hread
  refine ⟨routes, ?_, fun r => (Postgres.mem_of_mapM_eq_ok hroutes).trans ?_⟩
  · unfold PostgresRouteRepository.listForDestination
    rw [Proc.exec_orFail_bind, Proc.exec_autocommit, Proc.exec_query]
    simp [Proc.ensure, hroutes]
  · constructor
    · rintro ⟨row, hrow, hr⟩
      obtain rfl := routeFromRow_eq_ok.mp hr
      obtain ⟨hmem, hdestination⟩ := List.mem_filter.mp ((List.mergeSort_perm ..).mem_iff.mp hrow)
      exact ⟨hmem, of_decide_eq_true hdestination⟩
    · rintro ⟨hmem, hdestination⟩
      refine ⟨r.row, (List.mergeSort_perm ..).mem_iff.mpr ?_, routeFromRow_eq_ok.mpr rfl⟩
      exact List.mem_filter.mpr ⟨hmem, decide_eq_true hdestination⟩

/-- The routes with a current claim. -/
theorem activeRouteIds_alone (d : Db) (routeIds : List RouteId) (hnow : 0 ≤ now) : ∃ claimed,
    (WorkClaimService.activeRouteIds routeIds now).run.exec store d [] = ⟨d, [], .ok claimed⟩ ∧
      ∀ id ∈ routeIds, id ∈ claimed ↔
        ∃ c ∈ d.claimsOf id, c.status = .active ∧ now < c.leaseExpiresAt := by
  unfold WorkClaimService.activeRouteIds PostgresWorkClaimRepository.activeRouteIds
  rw [if_neg (by omega)]
  by_cases hempty : routeIds.isEmpty
  · rw [if_pos hempty]
    refine ⟨[], rfl, fun id hid => ?_⟩
    rw [List.isEmpty_iff.mp hempty] at hid
    cases hid
  · rw [if_neg hempty]
    refine ⟨_, Proc.exec_orFail_query, fun id hid => ?_⟩
    simp only [PostgresWorkClaimRepository.activeRouteIdRows, List.mem_dedup, List.mem_map,
      List.mem_filter, decide_eq_true_eq, Db.mem_claimsOf]
    constructor
    · rintro ⟨c, ⟨hmem, -, hactive, hlease⟩, rfl⟩
      exact ⟨c, ⟨hmem, rfl⟩, hactive, hlease⟩
    · rintro ⟨c, ⟨hmem, rfl⟩, hactive, hlease⟩
      exact ⟨c, ⟨hmem, hid, hactive, hlease⟩, rfl⟩

/-- The routes with a completed claim. -/
theorem completedRouteIds_alone (d : Db) (routeIds : List RouteId) : ∃ completed,
    (WorkClaimService.completedRouteIds routeIds).run.exec store d [] = ⟨d, [], .ok completed⟩ ∧
      ∀ id ∈ routeIds, id ∈ completed ↔ ∃ c ∈ d.claimsOf id, c.status = .completed := by
  unfold WorkClaimService.completedRouteIds PostgresWorkClaimRepository.completedRouteIds
  by_cases hempty : routeIds.isEmpty
  · rw [if_pos hempty]
    refine ⟨[], rfl, fun id hid => ?_⟩
    rw [List.isEmpty_iff.mp hempty] at hid
    cases hid
  · rw [if_neg hempty]
    refine ⟨_, Proc.exec_orFail_query, fun id hid => ?_⟩
    simp only [PostgresWorkClaimRepository.completedRouteIdRows, List.mem_dedup, List.mem_map,
      List.mem_filter, decide_eq_true_eq, Db.mem_claimsOf]
    constructor
    · rintro ⟨c, ⟨hmem, -, hcompleted⟩, rfl⟩
      exact ⟨c, ⟨hmem, rfl⟩, hcompleted⟩
    · rintro ⟨c, ⟨hmem, rfl⟩, hcompleted⟩
      exact ⟨c, ⟨hmem, hid, hcompleted⟩, rfl⟩

/-- A call of the work claim service that succeeds alone. -/
theorem orRequestError_alone {β : Type} {p : Fallible WorkClaimError β} {b : β}
    (h : p.run.exec store d [] = ⟨d, [], .ok b⟩) :
    (orRequestError p).run.exec store d [] = ⟨d, [], .ok b⟩ := by
  refine (Proc.exec_bind p.run _ d []).trans ?_
  rw [h]
  rfl

/-- The query answers the routes that lead to the service and are open. -/
theorem eligible_eq_ok (h : Routes d) (destinationService : ActorId) (hnow : 0 ≤ now) : ∃ routes,
    eligible d destinationService now = .ok routes ∧ ∀ routeId, (∃ r ∈ routes, r.id = routeId) ↔
      LeadsTo d routeId destinationService ∧ Open d routeId now := by
  obtain ⟨routes, hroutes, hmem⟩ := listForDestination_alone h destinationService
  obtain ⟨claimed, hclaimed, hactive⟩ :=
    activeRouteIds_alone d (routes.map Route.id) hnow
  obtain ⟨completed, hcompleted, hdone⟩ :=
    completedRouteIds_alone d (routes.map Route.id)
  refine ⟨routes.filter fun route => route.id ∉ claimed ∧ route.id ∉ completed, ?_,
    fun routeId => ?_⟩
  · -- The three queries are asked one after the other.
    unfold eligible EligibleRouteQuery.eligibleFor
    rw [Proc.exec_run_bind, hroutes]
    dsimp only
    rw [Proc.exec_run_bind, orRequestError_alone hclaimed]
    dsimp only
    rw [Proc.exec_run_bind, orRequestError_alone hcompleted]
    rfl
  · constructor
    · rintro ⟨r, hr, rfl⟩
      obtain ⟨hr, hopen⟩ := List.mem_filter.mp hr
      obtain ⟨hrow, hdestination⟩ := (hmem r).mp hr
      have hid := List.mem_map_of_mem (f := Route.id) hr
      simp only [hactive _ hid, hdone _ hid, decide_eq_true_eq, not_exists, not_and,
        not_lt] at hopen
      exact ⟨⟨r.row, hrow, rfl, hdestination⟩, fun c hc => ⟨hopen.2 c hc, hopen.1 c hc⟩⟩
    · rintro ⟨⟨row, hrow, rfl, hdestination⟩, hopen⟩
      -- The other way round, the row of the route is read as this route.
      let r : Route :=
        { id := row.routeId, sourceService := row.sourceServiceId, requestId := row.requestId
          subscriptionId := row.subscriptionId, destinationService := row.destinationServiceId
          createdAt := row.createdAt, timestamp := h.created row hrow }
      have hr : r ∈ routes := (hmem r).mpr ⟨hrow, hdestination⟩
      have hid := List.mem_map_of_mem (f := Route.id) hr
      refine ⟨r, List.mem_filter.mpr ⟨hr, ?_⟩, rfl⟩
      simp only [hactive _ hid, hdone _ hid, decide_eq_true_eq, not_exists, not_and, not_lt]
      exact ⟨fun c hc => (hopen c hc).2, fun c hc => (hopen c hc).1⟩

end Query

/-! ## The claim -/

section Claim

variable {d : Db} {routeId : RouteId} {now : ℤ}

/-- The latest claim on a route that is not open holds it or has completed it. -/
theorem latest_of_not_open (h : WorkClaims.Inv d) (hopen : ¬ Open d routeId now) :
    ∃ c, (d.claimsOf routeId).argmax WorkClaimRow.fencingToken = some c ∧
      (c.status = .completed ∨ c.status = .active ∧ now < c.leaseExpiresAt) := by
  unfold Open at hopen
  push Not at hopen
  obtain ⟨c, hc, hheld⟩ := hopen
  have hheld' : c.status = .completed ∨ c.status = .active ∧ now < c.leaseExpiresAt := by
    by_cases hdone : c.status = .completed
    · exact .inl hdone
    · exact .inr (hheld hdone)
  have hnot : ¬ Ended c := by
    rcases hheld' with hst | ⟨hst, -⟩ <;> simp [Ended, hst]
  -- A claim that has not ended has the highest token.
  cases hlatest : (d.claimsOf routeId).argmax WorkClaimRow.fencingToken with
  | none =>
    rw [List.argmax_eq_none.mp hlatest] at hc
    cases hc
  | some c' =>
    have hc' := List.argmax_mem hlatest
    have hle := List.le_of_mem_argmax hc hlatest
    by_cases heq : c' = c
    · rw [heq]
      exact ⟨c, rfl, hheld'⟩
    · have hlt := (h.lt_of_not_ended hc hnot hc' heq).2
      omega

/-- The stored claims can be read. -/
theorem claim_readable (h : WorkClaims.Inv d) (hleases : Leases d) {row : WorkClaimRow}
    (hrow : row ∈ d.workClaims) : ∃ c, claimFromRow row = .ok c := by
  have htoken := ((h.orderly row.routeId).number_mem (Db.mem_claimsOf.mpr ⟨hrow, rfl⟩)).1
  let c : WorkClaim :=
    { id := row.claimId, routeId := row.routeId, workerService := row.workerServiceId
      workerInstance := row.workerInstanceId, fencingToken := row.fencingToken
      status := row.status, claimedAt := row.claimedAt, leaseExpiresAt := row.leaseExpiresAt
      token_pos := htoken, lease_window := hleases row hrow }
  exact ⟨c, claimFromRow_eq_ok.mpr rfl⟩

/-- Alone, `supersede` refuses the latest claim of a route that is not open. -/
theorem supersede_refuses (h : WorkClaims.Inv d) (hleases : Leases d)
    (hopen : ¬ Open d routeId now) : ∃ e,
    (PostgresWorkClaimRepository.supersede routeId now
      ((d.claimsOf routeId).argmax WorkClaimRow.fencingToken)).run.exec store d [] =
        ⟨d, [], .error e⟩ := by
  obtain ⟨row, hlatest, hheld⟩ := latest_of_not_open h hopen
  have hrow := (Db.mem_claimsOf.mp (List.argmax_mem hlatest)).1
  obtain ⟨c, hread⟩ := claim_readable h hleases hrow
  rw [hlatest, PostgresWorkClaimRepository.supersede, Proc.exec_ensure_bind, hread]
  dsimp only
  obtain rfl := claimFromRow_eq_ok.mp hread
  by_cases hcur : c.isCurrent now
  · rw [if_pos hcur]
    exact ⟨_, rfl⟩
  rw [if_neg hcur]
  rcases hheld with hdone | ⟨hactive, hlease⟩
  · rw [if_pos (show c.status = .completed from hdone)]
    exact ⟨_, rfl⟩
  · refine absurd ?_ hcur
    simp only [WorkClaim.isCurrent, Bool.and_eq_true, decide_eq_true_eq]
    exact ⟨hactive, hlease⟩

/-- Alone, `supersede` retires the latest claim of an open route, and answers the next token. -/
theorem supersede_retires (h : WorkClaims.Inv d) (hleases : Leases d) (hopen : Open d routeId now)
    (hroom : d.workClaims.length + 1 < 2 ^ 63) : ∃ ws,
    (PostgresWorkClaimRepository.supersede routeId now
      ((d.claimsOf routeId).argmax WorkClaimRow.fencingToken)).run.exec store d [] =
        ⟨d, ws, .ok ((d.claimsOf routeId).length + 1)⟩ ∧
      Retires routeId now d ((d.claimsOf routeId).length + 1) ws := by
  cases hlatest : (d.claimsOf routeId).argmax WorkClaimRow.fencingToken with
  | none =>
    rw [List.argmax_eq_none.mp hlatest]
    exact ⟨[], rfl, .nothing⟩
  | some row =>
    have hrow := List.argmax_mem hlatest
    obtain ⟨hmem, hroute⟩ := Db.mem_claimsOf.mp hrow
    -- The latest claim has the highest token, and there is room for one more.
    have hlast : row.fencingToken = (d.claimsOf routeId).length := by
      have hbound := (h.orderly routeId).number_mem hrow
      obtain ⟨r, hr, hnum⟩ := (h.orderly routeId).exists_number (k := (d.claimsOf routeId).length)
        (by omega) le_rfl
      have hle := List.le_of_mem_argmax hr hlatest
      omega
    have hlen : (d.claimsOf routeId).length ≤ d.workClaims.length := List.length_filter_le ..
    have hnext : wrapI64 (row.fencingToken + 1) = (d.claimsOf routeId).length + 1 := by
      unfold wrapI64
      rw [hlast]
      exact Int.bmod_eq_of_le (by omega) (by omega)
    obtain ⟨c, hread⟩ := claim_readable h hleases hmem
    rw [PostgresWorkClaimRepository.supersede, Proc.exec_ensure_bind, hread]
    dsimp only
    obtain rfl := claimFromRow_eq_ok.mp hread
    obtain ⟨hdone, hlapsed⟩ := hopen c.row hrow
    have hcur : ¬ c.isCurrent now = true := by
      simp only [WorkClaim.isCurrent, Bool.and_eq_true, decide_eq_true_eq, not_and, not_lt]
      exact hlapsed
    rw [if_neg hcur, if_neg (show ¬ c.status = .completed from hdone)]
    by_cases hactive : c.status = .active
    · -- An active claim whose lease has lapsed is marked as expired.
      have hfind : d.workClaims.find? (fun r => r.claimId = c.row.claimId) = some c.row :=
        Postgres.RowWrite.find_eq_some h.nodup_id hmem rfl
      have hchange : changeWorkClaim c.row { c.row with status := .expired } =
          .ok { c.row with status := .expired } := by
        refine changeWorkClaim_eq_ok.mpr ⟨rfl, protectWorkClaim_eq_ok.mpr ?_, c.lease_window.2⟩
        exact ⟨⟨rfl, rfl, rfl, rfl, rfl, rfl⟩, hactive, by simp⟩
      rw [if_pos hactive, Proc.exec_orFail_bind, PostgresWorkClaimRepository.expire,
        PostgresWorkClaimRepository.updateClaim, Proc.exec_update]
      simp only [Store.view_nil, show c.id = c.row.claimId from rfl, hfind,
        Option.bind_some, hchange]
      refine ⟨[.workClaims (.update { c.row with status := .expired })], ?_, ?_⟩
      · rw [← hnext]
        rfl
      · rw [← hnext]
        exact .lapsed c.row hmem hroute hactive (hlapsed hactive)
    · rw [if_neg hactive]
      refine ⟨[], ?_, ?_⟩
      · rw [← hnext]
        rfl
      · rw [← hnext]
        exact .closed c.row hmem hroute hactive hdone

variable {destinationService : ActorId} {claimId : ClaimId} {workerInstance : InstanceId}
  {leaseExpiresAt : ℤ}

/-- The answer of a claim in the database `d`. -/
def claimed (d : Db) (claimId : ClaimId) (routeId : RouteId) (workerService : ActorId)
    (workerInstance : InstanceId) (leaseExpiresAt now : ℤ) : Except WorkClaimError WorkClaim :=
  ((WorkClaimService.claim claimId routeId workerService workerInstance leaseExpiresAt now).exec
    store d []).result

/-- The latest claim, locked alone, is the latest claim. -/
theorem lockLatest_alone (h : WorkClaims.Inv d) :
    ((d.workClaims.filter fun r => r.routeId = routeId).argmax WorkClaimRow.fencingToken).bind
      (fun r => d.workClaims.find? fun r' => r'.claimId = r.claimId ∧ r'.routeId = routeId) =
        (d.claimsOf routeId).argmax WorkClaimRow.fencingToken := by
  change ((d.claimsOf routeId).argmax WorkClaimRow.fencingToken).bind _ = _
  cases hlatest : (d.claimsOf routeId).argmax WorkClaimRow.fencingToken with
  | none => rfl
  | some row =>
    obtain ⟨hmem, hroute⟩ := Db.mem_claimsOf.mp (List.argmax_mem hlatest)
    rw [Option.bind_some]
    cases hfind : d.workClaims.find? fun r' => r'.claimId = row.claimId ∧ r'.routeId = routeId with
    | none =>
      have hnone := List.find?_eq_none.mp hfind row hmem
      simp [hroute] at hnone
    | some row' =>
      have hfound := List.find?_some hfind
      rw [decide_eq_true_eq] at hfound
      rw [List.inj_on_of_nodup_map h.nodup_id (List.mem_of_find?_eq_some hfind) hmem hfound.1]

/-- The constraints let the new claim of an open route through. -/
theorem checkWorkClaim_alone (h : Inv d) {ws : List Write} {row : WorkClaimRow}
    (hleads : LeadsTo d row.routeId row.workerServiceId)
    (hretires : Retires row.routeId row.claimedAt d row.fencingToken ws)
    (hstatus : row.status = .active)
    (htoken : row.fencingToken = (d.claimsOf row.routeId).length + 1)
    (hid : ∀ r ∈ d.workClaims, r.claimId ≠ row.claimId)
    (hinstance : ∃ r ∈ d.serviceInstances, r.instanceId = row.workerInstanceId)
    (hnow : 0 ≤ row.claimedAt) (hlease : row.claimedAt < row.leaseExpiresAt) :
    (store.view d ws).checkWorkClaim row = .ok () := by
  have hmints : Mints d ws row := by
    refine ⟨hretires, hstatus, by omega, ⟨hnow, hlease⟩, hid, fun r hr hroute => ?_⟩
    have hbound := (h.claims.orderly row.routeId).number_mem (Db.mem_claimsOf.mpr ⟨hr, hroute⟩)
    omega
  obtain ⟨-, hended, -, -⟩ := h.claims.retire hmints
  have hids := (hretires.map_identity h.claims.nodup_id).symm
  -- The other tables are as they were.
  obtain ⟨hroutes, hidentities, hinstances⟩ : (store.view d ws).requestRoutes = d.requestRoutes ∧
      (store.view d ws).identities = d.identities ∧
      (store.view d ws).serviceInstances = d.serviceInstances := by
    generalize row.fencingToken = n at hretires
    cases hretires <;> exact ⟨rfl, rfl, rfl⟩
  obtain ⟨route, hroute, hrid, hdestination⟩ := hleads
  refine Db.checkWorkClaim_eq_ok.mpr ⟨hlease, hnow, by omega, ?_, ?_, ?_, ?_, ?_, ?_⟩
  · exact WorkClaimRow.forall_of_map_identity hids (p := fun i => i.1 ≠ row.claimId) hid
  · exact WorkClaimRow.forall_of_map_identity hids
      (p := fun i => i.2.1 = row.routeId → i.2.2 ≠ row.fencingToken) hmints.fresh_token
  · intro _ r hr hr' hactive
    rcases hended r (Db.mem_claimsOf.mpr ⟨hr, hr'⟩) with hst | hst <;> simp [hst] at hactive
  · rw [hroutes]
    exact ⟨route, hroute, hrid⟩
  · rw [hidentities, ← hdestination]
    exact h.routes.destination route hroute
  · rw [hinstances]
    exact hinstance

/-- Alone, a claim succeeds when the route leads to the worker's service and is open. -/
theorem claimed_iff (h : Inv d) (hroom : d.workClaims.length + 1 < 2 ^ 63)
    (hid : ∀ r ∈ d.workClaims, r.claimId ≠ claimId)
    (hinstance : ∃ r ∈ d.serviceInstances, r.instanceId = workerInstance)
    (hnow : 0 ≤ now) (hlease : now < leaseExpiresAt) :
    (∃ c, claimed d claimId routeId destinationService workerInstance leaseExpiresAt now = .ok c) ↔
      LeadsTo d routeId destinationService ∧ Open d routeId now := by
  unfold claimed WorkClaimService.claim PostgresWorkClaimRepository.claim
  rw [if_neg (by omega), Proc.exec_transaction, Proc.exec_orFail_bind,
    PostgresWorkClaimRepository.routeDestination, Proc.exec_query]
  dsimp only [Store.view_nil]
  -- The route that the claim finds is the only one with its identifier.
  have hdestination : LeadsTo d routeId destinationService ↔
      (d.requestRoutes.find? fun r => r.routeId = routeId).map RouteRow.destinationServiceId =
        some destinationService := by
    rw [Option.map_eq_some_iff]
    constructor
    · rintro ⟨row, hrow, hrid, hdest⟩
      exact ⟨row, Postgres.RowWrite.find_eq_some h.routes.nodup_id hrow hrid, hdest⟩
    · rintro ⟨row, hfind, hdest⟩
      have hrid := List.find?_some hfind
      rw [decide_eq_true_eq] at hrid
      exact ⟨row, List.mem_of_find?_eq_some hfind, hrid, hdest⟩
  by_cases hleads : LeadsTo d routeId destinationService
  · rw [if_neg (not_not.mpr (hdestination.mp hleads)), Proc.exec_orFail_bind,
      PostgresWorkClaimRepository.lockLatestClaimForRoute, Proc.exec_selectForUpdate]
    dsimp only [Store.view_nil]
    rw [lockLatest_alone h.claims, Proc.exec_run_bind]
    by_cases hopen : Open d routeId now
    · obtain ⟨ws, hsupersede, hretires⟩ := supersede_retires h.claims h.leases hopen hroom
      rw [hsupersede]
      dsimp only
      rw [Proc.exec_orFail_bind]
      -- The row is as the constraints have it, and can be read.
      let c : WorkClaim :=
        { id := claimId, routeId := routeId, workerService := destinationService
          workerInstance := workerInstance, fencingToken := (d.claimsOf routeId).length + 1
          status := .active, claimedAt := now, leaseExpiresAt := leaseExpiresAt
          token_pos := by omega, lease_window := ⟨hnow, hlease⟩ }
      have hcheck : (store.view d ws).checkWorkClaim c.row = .ok () :=
        checkWorkClaim_alone h hleads hretires rfl rfl hid hinstance hnow hlease
      have hread : ∀ row, row = c.row → claimFromRow row = .ok c :=
        fun row hrow => claimFromRow_eq_ok.mpr hrow.symm
      refine ⟨fun _ => ⟨hleads, hopen⟩, fun _ => ⟨c, ?_⟩⟩
      have hinsert : ∀ row, row = c.row →
          (PostgresWorkClaimRepository.insertClaim row).exec store d ws =
            ⟨d, ws ++ [.workClaims (.insert c.row)], .ok ()⟩ := by
        rintro row rfl
        exact Proc.exec_insert_ok hcheck
      rw [hinsert _ (by rfl)]
      dsimp only
      rw [Proc.exec_ensure_bind, hread _ (by rfl)]
      rfl
    · obtain ⟨e, hsupersede⟩ := supersede_refuses h.claims h.leases hopen
      rw [hsupersede]
      constructor
      · rintro ⟨c, hc⟩
        cases hc
      · exact fun hboth => absurd hboth.2 hopen
  · rw [if_pos (fun heq => hleads (hdestination.mpr heq))]
    constructor
    · rintro ⟨c, hc⟩
      cases hc
    · exact fun hboth => absurd hboth.1 hleads

/-- A route is open when its latest claim neither holds it nor has completed it. -/
theorem open_of_latest (h : WorkClaims.Inv d) {latest : WorkClaimRow}
    (hlatest : (d.claimsOf routeId).argmax WorkClaimRow.fencingToken = some latest)
    (hdone : latest.status ≠ .completed) (hlapsed : latest.status = .active →
      latest.leaseExpiresAt ≤ now) : Open d routeId now := by
  by_contra hopen
  obtain ⟨c, hc, hheld⟩ := latest_of_not_open h hopen
  obtain rfl := Option.some.inj (hlatest.symm.trans hc)
  rcases hheld with hst | ⟨hactive, hlease⟩
  · exact hdone hst
  · have hle := hlapsed hactive
    omega

end Claim

/-! ## What holds in every run -/

/-- The most rows that a table of PostgreSQL can have: it has at most `2 ^ 32` pages, each with
fewer than `2 ^ 16` rows. -/
def maxTableRows : ℕ := 2 ^ 48

/-- In every reachable state, a destination's eligible routes are those that a claim of its own,
made next, would win. That a table has room for the claims keeps their tokens below the last
`i64`. -/
theorem eligible_iff_claimed {d₀ : Db} (hclaims : d₀.workClaims = [])
    (hroutes : d₀.requestRoutes = []) {s : State Db Write Key Op Unit} (hs : system.Reaches d₀ s)
    (hstored : s.db.workClaims.length ≤ maxTableRows) (destinationService : ActorId) {now : ℤ}
    (hnow : 0 ≤ now) : ∃ routes, eligible s.db destinationService now = .ok routes ∧
      (∀ routeId claimId workerInstance leaseExpiresAt, now < leaseExpiresAt →
        (∀ r ∈ s.db.workClaims, r.claimId ≠ claimId) →
        (∃ r ∈ s.db.serviceInstances, r.instanceId = workerInstance) →
        ((∃ r ∈ routes, r.id = routeId) ↔ ∃ c, claimed s.db claimId routeId destinationService
          workerInstance leaseExpiresAt now = .ok c)) ∧
      -- A completed route is never listed.
      (∀ routeId, ∀ c ∈ s.db.claimsOf routeId, c.status = .completed → ∀ r ∈ routes,
        r.id ≠ routeId) ∧
      -- A route whose latest claim has ended otherwise, or has lapsed, always is.
      ∀ routeId latest, LeadsTo s.db routeId destinationService →
        (s.db.claimsOf routeId).argmax WorkClaimRow.fencingToken = some latest →
        Ended latest ∨ latest.status = .active ∧ latest.leaseExpiresAt ≤ now →
        ∃ r ∈ routes, r.id = routeId := by
  have hinv := inv hclaims hroutes hs
  have hroom : s.db.workClaims.length + 1 < 2 ^ 63 := by
    unfold maxTableRows at hstored
    omega
  obtain ⟨routes, hok, hmem⟩ := eligible_eq_ok hinv.routes destinationService hnow
  refine ⟨routes, hok, ?_, ?_, ?_⟩
  · intro routeId claimId workerInstance leaseExpiresAt hlease hid hinstance
    rw [hmem routeId, claimed_iff hinv hroom hid hinstance hnow hlease]
  · rintro routeId c hc hst r hr rfl
    obtain ⟨-, hopen⟩ := (hmem r.id).mp ⟨r, hr, rfl⟩
    exact (hopen c hc).1 hst
  · intro routeId latest hleads hlatest hended
    refine (hmem routeId).mpr ⟨hleads, open_of_latest hinv.claims hlatest ?_ fun hactive => ?_⟩
    · rcases hended with (hst | hst) | ⟨hst, -⟩ <;> simp [hst]
    · rcases hended with (hst | hst) | ⟨-, hlapsed⟩
      · simp [hst] at hactive
      · simp [hst] at hactive
      · exact hlapsed

/-- A database with one service, one instance of it, and an accepted request that matches its
subscription. -/
def oneMatch : Db where
  identityRows := [⟨⟨1⟩, .service, ['a'], .active⟩]
  serviceInstances := [⟨⟨2⟩, ⟨1⟩, "https://worker".toList, 0, 1000, 1, none⟩]
  subscriptions := [⟨⟨5⟩, ⟨1⟩, "task.run".toList, .inclusive, 0, none⟩]
  acceptedRequests := [⟨⟨1⟩, ⟨4⟩, "task.run".toList, ['*'], ⟨1⟩, ⟨2⟩, .fill 0, 0⟩]

/-- The route of that request can be claimed, so it is listed. -/
theorem eligible_iff_claimed_match : ∃ s, system.Reaches oneMatch s ∧ ∃ routes,
    eligible s.db ⟨1⟩ 10 = .ok routes ∧ ∃ r ∈ routes, r.id = ⟨3⟩ := by
  obtain ⟨s, hs, -, hdb, -⟩ := Postgres.System.exec_reaches
    (.init : system.Reaches oneMatch { db := oneMatch }) rfl
    (.materialize ⟨3⟩ ⟨1⟩ ⟨4⟩ ⟨5⟩ ⟨1⟩ 5)
  have hclaims : s.db.workClaims = [] := by
    rw [hdb]
    decide
  have hinstances : s.db.serviceInstances = oneMatch.serviceInstances := by
    rw [hdb]
    decide
  have hnow : (0 : ℤ) ≤ 10 := by decide
  obtain ⟨routes, hroutes, hiff, -⟩ :=
    eligible_iff_claimed rfl rfl hs (by simp [hclaims]) ⟨1⟩ hnow
  refine ⟨s, hs, routes, hroutes, (hiff ⟨3⟩ ⟨6⟩ ⟨2⟩ 20 (by decide) (by simp [hclaims]) ?_).mpr ?_⟩
  · rw [hinstances]
    decide
  · let c : WorkClaim := ⟨⟨6⟩, ⟨3⟩, ⟨1⟩, ⟨2⟩, 1, .active, 10, 20, by decide, by decide⟩
    refine ⟨c, ?_⟩
    rw [hdb]
    decide

end InfernalLaw.Eligibility
