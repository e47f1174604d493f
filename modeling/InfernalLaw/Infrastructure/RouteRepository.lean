import Mathlib.Data.List.Sort
import InfernalLaw.Infrastructure.RequestRepository

/-!
# The route repository

`PostgresRouteRepository`: `materialize` and `list_for_destination` as processes over the database,
in which each statement is a transaction of its own, and what `materialize` commits.
-/

namespace InfernalLaw

open Postgres (Contract DbError Store)
open Postgres.Proc (autocommit ensure insertOrNothing orFail query)

/-- `foreign_key_violation_error` of the route repository, or else `repository_error`. -/
def RequestError.ofRouteInsert : DbError → RequestError
  | .foreignKeyViolation "request_routes_subscription_id_fkey" => .unknownSubscription
  | .foreignKeyViolation "request_routes_accepted_request_fk" =>
    .repository (.kernel "route references an unknown request or destination identity")
  | .foreignKeyViolation "request_routes_destination_service_id_fkey" =>
    .repository (.kernel "route references an unknown request or destination identity")
  | e => .ofDatabase e

/-- The row that `materialize` inserts. -/
def Route.row (r : Route) : RouteRow where
  routeId := r.id
  sourceServiceId := r.sourceService
  requestId := r.requestId
  subscriptionId := r.subscriptionId
  destinationServiceId := r.destinationService
  createdAt := r.createdAt

/-- `route_from_row`. -/
def routeFromRow (row : RouteRow) : Except RequestError Route :=
  (Route.restore row.routeId row.sourceServiceId row.requestId row.subscriptionId
    row.destinationServiceId row.createdAt).mapError
      fun _ => .repository (.kernel "stored route is invalid")

/-- A row is read as the route of which it is the stored form. -/
theorem routeFromRow_eq_ok {row : RouteRow} {r : Route} :
    routeFromRow row = .ok r ↔ row = r.row := by
  rw [routeFromRow, Postgres.mapError_eq_ok, Route.restore_eq_ok]
  constructor
  · rintro ⟨hid, hsource, hrequest, hsubscription, hdestination, hcreated⟩
    simp [Route.row, hid, hsource, hrequest, hsubscription, hdestination, hcreated]
  · rintro rfl
    exact ⟨rfl, rfl, rfl, rfl, rfl, rfl⟩

namespace PostgresRouteRepository

/-- `INSERT_SQL`. -/
def insertRoute (row : RouteRow) : Sql (Except DbError ℕ) :=
  insertOrNothing store "INSERT_SQL"
    (Postgres.require (0 ≤ row.createdAt) (.checkViolation "request_routes_created_at_check"))
    (fun d => d.requestRoutes.any fun r =>
      r.requestId = row.requestId ∧ r.subscriptionId = row.subscriptionId)
    (fun d => d.referencesRoute row) (.requestRoutes row)

/-- `FIND_BY_MATCH_KEY_SQL`. -/
def findByMatchKey (requestId : RequestId) (subscriptionId : SubscriptionId) :
    Sql (Except DbError (Option RouteRow)) :=
  query "FIND_BY_MATCH_KEY_SQL" fun d =>
    d.requestRoutes.find? fun r => r.requestId = requestId ∧ r.subscriptionId = subscriptionId

/-- `materialize`. -/
def materialize (route : Route) : Fallible RequestError Route := do
  let inserted ← orFail .ofRouteInsert (autocommit (insertRoute route.row))
  if inserted = 1 then
    ensure (routeFromRow route.row)
  else do
    let existing ← orFail .ofDatabase
      (autocommit (findByMatchKey route.requestId route.subscriptionId))
    let row ← ensure (existing.elim
      (.error (.repository (.kernel "conflicting route disappeared during materialization"))) .ok)
    ensure (routeFromRow row)

/-- `LIST_FOR_DESTINATION_SQL`, with the rows ordered by age and identifier. -/
def destinationRows (destinationService : ActorId) (d : Db) : List RouteRow :=
  (d.requestRoutes.filter fun r => r.destinationServiceId = destinationService).mergeSort
    fun r r' => r.createdAt < r'.createdAt ∨
      r.createdAt = r'.createdAt ∧ r.routeId.uuid.toNat ≤ r'.routeId.uuid.toNat

/-- `list_for_destination`. -/
def listForDestination (destinationService : ActorId) : Fallible RequestError (List Route) := do
  let rows ← orFail .ofDatabase
    (autocommit (query "LIST_FOR_DESTINATION_SQL" (destinationRows destinationService)))
  ensure (rows.mapM routeFromRow)

end PostgresRouteRepository

/-- `RouteService::materialize`, with the route identifier that it draws. -/
def RouteService.materialize (routeId : RouteId) (sourceService : ActorId) (requestId : RequestId)
    (subscriptionId : SubscriptionId) (destinationService : ActorId) (now : ℤ) :
    Fallible RequestError Route := do
  let route ← ensure
    (Route.restore routeId sourceService requestId subscriptionId destinationService now)
  PostgresRouteRepository.materialize route

/-! ## What `materialize` commits -/

/-- What holds when `materialize` commits a new row. -/
structure Enters (d : Db) (row : RouteRow) : Prop where
  created : 0 ≤ row.createdAt
  fresh_id : ∀ r ∈ d.requestRoutes, r.routeId ≠ row.routeId
  fresh_match : ∀ r ∈ d.requestRoutes, r.requestId = row.requestId →
    r.subscriptionId ≠ row.subscriptionId
  destination : row.destinationServiceId ∈ d.identities
  request : ∃ r ∈ d.acceptedRequests, r.key = (row.sourceServiceId, row.requestId)

/-- Routes only ever come in addition. -/
theorem requestRoutes_appendOnly : store.AppendOnly Db.requestRoutes Write.requestRoutes where
  apply_write _ _ := rfl
  apply_other _ w hw := by cases w <;> first | rfl | exact absurd rfl (hw _)

/-- A row that the constraints let through can still be entered while its keys are held. -/
theorem enters_stable {row : RouteRow} {locks : List Key}
    (hid : .route row.routeId ∈ locks)
    (hmatch : .routeMatch row.requestId row.subscriptionId ∈ locks) :
    store.Stable locks fun d => Enters d row := by
  intro d w hd hk
  have hid' : store.Stable locks fun d => ∀ r ∈ d.requestRoutes, r.routeId ≠ row.routeId :=
    requestRoutes_appendOnly.stable_forall fun r hr heq =>
      hr (.route r.routeId) (by simp [Write.keys]) (heq ▸ hid)
  have hmatch' : store.Stable locks fun d => ∀ r ∈ d.requestRoutes, r.requestId = row.requestId →
      r.subscriptionId ≠ row.subscriptionId :=
    requestRoutes_appendOnly.stable_forall fun r hr heq heq' =>
      hr (.routeMatch r.requestId r.subscriptionId) (by simp [Write.keys]) (heq ▸ heq' ▸ hmatch)
  have hdestination : store.Stable locks fun d => row.destinationServiceId ∈ d.identities :=
    identities_versioned.stable_mem_pk _
  -- An accepted request stays.
  obtain ⟨r, hr, hkey⟩ := hd.request
  have haccepted : store.Stable locks fun d => r ∈ d.acceptedRequests :=
    appendOnly_acceptedRequests.stable_mem r
  exact ⟨hd.created, hid' d w hd.fresh_id hk, hmatch' d w hd.fresh_match hk,
    hdestination d w hd.destination hk, r, haccepted d w hr hk, hkey⟩

namespace PostgresRouteRepository

variable {Op α : Type} {program : Op → Sql α} {C : Contract (kernelSystem program)} {op : Op}

/-- The rule of `materialize`: it enters a new row, or answers the row that is there. -/
theorem wp_materialize (hquiet : ∀ d, C.guar op d [] none) {route : Route}
    {Q : C.Post (Except RequestError Route)}
    (herr : ∀ d er locks ws, C.Good d → Q (.error er) d [] locks ws)
    (hnew : ∀ d, C.Good d → Enters d route.row → Q (.ok route) d [.requestRoutes route.row] [] [])
    (hold : ∀ d r, C.Good d → r.requestId = route.requestId →
      r.subscriptionId = route.subscriptionId → Q (.ok r) d [] [] [])
    {e : Db} {u : List Write} (hg : C.guar op e u none) :
    C.wp op (materialize route).run Q e u [] [] := by
  refine Contract.wp_orFail_bind.mpr (Contract.wp_autocommit.mpr ?_)
  refine Contract.wp_insertOrNothing hg (fun d er _ _ hg => herr d _ _ _ hg) ?_ ?_
  · -- The match is there already: it is looked up and answered.
    intro d₂ _ _ _ _
    refine ⟨hquiet d₂, fun d₃ _ hg₃ => ⟨herr d₃ _ _ _ hg₃, ?_⟩⟩
    dsimp only
    rw [if_neg (by decide)]
    refine Contract.wp_orFail_bind.mpr (Contract.wp_autocommit.mpr ?_)
    refine Contract.wp_query (hquiet d₃) (fun d er _ _ hg => herr d _ _ _ hg) ?_
    intro d₄ d₅ _ _ _ _ _
    refine ⟨hquiet d₅, fun d₆ _ hg₆ => ⟨herr d₆ _ _ _ hg₆, ?_⟩⟩
    refine Contract.wp_ensure_bind.mpr ?_
    cases hfind : (store.view d₄ []).requestRoutes.find? fun r =>
        r.requestId = route.requestId ∧ r.subscriptionId = route.subscriptionId with
    | none => exact herr d₆ _ _ _ hg₆
    | some row =>
      have hfound := List.find?_some hfind
      rw [decide_eq_true_eq] at hfound
      cases hread : routeFromRow row with
      | error er =>
        simp only [Option.elim_some, ensure, ExceptT.run_mk, hread]
        exact herr d₆ _ _ _ hg₆
      | ok r =>
        obtain rfl := routeFromRow_eq_ok.mp hread
        simp only [Option.elim_some, ensure, ExceptT.run_mk, hread]
        exact hold d₆ r hg₆ hfound.1 hfound.2
  · intro d₂ _ _ hcreated hmatch hcheck
    simp only [Postgres.require_eq_ok] at hcreated
    simp only [Db.referencesRoute, Postgres.require_bind_eq_ok, Postgres.require_eq_ok] at hcheck
    obtain ⟨hid, -, hdestination, accepted, haccepted, hsource, hrequest⟩ := hcheck
    have henters : Enters d₂ route.row := by
      refine ⟨hcreated, hid, fun r hr hrequest hsubscription => ?_, hdestination, accepted,
        haccepted, Prod.ext hsource hrequest⟩
      have hany := List.any_eq_false.mp hmatch r hr
      simp [hrequest, hsubscription] at hany
    refine ⟨hquiet d₂, fun d₃ hr hg₃ => ⟨herr d₃ _ _ _ hg₃, ?_⟩⟩
    have henters₃ := hr.stable (enters_stable (by simp [Write.keys]) (by simp [Write.keys])) henters
    dsimp only
    rw [if_pos rfl]
    have hread : routeFromRow route.row = .ok route := routeFromRow_eq_ok.mpr rfl
    simp only [ensure, ExceptT.run_mk, hread]
    exact hnew d₃ hg₃ henters₃

end PostgresRouteRepository

end InfernalLaw
