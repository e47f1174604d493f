import InfernalLaw.Http.RequestRoutes
import InfernalLaw.Runs.Ownership

/-!
# Routes of requests under one identifier

A request is known by its source and its identifier, a route by the identifier of its request and
its subscription. Where two services have used one identifier, the second one's request is answered
with the first one's routes.
-/

namespace InfernalLaw.Ownership

open Postgres (DbError Proc State Store)
open Postgres.Proc (autocommit ensure insertOrNothing orFail query)

/-! ## One route for each match -/

/-- The unique key of `request_routes`. -/
def Matched (d : Db) : Prop :=
  ∀ r ∈ d.requestRoutes, ∀ r' ∈ d.requestRoutes, r.requestId = r'.requestId →
    r.subscriptionId = r'.subscriptionId → r = r'

/-- A row for a new match keeps the key. -/
theorem Matched.insert {d d' : Db} {row : RouteRow} (h : Matched d)
    (hrows : d'.requestRoutes = d.requestRoutes ++ [row])
    (hnew : ∀ r ∈ d.requestRoutes, r.requestId = row.requestId →
      r.subscriptionId ≠ row.subscriptionId) : Matched d' := by
  unfold Matched
  rw [hrows]
  intro r hr r' hr' hrequest hsubscription
  rcases List.mem_append.mp hr with hold | hlast <;>
    rcases List.mem_append.mp hr' with hold' | hlast'
  · exact h r hold r' hold' hrequest hsubscription
  · rw [List.mem_singleton.mp hlast'] at hrequest hsubscription
    exact absurd hsubscription (hnew r hold hrequest)
  · rw [List.mem_singleton.mp hlast] at hrequest hsubscription
    exact absurd hsubscription.symm (hnew r' hold' hrequest.symm)
  · exact (List.mem_singleton.mp hlast).trans (List.mem_singleton.mp hlast').symm

/-- What an event commits keeps the key. -/
theorem Matched.commits {d : Db} {ws : List Write} (h : Matched d) (hc : Commits d ws) :
    Matched (store.view d ws) := by
  rcases hc.eligibility.routes with hroutes | ⟨row, henters, hroutes⟩
  · unfold Matched
    rw [hroutes]
    exact h
  · exact h.insert hroutes henters.fresh_match

/-- Every match has one route, in every run that begins without routes. -/
theorem matched {d₀ : Db} (h₀ : Fresh d₀) {s : State Db Write Key Op Unit}
    (hs : system.Reaches d₀ s) :
    Matched s.db := by
  induction hs with
  | init =>
    unfold Matched
    rw [h₀.2.1]
    exact fun r hr => absurd hr List.not_mem_nil
  | step ev hs _ hstep ih =>
    obtain ⟨-, _, ws, _, -, hguar, hdb, -⟩ :=
      contract_sound.event (fun _ _ _ => trivial) (inv h₀ .init) hs hstep
    rw [hdb]
    exact ih.commits hguar

/-! ## Materialization alone -/

section

variable {route answer : Route} {d d' : Db} {ws : List Write}

/-- What `materialize` answers alone: the new route, or the one that has its match. -/
theorem exec_materialize
    (h : (PostgresRouteRepository.materialize route).run.exec store d [] = ⟨d', ws, .ok answer⟩) :
    ws = [] ∧ answer.requestId = route.requestId ∧ answer.subscriptionId = route.subscriptionId ∧
      (d' = d ∧ answer.row ∈ d.requestRoutes ∨
        answer = route ∧ d'.requestRoutes = d.requestRoutes ++ [route.row] ∧
          ∀ r ∈ d.requestRoutes, r.requestId = route.requestId →
            r.subscriptionId ≠ route.subscriptionId) := by
  obtain ⟨d₁, ws₁, inserted, hinsert, hrest⟩ := Proc.exec_run_bind_eq_ok.mp h
  rw [Proc.exec_orFail_eq_ok, Proc.exec_autocommit_eq_ok] at hinsert
  obtain ⟨d₂, ws₂, hinsert, rfl, rfl⟩ := hinsert
  rw [PostgresRouteRepository.insertRoute, insertOrNothing, Proc.exec_statement] at hinsert
  obtain ⟨rfl, hws, hresult⟩ := Postgres.Outcome.mk.inj hinsert
  obtain ⟨_, hvalid, hresult⟩ := Postgres.bind_eq_ok.mp hresult
  rw [Store.view_nil] at hws hresult
  by_cases hconflict : (d.requestRoutes.any fun r =>
      r.requestId = route.row.requestId ∧ r.subscriptionId = route.row.subscriptionId) = true
  · -- Nothing is written, and the row that is there is looked up.
    rw [if_pos hconflict] at hws hresult
    obtain rfl := Except.ok.inj hresult
    obtain rfl : [] = ws₂ := hws
    rw [if_neg (by decide), Store.view_nil] at hrest
    obtain ⟨d₁, ws₁, existing, hquery, hrest⟩ := Proc.exec_run_bind_eq_ok.mp hrest
    rw [Proc.exec_orFail_eq_ok, Proc.exec_autocommit_eq_ok] at hquery
    obtain ⟨d₂, ws₂, hquery, rfl, rfl⟩ := hquery
    rw [PostgresRouteRepository.findByMatchKey, Proc.exec_query] at hquery
    obtain ⟨rfl, rfl, hfound⟩ := Postgres.Outcome.mk.inj hquery
    obtain rfl := Except.ok.inj hfound
    obtain ⟨d₁, ws₁, row, helim, hread⟩ := Proc.exec_run_bind_eq_ok.mp hrest
    obtain ⟨rfl, rfl, hsome⟩ := Proc.exec_ensure_eq_ok.mp helim
    obtain ⟨rfl, rfl, hanswer⟩ := Proc.exec_ensure_eq_ok.mp hread
    have hfind := Postgres.elim_eq_ok.mp hsome
    obtain rfl := routeFromRow_eq_ok.mp hanswer
    have hkeys := List.find?_some hfind
    rw [decide_eq_true_eq] at hkeys
    exact ⟨rfl, hkeys.1, hkeys.2, .inl ⟨rfl, List.mem_of_find?_eq_some hfind⟩⟩
  · rw [if_neg hconflict] at hws hresult
    cases hcheck : d.referencesRoute route.row with
    | error e =>
      rw [hcheck] at hresult
      cases hresult
    | ok _ =>
    rw [hcheck] at hresult
    obtain rfl := Except.ok.inj hresult
    rw [hvalid] at hws
    simp only [Except.bind, hcheck, List.nil_append] at hws
    obtain rfl := hws
    rw [if_pos rfl] at hrest
    obtain ⟨rfl, rfl, hread⟩ := Proc.exec_ensure_eq_ok.mp hrest
    have hanswer : answer = route := by
      have hrow := routeFromRow_eq_ok.mp hread
      exact Except.ok.inj (hread.symm.trans (routeFromRow_eq_ok.mpr rfl))
    subst hanswer
    refine ⟨rfl, rfl, rfl, .inr ⟨rfl, rfl, fun r hr hrequest hsubscription => hconflict ?_⟩⟩
    exact List.any_eq_true.mpr ⟨r, hr, decide_eq_true ⟨hrequest, hsubscription⟩⟩

/-- What a materialization for a source does to the table: rows stay, and those that come are about
its requests. -/
structure Extends (source : ActorId) (d d' : Db) : Prop where
  matched : Matched d'
  kept : ∀ r ∈ d.requestRoutes, r ∈ d'.requestRoutes
  added : ∀ r ∈ d'.requestRoutes, r ∈ d.requestRoutes ∨ r.sourceServiceId = source

/-- A database extends itself. -/
theorem Extends.refl {source : ActorId} (h : Matched d) : Extends source d d :=
  ⟨h, fun _ hr => hr, fun _ hr => .inl hr⟩

/-- What extends an extension extends the first. -/
theorem Extends.trans {source : ActorId} {d'' : Db} (h : Extends source d d')
    (h' : Extends source d' d'') : Extends source d d'' := by
  refine ⟨h'.matched, fun r hr => h'.kept r (h.kept r hr), fun r hr => ?_⟩
  rcases h'.added r hr with hr | hsource
  · exact h.added r hr
  · exact .inr hsource

variable {source destination : ActorId} {requestId : RequestId} {now : ℤ}

/-- The route that the service answers is in the table. -/
theorem exec_service {routeId : RouteId} {subscriptionId : SubscriptionId} (hmatched : Matched d)
    (h : (RouteService.materialize routeId source requestId subscriptionId destination now).run.exec
      store d [] = ⟨d', ws, .ok answer⟩) :
    ws = [] ∧ Extends source d d' ∧ answer.requestId = requestId ∧
      answer.subscriptionId = subscriptionId ∧ answer.row ∈ d'.requestRoutes := by
  obtain ⟨d₁, ws₁, route, hroute, hrest⟩ := Proc.exec_run_bind_eq_ok.mp h
  obtain ⟨rfl, rfl, hrestore⟩ := Proc.exec_ensure_eq_ok.mp hroute
  obtain ⟨-, hsource, hrequest, hsubscription, -, -⟩ := Route.restore_eq_ok.mp hrestore
  obtain ⟨rfl, hid, hmatch, hcases⟩ := exec_materialize hrest
  refine ⟨rfl, ?_, hid.trans hrequest, hmatch.trans hsubscription, ?_⟩
  · rcases hcases with ⟨rfl, -⟩ | ⟨-, hrows, hnew⟩
    · exact .refl hmatched
    · refine ⟨hmatched.insert hrows hnew, fun r hr => ?_, fun r hr => ?_⟩
      · rw [hrows]
        exact List.mem_append_left _ hr
      · rw [hrows] at hr
        rcases List.mem_append.mp hr with hold | hlast
        · exact .inl hold
        · rw [List.mem_singleton.mp hlast]
          exact .inr hsource
  · rcases hcases with ⟨rfl, hmem⟩ | ⟨rfl, hrows, -⟩
    · exact hmem
    · rw [hrows]
      exact List.mem_append_right _ List.mem_cons_self

/-- Each subscription has its route among those that are answered. -/
theorem exec_materializeEach {routeIds : ℕ → RouteId} (subscriptions : List Subscription) :
    ∀ {n : ℕ} {d d' : Db} {ws : List Write} {routes : List Route}, Matched d →
      (SubscriptionRouter.materializeEach routeIds source requestId now n subscriptions).run.exec
        store d [] = ⟨d', ws, .ok routes⟩ →
      ws = [] ∧ Extends source d d' ∧ ∀ s ∈ subscriptions, ∃ route ∈ routes,
        route.requestId = requestId ∧ route.subscriptionId = s.id ∧
        route.row ∈ d'.requestRoutes := by
  induction subscriptions with
  | nil =>
    intro n d d' ws routes hmatched h
    obtain ⟨rfl, rfl, -⟩ := Postgres.Outcome.mk.inj h
    exact ⟨rfl, .refl hmatched, fun s hs => absurd hs List.not_mem_nil⟩
  | cons s subscriptions ih =>
    intro n d d' ws routes hmatched h
    obtain ⟨d₁, ws₁, route, hfirst, hrest⟩ := Proc.exec_run_bind_eq_ok.mp h
    obtain ⟨rfl, hextends, hrequest, hsubscription, hmem⟩ := exec_service hmatched hfirst
    obtain ⟨d₂, ws₂, others, hloop, hdone⟩ := Proc.exec_run_bind_eq_ok.mp hrest
    obtain ⟨rfl, hextends', hothers⟩ := ih hextends.matched hloop
    obtain ⟨rfl, rfl, hroutes⟩ := Postgres.Outcome.mk.inj hdone
    obtain rfl := Except.ok.inj hroutes
    refine ⟨rfl, hextends.trans hextends', List.forall_mem_cons.mpr ⟨?_, fun s' hs' => ?_⟩⟩
    · exact ⟨route, List.mem_cons_self, hrequest, hsubscription, hextends'.kept _ hmem⟩
    · obtain ⟨route', hroute', h'⟩ := hothers s' hs'
      exact ⟨route', List.mem_cons_of_mem _ hroute', h'⟩

/-- A subscription that is active, inclusive, and for the action. -/
def Wants (action : ActionName) (row : SubscriptionRow) : Prop :=
  row.disabledAt = none ∧ row.deliveryMode = .inclusive ∧ row.eventType = action.text

/-- Each of them has its route among those that the router answers. -/
theorem exec_materializeRoutes {routeIds : ℕ → RouteId} {action : ActionName} {routes : List Route}
    (hsubscriptions : Subscriptions.Inv d) (hmatched : Matched d)
    (h : (SubscriptionRouter.materializeRoutes routeIds source requestId action now).run.exec store
      d [] = ⟨d', ws, .ok routes⟩) :
    Extends source d d' ∧ ∀ row ∈ d.subscriptions, Wants action row → ∃ route ∈ routes,
      route.requestId = requestId ∧ route.subscriptionId = row.id ∧
        route.row ∈ d'.requestRoutes := by
  obtain ⟨d₁, ws₁, eventType, hensure, hrest⟩ := Proc.exec_run_bind_eq_ok.mp h
  obtain ⟨rfl, rfl, htype⟩ := Proc.exec_ensure_eq_ok.mp hensure
  rw [EventType.new_action, Option.elim_some] at htype
  obtain rfl := Except.ok.inj htype
  obtain ⟨found, hfound, -, hmem⟩ := hsubscriptions.findActiveByEventType_alone action.eventType
  obtain ⟨d₁, ws₁, matching, hmatching, hloop⟩ := Proc.exec_run_bind_eq_ok.mp hrest
  rw [ExceptT.run_mk, Proc.exec_bind, hfound] at hmatching
  obtain ⟨rfl, rfl, hsame⟩ := Postgres.Outcome.mk.inj hmatching
  obtain rfl := Except.ok.inj hsame
  obtain ⟨-, hextends, hroutes⟩ := exec_materializeEach _ hmatched hloop
  refine ⟨hextends, fun row hrow hwants => ?_⟩
  obtain ⟨s, rfl⟩ := hsubscriptions.stored row hrow
  obtain ⟨hactive, hinclusive, htype⟩ := hwants
  refine hroutes s (List.mem_filter.mpr ⟨(hmem s).mpr ⟨hrow, ?_, ?_⟩, decide_eq_true hinclusive⟩)
  · cases hs : s.eventType with
    | mk text valid =>
      have htext : text = action.text := by
        rw [← htype, Subscription.row, hs]
      subst htext
      rfl
  · exact Option.isNone_iff_eq_none.mpr hactive

end

/-! ## Whose the routes are -/

/-- The subscription has a route that is answered and stored, and is that of this source's
request. -/
def RoutedTo (source : ActorId) (requestId : RequestId) (row : SubscriptionRow) (d' : Db)
    (routes : List Route) : Prop :=
  ∃ route ∈ routes, route.sourceService = source ∧ route.requestId = requestId ∧
    route.subscriptionId = row.id ∧ route.row ∈ d'.requestRoutes

/-- The subscription has no route of another source's request under the same identifier. -/
def Unshared (source : ActorId) (requestId : RequestId) (row : SubscriptionRow) (d : Db) : Prop :=
  ∀ r ∈ d.requestRoutes, r.requestId = requestId → r.subscriptionId = row.id →
    r.sourceServiceId = source

/-- Where routes are materialized, each subscription that wants the request has a route of it if and
only if it has none of another source's request under its identifier. -/
theorem routed_iff_unshared {d₀ : Db} (h₀ : Fresh d₀) {s : State Db Write Key Op Unit}
    (hs : system.Reaches d₀ s) {routeIds : ℕ → RouteId} {source : ActorId} {requestId : RequestId}
    {action : ActionName} {now : ℤ} {d' : Db} {ws : List Write} {routes : List Route}
    (hok : (SubscriptionRouter.materializeRoutes routeIds source requestId action now).run.exec
      store s.db [] = ⟨d', ws, .ok routes⟩) {row : SubscriptionRow}
    (hrow : row ∈ s.db.subscriptions)
    (hwants : Wants action row) :
    RoutedTo source requestId row d' routes ↔ Unshared source requestId row s.db := by
  obtain ⟨hextends, hroutes⟩ := exec_materializeRoutes (inv h₀ hs).subscriptions (matched h₀ hs) hok
  constructor
  · rintro ⟨route, -, hsource, hrequest, hsubscription, hmem⟩ r hr hrequest' hsubscription'
    have hsame : r = route.row := hextends.matched r (hextends.kept r hr) route.row hmem
      (hrequest'.trans hrequest.symm) (hsubscription'.trans hsubscription.symm)
    rw [hsame]
    exact hsource
  · intro hunshared
    obtain ⟨route, hroute, hrequest, hsubscription, hmem⟩ := hroutes row hrow hwants
    refine ⟨route, hroute, ?_, hrequest, hsubscription, hmem⟩
    rcases hextends.added route.row hmem with hold | hsource
    · exact hunshared route.row hold hrequest hsubscription
    · exact hsource

/-! ## Two sources -/

/-- The action of the example is valid. -/
theorem exampleAction_valid : isValidActionName "billing.submit".toList = true := by decide

/-- The action of the requests. -/
def exampleAction : ActionName := ⟨"billing.submit".toList, exampleAction_valid⟩

/-- A request of a service under the identifier 4. -/
def exampleAccepted (source : ActorId) : AcceptedRequestRow :=
  ⟨source, ⟨4⟩, exampleAction.text, ['*'], ⟨1⟩, ⟨2⟩, .fill 0, 5⟩

/-- A database with the requests of two services under one identifier, and a third service. -/
def sharedId : Db where
  identityRows := [⟨⟨1⟩, .service, ['a'], .active⟩, ⟨⟨2⟩, .service, ['b'], .active⟩,
    ⟨⟨3⟩, .service, ['c'], .active⟩]
  acceptedRequests := [exampleAccepted ⟨1⟩, exampleAccepted ⟨2⟩]

/-- The database of the example has no routes. -/
theorem sharedId_fresh : Fresh sharedId := ⟨rfl, rfl, rfl, rfl⟩

/-- The subscription of the third service. -/
def exampleSubscription : SubscriptionRow := ⟨⟨5⟩, ⟨3⟩, exampleAction.text, .inclusive, 10, none⟩

/-- The database once the third service has subscribed, and the first one's request has been routed
to it. -/
def sharedRouted : Db :=
  { sharedId with
    subscriptions := [exampleSubscription]
    subscriptionAudit := [exampleSubscription.auditRow .created 10]
    requestRoutes := [⟨⟨6⟩, ⟨1⟩, ⟨4⟩, ⟨5⟩, ⟨3⟩, 11⟩] }

/-- The third service subscribes and the request is routed to it. -/
theorem reaches_sharedRouted : ∃ s, system.Reaches sharedId s ∧ s.db = sharedRouted := by
  obtain ⟨s₁, hs₁, hidle₁, hdb₁, -⟩ := Postgres.System.exec_reaches
    (.init : system.Reaches sharedId { db := sharedId }) rfl
    (.create ⟨5⟩ ⟨3⟩ exampleAction.eventType .inclusive 10)
  obtain ⟨s₂, hs₂, -, hdb₂, -⟩ := Postgres.System.exec_reaches hs₁ hidle₁
    (.routes (.materialize ⟨6⟩ ⟨1⟩ ⟨4⟩ ⟨5⟩ ⟨3⟩ 11) trivial)
  refine ⟨s₂, hs₂, ?_⟩
  rw [hdb₂, hdb₁]
  decide +kernel

/-- What the router answers there. -/
def exampleRoutes (source : ActorId) : Fallible RequestError (List Route) :=
  SubscriptionRouter.materializeRoutes (fun _ => ⟨7⟩) source ⟨4⟩ exampleAction 12

/-- A retry of the first service finds its own route. -/
theorem routed_iff_unshared_retry : ∃ s, system.Reaches sharedId s ∧ ∃ d' ws routes,
    (exampleRoutes ⟨1⟩).run.exec store s.db [] = ⟨d', ws, .ok routes⟩ ∧
      (RoutedTo ⟨1⟩ ⟨4⟩ exampleSubscription d' routes ↔
        Unshared ⟨1⟩ ⟨4⟩ exampleSubscription s.db) := by
  obtain ⟨s, hs, hdb⟩ := reaches_sharedRouted
  have hok : ((exampleRoutes ⟨1⟩).run.exec store s.db []).result.isOk = true := by
    rw [hdb]
    decide +kernel
  rcases hexec : (exampleRoutes ⟨1⟩).run.exec store s.db [] with ⟨d', ws, er | routes⟩
  · rw [hexec] at hok
    cases hok
  have hrow : exampleSubscription ∈ s.db.subscriptions := by
    rw [hdb]
    exact List.mem_singleton_self _
  exact ⟨s, hs, d', ws, routes, hexec,
    routed_iff_unshared sharedId_fresh hs hexec hrow ⟨rfl, rfl, rfl⟩⟩

/-- The second service's request gets no route, and the router answers with the first one's. -/
theorem shared_id_loses_route : ¬ ∀ d₀ s, Fresh d₀ → system.Reaches d₀ s →
    ∀ a ∈ s.db.acceptedRequests, ∀ (routeIds : ℕ → RouteId) (action : ActionName) (now : ℤ)
      (d' : Db) (ws : List Write) (routes : List Route), a.action = action.text →
      (SubscriptionRouter.materializeRoutes routeIds a.sourceServiceId a.requestId action
        now).run.exec store s.db [] = ⟨d', ws, .ok routes⟩ →
      ∀ row ∈ s.db.subscriptions, Wants action row →
        RoutedTo a.sourceServiceId a.requestId row d' routes := by
  intro h
  obtain ⟨s, hs, hdb⟩ := reaches_sharedRouted
  let route : Route := ⟨⟨6⟩, ⟨1⟩, ⟨4⟩, ⟨5⟩, ⟨3⟩, 11, by decide⟩
  have hanswer : ((exampleRoutes ⟨2⟩).run.exec store s.db []).result = .ok [route] := by
    rw [hdb]
    decide +kernel
  rcases hexec : (exampleRoutes ⟨2⟩).run.exec store s.db [] with ⟨d', ws, answer⟩
  rw [hexec] at hanswer
  have hsame : answer = .ok [route] := hanswer
  subst hsame
  have haccepted : exampleAccepted ⟨2⟩ ∈ s.db.acceptedRequests := by
    rw [hdb]
    exact List.mem_cons_of_mem _ List.mem_cons_self
  have hrow : exampleSubscription ∈ s.db.subscriptions := by
    rw [hdb]
    exact List.mem_singleton_self _
  obtain ⟨route', hroute, hsource, -⟩ :=
    h sharedId s sharedId_fresh hs _ haccepted _ exampleAction 12 d'
    ws _ rfl hexec _ hrow ⟨rfl, rfl, rfl⟩
  rw [List.mem_singleton.mp hroute] at hsource
  exact absurd hsource (by decide)

end InfernalLaw.Ownership
