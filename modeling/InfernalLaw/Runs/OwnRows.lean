import InfernalLaw.Http.OwnedRecords
import InfernalLaw.Postgres.SideBySide
import InfernalLaw.Runs.Eligibility

/-!
# One's own rows

What the operations behind the lookups by identifier do in two databases that have the same rows of
a caller's service, and differ in which subscriptions, routes and accepted requests the other
services have: they answer the caller the same, and change no row of another service.
-/

namespace InfernalLaw.Ownership

open Eligibility (LeadsTo)
open Postgres (AgreeOn DbError Proc State Store)

/-! ## What a caller may tell apart -/

/-- The databases agree on what belongs to the caller, and differ only in which subscriptions,
routes and accepted requests exist under other services. -/
structure Agree (caller : ActorId) (d d' : Db) : Prop where
  subscriptions : AgreeOn (fun r => decide (r.serviceId = caller)) SubscriptionRow.id
    d.subscriptions d'.subscriptions
  routes : AgreeOn (fun r => decide (r.destinationServiceId = caller)) RouteRow.routeId
    d.requestRoutes d'.requestRoutes
  requests : AgreeOn (fun r => decide (r.sourceServiceId = caller)) AcceptedRequestRow.key
    d.acceptedRequests d'.acceptedRequests
  claims : d.workClaims = d'.workClaims
  identities : d.identities = d'.identities
  instances : d.serviceInstances = d'.serviceInstances

/-- What the caller's call leaves alone: whatever belongs to another service. A claim belongs to the
service that its route leads to. -/
structure Spares (caller : ActorId) (d d' : Db) : Prop where
  subscriptions : ∀ r, r.serviceId ≠ caller → (r ∈ d'.subscriptions ↔ r ∈ d.subscriptions)
  claims : ∀ c, ¬ LeadsTo d c.routeId caller → (c ∈ d'.workClaims ↔ c ∈ d.workClaims)
  /-- Besides them there are only new entries: of the audit, and of decisions. -/
  audit : d.subscriptionAudit <+: d'.subscriptionAudit
  decisions : d.decisions <+: d'.decisions
  rest : { d' with
    subscriptions := d.subscriptions, workClaims := d.workClaims
    subscriptionAudit := d.subscriptionAudit, decisions := d.decisions } = d

/-- A database spares what it has. -/
theorem Spares.refl (caller : ActorId) (d : Db) : Spares caller d d :=
  ⟨fun _ _ => .rfl, fun _ _ => .rfl, List.prefix_rfl, List.prefix_rfl, rfl⟩

/-- The tables that a claim refers to stay as they are. -/
theorem Spares.same {caller : ActorId} {d d' : Db} (h : Spares caller d d') :
    d'.requestRoutes = d.requestRoutes ∧ d'.identities = d.identities ∧
      d'.serviceInstances = d.serviceInstances := by
  have hroutes := congrArg Db.requestRoutes h.rest
  have hidentities := congrArg Db.identities h.rest
  have hinstances := congrArg Db.serviceInstances h.rest
  exact ⟨hroutes, hidentities, hinstances⟩

/-- A write that is the caller's business: it adds an entry, or is about a row that is not another
service's, neither before nor after. -/
inductive Owned (caller : ActorId) (d : Db) : Write → Prop where
  | decision (row : DecisionRow) : Owned caller d (.decisions row)
  | audit (row : SubscriptionAuditRow) : Owned caller d (.subscriptionAudit row)
  | subscription (w : Postgres.RowWrite SubscriptionRow) (hrow : w.row.serviceId = caller)
      (hold : ∀ r ∈ d.subscriptions, r.id = w.row.id → r.serviceId = caller) :
      Owned caller d (.subscriptions w)
  | claim (w : Postgres.RowWrite WorkClaimRow) (hrow : LeadsTo d w.row.routeId caller)
      (hold : ∀ c ∈ d.workClaims, c.claimId = w.row.claimId → LeadsTo d c.routeId caller) :
      Owned caller d (.workClaims w)

/-- Such a write spares the other services. -/
theorem Spares.apply {caller : ActorId} {d d' : Db} (h : Spares caller d d') {w : Write}
    (hw : Owned caller d w) : Spares caller d (store.apply d' w) := by
  cases hw with
  | decision row =>
    exact ⟨h.subscriptions, h.claims, h.audit, h.decisions.trans (List.prefix_append ..), h.rest⟩
  | audit row =>
    exact ⟨h.subscriptions, h.claims, h.audit.trans (List.prefix_append ..), h.decisions, h.rest⟩
  | subscription w hrow hold =>
    refine ⟨fun r hr => ?_, h.claims, h.audit, h.decisions, h.rest⟩
    rw [← h.subscriptions r hr]
    constructor
    · intro hmem
      rcases Postgres.RowWrite.mem_of_mem_apply hmem with hmem | rfl
      · exact hmem
      · exact absurd hrow hr
    · intro hmem
      refine Postgres.RowWrite.mem_apply_of_ne hmem fun hid => hr ?_
      exact hold r ((h.subscriptions r hr).mp hmem) hid
  | claim w hrow hold =>
    refine ⟨h.subscriptions, fun c hc => ?_, h.audit, h.decisions, h.rest⟩
    rw [← h.claims c hc]
    constructor
    · intro hmem
      rcases Postgres.RowWrite.mem_of_mem_apply hmem with hmem | rfl
      · exact hmem
      · exact absurd hrow hc
    · intro hmem
      refine Postgres.RowWrite.mem_apply_of_ne hmem fun hid => hc ?_
      exact hold c ((h.claims c hc).mp hmem) hid

/-- So do any number of them. -/
theorem Spares.view {caller : ActorId} {d d' : Db} (h : Spares caller d d') {ws : List Write}
    (hws : ∀ w ∈ ws, Owned caller d w) : Spares caller d (store.view d' ws) := by
  induction ws generalizing d' with
  | nil => exact h
  | cons w ws ih =>
    exact ih (h.apply (hws w List.mem_cons_self)) fun w' hw' => hws w' (List.mem_cons_of_mem _ hw')

/-! ## Requests -/

section Requests

variable {caller : ActorId} {d d' : Db} {requestId : RequestId} {routeId : RouteId}

/-- `find` of the request repository, alone. -/
theorem exec_findRequest {source : ActorId} :
    (PostgresRequestRepository.find source requestId).run.exec store d [] =
      ⟨d, [], ((d.acceptedRequests.find? fun r => r.sourceServiceId = source ∧
        r.requestId = requestId).elim (.ok none) fun row =>
        (acceptedRequestFromRow row).map some)⟩ := by
  unfold PostgresRequestRepository.find PostgresRequestRepository.findRequest
  exact Proc.exec_orFail_query_ensure

/-- `find` of the route repository, alone. -/
theorem exec_findRoute : (PostgresRouteRepository.find routeId).run.exec store d [] =
    ⟨d, [], ((d.requestRoutes.find? fun r => r.routeId = routeId).elim (.ok none) fun row =>
      (routeFromRow row).map some)⟩ := by
  unfold PostgresRouteRepository.find
  exact Proc.exec_orFail_query_ensure

/-- One's own request is found in both databases or in none. -/
theorem find_own_request (h : Agree caller d d') :
    (d.acceptedRequests.find? fun r => r.sourceServiceId = caller ∧ r.requestId = requestId) =
      d'.acceptedRequests.find? fun r => r.sourceServiceId = caller ∧ r.requestId = requestId :=
  h.requests.find_eq fun r hr => by
    rw [decide_eq_true_eq] at hr ⊢
    exact hr.1

/-- The request behind a route is found in both databases, if both have it. -/
theorem find_routed_request (h : Agree caller d d') {key : ActorId × RequestId}
    (hmem : ∃ a ∈ d.acceptedRequests, a.key = key)
    (hmem' : ∃ a ∈ d'.acceptedRequests, a.key = key) :
    (d.acceptedRequests.find? fun r => r.sourceServiceId = key.1 ∧ r.requestId = key.2) =
      d'.acceptedRequests.find? fun r => r.sourceServiceId = key.1 ∧ r.requestId = key.2 := by
  have hfind : ∀ {d : Db}, (∃ a ∈ d.acceptedRequests, a.key = key) → ∃ a ∈ d.acceptedRequests,
      a.key = key ∧ (d.acceptedRequests.find? fun r =>
        r.sourceServiceId = key.1 ∧ r.requestId = key.2) = some a := by
    rintro d ⟨a, ha, rfl⟩
    have hsome : (d.acceptedRequests.find? fun r =>
        r.sourceServiceId = a.key.1 ∧ r.requestId = a.key.2).isSome = true :=
      List.find?_isSome.mpr ⟨a, ha, decide_eq_true ⟨rfl, rfl⟩⟩
    obtain ⟨b, hb⟩ := Option.isSome_iff_exists.mp hsome
    have hkey := List.find?_some hb
    rw [decide_eq_true_eq] at hkey
    exact ⟨b, List.mem_of_find?_eq_some hb, Prod.ext hkey.1 hkey.2, hb⟩
  obtain ⟨a, ha, hkey, hfound⟩ := hfind hmem
  obtain ⟨a', ha', hkey', hfound'⟩ := hfind hmem'
  rw [hfound, hfound', h.requests.same a ha a' ha' (hkey.trans hkey'.symm)]

/-- `find_for_destination`, alone: a route to another service is as good as none. -/
theorem exec_findForDestination (h : Eligibility.Routes d) :
    (RoutedRequestQuery.findForDestination caller routeId).run.exec store d [] =
      ⟨d, [], match (d.requestRoutes.find? fun r => r.routeId = routeId).filter
          fun r => r.destinationServiceId = caller with
        | none => .ok none
        | some row => (d.acceptedRequests.find? fun r => r.sourceServiceId = row.sourceServiceId ∧
            r.requestId = row.requestId).elim (.ok none) fun row =>
              (acceptedRequestFromRow row).map some⟩ := by
  unfold RoutedRequestQuery.findForDestination
  rw [Proc.exec_run_bind, exec_findRoute]
  cases hfind : d.requestRoutes.find? fun r => r.routeId = routeId with
  | none => rfl
  | some row =>
    -- A stored route can be read, also if it is another service's.
    let route : Route :=
      { id := row.routeId, sourceService := row.sourceServiceId, requestId := row.requestId
        subscriptionId := row.subscriptionId, destinationService := row.destinationServiceId
        createdAt := row.createdAt
        timestamp := h.created row (List.mem_of_find?_eq_some hfind) }
    have hread : routeFromRow row = .ok route := routeFromRow_eq_ok.mpr rfl
    rw [Option.elim_some, hread]
    dsimp only [Except.map]
    by_cases hown : row.destinationServiceId = caller
    · rw [if_pos hown, exec_findRequest, Option.filter_some, if_pos (decide_eq_true hown)]
      rfl
    · rw [if_neg hown, Option.filter_some, if_neg (by simpa using hown)]
      rfl

/-- The caller is answered the same about the request behind a route. -/
theorem findForDestination_hides (h : Agree caller d d') (hroutes : Eligibility.Routes d)
    (hroutes' : Eligibility.Routes d') :
    ((RoutedRequestQuery.findForDestination caller routeId).run.exec store d []).result =
      ((RoutedRequestQuery.findForDestination caller routeId).run.exec store d' []).result := by
  rw [exec_findForDestination hroutes, exec_findForDestination hroutes']
  have hown := h.routes.filter_find (k := routeId)
  dsimp only
  rw [← hown]
  cases hfind : (d.requestRoutes.find? fun r => r.routeId = routeId).filter
      fun r => r.destinationServiceId = caller with
  | none => rfl
  | some row =>
    dsimp only
    -- The route is in both databases, and so is the request that it refers to.
    have hmem : row ∈ d.requestRoutes :=
      List.mem_of_find?_eq_some (Option.filter_eq_some_iff.mp hfind).1
    have hmem' : row ∈ d'.requestRoutes :=
      List.mem_of_find?_eq_some (Option.filter_eq_some_iff.mp (hown.symm.trans hfind)).1
    rw [find_routed_request h (hroutes.request row hmem) (hroutes'.request row hmem')]

end Requests

/-! ## Subscriptions -/

section Subscriptions

variable {caller : ActorId} {d d' : Db} {subscriptionId : SubscriptionId} {now : ℤ}

/-- What `disable` does with a subscription that it may disable depends on nothing else, and it
writes that subscription and its audit only. -/
theorem exec_disable_found (caller : ActorId) (subscriptionId : SubscriptionId) (now : ℤ)
    (old : SubscriptionRow) : ∃ ws r,
    (∀ w ∈ ws, w = .subscriptions (.update { old with disabledAt := some now }) ∨
      ∃ row, w = .subscriptionAudit row) ∧
    ∀ d : Db, (d.subscriptions.find? fun r =>
        PostgresSubscriptionRepository.Disables subscriptionId caller now r) = some old →
      (PostgresSubscriptionRepository.disable caller subscriptionId now).exec store d [] =
        ⟨store.view d ws, [], r⟩ := by
  unfold PostgresSubscriptionRepository.disable
  by_cases hneg : now < 0
  · refine ⟨[], .error .invalidTimestamp, by simp, fun d _ => ?_⟩
    rw [if_pos hneg]
    rfl
  -- The trigger sees the old row and the new one only, so its verdict is the same in all databases.
  have hrow : ∀ d : Db, (d.subscriptions.find? fun r =>
        PostgresSubscriptionRepository.Disables subscriptionId caller now r) = some old →
      (PostgresSubscriptionRepository.disableRow subscriptionId caller now).exec store d [] =
        match changeSubscription old { old with disabledAt := some now } with
        | .ok new => ⟨d, [.subscriptions (.update new)], .ok (some new)⟩
        | .error e => ⟨d, [], .error e⟩ := by
    intro d hd
    rw [PostgresSubscriptionRepository.disableRow, Proc.exec_update, Store.view_nil, hd,
      Option.bind_some]
    dsimp only
    cases changeSubscription old { old with disabledAt := some now } <;> rfl
  simp only [if_neg hneg, Proc.exec_transaction, Proc.exec_orFail_bind]
  cases hchange : changeSubscription old { old with disabledAt := some now } with
  | error e =>
    refine ⟨[], .error (.ofDatabase e), by simp, fun d hd => ?_⟩
    rw [hrow d hd, hchange]
    rfl
  | ok new =>
    obtain ⟨rfl, -, -⟩ := changeSubscription_eq_ok hchange
    cases hread : subscriptionFromRow { old with disabledAt := some now } with
    | error e =>
      refine ⟨[], .error e, by simp, fun d hd => ?_⟩
      rw [hrow d hd, hchange]
      simp only [PostgresSubscriptionRepository.concludeDisable, Proc.exec_ensure_bind, hread]
      rfl
    | ok subscription =>
      cases haudit : (subscription.auditRow .disabled now).check with
      | error e =>
        refine ⟨[], .error (.ofDatabase e), by simp, fun d hd => ?_⟩
        rw [hrow d hd, hchange]
        simp only [PostgresSubscriptionRepository.concludeDisable, Proc.exec_ensure_bind, hread,
          Proc.exec_orFail_bind, PostgresSubscriptionRepository.appendAudit]
        rw [Proc.exec_insert_error haudit]
        rfl
      | ok _ =>
        refine ⟨[.subscriptions (.update { old with disabledAt := some now }),
          .subscriptionAudit (subscription.auditRow .disabled now)], .ok subscription, by simp,
          fun d hd => ?_⟩
        rw [hrow d hd, hchange]
        simp only [PostgresSubscriptionRepository.concludeDisable, Proc.exec_ensure_bind, hread,
          Proc.exec_orFail_bind, PostgresSubscriptionRepository.appendAudit]
        rw [Proc.exec_insert_ok haudit]
        rfl

/-- A subscription that cannot be disabled is classified by what the caller owns: that of another
service is as good as none. -/
theorem exec_disable_none (hnone : (d.subscriptions.find? fun r =>
      PostgresSubscriptionRepository.Disables subscriptionId caller now r) = none) :
    (PostgresSubscriptionRepository.disable caller subscriptionId now).exec store d [] =
      ⟨d, [], .error (if now < 0 then .invalidTimestamp else
        PostgresSubscriptionRepository.classifyFailedDisable caller subscriptionId now
          ((d.subscriptions.find? fun r => r.id = subscriptionId).filter
            fun r => r.serviceId = caller))⟩ := by
  unfold PostgresSubscriptionRepository.disable
  by_cases hneg : now < 0
  · rw [if_pos hneg, if_pos hneg]
    rfl
  rw [if_neg hneg, if_neg hneg, Proc.exec_transaction, Proc.exec_orFail_bind,
    PostgresSubscriptionRepository.disableRow, Proc.exec_update, Store.view_nil, hnone]
  dsimp only [Option.bind_none, PostgresSubscriptionRepository.concludeDisable]
  rw [Proc.exec_orFail_bind, PostgresSubscriptionRepository.findSubscription, Proc.exec_query,
    Store.view_nil]
  cases hfind : d.subscriptions.find? fun r => r.id = subscriptionId with
  | none => rfl
  | some row =>
    by_cases hown : row.serviceId = caller
    · rw [Option.filter_some, if_pos (decide_eq_true hown)]
      rfl
    · rw [Option.filter_some, if_neg (by simpa using hown)]
      simp only [PostgresSubscriptionRepository.classifyFailedDisable, if_pos hown]
      rfl

/-- The caller is answered the same about a subscription that it disables. -/
theorem disable_hides (h : AgreeOn (fun r => decide (r.serviceId = caller)) SubscriptionRow.id
      d.subscriptions d'.subscriptions) :
    ((PostgresSubscriptionRepository.disable caller subscriptionId now).exec store d []).result =
      ((PostgresSubscriptionRepository.disable caller subscriptionId now).exec store d'
        []).result := by
  have hfind := h.find_eq
    (p := fun r => decide (PostgresSubscriptionRepository.Disables subscriptionId caller now r))
    fun r hr => decide_eq_true (of_decide_eq_true hr).2.1
  cases hold : d.subscriptions.find? fun r =>
      PostgresSubscriptionRepository.Disables subscriptionId caller now r with
  | none =>
    rw [exec_disable_none hold, exec_disable_none (hfind.symm.trans hold), h.filter_find]
  | some old =>
    obtain ⟨ws, r, -, hexec⟩ := exec_disable_found caller subscriptionId now old
    rw [hexec d hold, hexec d' (hfind.symm.trans hold)]

end Subscriptions

/-! ## Claims -/

section Claims

variable {caller : ActorId} {routeId : RouteId} {latest : Option WorkClaimRow} {d₀ d₀' d d' : Db}

/-- Two runs of a claim on the caller's route, whose latest claim is `latest`, from `d₀` and
`d₀'`. -/
structure Beside (caller : ActorId) (routeId : RouteId) (latest : Option WorkClaimRow)
    (d₀ d₀' d d' : Db) : Prop where
  spares : Spares caller d₀ d
  spares' : Spares caller d₀' d'
  claims : d.workClaims = d'.workClaims
  /-- The row that the claim has locked is the route's. -/
  locked : ∀ row ∈ latest, ∀ c ∈ d.workClaims, c.claimId = row.claimId → c.routeId = routeId

/-- A write of a row of the route keeps the runs beside each other. -/
theorem Beside.apply (h : Beside caller routeId latest d₀ d₀' d d')
    {w : Postgres.RowWrite WorkClaimRow} (hroute : w.row.routeId = routeId)
    (hleads : LeadsTo d₀ routeId caller) (hleads' : LeadsTo d₀' routeId caller)
    (hold : ∀ c ∈ d.workClaims, c.claimId = w.row.claimId → c.routeId = routeId) :
    Beside caller routeId latest d₀ d₀' (store.apply d (.workClaims w))
      (store.apply d' (.workClaims w)) := by
  -- A claim that is not on the caller's routes is still there.
  have hmine : ∀ {d₀ d : Db}, Spares caller d₀ d → LeadsTo d₀ routeId caller →
      (∀ c ∈ d.workClaims, c.claimId = w.row.claimId → c.routeId = routeId) →
      ∀ c ∈ d₀.workClaims, c.claimId = w.row.claimId → LeadsTo d₀ c.routeId caller := by
    intro d₀ d hspares hleads hold c hc hid
    by_contra hnot
    refine hnot ?_
    rw [hold c ((hspares.claims c hnot).mpr hc) hid]
    exact hleads
  refine ⟨h.spares.apply ?_, h.spares'.apply ?_, ?_, ?_⟩
  · exact .claim w (hroute ▸ hleads) (hmine h.spares hleads hold)
  · exact .claim w (hroute ▸ hleads') (hmine h.spares' hleads' (h.claims ▸ hold))
  · exact congrArg (w.apply WorkClaimRow.claimId) h.claims
  · intro row hrow c hc hid
    rcases Postgres.RowWrite.mem_of_mem_apply hc with hc | rfl
    · exact h.locked row hrow c hc hid
    · exact hroute

/-- The constraints of a new claim on the route see the same in both runs. -/
theorem Beside.check (h : Beside caller routeId latest d₀ d₀' d d')
    (hidentities : d₀.identities = d₀'.identities)
    (hinstances : d₀.serviceInstances = d₀'.serviceInstances)
    (hleads : LeadsTo d₀ routeId caller) (hleads' : LeadsTo d₀' routeId caller)
    {row : WorkClaimRow} (hroute : row.routeId = routeId) :
    d.checkWorkClaim row = d'.checkWorkClaim row := by
  have hthere : ∀ {d₀ d : Db}, Spares caller d₀ d → LeadsTo d₀ routeId caller →
      (∃ r ∈ d.requestRoutes, r.routeId = row.routeId) = True := by
    rintro d₀ d hspares ⟨r, hr, hid, -⟩
    exact eq_true ⟨r, hspares.same.1 ▸ hr, hid.trans hroute.symm⟩
  have hids : d.identities = d'.identities :=
    h.spares.same.2.1.trans (hidentities.trans h.spares'.same.2.1.symm)
  have hinst : d.serviceInstances = d'.serviceInstances :=
    h.spares.same.2.2.trans (hinstances.trans h.spares'.same.2.2.symm)
  unfold Db.checkWorkClaim
  simp only [h.claims, hids, hinst, hthere h.spares hleads, hthere h.spares' hleads']

/-- What becomes of the latest claim is the same in both runs. -/
theorem respects_supersede {now : ℤ}
    (hleads : LeadsTo d₀ routeId caller) (hleads' : LeadsTo d₀' routeId caller) :
    (PostgresWorkClaimRepository.supersede routeId now latest).run.Respects store
      (Beside caller routeId latest d₀ d₀') := by
  cases latest with
  | none => exact Proc.Respects.run_pure
  | some row =>
    refine Proc.Respects.ensure_bind fun claim hclaim => ?_
    have hid : claim.id = row.claimId :=
      congrArg WorkClaimRow.claimId (claimFromRow_eq_ok.mp hclaim)
    split
    · exact Proc.Respects.run_throw
    split
    · exact Proc.Respects.run_throw
    split
    · refine Proc.Respects.run_bind (Proc.Respects.orFail ?_) fun _ => Proc.Respects.run_pure
      -- The row that expires is the one that was locked.
      refine Proc.Respects.update (fun d d' h => ?_) (fun d d' old h hold => rfl)
        fun d d' old new h hold hnew => ?_
      · rw [h.claims]
      · obtain ⟨r, hr, hfind⟩ := Option.bind_eq_some_iff.mp hold
        have hmem := List.mem_of_find?_eq_some hfind
        have hkey : old.claimId = claim.id := by
          have hfound := List.find?_some hr
          have hsame := List.find?_some hfind
          rw [decide_eq_true_eq] at hfound hsame
          exact hsame.trans hfound
        rw [(changeWorkClaim_eq_ok.mp hnew).1]
        have hroute := h.locked row rfl old hmem (hkey.trans hid)
        refine h.apply hroute hleads hleads' fun c hc hc' => ?_
        exact h.locked row rfl c hc (hc'.trans (hkey.trans hid))
    · exact Proc.Respects.run_pure

/-- What `claim` does once it has locked the latest claim is the same in both runs. -/
theorem respects_claim (claimId : ClaimId) (workerInstance : InstanceId) (leaseExpiresAt now : ℤ)
    (hidentities : d₀.identities = d₀'.identities)
    (hinstances : d₀.serviceInstances = d₀'.serviceInstances)
    (hleads : LeadsTo d₀ routeId caller) (hleads' : LeadsTo d₀' routeId caller) :
    (PostgresWorkClaimRepository.supersede routeId now latest >>= fun nextFencingToken =>
      (do
        let row : WorkClaimRow :=
          { claimId, routeId, workerServiceId := caller, workerInstanceId := workerInstance
            fencingToken := nextFencingToken, status := .active, claimedAt := now, leaseExpiresAt }
        let _ ← Proc.orFail .ofDatabase (PostgresWorkClaimRepository.insertClaim row)
        let claim ← Proc.ensure (claimFromRow row)
        let _ ← Proc.orFail .ofDatabase Proc.commitNow
        return claim : Fallible WorkClaimError WorkClaim)).run.Respects store
      (Beside caller routeId latest d₀ d₀') := by
  refine Proc.Respects.run_bind (respects_supersede hleads hleads') fun token => ?_
  refine Proc.Respects.run_bind (Proc.Respects.orFail ?_) fun _ => ?_
  · refine Proc.Respects.insert (fun d d' h => h.check hidentities hinstances hleads hleads' rfl)
      fun d d' h hcheck => ?_
    obtain ⟨-, -, -, hfresh, -⟩ := Db.checkWorkClaim_eq_ok.mp hcheck
    exact h.apply rfl hleads hleads' fun c hc hid => absurd hid (hfresh c hc)
  refine Proc.Respects.run_bind Proc.Respects.ensure fun claim => ?_
  exact Proc.Respects.run_bind (Proc.Respects.orFail Proc.Respects.commitNow) fun _ =>
    Proc.Respects.run_pure

/-- A claim on a route that leads elsewhere, or nowhere, is refused alike. -/
theorem exec_claim_elsewhere {claimId : ClaimId} {workerInstance : InstanceId}
    {leaseExpiresAt now : ℤ}
    (hnone : (d.requestRoutes.find? fun r => r.routeId = routeId).filter
      (fun r => decide (r.destinationServiceId = caller)) = none) :
    (PostgresWorkClaimRepository.claim claimId routeId caller workerInstance leaseExpiresAt
      now).exec store d [] = ⟨d, [], .error (.routeNotFound routeId)⟩ := by
  unfold PostgresWorkClaimRepository.claim
  rw [Proc.exec_transaction, Proc.exec_orFail_bind, PostgresWorkClaimRepository.routeDestination,
    Proc.exec_query, Store.view_nil]
  dsimp only
  rw [if_pos]
  · rfl
  · intro hdestination
    obtain ⟨r, hr, hown⟩ := Option.map_eq_some_iff.mp hdestination
    rw [hr, Option.filter_some, if_pos (decide_eq_true hown)] at hnone
    cases hnone

/-- A claim on the caller's route is answered the same in databases that have the same claims, and
spares the other services. -/
theorem exec_claim_own {claimId : ClaimId} {workerInstance : InstanceId} {leaseExpiresAt now : ℤ}
    (hclaims : d.workClaims = d'.workClaims) (hidentities : d.identities = d'.identities)
    (hinstances : d.serviceInstances = d'.serviceInstances)
    (hnodup : (d.workClaims.map WorkClaimRow.claimId).Nodup) {r r' : RouteRow}
    (hr : (d.requestRoutes.find? fun r => r.routeId = routeId) = some r)
    (hr' : (d'.requestRoutes.find? fun r => r.routeId = routeId) = some r')
    (hown : r.destinationServiceId = caller) (hown' : r'.destinationServiceId = caller) :
    ((PostgresWorkClaimRepository.claim claimId routeId caller workerInstance leaseExpiresAt
        now).exec store d []).result =
      ((PostgresWorkClaimRepository.claim claimId routeId caller workerInstance leaseExpiresAt
        now).exec store d' []).result ∧
    Spares caller d ((PostgresWorkClaimRepository.claim claimId routeId caller workerInstance
      leaseExpiresAt now).exec store d []).db := by
  have hleads : ∀ {d : Db} {r : RouteRow},
      (d.requestRoutes.find? fun r => r.routeId = routeId) = some r →
      r.destinationServiceId = caller → LeadsTo d routeId caller := by
    intro d r hr hown
    have hid := List.find?_some hr
    exact ⟨r, List.mem_of_find?_eq_some hr, of_decide_eq_true hid, hown⟩
  unfold PostgresWorkClaimRepository.claim
  simp only [Proc.exec_transaction, Proc.exec_orFail_bind,
    PostgresWorkClaimRepository.routeDestination, Proc.exec_query, Store.view_nil, hr, hr',
    Option.map_some, hown, hown', ne_eq, not_true_eq_false, if_false,
    PostgresWorkClaimRepository.lockLatestClaimForRoute, Proc.exec_selectForUpdate, ← hclaims]
  -- The latest claim is the same in both, and is the route's.
  generalize hlatest : (Option.bind _ _ : Option WorkClaimRow) = latest
  have hbeside : Beside caller routeId latest d d' d d' := by
    refine ⟨.refl caller d, .refl caller d', hclaims, fun row hrow c hc hid => ?_⟩
    rw [Option.mem_def.mp hrow] at hlatest
    obtain ⟨l, -, hfind⟩ := Option.bind_eq_some_iff.mp hlatest
    have hfound := List.find?_some hfind
    rw [decide_eq_true_eq] at hfound
    rw [List.inj_on_of_nodup_map hnodup hc (List.mem_of_find?_eq_some hfind) hid]
    exact hfound.2
  obtain ⟨hresult, -, hdb, -⟩ := (respects_claim claimId workerInstance leaseExpiresAt
    now hidentities hinstances (hleads hr hown) (hleads hr' hown')).exec [] hbeside hbeside
  exact ⟨hresult, hdb.spares⟩

end Claims

end InfernalLaw.Ownership
