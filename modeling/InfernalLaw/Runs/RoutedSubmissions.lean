import InfernalLaw.Postgres.Histories
import InfernalLaw.Postgres.Turns
import InfernalLaw.Runs.AuthorizedSubmissions
import InfernalLaw.Runs.Subscriptions

/-!
# Routes of submissions

Submissions and their retries, run concurrently with services that subscribe and unsubscribe. Each
submission looks up the active subscriptions anew. A request has one route to each destination as
long as no lookup finds that a service has replaced a subscription which an earlier lookup for the
request has found.
-/

namespace InfernalLaw.Routing

open Postgres (Contract Event State)
open Submissions (SubmitCall)

/-! ## The operations -/

/-- The tables of submissions and subscriptions. -/
def tables : List TableName :=
  [.acceptedRequests, .requestRoutes, .subscriptions, .subscriptionAudit]

/-- What runs. -/
inductive Op where
  | submit (call : SubmitCall)
  | create (id : SubscriptionId) (serviceId : ActorId) (eventType : EventType)
      (deliveryMode : DeliveryMode) (now : ℤ)
  | disable (serviceId : ActorId) (subscriptionId : SubscriptionId) (now : ℤ)
  /-- Another component's transaction. -/
  | other (writes : List Write) (h : ∀ w ∈ writes, w.table ∉ tables)

section

variable (crates : HttpCrates)

/-- What the operations do; their answers do not matter here. -/
def program : Op → Sql Unit
  | .submit call =>
    (submitRequest crates call.evaluator call.draws call.request call.serviceId
      call.envelopeRequestId).bind fun _ => .done ()
  | .create id serviceId eventType deliveryMode now =>
    (SubscriptionService.create id serviceId eventType deliveryMode now).bind fun _ => .done ()
  | .disable serviceId subscriptionId now =>
    (SubscriptionService.disable serviceId subscriptionId now).bind fun _ => .done ()
  | .other writes _ => background writes

/-- The sessions of the kernels that share the database. -/
abbrev system : Postgres.System Db Write Key Op Unit := kernelSystem (program crates)

end

/-! ## Matches -/

/-- The request under the key is accepted, and the subscription is one that it is matched with. -/
structure Matches (d : Db) (key : ActorId × RequestId) (row : SubscriptionRow) : Prop where
  mem : row ∈ d.subscriptions
  active : row.disabledAt = none
  inclusive : row.deliveryMode = .inclusive
  accepted : ∃ a ∈ d.acceptedRequests, a.key = key ∧ a.action = row.eventType

/-- Of the subscriptions that the request is matched with in the two databases, each service has
one. -/
def Agrees (d' d : Db) (key : ActorId × RequestId) : Prop :=
  ∀ row', Matches d' key row' → ∀ row, Matches d key row → row.serviceId = row'.serviceId →
    row.id = row'.id

/-- What a run has passed, and what it comes to. -/
abbrev Moment : Type := Postgres.Moment Db Write Key Op Unit

/-- A submission of the request under the key looks up the active subscriptions. -/
def LooksUp (m : Moment) (key : ActorId × RequestId) : Prop :=
  ∃ x ∈ m.1.sessions, m.2 = .snapshot x.id ∧
    (∃ call, x.op = .submit call ∧ key = (call.serviceId, call.envelopeRequestId)) ∧
      ∃ effect next failed, x.proc = .stmt "FIND_ACTIVE_BY_EVENT_TYPE_SQL" effect next failed

/-- Where a submission looks up the active subscriptions, no service has replaced a subscription
that an earlier lookup for the same request has found. -/
def Unreplaced (past : List Moment) (m : Moment) : Prop :=
  ∀ key, LooksUp m key → ∀ m' ∈ past, LooksUp m' key → Agrees m'.1.db m.1.db key

/-- The source's name for the request of a route. -/
def requestKey (r : RouteRow) : ActorId × RequestId := (r.sourceServiceId, r.requestId)

/-- A request has at most one route to a destination. -/
def OneRouteEach (d : Db) : Prop :=
  d.requestRoutes.Pairwise fun r r' =>
    ¬ (requestKey r = requestKey r' ∧ r.destinationServiceId = r'.destinationServiceId)

/-- A lookup in the history has found the subscription of the route, and neither that lookup nor one
before it has found another one of the same destination. -/
def LookedUp (past : List Moment) (r : RouteRow) : Prop :=
  ∃ before m, before ++ [m] <+: past ∧ LooksUp m (requestKey r) ∧
    (∃ row, Matches m.1.db (requestKey r) row ∧ row.id = r.subscriptionId ∧
      row.serviceId = r.destinationServiceId) ∧
    ∀ m' ∈ before ++ [m], LooksUp m' (requestKey r) → ∀ row, Matches m'.1.db (requestKey r) row →
      row.serviceId = r.destinationServiceId → row.id = r.subscriptionId

/-- Of two lookups the later one has found the subscription of the earlier one. -/
theorem LookedUp.subscription_eq {past : List Moment} {r r' : RouteRow} (h : LookedUp past r)
    (h' : LookedUp past r') (hkey : requestKey r = requestKey r')
    (hdestination : r.destinationServiceId = r'.destinationServiceId) :
    r.subscriptionId = r'.subscriptionId := by
  obtain ⟨before, m, hpast, hlooks, ⟨row, hrow, hid, hservice⟩, hall⟩ := h
  obtain ⟨before', m', hpast', hlooks', ⟨row', hrow', hid', hservice'⟩, hall'⟩ := h'
  rcases List.prefix_or_prefix_of_prefix hpast hpast' with hle | hle
  · have hmem : m ∈ before' ++ [m'] := hle.subset (by simp)
    rw [← hid]
    exact hall' m hmem (hkey ▸ hlooks) row (hkey ▸ hrow) (hservice.trans hdestination)
  · have hmem : m' ∈ before ++ [m] := hle.subset (by simp)
    rw [← hid']
    exact (hall m' hmem (hkey ▸ hlooks') row' (hkey ▸ hrow')
      (hservice'.trans hdestination.symm)).symm

/-! ## The invariant -/

/-- What holds of the database between events. -/
structure Inv (past : List Moment) (d : Db) : Prop where
  subscriptions : Subscriptions.Inv d
  accepted : ∀ a ∈ d.acceptedRequests, ∀ a' ∈ d.acceptedRequests, a.key = a'.key → a = a'
  lookedUp : ∀ r ∈ d.requestRoutes, LookedUp past r
  once : OneRouteEach d

/-- What an event commits. -/
inductive Commits (past : List Moment) (d : Db) (ws : List Write) : Prop where
  | other (h : ∀ w ∈ ws, w.table ∉ tables)
  | accept {request : Request} {fingerprint : RequestFingerprint} {now : ℤ}
      {answer : Except RequestError RequestAcceptance}
      (h : Accepts request fingerprint now d answer ws)
  | route {row : RouteRow} (hrow : LookedUp past row) (henters : Enters d row)
      (hws : ws = [.requestRoutes row])
  | subscription {op : Subscriptions.Op} {a : Subscriptions.Result}
      (h : Subscriptions.Commits op d a ws)

section

variable {past : List Moment} {d : Db} {ws : List Write}

/-- To commit nothing changes none of the tables. -/
theorem Commits.quiet : Commits past d [] := .other fun _ h => absurd h List.not_mem_nil

/-- A lookup finds one subscription of each service. -/
theorem Inv.agrees (h : Inv past d) (key : ActorId × RequestId) : Agrees d d key := by
  intro row' hrow' row hrow hservice
  obtain ⟨a', ha', hkey', haction'⟩ := hrow'.accepted
  obtain ⟨a, ha, hkey, haction⟩ := hrow.accepted
  obtain rfl := h.accepted a ha a' ha' (hkey.trans hkey'.symm)
  rw [h.subscriptions.one_active row hrow.mem row' hrow'.mem hrow.active hrow'.active hservice
    (haction.symm.trans haction')]

/-- What is written to other tables leaves the requests and the routes alone. -/
theorem view_other (hrequests : ∀ w ∈ ws, w.table ≠ .acceptedRequests)
    (hroutes : ∀ w ∈ ws, w.table ≠ .requestRoutes) :
    (store.view d ws).acceptedRequests = d.acceptedRequests ∧
      (store.view d ws).requestRoutes = d.requestRoutes := by
  refine ⟨appendOnly_acceptedRequests.view_other fun w hw row heq =>
    hrequests w hw (by rw [heq]; rfl), requestRoutes_appendOnly.view_other fun w hw row heq =>
      hroutes w hw (by rw [heq]; rfl)⟩

/-- An event that leaves the requests and the routes alone. -/
theorem Inv.of_view (h : Inv past d) (hsubscriptions : Subscriptions.Inv (store.view d ws))
    (hrequests : (store.view d ws).acceptedRequests = d.acceptedRequests)
    (hroutes : (store.view d ws).requestRoutes = d.requestRoutes) :
    Inv past (store.view d ws) := by
  refine ⟨hsubscriptions, ?_, ?_, ?_⟩
  · rw [hrequests]
    exact h.accepted
  · rw [hroutes]
    exact h.lookedUp
  · unfold OneRouteEach
    rw [hroutes]
    exact h.once

/-- A request that is accepted is the only one under its key. -/
theorem Inv.accept (h : Inv past d) {request : Request} {fingerprint : RequestFingerprint} {now : ℤ}
    {answer : Except RequestError RequestAcceptance}
    (ha : Accepts request fingerprint now d answer ws) : Inv past (store.view d ws) := by
  have hsubscriptions : Subscriptions.Inv (store.view d ws) :=
    h.subscriptions.other (by cases ha <;> simp [Write.table, Subscriptions.tables])
  have hroutes : (store.view d ws).requestRoutes = d.requestRoutes :=
    requestRoutes_appendOnly.view_other (by cases ha <;> simp)
  cases ha with
  | @accepted stored hfree _ hstored =>
    have hrows : (store.view d [.acceptedRequests stored.row,
        .acceptanceAudit (request.auditRow fingerprint .accepted)]).acceptedRequests =
          d.acceptedRequests ++ [stored.row] := rfl
    have hnew : ∀ a ∈ d.acceptedRequests, a.key ≠ stored.row.key := by
      rw [hstored]
      exact hfree
    refine ⟨hsubscriptions, ?_, hroutes ▸ h.lookedUp, ?_⟩
    · rw [hrows]
      intro a ha a' ha' hkey
      rcases List.mem_append.mp ha with ha | ha <;> rcases List.mem_append.mp ha' with ha' | ha'
      · exact h.accepted a ha a' ha' hkey
      · exact absurd (hkey.trans (congrArg _ (List.mem_singleton.mp ha'))) (hnew a ha)
      · exact absurd (hkey.symm.trans (congrArg _ (List.mem_singleton.mp ha))) (hnew a' ha')
      · exact (List.mem_singleton.mp ha).trans (List.mem_singleton.mp ha').symm
    · unfold OneRouteEach
      rw [hroutes]
      exact h.once
  | conflict => exact h.of_view hsubscriptions rfl rfl
  | safeRetry => exact h.of_view hsubscriptions rfl rfl

/-- A route that comes in addition is the only one of its request to its destination. -/
theorem Inv.route (h : Inv past d) {row : RouteRow} (hrow : LookedUp past row)
    (henters : Enters d row) :
    Inv past (store.view d [.requestRoutes row]) := by
  have hrows : (store.view d [.requestRoutes row]).requestRoutes = d.requestRoutes ++ [row] := rfl
  refine ⟨h.subscriptions.other (by simp [Write.table, Subscriptions.tables]), h.accepted, ?_, ?_⟩
  · rw [hrows]
    intro r hr
    rcases List.mem_append.mp hr with hr | hr
    · exact h.lookedUp r hr
    · exact List.mem_singleton.mp hr ▸ hrow
  · unfold OneRouteEach
    rw [hrows, List.pairwise_append]
    refine ⟨h.once, List.pairwise_singleton _ _, fun r hr r' hr' ⟨hkey, hdestination⟩ => ?_⟩
    obtain rfl := List.mem_singleton.mp hr'
    exact henters.fresh_match r hr (Prod.ext_iff.mp hkey).2
      ((h.lookedUp r hr).subscription_eq hrow hkey hdestination)

/-- Every event keeps the invariant. -/
theorem Inv.commits (h : Inv past d) (hc : Commits past d ws) : Inv past (store.view d ws) := by
  cases hc with
  | other hws =>
    obtain ⟨hrequests, hroutes⟩ := view_other (d := d)
      (fun w hw heq => hws w hw (by simp [heq, tables])) fun w hw heq =>
      hws w hw (by simp [heq, tables])
    refine h.of_view (h.subscriptions.other fun w hw hmem => hws w hw ?_) hrequests hroutes
    simp only [Subscriptions.tables, List.mem_cons, List.not_mem_nil, or_false] at hmem
    simp [tables, hmem]
  | accept ha => exact h.accept ha
  | route hrow henters hws => exact hws ▸ h.route hrow henters
  | subscription hs =>
    cases hs with
    | create _ hs => exact h.of_view (h.subscriptions.create hs) rfl rfl
    | disable _ hs => exact h.of_view (h.subscriptions.disable hs) rfl rfl

end

/-! ## The contract -/

/-- An event commits what it may commit. A lookup of a submission finds that nothing was
replaced. -/
def contract (crates : HttpCrates) (past : List Moment) : Contract (system crates) where
  inv d _ := Inv past d
  guar _ d ws _ := Commits past d ws
  assume op sql d := ∀ call, op = .submit call → sql = "FIND_ACTIVE_BY_EVENT_TYPE_SQL" →
    ∃ before m, before ++ [m] <+: past ∧ m.1.db = d ∧
      LooksUp m (call.serviceId, call.envelopeRequestId) ∧ Unreplaced before m

section Sound

variable {crates : HttpCrates} {past : List Moment}

section Router

variable {call : SubmitCall} {requestId : RequestId} {sourceService : ActorId}
  {routeIds : ℕ → RouteId} {now : ℤ}

/-- What a lookup finds can be routed to. -/
theorem lookedUp_of_matches {before : List Moment} {m : Moment} (hbefore : before ++ [m] <+: past)
    (hlooks : LooksUp m (sourceService, requestId)) (hunreplaced : Unreplaced before m)
    (hagrees : Agrees m.1.db m.1.db (sourceService, requestId)) {row : SubscriptionRow}
    (hrow : Matches m.1.db (sourceService, requestId) row) (routeId : RouteId) :
    LookedUp past ⟨routeId, sourceService, requestId, row.id, row.serviceId, now⟩ := by
  refine ⟨before, m, hbefore, hlooks, ⟨row, hrow, rfl, rfl⟩,
    fun m' hm' hlooks' row' hrow' hservice => ?_⟩
  rcases List.mem_append.mp hm' with hm' | hm'
  · exact (hunreplaced _ hlooks m' hm' hlooks' row' hrow' row hrow hservice.symm).symm
  · obtain rfl := List.mem_singleton.mp hm'
    exact (hagrees row' hrow' row hrow hservice.symm).symm

/-- The routes to what a lookup has found are committed one by one. -/
theorem wp_materializeEach {op : Op} {subscriptions : List Subscription}
    (hlooked : ∀ s ∈ subscriptions, ∀ routeId,
      LookedUp past ⟨routeId, sourceService, requestId, s.id, s.serviceId, now⟩) :
    ∀ {n : ℕ} {e : Db} {u : List Write}, Commits past e u →
      (contract crates past).wp op
        (SubscriptionRouter.materializeEach routeIds sourceService requestId
        now n subscriptions).run (fun _ d u _ _ => Commits past d u) e u [] [] := by
  induction subscriptions with
  | nil => exact fun hu => hu
  | cons s rest ih =>
    intro n e u hu
    refine Contract.wp_run_bind.mpr (Contract.wp_ensure_bind.mpr ?_)
    cases hroute : Route.restore (routeIds n) sourceService requestId s.id s.serviceId now with
    | error er => exact hu
    | ok route =>
      have hrow : LookedUp past route.row := by
        obtain ⟨hid, hsource, hrequest, hsubscription, hdestination, hcreated⟩ :=
          Route.restore_eq_ok.mp hroute
        rw [Route.row, hid, hsource, hrequest, hsubscription, hdestination, hcreated]
        exact hlooked s List.mem_cons_self (routeIds n)
      have hrest : ∀ {d : Db} {u' : List Write}, Commits past d u' → ∀ answer : Route,
          (contract crates past).wp op
            (SubscriptionRouter.materializeEach routeIds sourceService requestId now
              (n + 1) rest >>= fun routes => pure (answer :: routes)).run
            (fun _ d u _ _ => Commits past d u) d u' [] [] := by
        intro d u' hu' answer
        refine Contract.wp_run_bind.mpr (Contract.wp_mono (fun r _ _ _ _ h => ?_)
          (ih (fun s hs => hlooked s (List.mem_cons_of_mem _ hs)) hu'))
        cases r <;> exact h
      refine PostgresRouteRepository.wp_materialize (fun _ => Commits.quiet)
        (fun _ _ _ _ _ => .quiet) ?_ ?_ hu
      · exact fun d _ henters => hrest (.route hrow henters rfl) route
      · exact fun d r _ _ _ => hrest .quiet r

/-- The rule of the router: what it looks up it may route to. -/
theorem wp_materializeRoutes {action : ActionName}
    (hkey : (sourceService, requestId) = (call.serviceId, call.envelopeRequestId)) {e : Db}
    {u : List Write} (hu : Commits past e u)
    (haccepted : ∃ a ∈ (store.view e u).acceptedRequests,
      a.key = (sourceService, requestId) ∧ a.action = action.text) :
    (contract crates past).wp (.submit call) (SubscriptionRouter.materializeRoutes routeIds
      sourceService requestId action now).run (fun _ d u _ _ => Commits past d u) e u [] [] := by
  obtain ⟨a, ha, hakey, haction⟩ := haccepted
  refine Contract.wp_ensure_bind.mpr ?_
  rw [EventType.new_action, Option.elim_some]
  refine Contract.wp_run_bind.mpr (Contract.wp_bind.mpr (Contract.wp_orFail_bind.mpr
    (Contract.wp_autocommit.mpr (Contract.wp_query hu (fun _ _ _ _ _ => .quiet) ?_))))
  intro d₁ d₂ hr₁ ⟨_, hinv₁⟩ hassume _ _
  refine ⟨.quiet, fun d₃ _ _ => ⟨.quiet, ?_⟩⟩
  obtain ⟨before, m, hbefore, rfl, hlooks, hunreplaced⟩ := hassume call rfl rfl
  -- The request is still accepted when the subscriptions are looked up.
  have haccepted₁ : a ∈ m.1.db.acceptedRequests :=
    hr₁.stable (appendOnly_acceptedRequests.stable_mem a) ha
  obtain ⟨found, hrows, hread, -, hmem⟩ := hinv₁.subscriptions.read (List.mergeSort_perm
    (m.1.db.subscriptions.filter fun r => r.eventType = action.eventType.text ∧ r.disabledAt = none)
    fun r r' => r.createdAt < r'.createdAt ∨
      r.createdAt = r'.createdAt ∧ r.id.uuid.toNat ≤ r'.id.uuid.toNat)
  dsimp only
  rw [show (PostgresSubscriptionRepository.findActiveRows action.eventType.text
    (store.view m.1.db [])).mapM subscriptionFromRow = .ok found from hread]
  refine wp_materializeEach (fun s hs routeId => ?_) .quiet
  obtain ⟨hs, hinclusive⟩ := List.mem_filter.mp hs
  obtain ⟨hrow, hwanted⟩ := (hmem s).mp hs
  obtain ⟨htype, hactive⟩ := of_decide_eq_true hwanted
  exact lookedUp_of_matches hbefore (hkey ▸ hlooks) hunreplaced (hinv₁.agrees _)
    ⟨hrow, hactive, of_decide_eq_true hinclusive, a, haccepted₁, hakey,
      haction.trans htype.symm⟩ routeId

end Router

section Handler

variable {call : SubmitCall}

/-- The rule of what a submission does once it is authorized. -/
theorem wp_acceptSubmission {draws : SubmissionDraws} {submitted : Request}
    (hkey : submitted.key = (call.serviceId, call.envelopeRequestId)) {e : Db} {u : List Write}
    (hu : Commits past e u) :
    (contract crates past).wp (.submit call) (acceptSubmission crates draws submitted)
      (fun _ d u _ _ => Commits past d u) e u [] [] := by
  refine Contract.wp_bind.mpr (Contract.wp_of_waiting ?_ hu
    (PostgresRequestRepository.wp_accept (fun _ => Commits.quiet) (fun _ _ => .quiet)
      (fun _ _ _ _ => .quiet) ?_))
  · exact trivial
  intro d answer ws _ ha
  cases answer with
  | error er => exact .accept ha
  | ok acceptance =>
    obtain ⟨hrequest, hmem⟩ := ha.record
    have hrecord : (acceptance.record.request.sourceService, acceptance.record.request.id) =
        (call.serviceId, call.envelopeRequestId) := by
      rw [hrequest]
      exact hkey
    exact Contract.wp_bind.mpr (wp_materializeRoutes hrecord (.accept ha) ⟨_, hmem, rfl, rfl⟩)

/-- The rule of `submit_request`. -/
theorem wp_submitRequest {e : Db} :
    (contract crates past).wp (.submit call)
      (submitRequest crates call.evaluator call.draws call.request
      call.serviceId call.envelopeRequestId) (fun _ d u _ _ => Commits past d u) e [] [] [] := by
  unfold submitRequest
  split
  · exact .quiet
  split
  · exact .quiet
  split
  · exact .quiet
  rename_i submitted hsubmitted
  refine Contract.wp_bind.mpr (AuthorityService.wp_authorize (fun _ => Commits.quiet)
    (fun _ _ _ => .quiet) ?_)
  intro d decision _ _
  have hdecision : Commits past d [.decisions decision.row] :=
    .other (by simp [Write.table, tables])
  dsimp only
  split
  · exact wp_acceptSubmission (Handlers.key_of_intoRequest hsubmitted) hdecision
  · exact hdecision

end Handler

/-- Every operation keeps to the contract. -/
theorem contract_sound : (contract crates past).Sound where
  stutter _ _ := .quiet
  preserves _ _ _ _ _ _ hinv hguar := hinv.commits hguar
  program op e hgood := by
    cases op with
    | submit call =>
      exact Contract.wp_bind.mpr wp_submitRequest
    | create id serviceId eventType deliveryMode now =>
      refine Contract.wp_bind.mpr (Contract.wp_ensure_bind.mpr ?_)
      split
      · rename_i s hs
        have hactive : s.disabledAt = none := (Subscription.restore_eq_ok.mp hs).2.2.2.2.2
        refine Contract.wp_run_bind.mpr ?_
        exact PostgresSubscriptionRepository.wp_insert (fun _ => Commits.quiet) hactive
          (fun _ _ _ => .quiet) fun d _ hsub => .subscription (.create hs hsub)
      · exact .quiet
    | disable serviceId subscriptionId now =>
      refine Contract.wp_bind.mpr ?_
      unfold SubscriptionService.disable
      split
      · exact .quiet
      · exact PostgresSubscriptionRepository.wp_disable (fun _ => Commits.quiet)
          (fun d ⟨_, hinv⟩ => hinv.subscriptions.stored) (fun _ _ _ => .quiet)
          (fun d old s _ hold hsub => .subscription (.disable hold hsub)) hgood
    | other writes hwrites =>
      exact wp_background (fun _ => Commits.quiet) (fun _ _ => .quiet) fun _ _ => .other hwrites

end Sound

/-! ## What holds in every run -/

/-- There are no routes, and no subscriptions with their audit. -/
def Fresh (d : Db) : Prop :=
  d.requestRoutes = [] ∧ d.subscriptions = [] ∧ d.subscriptionAudit = [] ∧ d.acceptedRequests = []

/-- Where no lookup finds a subscription replaced, a request has one route to each destination. -/
theorem one_route_each (crates : HttpCrates) {d₀ : Db} (h₀ : Fresh d₀) {past : List Moment}
    {s : State Db Write Key Op Unit} (hs : (system crates).Recalls Unreplaced d₀ past s) :
    OneRouteEach s.db := by
  obtain ⟨hroutes, hsubscriptions, haudit, hrequests⟩ := h₀
  have hinit : Inv past d₀ := by
    refine ⟨Subscriptions.inv_init hsubscriptions haudit, ?_, ?_, ?_⟩
    · simp [hrequests]
    · simp [hroutes]
    · simp [OneRouteEach, hroutes]
  refine (contract_sound.recalls (C := contract crates past) ?_ hinit hs).inv.once
  intro before s₁ ev hbefore hunreplaced x hx hev sql effect next failed hproc call hop hsql
  subst hsql
  exact ⟨before, (s₁, ev), hbefore, rfl,
    ⟨x, hx, hev, ⟨call, hop, rfl⟩, effect, next, failed, hproc⟩, hunreplaced⟩

/-! ## A subscription that is replaced -/

instance (d : Db) : Decidable (OneRouteEach d) := inferInstanceAs (Decidable (List.Pairwise _ _))

/-- The service that submits, with its grant, and a service that subscribes. -/
def twoServices : Db :=
  { Requests.grantedSource with
    identityRows := Requests.grantedSource.identityRows ++ [⟨⟨3⟩, .service, ['c'], .active⟩] }

/-- The database of the example has no routes. -/
theorem twoServices_fresh : Fresh twoServices := ⟨rfl, rfl, rfl, rfl⟩

/-- The submission at a time, with the identifiers from `n` on. -/
def exampleCall (n : ℕ) (now : ℤ) : SubmitCall where
  evaluator := Requests.exampleEvaluator
  draws :=
    { Requests.exampleDraws now with
      decisionId := ⟨BitVec.ofNat 128 n⟩
      routeIds := fun i => ⟨BitVec.ofNat 128 (n + i)⟩ }
  request := Requests.exampleRetry
  serviceId := ⟨1⟩
  envelopeRequestId := ⟨5⟩

/-- The second service subscribes to the action. -/
def exampleCreate (id : SubscriptionId) (now : ℤ) : Op :=
  .create id ⟨3⟩ Requests.exampleAccepted.action.eventType .inclusive now

/-- The events of a statement, and of a last statement with its commit. -/
def statement (id : ℕ) : List (Event Op) := [.snapshot id, .advance id]

/-- The events of a statement and the `COMMIT` after it. -/
def committed (id : ℕ) : List (Event Op) := [.snapshot id, .advance id, .advance id]

/-- The second service subscribes, and the first one's request is routed to it and submitted
again. -/
def exampleEvents : List (Event Op) :=
  [.begin (exampleCreate ⟨6⟩ 5)] ++ statement 0 ++ committed 0 ++
    [.begin (.submit (exampleCall 100 10))] ++ committed 1 ++ committed 1 ++ statement 1 ++
      committed 1 ++ committed 1 ++ committed 1 ++
    [.begin (.submit (exampleCall 200 20))] ++ committed 2 ++ committed 2 ++ statement 2 ++
      statement 2 ++ committed 2 ++ committed 2 ++ committed 2 ++ committed 2

/-- The retry finds the subscription that it has been routed to. -/
theorem one_route_each_retry : ∃ past s,
    (system Requests.exampleHttpCrates).Recalls Unreplaced twoServices past s ∧
      s.db.requestRoutes.length = 1 ∧ s.log.length = 3 ∧ OneRouteEach s.db := by
  have hends : ((system Requests.exampleHttpCrates).runBy
      (fun s _ => ∀ r ∈ s.db.subscriptions, r.id = ⟨6⟩) { db := twoServices } exampleEvents).map
        (fun s => (s.db.requestRoutes.length, s.log.length)) = some (1, 3) := by
    decide +kernel
  obtain ⟨s, hrun, hs⟩ := Option.map_eq_some_iff.mp hends
  obtain ⟨hroutes, hlog⟩ := Prod.mk.inj hs
  obtain ⟨past, -, hrecalls⟩ := Postgres.System.ReachesBy.recalls (P := Unreplaced)
    (J := fun d => ∀ r ∈ d.subscriptions, r.id = ⟨6⟩)
    (fun past m hpast hone _ _ m' hm' _ row' hrow' row hrow _ =>
      (hone row hrow.mem).trans (hpast m' hm' row' hrow'.mem).symm)
    (Postgres.System.ReachesBy.runBy .init hrun)
  exact ⟨past, s, hrecalls, hroutes, hlog,
    one_route_each Requests.exampleHttpCrates twoServices_fresh hrecalls⟩

/-- The service subscribes again between a submission and its retry, and the request has two routes
to it. -/
theorem resubscribed_routes_twice : ¬ ∀ (crates : HttpCrates) (d₀ : Db), Fresh d₀ →
    ∀ s, (system crates).Reaches d₀ s → OneRouteEach s.db := by
  intro h
  obtain ⟨s, hs, -, hdb⟩ := Postgres.System.exec_all_reaches
    (.init : (system Requests.exampleHttpCrates).Reaches twoServices { db := twoServices }) rfl
    [exampleCreate ⟨6⟩ 5, .submit (exampleCall 100 10), .disable ⟨3⟩ ⟨6⟩ 15, exampleCreate ⟨7⟩ 16,
      .submit (exampleCall 200 20)]
  have hone := h _ _ twoServices_fresh s hs
  rw [hdb] at hone
  exact absurd hone (by decide +kernel)

end InfernalLaw.Routing
