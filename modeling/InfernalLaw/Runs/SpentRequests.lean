import InfernalLaw.Http.MutatingHandlers
import InfernalLaw.Postgres.Leaves
import InfernalLaw.Runs.HandlerWrites
import InfernalLaw.Runs.Requests

/-!
# Requests that have no effect left

A mutating request that is refused, or that finds its effect in the database, writes to none of the
governed tables. Each handler has its own way to find the effect; what the gate knows of the request
is not one of them.
-/

namespace InfernalLaw.SafeRetries

open Handlers (ends_accept)
open Postgres (DbError Proc)
open Postgres.Proc.Writes

/-! ## The governed tables -/

/-- What the handlers of mutating requests are there to change. -/
structure Governed where
  schemaVersions : List SchemaVersionRow
  subscriptions : List SubscriptionRow
  acceptedRequests : List AcceptedRequestRow
  requestRoutes : List RouteRow
  workClaims : List WorkClaimRow
  deriving DecidableEq

/-- The governed tables of a database. -/
def governed (d : Db) : Governed where
  schemaVersions := d.schemaVersions
  subscriptions := d.subscriptions
  acceptedRequests := d.acceptedRequests
  requestRoutes := d.requestRoutes
  workClaims := d.workClaims

/-- With the grants, which an authorization reads. -/
structure View extends Governed where
  grants : List GrantRow

/-- The tables that a retry may touch, and the grants it is decided by. -/
def view (d : Db) : View := { governed d with grants := d.grants }

/-- The tables that are viewed. -/
def tables : List TableName :=
  [.schemaVersions, .subscriptions, .acceptedRequests, .requestRoutes, .workClaims, .grants]

/-- A database with these tables. -/
def Has (g : View) (d : Db) : Prop := view d = g

/-- The write leaves these tables as they are. -/
def Leaves (g : View) (w : Write) : Prop := ∀ d, Has g d → Has g (d.apply w)

section

variable {g : View} {d : Db} (h : Has g d)

include h

/-- The subscriptions are those of the view. -/
theorem Has.subscriptions :
    d.subscriptions = g.subscriptions := congrArg (fun v => v.subscriptions) h

/-- So are the accepted requests. -/
theorem Has.acceptedRequests : d.acceptedRequests = g.acceptedRequests :=
  congrArg (fun v => v.acceptedRequests) h

/-- So are the routes. -/
theorem Has.requestRoutes :
    d.requestRoutes = g.requestRoutes := congrArg (fun v => v.requestRoutes) h

/-- So are the claims. -/
theorem Has.workClaims : d.workClaims = g.workClaims := congrArg (fun v => v.workClaims) h

/-- So are the grants. -/
theorem Has.grants : d.grants = g.grants := congrArg View.grants h

end

/-- A write to none of the tables of the view leaves the view as it is. -/
theorem leaves_other {g : View} {w : Write} (h : w.table ∉ tables) : Leaves g w := by
  intro d hd
  rw [← hd]
  cases w <;> first | rfl | exact absurd (by simp [Write.table, tables]) h

/-! ## What a retry finds -/

/-- The claim that `claim` locks as the route's latest. -/
def latestClaim (rows : List WorkClaimRow) (routeId : RouteId) : Option WorkClaimRow :=
  ((rows.filter fun r => r.routeId = routeId).argmax WorkClaimRow.fencingToken).bind fun r =>
    rows.find? fun r' => r'.claimId = r.claimId ∧ r'.routeId = routeId

/-- The claim that an action on it locks. -/
def lockedClaim (rows : List WorkClaimRow) (claimId : ClaimId) : Option WorkClaimRow :=
  (rows.find? fun r => r.claimId = claimId).bind fun r => rows.find? fun r' =>
    r'.claimId = r.claimId

/-- The row is that of a current claim. -/
def InForce (row : WorkClaimRow) (now : ℤ) : Prop := row.status = .active ∧ now < row.leaseExpiresAt

/-- A claim is current exactly when its row is in force. -/
theorem isCurrent_iff {claim : WorkClaim} {now : ℤ} :
    claim.isCurrent now = true ↔ InForce claim.row now := by
  simp [WorkClaim.isCurrent, InForce, WorkClaim.row]

/-- The route is claimed, or its work is completed. -/
def Claimed (rows : List WorkClaimRow) (routeId : RouteId) (now : ℤ) : Prop :=
  ∃ row, latestClaim rows routeId = some row ∧ (InForce row now ∨ row.status = .completed)

/-- The claim is not current, or not under this token. -/
def Fenced (rows : List WorkClaimRow) (claimId : ClaimId) (fencingToken now : ℤ) : Prop :=
  ∀ row, lockedClaim rows claimId = some row → row.fencingToken = fencingToken → ¬ InForce row now

/-- The request is routed to all the subscriptions that it is matched with now. -/
def RoutedToAll (g : View) (submitted : Request) : Prop :=
  ∀ row ∈ g.subscriptions, row.disabledAt = none → row.deliveryMode = .inclusive →
    row.eventType = submitted.action.text →
      ∃ r ∈ g.requestRoutes, r.requestId = submitted.id ∧ r.subscriptionId = row.id

/-- The request is accepted, and routed to all of them. -/
structure Routed (g : View) (submitted : Request) : Prop where
  accepted : ∃ a ∈ g.acceptedRequests, a.key = submitted.key
  routed : RoutedToAll g submitted

/-- The evaluator allows the facts, with the grants in force at `now`. -/
def Permits (evaluator : PolicyEvaluator) (facts : PolicyFacts) (now : ℤ) (grants : List GrantRow) :
    Prop :=
  ∃ matched evaluation, (grants.filter fun row =>
      PostgresAuthorityRepository.MatchesSql facts now row).mapM grantFromRow = .ok matched ∧
    evaluator.evaluate facts matched = .ok evaluation ∧ evaluation.verdict = .allow

/-- The body is that of a publication. -/
def Publishes (crates : MutationCrates) (body : List UInt8) : Prop :=
  ∃ dto kind name contentDigest, crates.publishSchemaRequest body = some dto ∧
    dto.schemaKind = .ok kind ∧ dto.schemaName = .ok name ∧ dto.digest crates = .ok contentDigest

/-- The facts that `check_authorized` asks about. -/
abbrev subscriptionFacts (serviceId : ActorId) (action : ActionName) : PolicyFacts :=
  .forRequestAcceptance serviceId action Scope.wildcard noArtifactSchemaVersions

/-- The request is refused, or its effect is there and its handler finds nothing to add. A
publication always makes the next version. -/
def Spent (crates : MutationCrates) (draws : MutationDraws) (request : ParsedRequest)
    (verified : VerifiedServiceRequest) (g : View) : GovernedCall → Prop
  | .publishSchema => request.isJson = true → ¬ Publishes crates request.body
  | .claimRoute routeId => request.isJson = true → ∀ id, crates.parseUuid routeId = some id →
    Claimed g.workClaims ⟨id⟩ draws.now
  | .renewClaimRoute claimId => request.isJson = true → ∀ id dto lease,
    crates.parseUuid claimId = some id → crates.renewRequest request.body = some dto →
      dto.leaseExpiresAt draws.now = some lease →
        Fenced g.workClaims ⟨id⟩ dto.fencingToken draws.now ∨
          ∀ row ∈ g.workClaims, row.claimId = ⟨id⟩ → lease ≤ row.leaseExpiresAt
  | .releaseClaimRoute claimId | .completeClaimRoute claimId => request.isJson = true → ∀ id dto,
    crates.parseUuid claimId = some id → crates.fencedActionRequest request.body = some dto →
      Fenced g.workClaims ⟨id⟩ dto.fencingToken draws.now
  | .requestRoute .submitRequest => request.isJson = true → ∀ dto submitted,
    crates.submitRequestRequest request.body = some dto →
      dto.intoRequest crates.toCrates verified.serviceId ⟨verified.requestId⟩ = .ok submitted →
        Permits draws.evaluator (.forRequestAcceptance verified.serviceId submitted.action
          submitted.scope submitted.schemaVersions) draws.submission.now g.grants →
            Routed g submitted
  | .subscriptionRoute .createSubscription => request.isJson = true → ∀ dto eventType,
    crates.createSubscriptionRequest request.body = some dto →
      EventType.new dto.eventType = some eventType →
        Permits draws.evaluator (subscriptionFacts verified.serviceId subscriptionCreate)
          draws.decidedAt g.grants →
            ∃ row ∈ g.subscriptions, row.disabledAt = none ∧ row.serviceId = verified.serviceId ∧
              row.eventType = eventType.text
  | .subscriptionRoute (.disableSubscription id) => ∀ subscriptionId,
    crates.parseUuid id = some subscriptionId →
      Permits draws.evaluator (subscriptionFacts verified.serviceId subscriptionDisable)
        draws.decidedAt g.grants →
          ∀ row ∈ g.subscriptions, row.id = ⟨subscriptionId⟩ → row.serviceId = verified.serviceId →
            row.disabledAt ≠ none
  | _ => True

section

variable {g : View}

/-! ## Authorizations -/

section

variable {evaluator : PolicyEvaluator} {decisionId : DecisionId} {facts : PolicyFacts} {now : ℤ}

/-- A decision is only written where none of these tables is. What it says follows from the
grants. -/
theorem writes_authorize_bind {α : Type} {f : Except AuthorityError AuthorityDecision → Sql α}
    (herr : ∀ e, (f (.error e)).Writes (Has g) (Leaves g))
    (hdecision : ∀ decision : AuthorityDecision,
      (decision.isAllowed = true → Permits evaluator facts now g.grants) →
        (f (.ok decision)).Writes (Has g) (Leaves g)) :
    ((AuthorityService.authorize evaluator decisionId facts now).bind f).Writes (Has g)
      (Leaves g) := by
  have hrecord : ∀ decision : AuthorityDecision,
      (decision.isAllowed = true → Permits evaluator facts now g.grants) →
        ((PostgresAuthorityRepository.record decision >>= fun _ => pure decision).run.bind f).Writes
          (Has g) (Leaves g) := by
    intro decision hallowed
    change ((Proc.orFail AuthorityError.ofDatabase (Proc.autocommit
      (PostgresAuthorityRepository.recordDecision decision.row)) >>= fun _ =>
        pure decision).run.bind f).Writes _ _
    rw [Proc.orFail_bind_run, Proc.bind_assoc]
    refine bind (autocommit (insert fun _ _ _ => leaves_other (by simp [Write.table, tables])))
      fun answer => ?_
    cases answer with
    | error e => exact herr _
    | ok _ => exact hdecision decision hallowed
  unfold AuthorityService.authorize authorize PostgresAuthorityRepository.matchingGrants
  rw [Proc.run_bind_assoc, Proc.orFail_bind_run, Proc.bind_assoc]
  refine autocommit_read_bind (fun e => herr _) fun d rows hd hrows => ?_
  -- The grants that are read are those of the view, so what the evaluator is asked is known.
  have hrows' : rows = g.grants.filter fun row =>
      PostgresAuthorityRepository.MatchesSql facts now row := by
    obtain ⟨-, -, hrows⟩ := Postgres.bind_eq_ok.mp hrows
    rw [← hd.grants]
    exact (Except.ok.inj hrows).symm
  dsimp only
  cases hmatched : rows.mapM grantFromRow with
  | error e => exact herr e
  | ok matched =>
    rw [hrows'] at hmatched
    refine hrecord _ fun hallowed => ?_
    have hverdict := of_decide_eq_true hallowed
    cases hevaluate : evaluator.evaluate facts matched with
    | ok evaluation =>
      rw [hevaluate] at hverdict
      exact ⟨matched, evaluation, hmatched, hevaluate, hverdict⟩
    | error e =>
      rw [hevaluate] at hverdict
      cases hverdict

/-- The rule of `check_authorized`. -/
theorem writes_checkAuthorized_bind {α : Type} {crates : HttpCrates} {serviceId : ActorId}
    {action : ActionName} {f : Option Response → Sql α}
    (hrefused : ∀ response, (f (some response)).Writes (Has g) (Leaves g))
    (hpermitted : Permits evaluator (subscriptionFacts serviceId action) now g.grants →
      (f none).Writes (Has g) (Leaves g)) :
    ((checkAuthorized crates evaluator decisionId serviceId action now).bind f).Writes (Has g)
      (Leaves g) := by
  unfold checkAuthorized
  rw [Proc.bind_assoc]
  refine writes_authorize_bind (fun e => hrefused _) fun decision hallowed => ?_
  dsimp only
  split
  · rename_i hdecision
    exact hpermitted (hallowed hdecision)
  · exact hrefused _

end

/-! ## Subscriptions -/

variable {serviceId : ActorId} {now : ℤ}

/-- While a subscription to the event type is active, there is no second one. -/
theorem writes_create {id : SubscriptionId} {eventType : EventType} {row : SubscriptionRow}
    (hrow : row ∈ g.subscriptions) (hactive : row.disabledAt = none)
    (hservice : row.serviceId = serviceId) (htype : row.eventType = eventType.text) :
    (SubscriptionService.create id serviceId eventType .inclusive now).Writes (Has g)
      (Leaves g) := by
  refine ensure_bind fun s hs => run_bind ?_ fun _ => run_pure
  obtain ⟨-, hservice', htype', -, -, hactive'⟩ := Subscription.restore_eq_ok.mp hs
  refine transaction (run_bind (orFail (insert fun d hd hcheck => ?_)) fun _ =>
    run_bind (orFail (insert fun _ _ _ => leaves_other (by simp [Write.table, tables]))) fun _ =>
      orFail commitNow)
  have hmem : row ∈ d.subscriptions := by
    rw [hd.subscriptions]
    exact hrow
  -- The unique index on active subscriptions refuses the row.
  exact absurd (htype.trans (congrArg EventType.text htype'.symm))
    ((Db.subscribes_of_check hactive' hcheck).fresh_event row hmem hactive
      (hservice.trans hservice'.symm))

/-- A subscription that is disabled is not disabled again. -/
theorem writes_disable {subscriptionId : SubscriptionId}
    (h : ∀ row ∈ g.subscriptions, row.id = subscriptionId → row.serviceId = serviceId →
      row.disabledAt ≠ none) :
    (SubscriptionService.disable serviceId subscriptionId now).Writes (Has g) (Leaves g) := by
  unfold SubscriptionService.disable PostgresSubscriptionRepository.disable
  split
  · exact done
  refine transaction (run_bind (orFail (update fun d _ old new hd hold _ => ?_)) fun row => ?_)
  · -- The `UPDATE` finds no subscription but one that is active.
    have hmem : old ∈ g.subscriptions := by
      rw [← hd.subscriptions]
      exact List.mem_of_find?_eq_some hold
    have hfound := List.find?_some hold
    rw [decide_eq_true_eq] at hfound
    obtain ⟨hid, hservice, hactive, -⟩ := hfound
    exact absurd hactive (h old hmem hid hservice)
  · cases row with
    | some row =>
      refine run_bind ensure fun s => run_bind (orFail (insert fun _ _ _ => leaves_other ?_))
        fun _ =>
        run_bind (orFail commitNow) fun _ => run_pure
      simp [Write.table, tables]
    | none => exact run_bind (orFail query) fun _ => run_throw

/-! ## Claims -/

/-- A route that is claimed, or whose work is completed, is not claimed again. -/
theorem writes_claim {claimId : ClaimId} {routeId : RouteId} {workerService : ActorId}
    {workerInstance : InstanceId} {leaseExpiresAt : ℤ} (h : Claimed g.workClaims routeId now) :
    (WorkClaimService.claim claimId routeId workerService workerInstance leaseExpiresAt now).Writes
      (Has g) (Leaves g) := by
  unfold WorkClaimService.claim
  split
  · exact done
  refine transaction (run_bind (orFail query) fun destination => ?_)
  split
  · exact run_throw
  refine orFail_bind (selectForUpdate_bind (fun _ => done) fun d d' hd hd' => ?_)
  obtain ⟨row, hrow, hends⟩ := h
  -- The claims are the same before and after the wait for the lock.
  have hlatest : (((d.workClaims.filter fun r => r.routeId = routeId).argmax
      WorkClaimRow.fencingToken).bind fun r => d'.workClaims.find? fun r' =>
        r'.claimId = r.claimId ∧ r'.routeId = routeId) = some row := by
    rw [hd.workClaims, hd'.workClaims]
    exact hrow
  rw [hlatest]
  dsimp only [PostgresWorkClaimRepository.supersede]
  rw [Proc.run_bind_assoc]
  refine ensure_bind fun claim hclaim => ?_
  obtain rfl := claimFromRow_eq_ok.mp hclaim
  -- A claim in force is not superseded, and neither is one that is completed.
  by_cases hcurrent : claim.isCurrent now = true
  · rw [if_pos hcurrent]
    exact done
  · have hcompleted : claim.status = .completed :=
      hends.resolve_left fun hforce => hcurrent (isCurrent_iff.mpr hforce)
    rw [if_neg hcurrent, if_pos hcompleted]
    exact done

/-- What is done with a claim that is locked needs its token, and that it is current. -/
theorem writes_changeLocked {claimId : ClaimId} {fencingToken : ℤ}
    {statement : ClaimId → Sql (Except DbError (Option WorkClaimRow))}
    (h : Fenced g.workClaims claimId fencingToken now ∨ ∀ row,
      lockedClaim g.workClaims claimId = some row →
        (statement row.claimId).Writes (Has g) (Leaves g)) :
    (PostgresWorkClaimRepository.changeLocked claimId fencingToken now statement).Writes
      (Has g) (Leaves g) := by
  unfold PostgresWorkClaimRepository.changeLocked PostgresWorkClaimRepository.lockCurrent
  refine transaction ?_
  rw [Proc.run_bind_assoc]
  refine orFail_bind (selectForUpdate_bind (fun _ => done) fun d d' hd hd' => ?_)
  have hlocked : ((d.workClaims.find? fun r => r.claimId = claimId).bind fun r =>
      d'.workClaims.find? fun r' => r'.claimId = r.claimId) = lockedClaim g.workClaims claimId := by
    rw [hd.workClaims, hd'.workClaims]
    rfl
  rw [hlocked]
  dsimp only
  rw [Proc.run_bind_assoc]
  refine ensure_bind fun row hrow => ?_
  have hsome := Postgres.elim_eq_ok.mp hrow
  rw [Proc.run_bind_assoc]
  refine ensure_bind fun claim hclaim => ?_
  obtain rfl := claimFromRow_eq_ok.mp hclaim
  -- Without its fence the statement is made, so it has to write nothing then.
  by_cases hfenced : claim.fencingToken ≠ fencingToken ∨ claim.isCurrent now = false
  · rw [if_pos hfenced]
    exact done
  · rw [if_neg hfenced]
    rw [not_or, not_not, Bool.not_eq_false] at hfenced
    rcases h with hfence | hstatement
    · exact absurd (isCurrent_iff.mp hfenced.2) (hfence _ hsome hfenced.1)
    · have hone : (Proc.one (statement claim.id)).Writes (Has g) (Leaves g) :=
        one (hstatement _ hsome)
      change (Proc.orFail WorkClaimError.ofDatabase (Proc.one (statement claim.id)) >>= fun row =>
        Proc.ensure (claimFromRow row) >>= fun claim =>
          Proc.orFail WorkClaimError.ofDatabase Proc.commitNow >>= fun _ => pure claim).run.Writes
            (Has g) (Leaves g)
      exact run_bind (orFail hone) fun row => run_bind ensure fun claim =>
        run_bind (orFail commitNow) fun _ => run_pure

/-- The lease of a claim is only ever extended. -/
theorem writes_renewRow {claimId : ClaimId} {leaseExpiresAt : ℤ}
    (h : ∀ row ∈ g.workClaims, row.claimId = claimId → leaseExpiresAt ≤ row.leaseExpiresAt) :
    (PostgresWorkClaimRepository.renewRow claimId leaseExpiresAt).Writes (Has g) (Leaves g) := by
  refine update_of_select fun d d' r old new _ hd hr hold hchange => ?_
  have hmem : old ∈ g.workClaims := by
    rw [← hd.workClaims]
    exact List.mem_of_find?_eq_some hold
  have hold' := List.find?_some hold
  have hr' := List.find?_some hr
  rw [decide_eq_true_eq] at hold' hr'
  have hid : old.claimId = claimId := hold'.trans hr'
  obtain ⟨-, hprotect, -⟩ := changeWorkClaim_eq_ok.mp hchange
  obtain ⟨-, hactive, hlease⟩ := protectWorkClaim_eq_ok.mp hprotect
  -- The trigger on the table refuses a lease that is not extended.
  rw [if_pos hactive] at hlease
  exact absurd hlease (not_lt.mpr (h old hmem hid))

/-! ## Submissions -/

/-- Where the request is accepted already, it is not accepted again. -/
theorem writes_accept {submitted : Request} {fingerprint : RequestFingerprint}
    (h : ∃ a ∈ g.acceptedRequests, a.key = submitted.key) :
    (PostgresRequestRepository.accept submitted fingerprint now).Writes (Has g) (Leaves g) := by
  have hconclude : ∀ {outcome : AcceptanceOutcome} {answer : Except RequestError RequestAcceptance},
      (PostgresRequestRepository.conclude submitted fingerprint outcome answer).run.Writes (Has g)
        (Leaves g) := fun {_ _} =>
    run_bind (orFail (insert fun _ _ _ => leaves_other (by simp [Write.table, tables]))) fun _ =>
      run_bind (orFail commitNow) fun _ => ensure
  obtain ⟨a, ha, hkey⟩ := h
  refine transaction (run_bind (orFail (insertOrNothing fun d hd _ hconflict _ => ?_))
    fun inserted => ?_)
  · -- The key is taken, so `ON CONFLICT` does nothing.
    have hmem : a ∈ d.acceptedRequests := by
      rw [hd.acceptedRequests]
      exact ha
    obtain ⟨hsource, hid⟩ := Prod.ext_iff.mp hkey
    exact absurd (decide_eq_true ⟨hsource, hid⟩) (List.any_eq_false.mp hconflict a hmem)
  split
  · exact run_bind ensure fun stored => hconclude
  · refine run_bind (orFail query) fun row => run_bind ensure fun row =>
      run_bind ensure fun stored => ?_
    split
    · exact hconclude
    · exact hconclude

/-- A route that is there is not made again. -/
theorem writes_materialize {routeId : RouteId} {sourceService destinationService : ActorId}
    {requestId : RequestId} {subscriptionId : SubscriptionId}
    (h : ∃ r ∈ g.requestRoutes, r.requestId = requestId ∧ r.subscriptionId = subscriptionId) :
    (RouteService.materialize routeId sourceService requestId subscriptionId destinationService
      now).run.Writes (Has g) (Leaves g) := by
  obtain ⟨r, hr, hrequest, hsubscription⟩ := h
  refine ensure_bind fun route hroute => run_bind (orFail (autocommit (insertOrNothing
    fun d hd _ hconflict _ => ?_))) fun inserted => ?_
  · obtain ⟨-, -, hrequest', hsubscription', -⟩ := Route.restore_eq_ok.mp hroute
    have hmem : r ∈ d.requestRoutes := by
      rw [hd.requestRoutes]
      exact hr
    exact absurd (decide_eq_true
      ⟨hrequest.trans hrequest'.symm, hsubscription.trans hsubscription'.symm⟩)
      (List.any_eq_false.mp hconflict r hmem)
  split
  · exact ensure
  · exact run_bind (orFail (autocommit query)) fun existing => run_bind ensure fun row => ensure

/-- Routes that are there are not made again. -/
theorem writes_materializeEach {routeIds : ℕ → RouteId} {sourceService : ActorId}
    {requestId : RequestId} {subscriptions : List Subscription} (h : ∀ s ∈ subscriptions,
      ∃ r ∈ g.requestRoutes, r.requestId = requestId ∧ r.subscriptionId = s.id) :
    ∀ {n : ℕ}, (SubscriptionRouter.materializeEach routeIds sourceService requestId now n
      subscriptions).run.Writes (Has g) (Leaves g) := by
  induction subscriptions with
  | nil => exact run_pure
  | cons s rest ih =>
    exact run_bind (writes_materialize (h s List.mem_cons_self)) fun route =>
      run_bind (ih fun s hs => h s (List.mem_cons_of_mem _ hs)) fun routes => run_pure

/-- What is read of a row. -/
theorem id_of_subscriptionFromRow {row : SubscriptionRow} {s : Subscription}
    (h : subscriptionFromRow row = .ok s) : s.id = row.id ∧ s.deliveryMode = row.deliveryMode := by
  obtain ⟨eventType, -, h⟩ := Postgres.bind_eq_ok.mp h
  obtain ⟨hid, -, -, hmode, -⟩ := Subscription.restore_eq_ok.mp (Postgres.mapError_eq_ok.mp h)
  exact ⟨hid, hmode⟩

/-- Where the request is accepted and routed, a submission adds nothing. -/
theorem writes_acceptSubmission {crates : HttpCrates} {draws : SubmissionDraws}
    {submitted : Request} (h : Routed g submitted) :
    (acceptSubmission crates draws submitted).Writes (Has g) (Leaves g) := by
  refine bind_of_ends (writes_accept h.accepted) ends_accept fun answer hanswer => ?_
  cases answer with
  | error e => exact done
  | ok acceptance =>
    have hrequest := hanswer acceptance rfl
    refine bind ?_ fun _ => done
    rw [hrequest]
    refine ensure_bind fun eventType htype => ?_
    rw [EventType.new_action, Option.elim_some] at htype
    obtain rfl := Except.ok.inj htype
    -- The lookup, with what is done with its answer.
    change ((((Proc.bind (Proc.autocommit _) _).bind _).bind _).bind _).Writes _ _
    rw [Proc.bind_assoc, Proc.bind_assoc, Proc.bind_assoc]
    refine autocommit_query_bind (fun e => done) fun d hd => ?_
    simp only [Except.mapError, Proc.bind, ExceptT.bindCont, Proc.ensure]
    generalize hread : List.mapM subscriptionFromRow _ = found
    cases found with
    | error e => exact done
    | ok found =>
      refine writes_materializeEach fun s hs => ?_
      obtain ⟨hs, hinclusive⟩ := List.mem_filter.mp hs
      obtain ⟨row, hrow, hs⟩ := (Postgres.mem_of_mapM_eq_ok hread).mp hs
      obtain ⟨hid, hmode⟩ := id_of_subscriptionFromRow hs
      have hrow' := List.mem_mergeSort.mp hrow
      obtain ⟨hmem, hwanted⟩ := List.mem_filter.mp hrow'
      obtain ⟨htype, hactive⟩ := of_decide_eq_true hwanted
      have hmem' : row ∈ g.subscriptions := by
        rw [← hd.subscriptions]
        exact hmem
      rw [hid]
      exact h.routed row hmem' hactive (hmode.symm.trans (of_decide_eq_true hinclusive)) htype

/-! ## Instances -/

/-- The lease of an instance is in none of the governed tables. -/
theorem writes_renewInstance {crates : KeyCrates} {policy : LeasePolicy} {id : InstanceId}
    {expectedRevision : ℤ} :
    (InstanceRegistryService.renew crates policy id expectedRevision now).Writes (Has g)
      (Leaves g) := by
  refine run_bind ensure fun leaseExpiresAt => ?_
  change (PostgresInstanceRegistry.renew _ _ _ _ _).Writes _ _
  unfold PostgresInstanceRegistry.renew
  split
  · exact done
  refine transaction (run_bind (orFail (update fun _ _ _ _ _ _ _ => leaves_other ?_)) fun row => ?_)
  · simp [Write.table, tables]
  split
  · exact run_bind (orFail query) fun _ => run_throw
  · refine run_bind (orFail (one query)) fun row => run_bind ensure fun registered =>
      run_bind (orFail (insert fun _ _ _ => leaves_other ?_)) fun _ =>
        run_bind (orFail commitNow) fun _ => run_pure
    simp [Write.table, tables]

end

/-! ## Retries -/

section

variable {crates : MutationCrates} {policy : LeasePolicy} {draws : MutationDraws}
  {request : ParsedRequest} {verified : VerifiedServiceRequest} {g : View}

/-- What is answered for a claim is not written. -/
theorem writes_claimActionResponse {I : Db → Prop} {P : Write → Prop} {crates : ClaimActionCrates}
    {p : Sql (Except WorkClaimError WorkClaim)} (h : p.Writes I P) :
    (claimActionResponse crates p).Writes I P := by
  refine bind h fun r => ?_
  cases r <;> exact done

/-- A retried claim of a route leaves the view as it is. -/
theorem writes_claimRoute {routeId : Str}
    (h : Spent crates draws request verified g (.claimRoute routeId)) :
    (claimRoute crates.toHttpCrates draws.claimId draws.now request verified.serviceId
      verified.instanceId routeId).Writes (Has g) (Leaves g) := by
  unfold claimRoute
  split
  · exact done
  rename_i id hid
  split
  · exact done
  rename_i hjson
  rw [Bool.not_eq_false] at hjson
  split
  · exact done
  refine bind (writes_claim (h hjson id hid)) fun answer => ?_
  cases answer <;> exact done

/-- So does a retried renewal of a claim. -/
theorem writes_renewClaimRoute {claimId : Str}
    (h : Spent crates draws request verified g (.renewClaimRoute claimId)) :
    (renewClaimRoute crates.toClaimActionCrates draws.now request claimId).Writes (Has g)
      (Leaves g) := by
  unfold renewClaimRoute
  split
  · exact done
  rename_i id hid
  split
  · exact done
  rename_i hjson
  rw [Bool.not_eq_false] at hjson
  split
  · exact done
  rename_i dto hdto
  split
  · exact done
  rename_i lease hlease
  refine writes_claimActionResponse ?_
  unfold WorkClaimService.renew
  split
  · exact done
  refine writes_changeLocked ((h hjson id dto lease hid hdto hlease).imp_right
    fun hlease' row hrow => ?_)
  -- The row that is changed is the one that was locked.
  have hrow' : row.claimId = ⟨id⟩ := by
    obtain ⟨found, hfound, hrow⟩ := Option.bind_eq_some_iff.mp hrow
    have hfound := List.find?_some hfound
    have hrow := List.find?_some hrow
    rw [decide_eq_true_eq] at hfound hrow
    exact hrow.trans hfound
  rw [hrow']
  exact writes_renewRow hlease'

/-- A release or a completion, by the claim and the token that are parsed. -/
theorem writes_transition {claimId : ClaimId} {fencingToken : ℤ} {status : WorkClaimStatus}
    (h : Fenced g.workClaims claimId fencingToken draws.now) :
    (PostgresWorkClaimRepository.transition claimId fencingToken draws.now status).Writes (Has g)
      (Leaves g) := writes_changeLocked (.inl h)

/-- So does a retried release. -/
theorem writes_releaseClaimRoute {claimId : Str}
    (h : Spent crates draws request verified g (.releaseClaimRoute claimId)) :
    (releaseClaimRoute crates.toClaimActionCrates draws.now request claimId).Writes (Has g)
      (Leaves g) := by
  unfold releaseClaimRoute
  split
  · exact done
  rename_i id dto hparse
  obtain ⟨hjson, hid, hdto⟩ := parseFencedAction_eq_ok hparse
  refine writes_claimActionResponse ?_
  unfold WorkClaimService.release
  split
  · exact done
  · exact writes_transition (h hjson id.uuid dto hid hdto)

/-- So does a retried completion. -/
theorem writes_completeClaimRoute {claimId : Str}
    (h : Spent crates draws request verified g (.completeClaimRoute claimId)) :
    (completeClaimRoute crates.toClaimActionCrates draws.now request claimId).Writes (Has g)
      (Leaves g) := by
  unfold completeClaimRoute
  split
  · exact done
  rename_i id dto hparse
  obtain ⟨hjson, hid, hdto⟩ := parseFencedAction_eq_ok hparse
  refine writes_claimActionResponse ?_
  unfold WorkClaimService.complete
  split
  · exact done
  · exact writes_transition (h hjson id.uuid dto hid hdto)

/-- The renewal of an instance's lease writes to none of the tables of the view. -/
theorem writes_renewInstanceRoute : (renewInstanceRoute crates policy draws request
    verified.instanceId).Writes (Has g) (Leaves g) := by
  unfold renewInstanceRoute
  split
  · exact done
  split
  · exact done
  refine bind writes_renewInstance fun answer => ?_
  cases answer <;> exact done

/-- A retried submission leaves the view as it is. -/
theorem writes_submitRequest
    (h : Spent crates draws request verified g (.requestRoute .submitRequest)) :
    (submitRequest crates.toHttpCrates draws.evaluator draws.submission request verified.serviceId
      ⟨verified.requestId⟩).Writes (Has g) (Leaves g) := by
  unfold submitRequest
  split
  · exact done
  rename_i hjson
  rw [Bool.not_eq_false] at hjson
  split
  · exact done
  rename_i dto hdto
  split
  · exact done
  rename_i submitted hsubmitted
  refine writes_authorize_bind (fun e => done) fun decision hallowed => ?_
  dsimp only
  split
  · rename_i hdecision
    exact writes_acceptSubmission (h hjson dto submitted hdto hsubmitted (hallowed hdecision))
  · exact done

/-- So does a retried subscription. -/
theorem writes_createSubscription
    (h : Spent crates draws request verified g (.subscriptionRoute .createSubscription)) :
    (createSubscription crates draws request verified.serviceId).Writes (Has g) (Leaves g) := by
  unfold createSubscription
  split
  · exact done
  rename_i hjson
  rw [Bool.not_eq_false] at hjson
  split
  · exact done
  rename_i dto hdto
  split
  · exact done
  rename_i eventType htype
  refine writes_checkAuthorized_bind (fun _ => done) fun hpermits => ?_
  obtain ⟨row, hrow, hactive, hservice, htext⟩ := h hjson dto eventType hdto htype hpermits
  refine bind (writes_create hrow hactive hservice htext) fun answer => ?_
  cases answer <;> exact done

/-- So does a retried disabling of a subscription. -/
theorem writes_disableSubscription {id : Str}
    (h : Spent crates draws request verified g (.subscriptionRoute (.disableSubscription id))) :
    (disableSubscription crates.toHttpCrates draws.evaluator draws.submission.decisionId
      draws.decidedAt draws.now id verified.serviceId).Writes (Has g) (Leaves g) := by
  unfold disableSubscription
  split
  · exact done
  rename_i subscriptionId hid
  refine writes_checkAuthorized_bind (fun _ => done) fun hpermits => ?_
  refine bind (writes_disable (h subscriptionId hid hpermits)) fun answer => ?_
  cases answer <;> exact done

/-- What does not publish makes no version. -/
theorem writes_publishSchema (h : Spent crates draws request verified g .publishSchema) :
    (publishSchema crates draws request verified.serviceId).Writes (Has g) (Leaves g) := by
  unfold publishSchema
  split
  · exact done
  rename_i hjson
  rw [Bool.not_eq_false] at hjson
  split
  · exact done
  rename_i dto hdto
  split
  · rename_i kind name contentDigest hkind hname hdigest
    exact absurd ⟨dto, kind, name, contentDigest, hdto, hkind, hname, hdigest⟩ (h hjson)
  · exact done

/-- Where the effect of the request is there, its handler writes to none of the governed tables. -/
theorem writes_mutatingHandler {call : GovernedCall} {p : Sql Response}
    (hp : mutatingHandler crates policy draws request verified call = some p)
    (h : Spent crates draws request verified g call) : p.Writes (Has g) (Leaves g) := by
  unfold mutatingHandler at hp
  split at hp <;> cases hp
  · exact writes_publishSchema h
  · exact writes_claimRoute h
  · exact writes_renewClaimRoute h
  · exact writes_releaseClaimRoute h
  · exact writes_completeClaimRoute h
  · exact writes_renewInstanceRoute
  · exact writes_submitRequest h
  · exact writes_createSubscription h
  · exact writes_disableSubscription h

end

end InfernalLaw.SafeRetries
