import InfernalLaw.Http.Server
import InfernalLaw.Infrastructure.Statements

/-!
# What handlers write

The walks through the functions of the repositories, carried on through each handler: what the
constraints let through, with any property `W` that the writes of the handler have.
-/

namespace InfernalLaw.Handlers

open Postgres (Contract)
open Postgres.Proc

section

variable {W : Write → Prop} {serviceId : ActorId} {draws : MutationDraws} {request : ParsedRequest}

/-! ## Schemas -/

/-- A publication writes a version that the service owns. -/
theorem lawful_publishSchema {crates : MutationCrates}
    (hinsert : ∀ row, row.ownerServiceId = serviceId → W (.schemaVersions (.insert row))) :
    Lawful W (publishSchema crates draws request serviceId) := by
  unfold publishSchema
  split
  · exact Obeys.done
  split
  · exact Obeys.done
  split
  · refine Obeys.bind (SchemaService.lawful_publish hinsert) fun r => ?_
    cases r <;> exact Obeys.done
  · exact Obeys.done

/-! ## Subscriptions -/

/-- An authorization for an action on subscriptions writes a decision about the service that
asks. -/
theorem lawful_checkAuthorized {crates : HttpCrates} {evaluator : PolicyEvaluator}
    {decisionId : DecisionId} {action : ActionName} {now : ℤ}
    (hdecision : ∀ row, row.sourceServiceId = serviceId → W (.decisions row)) :
    Lawful W (checkAuthorized crates evaluator decisionId serviceId action now) := by
  refine Obeys.bind (AuthorityService.lawful_authorize hdecision) fun r => ?_
  cases r with
  | error e => exact Obeys.done
  | ok decision =>
    dsimp only
    split <;> exact Obeys.done

/-- A subscription is created for the service, once there is a decision. -/
theorem lawful_createSubscription {crates : MutationCrates}
    (hdecision : ∀ row, row.sourceServiceId = serviceId → W (.decisions row))
    (hinsert : ∀ row, row.serviceId = serviceId → row.disabledAt = none →
      W (.subscriptions (.insert row)))
    (haudit : ∀ row, row.serviceId = serviceId → W (.subscriptionAudit row)) :
    Lawful W (createSubscription crates draws request serviceId) := by
  unfold createSubscription
  split
  · exact Obeys.done
  split
  · exact Obeys.done
  split
  · exact Obeys.done
  refine Obeys.bind (lawful_checkAuthorized hdecision) fun r => ?_
  cases r with
  | some response => exact Obeys.done
  | none =>
    refine Obeys.bind (SubscriptionService.lawful_create haudit hinsert) fun r => ?_
    cases r <;> exact Obeys.done

/-- One of the service gets disabled, once there is a decision. -/
theorem lawful_disableSubscription {crates : HttpCrates} {evaluator : PolicyEvaluator}
    {decisionId : DecisionId} {decidedAt now : ℤ} {id : Str}
    (hdecision : ∀ row, row.sourceServiceId = serviceId → W (.decisions row))
    (hupdate : ∀ row, row.serviceId = serviceId → row.disabledAt ≠ none →
      W (.subscriptions (.update row)))
    (haudit : ∀ row, row.serviceId = serviceId → W (.subscriptionAudit row)) :
    Lawful W (disableSubscription crates evaluator decisionId decidedAt now id serviceId) := by
  unfold disableSubscription
  split
  · exact Obeys.done
  refine Obeys.bind (lawful_checkAuthorized hdecision) fun r => ?_
  cases r with
  | some response => exact Obeys.done
  | none =>
    refine Obeys.bind (SubscriptionService.lawful_disable haudit hupdate) fun r => ?_
    cases r <;> exact Obeys.done

end

/-! ## Instances -/

/-- A renewal writes a version of the instance, and its audit. -/
theorem lawful_renewInstanceRoute {W : Write → Prop} {crates : MutationCrates}
    {policy : LeasePolicy} {draws : MutationDraws} {request : ParsedRequest}
    {instanceId : InstanceId} (hinstances : ∀ row, row.instanceId = instanceId →
      W (.serviceInstances (.update row)))
    (haudit : ∀ row, row.instanceId = instanceId → W (.registryAudit row)) :
    Lawful W (renewInstanceRoute crates policy draws request instanceId) := by
  unfold renewInstanceRoute
  split
  · exact Obeys.done
  split
  · exact Obeys.done
  refine Obeys.bind (InstanceRegistryService.lawful_renew hinstances haudit) fun r => ?_
  cases r <;> exact Obeys.done

/-! ## Claims -/

section

variable {W : Write → Prop}

/-- What is answered for a claim is not written. -/
theorem lawful_claimActionResponse {crates : ClaimActionCrates}
    {p : Sql (Except WorkClaimError WorkClaim)} (h : Lawful W p) :
    Lawful W (claimActionResponse crates p) := by
  refine Obeys.bind h fun r => ?_
  cases r <;> exact Obeys.done

variable (hupdate : ∀ row, W (.workClaims (.update row)))

include hupdate

/-- A claim of a route is the worker's own. -/
theorem lawful_claimRoute {crates : HttpCrates} {claimId : ClaimId} {now : ℤ}
    {request : ParsedRequest} {workerService : ActorId} {workerInstance : InstanceId}
    {routeId : Str} (hinsert : ∀ row, row.workerServiceId = workerService →
      row.workerInstanceId = workerInstance → W (.workClaims (.insert row))) :
    Lawful W (claimRoute crates claimId now request workerService workerInstance routeId) := by
  unfold claimRoute
  split
  · exact Obeys.done
  split
  · exact Obeys.done
  split
  · exact Obeys.done
  refine Obeys.bind (WorkClaimService.lawful_claim hupdate hinsert) fun r => ?_
  cases r <;> exact Obeys.done

variable {crates : ClaimActionCrates} {claimId : Str} {now : ℤ} {request : ParsedRequest}

/-- A renewal changes the claim. -/
theorem lawful_renewClaimRoute : Lawful W (renewClaimRoute crates now request claimId) := by
  unfold renewClaimRoute
  split
  · exact Obeys.done
  split
  · exact Obeys.done
  split
  · exact Obeys.done
  split
  · exact Obeys.done
  · exact lawful_claimActionResponse (WorkClaimService.lawful_renew hupdate)

/-- So does a release. -/
theorem lawful_releaseClaimRoute : Lawful W (releaseClaimRoute crates now request claimId) := by
  unfold releaseClaimRoute
  split
  · exact Obeys.done
  · exact lawful_claimActionResponse (WorkClaimService.lawful_release hupdate)

/-- So does a completion. -/
theorem lawful_completeClaimRoute : Lawful W (completeClaimRoute crates now request claimId) := by
  unfold completeClaimRoute
  split
  · exact Obeys.done
  · exact lawful_claimActionResponse (WorkClaimService.lawful_complete hupdate)

end

/-! ## Submissions -/

/-- What is answered for a request is the record of this request. -/
theorem ends_accept {submitted : Request} {fingerprint : RequestFingerprint} {now : ℤ} :
    (PostgresRequestRepository.accept submitted fingerprint now).Ends fun answer =>
      ∀ acceptance, answer = .ok acceptance → acceptance.record.request = submitted := by
  have herr : ∀ e, (fun answer : Except RequestError RequestAcceptance => ∀ acceptance,
      answer = .ok acceptance → acceptance.record.request = submitted) (.error e) := by simp
  have hconclude : ∀ {outcome : AcceptanceOutcome} {answer : Except RequestError RequestAcceptance},
      (∀ acceptance, answer = .ok acceptance → acceptance.record.request = submitted) →
        (PostgresRequestRepository.conclude submitted fingerprint outcome answer).run.Ends
          fun answer => ∀ acceptance, answer = .ok acceptance →
            acceptance.record.request = submitted := fun {_ _} h =>
    Ends.run_bind_any herr fun _ => Ends.run_bind_any herr fun _ => h
  refine Ends.transaction (Ends.run_bind_any herr fun inserted => ?_)
  split
  · refine Ends.ensure_bind (fun e _ => herr e) fun stored hstored => hconclude ?_
    rintro _ ⟨⟩
    exact (Request.row_injective (acceptedRequestFromRow_eq_ok.mp hstored)).1.symm
  refine Ends.run_bind_any herr fun row => ?_
  refine Ends.ensure_bind (fun e _ => herr e) fun row _ => ?_
  refine Ends.ensure_bind (fun e _ => herr e) fun stored _ => ?_
  split
  · exact hconclude (by simp)
  · rename_i hsame
    rw [not_or, not_not] at hsame
    refine hconclude ?_
    rintro _ ⟨⟩
    exact hsame.1

section

variable {W : Write → Prop} {submitted : Request}

/-- Routes are written to the subscriptions that have been found. -/
theorem lawful_materializeEach {routeIds : ℕ → RouteId} {sourceService : ActorId}
    {requestId : RequestId} {now : ℤ} {n : ℕ} {subscriptions : List Subscription}
    (hroute : ∀ s ∈ subscriptions, ∀ row : RouteRow, row.sourceServiceId = sourceService →
      row.requestId = requestId → row.subscriptionId = s.id →
        row.destinationServiceId = s.serviceId → W (.requestRoutes row)) :
    Lawful W (SubscriptionRouter.materializeEach routeIds sourceService requestId now n
      subscriptions).run := by
  induction subscriptions generalizing n with
  | nil => exact Obeys.run_pure
  | cons subscription rest ih =>
    obtain ⟨hfirst, hrest⟩ := List.forall_mem_cons.mp hroute
    refine Obeys.run_bind (RouteService.lawful_materialize hfirst) fun route => ?_
    exact Obeys.run_bind (ih hrest) fun routes => Obeys.run_pure

/-- What the router writes are routes of the request. -/
theorem lawful_materializeRoutes {routeIds : ℕ → RouteId} {sourceService : ActorId}
    {requestId : RequestId} {action : ActionName} {now : ℤ}
    (hroute : ∀ row : RouteRow, row.sourceServiceId = sourceService → row.requestId = requestId →
      W (.requestRoutes row)) :
    Lawful W (SubscriptionRouter.materializeRoutes routeIds sourceService requestId action
      now).run := by
  refine Obeys.ensure_bind fun eventType _ => Obeys.run_bind ?_ fun found => ?_
  · exact Obeys.bind PostgresSubscriptionRepository.lawful_findActiveByEventType fun _ => Obeys.done
  · exact lawful_materializeEach fun _ _ row hsource hrequest _ _ => hroute row hsource hrequest

/-- A submission that is authorized is accepted and routed. -/
theorem lawful_acceptSubmission {crates : HttpCrates} {draws : SubmissionDraws}
    (haccept : ∀ fingerprint now, W (.acceptedRequests (submitted.row fingerprint now)))
    (haudit : ∀ fingerprint outcome, W (.acceptanceAudit (submitted.auditRow fingerprint outcome)))
    (hroute : ∀ row : RouteRow, row.sourceServiceId = submitted.sourceService →
      row.requestId = submitted.id → W (.requestRoutes row)) :
    Lawful W (acceptSubmission crates draws submitted) := by
  refine Obeys.bind_of_ends ?_ ends_accept fun answer hanswer => ?_
  · exact PostgresRequestRepository.lawful_accept (haudit _) (haccept _ _)
  cases answer with
  | error e => exact Obeys.done
  | ok acceptance =>
    refine Obeys.bind ?_ fun _ => Obeys.done
    rw [hanswer acceptance rfl]
    exact lawful_materializeRoutes hroute

end

/-- A request that is submitted is one of the caller's, under the identifier of its envelope. -/
theorem key_of_intoRequest {crates : Crates} {dto : SubmitRequestRequest} {submitted : Request}
    {serviceId : ActorId} {envelopeRequestId : RequestId}
    (h : dto.intoRequest crates serviceId envelopeRequestId = .ok submitted) :
    submitted.key = (serviceId, envelopeRequestId) := by
  obtain ⟨scope, -, h⟩ := Postgres.bind_eq_ok.mp h
  obtain ⟨artifact, -, h⟩ := Postgres.bind_eq_ok.mp h
  obtain ⟨permissionPolicy, -, h⟩ := Postgres.bind_eq_ok.mp h
  obtain ⟨hid, hsource, -⟩ := Request.restore_eq_ok.mp (Postgres.mapError_eq_ok.mp h)
  exact Prod.ext hsource hid

/-- What a submission writes is about the caller, and under the identifier of its envelope. -/
theorem lawful_submitRequest {W : Write → Prop} {crates : HttpCrates} {evaluator : PolicyEvaluator}
    {draws : SubmissionDraws} {request : ParsedRequest} {serviceId : ActorId}
    {requestId : RequestId} (hdecision : ∀ row, row.sourceServiceId = serviceId →
      W (.decisions row))
    (haccept : ∀ row, row.key = (serviceId, requestId) → W (.acceptedRequests row))
    (haudit : ∀ row, row.sourceServiceId = serviceId → row.requestId = requestId →
      W (.acceptanceAudit row))
    (hroute : ∀ row : RouteRow, row.sourceServiceId = serviceId → row.requestId = requestId →
      W (.requestRoutes row)) :
    Lawful W (submitRequest crates evaluator draws request serviceId requestId) := by
  unfold submitRequest
  split
  · exact Obeys.done
  split
  · exact Obeys.done
  split
  · exact Obeys.done
  rename_i submitted hsubmitted
  have hkey := key_of_intoRequest hsubmitted
  obtain ⟨hsource, hid⟩ := Prod.ext_iff.mp hkey
  refine Obeys.bind (AuthorityService.lawful_authorize hdecision) fun r => ?_
  cases r with
  | error e => exact Obeys.done
  | ok decision =>
    dsimp only
    split
    · refine lawful_acceptSubmission (fun _ _ => haccept _ hkey)
        (fun _ _ => haudit _ hsource hid) fun row hsource' hid' => ?_
      exact hroute row (hsource'.trans hsource) (hid'.trans hid)
    · exact Obeys.done

/-! ## Lookups -/

section

variable {W : Write → Prop} {serviceId : ActorId}

/-- A lookup of a request writes nothing. -/
theorem lawful_findRequest {crates : HttpCrates} {id : Str} :
    Lawful W (findRequest crates id serviceId) := by
  unfold findRequest
  split
  · exact Obeys.done
  refine Obeys.bind ?_ fun r => ?_
  · exact Obeys.run_bind (Obeys.orFail (Obeys.autocommit Obeys.query)) fun row => Obeys.ensure
  · rcases r with e | _ | record <;> exact Obeys.done

/-- Nor does a lookup by the route. -/
theorem lawful_findRoutedRequest {crates : HttpCrates} {routeId : Str} :
    Lawful W (findRoutedRequest crates routeId serviceId) := by
  unfold findRoutedRequest
  split
  · exact Obeys.done
  refine Obeys.bind (Obeys.run_bind ?_ fun route => ?_) fun r => ?_
  · exact Obeys.run_bind (Obeys.orFail (Obeys.autocommit Obeys.query)) fun row => Obeys.ensure
  · cases route with
    | none => exact Obeys.run_pure
    | some route =>
      refine Obeys.run_ite (fun _ => ?_) fun _ => Obeys.run_pure
      exact Obeys.run_bind (Obeys.orFail (Obeys.autocommit Obeys.query)) fun row => Obeys.ensure
  · rcases r with e | _ | record <;> exact Obeys.done

/-- Nor does a list of subscriptions. -/
theorem lawful_listSubscriptions {crates : ServerCrates} {path : Str} :
    Lawful W (listSubscriptions crates path serviceId) := by
  refine Obeys.bind ?_ fun r => ?_
  · split <;> exact PostgresSubscriptionRepository.lawful_list
  · cases r <;> exact Obeys.done

/-- Nor does a list of routes, which asks for the routes and for the claims on them. -/
theorem lawful_listEligibleRoutes {crates : ServerCrates} {now : ℤ} :
    Lawful W (listEligibleRoutes crates serviceId now) := by
  refine Obeys.bind (Obeys.run_bind ?_ fun routes => ?_) fun r => ?_
  · exact PostgresRouteRepository.lawful_listForDestination
  · refine Obeys.run_bind (Obeys.bind ?_ fun _ => Obeys.done) fun active => ?_
    · exact WorkClaimService.lawful_activeRouteIds
    refine Obeys.run_bind (Obeys.bind ?_ fun _ => Obeys.done) fun completed => Obeys.run_pure
    exact WorkClaimService.lawful_completedRouteIds
  · cases r <;> exact Obeys.done

end

/-! ## The gate -/

/-- The gate writes its reservation. -/
theorem lawful_admitService {W : Write → Prop} {crates : KeyCrates} {signed : SignedServiceRequest}
    {now : ℤ} (hnonce : ∀ row, W (.serviceRequestNonces row))
    (hid : ∀ row, W (.serviceRequestIds row)) (haudit : ∀ row, W (.replayAudit row)) :
    Lawful W (admitService crates signed now).run := by
  have hverify : Lawful W (verifySignature crates signed now) := by
    unfold verifySignature
    split
    · exact Obeys.done
    · exact Obeys.bind InstanceRegistryService.lawful_findEligible fun r => Obeys.done
  refine Obeys.run_bind (Obeys.run_adapt hverify) fun verified => ?_
  refine Obeys.run_bind (Obeys.run_adapt (Obeys.ensure_bind fun reservation _ => ?_)) fun _ => ?_
  · exact PostgresReplayProtectionRepository.lawful_reserve haudit (hnonce _) (hid _)
  -- The admission is read, and is not written.
  refine Obeys.run_bind (Obeys.run_adapt (Obeys.run_bind ?_ fun found => ?_)) fun _ =>
    Obeys.run_pure
  · exact Obeys.run_bind (Obeys.orFail (Obeys.autocommit Obeys.query)) fun row => Obeys.ensure
  · cases found with
    | none => exact Obeys.run_throw
    | some admission => exact Obeys.run_ite (fun _ => Obeys.run_pure) fun _ => Obeys.run_throw

/-! ## Enrollment -/

section

variable {W : Write → Prop} {crates : ServerCrates} {draws : ConnectionDraws}
  {request : ParsedRequest} (hchallenges : ∀ w, W (.enrollmentChallenges w))

include hchallenges

/-- The first request of an enrollment writes a challenge. -/
theorem lawful_dispatchChallenge : Lawful W (dispatchChallenge crates draws request) := by
  unfold dispatchChallenge
  split
  · exact Obeys.done
  split
  · exact Obeys.done
  split
  · exact Obeys.done
  refine Obeys.bind (EnrollmentService.lawful_issueChallengeForWorkload hchallenges) fun r => ?_
  rcases r with e | ⟨serviceId, challenge⟩
  · exact Obeys.done
  · dsimp only
    split <;> exact Obeys.done

/-- The second one consumes it and writes the instance. -/
theorem lawful_dispatchEnrollment {app : Application}
    (hinstances : ∀ row, W (.serviceInstances (.insert row)))
    (hkeys : ∀ row, W (.serviceInstanceKeys (.insert row)))
    (haudit : ∀ row, W (.registryAudit row)) :
    Lawful W (dispatchEnrollment crates app draws request) := by
  unfold dispatchEnrollment
  split
  · exact Obeys.done
  split
  · exact Obeys.done
  split
  · exact Obeys.done
  refine Obeys.bind ?_ fun r => ?_
  · exact EnrollmentService.lawful_authenticateAndRegister hchallenges hinstances hkeys haudit
  · cases r <;> exact Obeys.done

end

/-! ## Answers -/

/-- The status of the response is one of success. -/
def Succeeds (response : Response) : Prop := response.status.toList.head? = some '2'

/-- An error's response is no success. -/
theorem not_succeeds_errorResponse {crates : HttpCrates} {status : String}
    {e : GovernedErrorResponse} (h : status.toList.head? ≠ some '2') :
    ¬ Succeeds (errorResponse crates status e) := by
  unfold Succeeds errorResponse jsonResponse
  split
  · exact h
  · decide

/-- No error of a request is answered with success. -/
theorem not_succeeds_requestError {crates : HttpCrates} (e : RequestError) :
    ¬ Succeeds (requestErrorResponse crates e) := by
  cases e <;> exact not_succeeds_errorResponse (by decide)

/-- No error of a subscription is. -/
theorem not_succeeds_subscriptionError {crates : HttpCrates} (e : SubscriptionError) :
    ¬ Succeeds (subscriptionErrorResponse crates e) := by
  cases e <;> exact not_succeeds_errorResponse (by decide)

/-- No error of a claim is. -/
theorem not_succeeds_workClaimError {crates : HttpCrates} (e : WorkClaimError) :
    ¬ Succeeds (workClaimErrorResponse crates e) := by
  cases e <;> exact not_succeeds_errorResponse (by decide)

/-- A body that is refused is not answered with success. -/
theorem not_succeeds_parseFencedAction {crates : ClaimActionCrates} {claimId : Str}
    {request : ParsedRequest} {response : Response}
    (h : parseFencedAction crates claimId request = .error response) : ¬ Succeeds response := by
  unfold parseFencedAction at h
  split at h
  · exact Except.error.inj h ▸ not_succeeds_errorResponse (by decide)
  split at h
  · exact Except.error.inj h ▸ not_succeeds_errorResponse (by decide)
  split at h
  · exact Except.error.inj h ▸ not_succeeds_errorResponse (by decide)
  · cases h

/-! ## Claims, by what they find -/

/-- What a handler of claims commits. A claim of a route is the worker's own, after what has made
way for it. Whoever asks for another change, it is made to the claim that the path names, while this
is current under the token of the body. -/
inductive CommitsClaim (crates : ClaimActionCrates) (draw : ClaimId) (now : ℤ)
    (request : ParsedRequest) (v : VerifiedServiceRequest) (d : Db) :
    GovernedCall → List Write → Prop where
  | claims {routeId : Str} {uuid : Uuid} {leaseExpiresAt : ℤ} {ws : List Write} {new : WorkClaimRow}
      (hid : crates.parseUuid routeId = some uuid)
      (hlease : (crates.claimRequest request.body).bind
        (·.leaseExpiresAt now) = some leaseExpiresAt)
      (hnew : new = PostgresWorkClaimRepository.mintedRow draw ⟨uuid⟩ v.serviceId
        v.instanceId leaseExpiresAt now new.fencingToken)
      (hnow : 0 ≤ now) (hmints : Mints d ws new) :
      CommitsClaim crates draw now request v d (.claimRoute routeId)
        (ws ++ [.workClaims (.insert new)])
  | renews {claimId : Str} {uuid : Uuid} {dto : RenewRequest} {leaseExpiresAt : ℤ}
      {old : WorkClaimRow} (hid : crates.parseUuid claimId = some uuid)
      (hdto : crates.renewRequest request.body = some dto)
      (hlease : dto.leaseExpiresAt now = some leaseExpiresAt)
      (hchanges : Changes d ⟨uuid⟩ dto.fencingToken now old { old with leaseExpiresAt }) :
      CommitsClaim crates draw now request v d (.renewClaimRoute claimId)
        [.workClaims (.update { old with leaseExpiresAt })]
  | releases {claimId : Str} {uuid : Uuid} {dto : FencedActionRequest} {old : WorkClaimRow}
      (hid : crates.parseUuid claimId = some uuid)
      (hdto : crates.fencedActionRequest request.body = some dto)
      (hchanges : Changes d ⟨uuid⟩ dto.fencingToken now old { old with status := .released }) :
      CommitsClaim crates draw now request v d (.releaseClaimRoute claimId)
        [.workClaims (.update { old with status := .released })]
  | completes {claimId : Str} {uuid : Uuid} {dto : FencedActionRequest} {old : WorkClaimRow}
      (hid : crates.parseUuid claimId = some uuid)
      (hdto : crates.fencedActionRequest request.body = some dto)
      (hchanges : Changes d ⟨uuid⟩ dto.fencingToken now old { old with status := .completed }) :
      CommitsClaim crates draw now request v d (.completeClaimRoute claimId)
        [.workClaims (.update { old with status := .completed })]

/-- What makes way for a claim is a claim. -/
theorem tables_of_retires {routeId : RouteId} {now : ℤ} {d : Db} {token : ℤ} {ws : List Write}
    (h : Retires routeId now d token ws) : ∀ w ∈ ws, w.table = .workClaims := by
  cases h <;> simp [Write.table]

/-- Nothing else is written with a change of a claim. -/
theorem CommitsClaim.tables {crates : ClaimActionCrates} {draw : ClaimId} {now : ℤ}
    {request : ParsedRequest} {v : VerifiedServiceRequest} {d : Db} {call : GovernedCall}
    {ws : List Write} (h : CommitsClaim crates draw now request v d call ws) :
    ∀ w ∈ ws, w.table = .workClaims := by
  cases h with
  | claims _ _ _ _ hmints =>
    refine fun w hw => (List.mem_append.mp hw).elim (tables_of_retires hmints.retires w)
      fun hw => ?_
    rw [List.mem_singleton.mp hw]
    rfl
  | renews | releases | completes => simp [Write.table]

/-- The handlers of claims, each for the call that it is for. -/
inductive ClaimHandler (crates : ClaimActionCrates) (draw : ClaimId) (now : ℤ)
    (request : ParsedRequest) (v : VerifiedServiceRequest) : GovernedCall →
      Sql Response → Prop where
  | claimRoute {routeId : Str} :
      ClaimHandler crates draw now request v (.claimRoute routeId)
        (claimRoute crates.toHttpCrates draw now request v.serviceId v.instanceId routeId)
  | renewClaimRoute {claimId : Str} :
      ClaimHandler crates draw now request v (.renewClaimRoute claimId)
        (renewClaimRoute crates now request claimId)
  | releaseClaimRoute {claimId : Str} :
      ClaimHandler crates draw now request v (.releaseClaimRoute claimId)
        (releaseClaimRoute crates now request claimId)
  | completeClaimRoute {claimId : Str} :
      ClaimHandler crates draw now request v (.completeClaimRoute claimId)
        (completeClaimRoute crates now request claimId)

/-- They write claims. -/
theorem ClaimHandler.lawful {crates : ClaimActionCrates} {draw : ClaimId} {now : ℤ}
    {request : ParsedRequest} {v : VerifiedServiceRequest} {call : GovernedCall} {p : Sql Response}
    {W : Write → Prop} (hp : ClaimHandler crates draw now request v call p)
    (hclaims : ∀ w, W (.workClaims w)) : Lawful W p := by
  have hupdate : ∀ row, W (.workClaims (.update row)) := fun row => hclaims (.update row)
  cases hp with
  | claimRoute => exact lawful_claimRoute hupdate fun row _ _ => hclaims (.insert row)
  | renewClaimRoute => exact lawful_renewClaimRoute hupdate
  | releaseClaimRoute => exact lawful_releaseClaimRoute hupdate
  | completeClaimRoute => exact lawful_completeClaimRoute hupdate

section

variable {Op α : Type} {program : Op → Sql α} {C : Contract (kernelSystem program)} {op : Op}
  {crates : ClaimActionCrates} {draw : ClaimId} {now : ℤ} {request : ParsedRequest}
  {v : VerifiedServiceRequest} {Q : C.Post Response}
  (hquiet : ∀ d, C.guar op d [] none)
  (hpk : ∀ d, C.Good d → (d.workClaims.map WorkClaimRow.claimId).Nodup)
  (hrefused : ∀ d response, ¬ Succeeds response → Q response d [] [] [])

include hquiet hpk hrefused

/-- The rule of what is answered for a claim that is changed under its lock. -/
theorem wp_changeClaim {claimId : ClaimId} {fencingToken : ℤ} {sql : String}
    {change : WorkClaimRow → WorkClaimRow} (hok : ∀ d old response, C.Good d →
      Changes d claimId fencingToken now old (change old) →
        Q response d [.workClaims (.update (change old))] [] []) {e : Db} :
    C.wp op (claimActionResponse crates (PostgresWorkClaimRepository.changeLocked claimId
      fencingToken now fun id => PostgresWorkClaimRepository.updateClaim sql id change))
      Q e [] [] [] := by
  refine Contract.wp_bind.mpr (PostgresWorkClaimRepository.wp_changeLocked hquiet hpk
    (fun d er _ => hrefused d _ (not_succeeds_workClaimError er))
    fun d old c hg hrow hchanges => ?_)
  rw [hrow] at hchanges ⊢
  exact hok d old _ hg hchanges

/-- The rule of the handlers of claims. -/
theorem ClaimHandler.wp {call : GovernedCall} {p : Sql Response} {e : Db}
    (hp : ClaimHandler crates draw now request v call p)
    (hok : ∀ d ws response, C.Good d →
      CommitsClaim crates draw now request v d call ws →
        Q response d ws [] []) : C.wp op p Q e [] [] [] := by
  -- What cannot be read is refused. What can be read comes to the repository, whose rule says what
  -- it has found.
  have hinvalid : ∀ {status}, status.toList.head? ≠ some '2' →
      Q (errorResponse crates.toHttpCrates status .invalidWorkClaimRequest) e [] [] [] :=
    fun hstatus => hrefused e _ (not_succeeds_errorResponse hstatus)
  cases hp with
  | claimRoute =>
    unfold InfernalLaw.claimRoute
    split
    · exact hinvalid (by decide)
    rename_i uuid hid
    split
    · exact hinvalid (by decide)
    split
    · exact hinvalid (by decide)
    rename_i leaseExpiresAt hlease
    refine Contract.wp_bind.mpr ?_
    unfold WorkClaimService.claim
    split
    · exact hrefused e _ (not_succeeds_workClaimError _)
    rename_i hnow
    refine PostgresWorkClaimRepository.wp_claim hquiet hpk (fun d er _ => ?_) ?_
    · exact hrefused d _ (not_succeeds_workClaimError er)
    · exact fun d ws c hg hrow hmints =>
        hok d _ _ hg (.claims hid hlease hrow (by omega) hmints)
  | renewClaimRoute =>
    unfold InfernalLaw.renewClaimRoute
    split
    · exact hinvalid (by decide)
    rename_i uuid hid
    split
    · exact hinvalid (by decide)
    split
    · exact hinvalid (by decide)
    rename_i dto hdto
    split
    · exact hinvalid (by decide)
    rename_i leaseExpiresAt hlease
    unfold WorkClaimService.renew
    split
    · exact hrefused e _ (not_succeeds_workClaimError _)
    · exact wp_changeClaim hquiet hpk hrefused fun d old response hg hchanges =>
        hok d _ response hg (.renews hid hdto hlease hchanges)
  | releaseClaimRoute =>
    unfold InfernalLaw.releaseClaimRoute
    split
    · rename_i response hparse
      exact hrefused e _ (not_succeeds_parseFencedAction hparse)
    rename_i id dto hparse
    obtain ⟨-, hid, hdto⟩ := parseFencedAction_eq_ok hparse
    unfold WorkClaimService.release
    split
    · exact hrefused e _ (not_succeeds_workClaimError _)
    · exact wp_changeClaim hquiet hpk hrefused fun d old response hg hchanges =>
        hok d _ response hg (.releases hid hdto hchanges)
  | completeClaimRoute =>
    unfold InfernalLaw.completeClaimRoute
    split
    · rename_i response hparse
      exact hrefused e _ (not_succeeds_parseFencedAction hparse)
    rename_i id dto hparse
    obtain ⟨-, hid, hdto⟩ := parseFencedAction_eq_ok hparse
    unfold WorkClaimService.complete
    split
    · exact hrefused e _ (not_succeeds_workClaimError _)
    · exact wp_changeClaim hquiet hpk hrefused fun d old response hg hchanges =>
        hok d _ response hg (.completes hid hdto hchanges)

end

end InfernalLaw.Handlers
