import InfernalLaw.Runs.OwnRows
import InfernalLaw.Runs.Retries
import InfernalLaw.Runs.Subscriptions

/-!
# Ownership hiding

Routes, claims and subscriptions change concurrently, and with them anything else. Two states that
such runs have reached, and that have the same rows of a caller's service, may differ in which
subscriptions, routes and accepted requests the other services have. The caller is answered the same
in both, and what it asks for changes no row of another service.
-/

namespace InfernalLaw.Ownership

open Eligibility (LeadsTo)
open Postgres (AgreeOn Contract Proc State Store)

/-! ## The operations -/

/-- Another component's transaction leaves the subscriptions and their audit alone. -/
def leavesSubscriptions : Eligibility.Op → Prop
  | .claims (.other writes _) _ => ∀ w ∈ writes, w.table ∉ Subscriptions.tables
  | _ => True

/-- What runs. -/
inductive Op where
  | routes (op : Eligibility.Op) (h : leavesSubscriptions op)
  | create (id : SubscriptionId) (serviceId : ActorId) (eventType : EventType)
      (deliveryMode : DeliveryMode) (now : ℤ)
  | disable (serviceId : ActorId) (subscriptionId : SubscriptionId) (now : ℤ)

/-- What the operations do; their answers do not matter here. -/
def program : Op → Sql Unit
  | .routes op _ => Eligibility.program op
  | .create id serviceId eventType deliveryMode now =>
    (SubscriptionService.create id serviceId eventType deliveryMode now).bind fun _ => .done ()
  | .disable serviceId subscriptionId now =>
    (SubscriptionService.disable serviceId subscriptionId now).bind fun _ => .done ()

/-- The sessions of the kernels that share the database. -/
abbrev system : Postgres.System Db Write Key Op Unit := kernelSystem program

/-- What holds of the database between events. -/
structure Inv (d : Db) : Prop where
  routes : Eligibility.Inv d
  subscriptions : Subscriptions.Inv d

/-- What an event commits: something about claims and routes, or about a subscription. -/
inductive Commits (d : Db) (ws : List Write) : Prop where
  | routes (h : Eligibility.Commits d ws) (hws : ∀ w ∈ ws, w.table ∉ Subscriptions.tables)
  | subscription {op : Subscriptions.Op} {a : Subscriptions.Result}
      (h : Subscriptions.Commits op d a ws)

/-- Of the claims and routes, an event about a subscription changes nothing. -/
theorem Commits.eligibility {d : Db} {ws : List Write} (h : Commits d ws) :
    Eligibility.Commits d ws := by
  cases h with
  | routes h _ => exact h
  | subscription hs =>
    exact .other (by
      cases hs <;> simp [Subscription.createdWrites, Subscription.disabledWrites, Write.table])

/-- Every event keeps the invariant. -/
theorem Inv.commits {d : Db} {ws : List Write} (h : Inv d) (hc : Commits d ws) :
    Inv (store.view d ws) := by
  refine ⟨h.routes.commits hc.eligibility, ?_⟩
  cases hc with
  | routes _ hws => exact h.subscriptions.other hws
  | subscription hs =>
    cases hs with
    | create _ hs => exact h.subscriptions.create hs
    | disable _ hs => exact h.subscriptions.disable hs

/-! ## The contract -/

/-- An event commits what it may commit. -/
def contract : Contract system where
  inv d _ := Inv d
  guar _ d ws _ := Commits d ws

/-- Every operation keeps to the contract. -/
theorem contract_sound : contract.Sound where
  stutter _ _ := .routes (.other (by simp)) (by simp)
  preserves _ _ _ _ _ _ hinv hguar := hinv.commits hguar
  program op e hgood := by
    -- Each operation is one of the routes, which write to no subscription, or one on subscriptions.
    have hquiet : ∀ d, Commits d [] := fun _ => .routes (.other (by simp)) (by simp)
    cases op with
    | routes op hop =>
      cases op with
      | claims op hclaims =>
        refine Contract.wp_bind.mpr (WorkClaims.wp_program hquiet ?_ op ?_ ?_ ?_)
        · exact fun d ⟨_, hinv⟩ => hinv.routes.claims.nodup_id
        · exact fun _ _ _ => hquiet _
        · intro d c ws _ hs
          refine .routes (.claim hs) fun w hw => ?_
          rcases hs.writes with rfl | ⟨old, -, -, -, new, -, rfl | rfl⟩ <;>
            simp only [List.mem_cons, List.not_mem_nil, or_false] at hw
          · rw [hw]
            simp [Write.table, Subscriptions.tables]
          · rw [hw]
            simp [Write.table, Subscriptions.tables]
          · rcases hw with rfl | rfl <;> simp [Write.table, Subscriptions.tables]
        · rintro writes hwrites rfl d _
          refine ⟨hquiet _, .routes (.other fun w hw => ⟨hwrites w hw, hclaims w hw⟩) hop⟩
      | materialize =>
        refine Contract.wp_bind.mpr (Contract.wp_ensure_bind.mpr ?_)
        split
        · refine PostgresRouteRepository.wp_materialize hquiet ?_ ?_ ?_ (hquiet _)
          · exact fun _ _ _ _ _ => hquiet _
          · exact fun d _ henters => .routes (.route henters)
              (by simp [Write.table, Subscriptions.tables])
          · exact fun _ _ _ _ _ => hquiet _
        · exact hquiet _
    | create id serviceId eventType deliveryMode now =>
      refine Contract.wp_bind.mpr (Contract.wp_ensure_bind.mpr ?_)
      split
      · rename_i s hs
        have hactive : s.disabledAt = none := (Subscription.restore_eq_ok.mp hs).2.2.2.2.2
        refine Contract.wp_run_bind.mpr ?_
        refine PostgresSubscriptionRepository.wp_insert hquiet hactive (fun _ _ _ => hquiet _) ?_
        exact fun d _ hsub => .subscription (.create hs hsub)
      · exact hquiet _
    | disable serviceId subscriptionId now =>
      refine Contract.wp_bind.mpr ?_
      unfold SubscriptionService.disable
      split
      · exact hquiet _
      · refine PostgresSubscriptionRepository.wp_disable hquiet ?_ (fun _ _ _ => hquiet _) ?_ hgood
        · exact fun d ⟨_, hinv⟩ => hinv.subscriptions.stored
        · exact fun d old s _ hold hsub => .subscription (.disable hold hsub)

/-- The tables are empty. -/
def Fresh (d : Db) : Prop :=
  d.workClaims = [] ∧ d.requestRoutes = [] ∧ d.subscriptions = [] ∧ d.subscriptionAudit = []

/-- The invariant holds in every run that begins without claims, routes and subscriptions. -/
theorem inv {d₀ : Db} (h₀ : Fresh d₀) {s : State Db Write Key Op Unit} (hs : system.Reaches d₀ s) :
    Inv s.db := by
  obtain ⟨hclaims, hroutes, hsubscriptions, haudit⟩ := h₀
  refine (contract_sound.reaches (fun _ _ _ => ?_) (d := d₀) ⟨?_, ?_⟩ hs).inv
  · exact fun _ _ _ _ _ _ _ _ => trivial
  · exact Eligibility.inv hclaims hroutes .init
  · constructor <;> simp [hsubscriptions, haudit]

/-! ## The calls -/

/-- A call of one of the handlers, with what it draws. -/
inductive Call where
  | disableSubscription (evaluator : PolicyEvaluator) (decisionId : DecisionId) (decidedAt now : ℤ)
      (id : Str)
  | claimRoute (claimId : ClaimId) (now : ℤ) (request : ParsedRequest) (workerInstance : InstanceId)
      (routeId : Str)
  | findRoutedRequest (routeId : Str)
  | findRequest (id : Str)

namespace Call

/-- What the call does for the caller. -/
def program (crates : HttpCrates) (caller : ActorId) : Call → Sql Response
  | .disableSubscription evaluator decisionId decidedAt now id =>
    InfernalLaw.disableSubscription crates evaluator decisionId decidedAt now id caller
  | .claimRoute claimId now request workerInstance routeId =>
    InfernalLaw.claimRoute crates claimId now request caller workerInstance routeId
  | .findRoutedRequest routeId => InfernalLaw.findRoutedRequest crates routeId caller
  | .findRequest id => InfernalLaw.findRequest crates id caller

/-- The verdict by which the call is authorized, if it is authorized at all: no verdict can be had
when the evaluator or the database fails. -/
def verdict (caller : ActorId) (d : Db) : Call → Option Bool
  | .disableSubscription evaluator decisionId decidedAt _ _ =>
    ((AuthorityService.authorize evaluator decisionId (.forRequestAcceptance caller
      subscriptionDisable Scope.wildcard noArtifactSchemaVersions) decidedAt).exec store d
        []).result.toOption.map AuthorityDecision.isAllowed
  | _ => none

end Call

section Calls

variable {crates : HttpCrates} {caller : ActorId} {d d' : Db}

/-- `authorize` adds decisions, and nothing else. -/
theorem exec_authorize_spares (evaluator : PolicyEvaluator) (decisionId : DecisionId)
    (facts : PolicyFacts) (now : ℤ) (d : Db) : ∃ ws r, (∀ w ∈ ws, ∃ row, w = .decisions row) ∧
      (AuthorityService.authorize evaluator decisionId facts now).exec store d [] =
        ⟨store.view d ws, [], r⟩ := by
  rw [Requests.exec_authorize]
  cases Authority.matched d facts now with
  | error e => exact ⟨[], _, by simp, rfl⟩
  | ok grants =>
    dsimp only
    split
    · exact ⟨[.decisions _], _, by simp, rfl⟩
    · exact ⟨[], _, by simp, rfl⟩

/-- What becomes of the call after its decision. -/
theorem exec_disableSubscription (caller : ActorId) (evaluator : PolicyEvaluator)
    (decisionId : DecisionId) (decidedAt now : ℤ) {uuid : Uuid} {id : Str}
    (hid : crates.parseUuid id = some uuid) (d : Db) :
    ∃ ws, (∀ w ∈ ws, ∃ row, w = .decisions row) ∧
      (disableSubscription crates evaluator decisionId decidedAt now id caller).exec store d [] =
        match Call.verdict caller d
        (.disableSubscription evaluator decisionId decidedAt now id) with
        | none => ⟨store.view d ws, [],
            errorResponse crates "503 Service Unavailable" .internalError⟩
        | some false => ⟨store.view d ws, [],
            errorResponse crates "403 Forbidden" .subscriptionNotAuthorized⟩
        | some true =>
          let o := (SubscriptionService.disable caller ⟨uuid⟩ now).exec store (store.view d ws) []
          ⟨o.db, o.pending, match o.result with
            | .ok subscription => jsonResponse crates "200 OK" (subscription.toObject crates)
            | .error e => subscriptionErrorResponse crates e⟩ := by
  -- The authorization writes at most its decision, and the verdict is the one of the call.
  obtain ⟨ws, r, hws, hexec⟩ := exec_authorize_spares evaluator decisionId
    (.forRequestAcceptance caller subscriptionDisable Scope.wildcard noArtifactSchemaVersions)
    decidedAt d
  refine ⟨ws, hws, ?_⟩
  unfold disableSubscription checkAuthorized Call.verdict
  rw [hid]
  dsimp only
  rw [Proc.exec_bind, Proc.exec_bind, hexec]
  cases r with
  | error e => rfl
  | ok decision =>
    dsimp only [Except.toOption, Option.map_some]
    cases decision.isAllowed with
    | false => rfl
    | true =>
      dsimp only [if_true, Proc.exec_done]
      rw [if_pos rfl, Proc.exec_done]
      dsimp only
      rw [Proc.exec_bind]
      cases ((SubscriptionService.disable caller ⟨uuid⟩ now).exec store (store.view d ws)
        []).result <;> rfl

/-- Decisions are none of the subscriptions' business. -/
theorem view_decisions {ws : List Write} (hws : ∀ w ∈ ws, ∃ row, w = .decisions row) :
    (store.view d ws).subscriptions = d.subscriptions := by
  refine subscriptions_versioned.view_other fun w hw rw hrw => ?_
  obtain ⟨row, rfl⟩ := hws w hw
  cases hrw

/-- What `disable` writes is the caller's business. -/
theorem exec_disable_owned {d₀ : Db} (subscriptionId : SubscriptionId) (now : ℤ)
    (hsubscriptions : d.subscriptions = d₀.subscriptions)
    (hsame : ∀ r ∈ d₀.subscriptions, ∀ r' ∈ d₀.subscriptions, r.id = r'.id →
      r'.serviceId = caller → r.serviceId = caller) :
    ∃ ws r, (∀ w ∈ ws, Owned caller d₀ w) ∧
      (SubscriptionService.disable caller subscriptionId now).exec store d [] =
        ⟨store.view d ws, [], r⟩ := by
  unfold SubscriptionService.disable
  by_cases hneg : now < 0
  · rw [if_pos hneg]
    exact ⟨[], _, by simp, rfl⟩
  rw [if_neg hneg]
  cases hold : d.subscriptions.find? fun r =>
      PostgresSubscriptionRepository.Disables subscriptionId caller now r with
  | none => exact ⟨[], _, by simp, exec_disable_none hold⟩
  | some old =>
    obtain ⟨ws, r, hws, hexec⟩ := exec_disable_found caller subscriptionId now old
    refine ⟨ws, r, fun w hw => ?_, hexec d hold⟩
    have hmem : old ∈ d₀.subscriptions := hsubscriptions ▸ List.mem_of_find?_eq_some hold
    have hfound := List.find?_some hold
    rw [decide_eq_true_eq] at hfound
    have hown : old.serviceId = caller := hfound.2.1
    rcases hws w hw with rfl | ⟨row, rfl⟩
    · exact .subscription _ hown fun r hr hid => hsame r hr old hmem hid hown
    · exact .audit row

/-- The caller is answered the same when it disables a subscription, with the same verdict. -/
theorem disableSubscription_hides (h : Agree caller d d') {evaluator : PolicyEvaluator}
    {decisionId : DecisionId} {decidedAt now : ℤ} {id : Str}
    (hverdict : Call.verdict caller d (.disableSubscription evaluator decisionId decidedAt now id) =
      Call.verdict caller d' (.disableSubscription evaluator decisionId decidedAt now id)) :
    ((disableSubscription crates evaluator decisionId decidedAt now id caller).exec store d
      []).result =
      ((disableSubscription crates evaluator decisionId decidedAt now id caller).exec store d'
        []).result := by
  cases hid : crates.parseUuid id with
  | none =>
    unfold disableSubscription
    rw [hid]
    rfl
  | some uuid =>
    obtain ⟨ws, hws, hexec⟩ := exec_disableSubscription caller evaluator decisionId decidedAt now
      hid d
    obtain ⟨ws', hws', hexec'⟩ := exec_disableSubscription caller evaluator decisionId decidedAt
      now hid d'
    rw [hexec, hexec', ← hverdict]
    cases Call.verdict caller d (.disableSubscription evaluator decisionId decidedAt now id) with
    | none => rfl
    | some allowed =>
      cases allowed with
      | false => rfl
      | true =>
        -- The decisions that are written first leave the caller's subscriptions the same in both
        -- databases.
        have hagree : AgreeOn (fun r => decide (r.serviceId = caller)) SubscriptionRow.id
            (store.view d ws).subscriptions (store.view d' ws').subscriptions := by
          rw [view_decisions hws, view_decisions hws']
          exact h.subscriptions
        have hsame : ((SubscriptionService.disable caller ⟨uuid⟩ now).exec store (store.view d ws)
            []).result = ((SubscriptionService.disable caller ⟨uuid⟩ now).exec store
              (store.view d' ws') []).result := by
          unfold SubscriptionService.disable
          split
          · rfl
          · exact disable_hides hagree
        dsimp only
        rw [hsame]

/-- Disabling a subscription spares the other services. -/
theorem disableSubscription_spares (hsame : ∀ r ∈ d.subscriptions, ∀ r' ∈ d.subscriptions,
      r.id = r'.id → r'.serviceId = caller → r.serviceId = caller) {evaluator : PolicyEvaluator}
    {decisionId : DecisionId} {decidedAt now : ℤ} {id : Str} :
    Spares caller d ((disableSubscription crates evaluator decisionId decidedAt now id caller).exec
      store d []).db := by
  cases hid : crates.parseUuid id with
  | none =>
    unfold disableSubscription
    rw [hid]
    exact .refl caller d
  | some uuid =>
    obtain ⟨ws, hws, hexec⟩ := exec_disableSubscription caller evaluator decisionId decidedAt now
      hid d
    have hdecided : Spares caller d (store.view d ws) := by
      refine (Spares.refl caller d).view fun w hw => ?_
      obtain ⟨row, rfl⟩ := hws w hw
      exact .decision row
    rw [hexec]
    cases Call.verdict caller d (.disableSubscription evaluator decisionId decidedAt now id) with
    | none => exact hdecided
    | some allowed =>
      cases allowed with
      | false => exact hdecided
      | true =>
        obtain ⟨ws', r, hws', hdisable⟩ := exec_disable_owned ⟨uuid⟩ now (view_decisions hws) hsame
        dsimp only
        rw [hdisable]
        exact hdecided.view hws'

/-- The answer to a claim is a function of what the repository answers, or of the call alone. -/
theorem claimRoute_cases (crates : HttpCrates) (caller : ActorId) (claimId : ClaimId) (now : ℤ)
    (request : ParsedRequest) (workerInstance : InstanceId) (id : Str) :
    (∃ response, claimRoute crates claimId now request caller workerInstance id = .done response) ∨
      ∃ routeId leaseExpiresAt, ∃ answer : Except WorkClaimError WorkClaim → Response,
        claimRoute crates claimId now request caller workerInstance id =
          (PostgresWorkClaimRepository.claim claimId routeId caller workerInstance leaseExpiresAt
            now).bind fun r => .done (answer r) := by
  unfold claimRoute
  split
  · exact .inl ⟨_, rfl⟩
  split
  · exact .inl ⟨_, rfl⟩
  split
  · exact .inl ⟨_, rfl⟩
  unfold WorkClaimService.claim
  split
  · exact .inl ⟨_, rfl⟩
  · refine .inr ⟨_, _, fun r => r.casesOn (workClaimErrorResponse crates)
      fun claim => jsonResponse crates "201 Created" (claim.toObject crates),
      congrArg _ (funext fun r => ?_)⟩
    cases r <;> rfl

/-- The lookup of a request answers what it finds, and leaves the database as it is. -/
theorem exec_findRequest_response (crates : HttpCrates) (caller : ActorId) (id : Str) :
    ∃ answer : Except RequestError (Option AcceptedRequest) →
    Response, ∀ d : Db, (findRequest crates id caller).exec store d [] =
      ⟨d, [], match crates.parseUuid id with
        | none => errorResponse crates "400 Bad Request" .invalidRequest
        | some uuid => answer ((d.acceptedRequests.find? fun r => r.sourceServiceId = caller ∧
            r.requestId = ⟨uuid⟩).elim (.ok none) fun row =>
            (acceptedRequestFromRow row).map some)⟩ := by
  refine ⟨fun r => r.casesOn (requestErrorResponse crates) fun found =>
    found.elim (errorResponse crates "404 Not Found" .requestNotFound) fun record =>
      jsonResponse crates "200 OK" (record.toObject crates), fun d => ?_⟩
  unfold findRequest
  cases crates.parseUuid id with
  | none => rfl
  | some uuid =>
    dsimp only
    rw [Proc.exec_bind, exec_findRequest]
    dsimp only
    generalize Option.elim _ _ _ = r
    rcases r with e | _ | record <;> rfl

/-- The lookup of a routed request answers what it finds, and leaves the database as it is. -/
theorem exec_findRoutedRequest_response (crates : HttpCrates) (caller : ActorId) (id : Str) :
    ∃ answer : Except RequestError (Option AcceptedRequest) → Response, ∀ d : Db,
      Eligibility.Routes d → (findRoutedRequest crates id caller).exec store d [] =
        ⟨d, [], match crates.parseUuid id with
          | none => errorResponse crates "400 Bad Request" .invalidRouteId
          | some uuid => answer
              ((RoutedRequestQuery.findForDestination caller ⟨uuid⟩).run.exec store d
              []).result⟩ := by
  refine ⟨fun r => r.casesOn (requestErrorResponse crates) fun found =>
    found.elim (errorResponse crates "404 Not Found" .claimNotFound) fun record =>
      jsonResponse crates "200 OK" (record.toObject crates), fun d hd => ?_⟩
  unfold findRoutedRequest
  cases crates.parseUuid id with
  | none => rfl
  | some uuid =>
    dsimp only
    obtain ⟨r, hr⟩ : ∃ r, (RoutedRequestQuery.findForDestination caller ⟨uuid⟩).run.exec store d
        [] = ⟨d, [], r⟩ := ⟨_, exec_findForDestination hd⟩
    rw [Proc.exec_bind, hr]
    rcases r with e | _ | record <;> rfl

end Calls

/-! ## What holds in every run -/

namespace Call

variable {crates : HttpCrates} {caller : ActorId} {d d' : Db}

/-- No call touches a row of another service. -/
theorem spares (h : Inv d) (call : Call) :
    Spares caller d ((call.program crates caller).exec store d []).db := by
  cases call with
  | disableSubscription evaluator decisionId decidedAt now id =>
    refine disableSubscription_spares fun r hr r' hr' hid hown => ?_
    rw [List.inj_on_of_nodup_map h.subscriptions.nodup_id hr hr' hid]
    exact hown
  | claimRoute claimId now request workerInstance id =>
    dsimp only [Call.program]
    rcases claimRoute_cases crates caller claimId now request workerInstance id with
      ⟨response, hcall⟩ | ⟨routeId, leaseExpiresAt, answer, hcall⟩
    · rw [hcall]
      exact .refl caller d
    · rw [hcall, Proc.exec_bind]
      -- A route that is not the caller's is not found, and one that is has claims of the caller's
      -- only.
      cases hfind : (d.requestRoutes.find? fun r => r.routeId = routeId).filter
          fun r => decide (r.destinationServiceId = caller) with
      | none =>
        rw [exec_claim_elsewhere hfind]
        exact .refl caller d
      | some r =>
        obtain ⟨hr, hown⟩ := Option.filter_eq_some_iff.mp hfind
        exact (exec_claim_own rfl rfl rfl h.routes.claims.nodup_id hr hr (of_decide_eq_true hown)
          (of_decide_eq_true hown)).2
  | findRoutedRequest routeId =>
    obtain ⟨answer, hexec⟩ := exec_findRoutedRequest_response crates caller routeId
    dsimp only [Call.program]
    rw [hexec d h.routes.routes]
    exact .refl caller d
  | findRequest id =>
    obtain ⟨answer, hexec⟩ := exec_findRequest_response crates caller id
    dsimp only [Call.program]
    rw [hexec d]
    exact .refl caller d

/-- The caller is answered the same in databases that agree on its rows. -/
theorem hides (h : Inv d) (h' : Inv d') (hagree : Agree caller d d') (call : Call)
    (hverdict : call.verdict caller d = call.verdict caller d') :
    ((call.program crates caller).exec store d []).result =
      ((call.program crates caller).exec store d' []).result := by
  cases call with
  | disableSubscription evaluator decisionId decidedAt now id =>
    exact disableSubscription_hides hagree hverdict
  | claimRoute claimId now request workerInstance id =>
    dsimp only [Call.program]
    rcases claimRoute_cases crates caller claimId now request workerInstance id with
      ⟨response, hcall⟩ | ⟨routeId, leaseExpiresAt, answer, hcall⟩
    · rw [hcall]
      rfl
    · rw [hcall, Proc.exec_bind, Proc.exec_bind]
      -- The caller finds its own route in both databases or in neither.
      have hfind := hagree.routes.filter_find (k := routeId)
      refine congrArg answer ?_
      cases hr : (d.requestRoutes.find? fun r => r.routeId = routeId).filter
          fun r => decide (r.destinationServiceId = caller) with
      | none => rw [exec_claim_elsewhere hr, exec_claim_elsewhere (hfind.symm.trans hr)]
      | some r =>
        obtain ⟨hmem, hown⟩ := Option.filter_eq_some_iff.mp hr
        obtain ⟨hmem', -⟩ := Option.filter_eq_some_iff.mp (hfind.symm.trans hr)
        exact (exec_claim_own hagree.claims hagree.identities hagree.instances
          h.routes.claims.nodup_id hmem hmem' (of_decide_eq_true hown) (of_decide_eq_true hown)).1
  | findRoutedRequest routeId =>
    obtain ⟨answer, hexec⟩ := exec_findRoutedRequest_response crates caller routeId
    dsimp only [Call.program]
    rw [hexec d h.routes.routes, hexec d' h'.routes.routes]
    cases crates.parseUuid routeId with
    | none => rfl
    | some uuid =>
      exact congrArg answer (findForDestination_hides hagree h.routes.routes h'.routes.routes)
  | findRequest id =>
    obtain ⟨answer, hexec⟩ := exec_findRequest_response crates caller id
    dsimp only [Call.program]
    rw [hexec d, hexec d']
    cases crates.parseUuid id with
    | none => rfl
    | some uuid =>
      dsimp only
      rw [find_own_request hagree]

end Call

/-- In any two states that runs have reached, and that differ only in which subscriptions, routes
and accepted requests exist under other services, the caller is answered the same, with the same
clock and the same verdict; and no call changes a row of another service. -/
theorem ownership_hidden {d₀ d₀' : Db} (h₀ : Fresh d₀) (h₀' : Fresh d₀')
    {s s' : State Db Write Key Op Unit} (hs : system.Reaches d₀ s) (hs' : system.Reaches d₀' s')
    (crates : HttpCrates) (caller : ActorId) (call : Call) :
    (Agree caller s.db s'.db → call.verdict caller s.db = call.verdict caller s'.db →
      ((call.program crates caller).exec store s.db []).result =
        ((call.program crates caller).exec store s'.db []).result) ∧
    Spares caller s.db ((call.program crates caller).exec store s.db []).db :=
  ⟨fun hagree => Call.hides (inv h₀ hs) (inv h₀' hs') hagree call, Call.spares (inv h₀ hs) call⟩

/-- Two services, of which the first may disable subscriptions. -/
def twoServices : Db :=
  { Requests.oneSource with
    identityRows := [⟨⟨1⟩, .service, ['a'], .active⟩, ⟨⟨2⟩, .service, ['b'], .active⟩]
    grants := [{ Requests.exampleGrant with action := "subscription.disable".toList }] }

/-- The first service is told the same about a subscription that the second one has, or nobody. -/
theorem ownership_hidden_subscription : ∃ s s', system.Reaches twoServices s ∧
    system.Reaches twoServices s' ∧ s.db.subscriptions = [] ∧
    s'.db.subscriptions.map SubscriptionRow.serviceId = [⟨2⟩] ∧
    ∀ call : Call, call = .disableSubscription Requests.exampleEvaluator ⟨9⟩ 20 20
        (Framing.hyphenated 5) →
      ((call.program Requests.exampleHttpCrates ⟨1⟩).exec store s.db []).result =
        ((call.program Requests.exampleHttpCrates ⟨1⟩).exec store s'.db []).result ∧
      Spares ⟨1⟩ s'.db ((call.program Requests.exampleHttpCrates ⟨1⟩).exec store s'.db []).db := by
  obtain ⟨s', hs', -, hdb', -⟩ := Postgres.System.exec_reaches
    (.init : system.Reaches twoServices { db := twoServices }) rfl
    (.create ⟨5⟩ ⟨2⟩ ⟨"billing.submit".toList, by decide⟩ .inclusive 10)
  have hsubscriptions : s'.db.subscriptions.map SubscriptionRow.serviceId = [⟨2⟩] := by
    rw [hdb']
    decide +kernel
  refine ⟨_, s', .init, hs', rfl, hsubscriptions, ?_⟩
  rintro call rfl
  have hfresh : Fresh twoServices := ⟨rfl, rfl, rfl, rfl⟩
  have hagree : Agree ⟨1⟩ twoServices s'.db := by
    rw [hdb']
    refine ⟨⟨by decide +kernel, ?_⟩, ⟨rfl, ?_⟩, ⟨rfl, ?_⟩, rfl, rfl, rfl⟩
    all_goals exact fun r hr => absurd hr List.not_mem_nil
  refine ⟨(ownership_hidden hfresh hfresh .init hs' Requests.exampleHttpCrates ⟨1⟩ _).1 hagree ?_,
    (ownership_hidden hfresh hfresh hs' hs' Requests.exampleHttpCrates ⟨1⟩ _).2⟩
  rw [hdb']
  decide +kernel

end InfernalLaw.Ownership
