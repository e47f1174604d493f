import InfernalLaw.Runs.Revocation
import InfernalLaw.Runs.RoutedSubmissions

/-!
# Where work comes from

A work claim goes back to a route, the route to a subscription of the worker and to a request that
was accepted, and the request and the subscription to decisions that allow them and to requests that
an instance of their service has signed. What a row goes back to is read at one time and written at
another, in a transaction of its own, so the rows are followed through the databases that the run
has passed.
-/

namespace InfernalLaw

open Handlers
open Postgres (Contract Proc State bind_eq_ok)
open Postgres.Proc (autocommit ensure orFail query)
open Submissions (Recorded)

/-- The rows after some writes were there before, or are written. -/
theorem Db.mem_rows_view {d : Db} {ws : List Write} {r : Row} (h : r ∈ (store.view d ws).rows) :
    r ∈ d.rows ∨ ∃ w ∈ ws, r = w.change.row := by
  refine Postgres.Store.view_of_writes (S := store) (P := fun w => w ∈ ws)
    (I := fun d' : Db => ∀ r ∈ d'.rows, r ∈ d.rows ∨ ∃ w ∈ ws, r = w.change.row)
    (fun d' w hd' hw r hr => ?_) (fun r hr => .inl hr) (fun w hw => hw) r h
  rcases Postgres.Schema.mem_of_mem_act (Db.rows_apply (d := d') ▸ hr) with hr | hr
  · exact hd' r hr
  · exact .inr ⟨w, hw, hr⟩

/-! ## Later versions -/

/-- The later versions of an instance are the same instance of the same service. -/
theorem instance_later {row : ServiceInstanceRow} {r : Row}
    (h : Relation.ReflTransGen schema.moves (.serviceInstances row) r) :
    ∃ row', r = .serviceInstances row' ∧ row'.instanceId = row.instanceId ∧
      row'.serviceId = row.serviceId := by
  induction h with
  | refl => exact ⟨row, rfl, rfl, rfl⟩
  | @tail r r' _ hmoves ih =>
    obtain ⟨row', rfl, hid, hservice⟩ := ih
    cases r' with
    | serviceInstances row'' =>
      obtain ⟨-, ⟨_, rfl⟩ | ⟨_, rfl⟩⟩ := hmoves
      · exact ⟨_, rfl, hid, hservice⟩
      · exact ⟨_, rfl, hid, hservice⟩
    | _ => exact hmoves.elim

/-- The later versions of a key are the same key of the same instance. -/
theorem instanceKey_later {row : ServiceInstanceKeyRow} {r : Row}
    (h : Relation.ReflTransGen schema.moves (.serviceInstanceKeys row) r) :
    ∃ row', r = .serviceInstanceKeys row' ∧ row'.keyId = row.keyId ∧
      row'.instanceId = row.instanceId := by
  induction h with
  | refl => exact ⟨row, rfl, rfl, rfl⟩
  | @tail r r' _ hmoves ih =>
    obtain ⟨row', rfl, hid, hinstance⟩ := ih
    cases r' with
    | serviceInstanceKeys row'' =>
      obtain ⟨-, _, rfl⟩ := hmoves
      exact ⟨_, rfl, hid, hinstance⟩
    | _ => exact hmoves.elim

/-- The later versions of a subscription are the same subscription of the same service. -/
theorem subscription_later {row : SubscriptionRow} {r : Row}
    (h : Relation.ReflTransGen schema.moves (.subscriptions row) r) :
    ∃ row', r = .subscriptions row' ∧ row'.id = row.id ∧ row'.serviceId = row.serviceId ∧
      row'.eventType = row.eventType := by
  induction h with
  | refl => exact ⟨row, rfl, rfl, rfl, rfl⟩
  | @tail r r' _ hmoves ih =>
    obtain ⟨row', rfl, hid, hservice, htype⟩ := ih
    cases r' with
    | subscriptions row'' =>
      have hsame := hmoves.1
      exact ⟨row'', rfl, (congrArg SubscriptionRow.id hsame).trans hid,
        (congrArg SubscriptionRow.serviceId hsame).trans hservice,
        (congrArg SubscriptionRow.eventType hsame).trans htype⟩
    | _ => exact hmoves.elim

namespace Kernel

/-! ## What rows go back to -/

/-- A decision is recorded that allows the action to the service. -/
def AllowsAction (d : Db) (serviceId : ActorId) (action : ActionName) : Prop :=
  ∃ decision ∈ d.decisions, decision.verdict = .allow ∧ decision.sourceServiceId = serviceId ∧
    decision.action = action.text

/-- The action by which a subscription has come to its state. -/
def subscriptionAction (row : SubscriptionRow) : ActionName :=
  if row.disabledAt = none then subscriptionCreate else subscriptionDisable

/-- A request of the service has been reserved, which the instance has sent. -/
def HasSent (d : Db) (serviceId : ActorId) (instanceId : InstanceId) (requestId : Uuid) : Prop :=
  ∃ n ∈ d.serviceRequestNonces, n.serviceId = serviceId ∧ n.instanceId = instanceId ∧
    n.requestId = requestId

/-- The nonce was used by an instance of the service, under a key of the instance. -/
def Registered (d : Db) (n : ServiceRequestNonceRow) : Prop :=
  ∃ i ∈ d.serviceInstances, ∃ k ∈ d.serviceInstanceKeys, i.serviceId = n.serviceId ∧
    i.instanceId = n.instanceId ∧ k.instanceId = i.instanceId ∧ k.keyId = n.keyId

/-- There is a route to the worker that the claim is for, and the worker has sent a request. -/
def Claimable (d : Db) (claim : WorkClaimRow) : Prop :=
  (∃ route ∈ d.requestRoutes, route.routeId = claim.routeId ∧
      route.destinationServiceId = claim.workerServiceId) ∧
    ∃ requestId, HasSent d claim.workerServiceId claim.workerInstanceId requestId

/-- The service of the route has an active subscription to the action. -/
def Subscribed (d : Db) (route : RouteRow) (action : Str) : Prop :=
  ∃ s ∈ d.subscriptions, s.id = route.subscriptionId ∧ s.serviceId = route.destinationServiceId ∧
    s.eventType = action ∧ s.disabledAt = none

/-- What the row goes back to, in the database and in what has been read. -/
def Grounded (Read : Db → Prop) (d : Db) : Row → Prop
  | .serviceRequestNonces n => ∃ d', Read d' ∧ Registered d' n
  | .acceptedRequests r => Recorded d r ∧ ∃ instanceId,
      HasSent d r.sourceServiceId instanceId r.requestId.uuid
  | .subscriptions r => AllowsAction d r.serviceId (subscriptionAction r)
  | .requestRoutes r => ∃ a ∈ d.acceptedRequests, a.key = (r.sourceServiceId, r.requestId) ∧
      ∃ d', Read d' ∧ Subscribed d' r a.action
  | .workClaims r => ∃ d', Read d' ∧ Claimable d' r
  | _ => True

/-- The tables whose rows go back to something. -/
def groundedTables : List TableName :=
  [.serviceRequestNonces, .acceptedRequests, .subscriptions, .requestRoutes, .workClaims]

section

variable {Read : Db → Prop} {d : Db} {w : Write} {ws : List Write} {r : Row}
  {serviceId : ActorId} {instanceId : InstanceId} {requestId : Uuid} {action : ActionName}

/-- No write takes away that an instance has sent a request. -/
theorem stable_hasSent : store.Stable [] fun d => HasSent d serviceId instanceId requestId :=
  fun d w ⟨n, hn, hrow⟩ hk => ⟨n, appendOnly_serviceRequestNonces.stable_mem n d w hn hk, hrow⟩

/-- No write takes away a decision that allows. -/
theorem stable_allowsAction : store.Stable [] fun d => AllowsAction d serviceId action :=
  fun d w ⟨decision, hdecision, hrow⟩ hk =>
    ⟨decision, Submissions.appendOnly_decisions.stable_mem decision d w hdecision hk, hrow⟩

/-- What a row goes back to stays. -/
theorem Grounded.view (h : Grounded Read d r) : Grounded Read (store.view d ws) r := by
  have hfree : ∀ w ∈ ws, ∀ k ∈ store.keys w, k ∉ ([] : List Key) := fun _ _ _ _ => List.not_mem_nil
  cases r with
  | acceptedRequests r =>
    obtain ⟨hrecorded, instanceId, hsent⟩ := h
    exact ⟨hrecorded.view ws, instanceId, stable_hasSent.view ws d hfree hsent⟩
  | subscriptions r => exact stable_allowsAction.view ws d hfree h
  | requestRoutes r =>
    obtain ⟨a, ha, h⟩ := h
    exact ⟨a, (appendOnly_acceptedRequests.stable_mem a).view ws d hfree ha, h⟩
  | _ => exact h

/-- A row of a table that is not followed goes back to nothing. -/
theorem grounded_of_table (h : w.table ∉ groundedTables) : Grounded Read d w.change.row := by
  rw [← w.table_change] at h
  cases hrow : w.change.row with
  | serviceRequestNonces | acceptedRequests | subscriptions | requestRoutes | workClaims =>
    rw [hrow] at h
    exact absurd (by simp [groundedTables, Row.table]) h
  | _ => trivial

end

/-- Every row goes back to what it must. -/
def Traced (Read : Db → Prop) (d : Db) : Prop := ∀ r ∈ d.rows, Grounded Read d r

/-- Every operation writes rows that go back to something. -/
def lineage (crates : ServerCrates) (app : Application) (Read : Db → Prop) :
    Contract (system crates app) where
  inv d _ := Traced Read d
  guar _ d ws _ := ∀ w ∈ ws, Grounded Read (store.view d ws) w.change.row
  assume _ _ d := Read d

/-! ## Rules -/

section Rules

variable {crates : ServerCrates} {app : Application} {Read : Db → Prop} {op : Op} {e : Db}
  {u : List Write} {α : Type}

/-- To write nothing keeps the lineage. -/
theorem lineage_nil (d : Db) : (lineage crates app Read).guar op d [] none :=
  fun _ hw => absurd hw List.not_mem_nil

/-- A decision goes back to nothing. -/
theorem lineage_decision {d : Db} {row : DecisionRow} :
    (lineage crates app Read).guar op d [.decisions row] none := by
  intro w hw
  obtain rfl := List.mem_singleton.mp hw
  exact trivial

/-- A process whose writes go back to what is there. -/
theorem wp_of_grounded {I : Db → Prop} {P : Write → Prop} (hI : store.Stable [] I)
    (hP : ∀ d w, I d → P w → Grounded Read d w.change.row) {p : Sql α}
    (hp : p.Writes (fun _ => True) P) {Q : (lineage crates app Read).Post α}
    (hQ : ∀ b d u locks ws, (lineage crates app Read).guar op d u none → Q b d u locks ws)
    (hu : (lineage crates app Read).guar op e u none) (he : I (store.view e u)) :
    (lineage crates app Read).wp op p Q e u [] [] :=
  Contract.wp_of_writes_stable hI (fun d _ hd hws w hw => (hP d w hd (hws w hw)).view) hQ hp hu he
    fun _ hw => absurd hw List.not_mem_nil

/-- A process that only writes to other tables. -/
theorem wp_of_ungrounded {p : Sql α}
    (hp : p.Writes (fun _ => True) fun w => w.table ∉ groundedTables)
    {Q : (lineage crates app Read).Post α}
    (hQ : ∀ b d u locks ws, (lineage crates app Read).guar op d u none → Q b d u locks ws)
    (hu : (lineage crates app Read).guar op e u none) :
    (lineage crates app Read).wp op p Q e u [] [] :=
  wp_of_grounded (I := fun _ => True) (fun _ _ _ _ => trivial)
    (fun _ _ _ hw => grounded_of_table hw) hp hQ hu trivial

/-! ## Claims -/

/-- What the claim goes back to has been read. -/
def Claimed (Read : Db → Prop) (claim : WorkClaimRow) : Prop := ∃ d', Read d' ∧ Claimable d' claim

/-- A claim that its trigger lets change goes back to what it went back to. -/
theorem Claimed.update {old new : WorkClaimRow} (h : Claimed Read old)
    (hprotect : protectWorkClaim old new = .ok ()) : Claimed Read new := by
  obtain ⟨d', hread, ⟨route, hroute, hid, hdestination⟩, requestId, hsent⟩ := h
  obtain ⟨-, hrouteId, hservice, hinstance, -⟩ := (protectWorkClaim_eq_ok.mp hprotect).1
  refine ⟨d', hread, ⟨route, hroute, hid.trans hrouteId.symm, hdestination.trans hservice.symm⟩,
    requestId, ?_⟩
  rw [hservice, hinstance]
  exact hsent

/-- A process that writes claims, of which the new ones go back to what has been read. -/
theorem wp_of_claims {p : Sql α}
    (hp : Lawful (fun w => ∃ c, w = .workClaims c ∧ ∀ row, c = .insert row → Claimed Read row) p)
    {Q : (lineage crates app Read).Post α}
    (hQ : ∀ b d u locks ws, (lineage crates app Read).guar op d u none → Q b d u locks ws)
    (hgood : (lineage crates app Read).Good e) :
    (lineage crates app Read).wp op p Q e [] [] [] := by
  have hnil : ∀ w ∈ ([] : List Write), ∃ c, w = .workClaims c ∧ Claimed Read c.row :=
    fun w hw => absurd hw List.not_mem_nil
  have hguar : ∀ d u, (∀ w ∈ u, ∃ c, w = .workClaims c ∧ Claimed Read c.row) →
      (lineage crates app Read).guar op d u none := by
    intro d u hu w hw
    obtain ⟨c, rfl, hclaimed⟩ := hu w hw
    cases c <;> exact hclaimed
  have hkeep : ∀ (d : Db) w, (∀ claim ∈ d.workClaims, Claimed Read claim) →
      (∃ c, w = .workClaims c ∧ Claimed Read c.row) →
      ∀ claim ∈ (store.apply d w).workClaims, Claimed Read claim := by
    rintro d w hd ⟨c, rfl, hclaimed⟩ claim hclaim
    rcases Postgres.RowWrite.mem_of_mem_apply hclaim with hclaim | rfl
    · exact hd claim hclaim
    · exact hclaimed
  -- A new version of a claim goes back to what the old one does.
  have hwrites : p.Writes (fun d => ∀ claim ∈ d.workClaims, Claimed Read claim)
      fun w => ∃ c, w = .workClaims c ∧ Claimed Read c.row := by
    refine Proc.Obeys.writes (fun _ _ h => h) (P := fun _ w => ∃ c, w = .workClaims c ∧
      Claimed Read c.row) (Proc.Obeys.keeping hkeep ?_
        (Proc.Obeys.mono (fun _ _ => trivial) (fun _ _ h => h) hp))
    rintro d _ hd ⟨hlets, c, rfl, hinsert⟩
    cases c with
    | insert row => exact ⟨_, rfl, hinsert row rfl⟩
    | update new =>
      obtain ⟨old, hold, hprotect⟩ := hlets.workClaim
      exact ⟨_, rfl, (hd old hold).update hprotect⟩
  refine Contract.wp_of_writes ?_ hkeep (fun d u _ => hguar d u)
    (fun b d u locks ws _ hu => hQ _ _ _ _ _ (hguar d u hu)) hwrites hgood hnil hnil
  rintro d ⟨_, hd⟩ claim hclaim
  exact hd (Row.workClaims claim) (Db.mem_rows.mpr hclaim)

/-- The rule of `claim`: the route has been read, of which the worker is the destination. -/
theorem wp_claim {claimId : ClaimId} {routeId : RouteId} {serviceId : ActorId}
    {instanceId : InstanceId} {requestId : Uuid} {leaseExpiresAt now : ℤ}
    {Q : (lineage crates app Read).Post (Except WorkClaimError WorkClaim)}
    (hQ : ∀ b d u locks ws, (lineage crates app Read).guar op d u none → Q b d u locks ws)
    (hsent : HasSent e serviceId instanceId requestId) :
    (lineage crates app Read).wp op
      (WorkClaimService.claim claimId routeId serviceId instanceId leaseExpiresAt now) Q e [] []
        [] := by
  unfold WorkClaimService.claim
  split
  · exact hQ _ _ _ _ _ (lineage_nil e)
  refine Contract.wp_transaction.mpr (Contract.wp_orFail_bind.mpr (Contract.wp_query (lineage_nil e)
    (fun d _ _ _ _ => hQ _ _ _ _ _ (lineage_nil d)) fun d₁ d₂ hr _ hread _ hgood => ?_))
  have hsent₁ : HasSent d₁ serviceId instanceId requestId := hr.stable stable_hasSent hsent
  dsimp only
  split
  · exact hQ _ _ _ _ _ (lineage_nil d₂)
  rename_i hdestination
  obtain ⟨route, hroute, hservice⟩ := Option.map_eq_some_iff.mp (not_not.mp hdestination)
  have hid := List.find?_some hroute
  rw [decide_eq_true_eq] at hid
  refine wp_of_claims ?_ (fun _ _ _ _ _ h => hQ _ _ _ _ _ h) hgood
  refine Proc.Obeys.run_bind (Proc.Obeys.orFail Proc.Obeys.selectForUpdate) fun latest => ?_
  refine Proc.Obeys.run_bind (PostgresWorkClaimRepository.lawful_supersede fun new => ?_)
    fun token => ?_
  · exact ⟨_, rfl, nofun⟩
  -- The new claim is for the route that has been read.
  refine Proc.Obeys.run_bind (Proc.Obeys.orFail (Proc.Obeys.insert fun _ _ hcheck => ?_))
    fun _ => ?_
  · refine ⟨⟨hcheck, rfl⟩, _, rfl, fun row hrow => ?_⟩
    obtain rfl := Postgres.RowWrite.insert.inj hrow
    exact ⟨d₁, hread, ⟨route, List.mem_of_find?_eq_some hroute, hid, hservice⟩, requestId, hsent₁⟩
  refine Proc.Obeys.ensure_bind fun claim _ => ?_
  exact Proc.Obeys.run_bind (Proc.Obeys.orFail Proc.Obeys.commitNow) fun _ => Proc.Obeys.run_pure

/-! ## Subscriptions -/

section

variable {evaluator : PolicyEvaluator} {decisionId : DecisionId} {serviceId : ActorId}

/-- The rule of an authorization for a subscription. -/
theorem wp_checkAuthorized {crates' : HttpCrates} {action : ActionName} {now : ℤ}
    {Q : (lineage crates app Read).Post (Option Response)}
    (hQ : ∀ r d u locks ws, (lineage crates app Read).guar op d u none → Q (some r) d u locks ws)
    (hok : ∀ d u, (lineage crates app Read).guar op d u none →
      AllowsAction (store.view d u) serviceId action → Q none d u [] []) :
    (lineage crates app Read).wp op
      (checkAuthorized crates' evaluator decisionId serviceId action now) Q e [] [] [] := by
  refine Contract.wp_bind.mpr (AuthorityService.wp_authorize lineage_nil
    (fun d er _ => hQ _ _ _ _ _ (lineage_nil d)) fun d decision _ hfacts => ?_)
  dsimp only
  split
  · rename_i hallowed
    refine hok d _ lineage_decision
      ⟨decision.row, List.mem_append_right _ (List.mem_singleton_self _),
      of_decide_eq_true hallowed, ?_, ?_⟩
    · rw [AuthorityDecision.row, hfacts]
      rfl
    · rw [AuthorityDecision.row, hfacts]
      rfl
  · exact hQ _ _ _ _ _ lineage_decision

/-- A write of a subscription of the service that is in the state to which the action leads. -/
def SubscribesTo (serviceId : ActorId) (action : ActionName) (w : Write) : Prop :=
  (∃ s, w = .subscriptions s ∧ s.row.serviceId = serviceId ∧ subscriptionAction s.row = action) ∨
    w.table ∉ groundedTables

/-- A subscription that is written after its decision goes back to that decision. -/
theorem SubscribesTo.grounded {action : ActionName} {d : Db} {w : Write}
    (hd : AllowsAction d serviceId action) (hw : SubscribesTo serviceId action w) :
    Grounded Read d w.change.row := by
  rcases hw with ⟨s, rfl, hservice, haction⟩ | hw
  · rw [← hservice, ← haction] at hd
    cases s <;> exact hd
  · exact grounded_of_table hw

/-- `create_subscription` keeps the lineage. -/
theorem wp_createSubscription {draws : MutationDraws} {request : ParsedRequest}
    {Q : (lineage crates app Read).Post Response}
    (hQ : ∀ b d u locks ws, (lineage crates app Read).guar op d u none → Q b d u locks ws) :
    (lineage crates app Read).wp op
      (createSubscription crates.toMutationCrates draws request serviceId) Q e [] [] [] := by
  unfold createSubscription
  split
  · exact hQ _ _ _ _ _ (lineage_nil e)
  split
  · exact hQ _ _ _ _ _ (lineage_nil e)
  split
  · exact hQ _ _ _ _ _ (lineage_nil e)
  refine Contract.wp_bind.mpr (wp_checkAuthorized (fun r d u locks ws h => hQ _ _ _ _ _ h)
    fun d u hguar hallows => ?_)
  refine wp_of_grounded stable_allowsAction (fun d w => SubscribesTo.grounded)
    (Lawful.writes (Proc.Obeys.bind (SubscriptionService.lawful_create (fun row _ => ?_)
      fun row hservice hactive => ?_) fun r => ?_)) hQ hguar hallows
  · exact .inr (by simp [groundedTables, Write.table])
  · exact .inl ⟨_, rfl, hservice, if_pos hactive⟩
  · cases r <;> exact Proc.Obeys.done

/-- So does `disable_subscription`. -/
theorem wp_disableSubscription {crates' : HttpCrates} {decidedAt now : ℤ} {id : Str}
    {Q : (lineage crates app Read).Post Response}
    (hQ : ∀ b d u locks ws, (lineage crates app Read).guar op d u none → Q b d u locks ws) :
    (lineage crates app Read).wp op
      (disableSubscription crates' evaluator decisionId decidedAt now id serviceId) Q e
      [] [] [] := by
  unfold disableSubscription
  split
  · exact hQ _ _ _ _ _ (lineage_nil e)
  refine Contract.wp_bind.mpr (wp_checkAuthorized (fun r d u locks ws h => hQ _ _ _ _ _ h)
    fun d u hguar hallows => ?_)
  refine wp_of_grounded stable_allowsAction (fun d w => SubscribesTo.grounded)
    (Lawful.writes (Proc.Obeys.bind (SubscriptionService.lawful_disable (fun row _ => ?_)
      fun row hservice hdisabled => ?_) fun r => ?_)) hQ hguar hallows
  · exact .inr (by simp [groundedTables, Write.table])
  · exact .inl ⟨_, rfl, hservice, if_neg hdisabled⟩
  · cases r <;> exact Proc.Obeys.done

end

/-! ## Submissions -/

section

variable {serviceId : ActorId} {instanceId : InstanceId} {requestId : RequestId}

/-- The rule of the router: a request that is accepted is routed to what has been read. -/
theorem wp_materializeRoutes {routeIds : ℕ → RouteId} {action : ActionName} {now : ℤ}
    {Q : (lineage crates app Read).Post (Except RequestError (List Route))}
    (hQ : ∀ b d u locks ws, (lineage crates app Read).guar op d u none → Q b d u locks ws)
    (hu : (lineage crates app Read).guar op e u none) {a : AcceptedRequestRow}
    (ha : a ∈ (store.view e u).acceptedRequests) (hkey : a.key = (serviceId, requestId))
    (haction : a.action = action.text) :
    (lineage crates app Read).wp op
      (SubscriptionRouter.materializeRoutes routeIds serviceId requestId
      action now).run Q e u [] [] := by
  have hnil : ∀ b d locks ws, Q b d [] locks ws :=
    fun b d locks ws => hQ b d [] locks ws (lineage_nil d)
  refine Contract.wp_ensure_bind.mpr ?_
  rw [EventType.new_action, Option.elim_some]
  refine Contract.wp_run_bind.mpr (Contract.wp_bind.mpr (Contract.wp_orFail_bind.mpr
    (Contract.wp_autocommit.mpr (Contract.wp_query hu (fun _ _ _ _ _ => hnil _ _ _ _) ?_))))
  intro d₁ d₂ hr₁ _ hread hr₂ _
  refine ⟨lineage_nil d₂, fun d₃ hr₃ _ => ⟨hnil _ _ _ _, ?_⟩⟩
  -- The request is still there when the routes are written, and the subscriptions are those that
  -- were read in `d₁`.
  have hstable : ∀ {locks}, store.Stable locks fun d => a ∈ d.acceptedRequests :=
    appendOnly_acceptedRequests.stable_mem a
  have ha₃ : a ∈ d₃.acceptedRequests :=
    hr₃.stable hstable (hr₂.stable hstable (hr₁.stable hstable ha))
  dsimp only
  cases hfound : (PostgresSubscriptionRepository.findActiveRows action.eventType.text
      (store.view d₁ [])).mapM subscriptionFromRow with
  | error er => exact hnil _ _ _ _
  | ok found =>
    refine wp_of_grounded (P := fun w => ∃ row, w = .requestRoutes row ∧
        (serviceId, requestId) = (row.sourceServiceId, row.requestId) ∧ Subscribed d₁ row a.action)
      hstable (fun d w ha ⟨row, hw, hrow, hsubscribed⟩ => ?_)
      (Lawful.writes (lawful_materializeEach fun s hs row hsource hrequest hid hdestination => ?_))
      hQ (lineage_nil d₃) ha₃
    · subst hw
      exact ⟨a, ha, hkey.trans hrow, d₁, hread, hsubscribed⟩
    · -- A route is for a subscription that was found, and so for a row that was active in `d₁`.
      refine ⟨row, rfl, by rw [hsource, hrequest], ?_⟩
      obtain ⟨row', hrow', hfrom⟩ :=
        (Postgres.mem_of_mapM_eq_ok hfound).mp (List.mem_filter.mp hs).1
      obtain ⟨hmem, hactive⟩ := List.mem_filter.mp (List.mem_mergeSort.mp hrow')
      obtain ⟨htype, hdisabled⟩ := of_decide_eq_true hactive
      obtain ⟨eventType, -, hrestore⟩ := bind_eq_ok.mp hfrom
      obtain ⟨hid', hservice', -⟩ :=
        Subscription.restore_eq_ok.mp (Postgres.mapError_eq_ok.mp hrestore)
      exact ⟨row', hmem, hid'.symm.trans hid.symm, hservice'.symm.trans hdestination.symm,
        htype.trans haction.symm, hdisabled⟩

/-- The rule of what a submission does once it is authorized. -/
theorem wp_acceptSubmission {draws : SubmissionDraws} {submitted : Request}
    {Q : (lineage crates app Read).Post Response}
    (hQ : ∀ b d u locks ws, (lineage crates app Read).guar op d u none → Q b d u locks ws)
    (hu : (lineage crates app Read).guar op e u none) {decision : DecisionRow}
    (hauthorizes : ∀ fingerprint now, Submissions.Authorizes decision
      (submitted.row fingerprint now))
    (hdecision : decision ∈ (store.view e u).decisions)
    (hsent : HasSent (store.view e u) submitted.sourceService instanceId submitted.id.uuid) :
    (lineage crates app Read).wp op (acceptSubmission crates.toHttpCrates draws submitted) Q e u []
      [] := by
  -- What the request goes back to was read before its transaction, and no write takes it away.
  have hstable : store.Stable [] fun d => decision ∈ d.decisions ∧
      HasSent d submitted.sourceService instanceId submitted.id.uuid := fun d w h hk =>
    ⟨Submissions.appendOnly_decisions.stable_mem decision d w h.1 hk, stable_hasSent d w h.2 hk⟩
  refine Contract.wp_bind.mpr (Contract.wp_of_waiting ?_ hu (Contract.wp_mono ?_
    (Contract.wp_frame hstable ⟨hdecision, hsent⟩ (PostgresRequestRepository.wp_accept
      (Q := fun answer d u locks ws => locks = [] ∧ ws = [] ∧ (u = [] ∧ answer.toOption = none ∨
        Accepts submitted (submitted.fingerprint crates.sha256) draws.acceptedAt d answer u))
      lineage_nil (fun d _ => ⟨rfl, rfl, .inl ⟨rfl, rfl⟩⟩)
      (fun d er _ _ => ⟨rfl, rfl, .inl ⟨rfl, rfl⟩⟩) fun d answer ws _ h => ⟨rfl, rfl, .inr h⟩))))
  · exact trivial
  rintro answer d u' locks ws ⟨⟨rfl, rfl, haccepts⟩, hdecision', hsent'⟩
  rcases haccepts with ⟨rfl, hanswer⟩ | haccepts
  · cases answer with
    | error er => exact hQ _ _ _ _ _ (lineage_nil d)
    | ok acceptance => cases hanswer
  -- The only row with a lineage among those of the transaction is the request.
  have hguar : (lineage crates app Read).guar op d u' none := by
    intro w hw
    cases w with
    | acceptedRequests row =>
      obtain ⟨fingerprint, now, rfl⟩ : ∃ fingerprint now, row = submitted.row fingerprint now := by
        cases haccepts with
        | accepted _ _ hstored =>
          simp only [List.mem_cons, Write.acceptedRequests.injEq, reduceCtorEq, List.not_mem_nil,
            or_false] at hw
          exact ⟨_, _, hw.trans hstored⟩
        | _ => simp at hw
      exact ⟨⟨decision, hdecision', hauthorizes fingerprint now⟩, instanceId, hsent'⟩
    | _ =>
      refine grounded_of_table ?_
      cases haccepts <;> simp at hw <;> simp [groundedTables, Write.table]
  cases answer with
  | error er => exact hQ _ _ _ _ _ hguar
  | ok acceptance =>
    obtain ⟨hrequest, hmem⟩ := haccepts.record
    exact Contract.wp_bind.mpr
      (wp_materializeRoutes (fun _ _ _ _ _ h => hQ _ _ _ _ _ h) hguar hmem rfl rfl)

/-- The rule of `submit_request`. -/
theorem wp_submitRequest {evaluator : PolicyEvaluator} {draws : SubmissionDraws}
    {request : ParsedRequest} {Q : (lineage crates app Read).Post Response}
    (hQ : ∀ b d u locks ws, (lineage crates app Read).guar op d u none → Q b d u locks ws)
    (hsent : HasSent e serviceId instanceId requestId.uuid) :
    (lineage crates app Read).wp op
      (submitRequest crates.toHttpCrates evaluator draws request serviceId
      requestId) Q e [] [] [] := by
  unfold submitRequest
  split
  · exact hQ _ _ _ _ _ (lineage_nil e)
  rename_i hjson
  split
  · exact hQ _ _ _ _ _ (lineage_nil e)
  rename_i dto hdto
  split
  · exact hQ _ _ _ _ _ (lineage_nil e)
  rename_i submitted hsubmitted
  obtain ⟨hsource, hid⟩ := Prod.mk.inj (key_of_intoRequest hsubmitted)
  -- The request that is read is the one that the submission's checks come to.
  have hcheck : (⟨evaluator, draws, request, serviceId, requestId⟩ : Submissions.SubmitCall).check
      crates.toHttpCrates = .ok submitted := by
    unfold Submissions.SubmitCall.check
    rw [if_neg hjson]
    dsimp only
    rw [hdto]
    dsimp only
    rw [hsubmitted]
    rfl
  refine Contract.wp_bind.mpr (Contract.wp_mono ?_ (Contract.wp_frame stable_hasSent hsent
    (AuthorityService.wp_authorize (Q := fun answer d u locks ws => locks = [] ∧ ws = [] ∧
        (u = [] ∧ answer.toOption = none ∨ ∃ decision, answer = .ok decision ∧
          decision.facts = (⟨evaluator, draws, request, serviceId, requestId⟩ :
            Submissions.SubmitCall).facts submitted ∧ u = [.decisions decision.row]))
      lineage_nil (fun d er _ => ⟨rfl, rfl, .inl ⟨rfl, rfl⟩⟩)
      fun d decision _ hfacts => ⟨rfl, rfl, .inr ⟨decision, rfl, hfacts, rfl⟩⟩)))
  rintro answer d u locks ws ⟨⟨rfl, rfl, h⟩, hsent'⟩
  rcases h with ⟨rfl, hanswer⟩ | ⟨decision, rfl, hfacts, rfl⟩
  · cases answer with
    | error er => exact hQ _ _ _ _ _ (lineage_nil d)
    | ok decision => cases hanswer
  dsimp only
  split
  · rename_i hallowed
    rw [← hsource, ← hid] at hsent'
    exact wp_acceptSubmission hQ lineage_decision
      (Submissions.SubmitCall.authorizes hcheck hfacts hallowed)
      (List.mem_append_right _ (List.mem_singleton_self _)) hsent'
  · exact hQ _ _ _ _ _ lineage_decision

end

/-! ## Connections -/

section

variable {draws : ConnectionDraws} {request : ParsedRequest} {v : VerifiedServiceRequest}
  {Q : (lineage crates app Read).Post Response}

/-- The rule of `claim_route`. -/
theorem wp_claimRoute {crates' : HttpCrates} {claimId : ClaimId} {now : ℤ} {routeId : Str}
    (hQ : ∀ b d u locks ws, (lineage crates app Read).guar op d u none → Q b d u locks ws)
    (hsent : HasSent e v.serviceId v.instanceId v.requestId) :
    (lineage crates app Read).wp op
      (claimRoute crates' claimId now request v.serviceId v.instanceId routeId) Q e [] [] [] := by
  unfold claimRoute
  split
  · exact hQ _ _ _ _ _ (lineage_nil e)
  split
  · exact hQ _ _ _ _ _ (lineage_nil e)
  split
  · exact hQ _ _ _ _ _ (lineage_nil e)
  refine Contract.wp_bind.mpr (wp_claim (fun r d u locks ws hguar => ?_) hsent)
  cases r <;> exact hQ _ _ _ _ _ hguar

/-- The rule of what is done behind the gate, for a sender whose request is reserved. -/
theorem wp_traceAdmitted
    (hQ : ∀ b d u locks ws, (lineage crates app Read).guar op d u none → Q b d u locks ws)
    (hgood : (lineage crates app Read).Good e)
    (hsent : HasSent e v.serviceId v.instanceId v.requestId) :
    (lineage crates app Read).wp op (dispatchAdmitted crates app draws request v) Q e [] [] [] := by
  -- Most handlers write to none of the tables that have a lineage; each of the others has a rule.
  have hother : ∀ {p : Sql Response}, Lawful (fun w => w.table ∉ groundedTables) p →
      (lineage crates app Read).wp op p Q e [] [] [] := fun hp =>
    wp_of_ungrounded (Lawful.writes hp) hQ (lineage_nil e)
  have hupdate : ∀ new, ∃ c, Write.workClaims (.update new) = .workClaims c ∧
      ∀ row, c = .insert row → Claimed Read row := fun new => ⟨_, rfl, nofun⟩
  unfold dispatchAdmitted
  dsimp only
  split
  · exact hother (lawful_publishSchema fun _ _ => by simp [groundedTables, Write.table])
  · exact hother lawful_listEligibleRoutes
  · exact wp_claimRoute hQ hsent
  · exact hother lawful_findRoutedRequest
  · exact wp_of_claims (lawful_renewClaimRoute hupdate) hQ hgood
  · exact wp_of_claims (lawful_releaseClaimRoute hupdate) hQ hgood
  · exact wp_of_claims (lawful_completeClaimRoute hupdate) hQ hgood
  · exact hother (lawful_renewInstanceRoute (fun _ _ => by simp [groundedTables, Write.table])
      fun _ _ => by simp [groundedTables, Write.table])
  · exact hQ _ _ _ _ _ (lineage_nil e)
  · split
    · exact hQ _ _ _ _ _ (lineage_nil e)
    · exact wp_submitRequest hQ hsent
    · exact hother lawful_findRequest
    · exact hQ _ _ _ _ _ (lineage_nil e)
    · exact hQ _ _ _ _ _ (lineage_nil e)
  · split
    · exact hQ _ _ _ _ _ (lineage_nil e)
    · exact wp_createSubscription hQ
    · exact hother lawful_listSubscriptions
    · exact wp_disableSubscription hQ
    · exact hQ _ _ _ _ _ (lineage_nil e)
    · exact hQ _ _ _ _ _ (lineage_nil e)

/-- The rule of a governed request: its nonce is one that the sender uses under its own key. -/
theorem wp_traceBehindGate
    (hQ : ∀ b d u locks ws, (lineage crates app Read).guar op d u none → Q b d u locks ws)
    (hgood : (lineage crates app Read).Good e) :
    (lineage crates app Read).wp op (dispatchBehindGate crates app draws request) Q e [] [] [] := by
  refine wp_behindGate lineage_nil (fun b d ws h => hQ _ _ _ _ _ h) ?_ ?_ hgood
  · intro _ signed _ _ _ d _ d₁ row v r answer ws hread hauthentic hr hcommits
    have hregistered : Grounded Read (store.view d ws) (.serviceRequestNonces r.nonceRow) := by
      obtain ⟨hservice, hinstance, hkey⟩ := hauthentic.sender
      obtain ⟨⟨hservice', hinstance', -⟩, hkey', -⟩ := reservation_of_verified hr
      exact ⟨d₁, hread, row.1, hauthentic.instance_mem, row.2, hauthentic.key_mem,
        (hservice'.trans hservice).symm, (hinstance'.trans hinstance).symm, hauthentic.key_instance,
        (hkey'.trans hkey).symm⟩
    intro w hw
    cases w with
    | serviceRequestNonces n =>
      obtain rfl : n = r.nonceRow := by cases hcommits <;> simp at hw <;> exact hw
      exact hregistered
    | _ =>
      refine grounded_of_table ?_
      cases hcommits <;> simp at hw <;> simp [groundedTables, Write.table]
  · intro _ signed _ _ _ d _ d₁ row v r _ d₂ hd _ _ hr hreserved _ _ _
    exact wp_traceAdmitted hQ hd ⟨r.nonceRow, hreserved.1, (reservation_of_verified hr).1⟩

/-- The rule of a connection. -/
theorem wp_traceConnection {stream : List UInt8}
    (hQ : ∀ b d u locks ws, (lineage crates app Read).guar op d u none → Q b d u locks ws)
    (hgood : (lineage crates app Read).Good e) :
    (lineage crates app Read).wp op (handleConnection crates app draws stream) Q e [] [] [] := by
  refine wp_connection lineage_nil (fun b d => hQ _ _ _ _ _ (lineage_nil d)) ?_
    fun request _ _ => wp_traceBehindGate hQ hgood
  -- The tables of an enrollment are others.
  intro request p _ _ hp
  have hother : ∀ w : Write, w.table ∈ enrollmentTables → w.table ∉ groundedTables := by
    intro w
    generalize w.table = t
    cases t <;> decide
  exact wp_of_ungrounded (Proc.Writes.mono hother hp) hQ (lineage_nil e)

end

end Rules

variable {crates : ServerCrates} {app : Application} {Read : Db → Prop}

/-- Every operation keeps to the contract. -/
theorem lineage_sound : (lineage crates app Read).Sound where
  stutter _ _ := lineage_nil _
  preserves _ op d log ws r hd hguar := by
    intro row hrow
    rcases Db.mem_rows_view hrow with hrow | ⟨w, hw, rfl⟩
    · exact (hd row hrow).view
    · exact hguar w hw
  program op d hgood := by
    have hothers : (∀ t ∈ op.tables, t ∉ groundedTables) → (lineage crates app Read).wp op
        (program crates app op) ((lineage crates app Read).Final op) d [] [] [] := fun htables =>
      wp_of_ungrounded (Proc.Writes.mono (fun w hw => htables _ hw) (writesTo_program op))
        (fun _ _ _ _ _ h => h) (lineage_nil d)
    cases op with
    | connection draws stream =>
      exact Contract.wp_bind.mpr (wp_traceConnection (fun _ _ _ _ _ h => h) hgood)
    | _ => exact hothers (by simp [Op.tables, registrarTables, groundedTables])

/-! ## Runs -/

/-- What a row goes back to may be read in more databases. -/
theorem Grounded.mono {Read' : Db → Prop} (hread : ∀ d, Read d → Read' d) {d : Db} {r : Row}
    (h : Grounded Read d r) : Grounded Read' d r := by
  cases r with
  | serviceRequestNonces n => exact h.imp fun d' h => ⟨hread d' h.1, h.2⟩
  | requestRoutes r => exact h.imp fun a h =>
      ⟨h.1, h.2.1, h.2.2.imp fun d' h => ⟨hread d' h.1, h.2⟩⟩
  | workClaims r => exact h.imp fun d' h => ⟨hread d' h.1, h.2⟩
  | _ => exact h

section

variable {d₀ : Db} {s s' : State Db Write Key Op (Option Response)}

/-- Every row goes back to what the run has passed. -/
theorem traced_of_reaches (h₀ : Traced (· = d₀) d₀) (hs : (system crates app).Reaches d₀ s) :
    Traced ((system crates app).Passed d₀ s) s.db :=
  (lineage_sound.holds_past (fun _ _ _ h => h) (fun r hr => (h₀ r hr).mono fun _ hd =>
    ⟨{ db := d₀ }, .init, hs.since, hd.symm⟩) hs).inv

/-- A sender that has been registered still is, as the same instance under the same key. -/
theorem registered_later (h₀ : schema.Legal d₀.rows) (hs : (system crates app).Reaches d₀ s)
    (hl : (system crates app).Later s s') {n : ServiceRequestNonceRow} (h : Registered s.db n) :
    Registered s'.db n := by
  obtain ⟨i, hi, k, hk, hservice, hinstance, hkey, hkeyId⟩ := h
  have hevolves := evolves_of_later h₀ hs hl
  obtain ⟨r, hr, -, hmoves⟩ := hevolves (.serviceInstances i) (Db.mem_rows.mpr hi)
  obtain ⟨i', rfl, hi', hservice'⟩ := instance_later hmoves
  obtain ⟨r, hr', -, hmoves'⟩ := hevolves (.serviceInstanceKeys k) (Db.mem_rows.mpr hk)
  obtain ⟨k', rfl, hk', hkey'⟩ := instanceKey_later hmoves'
  exact ⟨i', Db.mem_rows.mp hr, k', Db.mem_rows.mp hr', hservice'.trans hservice,
    hi'.trans hinstance, hkey'.trans (hkey.trans hi'.symm), hk'.trans hkeyId⟩

/-- What has been sent was sent by a registered instance. -/
theorem exists_sender (h₀ : schema.Legal d₀.rows) (htraced : Traced (· = d₀) d₀)
    (hs : (system crates app).Reaches d₀ s) (hl : (system crates app).Later s s')
    {serviceId : ActorId} {instanceId : InstanceId} {requestId : Uuid}
    (h : HasSent s.db serviceId instanceId requestId) :
    ∃ n ∈ s'.db.serviceRequestNonces, Registered s'.db n ∧ n.serviceId = serviceId ∧
      n.instanceId = instanceId ∧ n.requestId = requestId := by
  obtain ⟨n, hn, hsent⟩ := h
  obtain ⟨_, ⟨t, ht, hl', rfl⟩, hregistered⟩ :=
    traced_of_reaches htraced hs (.serviceRequestNonces n) (Db.mem_rows.mpr hn)
  exact ⟨n, hasRow_of_later h₀ hs hl (r := .serviceRequestNonces n) trivial hn,
    registered_later h₀ ht (hl'.trans hl) hregistered, hsent⟩

/-- What a work claim goes back to. -/
structure GoesBack (d : Db) (claim : WorkClaimRow) (route : RouteRow) (request : AcceptedRequestRow)
    (subscription : SubscriptionRow) : Prop where
  /-- The claim is for a route to the worker. -/
  destined : route.routeId = claim.routeId ∧ route.destinationServiceId = claim.workerServiceId
  /-- The worker has sent a request from the instance that holds the claim. -/
  worker : ∃ n ∈ d.serviceRequestNonces, Registered d n ∧ n.serviceId = claim.workerServiceId ∧
    n.instanceId = claim.workerInstanceId
  /-- The route is one of the request. -/
  routed : request.key = (route.sourceServiceId, route.requestId)
  /-- The source of the request has sent it, from a registered instance. -/
  sender : ∃ n ∈ d.serviceRequestNonces, Registered d n ∧ n.serviceId = request.sourceServiceId ∧
    n.requestId = request.requestId.uuid
  /-- The request was allowed. -/
  recorded : Recorded d request
  /-- The route is one to the subscription of the worker to what the request is about. -/
  subscribed : subscription.id = route.subscriptionId ∧
    subscription.serviceId = claim.workerServiceId ∧ subscription.eventType = request.action
  /-- The subscription was allowed. -/
  allowed : AllowsAction d claim.workerServiceId subscriptionCreate

/-- In every run, whatever overlaps, a work claim goes back to a route, to the request that is
routed and to the subscription that it is routed to; to the decisions that have allowed both; and to
what registered instances of the two services have sent. -/
theorem work_goes_back (h₀ : schema.Legal d₀.rows) (htraced : Traced (· = d₀) d₀)
    (hs : (system crates app).Reaches d₀ s) {claim : WorkClaimRow}
    (hclaim : claim ∈ s.db.workClaims) :
    ∃ route ∈ s.db.requestRoutes, ∃ request ∈ s.db.acceptedRequests,
      ∃ subscription ∈ s.db.subscriptions, GoesBack s.db claim route request subscription := by
  -- The route and the worker, when the claim was made.
  obtain ⟨_, ⟨t, ht, hl, rfl⟩, ⟨route, hroute, hid, hdestination⟩, requestId, hsent⟩ :=
    traced_of_reaches htraced hs (.workClaims claim) (Db.mem_rows.mpr hclaim)
  obtain ⟨n, hn, hregistered, hworker, hinstance, -⟩ := exists_sender h₀ htraced ht hl hsent
  -- The request, and the subscription when the request was routed.
  obtain ⟨request, hrequest, hkey, _, ⟨t', ht', hl', rfl⟩, row, hrow, hrowId, hservice, htype,
      hactive⟩ := traced_of_reaches htraced ht (.requestRoutes route) (Db.mem_rows.mpr hroute)
  obtain ⟨⟨decision, hdecision, hauthorizes⟩, instanceId, hsent'⟩ :=
    traced_of_reaches htraced ht (.acceptedRequests request) (Db.mem_rows.mpr hrequest)
  obtain ⟨n', hn', hregistered', hsender, -, hrequestId⟩ := exists_sender h₀ htraced ht hl hsent'
  obtain ⟨decision', hdecision', hverdict, hsource, haction⟩ :=
    traced_of_reaches htraced ht' (.subscriptions row) (Db.mem_rows.mpr hrow)
  rw [subscriptionAction, if_pos hactive] at haction
  obtain ⟨r, hr, -, hmoves⟩ :=
    evolves_of_later h₀ ht' (hl'.trans hl) (.subscriptions row) (Db.mem_rows.mpr hrow)
  obtain ⟨subscription, rfl, hsubscriptionId, hservice', htype'⟩ := subscription_later hmoves
  refine ⟨route, hasRow_of_later h₀ ht hl (r := .requestRoutes route) trivial hroute, request,
    hasRow_of_later h₀ ht hl (r := .acceptedRequests request) trivial hrequest, subscription,
    Db.mem_rows.mp hr, ?_⟩
  exact
    { destined := ⟨hid, hdestination⟩
      worker := ⟨n, hn, hregistered, hworker, hinstance⟩
      routed := hkey
      sender := ⟨n', hn', hregistered', hsender, hrequestId⟩
      recorded := ⟨decision, hasRow_of_later h₀ ht hl (r := .decisions decision) trivial hdecision,
        hauthorizes⟩
      subscribed := ⟨hsubscriptionId.trans hrowId, hservice'.trans (hservice.trans hdestination),
        htype'.trans htype⟩
      allowed := ⟨decision', hasRow_of_later h₀ ht' (hl'.trans hl)
        (r := .decisions decision') trivial
        hdecision', hverdict, hsource.trans (hservice.trans hdestination), haction⟩ }

end

/-- What the migrations leave goes back to nothing. -/
theorem traced_migrated {artifact permissionPolicy : Bytes32} {transactionTime : ℤ} :
    Traced Read (migrated artifact permissionPolicy transactionTime) := by
  intro r hr
  cases r with
  | serviceRequestNonces | acceptedRequests | subscriptions | requestRoutes | workClaims =>
    exact absurd (Db.mem_rows.mp hr) List.not_mem_nil
  | _ => trivial

/-! ## A claim of an instance that is revoked -/

/-- What has been written for the sender to have work: its subscription, its request, the decisions
that allow them, and the route. -/
def exampleWorkWrites : List Write :=
  [.decisions ⟨⟨20⟩, ⟨1⟩, subscriptionCreate.text, ['*'], ⟨1⟩, ⟨2⟩, none, .allow, ⟨1⟩, none, 7⟩,
    .subscriptions (.insert ⟨⟨21⟩, ⟨1⟩, "work.process".toList, .inclusive, 7, none⟩),
    .serviceRequestNonces ⟨⟨3⟩, .fill 4, ⟨1⟩, ⟨2⟩, 22, .fill 5, 7, 60, 8⟩,
    .decisions ⟨⟨23⟩, ⟨1⟩, "work.process".toList, ['*'], ⟨1⟩, ⟨2⟩, none, .allow, ⟨1⟩, none, 8⟩,
    .acceptedRequests ⟨⟨1⟩, ⟨22⟩, "work.process".toList, ['*'], ⟨1⟩, ⟨2⟩, .fill 6, 8⟩,
    .requestRoutes ⟨⟨24⟩, ⟨1⟩, ⟨22⟩, ⟨21⟩, ⟨1⟩, 8⟩]

/-- The database with the sender's work. -/
def exampleWork : Db := store.view exampleSender exampleWorkWrites

/-- The database of the example is legal. -/
theorem legal_exampleWork : integrity.Keeps exampleWork := by
  have hchain : store.Chain Db.Lets exampleSender exampleWorkWrites := by
    refine ⟨⟨?_, trivial⟩, ⟨?_, rfl⟩, ⟨?_, trivial⟩, ⟨?_, trivial⟩, ⟨?_, trivial⟩, ⟨?_, trivial⟩,
      trivial⟩
    · show Db.checkDecision _ _ = _
      decide
    · show Db.checkSubscription _ _ = _
      decide
    · refine ⟨?_, ?_, ?_, ?_, ?_⟩
      · exact ⟨by decide, by decide, by decide⟩
      · exact fun _ h => absurd h List.not_mem_nil
      · exact ⟨_, List.mem_singleton_self _, rfl⟩
      · decide
      · exact ⟨_, List.mem_singleton_self _, rfl⟩
    · show Db.checkDecision _ _ = _
      decide
    · refine ⟨?_, ?_, ?_⟩
      · decide
      · exact fun _ h => absurd h List.not_mem_nil
      · decide
    · refine ⟨?_, ?_, ?_⟩
      · show (0 : ℤ) ≤ 8
        decide
      · exact fun _ h => absurd h List.not_mem_nil
      · decide
  exact hchain.view (I := integrity.Keeps) (fun d w hd hw =>
    Postgres.Discipline.Keeps.apply hd (integrity_permits hd hw)) legal_exampleSender

/-- The work goes back to what is there. -/
theorem traced_exampleWork : Traced (· = exampleWork) exampleWork := by
  have hsent : HasSent exampleWork ⟨1⟩ ⟨2⟩ 22 := ⟨_, List.mem_singleton_self _, rfl, rfl, rfl⟩
  intro r hr
  have hmem := Db.mem_rows.mp hr
  cases r with
  | serviceRequestNonces n =>
    obtain rfl := List.mem_singleton.mp hmem
    exact ⟨_, rfl, _, List.mem_singleton_self _, _, List.mem_singleton_self _, rfl, rfl, rfl, rfl⟩
  | acceptedRequests a =>
    obtain rfl := List.mem_singleton.mp hmem
    exact ⟨⟨_, List.mem_cons_of_mem _
      (List.mem_singleton_self _), rfl, rfl, rfl, rfl, rfl, rfl, rfl⟩, ⟨2⟩, hsent⟩
  | subscriptions row =>
    obtain rfl := List.mem_singleton.mp hmem
    exact ⟨_, List.mem_cons_self, rfl, rfl, rfl⟩
  | requestRoutes row =>
    obtain rfl := List.mem_singleton.mp hmem
    exact ⟨_, List.mem_singleton_self _, rfl, _, rfl, _,
      List.mem_singleton_self _, rfl, rfl, rfl, rfl⟩
  | workClaims row => exact absurd hmem List.not_mem_nil
  | _ => trivial

/-- The body of the claim. -/
def exampleClaim : List UInt8 := Str.asBytes (Requests.exampleJson [("lease_seconds", .number 60)])

/-- The digest of the body. -/
def exampleClaimDigest : Bytes32 where
  bytes :=
    [209, 1, 245, 101, 98, 98, 114, 15, 142, 64, 55, 152, 65, 230, 134, 0, 218, 51, 234, 208, 88,
      114, 243, 159, 212, 97, 14, 36, 240, 194, 55, 236]
  length_eq := rfl

/-- The digest of the text of the fingerprint. -/
def exampleClaimFingerprint : Bytes32 where
  bytes :=
    [61, 56, 128, 50, 213, 28, 122, 118, 162, 16, 81, 57, 121, 231, 226, 115, 53, 34, 68, 12, 109,
      177, 35, 96, 168, 23, 214, 129, 130, 242, 199, 24]
  length_eq := rfl

/-- The signature of the claim. -/
def exampleClaimSignature : Bytes64 where
  bytes :=
    [119, 205, 59, 113, 60, 222, 120, 98, 105, 102, 83, 184, 203, 13, 153, 52, 7, 71, 193, 101, 203,
      245, 53, 119, 254, 175, 254, 50, 118, 37, 218, 170, 240, 174, 219, 155, 203, 198, 181, 71,
      159, 65, 21, 58, 116, 177, 225, 172, 25, 74, 211, 192, 154, 190, 217, 69, 177, 240, 9, 179,
      200, 181, 49, 5]
  length_eq := rfl

/-- The path of the claim. -/
def exampleClaimPath : Str :=
  "/v1/routes/".toList ++ Framing.hyphenated 24 ++ "/claims".toList

/-- What is sent and signed. -/
def exampleClaimParts : ServiceRequestParts where
  method := "POST".toList
  authority := "kernel.example".toList
  pathAndQuery := exampleClaimPath
  contentType := "application/json".toList
  body := exampleClaim
  requestId := 30
  valid := by decide +kernel

/-- The digest of the body, as it is sent. -/
def exampleClaimContentDigest : Str :=
  "sha-256=:".toList ++ Framing.base64 exampleClaimDigest.bytes ++ [':']

/-- The text that is signed. -/
def exampleClaimBase : Str :=
  signatureBase exampleReadingCrates exampleClaimParts ⟨1⟩ ⟨2⟩ exampleClaimContentDigest
    exampleParameters

/-- The crates, at the texts of the claim. -/
def exampleClaimCrates : ServerCrates :=
  { exampleServerCrates with
    sha256 := fun m =>
      if m = exampleClaim then exampleClaimDigest
      else if m = Str.asBytes "aaaaaaaaaaaaaaaa".toList then exampleNonceDigest
      else exampleClaimFingerprint
    verifyStrict := fun k m s => decide (k = exampleSenderKey ∧ m = exampleClaimBase.asBytes ∧
      s = exampleClaimSignature)
    claimRequest := fun body => if body = exampleClaim then some ⟨60⟩ else none }

/-- The headers of the claim on the wire. -/
def exampleClaimLines : List (Str × Str) :=
  [("Host".toList, " kernel.example".toList), ("Content-Type".toList, " application/json".toList),
    ("Content-Length".toList, " 20".toList),
    ("Content-Digest".toList, ' ' :: exampleClaimContentDigest),
    ("Infernal-Service-Id".toList, ' ' :: Framing.hyphenated 1),
    ("Infernal-Instance-Id".toList, ' ' :: Framing.hyphenated 2),
    ("Infernal-Request-Id".toList, ' ' :: Framing.hyphenated 30),
    ("Signature-Input".toList, " sig1=".toList ++ exampleParameters),
    ("Signature".toList, " sig1=:".toList ++ Framing.base64 exampleClaimSignature.bytes ++ [':'])]

/-- The bytes of the claim on the wire. -/
def exampleClaimStream : List UInt8 :=
  (headerText "POST".toList exampleClaimPath exampleClaimLines).asBytes ++ headerTerminator ++
    exampleClaim

/-- What the headers of the claim are read as. -/
def exampleClaimHead : ParsedHead where
  method := "POST".toList
  path := exampleClaimPath
  headers :=
    { contentLength := some 20
      authority := some "kernel.example".toList
      contentType := some "application/json".toList
      contentDigest := some exampleClaimContentDigest
      serviceId := some (Framing.hyphenated 1)
      instanceId := some (Framing.hyphenated 2)
      requestId := some (Framing.hyphenated 30)
      signatureInput := some ("sig1=".toList ++ exampleParameters)
      signature := some ("sig1=:".toList ++ Framing.base64 exampleClaimSignature.bytes ++ [':']) }
  contentLength := 20

/-- The claim is read from the bytes. -/
theorem read_exampleClaim (s : Reading.Schedule) : readRequest s exampleClaimStream =
    .ok (exampleClaimHead.request exampleClaim) := by
  have hlength : exampleClaim.length = 20 := by decide +kernel
  exact @read_of_wellWritten exampleClaimHead exampleClaimLines _ (by decide +kernel)
    (by decide +kernel) (by decide +kernel) hlength.symm (hlength ▸ by decide)
    (hlength ▸ by decide) s

/-- The claim, and the revocation of its instance. -/
def exampleClaimOps : List Op :=
  [.connection (examplePublicationDraws 25) exampleClaimStream, .revokeInstance ⟨2⟩ 120]

/-- Run alone, the claim is made, and then the instance is revoked. -/
theorem rows_exampleClaim : let d := exampleClaimOps.foldl (fun d op =>
      (((system exampleClaimCrates exampleApplication).program op).exec
        (system exampleClaimCrates exampleApplication).toStore d []).db) exampleWork
    d.workClaims = [⟨⟨25⟩, ⟨24⟩, ⟨1⟩, ⟨2⟩, 1, .active, 110, 170⟩] ∧
      d.serviceInstances = [⟨⟨2⟩, ⟨1⟩, "https://caller".toList, 0, 1000, 1, some 120⟩] := by
  have hprogram : (system exampleClaimCrates exampleApplication).program
      (.connection (examplePublicationDraws 25) exampleClaimStream) = _ :=
    program_of_read (read_exampleClaim _)
  rw [exampleClaimOps, List.foldl_cons, List.foldl_cons, List.foldl_nil, hprogram]
  decide +kernel

/-- The claim is made, its instance is revoked, and the claim still goes back to what it came
from. -/
theorem work_goes_back_revoked : ∃ s : State Db Write Key Op (Option Response),
    (system exampleClaimCrates exampleApplication).Reaches exampleWork s ∧
    s.db.serviceInstances = [⟨⟨2⟩, ⟨1⟩, "https://caller".toList, 0, 1000, 1, some 120⟩] ∧
    ∃ claim ∈ s.db.workClaims, claim.workerInstanceId = ⟨2⟩ ∧ ∃ route ∈ s.db.requestRoutes,
      ∃ request ∈ s.db.acceptedRequests, ∃ subscription ∈ s.db.subscriptions,
        GoesBack s.db claim route request subscription := by
  obtain ⟨s, hs, -, hdb⟩ := Postgres.System.exec_all_reaches
    (.init : (system exampleClaimCrates exampleApplication).Reaches exampleWork
      { db := exampleWork })
    rfl exampleClaimOps
  obtain ⟨hclaims, hinstances⟩ := rows_exampleClaim
  have hclaim : (⟨⟨25⟩, ⟨24⟩, ⟨1⟩, ⟨2⟩, 1, .active, 110, 170⟩ : WorkClaimRow) ∈
      s.db.workClaims := by
    rw [hdb, hclaims]
    exact List.mem_singleton_self _
  exact ⟨s, hs, hdb ▸ hinstances, _, hclaim, rfl,
    work_goes_back legal_exampleWork traced_exampleWork hs hclaim⟩

end Kernel

end InfernalLaw
