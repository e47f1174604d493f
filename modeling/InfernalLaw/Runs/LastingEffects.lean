import InfernalLaw.Http.MutatingHandlers
import InfernalLaw.Runs.HandlerWrites

/-!
# Effects that last

What a request that has been executed leaves for good. A claim that is released or completed is
never active again, a subscription that is disabled is never enabled again, and a request that is
accepted stays so, whatever is executed afterwards.
-/

namespace InfernalLaw.SafeRetries

open Handlers
open Postgres (Contract)
open Postgres.Proc.Writes

/-! ## Facts that nothing undoes -/

/-- The claim is there, and it is not active. -/
def Over (d : Db) (id : ClaimId) : Prop :=
  (∃ r ∈ d.workClaims, r.claimId = id) ∧ ∀ r ∈ d.workClaims, r.claimId = id → r.status ≠ .active

/-- The subscription is there, and it is disabled. -/
def Disabled (d : Db) (id : SubscriptionId) : Prop :=
  (∃ r ∈ d.subscriptions, r.id = id) ∧ ∀ r ∈ d.subscriptions, r.id = id → r.disabledAt ≠ none

/-- A request is accepted under the key. -/
def AcceptedUnder (d : Db) (key : ActorId × RequestId) : Prop :=
  ∃ a ∈ d.acceptedRequests, a.key = key

/-- The second database has the primary key of the claims if the first has it, and nothing of this
has been undone. -/
structure Keeps (d d' : Db) : Prop where
  nodup : (d.workClaims.map WorkClaimRow.claimId).Nodup →
    (d'.workClaims.map WorkClaimRow.claimId).Nodup
  closed : ∀ id, Over d id → Over d' id
  disabled : ∀ id, Disabled d id → Disabled d' id

/-- An acceptance stays, whatever is written. -/
theorem stable_acceptedUnder {locks : List Key} {key : ActorId × RequestId} :
    store.Stable locks fun d => AcceptedUnder d key :=
  fun d w ⟨a, ha, hkey⟩ hk => ⟨a, appendOnly_acceptedRequests.stable_mem a d w ha hk, hkey⟩

section

variable {d : Db} {w : Write} {ws : List Write}

/-- A claim that is over stays so when another one is written. -/
theorem Over.apply {id : ClaimId} (h : Over d id)
    (hw : ∀ rw, w = .workClaims rw → rw.row.claimId ≠ id) : Over (d.apply w) id := by
  obtain ⟨⟨r, hr, rfl⟩, hall⟩ := h
  cases w with
  | workClaims rw =>
    have hne : rw.row.claimId ≠ r.claimId := hw rw rfl
    refine ⟨⟨r, Postgres.RowWrite.mem_apply_of_ne hr hne.symm, rfl⟩, fun r' hr' hid => ?_⟩
    rcases Postgres.RowWrite.mem_of_mem_apply hr' with hr' | rfl
    · exact hall r' hr' hid
    · exact absurd hid hne
  | _ => exact ⟨⟨r, hr, rfl⟩, hall⟩

/-- The claim that is written is over when its new version is. -/
theorem over_update {old new : WorkClaimRow} (hmem : old ∈ d.workClaims)
    (hid : new.claimId = old.claimId) (hnew : new.status ≠ .active) :
    Over (d.apply (.workClaims (.update new))) old.claimId := by
  refine ⟨⟨new, Postgres.RowWrite.new_mem_update hmem hid.symm, hid⟩, fun r hr hr' => ?_⟩
  rcases (Postgres.RowWrite.mem_update hmem hid.symm).mp hr with rfl | ⟨-, hne⟩
  · exact hnew
  · exact absurd (hr'.trans hid.symm) hne

/-- A subscription that is disabled stays so when another one is written, or a version of it that is
disabled. -/
theorem Disabled.apply {id : SubscriptionId} (h : Disabled d id)
    (hw : ∀ rw, w = .subscriptions rw → rw.row.id = id →
      (∃ new, rw = .update new) ∧ rw.row.disabledAt ≠ none) : Disabled (d.apply w) id := by
  obtain ⟨⟨r, hr, rfl⟩, hall⟩ := h
  cases w with
  | subscriptions rw =>
    by_cases hid : rw.row.id = r.id
    · obtain ⟨⟨new, rfl⟩, hnew⟩ := hw rw rfl hid
      refine ⟨⟨new, Postgres.RowWrite.new_mem_update hr hid.symm, hid⟩, fun r' hr' hr'' => ?_⟩
      rcases Postgres.RowWrite.mem_of_mem_apply (w := .update new) hr' with hr' | rfl
      · exact hall r' hr' hr''
      · exact hnew
    · refine ⟨⟨r, Postgres.RowWrite.mem_apply_of_ne hr (Ne.symm hid), rfl⟩, fun r' hr' hr'' => ?_⟩
      rcases Postgres.RowWrite.mem_of_mem_apply hr' with hr' | rfl
      · exact hall r' hr' hr''
      · exact absurd hr'' hid
  | _ => exact ⟨⟨r, hr, rfl⟩, hall⟩

/-- A subscription whose new version is disabled. -/
theorem disabled_update {old new : SubscriptionRow} (hmem : old ∈ d.subscriptions)
    (hid : new.id = old.id) (hnew : new.disabledAt ≠ none) :
    Disabled (d.apply (.subscriptions (.update new))) old.id := by
  refine ⟨⟨new, Postgres.RowWrite.new_mem_update hmem hid.symm, hid⟩, fun r hr hr' => ?_⟩
  rcases (Postgres.RowWrite.mem_update hmem hid.symm).mp hr with rfl | ⟨-, hne⟩
  · exact hnew
  · exact absurd (hr'.trans hid.symm) hne

/-! ## What keeps them -/

/-- The tables in which a fact could be undone. -/
def changingTables : List TableName := [.subscriptions, .workClaims]

/-- A database keeps what it has. -/
theorem Keeps.refl (d : Db) : Keeps d d := ⟨id, fun _ => id, fun _ => id⟩

/-- What is kept twice is kept. -/
theorem Keeps.trans {d' d'' : Db} (h : Keeps d d') (h' : Keeps d' d'') : Keeps d d'' where
  nodup hd := h'.nodup (h.nodup hd)
  closed id hd := h'.closed id (h.closed id hd)
  disabled id hd := h'.disabled id (h.disabled id hd)

/-- What is written to other tables keeps everything. -/
theorem Keeps.of_tables (h : ∀ w ∈ ws, w.table ∉ changingTables) : Keeps d (store.view d ws) := by
  have hclaims : (store.view d ws).workClaims = d.workClaims := by
    refine workClaims_versioned.view_other fun w hw rw heq => h w hw ?_
    simp [heq, Write.table, changingTables]
  have hsubscriptions : (store.view d ws).subscriptions = d.subscriptions := by
    refine subscriptions_versioned.view_other fun w hw rw heq => h w hw ?_
    simp [heq, Write.table, changingTables]
  exact ⟨fun h => hclaims ▸ h, fun id h => by simpa [Over, hclaims] using h,
    fun id h => by simpa [Disabled, hsubscriptions] using h⟩

/-- A claim that is active is changed. -/
theorem Keeps.update_claim {old new : WorkClaimRow} (hmem : old ∈ d.workClaims)
    (hactive : old.status = .active) (hid : new.claimId = old.claimId) :
    Keeps d (d.apply (.workClaims (.update new))) where
  nodup h := by
    rw [Db.workClaims_apply, Postgres.RowWrite.map_pk_update]
    exact h
  closed id h := by
    refine h.apply fun rw hrw heq => ?_
    obtain rfl := Write.workClaims.inj hrw
    exact h.2 old hmem (hid.symm.trans heq) hactive
  disabled _ h := h

/-- A claim comes in addition. -/
theorem Keeps.insert_claim {new : WorkClaimRow}
    (hfresh : ∀ r ∈ d.workClaims, r.claimId ≠ new.claimId) :
    Keeps d (d.apply (.workClaims (.insert new))) where
  nodup h := by
    rw [Db.workClaims_apply]
    refine Postgres.RowWrite.nodup_apply h fun x hx => ?_
    obtain rfl := Postgres.RowWrite.insert.inj hx
    exact hfresh
  closed id h := by
    refine h.apply fun rw hrw heq => ?_
    obtain rfl := Write.workClaims.inj hrw
    obtain ⟨⟨r, hr, hid⟩, -⟩ := h
    exact hfresh r hr (hid.trans heq.symm)
  disabled _ h := h

/-- What the trigger on the claims lets through keeps the identifier. -/
theorem id_of_changes {claimId : ClaimId} {fencingToken now : ℤ} {old new : WorkClaimRow}
    (h : Changes d claimId fencingToken now old new) : new.claimId = old.claimId := by
  obtain ⟨-, hprotect, -⟩ := changeWorkClaim_eq_ok.mp h.change
  exact (protectWorkClaim_eq_ok.mp hprotect).1.1

/-- A claim is changed that is current. -/
theorem keeps_of_changes {claimId : ClaimId} {fencingToken now : ℤ} {old new : WorkClaimRow}
    (h : Changes d claimId fencingToken now old new) :
    Keeps d (store.view d [.workClaims (.update new)]) :=
  .update_claim h.mem h.active (id_of_changes h)

/-- A claim makes way that is active, and has lapsed. -/
theorem keeps_of_retires {routeId : RouteId} {now token : ℤ}
    (h : Retires routeId now d token ws) : Keeps d (store.view d ws) := by
  cases h with
  | nothing => exact .refl d
  | closed => exact .refl d
  | lapsed old hmem _ hactive => exact .update_claim hmem hactive rfl

/-- A claim is minted once the one before it has made way. -/
theorem keeps_of_mints {new : WorkClaimRow} (h : Mints d ws new)
    (hpk : (d.workClaims.map WorkClaimRow.claimId).Nodup) :
    Keeps d (store.view d (ws ++ [.workClaims (.insert new)])) := by
  rw [Postgres.Store.view_append]
  refine (keeps_of_retires h.retires).trans (.insert_claim ?_)
  exact WorkClaimRow.forall_of_map_identity (h.retires.map_identity hpk).symm
    (p := fun i => i.1 ≠ new.claimId) h.fresh_id

/-- A subscription comes in addition. -/
theorem keeps_of_subscribes {s : Subscription} (h : Subscribes d s) :
    Keeps d (store.view d s.createdWrites) where
  nodup hd := hd
  closed _ hd := hd
  disabled id hd := by
    refine Disabled.apply (w := .subscriptions (.insert s.row)) hd fun rw hrw heq => ?_
    obtain rfl := Write.subscriptions.inj hrw
    obtain ⟨⟨r, hr, hid⟩, -⟩ := hd
    exact absurd (hid.trans heq.symm) (h.fresh_id r hr)

/-- A subscription gets disabled. -/
theorem Keeps.update_subscription {new : SubscriptionRow} {audit : SubscriptionAuditRow}
    (hnew : new.disabledAt ≠ none) :
    Keeps d (store.view d [.subscriptions (.update new), .subscriptionAudit audit]) where
  nodup hd := hd
  closed _ hd := hd
  disabled id hd := by
    refine Disabled.apply (w := .subscriptions (.update new)) hd fun rw hrw _ => ?_
    obtain rfl := Write.subscriptions.inj hrw
    exact ⟨⟨new, rfl⟩, hnew⟩

end

/-! ## What an executed request leaves -/

/-- A request that has been executed with success leaves this for good, by the handler that it came
to. What the others do can be undone. -/
def Effective (crates : MutationCrates) (verified : VerifiedServiceRequest) (d : Db) :
    GovernedCall → Prop
  | .releaseClaimRoute claimId | .completeClaimRoute claimId => ∀ id,
    crates.parseUuid claimId = some id → Over d ⟨id⟩
  | .requestRoute .submitRequest => AcceptedUnder d (verified.serviceId, ⟨verified.requestId⟩)
  | .subscriptionRoute (.disableSubscription id) => ∀ subscriptionId,
    crates.parseUuid id = some subscriptionId → Disabled d ⟨subscriptionId⟩
  | _ => True

/-- What is left for good stays. -/
theorem Effective.mono {crates : MutationCrates} {verified : VerifiedServiceRequest} {d d' : Db}
    {call : GovernedCall} (h : Effective crates verified d call) (hkeeps : Keeps d d')
    (haccepted : ∀ key, AcceptedUnder d key → AcceptedUnder d' key) :
    Effective crates verified d' call := by
  unfold Effective at h ⊢
  split at h
  · exact fun id hid => hkeeps.closed _ (h id hid)
  · exact fun id hid => hkeeps.closed _ (h id hid)
  · exact haccepted _ h
  · exact fun id hid => hkeeps.disabled _ (h id hid)
  · trivial

/-! ## The rules of the handlers -/

/-- The handler has answered: what is committed with the answer keeps everything, and if the answer
is one of success, the effect is there. -/
def Answered (effect : Db → Prop) (response : Response) (d : Db) (u : List Write)
    (_locks : List Key) (_ws : List Write) : Prop :=
  Keeps d (store.view d u) ∧ (Succeeds response → effect (store.view d u))

/-- A response that is no success promises nothing. -/
theorem answered_of_not_succeeds {effect : Db → Prop} {response : Response} {d : Db}
    {u ws : List Write} {locks : List Key} (h : ¬ Succeeds response)
    (hkeeps : Keeps d (store.view d u)) : Answered effect response d u locks ws :=
  ⟨hkeeps, fun hsucceeds => absurd hsucceeds h⟩

section Rules

variable {Op α : Type} {program : Op → Sql α} {C : Contract (kernelSystem program)} {op : Op}
  {effect : Db → Prop} {e : Db}
  (hguar : ∀ d ws, Keeps d (store.view d ws) → C.guar op d ws none)

include hguar

/-- The rule of a handler that writes to other tables. -/
theorem wp_of_tables {p : Sql Response} {u : List Write}
    (hp : p.Writes (fun _ => True) fun w => w.table ∉ changingTables) (hgood : C.Good e)
    (hu : ∀ w ∈ u, w.table ∉ changingTables) (heffect : ∀ d, effect d) :
    C.wp op p (Answered effect) e u [] [] :=
  Contract.wp_of_writes (fun _ _ => trivial) (fun _ _ _ _ => trivial)
    (fun d u _ hu => hguar d u (.of_tables hu))
    (fun _ _ _ _ _ _ hu => ⟨.of_tables hu, fun _ => heffect _⟩) hp hgood hu
    fun _ h => absurd h List.not_mem_nil

/-! ### Claims -/

section

variable (hpk : ∀ d, C.Good d → (d.workClaims.map WorkClaimRow.claimId).Nodup)
  {crates : ClaimActionCrates} {draw : ClaimId} {now : ℤ} {request : ParsedRequest}
  {v : VerifiedServiceRequest}

omit hguar in
/-- What a handler of claims commits keeps everything. -/
theorem keeps_of_commitsClaim {call : GovernedCall} {d : Db} {ws : List Write}
    (h : CommitsClaim crates draw now request v d call ws)
    (hpk : (d.workClaims.map WorkClaimRow.claimId).Nodup) : Keeps d (store.view d ws) := by
  cases h with
  | claims _ _ _ _ hmints => exact keeps_of_mints hmints hpk
  | renews _ _ _ hchanges => exact keeps_of_changes hchanges
  | releases _ _ hchanges => exact keeps_of_changes hchanges
  | completes _ _ hchanges => exact keeps_of_changes hchanges

include hguar hpk

/-- The rule of a handler of claims, which leaves what its commit leaves. -/
theorem wp_claimHandler {p : Sql Response} {call : GovernedCall}
    (hp : ClaimHandler crates draw now request v call p)
    (heffect : ∀ d ws, CommitsClaim crates draw now request v d call ws →
      effect (store.view d ws)) : C.wp op p (Answered effect) e [] [] [] := by
  refine hp.wp (fun d => hguar d [] (.refl d)) hpk
    (fun d _ hrefused => answered_of_not_succeeds hrefused (.refl d)) fun d ws _ hg hcommits => ?_
  exact ⟨keeps_of_commitsClaim hcommits (hpk d hg), fun _ => heffect d ws hcommits⟩

omit hguar hpk in
/-- A claim whose status is changed is over. -/
theorem over_of_changes {id : ClaimId} {fencingToken : ℤ} {d : Db} {old : WorkClaimRow}
    {status : WorkClaimStatus} (h : Changes d id fencingToken now old { old with status })
    (hstatus : status ≠ .active) :
    Over (store.view d [.workClaims (.update { old with status })]) id :=
  h.id ▸ over_update h.mem (id_of_changes h) hstatus

end

/-! ### Subscriptions -/

section

variable {evaluator : PolicyEvaluator} {decisionId : DecisionId} {serviceId : ActorId}
  {draws : MutationDraws} {request : ParsedRequest}

/-- The rule of `check_authorized`: it writes a decision at most. -/
theorem wp_checkAuthorized {crates : HttpCrates} {action : ActionName} {now : ℤ}
    {f : Option Response → Sql Response}
    (hrefused : ∀ {d u} response, ¬ Succeeds response → Keeps d (store.view d u) →
      C.wp op (f (some response)) (Answered effect) d u [] [])
    (hallowed : ∀ {d u}, C.Good d → Keeps d (store.view d u) →
      C.wp op (f none) (Answered effect) d u [] []) :
    C.wp op ((checkAuthorized crates evaluator decisionId serviceId action now).bind f)
      (Answered effect) e [] [] [] := by
  refine Contract.wp_bind.mpr (Contract.wp_bind.mpr (AuthorityService.wp_authorize
    (fun d => hguar d [] (.refl d)) (fun d er _ => ?_) fun d decision hg _ => ?_))
  · exact hrefused _ (not_succeeds_errorResponse (by decide)) (.refl d)
  have hkeeps : Keeps d (store.view d [.decisions decision.row]) :=
    .of_tables (by simp [Write.table, changingTables])
  dsimp only
  split
  · exact hallowed hg hkeeps
  · exact hrefused _ (not_succeeds_errorResponse (by decide)) hkeeps

/-- `create_subscription` answers success only where its effect has come about. -/
theorem wp_createSubscription {crates : MutationCrates} (heffect : ∀ d, effect d) :
    C.wp op (createSubscription crates draws request serviceId) (Answered effect) e [] [] [] := by
  have hdone : ∀ {d u response}, Keeps d (store.view d u) → Answered effect response d u [] [] :=
    fun hkeeps => ⟨hkeeps, fun _ => heffect _⟩
  unfold createSubscription
  split
  · exact hdone (.refl e)
  split
  · exact hdone (.refl e)
  split
  · exact hdone (.refl e)
  refine wp_checkAuthorized hguar (fun response _ hkeeps => hdone hkeeps) fun {d u} hg hkeeps => ?_
  refine Contract.wp_bind.mpr (Contract.wp_ensure_bind.mpr ?_)
  split
  · rename_i s hs
    have hactive : s.disabledAt = none := (Subscription.restore_eq_ok.mp hs).2.2.2.2.2
    refine Contract.wp_run_bind.mpr (Contract.wp_of_waiting ?_ (hguar d u hkeeps)
      (PostgresSubscriptionRepository.wp_insert (fun d => hguar d [] (.refl d)) hactive
        (fun d er _ => ?_) fun d _ hsubscribes => ?_))
    · exact trivial
    · exact hdone (.refl d)
    · exact hdone (keeps_of_subscribes hsubscribes)
  · exact hdone hkeeps

/-- So does `disable_subscription`: the subscription is disabled. -/
theorem wp_disableSubscription {crates : HttpCrates} {decidedAt now : ℤ} {id : Str} :
    C.wp op (disableSubscription crates evaluator decisionId decidedAt now id serviceId)
      (Answered fun d => ∀ subscriptionId, crates.parseUuid id = some subscriptionId →
        Disabled d ⟨subscriptionId⟩) e [] [] [] := by
  unfold disableSubscription
  split
  · exact answered_of_not_succeeds (not_succeeds_errorResponse (by decide)) (.refl e)
  rename_i subscriptionId hid
  refine wp_checkAuthorized hguar (fun response hnot hkeeps => ?_) fun {d u} hg hkeeps => ?_
  · exact answered_of_not_succeeds hnot hkeeps
  have herr : ∀ {d u} er, Keeps d (store.view d u) → Answered (fun d => ∀ subscriptionId,
      crates.parseUuid id = some subscriptionId → Disabled d ⟨subscriptionId⟩)
        (subscriptionErrorResponse crates er) d u [] [] :=
    fun er hkeeps => answered_of_not_succeeds (not_succeeds_subscriptionError er) hkeeps
  refine Contract.wp_bind.mpr ?_
  unfold SubscriptionService.disable
  split
  · exact herr _ hkeeps
  rename_i hnow
  -- The decision is committed before the subscription is touched.
  have hwaiting : (PostgresSubscriptionRepository.disable serviceId
      ⟨subscriptionId⟩ now).Waiting := by
    unfold PostgresSubscriptionRepository.disable
    rw [if_neg hnow]
    exact trivial
  refine Contract.wp_of_waiting hwaiting (hguar d u hkeeps) ?_
  refine PostgresSubscriptionRepository.wp_disable_read (fun d => hguar d [] (.refl d)) hnow
    (fun d er _ => herr er (.refl d)) fun d old s _ hdisables hmem _ => ?_
  · refine ⟨.update_subscription (Option.some_ne_none _), fun _ id' hid' => ?_⟩
    obtain rfl := Option.some.inj (hid.symm.trans hid')
    rw [← hdisables.1]
    exact disabled_update hmem rfl (Option.some_ne_none _)

/-! ### Submissions -/

variable {requestId : RequestId}

/-- The rule of what a submission does once it is authorized: the request is accepted before it is
routed, and routes are in other tables. -/
theorem wp_acceptSubmission {crates : HttpCrates} {draws : SubmissionDraws} {submitted : Request}
    {u : List Write} (hu : Keeps e (store.view e u)) :
    C.wp op (acceptSubmission crates draws submitted)
      (Answered fun d => AcceptedUnder d submitted.key) e u [] [] := by
  have herr : ∀ er d, Answered (fun d => AcceptedUnder d submitted.key)
      (requestErrorResponse crates er) d [] [] [] :=
    fun er d => answered_of_not_succeeds (not_succeeds_requestError er) (.refl d)
  refine Contract.wp_bind.mpr (Contract.wp_of_waiting ?_ (hguar e u hu)
    (PostgresRequestRepository.wp_accept (fun d => hguar d [] (.refl d)) (fun d _ => herr _ d)
      (fun d er _ _ => herr er d) fun d answer ws hg haccepts => ?_))
  · exact trivial
  have hws : ∀ w ∈ ws, w.table ∉ changingTables := by
    cases haccepts <;> simp [Write.table, changingTables]
  cases answer with
  | error er => exact answered_of_not_succeeds (not_succeeds_requestError er) (.of_tables hws)
  | ok acceptance =>
    obtain ⟨hrequest, hmem⟩ := haccepts.record
    have haccepted : AcceptedUnder (store.view d ws) submitted.key :=
      ⟨_, hmem, congrArg Request.key hrequest⟩
    -- The acceptance stays while the routes are written.
    have hroutes : ∀ p : Sql Response, p.Writes (fun _ => True)
        (fun w => w.table ∉ changingTables) → C.wp op p (Answered fun _ => True) d ws [] [] :=
      fun p hp => wp_of_tables hguar hp hg hws fun _ => trivial
    refine Contract.wp_mono (fun response d' u' locks ws' h => ⟨h.1.1, fun _ => h.2⟩)
      (Contract.wp_frame stable_acceptedUnder haccepted (hroutes _ ?_))
    refine Postgres.Proc.Writes.bind (Lawful.writes
      (Handlers.lawful_materializeRoutes fun row _ _ => ?_)) fun _ => done
    simp [Write.table, changingTables]

/-- So does `submit_request`: the request is accepted. -/
theorem wp_submitRequest {crates : HttpCrates} {draws : SubmissionDraws} :
    C.wp op (submitRequest crates evaluator draws request serviceId requestId)
      (Answered fun d => AcceptedUnder d (serviceId, requestId)) e [] [] [] := by
  have herr : ∀ {d u status er}, status.toList.head? ≠ some '2' → Keeps d (store.view d u) →
      Answered (fun d => AcceptedUnder d (serviceId, requestId))
        (errorResponse crates status er) d u [] [] := fun hstatus hkeeps =>
    answered_of_not_succeeds (not_succeeds_errorResponse hstatus) hkeeps
  unfold submitRequest
  split
  · exact herr (by decide) (.refl e)
  split
  · exact herr (by decide) (.refl e)
  split
  · exact herr (by decide) (.refl e)
  rename_i submitted hsubmitted
  refine Contract.wp_bind.mpr (AuthorityService.wp_authorize (fun d => hguar d [] (.refl d))
    (fun d er _ => herr (by decide) (.refl d)) fun d decision _ _ => ?_)
  have hkeeps : Keeps d (store.view d [.decisions decision.row]) :=
    .of_tables (by simp [Write.table, changingTables])
  dsimp only
  split
  · rw [← Handlers.key_of_intoRequest hsubmitted]
    exact wp_acceptSubmission hguar hkeeps
  · exact herr (by decide) hkeeps

end

/-! ### Requests -/

/-- The rule of what an admitted request comes to: what its handler does keeps everything, and what
it leaves for good is there if it answers with success. -/
theorem wp_mutatingHandler {crates : MutationCrates} {policy : LeasePolicy} {draws : MutationDraws}
    {request : ParsedRequest} {verified : VerifiedServiceRequest} {call : GovernedCall}
    {p : Sql Response} (hpk : ∀ d, C.Good d → (d.workClaims.map WorkClaimRow.claimId).Nodup)
    (hp : mutatingHandler crates policy draws request verified call = some p) (hgood : C.Good e) :
    C.wp op p (Answered fun d => Effective crates verified d call) e [] [] [] := by
  have hother : p.Writes (fun _ => True) (fun w => w.table ∉ changingTables) →
      (∀ d, Effective crates verified d call) →
      C.wp op p (Answered fun d => Effective crates verified d call) e [] [] [] :=
    fun hwrites heffect => wp_of_tables hguar hwrites hgood (fun _ h => absurd h List.not_mem_nil)
      heffect
  have hclaims : ClaimHandler crates.toClaimActionCrates draws.claimId draws.now request
      verified call p → (∀ d ws, CommitsClaim crates.toClaimActionCrates draws.claimId draws.now
        request verified d call ws → Effective crates verified (store.view d ws) call) →
      C.wp op p (Answered fun d => Effective crates verified d call) e [] [] [] :=
    fun hp heffect => wp_claimHandler hguar hpk hp heffect
  unfold mutatingHandler at hp
  split at hp <;> cases hp
  · refine hother (Lawful.writes (Handlers.lawful_publishSchema fun _ _ => ?_)) fun _ => trivial
    simp [Write.table, changingTables]
  · exact hclaims .claimRoute fun _ _ _ => trivial
  · exact hclaims .renewClaimRoute fun _ _ _ => trivial
  · -- The claim that has been released is the one that the path names.
    refine hclaims .releaseClaimRoute fun d ws hcommits id hid => ?_
    cases hcommits with
    | releases hid' _ hchanges =>
      obtain rfl := Option.some.inj (hid.symm.trans hid')
      exact over_of_changes hchanges (by decide)
  · refine hclaims .completeClaimRoute fun d ws hcommits id hid => ?_
    cases hcommits with
    | completes hid' _ hchanges =>
      obtain rfl := Option.some.inj (hid.symm.trans hid')
      exact over_of_changes hchanges (by decide)
  · refine hother (Lawful.writes (Handlers.lawful_renewInstanceRoute (fun _ _ => ?_) fun _ _ => ?_))
      fun _ => trivial
    · simp [Write.table, changingTables]
    · simp [Write.table, changingTables]
  · exact wp_submitRequest hguar
  · exact wp_createSubscription hguar fun _ => trivial
  · exact wp_disableSubscription hguar

end Rules

end InfernalLaw.SafeRetries
