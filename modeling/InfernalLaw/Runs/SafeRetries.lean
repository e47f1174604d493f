import InfernalLaw.Infrastructure.AdmissionRepository
import InfernalLaw.Infrastructure.Background
import InfernalLaw.Infrastructure.ReplayProtectionRepository
import InfernalLaw.Kernel.RequestGate
import InfernalLaw.Runs.LastingEffects
import InfernalLaw.Runs.LeaseRenewals
import InfernalLaw.Runs.ReplayProtection
import InfernalLaw.Runs.Retries
import InfernalLaw.Runs.SpentRequests

/-!
# Safe retries

A request that was executed comes to the gate again, with the same identifier and content. The gate
sees that it is a retry, and the handler is not told. Whether the retry leaves the governed tables
as they are depends on what the handler finds of the first execution: some of it nothing can have
undone, and the rest is a condition on the state in which the retry comes.
-/

namespace InfernalLaw.SafeRetries

open Handlers (Succeeds)
open InstanceRegistry (examplePolicy)
open Postgres (Contract Proc)
open Postgres.Proc.Writes

/-! ## The gate -/

/-- A mutating request that comes to the gate, and what its signature has been verified to sign. -/
structure Attempt where
  request : ParsedRequest
  signed : SignedServiceRequest
  verified : VerifiedServiceRequest
  /-- `unix_time()`, for the gate. -/
  admittedAt : ℤ
  /-- Whether `policy_evaluator_from_env` finds an authority. -/
  authority : Bool
  draws : MutationDraws

/-- What `dispatch` comes to with the request, once it is admitted. -/
def Attempt.call (a : Attempt) : GovernedCall :=
  dispatchGoverned a.authority a.request.method a.request.path

/-- What the gate does once the signature is verified. -/
def admitAttempt (a : Attempt) : Fallible ServiceRequestGateError AdmittedServiceRequest :=
  ServiceRequestGate.admitRequest (fun _ _ => pure a.verified)
    (ReplayProtectionService.protect fun r => ExceptT.mk
      (PostgresReplayProtectionRepository.reserve r))
    (AdmissionService.requireCommunication fun id =>
      ExceptT.mk (PostgresAdmissionRepository.find id))
    a.signed a.admittedAt

/-- What runs. -/
inductive Op where
  | mutate (a : Attempt)
  /-- Another component's transaction. Only the handlers write to subscriptions and claims. -/
  | other (writes : List Write) (h : ∀ w ∈ writes, w.table ∉ changingTables)

/-- What an operation answers: for a request that is let through, how it is seen and the
response. -/
abbrev Result : Type := Option (ReplayDisposition × Response)

section

variable (crates : MutationCrates) (policy : LeasePolicy)

/-- The gate and the handler. -/
def mutate (a : Attempt) : Sql Result :=
  if isSupportedGovernedMethod a.request.method a.request.path then
    (admitAttempt a).run.bind fun
      | .error _ => .done none
      | .ok admitted =>
        match mutatingHandler crates policy a.draws a.request admitted.verified a.call with
        | none => .done none
        | some p => p.bind fun response => .done (some (admitted.replayDisposition, response))
  else .done none

/-- What the operations do. -/
def program : Op → Sql Result
  | .mutate a => mutate crates policy a
  | .other writes _ => (background writes).bind fun _ => .done none

/-- The sessions of the kernels that share the database. -/
abbrev system : Postgres.System Db Write Key Op Result := kernelSystem (program crates policy)

/-- Requests alone, one after the other. -/
def mutateAll (d : Db) (attempts : List Attempt) : Db :=
  attempts.foldl (fun d a => ((mutate crates policy a).exec store d []).db) d

/-- The second attempt is to do what the first one was: this is what a fingerprint is the digest of,
besides the service and the request identifier. -/
structure Repeats (first retry : Attempt) : Prop where
  method : retry.request.method = first.request.method
  path : retry.request.path = first.request.path
  contentType : retry.request.contentType = first.request.contentType
  body : retry.request.body = first.request.body

/-- In a state that can be reached, a request has been executed as a fresh one, and now it is
repeated with its identifier and its content, and with another nonce. -/
structure Retried (d₀ : Db) (s : Postgres.State Db Write Key Op Result) (first retry : Attempt) :
    Prop where
  reaches : (system crates policy).Reaches d₀ s
  executed : ∃ e ∈ s.log, e.op = .mutate first ∧ ∃ response : Response,
    e.result = some (.fresh, response) ∧ Succeeds response
  service : retry.verified.serviceId = first.verified.serviceId
  requestId : retry.verified.requestId = first.verified.requestId
  fingerprint : retry.verified.requestFingerprint = first.verified.requestFingerprint
  content : Repeats first retry
  nonce : retry.verified.nonceDigest ≠ first.verified.nonceDigest

end

section

variable {g : View}

/-- A reservation writes to none of the governed tables. -/
theorem writes_reserve {r : ReplayReservation} :
    (PostgresReplayProtectionRepository.reserve r).Writes (Has g) (Leaves g) := by
  have hconclude :
      ∀ {outcome : ReplayOutcome} {answer : Except ReplayProtectionError ReplayDisposition},
      (PostgresReplayProtectionRepository.conclude r outcome answer).run.Writes (Has g)
      (Leaves g) :=
    fun {_ _} => run_bind
      (orFail (insert fun _ _ _ => leaves_other (by simp [Write.table, tables])))
      fun _ => run_bind (orFail commitNow) fun _ => ensure
  refine transaction (run_bind (orFail (insertOrNothing fun _ _ _ _ _ => leaves_other ?_))
    fun nonceRows => ?_)
  · simp [Write.table, tables]
  split
  · exact hconclude
  split
  · exact run_throw
  refine run_bind (orFail (insertOrNothing fun _ _ _ _ _ => leaves_other ?_)) fun requestRows => ?_
  · simp [Write.table, tables]
  refine run_bind (orFail (one query)) fun stored => ?_
  split
  · exact hconclude
  split
  · exact hconclude
  split
  · exact hconclude
  · exact run_throw

/-- Nor does the gate. -/
theorem writes_admitAttempt {a : Attempt} : (admitAttempt a).run.Writes (Has g) (Leaves g) := by
  refine run_bind run_pure fun verified => run_bind ?_ fun disposition =>
    run_bind ?_ fun _ => run_pure
  · refine bind ?_ fun _ => done
    refine run_bind ?_ fun r => writes_reserve
    cases ReplayReservation.fromVerified verified a.admittedAt <;> exact done
  · refine bind ?_ fun _ => done
    refine run_bind (run_bind (orFail (autocommit query)) fun _ => ensure) fun found => ?_
    cases found with
    | none => exact run_throw
    | some admission =>
      dsimp only
      split
      · exact run_pure
      · exact run_throw

/-- What the gate lets through is the request that is verified. -/
theorem ends_admitAttempt {a : Attempt} : (admitAttempt a).run.Ends fun answer =>
    ∀ admitted, answer = .ok admitted → admitted.verified = a.verified := by
  have herr : ∀ e, (fun answer : Except ServiceRequestGateError AdmittedServiceRequest =>
      ∀ admitted, answer = .ok admitted → admitted.verified = a.verified) (.error e) := by simp
  change (_ >>= fun replayDisposition => _ >>= fun admissionRevision =>
    pure ⟨a.verified, replayDisposition, admissionRevision⟩ :
      Fallible ServiceRequestGateError AdmittedServiceRequest).run.Ends _
  refine Proc.Ends.run_bind_any herr fun disposition =>
    Proc.Ends.run_bind_any herr fun revision => ?_
  rintro _ ⟨⟩
  rfl

end

section

variable {crates : MutationCrates} {policy : LeasePolicy}

/-- A request that is refused, or whose effect is there, leaves the governed tables as they are. -/
theorem view_mutate {a : Attempt} {d : Db}
    (h : Spent crates a.draws a.request a.verified (view d) a.call) :
    view ((mutate crates policy a).exec store d []).db = view d := by
  have hwrites : (mutate crates policy a).Writes (Has (view d)) (Leaves (view d)) := by
    unfold mutate
    split
    · refine bind_of_ends writes_admitAttempt ends_admitAttempt fun answer hanswer => ?_
      cases answer with
      | error e => exact done
      | ok admitted =>
        dsimp only
        rw [hanswer admitted rfl]
        split
        · exact done
        · rename_i p hp
          exact bind (writes_mutatingHandler hp h) fun _ => done
    · exact done
  exact hwrites.exec (I := Has (view d)) (fun d w hd hw => hw d hd) rfl
    fun _ h => absurd h List.not_mem_nil

/-- So do any number of them, as none makes the next one have an effect. -/
theorem view_mutateAll {attempts : List Attempt} : ∀ {d : Db}, (∀ a ∈ attempts,
    Spent crates a.draws a.request a.verified (view d) a.call) →
      view (mutateAll crates policy d attempts) = view d := by
  induction attempts with
  | nil => exact fun _ => rfl
  | cons a attempts ih =>
    intro d h
    have hfirst : view ((mutate crates policy a).exec store d []).db = view d :=
      view_mutate (h a List.mem_cons_self)
    -- The first request leaves what the conditions of the others are about.
    refine (ih fun b hb => ?_).trans hfirst
    rw [hfirst]
    exact h b (List.mem_cons_of_mem _ hb)

end

/-! ## What the first execution has left -/

section Contract

variable (crates : MutationCrates)

/-- What a request that has been executed with success leaves for good is there. -/
def Left (a : Attempt) (d : Db) : Prop :=
  a.call ≠ .unavailable ∧ Effective crates a.verified d a.call

/-- Nothing that is left for good is undone, and what answers with success has left it. -/
def contract (policy : LeasePolicy) : Contract (system crates policy) where
  inv d log := (d.workClaims.map WorkClaimRow.claimId).Nodup ∧ ∀ e ∈ log, ∀ a, e.op = .mutate a →
    ∀ disposition response, e.result = some (disposition, response) → Succeeds response →
      Left crates a d
  guar op d ws r := Keeps d (store.view d ws) ∧ ∀ a, op = .mutate a →
    ∀ disposition response, r = some (some (disposition, response)) → Succeeds response →
      Left crates a (store.view d ws)

end Contract

section Sound

variable {crates : MutationCrates} {policy : LeasePolicy}

/-- An event that ends nothing with success. -/
theorem guar_of_keeps {op : Op} {d : Db} {ws : List Write} {r : Option Result}
    (hkeeps : Keeps d (store.view d ws)) (hr : ∀ x, r ≠ some (some x)) :
    (contract crates policy).guar op d ws r :=
  ⟨hkeeps, fun _ _ _ _ h => absurd h (hr _)⟩

/-- What is left stays. -/
theorem Left.view {a : Attempt} {d : Db} {ws : List Write} (h : Left crates a d)
    (hkeeps : Keeps d (store.view d ws)) : Left crates a (store.view d ws) :=
  ⟨h.1, h.2.mono hkeeps fun _ => stable_acceptedUnder.view ws d fun _ _ _ _ => List.not_mem_nil⟩

/-- The rule of the gate. -/
theorem wp_admitAttempt {op : Op} {a : Attempt}
    {Q : (contract crates policy).Post (Except ServiceRequestGateError AdmittedServiceRequest)}
    (herr : ∀ d u er, Keeps d (store.view d u) → Q (.error er) d u [] [])
    (hok : ∀ d admitted, (contract crates policy).Good d → admitted.verified = a.verified →
      Q (.ok admitted) d [] [] []) {e : Db} :
    (contract crates policy).wp op (admitAttempt a).run Q e [] [] [] := by
  have hguar : ∀ d ws, Keeps d (store.view d ws) → (contract crates policy).guar op d ws none :=
    fun d ws hkeeps => guar_of_keeps hkeeps nofun
  have hquiet : ∀ d, (contract crates policy).guar op d [] none := fun d => hguar d [] (.refl d)
  have herr' : ∀ d er, Q (.error er) d [] [] [] := fun d er => herr d [] er (.refl d)
  refine Contract.wp_run_bind.mpr (Contract.wp_run_bind.mpr (Contract.wp_run_adapt.mpr ?_))
  refine Contract.wp_ensure_bind.mpr ?_
  split
  swap
  · exact herr' e _
  -- The reservation writes to its own tables.
  refine PostgresReplayProtectionRepository.wp_reserve hquiet (fun d _ => herr' d _)
    (fun d _ _ _ => herr' d _) fun d answer ws _ hcommits => ?_
  have hkeeps : Keeps d (store.view d ws) := by
    refine .of_tables ?_
    cases hcommits <;> simp [Write.table, changingTables]
  cases answer with
  | error er => exact herr d ws _ hkeeps
  | ok disposition =>
    refine Contract.wp_run_bind.mpr (Contract.wp_run_adapt.mpr (wp_requireCommunication
      (hguar d ws hkeeps) hquiet (fun d er _ => herr' d _) fun d _ _ revision hgood _ _ _ => ?_))
    exact hok d _ hgood rfl

/-- Every operation keeps to the contract. -/
theorem contract_sound : (contract crates policy).Sound where
  stutter op d := guar_of_keeps (.refl d) nofun
  preserves id op d log ws r := by
    rintro ⟨hpk, hlog⟩ ⟨hkeeps, hr⟩
    refine ⟨hkeeps.nodup hpk, fun e he a hop disposition response hresult hsucceeds => ?_⟩
    rcases List.mem_append.mp he with he | he
    · exact (hlog e he a hop disposition response hresult hsucceeds).view hkeeps
    · obtain ⟨result, rfl, rfl⟩ := Option.mem_map.mp (Option.mem_toList.mp he)
      exact hr a hop disposition response (congrArg some hresult) hsucceeds
  program op e _ := by
    have hguar : ∀ op d ws, Keeps d (store.view d ws) →
        (contract crates policy).guar op d ws none :=
      fun _ d ws hkeeps => guar_of_keeps hkeeps nofun
    cases op with
    | other writes hwrites =>
      refine Contract.wp_bind.mpr (wp_background (fun d => hguar _ d [] (.refl d)) (fun d _ => ?_)
        fun d _ => ?_)
      · exact guar_of_keeps (.refl d) nofun
      · exact guar_of_keeps (.of_tables hwrites) nofun
    | mutate a =>
      change (contract crates policy).wp _ (mutate crates policy a) _ _ _ _ _
      unfold mutate
      split
      swap
      · exact guar_of_keeps (.refl e) nofun
      refine Contract.wp_bind.mpr (wp_admitAttempt (fun d u er hkeeps => ?_)
        fun d admitted hgood hverified => ?_)
      · exact guar_of_keeps hkeeps nofun
      dsimp only
      rw [hverified]
      split
      · exact guar_of_keeps (.refl d) nofun
      rename_i p hp
      -- The handler's own rule says what its answer leaves.
      refine Contract.wp_bind.mpr (Contract.wp_mono ?_ (wp_mutatingHandler (hguar _)
        (fun d ⟨_, hpk, _⟩ => hpk) hp hgood))
      rintro response d u locks ws ⟨hkeeps, heffect⟩
      refine ⟨hkeeps, fun a' hop disposition response' hresult hsucceeds => ?_⟩
      obtain rfl := Op.mutate.inj hop
      obtain ⟨-, rfl⟩ := Prod.mk.inj (Option.some.inj (Option.some.inj hresult))
      refine ⟨fun hunavailable => ?_, heffect hsucceeds⟩
      rw [hunavailable] at hp
      cases hp

end Sound

/-! ## What the retry finds -/

/-- Where the retry comes, what others may have undone of the effect is still there, or the request
is refused. A publication makes the next version, whatever it finds. -/
def Remains (crates : MutationCrates) (draws : MutationDraws) (request : ParsedRequest)
    (verified : VerifiedServiceRequest) (g : View) : GovernedCall → Prop
  | .publishSchema => False
  | .releaseClaimRoute _ | .completeClaimRoute _ => True
  | .subscriptionRoute (.disableSubscription _) => True
  | .requestRoute .submitRequest => request.isJson = true → ∀ dto submitted,
    crates.submitRequestRequest request.body = some dto →
      dto.intoRequest crates.toCrates verified.serviceId ⟨verified.requestId⟩ = .ok submitted →
        Permits draws.evaluator (.forRequestAcceptance verified.serviceId submitted.action
          submitted.scope submitted.schemaVersions) draws.submission.now g.grants →
            RoutedToAll g submitted
  | call => Spent crates draws request verified g call

section

variable {crates : MutationCrates} {policy : LeasePolicy}

/-- A claim that is over is not current under any token. -/
theorem fenced_of_over {d : Db} {id : ClaimId} {fencingToken now : ℤ} (h : Over d id) :
    Fenced d.workClaims id fencingToken now := by
  intro row hrow _ hforce
  obtain ⟨found, hfound, hrow⟩ := Option.bind_eq_some_iff.mp hrow
  have hid := List.find?_some hfound
  have hid' := List.find?_some hrow
  rw [decide_eq_true_eq] at hid hid'
  exact h.2 row (List.mem_of_find?_eq_some hrow) (hid'.trans hid) hforce.1

/-- A retry comes to the handler that the first attempt came to, or to none. -/
theorem call_of_repeats {first retry : Attempt} (h : Repeats first retry)
    (hfirst : first.call ≠ .unavailable) : retry.call = first.call ∨ retry.call = .unavailable := by
  unfold Attempt.call at hfirst ⊢
  rw [h.method, h.path]
  exact dispatchGoverned_authority hfirst

/-- What the first execution has left and what remains of the rest is the effect of the retry. -/
theorem spent_of_left {first retry : Attempt} {d : Db} (hleft : Left crates first d)
    (hservice : retry.verified.serviceId = first.verified.serviceId)
    (hrequestId : retry.verified.requestId = first.verified.requestId)
    (hcontent : Repeats first retry)
    (hremains : Remains crates retry.draws retry.request retry.verified (view d) retry.call) :
    Spent crates retry.draws retry.request retry.verified (view d) retry.call := by
  obtain ⟨hfirst, heffect⟩ := hleft
  rcases call_of_repeats hcontent hfirst with hcall | hcall
  swap
  · rw [hcall]
    trivial
  rw [← hcall] at heffect
  unfold Remains at hremains
  split at hremains
  · exact hremains.elim
  · rename_i claimId hcall
    rw [hcall] at heffect ⊢
    exact fun _ id dto hid _ => fenced_of_over (heffect id hid)
  · rename_i claimId hcall
    rw [hcall] at heffect ⊢
    exact fun _ id dto hid _ => fenced_of_over (heffect id hid)
  · rename_i id hcall
    rw [hcall] at heffect ⊢
    exact fun subscriptionId hid _ row hrow hrow' _ => (heffect subscriptionId hid).2 row hrow hrow'
  · rename_i hcall
    rw [hcall] at heffect ⊢
    intro hjson dto submitted hdto hsubmitted hpermits
    -- The request is accepted under the key that both attempts have.
    obtain ⟨a, ha, hkey⟩ := heffect
    refine ⟨⟨a, ha, ?_⟩, hremains hjson dto submitted hdto hsubmitted hpermits⟩
    rw [hkey, Handlers.key_of_intoRequest hsubmitted, hservice, hrequestId]
  · exact hremains

/-- What a request that was executed has left is there in the state in which it is repeated. -/
theorem Retried.left {d₀ : Db} (hpk : (d₀.workClaims.map WorkClaimRow.claimId).Nodup)
    {s : Postgres.State Db Write Key Op Result} {first retry : Attempt}
    (h : Retried crates policy d₀ s first retry) : Left crates first s.db := by
  have hinv := (contract_sound.reaches (C := contract crates policy)
    (fun _ _ _ _ _ _ _ _ _ _ _ => trivial) ⟨hpk, fun _ h => absurd h List.not_mem_nil⟩
    h.reaches).inv
  obtain ⟨e, he, hop, response, hresult, hsucceeds⟩ := h.executed
  exact hinv.2 e he first hop _ response hresult hsucceeds

end

/-- Retries leave the governed tables as they are, however many there are, in every state in which
what others may have undone of the effect remains. What nobody can have undone is there since the
first execution. -/
theorem retries_leave_governed (crates : MutationCrates) (policy : LeasePolicy) {d₀ : Db}
    (hpk : (d₀.workClaims.map WorkClaimRow.claimId).Nodup)
    {s : Postgres.State Db Write Key Op Result} {first : Attempt} {retries : List Attempt}
    (h : ∀ retry ∈ retries, Retried crates policy d₀ s first retry ∧
      Remains crates retry.draws retry.request retry.verified (view s.db) retry.call) :
    governed (mutateAll crates policy s.db retries) = governed s.db := by
  refine congrArg View.toGoverned (view_mutateAll fun retry hretry => ?_)
  obtain ⟨hretried, hremains⟩ := h retry hretry
  exact spent_of_left (hretried.left hpk) hretried.service hretried.requestId hretried.content
    hremains

/-! ## A publication and a release -/

/-- A database with an instance that holds a claim. -/
def oneHolder : Db :=
  { ReplayProtection.oneKey with
    admissions := [⟨⟨1⟩, true, 1, 5⟩]
    workClaims := [⟨⟨8⟩, ⟨6⟩, ⟨1⟩, ⟨2⟩, 1, .active, 10, 100⟩] }

/-- The text of a digest of zeros. -/
def exampleDigest : Str := List.replicate 43 'A'

/-- The body of a publication. -/
def examplePublication : List UInt8 :=
  Str.asBytes (Requests.exampleJson
    [("kind", .string "artifact".toList), ("name", .string "billing.invoice".toList),
      ("content_digest", .string exampleDigest)])

/-- The body of a release. -/
def exampleRelease : List UInt8 := Str.asBytes (Requests.exampleJson [("fencing_token", .number 1)])

/-- The crates, at these texts. -/
def exampleMutationCrates : MutationCrates where
  toHttpCrates :=
    { Requests.exampleHttpCrates with
      decodeUrlSafe := fun s => if s = exampleDigest then some (List.replicate 32 0) else none }
  renewRequest _ := none
  fencedActionRequest body := if body = exampleRelease then some ⟨1⟩ else none
  publishSchemaRequest body :=
    if body = examplePublication then some ⟨"artifact".toList, "billing.invoice".toList,
      exampleDigest⟩
    else none
  createSubscriptionRequest _ := none
  instanceRenewalRequest _ := none
  encodeUrlSafe bytes := if bytes = List.replicate 32 0 then exampleDigest else []
  verifyingKey _ := true

/-- What the instance posts to a path, with a nonce. -/
def examplePost (path : Str) (body : List UInt8) (nonceDigest : Bytes32) (n : ℕ) : Attempt where
  request := { Requests.exampleRetry with path, body }
  signed := ⟨⟨"POST".toList, "kernel".toList, "/".toList, "application/json".toList, body,
    5, by decide⟩,
    ⟨1⟩, ⟨2⟩, [], [], []⟩
  verified := ⟨⟨1⟩, ⟨2⟩, ⟨3⟩, 5, 10, 20, nonceDigest, .fill 8⟩
  admittedAt := 15
  authority := true
  draws :=
    { evaluator := Requests.exampleEvaluator, submission := Requests.exampleDraws 15
      schemaVersionId := ⟨BitVec.ofNat 128 n⟩, subscriptionId := ⟨BitVec.ofNat 128 n⟩
      claimId := ⟨BitVec.ofNat 128 n⟩, decidedAt := 15, now := 15 }

/-- The publication of a schema. -/
def examplePublish (nonceDigest : Bytes32) (n : ℕ) : Attempt :=
  examplePost "/v1/authority/schemas".toList examplePublication nonceDigest n

/-- The release of the claim. -/
def exampleReleaseOf (nonceDigest : Bytes32) (n : ℕ) : Attempt :=
  examplePost ("/v1/claims/".toList ++ Framing.hyphenated 8 ++ "/release".toList) exampleRelease
    nonceDigest n

/-- Once a request is executed, it can be repeated. -/
theorem retried_of_exec {crates : MutationCrates} {policy : LeasePolicy} {d₀ : Db}
    {first retry : Attempt} {status : String}
    (hresult : (((mutate crates policy first).exec store d₀ []).result.map
      fun r => (r.1, r.2.status)) = some (.fresh, status))
    (hstatus : status.toList.head? = some '2')
    (hverified : retry.verified = { first.verified with nonceDigest := retry.verified.nonceDigest })
    (hcontent : Repeats first retry)
    (hnonce : retry.verified.nonceDigest ≠ first.verified.nonceDigest) :
    ∃ s, Retried crates policy d₀ s first retry ∧
      s.db = ((mutate crates policy first).exec store d₀ []).db := by
  obtain ⟨⟨_, response⟩, hexec, hresponse⟩ := Option.map_eq_some_iff.mp hresult
  obtain ⟨rfl, rfl⟩ := Prod.mk.inj hresponse
  obtain ⟨s, hs, -, hdb, hlog⟩ := Postgres.System.exec_reaches
    (.init : (system crates policy).Reaches d₀ { db := d₀ }) rfl (.mutate first)
  refine ⟨s, ⟨hs, ⟨_, hlog ▸ List.mem_append_right _ (List.mem_singleton_self _), rfl, response,
    hexec, hstatus⟩, ?_, ?_, ?_, hcontent, hnonce⟩, hdb⟩ <;> rw [hverified]

/-- The claim is released, and its release is repeated. -/
theorem retries_leave_governed_release :
    ∃ s, Retried exampleMutationCrates examplePolicy oneHolder s
    (exampleReleaseOf (.fill 6) 20) (exampleReleaseOf (.fill 7) 21) ∧
      s.db.workClaims.map WorkClaimRow.status = [.released] ∧
      governed (mutateAll exampleMutationCrates examplePolicy s.db
        [exampleReleaseOf (.fill 7) 21]) = governed s.db := by
  have hfirst : (((mutate exampleMutationCrates examplePolicy (exampleReleaseOf (.fill 6) 20)).exec
      store oneHolder []).result.map fun r => (r.1, r.2.status)) = some (.fresh, "200 OK") := by
    decide +kernel
  obtain ⟨s, hretried, hdb⟩ := retried_of_exec hfirst (by decide)
    (show (exampleReleaseOf (.fill 7) 21).verified = _ from rfl) ⟨rfl, rfl, rfl, rfl⟩ (by decide)
  have hstatus : s.db.workClaims.map WorkClaimRow.status = [.released] := by
    rw [hdb]
    decide +kernel
  have hcall : (exampleReleaseOf (.fill 7) 21).call = .releaseClaimRoute
      (Framing.hyphenated 8) := by
    decide +kernel
  refine ⟨s, hretried, hstatus, @retries_leave_governed exampleMutationCrates examplePolicy
    oneHolder (by decide) s (exampleReleaseOf (.fill 6) 20) _ fun retry hretry => ?_⟩
  obtain rfl := List.mem_singleton.mp hretry
  refine ⟨hretried, ?_⟩
  rw [hcall]
  trivial

/-- A publication that is repeated makes another version. -/
theorem publication_repeated : ¬ ∀ (crates : MutationCrates) (policy : LeasePolicy) (d₀ : Db)
    (s : Postgres.State Db Write Key Op Result) (first retry : Attempt),
    Retried crates policy d₀ s first retry → ∀ response,
      ((mutate crates policy retry).exec store s.db []).result = some (.safeRetry, response) →
        governed ((mutate crates policy retry).exec store s.db []).db = governed s.db := by
  intro h
  have hfirst : (((mutate exampleMutationCrates examplePolicy (examplePublish (.fill 6) 20)).exec
      store oneHolder []).result.map fun r => (r.1, r.2.status)) =
      some (.fresh, "201 Created") := by
    decide +kernel
  obtain ⟨s, hretried, hdb⟩ := retried_of_exec hfirst (by decide)
    (show (examplePublish (.fill 7) 21).verified = _ from rfl) ⟨rfl, rfl, rfl, rfl⟩ (by decide)
  have hsafe : (((mutate exampleMutationCrates examplePolicy (examplePublish (.fill 7) 21)).exec
      store s.db []).result.map Prod.fst) = some .safeRetry := by
    rw [hdb]
    decide +kernel
  obtain ⟨⟨_, response⟩, hresult, rfl⟩ := Option.map_eq_some_iff.mp hsafe
  have hsame := congrArg (fun g => g.schemaVersions.length)
    (h _ _ _ s _ _ hretried response hresult)
  rw [hdb] at hsame
  exact absurd hsame (by decide +kernel)

end InfernalLaw.SafeRetries
