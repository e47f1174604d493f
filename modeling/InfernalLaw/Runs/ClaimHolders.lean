import InfernalLaw.Http.ClaimActions
import InfernalLaw.Runs.Retries
import InfernalLaw.Runs.WorkClaimRenewals

/-!
# Who acts on a claim

What a request to renew, release or complete a claim does in any reachable state. The handlers do
not compare the caller with the claim's worker: whoever presents the current fencing token of a
claim acts on it.
-/

namespace InfernalLaw

open Postgres (Outcome RowWrite State Store)

/-! ## Paths -/

/-- What a service can ask for one of its claims. -/
inductive ClaimAction where
  | renew
  | release
  | complete
  deriving DecidableEq

namespace ClaimAction

/-- What the path of the action ends in. -/
def suffix : ClaimAction → Str
  | .renew => "/renew".toList
  | .release => "/release".toList
  | .complete => "/complete".toList

/-- The path of the action on a claim. -/
def path (action : ClaimAction) (claimId : Str) : Str :=
  "/v1/claims/".toList ++ (claimId ++ action.suffix)

/-- The handler of the action. -/
def handler (crates : ClaimActionCrates) (now : ℤ) (request : ParsedRequest) (claimId : Str) :
    ClaimAction → Sql Response
  | .renew => renewClaimRoute crates now request claimId
  | .release => releaseClaimRoute crates now request claimId
  | .complete => completeClaimRoute crates now request claimId

end ClaimAction

/-- A request whose path is that of an action comes to the handler of the action, whoever the caller
is. -/
theorem dispatchClaims_eq {crates : ClaimActionCrates} {now : ℤ} {request : ParsedRequest}
    {verified : VerifiedServiceRequest} {action : ClaimAction} {claimId : Str}
    (hpath : request.path.takeWhile (· ≠ '?') = action.path claimId) :
    dispatchClaims crates now request verified =
      some (action.handler crates now request claimId) := by
  have hprefix : Str.stripPrefix (request.path.takeWhile (· ≠ '?')) "/v1/claims/".toList =
      some (claimId ++ action.suffix) := by
    rw [hpath]
    exact Str.stripPrefix_append _ _
  unfold dispatchClaims
  refine Option.bind_eq_some_iff.mpr ⟨_, hprefix, ?_⟩
  generalize hrenew : Str.stripSuffix (claimId ++ action.suffix) "/renew".toList = renewed
  generalize hrelease : Str.stripSuffix (claimId ++ action.suffix) "/release".toList = released
  generalize hcomplete : Str.stripSuffix (claimId ++ action.suffix) "/complete".toList = completed
  cases action with
  | renew =>
    obtain rfl : renewed = some claimId := hrenew.symm.trans (Str.stripSuffix_append _ _)
    rfl
  | release =>
    obtain rfl : renewed = none := hrenew.symm.trans (Str.stripSuffix_other (by decide) (by decide))
    obtain rfl : released = some claimId := hrelease.symm.trans (Str.stripSuffix_append _ _)
    rfl
  | complete =>
    obtain rfl : renewed = none := hrenew.symm.trans (Str.stripSuffix_other (by decide) (by decide))
    obtain rfl : released = none :=
      hrelease.symm.trans (Str.stripSuffix_other (by decide) (by decide))
    obtain rfl : completed = some claimId := hcomplete.symm.trans (Str.stripSuffix_append _ _)
    rfl

namespace WorkClaims

/-! ## Answers -/

section

variable {crates : ClaimActionCrates} {now : ℤ} {request : ParsedRequest} {d : Db} {c : WorkClaim}

/-- No error is answered with `200 OK`. -/
theorem status_errorResponse {status : String} (h : status ≠ "200 OK") (e : GovernedErrorResponse) :
    (errorResponse crates.toHttpCrates status e).status ≠ "200 OK" := by
  unfold errorResponse jsonResponse
  split
  · exact h
  · decide

/-- No error is answered with success. -/
theorem status_workClaimErrorResponse (e : WorkClaimError) :
    (workClaimErrorResponse crates.toHttpCrates e).status ≠ "200 OK" := by
  cases e <;> exact status_errorResponse (by decide) _

/-- A handler alone answers what the service has answered. -/
theorem exec_claimActionResponse (p : Sql (Except WorkClaimError WorkClaim)) :
    (claimActionResponse crates p).exec store d [] =
      ⟨(p.exec store d []).db, (p.exec store d []).pending,
        match (p.exec store d []).result with
        | .ok claim => jsonResponse crates.toHttpCrates "200 OK"
            (claim.toObject crates.toHttpCrates)
        | .error e => workClaimErrorResponse crates.toHttpCrates e⟩ := by
  rw [claimActionResponse, Postgres.Proc.exec_bind]
  cases (p.exec store d []).result <;> rfl

/-- The request changes nothing, and is not answered with `200 OK`. -/
def Refused (p : Sql Response) (d : Db) : Prop :=
  ∃ response, p.exec store d [] = ⟨d, [], response⟩ ∧ response.status ≠ "200 OK"

/-- The request changes the row of the claim. -/
def ActsOn (p : Sql Response) (d : Db) (c : WorkClaim) : Prop :=
  ∃ (c' : WorkClaim) (response : Response), c'.row.claimId = c.row.claimId ∧ c'.row ≠ c.row ∧
    p.exec store d [] = ⟨store.view d [.workClaims (.update c'.row)], [], response⟩

/-- A repository that fails without a write has its call refused. -/
theorem refused_error {p : Sql (Except WorkClaimError WorkClaim)} {e : WorkClaimError}
    (h : p.exec store d [] = ⟨d, [], .error e⟩) : Refused (claimActionResponse crates p) d := by
  refine ⟨workClaimErrorResponse crates.toHttpCrates e, ?_, status_workClaimErrorResponse e⟩
  rw [exec_claimActionResponse, h]

/-- So has an error that is answered at once. -/
theorem refused_done {status : String} (h : status ≠ "200 OK") (e : GovernedErrorResponse) :
    Refused (.done (errorResponse crates.toHttpCrates status e)) d :=
  ⟨_, rfl, status_errorResponse h e⟩

/-- A repository that takes the claim on has its call act on the claim. -/
theorem actsOn_ok {p : Sql (Except WorkClaimError WorkClaim)} {c' : WorkClaim}
    (hid : c'.row.claimId = c.row.claimId) (hne : c'.row ≠ c.row)
    (h : p.exec store d [] = ⟨store.view d [.workClaims (.update c'.row)], [], .ok c'⟩) :
    ActsOn (claimActionResponse crates p) d c := by
  refine ⟨c', jsonResponse crates.toHttpCrates "200 OK" (c'.toObject crates.toHttpCrates),
    hid, hne, ?_⟩
  rw [exec_claimActionResponse, h]

/-! ## What a request presents -/

/-- A request for an action presents the claim in this row: it is well formed, its fencing token is
that of the claim, which is current, and a renewal asks for a longer lease. Nothing in it is about
the caller. -/
def Presents (crates : ClaimActionCrates) (now : ℤ) (request : ParsedRequest) (r : WorkClaimRow) :
    ClaimAction → Prop
  | .renew => 0 ≤ now ∧ request.isJson = true ∧ ∃ dto, crates.renewRequest request.body = some dto ∧
      ∃ leaseExpiresAt, dto.leaseExpiresAt now = some leaseExpiresAt ∧
        Held r dto.fencingToken now ∧ r.leaseExpiresAt < leaseExpiresAt
  | .release | .complete => 0 ≤ now ∧ request.isJson = true ∧
      ∃ dto, crates.fencedActionRequest request.body = some dto ∧ Held r dto.fencingToken now

/-- A lease that a request asks for ends after the clock's time. -/
theorem lt_of_leaseExpiresAt {dto : RenewRequest} {leaseExpiresAt : ℤ}
    (h : dto.leaseExpiresAt now = some leaseExpiresAt) : now < leaseExpiresAt := by
  unfold RenewRequest.leaseExpiresAt ClaimRequest.leaseExpiresAt at h
  simp only [Option.ite_none_right_eq_some, Option.some.injEq] at h
  omega

/-- A renewal acts on the claim, or is refused. -/
theorem renew_cases {claimId : Str}
    (hfind : d.workClaims.find? (fun r => r.claimId = c.id) = some c.row)
    (hparse : crates.parseUuid claimId = some c.id.uuid) :
    Presents crates now request c.row .renew ∧
        ActsOn (renewClaimRoute crates now request claimId) d c ∨
      ¬ Presents crates now request c.row .renew ∧
        Refused (renewClaimRoute crates now request claimId) d := by
  unfold renewClaimRoute Presents
  simp only [hparse]
  by_cases hjson : request.isJson = false
  · rw [if_pos hjson]
    exact .inr ⟨by simp [hjson], refused_done (by decide) _⟩
  rw [if_neg hjson]
  rw [Bool.not_eq_false] at hjson
  cases hbody : crates.renewRequest request.body with
  | none => exact .inr ⟨by simp, refused_done (by decide) _⟩
  | some dto =>
    dsimp only
    cases hend : dto.leaseExpiresAt now with
    | none =>
      refine .inr ⟨?_, refused_done (by decide) _⟩
      rintro ⟨-, -, dto', hdto', _, hend', -⟩
      obtain rfl := Option.some.inj hdto'
      cases hend.symm.trans hend'
    | some leaseExpiresAt =>
      have hlater := lt_of_leaseExpiresAt hend
      -- What the request asks for is determined.
      have hpresents : (0 ≤ now ∧ request.isJson = true ∧ ∃ dto', some dto = some dto' ∧
          ∃ leaseExpiresAt, dto'.leaseExpiresAt now = some leaseExpiresAt ∧
            Held c.row dto'.fencingToken now ∧ c.row.leaseExpiresAt < leaseExpiresAt) ↔
          0 ≤ now ∧ Held c.row dto.fencingToken now ∧ c.row.leaseExpiresAt < leaseExpiresAt := by
        simp [hjson, hend]
      rw [hpresents]
      dsimp only
      unfold WorkClaimService.renew
      by_cases hnow : now < 0
      · rw [if_pos (.inl hnow)]
        exact .inr ⟨by omega, refused_error rfl⟩
      rw [if_neg (by omega)]
      by_cases hheld : Held c.row dto.fencingToken now
      · rcases lt_or_ge c.leaseExpiresAt leaseExpiresAt with hlonger | hshorter
        · obtain ⟨c', hrow, hexec⟩ := exec_renew_extended hfind hheld hlonger
          refine .inl ⟨⟨by omega, hheld, hlonger⟩, actsOn_ok (by rw [hrow]) (fun heq => ?_) hexec⟩
          have hsame := congrArg WorkClaimRow.leaseExpiresAt (hrow.symm.trans heq)
          exact hlonger.ne hsame.symm
        · refine .inr ⟨fun h => ?_, refused_error (exec_renew_refused hfind hheld hshorter)⟩
          exact absurd h.2.2 (not_lt.mpr hshorter)
      · exact .inr ⟨fun h => hheld h.2.1, refused_error (exec_changeLocked_fenced hfind hheld)⟩

/-- A release or a completion acts on the claim, or is refused. -/
theorem transition_cases {claimId : Str} {status : WorkClaimStatus} (hstatus : status ≠ .active)
    {serve : ClaimId → ℤ → Sql (Except WorkClaimError WorkClaim)}
    (hserve : ∀ id token, serve id token = if now < 0 then .done (.error .invalidLease)
      else PostgresWorkClaimRepository.transition id token now status)
    (hfind : d.workClaims.find? (fun r => r.claimId = c.id) = some c.row)
    (hparse : crates.parseUuid claimId = some c.id.uuid) {p : Sql Response}
    (hp : p = match parseFencedAction crates claimId request with
      | .error response => .done response
      | .ok (claimId, dto) => claimActionResponse crates (serve claimId dto.fencingToken)) :
    Presents crates now request c.row .release ∧ ActsOn p d c ∨
      ¬ Presents crates now request c.row .release ∧ Refused p d := by
  subst hp
  unfold parseFencedAction Presents
  simp only [hparse]
  -- Each check of the handler is one of what it takes to present the claim's token.
  by_cases hjson : request.isJson = false
  · rw [if_pos hjson]
    exact .inr ⟨by simp [hjson], refused_done (by decide) _⟩
  rw [if_neg hjson]
  rw [Bool.not_eq_false] at hjson
  cases hbody : crates.fencedActionRequest request.body with
  | none => exact .inr ⟨by simp, refused_done (by decide) _⟩
  | some dto =>
    have hpresents : (0 ≤ now ∧ request.isJson = true ∧ ∃ dto', some dto = some dto' ∧
        Held c.row dto'.fencingToken now) ↔ 0 ≤ now ∧ Held c.row dto.fencingToken now := by
      simp [hjson]
    rw [hpresents]
    dsimp only
    rw [hserve]
    by_cases hnow : now < 0
    · rw [if_pos hnow]
      exact .inr ⟨by omega, refused_error rfl⟩
    rw [if_neg hnow]
    -- The token and the lease decide, and the change of the status is seen in the row.
    by_cases hheld : Held c.row dto.fencingToken now
    · obtain ⟨c', hrow, hexec⟩ := exec_transition hfind hheld hstatus
      refine .inl ⟨⟨by omega, hheld⟩, actsOn_ok (by rw [hrow]) (fun heq => ?_) hexec⟩
      have hsame := congrArg WorkClaimRow.status (hrow.symm.trans heq)
      exact hstatus (hsame.trans hheld.2.1)
    · exact .inr ⟨fun h => hheld h.2, refused_error (exec_changeLocked_fenced hfind hheld)⟩

variable (now request) in
/-- A request acts on the claim that it presents, and is refused otherwise. -/
theorem action_cases (action : ClaimAction) {claimId : Str}
    (hfind : d.workClaims.find? (fun r => r.claimId = c.id) = some c.row)
    (hparse : crates.parseUuid claimId = some c.id.uuid) :
    Presents crates now request c.row action ∧
        ActsOn (action.handler crates now request claimId) d c ∨
      ¬ Presents crates now request c.row action ∧
        Refused (action.handler crates now request claimId) d := by
  cases action with
  | renew => exact renew_cases hfind hparse
  | release =>
    have hstatus : WorkClaimStatus.released ≠ .active := by decide
    exact transition_cases hstatus (fun _ _ => rfl) hfind hparse rfl
  | complete =>
    have hstatus : WorkClaimStatus.completed ≠ .active := by decide
    exact transition_cases hstatus (fun _ _ => rfl) hfind hparse rfl

end

/-! ## Who acts on a claim -/

/-- The claim's row is left as it is, and the answer is not `200 OK`. -/
def Spared (r : WorkClaimRow) (o : Outcome Db Write Response) : Prop :=
  r ∈ o.db.workClaims ∧ o.result.status ≠ "200 OK"

/-- Whoever the caller is, a request for an action on a claim spares it exactly if it does not
present it. -/
theorem spared_iff {d₀ : Db} (h₀ : d₀.workClaims = []) {s : State Db Write Key Op Result}
    (hs : system.Reaches d₀ s) (crates : ClaimActionCrates) (now : ℤ) (request : ParsedRequest)
    (verified : VerifiedServiceRequest) {r : WorkClaimRow} (hr : r ∈ s.db.workClaims)
    {claimId : Str} (hparse : crates.parseUuid claimId = some r.claimId.uuid) (action : ClaimAction)
    (hpath : request.path.takeWhile (· ≠ '?') = action.path claimId) :
    ∃ p, dispatchClaims crates now request verified = some p ∧
      (Spared r (p.exec store s.db []) ↔ ¬ Presents crates now request r action) := by
  refine ⟨_, dispatchClaims_eq hpath, ?_⟩
  have hpk := (holds h₀ hs).inv.nodup_id
  obtain ⟨c, rfl⟩ := readable h₀ hs r hr
  have hfind := RowWrite.find_eq_some hpk hr (show c.row.claimId = c.id from rfl)
  rcases action_cases now request action hfind hparse with
    ⟨hpresents, c', response, hid, hne, hexec⟩ | ⟨hnot, response, hexec, hstatus⟩
  · rw [hexec]
    refine iff_of_false (fun h => ?_) (not_not.mpr hpresents)
    rcases (RowWrite.mem_update hr hid.symm).mp h.1 with heq | ⟨-, hother⟩
    · exact hne heq.symm
    · exact hother hid.symm
  · rw [hexec]
    exact iff_of_true ⟨hr, hstatus⟩ hnot

/-! ## A stranger -/

/-- The body of a request with the fencing token 1. -/
def exampleToken : List UInt8 := Str.asBytes (Requests.exampleJson [("fencing_token", .number 1)])

/-- The crates, at this body. -/
def exampleClaimCrates : ClaimActionCrates where
  toHttpCrates := Requests.exampleHttpCrates
  renewRequest _ := none
  fencedActionRequest body := if body = exampleToken then some ⟨1⟩ else none

/-- A request to complete the claim 6. -/
def exampleCompletion : ParsedRequest :=
  { Requests.exampleRetry with
    path := ClaimAction.complete.path (Framing.hyphenated 6)
    body := exampleToken }

/-- A caller that is not the claim's worker. -/
def exampleStranger : VerifiedServiceRequest where
  serviceId := ⟨9⟩
  instanceId := ⟨10⟩
  keyId := ⟨11⟩
  requestId := 12
  created := 14
  expires := 16
  nonceDigest := .fill 0
  requestFingerprint := .fill 0

/-- The claim 6, as service 1 has it. -/
def exampleHeld : WorkClaimRow := ⟨⟨6⟩, ⟨3⟩, ⟨1⟩, ⟨2⟩, 1, .active, 10, 20⟩

/-- Its path. -/
theorem exampleCompletion_path : exampleCompletion.path.takeWhile (· ≠ '?') =
    ClaimAction.complete.path (Framing.hyphenated 6) := by decide +kernel

/-- The claim's identifier in the example's path is read. -/
theorem exampleClaimCrates_parse :
    exampleClaimCrates.parseUuid (Framing.hyphenated 6) = some exampleHeld.claimId.uuid :=
  exampleReadingCrates_roundTrips.parseUuid 6

/-- The claim of service 1 is there. -/
theorem reaches_held : ∃ s, system.Reaches oneRoute s ∧ s.db.workClaims = [exampleHeld] := by
  obtain ⟨s, hs, -, hdb, -⟩ := Postgres.System.exec_reaches
    (.init : system.Reaches oneRoute { db := oneRoute }) rfl
    (.claim ⟨6⟩ ⟨3⟩ ⟨1⟩ ⟨2⟩ 20 10)
  refine ⟨s, hs, ?_⟩
  rw [hdb]
  decide

/-- The stranger's request spares the claim if it does not present it. -/
theorem spared_iff_stranger : ∃ s, system.Reaches oneRoute s ∧ ∃ p,
    dispatchClaims exampleClaimCrates 15 exampleCompletion exampleStranger = some p ∧
      (Spared exampleHeld (p.exec store s.db []) ↔
        ¬ Presents exampleClaimCrates 15 exampleCompletion exampleHeld .complete) := by
  obtain ⟨s, hs, hrows⟩ := reaches_held
  exact ⟨s, hs, spared_iff rfl hs exampleClaimCrates 15 exampleCompletion exampleStranger
    (by rw [hrows]; exact List.mem_singleton_self _) exampleClaimCrates_parse .complete
    exampleCompletion_path⟩

/-- A stranger completes the claim, with the token that any first claim has. -/
theorem stranger_completes :
    ¬ ∀ s, system.Reaches oneRoute s → ∀ (crates : ClaimActionCrates) (now : ℤ)
    (request : ParsedRequest) (verified : VerifiedServiceRequest), ∀ r ∈ s.db.workClaims,
    ∀ (claimId : Str) (action : ClaimAction), crates.parseUuid claimId = some r.claimId.uuid →
      request.path.takeWhile (· ≠ '?') = action.path claimId →
      verified.serviceId ≠ r.workerServiceId →
      ∃ p, dispatchClaims crates now request verified = some p ∧
      Spared r (p.exec store s.db []) := by
  intro h
  obtain ⟨s, hs, hrows⟩ := reaches_held
  obtain ⟨p, hp, hspared, -⟩ :=
    h s hs exampleClaimCrates 15 exampleCompletion exampleStranger exampleHeld
    (by rw [hrows]; exact List.mem_singleton_self _) _ .complete exampleClaimCrates_parse
    exampleCompletion_path (by decide)
  rw [dispatchClaims_eq exampleCompletion_path] at hp
  obtain rfl := Option.some.inj hp
  have hfind : s.db.workClaims.find? (fun r => r.claimId = ⟨6⟩) = some exampleHeld := by
    rw [hrows]
    decide
  let c : WorkClaim := ⟨⟨6⟩, ⟨3⟩, ⟨1⟩, ⟨2⟩, 1, .active, 10, 20, by decide, by decide⟩
  rcases action_cases (c := c) 15 exampleCompletion .complete hfind exampleClaimCrates_parse with
    ⟨-, c', response, hid, hne, hexec⟩ | ⟨hnot, -⟩
  · rw [hexec] at hspared
    have hmem : c.row ∈ s.db.workClaims := List.mem_of_find?_eq_some hfind
    rcases (RowWrite.mem_update hmem hid.symm).mp hspared with heq | ⟨-, hother⟩
    · exact hne heq.symm
    · exact hother hid.symm
  · have htoken : exampleClaimCrates.fencedActionRequest exampleCompletion.body = some ⟨1⟩ := by
      decide +kernel
    exact hnot ⟨by decide, by decide +kernel, ⟨1⟩, htoken, rfl, rfl, by decide⟩

end WorkClaims

end InfernalLaw
