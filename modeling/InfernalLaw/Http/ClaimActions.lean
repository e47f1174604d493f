import InfernalLaw.Http.OwnedRecords
import InfernalLaw.Kernel.ServiceRequests

/-!
# Actions on claims

The handlers that renew, release and complete a claim, and the part of `dispatch` that comes to them
with an admitted request. The request carries the identifier of the claim in its path, and the
fencing token in its body.
-/

namespace InfernalLaw

/-- `RenewRequest`. -/
structure RenewRequest where
  fencingToken : ℤ
  leaseSeconds : ℤ
  deriving DecidableEq

/-- `RenewRequest::lease_expires_at`. -/
def RenewRequest.leaseExpiresAt (dto : RenewRequest) (now : ℤ) : Option ℤ :=
  ClaimRequest.leaseExpiresAt ⟨dto.leaseSeconds⟩ now

/-- `FencedActionRequest`. -/
structure FencedActionRequest where
  fencingToken : ℤ
  deriving DecidableEq

/-- The functions of other crates that the handlers of claims use. -/
structure ClaimActionCrates extends HttpCrates where
  /-- `serde_json::from_slice`, for a renewal. -/
  renewRequest : List UInt8 → Option RenewRequest
  /-- `serde_json::from_slice`, for a release or a completion. -/
  fencedActionRequest : List UInt8 → Option FencedActionRequest

section

variable (crates : ClaimActionCrates)

/-- What a handler answers for a claim that its service has changed, or for its error. -/
def claimActionResponse (p : Sql (Except WorkClaimError WorkClaim)) : Sql Response :=
  p.bind fun
    | .ok claim => .done (jsonResponse crates.toHttpCrates "200 OK"
        (claim.toObject crates.toHttpCrates))
    | .error e => .done (workClaimErrorResponse crates.toHttpCrates e)

/-- `renew_claim_route`. -/
def renewClaimRoute (now : ℤ) (request : ParsedRequest) (claimId : Str) : Sql Response :=
  match crates.parseUuid claimId with
  | none => .done (errorResponse crates.toHttpCrates "400 Bad Request" .invalidWorkClaimRequest)
  | some claimId =>
    if request.isJson = false then
      .done (errorResponse crates.toHttpCrates "415 Unsupported Media Type"
        .invalidWorkClaimRequest)
    else
      match crates.renewRequest request.body with
      | none => .done (errorResponse crates.toHttpCrates "400 Bad Request" .invalidWorkClaimRequest)
      | some dto =>
        match dto.leaseExpiresAt now with
        | none => .done (errorResponse crates.toHttpCrates "400 Bad Request"
            .invalidWorkClaimRequest)
        | some leaseExpiresAt =>
          claimActionResponse crates
            (WorkClaimService.renew ⟨claimId⟩ dto.fencingToken leaseExpiresAt now)

/-- `parse_fenced_action`. -/
def parseFencedAction (claimId : Str) (request : ParsedRequest) :
    Except Response (ClaimId × FencedActionRequest) :=
  match crates.parseUuid claimId with
  | none => .error (errorResponse crates.toHttpCrates "400 Bad Request" .invalidWorkClaimRequest)
  | some claimId =>
    if request.isJson = false then
      .error (errorResponse crates.toHttpCrates "415 Unsupported Media Type"
        .invalidWorkClaimRequest)
    else
      match crates.fencedActionRequest request.body with
      | none => .error
          (errorResponse crates.toHttpCrates "400 Bad Request" .invalidWorkClaimRequest)
      | some dto => .ok (⟨claimId⟩, dto)

/-- `release_claim_route`. -/
def releaseClaimRoute (now : ℤ) (request : ParsedRequest) (claimId : Str) : Sql Response :=
  match parseFencedAction crates claimId request with
  | .error response => .done response
  | .ok (claimId, dto) =>
    claimActionResponse crates (WorkClaimService.release claimId dto.fencingToken now)

/-- `complete_claim_route`. -/
def completeClaimRoute (now : ℤ) (request : ParsedRequest) (claimId : Str) : Sql Response :=
  match parseFencedAction crates claimId request with
  | .error response => .done response
  | .ok (claimId, dto) =>
    claimActionResponse crates (WorkClaimService.complete claimId dto.fencingToken now)

/-- What `dispatch` does with an admitted request for an action on a claim. The verified identity of
the caller is at hand, and no handler takes it. -/
def dispatchClaims (now : ℤ) (request : ParsedRequest) (_verified : VerifiedServiceRequest) :
    Option (Sql Response) :=
  (Str.stripPrefix (request.path.takeWhile (· ≠ '?')) "/v1/claims/".toList).bind fun rest =>
    match Str.stripSuffix rest "/renew".toList with
    | some claimId => some (renewClaimRoute crates now request claimId)
    | none =>
      match Str.stripSuffix rest "/release".toList with
      | some claimId => some (releaseClaimRoute crates now request claimId)
      | none =>
        (Str.stripSuffix rest "/complete".toList).map (completeClaimRoute crates now request)

end

/-- What is parsed of a release or a completion. -/
theorem parseFencedAction_eq_ok {crates : ClaimActionCrates} {request : ParsedRequest}
    {claimId : Str} {id : ClaimId} {dto : FencedActionRequest}
    (h : parseFencedAction crates claimId request = .ok (id, dto)) :
    request.isJson = true ∧ crates.parseUuid claimId = some id.uuid ∧
      crates.fencedActionRequest request.body = some dto := by
  unfold parseFencedAction at h
  split at h
  · cases h
  rename_i id' hid
  split at h
  · cases h
  rename_i hjson
  rw [Bool.not_eq_false] at hjson
  split at h
  · cases h
  rename_i dto' hdto
  cases h
  exact ⟨hjson, hid, hdto⟩

end InfernalLaw
