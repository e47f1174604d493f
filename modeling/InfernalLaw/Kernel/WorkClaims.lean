import InfernalLaw.Kernel.Identity

/-!
# Work claims

A work claim is one worker's hold on a route, for a lease, under a fencing token.
-/

namespace InfernalLaw

/-- A claim's state. Everything but `active` is final. -/
inductive WorkClaimStatus where
  | active
  | completed
  | released
  | expired
  deriving DecidableEq

/-- One worker's hold on a route. The last two fields are what `WorkClaim::restore` checks. -/
structure WorkClaim where
  id : ClaimId
  routeId : RouteId
  workerService : ActorId
  workerInstance : InstanceId
  fencingToken : ℤ
  status : WorkClaimStatus
  claimedAt : ℤ
  leaseExpiresAt : ℤ
  token_pos : 1 ≤ fencingToken
  lease_window : 0 ≤ claimedAt ∧ claimedAt < leaseExpiresAt
  deriving DecidableEq

/-- What can go wrong with a claim. -/
inductive WorkClaimError where
  | invalidClaimId
  | invalidFencingToken
  | invalidLease
  | invalidTimestamp
  | routeNotFound (id : RouteId)
  | alreadyClaimed (id : RouteId)
  | alreadyCompleted (id : RouteId)
  | notFound (id : ClaimId)
  | fenced
  | repository (failure : Failure)
  deriving DecidableEq

namespace WorkClaim

/-- `WorkClaim::restore`. -/
def restore (id : ClaimId) (routeId : RouteId) (workerService : ActorId)
    (workerInstance : InstanceId) (fencingToken : ℤ) (status : WorkClaimStatus)
    (claimedAt leaseExpiresAt : ℤ) : Except WorkClaimError WorkClaim :=
  if ht : fencingToken < 1 then .error .invalidFencingToken
  else if hl : claimedAt < 0 ∨ leaseExpiresAt ≤ claimedAt then .error .invalidLease
  else
    .ok
      { id, routeId, workerService, workerInstance, fencingToken, status, claimedAt, leaseExpiresAt
        token_pos := by omega
        lease_window := by omega }

/-- Whether the claim is the live hold on its route at `now`: an active claim whose lease has
lapsed is not. -/
def isCurrent (c : WorkClaim) (now : ℤ) : Bool :=
  decide (c.status = .active) && decide (now < c.leaseExpiresAt)

end WorkClaim

end InfernalLaw
