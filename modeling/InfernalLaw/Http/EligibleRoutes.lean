import InfernalLaw.Infrastructure.RouteRepository
import InfernalLaw.Infrastructure.WorkClaimRepository

/-!
# Eligible routes

`EligibleRouteQuery`: the routes of a destination that it could claim, from the routes and from the
claims on them.
-/

namespace InfernalLaw

/-- The failure that `EligibleRouteQuery` reports for an error of the work claims. -/
def WorkClaimError.failure : WorkClaimError → Failure
  | invalidClaimId => .kernel "claim ID must be a UUID"
  | invalidFencingToken => .kernel "fencing token must be a positive integer"
  | invalidLease => .kernel "claim lease window is invalid"
  | invalidTimestamp => .kernel "timestamp must not be negative"
  | routeNotFound id => .kernel s!"route {Uuid.display id.uuid} was not found"
  | alreadyClaimed id => .kernel s!"route {Uuid.display id.uuid} is already claimed"
  | alreadyCompleted id => .kernel s!"route {Uuid.display id.uuid} is already completed"
  | notFound id => .kernel s!"claim {Uuid.display id.uuid} was not found"
  | fenced => .kernel "fencing token does not match the current active claim"
  | repository failure => failure

/-- A call of the work claim service from the routes. -/
def orRequestError {β : Type} (p : Fallible WorkClaimError β) : Fallible RequestError β :=
  ExceptT.mk (p.run.bind fun r => .done (r.mapError fun e => .repository e.failure))

/-- `EligibleRouteQuery::eligible_for`. -/
def EligibleRouteQuery.eligibleFor (destinationService : ActorId) (now : ℤ) :
    Fallible RequestError (List Route) := do
  let routes ← PostgresRouteRepository.listForDestination destinationService
  let routeIds := routes.map Route.id
  let claimed ← orRequestError (WorkClaimService.activeRouteIds routeIds now)
  -- A completed route stays out for good, whatever the leases say.
  let completed ← orRequestError (WorkClaimService.completedRouteIds routeIds)
  return routes.filter fun route => route.id ∉ claimed ∧ route.id ∉ completed

end InfernalLaw
