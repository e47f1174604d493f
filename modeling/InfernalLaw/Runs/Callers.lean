import InfernalLaw.Postgres.Guards
import InfernalLaw.Runs.Kernel

/-!
# What callers change

What an admitted request may change. A handler of claims commits what its call is for, and the claim
may be another service's. Everything that the other handlers write belongs to the verified caller.
-/

namespace InfernalLaw.Kernel

open Handlers
open Postgres.Proc

/-- The write is about a row of the caller's own. Claims are not among these rows: what is done to
them is `CommitsClaim`, which asks for the claim and its token, and not for the caller. -/
def Owned (v : VerifiedServiceRequest) : Write → Prop
  | .schemaVersions (.insert row) => row.ownerServiceId = v.serviceId
  | .decisions row => row.sourceServiceId = v.serviceId
  | .acceptedRequests row => row.key = (v.serviceId, ⟨v.requestId⟩)
  | .acceptanceAudit row => row.sourceServiceId = v.serviceId ∧ row.requestId = ⟨v.requestId⟩
  | .requestRoutes row => row.sourceServiceId = v.serviceId ∧ row.requestId = ⟨v.requestId⟩
  | .subscriptions w => w.row.serviceId = v.serviceId
  | .subscriptionAudit row => row.serviceId = v.serviceId
  | .serviceInstances (.update row) => row.instanceId = v.instanceId
  | .registryAudit row => row.instanceId = v.instanceId
  | _ => False

section

variable (crates : ServerCrates) (draws : ConnectionDraws) (request : ParsedRequest)
  (v : VerifiedServiceRequest)

/-- The handler that an admitted request comes to. -/
def governedCall : GovernedCall :=
  dispatchGoverned (policyEvaluatorFromEnv crates draws.evaluatorEnvironment).toOption.isSome
    request.method request.path

/-- What an admitted request commits: rows of the caller's own, or what its call does to claims. -/
def Performs (d : Db) (ws : List Write) : Prop :=
  (∀ w ∈ ws, Owned v w) ∨ CommitsClaim crates.toClaimActionCrates draws.claimId draws.now request v
    d (governedCall crates draws request) ws

end

section

variable {crates : ServerCrates} {app : Application} {draws : ConnectionDraws}
  {request : ParsedRequest} {v : VerifiedServiceRequest}

/-- What is done with an admitted request writes what is the caller's own, or it is what a handler
of claims does. -/
theorem own_or_claimHandler : Lawful (Owned v) (dispatchAdmitted crates app draws request v) ∨
    ClaimHandler crates.toClaimActionCrates draws.claimId draws.now request v
      (governedCall crates draws request) (dispatchAdmitted crates app draws request v) := by
  unfold dispatchAdmitted governedCall
  dsimp only
  -- Four handlers change claims, and every other one writes what is the caller's own.
  generalize policyEvaluatorFromEnv crates draws.evaluatorEnvironment = authority
  generalize dispatchGoverned authority.toOption.isSome request.method request.path = call
  cases call with
  | publishSchema => exact .inl (lawful_publishSchema fun _ h => h)
  | listEligibleRoutes => exact .inl lawful_listEligibleRoutes
  | claimRoute => exact .inr .claimRoute
  | findRoutedRequest => exact .inl lawful_findRoutedRequest
  | renewClaimRoute => exact .inr .renewClaimRoute
  | releaseClaimRoute => exact .inr .releaseClaimRoute
  | completeClaimRoute => exact .inr .completeClaimRoute
  | renewInstanceRoute => exact .inl (lawful_renewInstanceRoute (fun _ h => h) fun _ h => h)
  | unavailable => exact .inl Obeys.done
  | requestRoute call =>
    refine .inl ?_
    dsimp only
    split
    · exact Obeys.done
    · exact lawful_submitRequest (fun _ h => h) (fun _ h => h) (fun _ hs hr => ⟨hs, hr⟩)
        fun _ hs hr => ⟨hs, hr⟩
    · exact lawful_findRequest
    · exact Obeys.done
    · exact Obeys.done
  | subscriptionRoute call =>
    refine .inl ?_
    dsimp only
    split
    · exact Obeys.done
    · exact lawful_createSubscription (fun _ h => h) (fun _ h _ => h) fun _ h => h
    · exact lawful_listSubscriptions
    · exact lawful_disableSubscription (fun _ h => h) (fun _ h _ => h) fun _ h => h
    · exact Obeys.done
    · exact Obeys.done

/-- So what an admitted request writes is the caller's own, or a claim. -/
theorem lawful_dispatchAdmitted {W : Write → Prop} (hown : ∀ w, Owned v w → W w)
    (hclaims : ∀ w, W (.workClaims w)) : Lawful W
      (dispatchAdmitted crates app draws request v) := by
  rcases own_or_claimHandler with h | h
  · exact Lawful.mono hown h
  · exact h.lawful hclaims

end

end InfernalLaw.Kernel
