import InfernalLaw.Kernel.Basic

/-!
# Identifiers

Each kind of identifier is a type of its own around a UUID, as in the kernel's modules. `new` of the
source draws a random version 4 UUID; in the model the operation that needs a fresh identifier
carries it, and nothing is assumed about it.
-/

namespace InfernalLaw

/-- A service or worker identity. -/
structure ActorId where
  uuid : Uuid
  deriving DecidableEq

/-- What an identity is of. -/
inductive ActorKind where
  | service
  | worker
  deriving DecidableEq

/-- The lifecycle of an identity. -/
inductive IdentityStatus where
  | active
  | disabled
  deriving DecidableEq

/-- A running process of a service. -/
structure InstanceId where
  uuid : Uuid
  deriving DecidableEq

/-- The signing key of an instance. -/
structure KeyId where
  uuid : Uuid
  deriving DecidableEq

/-- A request, as its source service names it. -/
structure RequestId where
  uuid : Uuid
  deriving DecidableEq

/-- A request's route to one destination. -/
structure RouteId where
  uuid : Uuid
  deriving DecidableEq

/-- A service's interest in an event type. -/
structure SubscriptionId where
  uuid : Uuid
  deriving DecidableEq

/-- A worker's hold on a route. -/
structure ClaimId where
  uuid : Uuid
  deriving DecidableEq

/-- An administrator's grant. -/
structure GrantId where
  uuid : Uuid
  deriving DecidableEq

/-- A published schema version. -/
structure SchemaVersionId where
  uuid : Uuid
  deriving DecidableEq

/-- A recorded authority decision. -/
structure DecisionId where
  uuid : Uuid
  deriving DecidableEq

end InfernalLaw
