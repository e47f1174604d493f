import InfernalLaw.Kernel.Identity
import InfernalLaw.Kernel.Names

/-!
# Subscriptions

A service's durable interest in an event type.
-/

namespace InfernalLaw

/-- How a subscription receives requests: there is only the inclusive mode, where every matching
subscription gets a route of its own. -/
inductive DeliveryMode where
  | inclusive
  deriving DecidableEq

/-- A subscription. The last field is what `Subscription::restore` checks. -/
structure Subscription where
  id : SubscriptionId
  serviceId : ActorId
  eventType : EventType
  deliveryMode : DeliveryMode
  createdAt : ℤ
  disabledAt : Option ℤ
  timestamps : 0 ≤ createdAt ∧ ∀ disabled ∈ disabledAt, createdAt ≤ disabled
  deriving DecidableEq

/-- What can go wrong with a subscription. -/
inductive SubscriptionError where
  | alreadyExists (id : SubscriptionId)
  | alreadyDisabled (id : SubscriptionId)
  | duplicateActive (serviceId : ActorId) (eventType : EventType)
  | invalidEventType
  | invalidSubscriptionId
  | invalidTimestamp
  | notFound (id : SubscriptionId)
  | repository (failure : Failure)
  | unknownService (id : ActorId)
  deriving DecidableEq

namespace Subscription

/-- `Subscription::restore`. -/
def restore (id : SubscriptionId) (serviceId : ActorId) (eventType : EventType)
    (deliveryMode : DeliveryMode) (createdAt : ℤ) (disabledAt : Option ℤ) :
    Except SubscriptionError Subscription :=
  if h : createdAt < 0 ∨ ∃ disabled ∈ disabledAt, disabled < createdAt then
    .error .invalidTimestamp
  else
    .ok
      { id, serviceId, eventType, deliveryMode, createdAt, disabledAt
        timestamps :=
          ⟨Int.not_lt.mp fun hlt => h (.inl hlt),
            fun disabled hd => Int.not_lt.mp fun hlt => h (.inr ⟨disabled, hd, hlt⟩)⟩ }

/-- What `Subscription::restore` builds has the given fields. -/
theorem restore_eq_ok {id : SubscriptionId} {serviceId : ActorId} {eventType : EventType}
    {deliveryMode : DeliveryMode} {createdAt : ℤ} {disabledAt : Option ℤ} {s : Subscription} :
    restore id serviceId eventType deliveryMode createdAt disabledAt = .ok s ↔
      s.id = id ∧ s.serviceId = serviceId ∧ s.eventType = eventType ∧
        s.deliveryMode = deliveryMode ∧ s.createdAt = createdAt ∧ s.disabledAt = disabledAt := by
  have htimestamps := s.timestamps
  unfold restore
  split
  · rename_i h
    simp only [reduceCtorEq, false_iff]
    rintro ⟨-, -, -, -, rfl, rfl⟩
    rcases h with h | ⟨disabled, hd, h⟩
    · omega
    · have := htimestamps.2 disabled hd
      omega
  · cases s
    simp [eq_comm]

/-- `Subscription::create`, with the identifier that it draws. -/
def create (id : SubscriptionId) (serviceId : ActorId) (eventType : EventType)
    (deliveryMode : DeliveryMode) (now : ℤ) : Except SubscriptionError Subscription :=
  restore id serviceId eventType deliveryMode now none

/-- `Subscription::is_active`. -/
def isActive (s : Subscription) : Bool := s.disabledAt.isNone

end Subscription

end InfernalLaw
