import InfernalLaw.Kernel.Identity

/-!
# Admission

Whether a service may communicate at all, as an administrator decides.
-/

namespace InfernalLaw

/-- What can go wrong with an admission. -/
inductive AdmissionError where
  | disabled (id : ActorId)
  | invalidStoredRecord
  | repository (failure : Failure)
  | unknownService (id : ActorId)
  deriving DecidableEq

/-- The admission of a service. The last field is what `CommunicationAdmission::restore` checks. -/
structure CommunicationAdmission where
  serviceId : ActorId
  enabled : Bool
  revision : ℤ
  updatedAt : ℤ
  nonneg : 0 ≤ revision ∧ 0 ≤ updatedAt
  deriving DecidableEq

/-- `CommunicationAdmission::restore`. -/
def CommunicationAdmission.restore (serviceId : ActorId) (enabled : Bool) (revision updatedAt : ℤ) :
    Except AdmissionError CommunicationAdmission :=
  if h : revision < 0 ∨ updatedAt < 0 then .error .invalidStoredRecord
  else .ok { serviceId, enabled, revision, updatedAt, nonneg := by omega }

end InfernalLaw
