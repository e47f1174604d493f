import InfernalLaw.Kernel.Identity
import InfernalLaw.Kernel.Names

/-!
# Identities

The identity of a service or a worker: its display name, which is trimmed and checked whenever it is
set, and its lifecycle.
-/

namespace InfernalLaw

/-- What can go wrong with an identity. -/
inductive IdentityError where
  | alreadyExists (id : ActorId)
  | disabled (id : ActorId)
  | invalidDisplayName
  | notFound (id : ActorId)
  | repository (failure : Failure)
  deriving DecidableEq

/-- The longest display name. -/
def maxDisplayNameLength : ℕ := 200

/-- What `validate_display_name` checks of the trimmed name. -/
def isValidDisplayName (displayName : Str) : Bool :=
  !displayName.isEmpty && decide (displayName.length ≤ maxDisplayNameLength)

/-- `validate_display_name`. -/
def validateDisplayName (displayName : Str) : Except IdentityError Str :=
  if isValidDisplayName displayName.trim then .ok displayName.trim else .error .invalidDisplayName

/-- A service or worker, under a name that was checked. -/
structure Identity where
  id : ActorId
  kind : ActorKind
  displayName : Str
  status : IdentityStatus
  displayName_valid : validateDisplayName displayName = .ok displayName
  deriving DecidableEq

namespace Identity

/-- A name that was checked is checked again without a change. -/
theorem validateDisplayName_of_eq_ok {displayName checked : Str}
    (h : validateDisplayName displayName = .ok checked) : validateDisplayName checked =
      .ok checked := by
  unfold validateDisplayName at h ⊢
  split at h
  · rename_i hvalid
    rw [← Except.ok.inj h, Str.trim_trim, if_pos hvalid]
  · cases h

/-- `Identity::restore`. -/
def restore (id : ActorId) (kind : ActorKind) (displayName : Str) (status : IdentityStatus) :
    Except IdentityError Identity :=
  match h : validateDisplayName displayName with
  | .ok checked =>
    .ok
      { id, kind, displayName := checked, status,
        displayName_valid := validateDisplayName_of_eq_ok h }
  | .error e => .error e

/-- `Identity::create`. -/
def create (id : ActorId) (kind : ActorKind) (displayName : Str) : Except IdentityError Identity :=
  restore id kind displayName .active

/-- `Identity::rename`. -/
def rename (i : Identity) (displayName : Str) : Except IdentityError Identity :=
  restore i.id i.kind displayName i.status

/-- `Identity::disable`. -/
def disable (i : Identity) : Identity := { i with status := .disabled }

/-- What `Identity::restore` builds. -/
theorem restore_eq_ok {id : ActorId} {kind : ActorKind} {displayName : Str}
    {status : IdentityStatus} {i : Identity} (h : restore id kind displayName status = .ok i) :
    i.id = id ∧ i.kind = kind ∧ validateDisplayName displayName = .ok i.displayName ∧
      i.status = status := by
  unfold restore at h
  split at h
  · rename_i checked hchecked
    rw [← Except.ok.inj h]
    exact ⟨rfl, rfl, hchecked, rfl⟩
  · cases h

end Identity

end InfernalLaw
