import InfernalLaw.Infrastructure.AdmissionRepository
import InfernalLaw.Kernel.Identities

/-!
# The identity repository

`PostgresIdentityRepository` and `IdentityService` as processes over the database. The `INSERT`
fires the trigger that initialises the admission.
-/

namespace InfernalLaw

open Postgres (DbError require)
open Postgres.Proc (autocommit ensure orFail query update)

/-- `repository_error`. -/
def IdentityError.ofDatabase (e : DbError) : IdentityError := .repository (.database e)

/-- The row of an identity. -/
def Identity.row (i : Identity) : IdentityRow where
  id := i.id
  kind := i.kind
  displayName := i.displayName
  status := i.status

/-- `identity_from_row`. -/
def identityFromRow (row : IdentityRow) : Except IdentityError Identity :=
  Identity.restore row.id row.kind row.displayName row.status

/-- A change of an identity: the `CHECK` on the column. -/
def changeIdentity (new : IdentityRow) : Except DbError IdentityRow := do
  checkText new.displayName
  require (checkTrimmed 200 new.displayName) (.checkViolation "identities_display_name_check")
  return new

namespace PostgresIdentityRepository

/-- What the error of the `INSERT` means. -/
def ofInsert (id : ActorId) : DbError → IdentityError
  | .uniqueViolation _ => .alreadyExists id
  | e => .ofDatabase e

/-- `insert`, in a transaction that begins at `transactionTime`. -/
def insert (i : Identity) (transactionTime : ℤ) : Fallible IdentityError Unit :=
  orFail (ofInsert i.id) (callFunction (insertIdentity i.row transactionTime))

/-- `find`. -/
def find (id : ActorId) : Fallible IdentityError (Option Identity) := do
  let row ← orFail .ofDatabase
    (autocommit (query "SELECT id::text AS id, kind, display_name, status"
    fun d => d.identityRows.find? fun r => r.id = id))
  ensure (row.elim (.ok none) fun row => (identityFromRow row).map some)

/-- `save`. -/
def save (i : Identity) : Fallible IdentityError Unit := do
  let saved ← orFail .ofDatabase (autocommit (update "UPDATE identities SET kind"
    (fun d => d.identityRows.find? fun r => r.id = i.id)
    (fun row => .identity row.id)
    (fun d _ => d.identityRows.find? fun r => r.id = i.id)
    (fun _ _ => changeIdentity i.row)
    fun new => .identities (.update new)))
  if saved.isNone then throw (.notFound i.id) else return ()

end PostgresIdentityRepository

namespace IdentityService

/-- `create`, with the identifier that it draws. -/
def create (id : ActorId) (kind : ActorKind) (displayName : Str) (transactionTime : ℤ) :
    Fallible IdentityError Identity := do
  let identity ← ensure (Identity.create id kind displayName)
  let _ ← PostgresIdentityRepository.insert identity transactionTime
  return identity

/-- `find_required`. -/
def findRequired (id : ActorId) : Fallible IdentityError Identity := do
  let found ← PostgresIdentityRepository.find id
  ensure (found.elim (.error (.notFound id)) .ok)

/-- `rename`. -/
def rename (id : ActorId) (displayName : Str) : Fallible IdentityError Identity := do
  let identity ← findRequired id
  let identity ← ensure (identity.rename displayName)
  let _ ← PostgresIdentityRepository.save identity
  return identity

/-- `disable`. -/
def disable (id : ActorId) : Fallible IdentityError Identity := do
  let identity ← findRequired id
  let _ ← PostgresIdentityRepository.save identity.disable
  return identity.disable

end IdentityService

end InfernalLaw
