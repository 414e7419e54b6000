import GestaltModel.Coredata.RemoteLease
import GestaltModel.Coredata.RemoteOwnership

namespace Coredata

open Interleaving RemoteRegistrationService

-- The stores while nobody else uses them, and what the clock is going to show.
structure RemoteSession where
  readings : Nat → Int
  db : RemoteDB

namespace RemoteSession

-- Without failures of the store.
def handle (c : RemoteCall) (s : RemoteSession) : RemoteSession × c.Response :=
  ({ readings := if c.IsRequest then s.readings else fun n => s.readings (n + 1)
     db := (c.exec (s.readings 0) s.db).1 },
    (c.exec (s.readings 0) s.db).2)

end RemoteSession

namespace RemoteDB

inductive Reachable : RemoteDB → Prop
  | empty : Reachable {}
  | ownership {db} (operation : RemoteOwnership.Operation) (readings : Nat → Int) : Reachable db →
    Reachable (operation.program.eval RemoteSession.handle { readings, db }).1.db
  | lease {db} (operation : RemoteLease.Operation) (readings : Nat → Int) : Reachable db →
    Reachable (operation.program.eval RemoteSession.handle { readings, db }).1.db

def resolve (db : RemoteDB) (clock : Int) (kind name : String) :
    Except Failure (RemoteProvider × RemoteRegistration) :=
  ((resolveProvider kind name).eval RemoteSession.handle { readings := fun _ => clock, db }).2

end RemoteDB

namespace RemoteRejection

-- Nothing live at the time `clock` differs: active registrations have their generation and lease,
-- and providers are resolved to the same.
structure Unchanged (clock : Int) (db db' : RemoteDB) : Prop where
  active : ∀ id reg, db.registrations.lookup id = some reg →
    RegistrationActive reg (normalizedRemoteTime clock) →
    ∃ reg', db'.registrations.lookup id = some reg' ∧ reg'.generation = reg.generation ∧
      reg'.leaseExpiresAt = reg.leaseExpiresAt
  resolve : ∀ kind name t, clock ≤ t → db'.resolve t kind name = db.resolve t kind name

def ProviderOf (db : RemoteDB) (now : Int) (reg : RemoteRegistration) (provider : RemoteProvider) :
    Prop :=
  ∃ row, db.providers.lookup (remoteProviderID provider.providerKind provider.providerName) = some row ∧
    row.registrationID = reg.id ∧ db.registrations.lookup reg.id = some reg ∧ RegistrationActive reg now

def Resolvable (db : RemoteDB) (reg : RemoteRegistration) : Prop :=
  ∃ kind name row, normalizeKind kind ≠ "" ∧ Text.trimSpace name ≠ "" ∧
    db.providers.lookup (remoteProviderID (normalizeKind kind) (Text.trimSpace name)) = some row ∧
    row.registrationID = reg.id ∧ row.generation = reg.generation

-- The active registration that a rejected replacement has chosen: the owner's, without a new lease,
-- or somebody else's, by its id.
inductive Chosen (owner : String) (reg : RemoteRegistration) (expectedGeneration : UInt64)
    (now : Int) (db : RemoteDB) (chosen : RemoteRegistration) : Prop
  | own (owned : chosen.ownerSubjectID = Text.trimSpace owner)
    (generation : chosen.generation = expectedGeneration)
    (id : Text.trimSpace reg.id = "" ∨ Text.trimSpace reg.id = chosen.id)
    (lease : normalizedRemoteTime reg.leaseExpiresAt = 0)
  | foreign (absent : ∀ id other, db.registrations.lookup id = some other →
      other.ownerSubjectID = Text.trimSpace owner → ¬RegistrationActive other now)
    (generation : expectedGeneration = 0) (id : Text.trimSpace reg.id = chosen.id)
    (named : chosen.id ≠ "")

-- Accepted arguments, no provider of another active registration, and providers to lose.
def Exposed (owner : String) (reg : RemoteRegistration) (providers : List RemoteProvider)
    (expectedGeneration : UInt64) (clock : Int) (db : RemoteDB) : Prop :=
  validateReplace owner reg providers = .ok () ∧ ∃ chosen,
    db.registrations.lookup chosen.id = some chosen ∧
    RegistrationActive chosen (normalizedRemoteTime clock) ∧
    Chosen owner reg expectedGeneration (normalizedRemoteTime clock) db chosen ∧
    Resolvable db chosen ∧
    ∀ provider ∈ providers, ∀ other, ProviderOf db (normalizedRemoteTime clock) other provider →
      other = chosen

end RemoteRejection
end Coredata
