import GestaltModel.Coredata.RemoteRegistrations

namespace Coredata

open Interleaving RemoteRegistrationService

-- The stores and the clock. The rest is not visible: what a caller has last found as a
-- registration, whether it has sent a write while a registration was stored, and whether a request
-- of its has failed.
structure RemoteMemory (ι : Type) where
  clock : Int
  db : RemoteDB
  found : ι → String → Option RemoteRegistration
  wrote : ι → RemoteRegistration → Bool
  failed : ι → Bool

variable (s : RemoteMemory ι)

namespace RemoteMemory

-- The memory where nobody has begun, and where the stores can have any contents.
def start (clock : Int) (db : RemoteDB) : RemoteMemory ι where
  clock := clock
  db := db
  found _ _  := none
  wrote _ _  := false
  failed _   := false

def now : Int :=
  normalizedRemoteTime s.clock

def Stored (reg : RemoteRegistration) : Prop :=
  s.db.registrations.lookup reg.id = some reg

instance {s : RemoteMemory ι} {reg : RemoteRegistration} : Decidable (s.Stored reg) :=
  inferInstanceAs <| Decidable (_ = _)

-- The registration is gone, or it is still as the caller has last found it.
def Fresh (i : ι) (registrationID : String) : Prop :=
  ∀ reg, s.db.registrations.lookup registrationID = some reg → s.found i registrationID = some reg

instance {s : RemoteMemory ι} {i : ι} {registrationID : String} :
    Decidable (s.Fresh i registrationID) :=
  inferInstanceAs <| Decidable (∀ reg ∈ s.db.registrations.lookup registrationID, _)

-- The same for the registration of a provider, if there is such a provider.
def FreshProvider (i : ι) (id : String) : Prop :=
  ∀ row, s.db.providers.lookup id = some row → s.Fresh i row.registrationID

instance {s : RemoteMemory ι} {i : ι} {id : String} : Decidable (s.FreshProvider i id) :=
  inferInstanceAs <| Decidable (∀ row ∈ s.db.providers.lookup id, _)

end RemoteMemory

namespace RemoteCall

def Writes : RemoteCall → Prop
  | deleteRegistration _ => True
  | deleteProvider _ => True
  | commitReplacement _ _ _ => True
  | commitUpdate _ _ _ => True
  | _ => False

instance {c : RemoteCall} : Decidable c.Writes :=
  match c with
  | deleteRegistration _ | deleteProvider _ => .isTrue trivial
  | commitReplacement _ _ _ | commitUpdate _ _ _ => .isTrue trivial
  | now | registrationByOwner _ | getRegistration _ => .isFalse id
  | getProvider _ | providersByRegistration _ => .isFalse id

-- Reading the clock is no request, and cannot fail.
def IsRequest : RemoteCall → Prop
  | now => False
  | _ => True

instance {c : RemoteCall} : Decidable c.IsRequest :=
  match c with
  | now => .isFalse id
  | deleteRegistration _ | deleteProvider _ => .isTrue trivial
  | commitReplacement _ _ _ | commitUpdate _ _ _ => .isTrue trivial
  | registrationByOwner _ | getRegistration _ => .isTrue trivial
  | getProvider _ | providersByRegistration _ => .isTrue trivial

def stores : RemoteCall → Option RemoteRegistration
  | commitReplacement _ stored _ => some stored
  | commitUpdate _ _ reg => some reg
  | _ => none

-- The registrations that a caller has found, after one more call.
def note (db : RemoteDB) (found : String → Option RemoteRegistration) :
    RemoteCall → String → Option RemoteRegistration
  | registrationByOwner owner =>
    (db.registrationByOwner owner).elim found fun reg => Function.update found reg.id (some reg)
  | getRegistration id => Function.update found id (db.registrations.lookup id)
  | deleteRegistration id => Function.update found id none
  | _ => found

variable {ι : Type}

-- What is deleted or replaced belongs to a registration that is still as the caller has found it.
def fresh (i : ι) : RemoteCall → RemoteMemory ι → Prop
  | deleteRegistration id, s => s.Fresh i id
  | deleteProvider id, s => s.FreshProvider i id
  | commitReplacement _ stored rows, s =>
    s.Fresh i stored.id ∧ ∀ row ∈ rows, s.FreshProvider i row.id
  | commitUpdate _ _ reg, s => s.Fresh i reg.id
  | _, _ => True

instance {i : ι} {c : RemoteCall} {s : RemoteMemory ι} : Decidable (c.fresh i s) :=
  match c with
  | deleteRegistration _ => inferInstanceAs <| Decidable (s.Fresh ..)
  | deleteProvider _ => inferInstanceAs <| Decidable (s.FreshProvider ..)
  | commitReplacement _ _ _ => inferInstanceAs <| Decidable (_ ∧ _)
  | commitUpdate _ _ _ => inferInstanceAs <| Decidable (s.Fresh ..)
  | now | registrationByOwner _ | getRegistration _ => .isTrue trivial
  | getProvider _ | providersByRegistration _ => .isTrue trivial

-- Any request to the store can also fail.
def execute [DecidableEq ι] (i : ι) (c : RemoteCall) :
    Option Failure → RemoteMemory ι → RemoteMemory ι × c.Response
  | some f, s =>
    ({ s with failed := if c.IsRequest then Function.update s.failed i true else s.failed },
      c.fail f s.clock)
  | none, s =>
    ({ s with
        db    := (c.exec s.clock s.db).1
        found := Function.update s.found i (c.note s.db (s.found i))
        wrote :=
          if c.Writes then
            Function.update s.wrote i fun reg => s.wrote i reg || decide (s.Stored reg)
          else
            s.wrote },
      (c.exec s.clock s.db).2)

end RemoteCall

-- The environment lets the time pass.
@[reducible]
def remoteSemantics (ι : Type) [DecidableEq ι] :
    Semantics ι RemoteCall RemoteCall.Response (RemoteMemory ι) where
  Oracle := Option Failure
  Act := Nat
  exec i c o s := c.execute i o s
  act d s      := { s with clock := s.clock + d }

end Coredata
