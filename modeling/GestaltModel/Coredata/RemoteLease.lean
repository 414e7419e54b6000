import GestaltModel.Coredata.RemoteMemory

namespace Coredata.RemoteLease

open Interleaving RemoteRegistrationService

inductive Operation
  | renewLease (registrationID : String) (generation : UInt64) (leaseDuration : Int)
  | recordCheckFailure (registrationID : String) (generation : UInt64) (lastError : String)
  | expire (registrationID : String) (generation : UInt64) (observedDeadline : Int)

inductive Result
  | updated (result : Except Failure RemoteRegistration)
  | expired (result : Except Failure Unit)
  deriving DecidableEq

namespace Operation

def program : Operation → RemoteProgram Result
  | renewLease registrationID generation leaseDuration => do
    return .updated (← RemoteRegistrationService.renewLease registrationID generation leaseDuration)
  | recordCheckFailure registrationID generation lastError => do
    return .updated
      (← RemoteRegistrationService.recordCheckFailure registrationID generation lastError)
  | expire registrationID generation observedDeadline => do
    return .expired (← RemoteRegistrationService.expire registrationID generation observedDeadline)

def Renews : Operation → Prop
  | renewLease _ _ _ => True
  | _ => False

instance {operation : Operation} : Decidable operation.Renews :=
  match operation with
  | renewLease _ _ _ => .isTrue trivial
  | recordCheckFailure _ _ _ | expire _ _ _ => .isFalse id

end Operation

variable {ι : Type}

def config (operations : ι → Operation) (clock : Int) (db : RemoteDB) :
    Config ι RemoteCall RemoteCall.Response Result (RemoteMemory ι) where
  mem := .start clock db
  prog i := (operations i).program

-- The executions where also no renewal gives a registration an earlier deadline than this one has.
def prolonging (operations : ι → Operation) (reg : RemoteRegistration) (i : ι) (c : RemoteCall)
    (s : RemoteMemory ι) : Prop :=
  c.fresh i s ∧ ((operations i).Renews → ∀ reg' ∈ c.stores, reg'.id = reg.id →
    reg.leaseExpiresAt ≤ reg'.leaseExpiresAt)

instance {operations : ι → Operation} {reg : RemoteRegistration} {i : ι} {c : RemoteCall}
    {s : RemoteMemory ι} : Decidable (prolonging operations reg i c s) :=
  inferInstanceAs <| Decidable (_ ∧ _)

-- What is active stays stored: a registration whose lease has not expired, with all its providers.
def KeepsActive (s s' : RemoteMemory ι) : Prop :=
  ∀ reg, s.Stored reg → RegistrationActive reg s.now →
    s'.db.registrations.lookup reg.id ≠ none ∧
    ∀ id row, s.db.providers.lookup id = some row → row.registrationID = reg.id →
      s'.db.providers.lookup id = some row

end Coredata.RemoteLease
