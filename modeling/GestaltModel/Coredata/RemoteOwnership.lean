import GestaltModel.Coredata.RemoteMemory
import Mathlib.Data.Fintype.Basic

namespace Coredata.RemoteOwnership

open Interleaving RemoteRegistrationService

inductive Operation
  | replace (owner : String) (reg : RemoteRegistration) (providers : List RemoteProvider)
    (expectedGeneration : UInt64)
  | delete (registrationID : String) (expectedGeneration : UInt64)
  | resolveProvider (kind name : String)

inductive Result
  | replaced (result : Except Failure RemoteRegistration)
  | deleted (result : Except Failure Unit)
  | resolved (result : Except Failure (RemoteProvider × RemoteRegistration))
  deriving DecidableEq

namespace Operation

def program : Operation → RemoteProgram Result
  | replace owner reg providers expectedGeneration => do
    return .replaced (← RemoteRegistrationService.replace owner reg providers expectedGeneration)
  | delete registrationID expectedGeneration => do
    return .deleted (← RemoteRegistrationService.delete registrationID expectedGeneration)
  | resolveProvider kind name => do
    return .resolved (← RemoteRegistrationService.resolveProvider kind name)

-- The operation is meant to replace or to remove the registration, at its generation.
def Targets : Operation → RemoteRegistration → Prop
  | replace owner _ _ expectedGeneration, reg =>
    reg.ownerSubjectID = Text.trimSpace owner ∧ reg.generation = expectedGeneration
  | delete registrationID expectedGeneration, reg =>
    reg.id = Text.trimSpace registrationID ∧ reg.generation = expectedGeneration
  | resolveProvider _ _, _ => False

instance {operation : Operation} {reg : RemoteRegistration} : Decidable (operation.Targets reg) :=
  match operation with
  | replace _ _ _ _ => inferInstanceAs <| Decidable (_ ∧ _)
  | delete _ _ => inferInstanceAs <| Decidable (_ ∧ _)
  | resolveProvider _ _ => .isFalse id

-- The providers that the operation stores with a registration.
def rows : Operation → RemoteRegistration → List RemoteProvider
  | replace _ _ providers _, stored =>
    providers.map (remoteProviderRecord · stored.id stored.generation)
  | _, _ => []

end Operation

variable {ι : Type}

def config (operations : ι → Operation) (clock : Int) (db : RemoteDB) :
    Config ι RemoteCall RemoteCall.Response Result (RemoteMemory ι) where
  mem := .start clock db
  prog i := (operations i).program

-- No operation meant to replace or to remove the registration has written while it was stored.
def Undisturbed (operations : ι → Operation) (reg : RemoteRegistration) (s : RemoteMemory ι) : Prop :=
  ∀ i, (operations i).Targets reg → s.wrote i reg = false

instance [Fintype ι] {operations : ι → Operation} {reg : RemoteRegistration} {s : RemoteMemory ι} :
    Decidable (Undisturbed operations reg s) :=
  inferInstanceAs <| Decidable (∀ _, _)

end Coredata.RemoteOwnership
