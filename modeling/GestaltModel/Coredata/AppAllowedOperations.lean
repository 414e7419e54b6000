import GestaltModel.Coredata.ObjectStore
import GestaltModel.Interleaving.Cell
import GestaltModel.Primitives.Time

namespace Coredata

open Interleaving

-- Permission changes. An operation without a key inherits its roles, and no roles disable it.
abbrev AppOperationPolicy := GoMap (List String)

-- The record of an app, with what its JSON texts decode to, if they do.
structure AppOperationsRecord where
  app : String
  operations : Option (GoMap (List String))
  removed : Option (List String)
  updatedAt : Int
  deriving DecidableEq

variable (policy : AppOperationPolicy)

namespace AppAllowedOperationsService

-- The loop over the removed operations, before the one over the operations with roles.
def decodedPolicy (operations : GoMap (List String)) (removed : List String) : AppOperationPolicy :=
  operations ∪ removed.foldl (fun policy id => policy.insert id []) ∅

-- `GetAppOperationPolicy`, when the store has returned the record of the app.
def getAppOperationPolicy : Option AppOperationsRecord → Except Failure AppOperationPolicy
  | none => .ok ∅
  | some rec =>
    match rec.operations, rec.removed with
    | none, _                        => .error ⟨"decode operation permissions", none⟩
    | some _, none                   => .error ⟨"decode removed operations", none⟩
    | some operations, some removed  => .ok (decodedPolicy operations removed)

def addRoles (operations : GoMap (List String)) (id : String) : GoMap (List String) :=
  match policy.lookup id with
  | none => operations
  | some [] => operations
  | some roles => operations.insert id roles

def withRoles : GoMap (List String) :=
  policy.sortedKeys.foldl (addRoles policy) ∅

def withoutRoles : List String :=
  policy.sortedKeys.filter (policy.lookup · = some [])

def policyRecord (app : String) (policy : AppOperationPolicy) (now : Int) : AppOperationsRecord where
  app := app
  operations := some (withRoles policy)
  removed := some (withoutRoles policy)
  updatedAt := Time.truncate Time.millisecond now

-- The part of `Patch` between the read and the write.
def patchRecord (app : String) (patch : AppOperationPolicy) (now : Int)
    (found : Option AppOperationsRecord) : Except Failure AppOperationsRecord := do
  let policy ← getAppOperationPolicy found
  return policyRecord app (patch ∪ policy) now

-- A call of `Patch`, with the time that it reads from the clock.
structure PatchCall where
  patch : AppOperationPolicy
  now : Int

-- An empty patch is a no-op.
def PatchCall.client (app : String) (call : PatchCall) :
    Option (Option AppOperationsRecord → Except Failure AppOperationsRecord) :=
  if call.patch = ∅ then none else some (patchRecord app call.patch call.now)

-- The calls of `Patch` for an app, whose record is the cell that they share.
def config (app : String) (calls : ι → PatchCall) (initial : Option AppOperationsRecord) :
    Config ι (Cell.Call AppOperationsRecord) (Cell.Response Failure) (Except Failure Unit)
      (Cell.Memory ι AppOperationsRecord) :=
  Cell.config (.wrap "get app operation policy") (fun i => (calls i).client app) initial

def serial (calls : ι → PatchCall) (order : List ι) (policy : AppOperationPolicy) :
    AppOperationPolicy :=
  order.foldl (fun policy i => (calls i).patch ∪ policy) policy

end AppAllowedOperationsService
end Coredata
