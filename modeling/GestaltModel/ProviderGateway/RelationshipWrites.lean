import Mathlib.Data.Finset.Basic
import GestaltModel.Invocation.AccessCheck
import GestaltModel.Primitives.Failure

-- Public requests that write authorization relationships.
namespace ProviderGateway

open Authorization Invocation

-- Messages as they are received, where each part can be missing.
inductive RelationshipTarget
  | missing
  | subject (subject : Subject)
  | resource (resource : Resource)
  | subjectSet (resource : Option Resource) (relation : String)
  deriving DecidableEq, Repr

structure RelationshipTuple where
  target : RelationshipTarget
  relation : String
  resource : Option Resource
  deriving DecidableEq, Repr

namespace RelationshipTuple

-- The fields of a tuple without the space around them, which all checks look at.
def resourceType (tuple : RelationshipTuple) : String :=
  Text.trimSpace ((tuple.resource.map Resource.type).getD "")

def resourceID (tuple : RelationshipTuple) : String :=
  Text.trimSpace ((tuple.resource.map Resource.id).getD "")

def relationName (tuple : RelationshipTuple) : String :=
  Text.trimSpace tuple.relation

end RelationshipTuple

inductive Operation
  | unspecified
  | create
  | touch
  | delete
  deriving DecidableEq, Repr

-- A relationship is given by its tuple here.
structure RelationshipUpdate where
  operation : Operation
  relationship : Option (Option RelationshipTuple)
  deriving DecidableEq, Repr

inductive Request
  | addRelationship (relationship : Option (Option RelationshipTuple))
  | deleteRelationship (tuple : Option RelationshipTuple)
  | writeRelationships (updates : List (Option RelationshipUpdate))
  | other (method : String)
  deriving DecidableEq, Repr

def Request.method : Request → String
  | addRelationship _ => "AddRelationship"
  | deleteRelationship _ => "DeleteRelationship"
  | writeRelationships _ => "WriteRelationships"
  | other method => method

inductive EnforcementPolicy
  | globalRead
  | globalAdminWrite
  | relationshipWrite
  deriving DecidableEq, Repr

def authorizationMethodEnforcementPolicy (method : String) : Option EnforcementPolicy :=
  if method ∈ ["GetActiveModelRef", "ListActiveModelResourceTypes", "ListRelationships",
      "CheckAccess", "CheckAccessMany"] then
    some .globalRead
  else if method ∈ ["SetActiveModel", "SetAuthorizationState"] then
    some .globalAdminWrite
  else if method ∈ ["AddRelationship", "DeleteRelationship", "WriteRelationships"] then
    some .relationshipWrite
  else
    none

structure Gateway where
  authorization : Evaluator
  scimManagedGroupIDs : Finset String

section Checks

variable (g : Gateway) (subjectID : String)

def checkSubjectAccess (req : CheckAccessRequest) : Except Failure Bool := do
  return (← g.authorization.checkAccess req).elim false CheckAccessResponse.allowed

def authorizationPublicActions (read write : Bool) : List String :=
  if write then ["admin", "authorization"]
  else if read then ["viewer", "admin", "authorization"]
  else []

-- Whether one of the actions is allowed, where an error ends the search.
def anyActionAllowed : List String → Except Failure Bool
  | [] => .ok false
  | action :: actions => do
    let resource := some { type := "authorization", id := "authorization" }
    if ← checkSubjectAccess g (subjectAccessRequest subjectID action resource) then
      return true
    else
      anyActionAllowed actions

def hasAuthorizationPublicAdminAccess (read write : Bool) : Except Failure Bool :=
  anyActionAllowed g subjectID (authorizationPublicActions read write)

-- Whether the caller has the role of an admin on a resource.
def isResourceAdmin (type id : String) : Except Failure Bool := do
  let decision ← checkResourceAccess (some g.authorization) {
    subjectID
    action := id
    resource := some { type, id }
    allowedRoles := ["admin"]
  }
  return decision.allowed ∧ decision.role = "admin"

def isScimManagedGroup (groupID : String) : Bool :=
  Text.trimSpace groupID ∈ g.scimManagedGroupIDs

variable (tuple : RelationshipTuple)

def relationshipTupleHasDirectSubjectTarget : Bool :=
  match tuple.target with
  | .subject subject => Text.trimSpace subject.id ≠ ""
  | _ => false

def relationshipTupleHasDelegableTarget : Bool :=
  match tuple.target with
  | .subject _ => relationshipTupleHasDirectSubjectTarget tuple
  | .subjectSet resource _ =>
    Text.trimSpace ((resource.map Resource.type).getD "") ≠ "" ∧
      Text.trimSpace ((resource.map Resource.id).getD "") ≠ ""
  | _ => false

def isGroupMemberRelationshipTuple : Bool :=
  tuple.resourceType = "group" ∧ tuple.relationName = "member"

def isAppScopedRelationshipTuple : Bool :=
  tuple.resourceType = "app"

def isAppBootstrapRelationshipTuple : Bool :=
  tuple.resourceType = "app" ∧ tuple.relationName = "admin"

def allowsGroupScopedRelationshipMutation : Except Failure Bool :=
  if ¬isGroupMemberRelationshipTuple tuple then
    .ok false
  else if ¬relationshipTupleHasDirectSubjectTarget tuple then
    .ok false
  else if tuple.resourceID = "" then
    .ok false
  else if isScimManagedGroup g tuple.resourceID then
    .ok false
  else
    isResourceAdmin g subjectID "group" tuple.resourceID

def allowsAppScopedRelationshipMutation : Except Failure Bool :=
  if ¬isAppScopedRelationshipTuple tuple then
    .ok false
  else if tuple.resourceID = "" then
    .ok false
  else if tuple.relationName = "" then
    .ok false
  else if ¬relationshipTupleHasDelegableTarget tuple then
    .ok false
  else
    isResourceAdmin g subjectID "app" tuple.resourceID

-- A missing tuple is neither one of an app nor one of a group.
def allowsRelationshipTupleWrite (globalAdmin : Bool) :
    Option RelationshipTuple → Except Failure Bool
  | none => .ok globalAdmin
  | some tuple =>
    if isGroupMemberRelationshipTuple tuple then
      allowsGroupScopedRelationshipMutation g subjectID tuple
    else if ¬isAppScopedRelationshipTuple tuple then
      .ok globalAdmin
    else if globalAdmin ∧ isAppBootstrapRelationshipTuple tuple then
      .ok true
    else
      allowsAppScopedRelationshipMutation g subjectID tuple

-- The tuples that are checked. Updates without a tuple are skipped.
def relationshipTuplesFromAuthorizationRequest : Request → List (Option RelationshipTuple)
  | .addRelationship relationship => relationship.toList
  | .deleteRelationship tuple => (tuple.map some).toList
  | .writeRelationships updates => updates.filterMap fun update =>
    (update.bind fun update => update.relationship.join).map some
  | .other _ => []

def allowsTuples (globalAdmin : Bool) : List (Option RelationshipTuple) → Except Failure Bool
  | [] => .ok true
  | tuple :: tuples => do
    if ← allowsRelationshipTupleWrite g subjectID globalAdmin tuple then
      allowsTuples globalAdmin tuples
    else
      return false

def allowsRelationshipWriteAccess (req : Request) (globalAdmin : Bool) : Except Failure Bool :=
  let tuples := relationshipTuplesFromAuthorizationRequest req
  if tuples = [] then .ok globalAdmin else allowsTuples g subjectID globalAdmin tuples

end Checks

def unavailable : Failure → StatusError :=
  fun _ => ⟨.unavailable, "authorization provider unavailable"⟩

def denyUnless (allowed : Bool) : Except StatusError Unit :=
  if allowed then .ok () else .error ⟨.permissionDenied, "access denied"⟩

def enforceAuthorizationPublicAccess (g : Gateway) (subjectID : String) (req : Request) :
    Except StatusError Unit :=
  match authorizationMethodEnforcementPolicy req.method with
  | none => .error ⟨.internal, "provider gateway: unsupported authorization method"⟩
  | some policy => do
    let read : Bool := policy = .globalRead
    let globalAdmin ←
      (hasAuthorizationPublicAdminAccess g subjectID read (!read)).mapError unavailable
    if policy = .relationshipWrite then
      denyUnless
        (← (allowsRelationshipWriteAccess g subjectID req globalAdmin).mapError unavailable)
    else
      denyUnless globalAdmin

-- The relationships that the provider has stored.
abbrev Store := Finset RelationshipTuple

section Apply

def applyUpdate (store : Store) (update : Option RelationshipUpdate) : Store :=
  match update with
  | none => store
  | some update =>
    match update.relationship.join, update.operation with
    | none, _              => store
    | some tuple, .create  => insert tuple store
    | some tuple, .touch   => insert tuple store
    | some tuple, .delete  => store.erase tuple
    | some _, .unspecified => store

-- What the provider makes of a request, exactly as it is written.
def apply (store : Store) : Request → Store
  | .addRelationship relationship => relationship.join.elim store (insert · store)
  | .deleteRelationship tuple => tuple.elim store store.erase
  | .writeRelationships updates => updates.foldl applyUpdate store
  | .other _ => store

end Apply

-- A gateway whose provider decides by the relationships that are stored.
structure Deployment where
  evaluator : Store → Evaluator
  scimManagedGroupIDs : Finset String

structure Call where
  subjectID : String
  request : Request

namespace Deployment

variable (d : Deployment)

def gateway (store : Store) : Gateway :=
  ⟨d.evaluator store, d.scimManagedGroupIDs⟩

def serve (store : Store) (call : Call) : Store :=
  match enforceAuthorizationPublicAccess (d.gateway store) call.subjectID call.request with
  | .error _ => store
  | .ok _ => apply store call.request

def run (store : Store) (calls : List Call) : Store :=
  calls.foldl d.serve store

-- Something holds of the store and the caller before each call of a run.
def Along (P : Store → String → Prop) : Store → List Call → Prop
  | _, [] => True
  | store, call :: calls => P store call.subjectID ∧ Along P (d.serve store call) calls

def GlobalAdmin (store : Store) (subjectID : String) : Prop :=
  hasAuthorizationPublicAdminAccess (d.gateway store) subjectID false true = .ok true

def AdminOf (type id : String) (store : Store) (subjectID : String) : Prop :=
  isResourceAdmin (d.gateway store) subjectID type id = .ok true

-- The tuples that a caller may add and remove.
inductive Permitted (store : Store) (subjectID : String) (tuple : RelationshipTuple) : Prop
  | app :
    tuple.resourceType = "app" → d.AdminOf "app" tuple.resourceID store subjectID →
    Permitted store subjectID tuple
  | group :
    isGroupMemberRelationshipTuple tuple → relationshipTupleHasDirectSubjectTarget tuple →
    tuple.resourceID ∉ d.scimManagedGroupIDs →
    d.AdminOf "group" tuple.resourceID store subjectID → Permitted store subjectID tuple
  | bootstrap :
    d.GlobalAdmin store subjectID → isAppBootstrapRelationshipTuple tuple →
    Permitted store subjectID tuple
  | global :
    d.GlobalAdmin store subjectID → ¬isAppScopedRelationshipTuple tuple →
    ¬isGroupMemberRelationshipTuple tuple → Permitted store subjectID tuple

end Deployment

end ProviderGateway
