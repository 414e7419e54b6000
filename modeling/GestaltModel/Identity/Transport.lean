import GestaltModel.Identity.Scopes

namespace Identity

structure SubjectPermissionContext where
  app : String
  operations : List String := []
  allOperations : Bool := false
  deriving DecidableEq, Repr

structure SubjectContext where
  id : String := ""
  email : String := ""
  displayName : String := ""
  scopes : List String := []
  permissions : List SubjectPermissionContext := []
  deriving DecidableEq, Repr

def permissionSetToSubjectPermissionContext (set : PermissionSet) : List SubjectPermissionContext :=
  (permissionsToAccessPermissions set).filterMap fun perm =>
    let app := Text.trimSpace perm.app
    if app = "" then
      none
    else if perm.operations = [] then
      some { app, allOperations := true }
    else
      some { app, operations := perm.operations }

def subjectPermissionContextToPermissionSet (values : List SubjectPermissionContext) :
    PermissionSet :=
  compilePermissions <| values.filterMap fun value =>
    let app := Text.trimSpace value.app
    if app = "" then
      none
    else if value.allOperations then
      some { app }
    else
      some { app, operations := value.operations }

def mergeSubjectScopes (subject : SubjectContext) : List String :=
  if subject.scopes ≠ [] then
    subject.scopes
  else
    scopeStringsFromPermissionSet (subjectPermissionContextToPermissionSet subject.permissions)

-- The ways in which permissions are carried from one place to another.
section Transport

variable (set : PermissionSet)

def viaAccessPermissions : PermissionSet :=
  compilePermissions (permissionsToAccessPermissions set)

def viaScopes : PermissionSet :=
  permissionSetFromScopes (scopeStringsFromPermissionSet set)

def viaSubjectContext : PermissionSet :=
  permissionSetFromScopes <|
    mergeSubjectScopes { permissions := permissionSetToSubjectPermissionContext set }

end Transport

structure Named (map : PermissionMap) : Prop where
  app : ∀ app ∈ map, Text.Trimmed app ∧ AppName app
  operation : ∀ app ops, map.lookup app = some (some ops) → ∀ op ∈ ops, Text.Trimmed op ∧ op ≠ ""

-- Empty sets of apps or operations are not told from no restriction, and from all operations.
structure Encodable (map : PermissionMap) : Prop where
  apps : map ≠ ∅
  operations : ∀ app, map.lookup app ≠ some (some ∅)

-- The entry that the encodings of a map keep for an app.
def kept (map : PermissionMap) (app : String) : Option StringSet :=
  if operationNames (map.lookup app).join = [] then none else (map.lookup app).join

-- All operations of the app are granted, but the name of the app is that of an identity scope.
def Reserved (set : PermissionSet) (app : String) : Prop :=
  isIdentityScope app ∧ ∃ map ∈ set, map.lookup app = some none

end Identity
