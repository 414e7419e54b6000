import GestaltModel.Primitives.GoMap

namespace Identity

inductive Source
  | unknown
  | bearer
  | env
  | browserSession
  deriving DecidableEq, Repr

structure UserIdentity where
  email : String
  displayName : String := ""
  deriving DecidableEq, Repr

structure Principal where
  identity : Option UserIdentity := none
  userID : String := ""
  subjectID : String := ""
  displayName : String := ""
  kind : String := ""
  source : Source := .unknown
  scopes : List String := []
  clientID : String := ""
  audience : List String := []
  deriving DecidableEq, Repr

-- The type `map[string]struct{}`
abbrev StringSet := GoMap Unit

-- The operations of each app, where nothing stands for all operations.
abbrev PermissionMap := GoMap (Option StringSet)

-- Nothing stands for no restriction at all.
abbrev PermissionSet := Option PermissionMap

-- What a permission set stands for.
def Grants (set : PermissionSet) (app operation : String) : Prop :=
  match set with
  | none => True
  | some map =>
    match map.lookup app with
    | none            => False
    | some none       => True
    | some (some ops) => operation ∈ ops

instance {set : PermissionSet} {app operation : String} : Decidable (Grants set app operation) := by
  unfold Grants
  split
  case h_1 => exact .isTrue trivial
  case h_2 =>
    split
    case h_1 => exact .isFalse id
    case h_2 => exact .isTrue trivial
    case h_3 => infer_instance

structure AccessPermission where
  app : String
  operations : List String := []
  deriving DecidableEq, Repr

-- Adds the names that are not blank.
def addNames (set : StringSet) (names : List String) : StringSet :=
  names.foldl (fun set name =>
    if Text.trimSpace name = "" then set else set.insert (Text.trimSpace name) ()) set

def addPermission (set : PermissionMap) (perm : AccessPermission) : PermissionMap :=
  let app := Text.trimSpace perm.app
  if app = "" then
    set
  else if perm.operations = [] then
    set.insert app none
  else if set.lookup app = some none then
    set
  else
    set.insert app (some (addNames ((set.lookup app).join.getD ∅) perm.operations))

def compilePermissions (perms : List AccessPermission) : PermissionSet :=
  if perms = [] then none else some (perms.foldl addPermission ∅)

-- The operations of an entry in ascending order. There are none for all operations.
def operationNames (ops : Option StringSet) : List String :=
  ops.elim [] GoMap.sortedKeys

def permissionsToAccessPermissions : PermissionSet → List AccessPermission
  | none => []
  | some set => set.sortedKeys.map fun app =>
    { app, operations := operationNames (set.lookup app).join }

def isIdentityScope (scope : String) : Bool :=
  Text.toLower (Text.trimSpace scope) ∈ ["openid", "email", "profile", "offline_access"]

-- The scopes that are not about the identity.
def appPermissionScopes (scopes : List String) : List String :=
  scopes.filter fun scope => ¬(Text.toLower (Text.trimSpace scope) = "" ∨ isIdentityScope scope)

def allowsOperationPermission (p : Option Principal) (provider operation : String) : Prop :=
  match p with
  | none => False
  | some p =>
    provider ≠ "" ∧ operation ≠ "" ∧ (appPermissionScopes p.scopes = [] ∨
      ∃ scope ∈ appPermissionScopes p.scopes, scope = provider ∨ scope = provider ++ ":" ++ operation)

instance {p : Option Principal} {provider operation : String} :
    Decidable (allowsOperationPermission p provider operation) := by
  unfold allowsOperationPermission
  split <;> infer_instance

def addScope (set : PermissionMap) (scope : String) : PermissionMap :=
  let scope := Text.trimSpace scope
  if scope = "" ∨ isIdentityScope scope then
    set
  else
    match Text.cut ':' scope with
    | none => set.insert scope none
    | some (app, op) =>
      if op = "" then
        set.insert scope none
      else
        -- A missing entry and one without restrictions both give nothing here.
        let ops := (set.lookup app).join
        if ops = none ∧ (set.lookup app).join ≠ none then
          set
        else
          set.insert app (some ((ops.getD ∅).insert op ()))

def permissionSetFromScopes (scopes : List String) : PermissionSet :=
  if scopes = [] then none else some (scopes.foldl addScope ∅)

def scopeStringsFromPermissionSet : PermissionSet → List String
  | none => []
  | some set => set.sortedKeys.flatMap fun app =>
    match operationNames (set.lookup app).join with
    | []    => [app]
    | names => names.map (app ++ ":" ++ ·)

end Identity
