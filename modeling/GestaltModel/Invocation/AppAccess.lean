import GestaltModel.Primitives.GoMap

namespace Invocation

inductive APIExposureMode
  | publicMode
  | privateMode
  | browserSession
  deriving DecidableEq, Repr

structure CatalogOperation where
  id : String
  allowedRoles : List String := []
  visible : Option Bool := none
  api : Option APIExposureMode := none
  mcp : Option Bool := none
  deriving DecidableEq, Repr

structure Catalog where
  operations : List CatalogOperation
  deriving DecidableEq, Repr

def operationVisibleByDefault (op : CatalogOperation) : Bool :=
  op.visible.getD true

def privateOperation (op : CatalogOperation) : Bool :=
  op.api = some .privateMode ∧ op.mcp = some false

-- The roles that an admin has set for operations.
abbrev AppOperationPolicy := GoMap (List String)

-- The roles of an operation, and whether it is allowed at all.
def AppOperationPolicy.resolve (p : AppOperationPolicy) (id : String) (baseline : List String) :
    List String × Bool :=
  match p.lookup id with
  | none => (baseline, true)
  | some roles => (roles, roles ≠ [])

-- The operations that an app turns on by default. Nothing is listed if the app has no such list.
structure AppAccessDefaults where
  listed : Option (List String) := none
  deriving DecidableEq, Repr

def trimmedSet (ids : List String) : List String :=
  (ids.map Text.trimSpace).filter (· ≠ "")

def AppAccessDefaults.includes (d : AppAccessDefaults) (op : CatalogOperation) : Bool :=
  match d.listed with
  | none => operationVisibleByDefault op
  | some listed => Text.trimSpace op.id ∈ trimmedSet listed

structure AppAccessProfile where
  app : String
  disabledOperations : List String := []
  extraOperations : List String := []
  legacyEnabledOperations : List String := []
  legacy : Bool := false
  updatedAt : Int := 0
  deriving DecidableEq, Repr

def AppAccessProfile.allowsID (p : AppAccessProfile) (id : String) (defaultOn : Bool) : Bool :=
  if p.legacy then
    id ∈ p.legacyEnabledOperations
  else
    id ∈ p.extraOperations ∨ (defaultOn ∧ id ∉ p.disabledOperations)

-- A user without a profile has made no choice, so everything is allowed.
def profileAllows (p : Option AppAccessProfile) (op : CatalogOperation) (d : AppAccessDefaults) : Bool :=
  match p with
  | none => true
  | some p => p.allowsID (Text.trimSpace op.id) (d.includes op)

def profileAllowsUnlisted (p : Option AppAccessProfile) (id : String) : Bool :=
  match p with
  | none => true
  | some p => p.allowsID (Text.trimSpace id) false

def graphQLCapabilityID : String := "graphql"

section Legacy

inductive LegacyDecision
  | followsDefault
  | optOut
  | optIn
  deriving DecidableEq

def classifyLegacyOperation (inCatalog : Option CatalogOperation) (d : AppAccessDefaults) (id : String)
    (enabled existed : Bool) : LegacyDecision :=
  match inCatalog with
  | none =>
    if enabled then .optIn
    else if existed ∨ id = graphQLCapabilityID then .optOut
    else .followsDefault
  | some op =>
    if d.includes op ∧ ¬enabled ∧ existed then .optOut
    else if ¬d.includes op ∧ enabled then .optIn
    else .followsDefault

def sortedUnique (ids : List String) : List String :=
  ids.dedup.insertionSort (· ≤ ·)

def convertLegacy (profile : AppAccessProfile) (cat : Catalog) (d : AppAccessDefaults)
    (enabled existed : List String) : AppAccessProfile :=
  let ids := cat.operations.map (fun op => Text.trimSpace op.id) ++ enabled ++ existed ++
    [graphQLCapabilityID]
  let decision (id : String) :=
    -- Of several operations with one id, the last one counts.
    let inCatalog := cat.operations.reverse.find? fun op => Text.trimSpace op.id = id
    classifyLegacyOperation inCatalog d id (id ∈ enabled) (id ∈ existed)
  { profile with
    legacy := false
    legacyEnabledOperations := []
    disabledOperations := sortedUnique (ids.filter (decision · = .optOut))
    extraOperations := sortedUnique (ids.filter (decision · = .optIn)) }

-- The operations that an app had at some time, if that is known.
abbrev OperationHistory := String → Int → Except Failure (Option (List String))

def historyCoversEnabled (cat : Catalog) (enabled existed : List String) : Bool :=
  cat.operations.all fun op => Text.trimSpace op.id ∈ enabled → Text.trimSpace op.id ∈ existed

-- Whenever the conversion cannot be done exactly, the legacy profile is kept.
def resolveLegacyAppAccessProfile (history : Option OperationHistory) (profile : AppAccessProfile)
    (cat : Option Catalog) (d : AppAccessDefaults) : AppAccessProfile :=
  match cat, history with
  | some cat, some history =>
    match history profile.app profile.updatedAt with
    | .ok (some existedAt) =>
      let (enabled, existed) := (trimmedSet profile.legacyEnabledOperations, trimmedSet existedAt)
      if profile.legacy ∧ historyCoversEnabled cat enabled existed then
        convertLegacy profile cat d enabled existed
      else
        profile
    | _                    => profile
  | _, _ => profile

end Legacy

end Invocation
