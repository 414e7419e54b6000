import GestaltModel.Invocation.Agreement
import GestaltModel.Mcp.FrontDoor

namespace Mcp

open Identity Invocation Broker
open Text (trimSpace)

def maxSearchLimit : Int := 100

-- An operation with what only a search reads of it.
structure Operation extends CatalogOperation where
  title : String := ""
  description : String := ""
  passthrough : Bool := false

instance Operation.coe : Coe Operation CatalogOperation := ⟨toCatalogOperation⟩

-- A projected catalog, with the names and descriptions of it and its provider.
structure AppCatalog where
  texts : List String := []
  operations : List Operation

-- There is no catalog if no provider is found. `sort.Slice` leaves the order of equal keys open, and
-- `strings.ToLower` is any function.
structure FrontDoor where
  providerNames : List String
  catalogForSearch : String → String → Bool → Option (Except String (Option AppCatalog))
  includeREST : GoMap Bool := ∅
  access : Option (Option Principal → OperationAccess)
  sort : List SearchCandidate → List SearchCandidate
  toLower : String → String

-- The arguments as `stringArg` and `intArg` read them.
structure SearchArguments where
  query : String := ""
  app : String := ""
  catalogInstance : String := ""
  limit : Int := defaultSearchLimit

def SearchArguments.pageLimit (args : SearchArguments) : Nat :=
  let limit := if args.limit < 1 then (defaultSearchLimit : Int) else args.limit
  (if limit > maxSearchLimit then maxSearchLimit else limit).toNat

structure SearchResult where
  results : List SearchHit := []
  unavailable : List (String × String) := []
  hint : String := ""
  truncated : Bool := false

def operationTitle (op : Operation) : String :=
  if trimSpace op.title ≠ "" then op.title else op.id

def searchTextMatches (toLower : String → String) (query : String) (parts : List String) : Bool :=
  let q := toLower (trimSpace query)
  q = "" ∨ ∃ part ∈ parts, q.toList <:+: (toLower part).toList

def operationExposedOnMCP (op : CatalogOperation) : Bool :=
  operationVisibleByDefault op ∧ op.mcp.getD true

def allowsProviderPermission (p : Option Principal) (provider : String) : Bool :=
  p.any fun (p : Principal) => provider ≠ "" ∧ (appPermissionScopes p.scopes = [] ∨
    ∃ scope ∈ appPermissionScopes p.scopes,
      scope = provider ∨ (provider ++ ":").toList <+: scope.toList)

def searchCandidate (app catalogInstance : String) (op : Operation) : SearchCandidate where
  hit := ⟨app, op.id, catalogInstance, operationTitle op, op.description⟩
  query := queryFor app op

namespace FrontDoor

variable (h : FrontDoor) (p : Option Principal) (args : SearchArguments)

def catalogOperationProjectedToMCP (app : String) (op : Operation) : Bool :=
  operationExposedOnMCP op ∧
    (h.includeREST.lookup app = some false → op.passthrough)

def catalog (app : String) : Option (Except String (Option AppCatalog)) :=
  h.catalogForSearch app args.catalogInstance (args.app ≠ "")

def searched : List String :=
  h.providerNames.filter fun app =>
    (args.app ≠ "" → app = args.app) ∧ allowsProviderPermission p app

def matching (app : String) (catalog : AppCatalog) : List Operation :=
  let appMatched := args.query = "" ∨ searchTextMatches h.toLower args.query (app :: catalog.texts)
  catalog.operations.filter fun op =>
    operationVisibleByDefault op ∧ h.catalogOperationProjectedToMCP app op ∧
      (appMatched ∨ searchTextMatches h.toLower args.query [op.id, op.title, op.description])

def candidates : List SearchCandidate :=
  (h.searched p args).flatMap fun app =>
    match h.catalog args app with
    | some (.ok (some catalog)) =>
      (h.matching args app catalog).map (searchCandidate app args.catalogInstance)
    | _ => []

def unavailable : List (String × String) :=
  (h.searched p args).filterMap fun app =>
    match h.catalog args app with
    | some (.error err) => some (app, err)
    | _ => none

-- The error is the text of the tool's result.
def callSearch : Except String SearchResult :=
  if p = none then
    .error "not authenticated"
  else if args.catalogInstance ≠ "" ∧ args.app = "" then
    .error "app is required when _instance is set"
  else if args.query = "" ∧ args.app = "" then
    .ok { hint := "Pass query or app to search workspace operations." }
  else do
    let (results, truncated, _) ←
      pageSearchHits (h.access.map (· p)) (h.sort (h.candidates p args)) args.pageLimit
    return { results, unavailable := h.unavailable p args, truncated }

end FrontDoor
end Mcp
