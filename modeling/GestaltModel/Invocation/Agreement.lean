import GestaltModel.Invocation.Broker

namespace Invocation.Broker

open Authorization Identity

-- What the first loop of a listing says about a query, and whether it leaves it to the evaluator.
section Judge

variable (b : Broker) (policy : String → AppOperationPolicy) (p : Option Principal)

def accessOf (providerName : String) : ProviderAccess where
  policy := policy providerName
  profile := b.appAccessProfile p providerName
  scope := b.appAccessScope providerName
  delegatesRemote := (b.provider providerName).any (·.remoteCredentialDelegated)

variable (query : OperationAccessQuery)

-- The token and the policy allow the operation, and so does the profile of the user.
def passes : Bool :=
  allowsOperationPermission p query.provider query.operation ∧
    ((policy query.provider).resolve query.operation query.allowedRoles).2 ∧
    (b.accessOf policy p query.provider).allows query

def rolesOf : List String :=
  ((policy query.provider).resolve query.operation query.allowedRoles).1

def judge : OperationAccessDecision :=
  if ¬allowsOperationPermission p query.provider query.operation then
    { err := operationAccessDenied query }
  else if ¬b.passes policy p query then
    { err := operationAccessDenied query, allowedRoles := rolesOf policy query }
  else
    { allowedRoles := rolesOf policy query }

def left : Option OperationAccessQuery :=
  if b.passes policy p query ∧ ¬(b.accessOf policy p query.provider).delegatesRemote then
    some query
  else
    none

def requestFor (subjectID : String) (query : OperationAccessQuery) : ResourceAccessRequest where
  subjectID
  action := query.operation
  resource := b.authorizationResource query.provider
  allowedRoles := rolesOf policy query
  subjectProperties := b.subjectAccessProperties p

def evaluated (answer : CheckAccessRequest → CheckAccessResponse) (query : OperationAccessQuery) :
    OperationAccessDecision where
  err          :=
    match resolveCredentialSubjectID b.users p with
    | .error err =>
      errAuthorizationDenied (query.provider ++ "." ++ query.operation ++ ": " ++ err.text)
    | .ok subjectID =>
      operationAccessResult ((b.requestFor policy p subjectID query).decision answer) query
  allowedRoles := rolesOf policy query

def listed (answer : CheckAccessRequest → CheckAccessResponse) (query : OperationAccessQuery) :
    OperationAccessDecision :=
  match b.authorization with
  | none => b.judge policy p query
  | some _ =>
    (b.left policy p query).elim (b.judge policy p query) (b.evaluated policy p answer)

end Judge

-- When a listing and an invocation differ about an operation.
section Agreement

variable (b : Broker) (policy : String → AppOperationPolicy)
  (answer : CheckAccessRequest → CheckAccessResponse) (p : Option Principal) (app : String)
  (op : CatalogOperation)

def queryFor : OperationAccessQuery where
  provider := app
  operation := op.id
  allowedRoles := op.allowedRoles
  metadata := op

-- The scopes of the token and the policy for the app allow the operation.
def Offered : Prop :=
  allowsOperationPermission p app op.id ∧ ((policy app).resolve op.id op.allowedRoles).2

-- The profile of the user can be read, and allows the operation.
def ProfileAllows : Prop :=
  ∃ profile, b.appAccessProfile p app = .ok profile ∧
    profileAllows profile op (appAccessDefaultsFor (b.provider app))

-- A listing judges the profile by the given operation only if the id has no space around it,
-- otherwise by the static catalog's.
def ProfileLists : Prop :=
  ∃ profile, b.appAccessProfile p app = .ok profile ∧
    (b.appAccessScope app).allows profile op.id op

-- Nobody has to be asked, or the evaluator allows the operation and reports a required role, of
-- which only some may be looked at.
def Granted (seen : List String → List String) : Prop :=
  (b.provider app).any (·.remoteCredentialDelegated) ∨ b.authorization = none ∨
    ∃ subjectID, resolveCredentialSubjectID b.users p = .ok subjectID ∧
      let resp := answer (b.accessRequest p subjectID (b.authorizationResource app) op.id)
      let roles := rolesOf policy (queryFor app op)
      resp.allowed ∧ (roles = [] ∨ matchedAllowedRole (seen resp.matchedRelations) roles ≠ "")

-- A listing looks at the first 64 relations, and does not ask about a blank operation.
def GrantedInBatch : Prop :=
  b.Granted policy answer p app op boundedRelations ∧
    ((b.provider app).any (·.remoteCredentialDelegated) ∨ b.authorization = none ∨
      Text.trimSpace op.id ≠ "")

inductive Diverges : Prop
  | hidden : Offered policy p app op → b.ProfileAllows p app op → ¬b.ProfileLists p app op →
      b.Granted policy answer p app op id → Diverges
  | shown  : Offered policy p app op → ¬b.ProfileAllows p app op → b.ProfileLists p app op →
      b.GrantedInBatch policy answer p app op → Diverges
  | late   : Offered policy p app op → b.ProfileAllows p app op → b.ProfileLists p app op →
      b.Granted policy answer p app op id → ¬b.GrantedInBatch policy answer p app op → Diverges

end Agreement

end Invocation.Broker
