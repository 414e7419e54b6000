import GestaltModel.Identity.Subjects
import GestaltModel.Invocation.AccessCheck
import GestaltModel.Invocation.AppAccess

namespace Invocation

open Authorization Identity
open Text (trimSpace)

inductive ProviderKind
  | app
  | workflow
  | agent
  deriving DecidableEq, Repr

def ProviderKind.name : ProviderKind → String
  | app => "app"
  | workflow => "workflow"
  | agent => "agent"

structure Provider where
  name : String
  catalog : Option Catalog := none
  defaultAppAccessOperations : Option (List String) := none
  supportsSessionCatalog : Bool := false
  remoteCredentialDelegated : Bool := false
  deriving DecidableEq, Repr

def appAccessDefaultsFor (prov : Option Provider) : AppAccessDefaults :=
  { listed := prov.bind (·.defaultAppAccessOperations) }

-- The provider that makes a call, as far as it is verified.
structure CallContext where
  callerName : String := ""
  callerKind : Option ProviderKind := none
  publicIngress : Bool := false
  deriving DecidableEq, Repr

def verifiedInternalCaller (ctx : CallContext) : Bool :=
  trimSpace ctx.callerName ≠ "" ∧ ¬ctx.publicIngress ∧ ctx.callerKind ≠ none

structure AccessContext where
  policy : String
  role : String
  deriving DecidableEq, Repr

-- A missing store is not configured. How properties become a `google.protobuf.Struct` is left open.
structure Broker where
  providers : String → Except Failure Provider
  appOperationPolicies : Option (String → Except Failure AppOperationPolicy) := none
  appAccessProfiles : Option (String → String → Except Failure AppAccessProfile) := none
  operationHistory : Option OperationHistory := none
  users : Option CredentialUserResolver := none
  authorization : Option Evaluator := none
  providerKinds : GoMap ProviderKind := ∅
  authorizationPolicies : GoMap String := ∅
  newStruct : String → String → List String → Option Properties := fun _ _ _ => none

def errAuthorizationDenied (text : String) : Failure :=
  ⟨"authorization denied: " ++ text, some .authorizationDenied⟩

namespace Broker

variable (b : Broker)

def provider (name : String) : Option Provider :=
  (b.providers name).toOption

def appOperationPolicy (app : String) : Except Failure AppOperationPolicy :=
  match b.appOperationPolicies with
  | none => .ok ∅
  | some policies => (policies app).mapError fun err =>
    ⟨"authorization provider unavailable: operation permissions for " ++ app ++ ": " ++ err.text,
      some .authorizationUnavailable⟩

def legacyAppAccessSubjectID (p : Principal) : String :=
  let p := p.canonicalized
  let subjectID := trimSpace p.subjectID
  let userID := trimSpace (userIDFromSubjectID subjectID)
  if p.kind ≠ kindUser ∨ userID = "" ∨ (userID.toList.any (· ∈ "|:/\\".toList)) then
    ""
  else
    subjectID

def resolveLegacyProfile (providerName : String) (profile : AppAccessProfile) : AppAccessProfile :=
  match b.provider providerName with
  | none => profile
  | some prov =>
    if prov.supportsSessionCatalog then
      profile
    else
      resolveLegacyAppAccessProfile b.operationHistory profile prov.catalog
        (appAccessDefaultsFor prov)

def appAccessSubjectID (p : Principal) : Except Failure String :=
  match resolveAuthorizationSubjectID b.users p with
  | .ok subjectID => .ok subjectID
  | .error err =>
    if err.Is .opaqueCredentialSubject ∧ legacyAppAccessSubjectID p ≠ "" then
      .ok (legacyAppAccessSubjectID p)
    else
      .error err

variable (p : Option Principal)

def appAccessProfile (providerName : String) : Except Failure (Option AppAccessProfile) :=
  match b.appAccessProfiles, p with
  | some profiles, some p =>
    if p.isNonUserPrincipal then
      .ok none
    else do
      let subjectID ← b.appAccessSubjectID p
      match profiles subjectID providerName with
      | .ok profile =>
        if profile.legacy then
          return b.resolveLegacyProfile providerName profile
        else
          return profile
      | .error err  => if err.Is .notFound then return none else .error err
  | _, _ => .ok none

def checkAppAccess (prov : Option Provider) (providerName : String)
    (operation : CatalogOperation) : Except Failure Unit :=
  match b.appAccessProfile p providerName with
  | .error err =>
    .error (errAuthorizationDenied (providerName ++ "." ++ operation.id ++ ": " ++ err.text))
  | .ok profile =>
    if profileAllows profile operation (appAccessDefaultsFor prov) then
      .ok ()
    else
      .error (errAuthorizationDenied (providerName ++ "." ++ operation.id))

section Resource

def dedicatedAuthorizationResource (name : String) : Resource :=
  { type := trimSpace name, id := trimSpace name }

-- The alias of an app key, or the app key itself.
def authorizationPolicy (appKey : String) : String :=
  let appKey := trimSpace appKey
  let policy := trimSpace ((b.authorizationPolicies.lookup appKey).getD "")
  if policy ≠ "" then policy else appKey

def mappedResource (appKey : String) : Resource :=
  let appKey := trimSpace appKey
  let policy := trimSpace ((b.authorizationPolicies.lookup appKey).getD "")
  if policy ≠ "" then
    dedicatedAuthorizationResource policy
  else if b.authorizationPolicies.sortedKeys.any fun key =>
      (b.authorizationPolicies.lookup key).map trimSpace = some appKey then
    dedicatedAuthorizationResource appKey
  else
    { type := ((b.providerKinds.lookup appKey).getD .app).name, id := appKey }

def authorizationResource (providerName : String) : Resource :=
  let providerName := trimSpace providerName
  if trimSpace ((b.authorizationPolicies.lookup providerName).getD "") ≠ "" then
    b.mappedResource providerName
  else if (b.provider providerName).isSome then
    { type := ProviderKind.app.name, id := providerName }
  else
    b.mappedResource providerName

end Resource

section Invoke

def subjectAccessProperties : Option Properties :=
  p.bind fun p =>
    b.newStruct (" ".intercalate p.canonicalized.scopes) (trimSpace p.canonicalized.clientID)
      p.canonicalized.audience

def accessRequest (subjectID : String) (resource : Resource) (action : String) :
    CheckAccessRequest :=
  let req := subjectAccessRequest subjectID action resource
  { req with subject := req.subject.map ({ · with properties := b.subjectAccessProperties p }) }

def authorizationDecision (authorization : Evaluator) (p : Option Principal)
    (providerName operationID : String) : Except Failure (Option CheckAccessResponse) := do
  let subjectID ← resolveCredentialSubjectID b.users p
  authorization.checkAccess
    (b.accessRequest p subjectID (b.authorizationResource providerName) operationID)

def evaluateInvokeAuthorization (providerName operationID : String)
    (allowedRoles : List String) : Except Failure String :=
  let denied := errAuthorizationDenied (providerName ++ "." ++ operationID)
  match b.authorization with
  | none => .ok ""
  | some authorization =>
    match b.authorizationDecision authorization p providerName operationID with
    | .error err          =>
      .error (errAuthorizationDenied (providerName ++ "." ++ operationID ++ ": " ++ err.text))
    | .ok none            => .error denied
    | .ok (some decision) =>
      if ¬decision.allowed then
        .error denied
      else if allowedRoles = [] then
        .ok ""
      else
        let role := matchedAllowedRole decision.matchedRelations allowedRoles
        if role = "" then .error denied else .ok role

def authorizeOperation (providerName : String) (operation : CatalogOperation) :
    Except Failure (Option AccessContext) := do
  let role ← b.evaluateInvokeAuthorization p providerName operation.id operation.allowedRoles
  if role = "" then
    return none
  return some { policy := b.authorizationPolicy providerName, role }

def authorizeInternalCaller (ctx : CallContext) (app : String) (operation : CatalogOperation) :
    Except Failure Unit :=
  let subjectID := (ctx.callerKind.map ProviderKind.name).getD "" ++ ":" ++ trimSpace ctx.callerName
  let text := app ++ "." ++ operation.id ++ " caller " ++ subjectID
  let req : ResourceAccessRequest := {
    subjectID
    action := operation.id
    resource := b.authorizationResource app
    allowedRoles := operation.allowedRoles }
  match checkResourceAccess b.authorization req with
  | .error err => .error (errAuthorizationDenied (text ++ ": " ++ err.text))
  | .ok decision => if decision.allowed then .ok () else .error (errAuthorizationDenied text)

-- The access context and the operation with the roles that apply.
def authorizeInvocation (ctx : CallContext) (p : Option Principal) (prov : Option Provider)
    (app : String) (operation : CatalogOperation) :
    Except Failure (Option AccessContext × CatalogOperation) := do
  ensure (operation.api = some .browserSession → p.map Principal.source = some .browserSession)
    (errAuthorizationDenied (app ++ "." ++ operation.id ++ " requires a browser session"))
  ensure (allowsOperationPermission p app operation.id)
    ⟨"token scope denied: " ++ app ++ "." ++ operation.id, some .scopeDenied⟩
  if privateOperation operation then pure () else b.checkAppAccess p prov app operation
  let policy ← b.appOperationPolicy app
  let (roles, allowed) := policy.resolve operation.id operation.allowedRoles
  ensure allowed (errAuthorizationDenied (app ++ "." ++ operation.id))
  let operation := { operation with allowedRoles := roles }
  ensure (privateOperation operation → b.authorization.isSome) errAuthorizationUnavailable
  ensure (privateOperation operation → verifiedInternalCaller ctx)
    (errAuthorizationDenied "private operation requires a verified internal caller")
  let access ←
    if ¬(prov.any (·.remoteCredentialDelegated)) ∨ privateOperation operation then
      b.authorizeOperation p app operation
    else
      pure none
  if privateOperation operation then b.authorizeInternalCaller ctx app operation else pure ()
  return (access, operation)

end Invoke

section Listing

-- What an app contributes to judging the profile of a user.
structure AppAccessScope where
  defaults : AppAccessDefaults := {}
  operations : GoMap CatalogOperation := ∅
  sessionCatalog : Bool := false

def appAccessScope (providerName : String) : AppAccessScope :=
  match b.provider providerName with
  | none => {}
  | some prov => {
    defaults       := appAccessDefaultsFor prov
    operations     := ((prov.catalog.map Catalog.operations).getD []).foldl
      (fun operations op => operations.insert op.id op) ∅
    sessionCatalog := prov.supportsSessionCatalog }

namespace AppAccessScope

def unlistedSession (s : AppAccessScope) (operationID : String) : Bool :=
  s.sessionCatalog ∧ operationID ≠ graphQLCapabilityID ∧ operationID ∉ s.operations

def allows (s : AppAccessScope) (profile : Option AppAccessProfile) (operationID : String)
    (metadata : Option CatalogOperation) : Bool :=
  match metadata.filter fun metadata => trimSpace metadata.id = operationID with
  | some metadata => profileAllows profile metadata s.defaults
  | none =>
    match s.operations.lookup operationID with
    | some operation => profileAllows profile operation s.defaults
    | none           =>
      if s.unlistedSession operationID then
        profileAllowsUnlisted profile operationID
      else
        profileAllows profile { id := operationID } s.defaults

end AppAccessScope

structure OperationAccessQuery where
  provider : String
  operation : String
  allowedRoles : List String := []
  metadata : Option CatalogOperation := none
  deriving DecidableEq, Repr

structure OperationAccessDecision where
  err : Option Failure := none
  allowedRoles : List String := []
  deriving DecidableEq, Repr

def operationAccessDenied (query : OperationAccessQuery) : Failure :=
  errAuthorizationDenied (query.provider ++ "." ++ query.operation)

def operationAccessResult (decision : ResourceAccessDecision) (query : OperationAccessQuery) :
    Option Failure :=
  if decision.allowed then none else some (operationAccessDenied query)

-- What is read once for a provider. The resource is filled in when it is needed.
structure ProviderAccess where
  policy : AppOperationPolicy
  profile : Except Failure (Option AppAccessProfile)
  scope : AppAccessScope
  delegatesRemote : Bool
  resource : Option Resource := none

def readAccess (providerName : String) : Except Failure ProviderAccess := do
  return {
    policy := ← b.appOperationPolicy providerName
    profile := b.appAccessProfile p providerName
    scope := b.appAccessScope providerName
    delegatesRemote := (b.provider providerName).any (·.remoteCredentialDelegated) }

def ProviderAccess.allows (access : ProviderAccess) (query : OperationAccessQuery) : Bool :=
  match access.profile with
  | .error _ => false
  | .ok profile => access.scope.allows profile query.operation query.metadata

-- What the first loop over the queries has found out.
structure Judged where
  results : List OperationAccessDecision
  pending : List Nat := []
  accessByProvider : GoMap ProviderAccess := ∅

def Judged.access (judged : Judged) (providerName : String) : Except Failure ProviderAccess :=
  match judged.accessByProvider.lookup providerName with
  | some access => .ok access
  | none => b.readAccess p providerName

def Judged.add (judged : Judged) (entry : OperationAccessQuery × Nat) : Except Failure Judged := do
  let (query, i) := entry
  if ¬allowsOperationPermission p query.provider query.operation then
    return { judged with results := judged.results.set i { err := operationAccessDenied query } }
  let access ← judged.access b p query.provider
  let judged :=
    { judged with accessByProvider := judged.accessByProvider.insert query.provider access }
  let (roles, allowed) := access.policy.resolve query.operation query.allowedRoles
  if ¬allowed ∨ ¬access.allows query then
    return { judged with
      results := judged.results.set i { err := operationAccessDenied query, allowedRoles := roles } }
  return { judged with
    results := judged.results.set i { allowedRoles := roles }
    pending := if access.delegatesRemote then judged.pending else judged.pending ++ [i] }

-- The second loop, over the queries that are left to the evaluator.
def buildRequest (subjectID : String) (queries : List OperationAccessQuery)
    (results : List OperationAccessDecision)
    (acc : GoMap ProviderAccess × List ResourceAccessRequest) (i : Nat) :
    GoMap ProviderAccess × List ResourceAccessRequest :=
  match queries[i]?, acc.1.lookup ((queries[i]?.map (·.provider)).getD "") with
  | some query, some access =>
    let resource := access.resource.getD (b.authorizationResource query.provider)
    let req : ResourceAccessRequest := {
      subjectID
      action            := query.operation
      resource
      allowedRoles      := (results[i]?.map (·.allowedRoles)).getD []
      subjectProperties := b.subjectAccessProperties p }
    (acc.1.insert query.provider { access with resource }, acc.2 ++ [req])
  | _, _ => acc

-- Sets the errors of the queries that are left.
def Judged.setErrors (judged : Judged) (errs : List (Option Failure)) : List OperationAccessDecision :=
  Batching.scatter judged.results judged.pending <| (judged.pending.zip errs).map fun (i, err) =>
    { err, allowedRoles := (judged.results[i]?.map (·.allowedRoles)).getD [] }

def Judged.evaluate (queries : List OperationAccessQuery) (judged : Judged) :
    Except Failure (List OperationAccessDecision) :=
  let query (i : Nat) := queries[i]?.getD { provider := "", operation := "" }
  match resolveCredentialSubjectID b.users p with
  | .error err =>
    .ok <| judged.setErrors <| judged.pending.map fun i =>
      errAuthorizationDenied ((query i).provider ++ "." ++ (query i).operation ++ ": " ++ err.text)
  | .ok subjectID => do
    let reqs := (judged.pending.foldl (b.buildRequest p subjectID queries judged.results)
      (judged.accessByProvider, [])).2
    let decisions ← (Batching.chunks maxBatchedAccessChecks reqs).mapM
      (checkResourceAccessMany b.authorization)
    return judged.setErrors <| (judged.pending.zip decisions.flatten).map fun (i, decision) =>
      operationAccessResult decision (query i)

def checkOperationAccessMany (queries : List OperationAccessQuery) :
    Except Failure (List OperationAccessDecision) := do
  let judged ← queries.zipIdx.foldlM (Judged.add b p) { results := queries.map fun _ => {} }
  if judged.pending = [] ∨ b.authorization.isNone then
    return judged.results
  judged.evaluate b p queries

end Listing

end Broker
end Invocation
