import Mathlib.Data.List.Dedup
import GestaltModel.Authorization.Provider
import GestaltModel.Batching.Basic

namespace Invocation

open Authorization

def maxBatchedAccessChecks : Nat := 1000

def maxEvaluatedRelations : Nat := 64

def errAuthorizationUnavailable : Failure :=
  ⟨"authorization provider unavailable", some .authorizationUnavailable⟩

def errMalformedAuthorizationDecision : Failure := ⟨"malformed authorization decision", none⟩

def errBatchedAccessTooLarge : Failure := ⟨"batched authorization check exceeds 1000 requests", none⟩

structure ResourceAccessRequest where
  subjectID : String
  action : String
  resource : Option Resource
  allowedRoles : List String := []
  subjectProperties : Option Properties := none
  deriving DecidableEq, Repr

structure ResourceAccessDecision where
  allowed : Bool := false
  role : String := ""
  deriving DecidableEq, Repr

def subjectAccessRequest (subjectID action : String) (resource : Option Resource) :
    CheckAccessRequest where
  subject := some { type := "subject", id := Text.trimSpace subjectID }
  action := some { name := Text.trimSpace action }
  resource := resource

variable (req : ResourceAccessRequest)

def ResourceAccessRequest.protoRequest : CheckAccessRequest :=
  let out := subjectAccessRequest req.subjectID req.action req.resource
  match req.subjectProperties with
  | none => out
  | some properties => { out with subject := out.subject.map ({ · with properties }) }

-- The relations without blank ones and repetitions, as far as they are looked at.
def boundedRelations (relations : List String) : List String :=
  go [] relations
where
  go (out : List String) : List String → List String
    | [] => out
    | relation :: relations =>
      let relation := Text.trimSpace relation
      if relation = "" ∨ relation ∈ out then
        go out relations
      else if (out ++ [relation]).length = maxEvaluatedRelations then
        out ++ [relation]
      else
        go (out ++ [relation]) relations

-- The first of the allowed roles that is among the matched relations, or the empty text.
def matchedAllowedRole (matchedRelations allowedRoles : List String) : String :=
  let matched := (matchedRelations.map Text.trimSpace).filter (· ≠ "")
  ((allowedRoles.map Text.trimSpace).find? (· ∈ matched)).getD ""

def resourceAccessDecision (resp : CheckAccessResponse) (allowedRoles : List String) :
    ResourceAccessDecision :=
  if ¬resp.allowed then
    {}
  else
    let roles := boundedRelations resp.matchedRelations
    if allowedRoles = [] then
      { allowed := true, role := roles.head?.getD "" }
    else
      let role := matchedAllowedRole roles allowedRoles
      if role = "" then {} else { allowed := true, role }

-- There is nothing to ask about a request without a subject, an action or a resource.
def ResourceAccessRequest.Degenerate : Prop :=
  Text.trimSpace req.subjectID = "" ∨ Text.trimSpace req.action = "" ∨ req.resource = none

instance : DecidablePred ResourceAccessRequest.Degenerate :=
  fun _ => inferInstanceAs <| Decidable (_ ∨ _)

def checkResourceAccess (authorization : Option Evaluator) (req : ResourceAccessRequest) :
    Except Failure ResourceAccessDecision :=
  match authorization with
  | none => .error errAuthorizationUnavailable
  | some authorization =>
    if req.Degenerate then
      .ok {}
    else do
      match ← authorization.checkAccess req.protoRequest with
      | none      => .error errMalformedAuthorizationDecision
      | some resp => return resourceAccessDecision resp req.allowedRoles

def ResourceAccessRequest.question : Option CheckAccessRequest :=
  let question := req.protoRequest
  if (question.subject.map Subject.id).getD "" = "" ∨ (question.action.map Action.name).getD "" = "" ∨
      question.resource = none then
    none
  else
    some question

def projectDecision (reqs : List ResourceAccessRequest) (i : Nat) :
    Option CheckAccessResponse → Except Failure ResourceAccessDecision
  | none => .error errMalformedAuthorizationDecision
  | some decision => .ok (resourceAccessDecision decision ((reqs[i]?.map (·.allowedRoles)).getD []))

def checkResourceAccessMany (authorization : Option Evaluator) (reqs : List ResourceAccessRequest) :
    Except Failure (List ResourceAccessDecision) :=
  match authorization with
  | none => .error errAuthorizationUnavailable
  | some authorization =>
    if maxBatchedAccessChecks < reqs.length then
      .error errBatchedAccessTooLarge
    else do
      let decisions : List ResourceAccessDecision := reqs.map fun _ => {}
      let batch := Batching.gather ResourceAccessRequest.question reqs
      if batch = [] then
        return decisions
      match ← authorization.checkAccessMany (batch.map Prod.snd) with
      | none      => .error errMalformedAuthorizationDecision
      | some resp =>
        if resp.length ≠ batch.length then
          .error errMalformedAuthorizationDecision
        else do
          let indexes := batch.map Prod.fst
          return Batching.scatter decisions indexes
            (← (indexes.zip resp).mapM fun (i, decision) => projectDecision reqs i decision)

def ResourceAccessRequest.decision (answer : CheckAccessRequest → CheckAccessResponse)
    (req : ResourceAccessRequest) : ResourceAccessDecision :=
  if req.Degenerate then {} else resourceAccessDecision (answer req.protoRequest) req.allowedRoles

end Invocation
