import GestaltModel.Authorization.Provider
import GestaltModel.Batching.Basic
import GestaltModel.Identity.Subjects

namespace Scim

open Authorization Identity

structure User where
  id : String
  email : String
  deriving DecidableEq, Repr

-- Puts the eligibility of the users before the decisions of an authorization provider.
structure AuthorizationGate where
  underlying : Evaluator
  getUser : String → Except Failure User
  isEligible : String → String → Except Failure Bool

variable (gate : AuthorizationGate) (req : CheckAccessRequest)

namespace AuthorizationGate

def requestEligible : Except Failure Bool :=
  match req.subject with
  | none => .ok true
  | some subject => do
    let userID := userIDFromSubjectID (Text.trimSpace subject.id)
    if classifyUserSubjectValue userID ≠ .canonical then
      return true
    let user ← gate.getUser userID
    gate.isEligible user.id user.email

-- An error denies.
def eligible : Bool :=
  (gate.requestEligible req).toOption.getD false

def checkAccess : Except Failure (Option CheckAccessResponse) :=
  if gate.eligible req then gate.underlying.checkAccess req else .ok (some {})

def subjectKey : String :=
  Text.trimSpace ((req.subject.map Subject.id).getD "")

structure Batch where
  decisions : List (Option CheckAccessResponse)
  forward : List CheckAccessRequest := []
  indexes : List Nat := []
  eligibility : GoMap Bool := ∅

def Batch.add (batch : Batch) (entry : CheckAccessRequest × Nat) : Batch :=
  let (request, i) := entry
  let eligible := (batch.eligibility.lookup (subjectKey request)).getD (gate.eligible request)
  let batch := { batch with eligibility := batch.eligibility.insert (subjectKey request) eligible }
  if eligible then
    { batch with forward := batch.forward ++ [request], indexes := batch.indexes ++ [i] }
  else
    { batch with decisions := batch.decisions.set i (some {}) }

-- Sends on what is left to be decided.
def Batch.send (batch : Batch) : Except Failure (Option (List (Option CheckAccessResponse))) :=
  if batch.forward = [] then
    .ok batch.decisions
  else do
    match ← gate.underlying.checkAccessMany batch.forward with
    | none =>
      .error ⟨"authorization provider returned an empty batch response", none⟩
    | some decisions =>
      if decisions.length ≠ batch.indexes.length then
        .error ⟨"authorization provider returned " ++ toString decisions.length ++ " decisions for " ++
          toString batch.indexes.length ++ " requests", none⟩
      else
        return Batching.scatter batch.decisions batch.indexes decisions

def checkAccessMany (requests : List CheckAccessRequest) :
    Except Failure (Option (List (Option CheckAccessResponse))) :=
  if requests = [] then
    gate.underlying.checkAccessMany requests
  else
    requests.zipIdx.foldl (Batch.add gate) { decisions := requests.map fun _ => none } |>.send gate

-- What the gate answers, given the answers of the provider behind it.
def gated (answer : CheckAccessRequest → CheckAccessResponse)
    (req : CheckAccessRequest) : CheckAccessResponse :=
  if gate.eligible req then answer req else {}

-- The gate is an evaluator itself.
def evaluator : Evaluator where
  checkAccess := gate.checkAccess
  checkAccessMany := gate.checkAccessMany

end AuthorizationGate
end Scim
