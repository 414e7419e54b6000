import GestaltModel.Primitives.Failure

namespace Authorization

-- The fields of a `google.protobuf.Struct`, which are only compared and passed on.
abbrev Properties := List (String × String)

structure Subject where
  type : String
  id : String
  properties : Option Properties := none
  deriving DecidableEq, Repr

structure Action where
  name : String
  properties : Option Properties := none
  deriving DecidableEq, Repr

structure Resource where
  type : String
  id : String
  properties : Option Properties := none
  deriving DecidableEq, Repr

structure CheckAccessRequest where
  subject : Option Subject
  action : Option Action
  resource : Option Resource
  deriving DecidableEq, Repr

structure CheckAccessResponse where
  allowed : Bool := false
  modelID : String := ""
  matchedRelations : List String := []
  deriving DecidableEq, Repr

-- The decisions of an authorization provider. A response or a decision in it can be missing.
structure Evaluator where
  checkAccess : CheckAccessRequest → Except Failure (Option CheckAccessResponse)
  checkAccessMany :
    List CheckAccessRequest → Except Failure (Option (List (Option CheckAccessResponse)))

-- A deterministic evaluator that gives the same answers one by one and in batches.
structure Evaluator.Pointwise (evaluator : Evaluator)
    (answer : CheckAccessRequest → CheckAccessResponse) : Prop where
  one : ∀ req, evaluator.checkAccess req = .ok (answer req)
  many : ∀ reqs, evaluator.checkAccessMany reqs = .ok (reqs.map fun req => some (answer req))

end Authorization
