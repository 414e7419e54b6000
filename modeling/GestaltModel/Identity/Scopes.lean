import GestaltModel.Identity.Principal

namespace Identity

def AppName (app : String) : Prop :=
  app ≠ "" ∧ ':' ∉ app.toList

instance : DecidablePred AppName :=
  fun app => inferInstanceAs <| Decidable (app ≠ "" ∧ ':' ∉ app.toList)

def AppScope (scope : String) : Prop :=
  Text.Trimmed scope ∧ ∃ app, AppName app ∧ (scope = app ∨ ∃ op, scope = app ++ ":" ++ op)

-- What a scope is about: one operation of an app, or all of them.
def parseScope (scope : String) : String × Option String :=
  match Text.cut ':' scope with
  | none => (scope, none)
  | some (app, op) => if op = "" then (scope, none) else (app, some op)

-- The scopes after the last one for all operations of the app.
def scopesAfter (app : String) (scopes : List String) : List String :=
  scopes.rtakeWhile (parseScope · ≠ (app, none))

def operationsIn (app : String) (scopes : List String) : List String :=
  scopes.filterMap fun scope => if (parseScope scope).1 = app then (parseScope scope).2 else none

def nameSet (names : List String) : StringSet :=
  names.foldl (fun set name => set.insert name ()) ∅

-- What the scopes leave behind for an app in a permission set.
def entryOf (app : String) (scopes : List String) : Option (Option StringSet) :=
  if operationsIn app (scopesAfter app scopes) ≠ [] then
    some (some (nameSet (operationsIn app (scopesAfter app scopes))))
  else if ∃ scope ∈ scopes, parseScope scope = (app, none) then
    some none
  else
    none

-- A scope for all operations of the app comes before scopes for some, without the given operation.
def Narrowed (scopes : List String) (app operation : String) : Prop :=
  ¬isIdentityScope app ∧ ∃ before after, scopes = before ++ app :: after ∧ app ∉ after ∧
    (∃ op, op ≠ "" ∧ app ++ ":" ++ op ∈ after) ∧ app ++ ":" ++ operation ∉ after

end Identity
