import GestaltModel.Identity.Principal

namespace Identity

open Text (trimSpace)

def kindUser : String := "user"

def userSubjectID (userID : String) : String :=
  if userID = "" then "" else kindUser ++ ":" ++ userID

def userIDFromSubjectID (subjectID : String) : String :=
  if (kindUser ++ ":").toList <+: subjectID.toList then
    .ofList (subjectID.toList.drop (kindUser ++ ":").length)
  else
    ""

-- The forms of the part of a subject id that stands for the user.
inductive UserSubjectForm
  | empty
  | canonical
  | email
  | opaqueValue
  deriving DecidableEq, Repr

def isHexDigit (c : Char) : Bool :=
  c.isDigit || ('a' ≤ c && c ≤ 'f') || ('A' ≤ c && c ≤ 'F')

-- The values of 36 bytes that `uuid.Parse` accepts.
def isCanonicalUserID (value : String) : Bool :=
  (Text.split '-' value).map String.length = [8, 4, 4, 4, 12] ∧
    (Text.split '-' value).all fun part => part.toList.all isHexDigit

def isEmailForm (value : String) : Bool :=
  if value.toList.any (· ∈ " \t\r\n|:/\\,;<>\"".toList) then
    false
  else
    match Text.cut '@' value with
    | none => false
    | some (name, domain) =>
      name ≠ "" ∧ '@' ∉ domain.toList ∧ '.' ∈ domain.toList ∧ domain.toList.head? ≠ some '.' ∧
        domain.toList.getLast? ≠ some '.'

def classifyUserSubjectValue (value : String) : UserSubjectForm :=
  let value := trimSpace value
  if value = "" then .empty
  else if isCanonicalUserID value then .canonical
  else if isEmailForm value then .email
  else .opaqueValue

def parseSubjectID (subjectID : String) : Option (String × String) :=
  match Text.cut ':' (trimSpace subjectID) with
  | none => none
  | some (kind, id) =>
    let (kind, id) := (trimSpace kind, trimSpace id)
    if kind ≠ "" ∧ id ≠ "" then some (kind, id) else none

def kindFromSubjectID (subjectID : String) : String :=
  ((parseSubjectID subjectID).map Prod.fst).getD ""

def Principal.canonicalized (p : Principal) : Principal :=
  let p :=
    if p.userID = "" ∧ p.subjectID ≠ "" ∧ userIDFromSubjectID p.subjectID ≠ "" then
      let userID := userIDFromSubjectID p.subjectID
      let p := { p with kind := if p.kind = "" then kindUser else p.kind }
      if '@' ∈ userID.toList then
        { p with identity := p.identity.getD { email := userID } }
      else
        { p with userID }
    else
      p
  let p := { p with kind := if p.kind = "" then kindFromSubjectID p.subjectID else p.kind }
  if p.subjectID = "" ∧ p.userID ≠ "" then
    { p with
      subjectID := userSubjectID p.userID
      kind := if p.kind = "" then kindUser else p.kind }
  else
    p

def Principal.isNonUserPrincipal (p : Principal) : Bool :=
  p.canonicalized.kind ≠ "" ∧ p.canonicalized.kind ≠ kindUser

def errCredentialSubjectRequired : Failure :=
  ⟨"credential subject required", some .credentialSubjectRequired⟩

-- `FindOrCreateUser`, which gives the id of the user with an email.
abbrev CredentialUserResolver := String → Except Failure (Option String)

variable (users : Option CredentialUserResolver)

-- The id of the user that the resolver finds for an email. A failure of the resolver gets a context.
def resolvedUserID (context : Failure → Failure) (email : String) : Except Failure String :=
  match users with
  | none => .error errCredentialSubjectRequired
  | some users => do
    match ← (users email).mapError context with
    | none    => .error errCredentialSubjectRequired
    | some id => if trimSpace id = "" then .error errCredentialSubjectRequired else .ok id

def credentialEmail (p : Principal) : String :=
  let email := (p.identity.map fun identity => trimSpace identity.email).getD ""
  let suffix := userIDFromSubjectID p.subjectID
  if email = "" ∧ '@' ∈ suffix.toList then suffix else email

def resolveCredentialSubjectID : Option Principal → Except Failure String
  | none => .error errCredentialSubjectRequired
  | some p =>
    let p := p.canonicalized
    let userID := trimSpace p.userID
    if p.isNonUserPrincipal then
      if trimSpace p.subjectID = "" then
        .error errCredentialSubjectRequired
      else
        .ok (trimSpace p.subjectID)
    else if userID ≠ "" ∧ '@' ∉ userID.toList then
      .ok (userSubjectID userID)
    else if credentialEmail p = "" then
      .error errCredentialSubjectRequired
    else do
      return userSubjectID (← resolvedUserID users id (credentialEmail p))

def authorizationSubjectEmail (p : Principal) (userID : String) : String :=
  let suffix := trimSpace (userIDFromSubjectID (trimSpace p.subjectID))
  match (p.identity.map fun identity => trimSpace identity.email).filter isEmailForm with
  | some email => email
  | none => if isEmailForm userID then userID else if isEmailForm suffix then suffix else ""

def resolveAuthorizationSubjectID (p : Principal) : Except Failure String :=
  let p := p.canonicalized
  let userID := trimSpace p.userID
  if p.isNonUserPrincipal then
    if trimSpace p.subjectID = "" then
      .error errCredentialSubjectRequired
    else
      .ok (trimSpace p.subjectID)
  else if classifyUserSubjectValue userID = .canonical then
    .ok (userSubjectID userID)
  else
    let email := authorizationSubjectEmail p userID
    if email = "" then
      .error ⟨"opaque credential subject: " ++ Text.quote (trimSpace p.subjectID),
        some .opaqueCredentialSubject⟩
    else do
      let id ← resolvedUserID users (.wrap "resolve canonical user") email
      return userSubjectID (trimSpace id)

end Identity
