import GestaltModel.Coredata.SecretHistory

namespace Server

open Coredata

structure HTTPError where
  status : Nat
  message : String
  deriving DecidableEq, Repr

def HTTPError.check (p : Prop) [Decidable p] (status : Nat) (message : String) :
    Except HTTPError Unit :=
  if p then .ok () else .error ⟨status, message⟩

-- `[]byte(value)`
def bytes (value : String) : Bytes :=
  value.toByteArray.data.toList

structure ManagedSecretCiphertext where
  ciphertext : Bytes
  kmsKey : String
  kmsKeyVersion : String
  deriving DecidableEq, Repr

-- Encryption is up to a key management service, which may draw random bits, here a number, and can
-- fail. What it returns is accepted by `Put` and can be decrypted.
structure ManagedSecretCipher where
  encrypt : String → Bytes → Nat → Except Failure ManagedSecretCiphertext
  decrypt : String → Bytes → Option Bytes
  decrypts : ∀ {name plaintext nonce c}, encrypt name plaintext nonce = .ok c →
    decrypt name c.ciphertext = some plaintext
  sized : ∀ {name plaintext nonce c}, encrypt name plaintext nonce = .ok c →
    plaintext.length ≤ 64 * 1024 → c.ciphertext ≠ [] ∧ c.ciphertext.length ≤ 2 * 1024 * 1024

-- Who a request is from, with the email address of their identity.
structure Caller where
  userID : String
  email : Option String := none
  deriving DecidableEq, Repr

def adminActor (caller : Option Caller) : Except HTTPError String :=
  match caller with
  | none => .error ⟨401, "authenticated user required"⟩
  | some p =>
    let email := p.email.elim "" Text.trimSpace
    if Text.trimSpace p.userID ≠ "" then .ok (Text.trimSpace p.userID)
    else if email ≠ "" then .ok email
    else .error ⟨401, "authenticated actor is required"⟩

structure ManagedSecretWriteRequest where
  name : String
  operation : String
  ownerApp : String := ""
  scope : String := ""
  description : String := ""
  reason : String
  source : String := ""
  requestID : String := ""
  value : String := ""
  generate : Option Bool := none
  deriving DecidableEq, Repr

structure ManagedSecretSummary where
  name : String
  ownerApp : String
  scope : SecretScope
  description : String
  currentVersion : Nat
  createdAt : String
  updatedAt : String
  createdBy : String
  updatedBy : String
  retiredAt : Option String
  retiredReason : String
  deriving DecidableEq, Repr

structure ManagedSecretVersionSummary where
  version : Nat
  state : String
  createdAt : String
  createdBy : String
  reason : String
  kmsKey : String
  deriving DecidableEq, Repr

structure ManagedSecretWriteResponse where
  secret : ManagedSecretSummary
  version : ManagedSecretVersionSummary
  generatedValue : String
  rolloutRequired : Bool
  deriving DecidableEq, Repr

def formatAdminTime (value : Int) : String :=
  if value = 0 then "" else Time.formatRFC3339 value

def managedSecretSummaryFromCore (secret : ManagedSecret) : ManagedSecretSummary where
  name := secret.name
  ownerApp := secret.ownerApp
  scope := secret.scope
  description := secret.description
  currentVersion := secret.currentVer
  createdAt := formatAdminTime secret.createdAt
  updatedAt := formatAdminTime secret.updatedAt
  createdBy := secret.createdBy
  updatedBy := secret.updatedBy
  retiredAt := secret.retiredAt.map formatAdminTime
  retiredReason := secret.retiredReason

-- What a request gets from outside. Random bytes are for a generated value and for the encryption.
structure AdminEnvironment extends SecretEnvironment where
  random : Bytes
  nonce : Nat
  drawn : random.length = 48

namespace ManagedSecretWriteRequest

variable (req : ManagedSecretWriteRequest)

def parsedOperation : Option ManagedSecretOperation :=
  match Text.trimSpace req.operation with
  | "create" => some .create
  | "rotate" => some .rotate
  | _ => none

def Generates : Prop :=
  req.generate = some true

instance {req : ManagedSecretWriteRequest} : Decidable req.Generates :=
  inferInstanceAs <| Decidable (_ = _)

def generatedValue (env : AdminEnvironment) : String :=
  if req.Generates then generateSecretValue env.random else ""

def plaintext (env : AdminEnvironment) : Bytes :=
  if req.Generates then bytes (generateSecretValue env.random) else bytes req.value

def input (operation : ManagedSecretOperation) (actor : String)
    (encrypted : ManagedSecretCiphertext) : PutSecretInput where
  operation := operation
  name := Text.trimSpace req.name
  ownerApp := req.ownerApp
  scope := req.scope
  description := req.description
  reason := req.reason
  actor := actor
  source := req.source
  requestID := req.requestID
  kmsKey := encrypted.kmsKey
  kmsKeyVersion := encrypted.kmsKeyVersion
  ciphertext := encrypted.ciphertext

end ManagedSecretWriteRequest

def badRequest (f : Failure) : HTTPError :=
  ⟨400, f.text⟩

def putError (f : Failure) : HTTPError :=
  if f.Is .managedSecretExists then ⟨409, "managed secret already exists"⟩
  else if f.Is .managedSecretNotFound then ⟨404, "managed secret not found"⟩
  else badRequest f

-- What the handler checks about the secret before it generates a value.
def checkExisting (operation : ManagedSecretOperation) (existing : Option ManagedSecret) :
    Except HTTPError Unit := do
  HTTPError.check (¬(existing = none ∧ operation = .rotate)) 404 "managed secret not found"
  HTTPError.check (¬(existing ≠ none ∧ operation = .create)) 409 "managed secret already exists"
  HTTPError.check (existing.all (·.retiredAt = none)) 400 "cannot write retired secret"

def checkValue (req : ManagedSecretWriteRequest) (env : AdminEnvironment) : Except HTTPError Unit := do
  HTTPError.check (¬(req.Generates ∧ req.value ≠ "")) 400 "value and generate are mutually exclusive"
  HTTPError.check (req.plaintext env ≠ []) 400 "secret value is required"
  HTTPError.check ((req.plaintext env).length ≤ 64 * 1024) 400 "secret value exceeds 64 KiB"

def writeResponse (req : ManagedSecretWriteRequest) (env : AdminEnvironment) (secret : ManagedSecret)
    (version : ManagedSecretVersion) : ManagedSecretWriteResponse where
  secret          := managedSecretSummaryFromCore secret
  version         :=
    { version   := version.version
      state     := version.state
      createdAt := formatAdminTime version.createdAt
      createdBy := version.createdBy
      reason    := version.reason
      kmsKey    := version.kmsKey }
  generatedValue  := req.generatedValue env
  rolloutRequired := 1 < secret.currentVer

section Handlers

variable (cipher : ManagedSecretCipher) (hash : Bytes → String) (env : AdminEnvironment)
  (caller : Option Caller)

def writeAdminManagedSecret (req : ManagedSecretWriteRequest) (db : ManagedSecretDB) :
    Except HTTPError (ManagedSecretDB × ManagedSecretWriteResponse) := do
  let name := Text.trimSpace req.name
  (validateSecretName name).mapError badRequest
  match req.parsedOperation with
  | none => .error ⟨400, "operation must be create or rotate"⟩
  | some operation => do
    let actor ← adminActor caller
    HTTPError.check (Text.trimSpace req.reason ≠ "") 400 "reason is required"
    checkExisting operation (ManagedSecretService.get name db).toOption
    checkValue req env
    let encrypted ← (cipher.encrypt name (req.plaintext env) env.nonce).mapError fun _ =>
      ⟨500, "failed to encrypt secret value"⟩
    let (db, secret, version) ← (ManagedSecretService.put hash env.toSecretEnvironment
      (req.input operation actor encrypted) db).mapError putError
    return (db, writeResponse req env secret version)

def retireAdminManagedSecret (name reason : String) (db : ManagedSecretDB) :
    Except HTTPError (ManagedSecretDB × ManagedSecretSummary) := do
  let name := Text.trimSpace name
  (validateSecretName name).mapError badRequest
  HTTPError.check (Text.trimSpace reason ≠ "") 400 "reason is required"
  let actor ← adminActor caller
  let (db, secret) ← (ManagedSecretService.retire env.toSecretEnvironment name actor reason env.clock
    db).mapError fun f =>
      if f.Is .managedSecretNotFound then ⟨404, "managed secret not found"⟩
      else ⟨500, "failed to retire managed secret"⟩
  return (db, managedSecretSummaryFromCore secret)

end Handlers

-- The requests of administrators that can change secrets.
inductive AdminSecretRequest
  | write (req : ManagedSecretWriteRequest)
  | retire (name reason : String)

variable (cipher : ManagedSecretCipher)

def AdminSecretRequest.after (hash : Bytes → String)
    (env : AdminEnvironment) (caller : Option Caller) (db : ManagedSecretDB) :
    AdminSecretRequest → ManagedSecretDB
  | write req => (writeAdminManagedSecret cipher hash env caller req db).toOption.elim db (·.1)
  | retire name reason => (retireAdminManagedSecret env caller name reason db).toOption.elim db (·.1)

namespace SecretWrites

inductive Step (cipher : ManagedSecretCipher) (hash : Bytes → String) (db : ManagedSecretDB) :
    ManagedSecretDB → Prop
  | request (request : AdminSecretRequest) (caller : Option Caller) {env : AdminEnvironment}
    (fresh : env.Fresh db) : Step cipher hash db (request.after cipher hash env caller db)

abbrev Reaches (cipher : ManagedSecretCipher) (hash : Bytes → String) :
    ManagedSecretDB → ManagedSecretDB → Prop :=
  Relation.ReflTransGen (Step cipher hash)

-- No write of the secret has succeeded with this request id, unless it is empty.
def Unused (db : ManagedSecretDB) (name requestID : String) : Prop :=
  requestID ≠ "" → ∀ row ∈ db.audit, row.name = name → row.requestID = requestID → row.result ≠ "success"

-- The value in a response is what is stored for the version in the response.
def Truthful (db : ManagedSecretDB) (name : String)
    (response : ManagedSecretWriteResponse) : Prop :=
  ∃ rec ∈ db.versions, rec.name = name ∧ rec.version = response.version.version ∧
    cipher.decrypt name rec.ciphertext = some (bytes response.generatedValue)

-- The value that the request would generate is not stored yet.
def FreshValue (db : ManagedSecretDB) (name : String) (env : AdminEnvironment) : Prop :=
  ∀ rec ∈ db.versions, rec.name = name →
    cipher.decrypt name rec.ciphertext ≠ some (bytes (generateSecretValue env.random))

end SecretWrites
end Server
