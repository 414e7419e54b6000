import GestaltModel.Coredata.ObjectStore
import GestaltModel.Primitives.Rfc3339

namespace Coredata

open Text (trimSpace)

abbrev Bytes := List UInt8

inductive ManagedSecretOperation
  | create
  | rotate
  deriving DecidableEq, Repr

inductive SecretScope
  | app
  | shared
  deriving DecidableEq, Repr

inductive SecretAction
  | write (operation : ManagedSecretOperation)
  | retire
  deriving DecidableEq, Repr

-- Versions are counted from one by the writes of a secret. For the source they are `int64`, whose end
-- no number of writes reaches.
structure ManagedSecret where
  name : String
  ownerApp : String
  scope : SecretScope
  description : String
  currentVer : Nat
  createdAt : Int
  updatedAt : Int
  createdBy : String
  updatedBy : String
  retiredAt : Option Int := none
  retiredReason : String := ""
  deriving DecidableEq, Repr

structure ManagedSecretVersion where
  name : String
  version : Nat
  state : String := "active"
  createdAt : Int
  createdBy : String
  reason : String
  description : String
  kmsKey : String
  kmsKeyVersion : String := ""
  ciphertextSHA256 : String
  deriving DecidableEq, Repr

structure ManagedSecretVersionRecord extends ManagedSecretVersion where
  ciphertext : Bytes
  deriving DecidableEq, Repr

structure ManagedSecretAuditLog where
  id : String
  name : String
  action : SecretAction
  version : Nat
  ownerApp : String
  actor : String
  reason : String
  source : String
  requestID : String := ""
  kmsKey : String := ""
  cipherHash : String := ""
  createdAt : Int
  result : String := "success"
  deriving DecidableEq, Repr

-- `fmt.Sprintf("%s:%09d", name, version)`
def secretVersionID (name : String) (version : Nat) : String :=
  name ++ ":" ++ .ofList (Time.appendInt 9 version)

instance : Record ManagedSecret where
  id := ManagedSecret.name

instance : Record ManagedSecretVersionRecord where
  id rec := secretVersionID rec.name rec.version

instance : Record ManagedSecretAuditLog where
  id := ManagedSecretAuditLog.id

-- The key of the unique index `by_name_version`.
def ManagedSecretVersionRecord.nameVersion (rec : ManagedSecretVersionRecord) : String × Nat :=
  (rec.name, rec.version)

-- The key of the unique index `by_name_request`.
def ManagedSecretAuditLog.nameRequest (row : ManagedSecretAuditLog) : String × String :=
  (row.name, row.requestID)

structure ManagedSecretDB where
  secrets : ObjectStore ManagedSecret := ∅
  versions : ObjectStore ManagedSecretVersionRecord := ∅
  audit : ObjectStore ManagedSecretAuditLog := ∅

def errSecretExists : Failure where
  text := "managed secret already exists"
  sentinel := some .managedSecretExists

def errSecretNotFound : Failure where
  text := "managed secret not found"
  sentinel := some .managedSecretNotFound

-- The regular expression `^[a-z][a-z0-9-]*$`
def secretNamePattern : List Char → Bool
  | [] => false
  | c :: cs => c.isLower && cs.all fun c => c.isLower || c.isDigit || c == '-'

def validateSecretName (name : String) : Except Failure Unit := do
  let name := trimSpace name
  require (name ≠ "") "secret name is required"
  require (name.utf8ByteSize ≤ 255) "secret name must be at most 255 bytes"
  require (secretNamePattern name.toList) "secret name must match ^[a-z][a-z0-9-]*$"

def normalizeSecretScope (scope : String) : Option SecretScope :=
  match trimSpace scope with
  | ""       => some .app
  | "app"    => some .app
  | "shared" => some .shared
  | _ => none

-- `GenerateSecretValue` for the bytes that the random source returns.
def generateSecretValue (raw : Bytes) : String :=
  Text.base64RawURL raw

structure PutSecretInput where
  operation : ManagedSecretOperation
  name : String
  ownerApp : String := ""
  scope : String := ""
  description : String := ""
  reason : String
  actor : String
  source : String := ""
  requestID : String := ""
  kmsKey : String := ""
  kmsKeyVersion : String := ""
  ciphertext : Bytes
  now : Int := 0
  deriving DecidableEq, Repr

-- What a call gets from outside: the time on the clock, and the id that `NewSecretAuditID` draws.
structure SecretEnvironment where
  clock : Int
  auditID : String

namespace SecretEnvironment

def now (env : SecretEnvironment) (given : Int) : Int :=
  if given = 0 then Time.truncate Time.millisecond env.clock else given

-- Audit ids are 16 random bytes, so they are taken not to repeat.
def Fresh (env : SecretEnvironment) (db : ManagedSecretDB) : Prop :=
  db.audit.lookup env.auditID = none

end SecretEnvironment

variable (hash : Bytes → String)

namespace ManagedSecretService

def get (name : String) (db : ManagedSecretDB) : Except Failure ManagedSecret := do
  validateSecretName name
  match db.secrets.lookup name with
  | some secret => return secret
  | none => .error errSecretNotFound

def validatePut (input : PutSecretInput) : Except Failure Unit := do
  validateSecretName input.name
  require (input.ciphertext ≠ []) "ciphertext is required"
  require (input.ciphertext.length ≤ 2 * 1024 * 1024) "ciphertext exceeds the 2 MiB management limit"
  require (trimSpace input.actor ≠ "") "actor is required"
  require (trimSpace input.reason ≠ "") "reason is required"

-- The error `fmt.Errorf("%w: %q", err, name)`.
def named (f : Failure) (name : String) : Failure :=
  { f with text := f.text ++ ": " ++ Text.quote name }

-- A secret is created only once and rotated only when it exists.
def checkOperation (input : PutSecretInput) (current : Option ManagedSecret) : Except Failure Unit :=
  match current, input.operation with
  | none, .rotate => .error (named errSecretNotFound input.name)
  | some _, .create => .error (named errSecretExists input.name)
  | _, _ => .ok ()

-- What a secret is created with and keeps.
structure Profile where
  ownerApp : String
  scope : SecretScope
  description : String

def profile (input : PutSecretInput) (current : Option ManagedSecret) : Except Failure Profile := do
  let scope := current.elim (normalizeSecretScope input.scope) fun secret => some secret.scope
  let ownerApp := current.elim (trimSpace input.ownerApp) (·.ownerApp)
  let description := current.elim (trimSpace input.description) (·.description)
  match scope with
  | none => .error ⟨"scope must be app or shared", none⟩
  | some scope => do
    require (¬(scope = .app ∧ ownerApp = "")) "ownerApp is required for app-scoped secrets"
    return { ownerApp, scope, description }

def priorWrite (db : ManagedSecretDB) (name requestID : String) : Option ManagedSecretAuditLog :=
  if requestID = "" then
    none
  else
    (db.audit.getBy ManagedSecretAuditLog.nameRequest (name, requestID)).filter (·.result = "success")

def versionOfRow (row : ManagedSecretAuditLog) (existing : ManagedSecret) : ManagedSecretVersion where
  name := row.name
  version := row.version
  createdAt := row.createdAt
  createdBy := row.actor
  reason := row.reason
  description := existing.description
  kmsKey := row.kmsKey
  ciphertextSHA256 := row.cipherHash

def nextVersion (current : Option ManagedSecret) : Nat :=
  current.elim 1 (·.currentVer + 1)

section Records

variable (hash : Bytes → String) (now : Int) (auditID : String) (input : PutSecretInput)
  (profile : Profile) (current : Option ManagedSecret)

def newVersion : ManagedSecretVersion where
  name := input.name
  version := nextVersion current
  createdAt := now
  createdBy := trimSpace input.actor
  reason := trimSpace input.reason
  description := profile.description
  kmsKey := trimSpace input.kmsKey
  kmsKeyVersion := trimSpace input.kmsKeyVersion
  ciphertextSHA256 := hash input.ciphertext

def newSecret : ManagedSecret where
  name := input.name
  ownerApp := profile.ownerApp
  scope := profile.scope
  description := profile.description
  currentVer := nextVersion current
  createdAt := current.elim now (·.createdAt)
  updatedAt := now
  createdBy := current.elim (trimSpace input.actor) (·.createdBy)
  updatedBy := trimSpace input.actor

def newRow : ManagedSecretAuditLog where
  id := auditID
  name := input.name
  action := .write input.operation
  version := nextVersion current
  ownerApp := profile.ownerApp
  actor := trimSpace input.actor
  reason := trimSpace input.reason
  source := trimSpace input.source
  requestID := trimSpace input.requestID
  kmsKey := trimSpace input.kmsKey
  cipherHash := hash input.ciphertext
  createdAt := now

end Records

-- `Put` allocates a version. The id of a secret is its name, so the column `name` cannot conflict.
def write (now : Int) (auditID : String) (input : PutSecretInput)
    (profile : Profile) (current : Option ManagedSecret) (db : ManagedSecretDB) :
    Except Failure (ManagedSecretDB × ManagedSecret × ManagedSecretVersion) := do
  require (current.all (·.retiredAt = none)) ("cannot write retired secret " ++ Text.quote input.name)
  let version := newVersion hash now input profile current
  let secret := newSecret now input profile current
  let versions ← (db.versions.putUnique ManagedSecretVersionRecord.nameVersion
    { version with ciphertext := input.ciphertext }).context "managed secret write: version"
  let audit ← (db.audit.putUnique ManagedSecretAuditLog.nameRequest
    (newRow hash now auditID input profile current)).context "managed secret write: audit"
  return ({ secrets := db.secrets.put secret, versions, audit }, secret, version)

def put (env : SecretEnvironment) (input : PutSecretInput) (db : ManagedSecretDB) :
    Except Failure (ManagedSecretDB × ManagedSecret × ManagedSecretVersion) := do
  validatePut input
  let current := db.secrets.lookup input.name
  checkOperation input current
  let profile ← profile input current
  match priorWrite db input.name (trimSpace input.requestID) with
  | some row => do
    let existing ← get input.name db
    return (db, existing, versionOfRow row existing)
  | none => write hash (env.now input.now) env.auditID input profile current db

def retiredSecret (actor reason : String) (now : Int) (secret : ManagedSecret) : ManagedSecret :=
  { secret with
    retiredAt := some now
    retiredReason := trimSpace reason
    updatedAt := now
    updatedBy := trimSpace actor }

def retireRow (auditID actor reason : String) (now : Int) (secret : ManagedSecret) :
    ManagedSecretAuditLog where
  id := auditID
  name := secret.name
  action := .retire
  version := secret.currentVer
  ownerApp := secret.ownerApp
  actor := trimSpace actor
  reason := trimSpace reason
  source := "api"
  createdAt := now

def retire (env : SecretEnvironment) (name actor reason : String) (now : Int) (db : ManagedSecretDB) :
    Except Failure (ManagedSecretDB × ManagedSecret) := do
  validateSecretName name
  require (trimSpace actor ≠ "" ∧ trimSpace reason ≠ "") "actor and reason are required"
  let now := env.now now
  match db.secrets.lookup name with
  | none => .error errSecretNotFound
  | some current =>
    if current.retiredAt ≠ none then
      return (db, current)
    else
      let retired := retiredSecret actor reason now current
      let audit ← (db.audit.putUnique ManagedSecretAuditLog.nameRequest
        (retireRow env.auditID actor reason now current)).context "retire managed secret: audit"
      return ({ db with secrets := db.secrets.put retired, audit }, retired)

end ManagedSecretService

inductive SecretCall
  | put (input : PutSecretInput)
  | retire (name actor reason : String) (now : Int)

namespace SecretCall

def perform (env : SecretEnvironment) (db : ManagedSecretDB) :
    SecretCall → Except Failure ManagedSecretDB
  | put input => return (← ManagedSecretService.put hash env input db).1
  | retire name actor reason now => return (← ManagedSecretService.retire env name actor reason now db).1

end SecretCall

namespace ManagedSecretDB

-- A call that fails is rolled back and changes nothing.
inductive Step (hash : Bytes → String) (db : ManagedSecretDB) : ManagedSecretDB → Prop
  | ok {call : SecretCall} {env db'} (fresh : env.Fresh db)
    (performed : call.perform hash env db = .ok db') : Step hash db db'
  | error {call : SecretCall} {env f} (failed : call.perform hash env db = .error f) : Step hash db db

def after (env : SecretEnvironment) (call : SecretCall) (db : ManagedSecretDB) : ManagedSecretDB :=
  (call.perform hash env db).toOption.getD db

abbrev Reaches (hash : Bytes → String) : ManagedSecretDB → ManagedSecretDB → Prop :=
  Relation.ReflTransGen (Step hash)

end ManagedSecretDB
end Coredata
