import GestaltModel.Credentials.Selection
import GestaltModel.Interleaving.Execution

-- The credential of an instance. All runs are for one subject, audience and instance, so the
-- provider has at most one record for them.
namespace Credentials.Store

open Interleaving

-- The encoding of metadata as JSON.
structure Json where
  unmarshal : String → Option (GoMap String)
  marshal : GoMap String → String

-- What is encoded can be decoded, and is not blank.
structure Json.Faithful (json : Json) : Prop where
  unmarshal_marshal : json.unmarshal (json.marshal m) = some m
  ne_blank : Text.trimSpace (json.marshal m) ≠ ""

structure Provider extends Json where
  -- `ExternalCredentialProviderPersistsAccountKey`
  persistsAccountKey : Bool
  -- Whether the provider is an `ExternalCredentialConditionalUpserter`
  conditional : Bool

namespace Provider

variable (p : Provider)

def key (credential : ExternalCredential) : String :=
  accountKeyForCredential p.unmarshal credential

-- The account key of the stored record, if there is a record and its key is known.
def recordKey (record : Option ExternalCredential) : String :=
  record.elim "" p.key

def kept (credential : ExternalCredential) : ExternalCredential :=
  if p.persistsAccountKey then credential else { credential with accountKey := "" }

end Provider

inductive ProviderError
  | notFound
  | alreadyExists
  | other (f : Failure)
  deriving DecidableEq, Repr

inductive StoreError
  | targetMismatch (instanceName : String)
  | ownershipUnknown (instanceName : String)
  | differentAccount (instanceName : String)
  | conditionalUpsertUnsupported
  | metadata (f : Failure)
  | provider (context : String) (e : ProviderError)
  deriving DecidableEq, Repr

inductive Call
  | get
  | create (credential : ExternalCredential)
  | upsert (credential : ExternalCredential)
  | upsertIfID (credential : ExternalCredential) (expectedID : String)

abbrev Call.Response : Call → Type
  | get => Except ProviderError ExternalCredential
  | create _ => Except ProviderError Unit
  | upsert _ => Except ProviderError Unit
  | upsertIfID _ _ => Except ProviderError Unit

-- The stored record. Besides, what each run has found last and whether it has changed something.
structure Memory (ι : Type) where
  record : Option ExternalCredential
  found : ι → Option ExternalCredential
  wrote : ι → Bool

section Semantics

variable {ι : Type} [DecidableEq ι] (p : Provider)

def Memory.write (s : Memory ι) (i : ι) (credential : ExternalCredential) : Memory ι :=
  { s with record := some (p.kept credential), wrote := Function.update s.wrote i true }

-- A call that fails with an error of its own has no effect.
def exec (i : ι) : (c : Call) → Option Failure → Memory ι → Memory ι × c.Response
  | .get, some f, s => (s, .error (.other f))
  | .create _, some f, s => (s, .error (.other f))
  | .upsert _, some f, s => (s, .error (.other f))
  | .upsertIfID _ _, some f, s => (s, .error (.other f))
  | .get, none, s =>
    ({ s with found := Function.update s.found i s.record },
      s.record.elim (.error .notFound) .ok)
  | .create credential, none, s =>
    match s.record with
    | some _ => (s, .error .alreadyExists)
    | none   => (s.write p i credential, .ok ())
  | .upsert credential, none, s => (s.write p i credential, .ok ())
  | .upsertIfID credential id, none, s =>
    match s.record with
    | none        => (s, .error .notFound)
    | some stored =>
      if stored.id = id then
        (s.write p i { credential with id := stored.id, createdAt := stored.createdAt }, .ok ())
      else
        (s, .error .alreadyExists)

-- The environment deletes credentials by their ids.
@[reducible]
def semantics (ι : Type) [DecidableEq ι] : Semantics ι Call Call.Response (Memory ι) where
  Oracle := Option Failure
  Act := String
  exec i c o s := exec p i c o s
  act id s     := { s with record := s.record.filter (·.id ≠ id) }

end Semantics

abbrev Run := Program Call Call.Response

def perform (c : Call) : Run c.Response :=
  Program.perform c

section Metadata

variable (json : Json)

def parseMetadataMap (metadataJSON : String) : Except Failure (GoMap String) :=
  if Text.trimSpace metadataJSON = "" then
    .ok ∅
  else
    match json.unmarshal metadataJSON with
    | none => .error ⟨"corrupt MetadataJSON", none⟩
    | some m => .ok m

def marshalMetadataMap (m : GoMap String) : String :=
  if m.keys = ∅ then "" else json.marshal m

def removeAccountKeyMetadata (metadataJSON : String) : Except Failure String := do
  return marshalMetadataMap json ((← parseMetadataMap json metadataJSON).erase "account_key")

def setAccountKeyMetadata (metadataJSON accountKey : String) : Except Failure String := do
  let m ← parseMetadataMap json metadataJSON
  return marshalMetadataMap json <|
    if Text.trimSpace accountKey = "" then m.erase "account_key"
    else m.insert "account_key" (Text.trimSpace accountKey)

end Metadata

variable (p : Provider)

def persistMetadata (credential : ExternalCredential) (accountKey : String) :
    Except StoreError ExternalCredential :=
  match setAccountKeyMetadata p.toJson credential.metadataJSON accountKey with
  | .error f => .error (.metadata (f.wrap "persist account key compatibility metadata"))
  | .ok metadata => .ok { credential with metadataJSON := metadata }

def normalizeAccountKeyForStorage (credential : ExternalCredential) :
    Except StoreError ExternalCredential :=
  let accountKey := p.key credential
  let credential := { credential with accountKey }
  if accountKey = "" then
    .ok credential
  else if p.persistsAccountKey then
    match removeAccountKeyMetadata p.toJson credential.metadataJSON with
    | .error _ => .ok credential
    | .ok cleaned => .ok { credential with metadataJSON := cleaned }
  else
    persistMetadata p credential accountKey

variable (candidate existing : ExternalCredential) (expectedCredentialID : String)

-- The first part of `upsertCredentialAtInstance`: a reconnect may retain the existing key.
def retainKey : Except StoreError ExternalCredential :=
  if p.key existing ≠ "" ∧ p.key candidate = "" then
    if Text.trimSpace expectedCredentialID = "" ∨ Text.trimSpace expectedCredentialID ≠ existing.id then
      .error (.ownershipUnknown candidate.qualifier)
    else
      let candidate := { candidate with accountKey := p.key existing }
      if p.persistsAccountKey then .ok candidate else persistMetadata p candidate (p.key existing)
  else
    .ok candidate

-- The candidate as it replaces the existing record.
def adopt : Except StoreError ExternalCredential :=
  let candidateKey :=
    if p.key existing ≠ "" ∧ p.key candidate = "" then p.key existing else p.key candidate
  match retainKey p candidate existing expectedCredentialID with
  | .error e => .error e
  | .ok candidate =>
    if p.key existing ≠ "" ∧ p.key existing ≠ candidateKey then
      .error (.differentAccount candidate.qualifier)
    else
      (normalizeAccountKeyForStorage p candidate).map fun candidate =>
        { candidate with id := existing.id, createdAt := existing.createdAt }

def upsertCredentialAtInstance : Run (Except StoreError Unit) :=
  match adopt p candidate existing expectedCredentialID with
  | .error e => .ret (.error e)
  | .ok candidate => do
    if expectedCredentialID ≠ "" then
      if ¬p.conditional then
        return .error .conditionalUpsertUnsupported
      match ← perform (.upsertIfID candidate expectedCredentialID) with
      | .error .alreadyExists => return .error (.targetMismatch candidate.qualifier)
      | .error e              => return .error (.provider "" e)
      | .ok _                 => return .ok ()
    else
      match ← perform (.upsert candidate) with
      | .error e => return .error (.provider "" e)
      | .ok _    => return .ok ()

-- Applies the rules to the record that was found.
def replaceFound : Run (Except StoreError Unit) :=
  if expectedCredentialID ≠ "" ∧ existing.id ≠ expectedCredentialID then
    .ret (.error (.targetMismatch candidate.qualifier))
  else
    upsertCredentialAtInstance p candidate existing expectedCredentialID

variable (candidate : ExternalCredential) (expectedCredentialID : String)

-- Another server won the insert between `GetCredential` and `CreateCredential`.
def replaceAfterConflict : Run (Except StoreError Unit) := do
  match ← perform .get with
  | .error e => return .error (.provider "read credential after instance conflict: " e)
  | .ok existing => replaceFound p candidate existing expectedCredentialID

def createCredential : Run (Except StoreError Unit) := do
  match ← perform (.create candidate) with
  | .ok _ => return .ok ()
  | .error .alreadyExists => replaceAfterConflict p candidate expectedCredentialID
  | .error e => return .error (.provider "" e)

def storeCredentialAtInstance : Run (Except StoreError Unit) := do
  let expectedCredentialID := Text.trimSpace expectedCredentialID
  match ← perform .get with
  | .ok existing => replaceFound p candidate existing expectedCredentialID
  | .error .notFound =>
    if expectedCredentialID ≠ "" then
      return .error (.targetMismatch candidate.qualifier)
    match normalizeAccountKeyForStorage p candidate with
    | .error e      => return .error e
    | .ok candidate => createCredential p candidate expectedCredentialID
  | .error e => return .error (.provider "get credential at instance " e)

structure Connect where
  candidate : ExternalCredential
  expectedCredentialID : String

-- Any number of runs, where some may not exist.
def config (runs : ι → Option Connect) (record : Option ExternalCredential) :
    Config ι Call Call.Response (Except StoreError Unit) (Memory ι) where
  mem := { record, found := fun _ => none, wrote := fun _ => false }
  prog i := (runs i).elim (.ret (.ok ())) fun run =>
    storeCredentialAtInstance p run.candidate run.expectedCredentialID

-- The account of the record does not change between the last read of a run and its write.
def unmoved (i : ι) : Call → Memory ι → Prop
  | .get, _ => True
  | .create _, _ => True
  | .upsert _, s => p.recordKey s.record = p.recordKey (s.found i)
  | .upsertIfID _ _, s => p.recordKey s.record = p.recordKey (s.found i)

-- A record whose account is known is only replaced by one of the same account.
def KeepsAccount (s s' : Memory ι) : Prop :=
  ∀ old new, s.record = some old → s'.record = some new → p.key old ≠ "" → p.key new = p.key old

end Credentials.Store
