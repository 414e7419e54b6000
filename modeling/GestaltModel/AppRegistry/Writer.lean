import GestaltModel.AppRegistry.CatalogCas
import GestaltModel.AppRegistry.Validation

namespace AppRegistry

open Interleaving

inductive PublishObjectKind
  | entry
  | archive
  deriving DecidableEq, Repr

-- An immutable object of a publish plan. The document is what the file at its local path holds.
structure PublishObject where
  kind : PublishObjectKind
  document : Document
  storageURL : StorageURL
  sha256 : String

-- A release archive on disk.
structure LocalPublishArtifact where
  filename : String
  bytes : String
  deriving DecidableEq, Repr

-- The plan for one app version, as `BuildPublishManifest` makes it. `digest` is the hex digest of a
-- file. The entry records each artifact with the URL and digest of a local archive.
structure PublishManifest (digest : Document → String) (root : StorageURL) where
  appName : String
  displayName : String
  description : String
  version : String
  entry : Entry
  artifacts : List LocalPublishArtifact
  app_trimmed : Text.Trimmed appName
  app_eq : entry.app = appName
  version_eq : entry.version = Text.trimSpace version
  recorded : ∀ {target artifact}, entry.artifacts.lookup target = some artifact →
    ∃ a ∈ artifacts, artifact.sha256 = digest (.archive a.bytes) ∧
      artifact.url = storageURL root (appArtifactPrefix appName version ++ [a.filename])

namespace PublishManifest

variable {digest : Document → String} {root : StorageURL} (plan : PublishManifest digest root)

def entryObject : PublishObject where
  kind := .entry
  document := .entry plan.entry
  storageURL := AppRegistry.storageURL root (appVersionEntryPath plan.appName plan.version)
  sha256 := digest (.entry plan.entry)

def artifactObject (a : LocalPublishArtifact) : PublishObject where
  kind := .archive
  document := .archive a.bytes
  storageURL := AppRegistry.storageURL root
    (appArtifactPrefix plan.appName plan.version ++ [a.filename])
  sha256 := digest (.archive a.bytes)

def artifactObjects : List PublishObject :=
  plan.artifacts.map plan.artifactObject

def indexURL : StorageURL :=
  storageURL root (appIndexPath plan.appName)

end PublishManifest

inductive ObjectWriteOutcome
  | uploaded
  | skipped
  deriving DecidableEq, Repr

structure ImmutableObjectOutcome where
  storageURL : StorageURL
  outcome : ObjectWriteOutcome
  deriving DecidableEq, Repr

structure PublishResult where
  artifacts : List ImmutableObjectOutcome := []
  entry : Option ImmutableObjectOutcome := none
  retention : CatalogWriteOutcome := .notAttempted
  index : CatalogWriteOutcome := .notAttempted
  deriving DecidableEq, Repr

structure Writer where
  catalogAttempts : Int := 0
  retentionPolicy : RetentionPolicy := ⟨0, 0⟩
  deriving DecidableEq, Repr

abbrev RegistryProgram (α : Type) := StoreProgram Document α

def entryFileEquivalentIgnoringPublishedAt (localFile : Document) (existing : Option Document) :
    Except Failure Bool := do
  let localEntry ← (decodeEntry localFile).context "decode local entry"
  match existing with
  | none => .error (.wrap "decode existing entry" (undecodable "app registry entry"))
  | some existing =>
    let existingEntry ← (decodeEntry existing).context "decode existing entry"
    return EntriesEqualIgnoringPublishedAt localEntry existingEntry

def immutableObjectConflictError (object : PublishObject) : Failure :=
  match object.kind with
  | .entry => ⟨object.storageURL.text ++ ": registry entry conflict; " ++
    republishCorruptObjectGuidance, some .registryEntryConflict⟩
  | .archive => ⟨object.storageURL.text ++ ": registry object precondition failed; " ++
    republishCorruptObjectGuidance, some .objectPreconditionFailed⟩

def immutableObjectMatchesExisting (object : PublishObject) :
    RegistryProgram (Except Failure Bool) := do
  match ← request (.describeObject object.storageURL) with
  | .error e => return .error e
  | .ok described =>
    if described.generation = 0 then
      return .ok false
    else if object.sha256 ≠ "" ∧ described.sha256 = object.sha256 then
      return .ok true
    else if object.kind = .entry then
      match ← readObject object.storageURL with
      | .error e          => return .error e
      | .ok (_, existing) =>
        return entryFileEquivalentIgnoringPublishedAt object.document existing
    else
      return .ok false

def uploadImmutableObjectIfNeeded (object : PublishObject) :
    RegistryProgram (Except Failure ImmutableObjectOutcome) := do
  match ← immutableObjectMatchesExisting object with
  | .error e => return .error e
  | .ok true => return .ok ⟨object.storageURL, .skipped⟩
  | .ok false =>
    match ← request (.writeImmutableObject object.storageURL object.document object.sha256) with
    | .ok ()   => return .ok ⟨object.storageURL, .uploaded⟩
    | .error e =>
      if e.Is .objectPreconditionFailed then
        match ← immutableObjectMatchesExisting object with
        | .ok true => return .ok ⟨object.storageURL, .skipped⟩
        | _        => return .error (immutableObjectConflictError object)
      else
        return .error e

-- The loop over the artifacts returns what was done so far beside an error.
def uploadArtifacts (done : List ImmutableObjectOutcome) :
    List PublishObject → RegistryProgram (List ImmutableObjectOutcome × Option Failure)
  | [] => return (done, none)
  | object :: objects => do
    match ← uploadImmutableObjectIfNeeded object with
    | .error e    => return (done, some e)
    | .ok outcome => uploadArtifacts (done ++ [outcome]) objects

namespace Writer

variable {digest : Document → String} {root : StorageURL}

def policy (w : Writer) : RetentionPolicy :=
  if w.retentionPolicy.unusedRetention = 0 ∧ w.retentionPolicy.deployedRetention = 0 then
    defaultRetentionPolicy
  else
    w.retentionPolicy

-- `adoptStoredEntryPublishedAt` returns the entry that the catalogs are updated with.
def adoptStoredEntryPublishedAt (plan : PublishManifest digest root)
    (entryOutcome : ImmutableObjectOutcome) : RegistryProgram (Except Failure Entry) := do
  if entryOutcome.outcome ≠ .skipped then
    return .ok plan.entry
  else
    match ← request (.describeObject plan.entryObject.storageURL) with
    | .error e => return .error e
    | .ok described =>
      if described.generation = 0 then
        return .ok plan.entry
      else
        match ← readObject plan.entryObject.storageURL with
        | .error e         => return .error e
        | .ok (_, none)    => return .error (undecodable "app registry entry")
        | .ok (_, some document) =>
          match decodeEntry document with
          | .error e   => return .error e
          | .ok stored =>
            if stored.publishedAt = 0 then
              return .ok plan.entry
            else
              return .ok { plan.entry with publishedAt := stored.publishedAt }

def uploadRetention (w : Writer) (plan : PublishManifest digest root) (publishedAt : Int) :
    RegistryProgram (Except Failure CatalogWriteOutcome) :=
  compareAndSwapCatalog (retentionStorageURL plan.indexURL plan.appName) w.catalogAttempts
    decodeRetentionIndexOrEmpty
    (fun index => .ok (upsertPublishedRetention index plan.version publishedAt w.policy))
    (fun index => .ok (.retention index))

def uploadIndex (w : Writer) (plan : PublishManifest digest root) (entry : Entry) :
    RegistryProgram (Except Failure CatalogWriteOutcome) :=
  compareAndSwapCatalog plan.indexURL w.catalogAttempts decodeIndexOrEmpty
    (fun index => upsertAppIndex index entry (appVersionEntryPath plan.appName plan.version)
      plan.displayName plan.description)
    (fun index => .ok (.index index))

-- `Writer.Publish` returns what was committed, also when it fails.
def publish (w : Writer) (plan : PublishManifest digest root) :
    RegistryProgram (PublishResult × Option Failure) := do
  match ← uploadArtifacts [] plan.artifactObjects with
  | (artifacts, some e) => return ({ artifacts }, some e)
  | (artifacts, none) =>
    match ← uploadImmutableObjectIfNeeded plan.entryObject with
    | .error e         => return ({ artifacts }, some e)
    | .ok entryOutcome =>
      match ← adoptStoredEntryPublishedAt plan entryOutcome with
      | .error e  => return ({ artifacts, entry := entryOutcome }, some e)
      | .ok entry =>
        match ← w.uploadRetention plan entry.publishedAt with
        | .error e      => return ({ artifacts, entry := entryOutcome }, some e)
        | .ok retention =>
          match ← w.uploadIndex plan entry with
          | .error e  => return ({ artifacts, entry := entryOutcome, retention }, some e)
          | .ok index => return ({ artifacts, entry := entryOutcome, retention, index }, none)

end Writer

namespace Publishing

variable {digest : Document → String} {root : StorageURL} {ι : Type}

-- The URLs of entries and artifacts.
def Immutable (root url : StorageURL) : Prop :=
  ∃ appName version, url = storageURL root (appVersionEntryPath appName version) ∨
    ∃ filename, url = storageURL root (appArtifactPrefix appName version ++ [filename])

-- The documents that the publishers upload.
def Planned (plans : ι → PublishManifest digest root) (d : Document) : Prop :=
  ∃ i, d = .entry (plans i).entry ∨ ∃ a ∈ (plans i).artifacts, d = .archive a.bytes

-- The record of concurrent publishers says for each app and version which publisher listed it.
abbrev Listings (ι : Type) := String → String → Option ι

-- A version gets listed by a write of its app's index that adds a row for it.
def noteListing (root : StorageURL) :
    ι → (c : StoreCall Document) → c.Response → Bucket StorageURL Document → Listings ι → Listings ι
  | i, .writeCatalogObject url data _, .ok (), b, listings => fun appName v =>
    if url = storageURL root (appIndexPath appName) ∧
        v ∈ listedVersions (some data) appName ∧ v ∉ listedVersions (b.data? url) appName then
      some i
    else
      listings appName v
  | _, _, _, _, listings => listings

-- The configuration where any number of publishers start out on an empty store.
def config (writers : ι → Writer) (plans : ι → PublishManifest digest root) :
    Config ι (StoreCall Document) StoreCall.Response (PublishResult × Option Failure)
      (Memory Document (Listings ι)) where
  mem := { bucket := ∅, record := fun _ _ => none }
  prog := fun i => (writers i).publish (plans i)

-- What has to be in the store for a row listed by a publisher: the entry, its artifacts with their
-- digests, and a retention row.
structure Backed (plan : PublishManifest digest root) (appName v : String) (row : IndexVersion)
    (b : Bucket StorageURL Document) : Prop where
  app : plan.appName = appName
  version : plan.entry.version = v
  metadata : row.metadata = appVersionEntryPath appName plan.version
  entry : ∃ stored, b.data? (storageURL root row.metadata) = some (.entry stored) ∧
    EntriesEqualIgnoringPublishedAt plan.entry stored ∧
    ∀ target artifact, stored.artifacts.lookup target = some artifact →
      ∃ o, b.objects artifact.url = some o ∧ o.sha256 = artifact.sha256 ∧
        digest o.data = artifact.sha256
  retention : v ∈ retentionVersions (b.data? (storageURL root (appRetentionPath appName)))

end Publishing
end AppRegistry
