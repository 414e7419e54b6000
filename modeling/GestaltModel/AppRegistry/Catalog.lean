import GestaltModel.AppRegistry.Store
import GestaltModel.Primitives.GoMap

namespace AppRegistry

-- All times are nanoseconds since the zero `time.Time`, and text missing in the JSON form is empty.

inductive PublicationKind
  | unset
  | gitHub
  | localPublish
  | other (text : String)
  deriving DecidableEq, Repr

structure PublicationPullRequest where
  number : Int
  url : String
  title : String := ""
  deriving DecidableEq, Repr

structure PublicationCommit where
  sha : String
  url : String
  deriving DecidableEq, Repr

structure Publication where
  workflowRunURL : String
  triggerPullRequest : Option PublicationPullRequest := none
  triggerCommit : Option PublicationCommit := none
  deriving DecidableEq, Repr

structure LocalSourceState where
  commitSHA : String := ""
  dirty : Bool := false
  untracked : Bool := false
  deriving DecidableEq, Repr

structure Artifact where
  url : StorageURL
  publicURL : String
  sha256 : String
  deriving DecidableEq, Repr

structure OperationContract where
  inputSchema : String
  outputSchema : String
  deriving DecidableEq, Repr

structure AppRequirement where
  version : String
  operations : GoMap String
  deriving DecidableEq

-- The map `interface` holds the contracts of the operations, `requires` the requirements on other
-- apps with the hashes of input schemas.
structure Entry where
  schemaVersion : Int
  app : String
  version : String
  sourceRef : String := ""
  manifestPath : String
  repository : String := ""
  publication : Option Publication := none
  publicationKind : PublicationKind := .unset
  publishID : String := ""
  builderVersion : String := ""
  declarationDigest : String := ""
  localSource : Option LocalSourceState := none
  artifacts : GoMap Artifact
  interface : GoMap OperationContract := ∅
  requires : GoMap AppRequirement := ∅
  minGestaltdVersion : String := ""
  publishedAt : Int
  publishStartedAt : Option Int := none
  deriving DecidableEq

-- A row of the index. `metadata` is given by its segments, and the platforms are a set.
structure IndexVersion where
  metadata : List String
  platforms : Finset String
  publishedAt : Int
  publishStartedAt : Option Int
  sourceRef : String
  repository : String
  publication : Option Publication
  publicationKind : PublicationKind
  publishID : String
  builderVersion : String
  declarationDigest : String
  localSource : Option LocalSourceState
  deriving DecidableEq

structure AppVersions where
  displayName : String := ""
  description : String := ""
  versions : GoMap IndexVersion := ∅
  deriving DecidableEq

structure Index where
  schemaVersion : Int
  apps : GoMap AppVersions
  deriving DecidableEq

structure RetentionVersion where
  publishedAt : Int
  everDeployed : Bool
  expiresAt : Option Int
  deriving DecidableEq, Repr

structure RetentionIndex where
  schemaVersion : Int
  versions : GoMap RetentionVersion
  deriving DecidableEq

structure RetentionPolicy where
  unusedRetention : Int
  deployedRetention : Int
  deriving DecidableEq, Repr

-- The contents of registry objects, up to the layout of their JSON text.
inductive Document
  | archive (bytes : String)
  | entry (entry : Entry)
  | index (index : Index)
  | retention (index : RetentionIndex)
  deriving DecidableEq

def indexSchemaVersion : Int := 1

def entrySchemaVersion : Int := 1

def retentionIndexSchemaVersion : Int := 1

section Paths

def appVersionEntryPath (appName version : String) : List String :=
  ["apps", appName, "versions", version ++ ".json"]

def appIndexPath (appName : String) : List String :=
  ["apps", appName, "index.json"]

def appRetentionPath (appName : String) : List String :=
  ["apps", appName, "retention.json"]

def appArtifactPrefix (appName version : String) : List String :=
  ["apps", appName, "artifacts", version]

def storageURL (storageRoot : StorageURL) (rel : List String) : StorageURL :=
  storageRoot ++ rel

def trimSuffix (url : StorageURL) (suffix : List String) : StorageURL :=
  if suffix <:+ url then url.take (url.length - suffix.length) else url

def retentionStorageURL (indexStorageURL : StorageURL) (appName : String) : StorageURL :=
  storageURL (trimSuffix indexStorageURL (appIndexPath appName)) (appRetentionPath appName)

end Paths

-- `cloneTimePtr` of the address of a time.
def cloneTimePtr (t : Int) : Option Int :=
  if t = 0 then none else some t

namespace Index

def empty : Index where
  schemaVersion := indexSchemaVersion
  apps := ∅

def versions (index : Index) (appName : String) : GoMap IndexVersion :=
  (index.apps.lookup appName).elim ∅ (·.versions)

end Index

namespace RetentionIndex

def empty : RetentionIndex where
  schemaVersion := retentionIndexSchemaVersion
  versions := ∅

end RetentionIndex

def defaultRetentionPolicy : RetentionPolicy where
  unusedRetention := 72 * 3600000000000
  deployedRetention := 720 * 3600000000000

-- `UpsertPublishedRetention` returns the updated index, and whether it has changed.
def upsertPublishedRetention (index : RetentionIndex) (version : String) (publishedAt : Int)
    (policy : RetentionPolicy) : RetentionIndex × Bool :=
  let version := Text.trimSpace version
  let expiresAt := publishedAt + policy.unusedRetention
  match index.versions.lookup version with
  | some existing =>
    if existing.publishedAt = publishedAt ∧ existing.expiresAt = some expiresAt then
      (index, false)
    else
      let updated := { existing with
        publishedAt := publishedAt
        expiresAt := if existing.everDeployed then existing.expiresAt else cloneTimePtr expiresAt }
      ({ index with versions := index.versions.insert version updated }, true)
  | none =>
    let created := { publishedAt, everDeployed := false, expiresAt := cloneTimePtr expiresAt }
    ({ index with versions := index.versions.insert version created }, true)

def indexVersionFromEntry (entry : Entry) (metadataPath : List String) : IndexVersion where
  metadata := metadataPath
  platforms := entry.artifacts.keys
  publishedAt := entry.publishedAt
  publishStartedAt := entry.publishStartedAt.filter (· ≠ 0)
  sourceRef := Text.trimSpace entry.sourceRef
  repository := Text.trimSpace entry.repository
  publication := entry.publication
  publicationKind := entry.publicationKind
  publishID := Text.trimSpace entry.publishID
  builderVersion := Text.trimSpace entry.builderVersion
  declarationDigest := Text.trimSpace entry.declarationDigest
  localSource := entry.localSource

def indexVersionsEqualIgnoringPublishedAt (a b : IndexVersion) : Prop :=
  { a with publishedAt := 0, publishStartedAt := none } =
  { b with publishedAt := 0, publishStartedAt := none }

instance {a b : IndexVersion} : Decidable (indexVersionsEqualIgnoringPublishedAt a b) :=
  inferInstanceAs <| Decidable (_ = _)

def normalizeEntryPublicationKindForEquality (entry : Entry) : Entry :=
  if entry.publicationKind = .unset then { entry with publicationKind := .gitHub } else entry

-- Entries identical except for the time of publication. A missing publication kind is `github`.
def EntriesEqualIgnoringPublishedAt (a b : Entry) : Prop :=
  let a := normalizeEntryPublicationKindForEquality a
  let b := normalizeEntryPublicationKindForEquality b
  { a with publishedAt := 0, publishStartedAt := none } =
  { b with publishedAt := 0, publishStartedAt := none }

instance {a b : Entry} : Decidable (EntriesEqualIgnoringPublishedAt a b) :=
  inferInstanceAs <| Decidable (_ = _)

-- `applyAppIndexAppMetadata` returns the updated app, and whether it has changed.
def applyAppIndexAppMetadata (app : AppVersions) (displayName description : String) :
    AppVersions × Bool :=
  let displayName := Text.trimSpace displayName
  let description := Text.trimSpace description
  let newName := displayName ≠ "" ∧ app.displayName ≠ displayName
  let newDescription := description ≠ "" ∧ app.description ≠ description
  ({ app with
      displayName := if newName then displayName else app.displayName
      description := if newDescription then description else app.description },
    newName ∨ newDescription)

-- The versions that are listed for an app by what is stored as an index.
def listedVersions (d : Option Document) (appName : String) : GoMap IndexVersion :=
  match d with
  | some (.index index) => index.versions appName
  | _ => ∅

def retentionVersions (d : Option Document) : GoMap RetentionVersion :=
  match d with
  | some (.retention index) => index.versions
  | _ => ∅

def republishCorruptObjectGuidance : String :=
  "delete the object or entire snapshot SHA prefix and republish"

end AppRegistry
