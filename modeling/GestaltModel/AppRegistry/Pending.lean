import GestaltModel.AppRegistry.CatalogCas
import GestaltModel.AppRegistry.Validation

namespace AppRegistry

open Interleaving
open Text (quote trimSpace)

def pendingIndexSchemaVersion : Int := 1

def failedIndexSchemaVersion : Int := 1

-- 30 minutes
def pendingStaleAfter : Int := 1800000000000

-- 30 days
def failedRetainFor : Int := 2592000000000000

inductive PendingPhase
  | publishing
  | other (text : String)
  deriving DecidableEq, Repr

inductive FailedReason
  | workflowFailed
  | stale
  | other (text : String)
  deriving DecidableEq, Repr

structure PendingVersion where
  version : String
  sourceRef : String
  repository : String := ""
  startedAt : Int
  updatedAt : Int
  phase : PendingPhase
  publication : Option Publication := none
  deriving DecidableEq

structure PendingIndex where
  schemaVersion : Int
  app : String
  pending : GoMap PendingVersion
  deriving DecidableEq

structure FailedVersion where
  version : String
  sourceRef : String
  repository : String := ""
  startedAt : Int
  failedAt : Int
  reason : FailedReason
  publication : Option Publication := none
  deriving DecidableEq

structure FailedIndex where
  schemaVersion : Int
  app : String
  failed : GoMap FailedVersion
  deriving DecidableEq

-- What is stored in `pending.json`, `failed.json` and `index.json`.
inductive PendingFile
  | pending (index : PendingIndex)
  | failed (index : FailedIndex)
  | index (index : Index)
  deriving DecidableEq

variable (appName : String)

def appPendingPath : List String :=
  ["apps", appName, "pending.json"]

def appFailedPath : List String :=
  ["apps", appName, "failed.json"]

def newEmptyPendingIndex : PendingIndex where
  schemaVersion := pendingIndexSchemaVersion
  app := trimSpace appName
  pending := ∅

def newEmptyFailedIndex : FailedIndex where
  schemaVersion := failedIndexSchemaVersion
  app := trimSpace appName
  failed := ∅

section Decode

-- The checks that the versions of both catalogs have in common, in two parts.
def validateCatalogVersion (appName mapKey version sourceRef repository : String) :
    Except Failure Unit := do
  let version := trimSpace version
  require (version ≠ "") "version is required"
  require (mapKey = version) ("map key " ++ quote mapKey ++ " does not match version field " ++
    quote version)
  (validateVersion version).context "version"
  (validateSourceRef sourceRef).context "sourceRef"
  if trimSpace repository ≠ "" then
    (validateEntryRepository (trimSpace repository) appName).context "repository"

def validatePendingVersion (appName mapKey : String) (entry : PendingVersion) :
    Except Failure Unit := do
  validateCatalogVersion appName mapKey entry.version entry.sourceRef entry.repository
  require (entry.startedAt ≠ 0) "startedAt is required"
  require (entry.updatedAt ≠ 0) "updatedAt is required"
  require (entry.phase = .publishing) ("phase must be " ++ quote "publishing")
  (validatePublication entry.publication).context "publication"

def validateFailedVersion (appName mapKey : String) (entry : FailedVersion) :
    Except Failure Unit := do
  validateCatalogVersion appName mapKey entry.version entry.sourceRef entry.repository
  require (entry.startedAt ≠ 0) "startedAt is required"
  require (entry.failedAt ≠ 0) "failedAt is required"
  require (entry.reason = .workflowFailed ∨ entry.reason = .stale)
    ("reason must be " ++ quote "workflow_failed" ++ " or " ++ quote "stale")
  (validatePublication entry.publication).context "publication"

def validatePendingIndex (index : PendingIndex) : Except Failure Unit := do
  require (index.schemaVersion = pendingIndexSchemaVersion)
    ("unsupported pending index schema version " ++ toString index.schemaVersion)
  require (trimSpace index.app ≠ "") "pending index app is required"
  index.pending.checkAll fun version entry =>
    (validatePendingVersion index.app version entry).context
      ("pending index version " ++ quote version)

def validateFailedIndex (index : FailedIndex) : Except Failure Unit := do
  require (index.schemaVersion = failedIndexSchemaVersion)
    ("unsupported failed index schema version " ++ toString index.schemaVersion)
  require (trimSpace index.app ≠ "") "failed index app is required"
  index.failed.checkAll fun version entry =>
    (validateFailedVersion index.app version entry).context
      ("failed index version " ++ quote version)

def decodePendingIndex : PendingFile → Except Failure PendingIndex
  | .pending index => do
    validatePendingIndex index
    return index
  | _ => .error (undecodable "pending index")

def decodeFailedIndex : PendingFile → Except Failure FailedIndex
  | .failed index => do
    validateFailedIndex index
    return index
  | _ => .error (undecodable "failed index")

def decodePublishedIndex : PendingFile → Except Failure Index
  | .index index => do
    validateIndex index
    return index
  | _ => .error (undecodable "app registry index")

end Decode

def indexContainsVersion (index : Index) (appName version : String) : Prop :=
  trimSpace version ∈ index.versions (trimSpace appName)

instance {index : Index} {appName version : String} :
    Decidable (indexContainsVersion index appName version) :=
  inferInstanceAs <| Decidable (_ ∈ _)

def failedVersionFromPending (entry : PendingVersion) (failedAt : Int) (reason : FailedReason) :
    FailedVersion where
  version := entry.version
  sourceRef := entry.sourceRef
  repository := entry.repository
  startedAt := entry.startedAt
  failedAt := failedAt
  reason := reason
  publication := entry.publication

-- The two catalogs in the memory of a command, and which of them it has changed.
structure PendingCatalogs where
  pending : PendingIndex
  failed : FailedIndex
  pendingChanged : Bool := false
  failedChanged : Bool := false
  deriving DecidableEq

variable (published : Index)

namespace PendingCatalogs

def removePending (c : PendingCatalogs) (version : String) : PendingCatalogs :=
  { c with pending.pending := c.pending.pending.erase version }

def removeFailed (c : PendingCatalogs) (version : String) : PendingCatalogs :=
  { c with failed.failed := c.failed.failed.erase version }

def putFailed (c : PendingCatalogs) (version : String) (entry : FailedVersion) : PendingCatalogs :=
  { c with failed.failed := c.failed.failed.insert version entry }

-- One round of the loop of `PrunePendingIndex`. It only concerns its own version, in any order.
def prunePendingVersion (now : Int) (exceptVersion : String)
    (c : PendingCatalogs) (version : String) : PendingCatalogs :=
  match c.pending.pending.lookup version with
  | none => c
  | some entry =>
    if version = exceptVersion then
      c
    else if indexContainsVersion published c.pending.app version then
      { c.removePending version with pendingChanged := true }
    else if pendingStaleAfter < now - entry.startedAt then
      { (c.putFailed version (failedVersionFromPending entry now .stale)).removePending version with
        pendingChanged := true
        failedChanged  := true }
    else
      c

def prunePendingIndex (now : Int) (exceptVersion : String)
    (c : PendingCatalogs) : PendingCatalogs :=
  c.pending.pending.sortedKeys.foldl
    (prunePendingVersion published now (trimSpace exceptVersion)) c

-- One round of the loop of `PruneFailedIndex`.
def pruneFailedVersion (now : Int) (c : PendingCatalogs) (version : String) : PendingCatalogs :=
  match c.failed.failed.lookup version with
  | none => c
  | some entry =>
    if indexContainsVersion published c.failed.app version ∨ failedRetainFor < now - entry.failedAt then
      { c.removeFailed version with failedChanged := true }
    else
      c

def pruneFailedIndex (now : Int) (c : PendingCatalogs) : PendingCatalogs :=
  c.failed.failed.sortedKeys.foldl (pruneFailedVersion published now) c

def removeFailedVersion (version : String) (c : PendingCatalogs) : PendingCatalogs :=
  let version := trimSpace version
  if version ∈ c.failed.failed then
    { c.removeFailed version with failedChanged := true }
  else
    c

-- `RemovePendingVersion` together with the flag that its callers set.
def removePendingVersion (version : String) (c : PendingCatalogs) :
    PendingCatalogs × Option PendingVersion :=
  let version := trimSpace version
  match c.pending.pending.lookup version with
  | none => (c, none)
  | some entry => ({ c.removePending version with pendingChanged := true }, some entry)

-- `RecordFailedVersion` leaves a version alone that is already recorded.
def recordFailedVersion (pending : PendingVersion) (failedAt : Int) (reason : FailedReason)
    (c : PendingCatalogs) : PendingCatalogs :=
  let version := trimSpace pending.version
  if version ∈ c.failed.failed then
    c
  else
    { c.putFailed version (failedVersionFromPending pending failedAt reason) with
      failedChanged := true }

-- `UpsertPendingVersion` always reports a change.
def upsertPendingVersion (version : PendingVersion) (now : Int) (c : PendingCatalogs) :
    PendingCatalogs :=
  let key := trimSpace version.version
  let entry := { version with
    version := key
    sourceRef := Text.toLower (trimSpace version.sourceRef)
    repository := trimSpace version.repository
    phase := .publishing
    updatedAt := now
    startedAt := ((c.pending.pending.lookup key).map (·.startedAt)).getD now }
  { c with
    pending.pending := c.pending.pending.insert key entry
    pendingChanged := true }

-- The first part of `ApplyPendingSet`.
def pruneForSet (versionKey : String) (now : Int) (c : PendingCatalogs) : PendingCatalogs :=
  ((c.removeFailedVersion versionKey).prunePendingIndex published now versionKey).pruneFailedIndex
    published now

def applyPendingSet (appName : String) (version : PendingVersion) (now : Int)
    (c : PendingCatalogs) : PendingCatalogs :=
  let versionKey := trimSpace version.version
  let c := c.pruneForSet published versionKey now
  if indexContainsVersion published appName versionKey then
    (c.removePendingVersion versionKey).1
  else
    let stale := (c.pending.pending.lookup versionKey).any
      fun entry => pendingStaleAfter < now - entry.startedAt
    let c := if stale then (c.removePendingVersion versionKey).1 else c
    c.upsertPendingVersion version now

end PendingCatalogs

-- The commands with what they read from their flags and from the clock.
inductive PendingCommand
  | set (version : PendingVersion) (now : Int)
  | clear (version : String)
  | fail (version : String) (now : Int)

-- The function that a command passes to `mutateAppRegistryPendingCatalog`.
def PendingCommand.mutate (appName : String) (c : PendingCatalogs) :
    PendingCommand → PendingCatalogs
  | .set version now => c.applyPendingSet published appName version now
  | .clear version => (c.removePendingVersion version).1
  | .fail version now =>
    match c.removePendingVersion version with
    | (c, none)         => c
    | (c, some removed) => c.recordFailedVersion removed now .workflowFailed

abbrev PendingProgram (α : Type) := StoreProgram PendingFile α

-- What `loadAppRegistryPendingCatalog` reads.
structure LoadedCatalog where
  catalogs : PendingCatalogs
  published : Index
  pendingGen : Nat
  failedGen : Nat

-- The three parts of the function that decode a file. A missing file counts as an empty catalog.
def decodePendingOrEmpty : Option PendingFile → Except Failure PendingIndex
  | none => .ok (newEmptyPendingIndex appName)
  | some data => (decodePendingIndex data).context "decode pending catalog"

def decodeFailedOrEmpty : Option PendingFile → Except Failure FailedIndex
  | none => .ok (newEmptyFailedIndex appName)
  | some data => (decodeFailedIndex data).context "decode failed catalog"

def decodePublishedOrEmpty : Option PendingFile → Except Failure Index
  | none => .ok .empty
  | some data => (decodePublishedIndex data).context "decode published index"

def decodeCatalog (pendingData failedData indexData : Option PendingFile) :
    Except Failure (PendingCatalogs × Index) := do
  let pending ← decodePendingOrEmpty appName pendingData
  let failed ← decodeFailedOrEmpty appName failedData
  let published ← decodePublishedOrEmpty indexData
  return ({ pending, failed }, published)

def loadAppRegistryPendingCatalog (pendingURL failedURL indexURL : StorageURL) (appName : String) :
    PendingProgram (Except Failure LoadedCatalog) := do
  match ← readObject pendingURL with
  | .error e => return .error e
  | .ok (pendingGen, pendingData) =>
    match ← readObject failedURL with
    | .error e => return .error e
    | .ok (failedGen, failedData) =>
      match ← readObject indexURL with
      | .error e => return .error e
      | .ok (_, indexData) =>
        match decodeCatalog appName pendingData failedData indexData with
        | .error e                  => return .error e
        | .ok (catalogs, published) => return .ok { catalogs, published, pendingGen, failedGen }

-- An upload that is only made if the catalog has changed.
def uploadChanged (changed : Bool) (url : StorageURL) (data : PendingFile) (generation : Nat) :
    PendingProgram (Except Failure Unit) :=
  if changed then request (.writeCatalogObject url data generation) else return .ok ()

variable (root : StorageURL)

def pendingURL (appName : String) : StorageURL :=
  storageURL root (appPendingPath appName)

def failedURL (appName : String) : StorageURL :=
  storageURL root (appFailedPath appName)

-- The attempts of `mutateAppRegistryPendingCatalog`. The last argument counts those that are left.
def mutateAttempts (root : StorageURL) (appName : String) (command : PendingCommand) :
    Nat → PendingProgram (Except Failure Unit)
  | 0 => return .error ⟨"update pending catalog for " ++ appName ++
    ": exceeded retry limit after concurrent updates", none⟩
  | n + 1 => do
    match ← loadAppRegistryPendingCatalog (pendingURL root appName) (failedURL root appName)
      (storageURL root (appIndexPath appName)) appName with
    | .error e => return .error e
    | .ok load =>
      let c := command.mutate load.published appName load.catalogs
      match ← uploadChanged c.pendingChanged (pendingURL root appName) (.pending c.pending)
        load.pendingGen with
      | .error e =>
        if IsCatalogPreconditionFailed e ∧ 0 < n then
          mutateAttempts root appName command n
        else
          return .error e
      | .ok () =>
        match ← uploadChanged c.failedChanged (failedURL root appName) (.failed c.failed)
          load.failedGen with
        | .error e =>
          if IsCatalogPreconditionFailed e ∧ 0 < n then
            mutateAttempts root appName command n
          else
            return .error e
        | .ok () => return .ok ()

def mutateAppRegistryPendingCatalog (appName : String)
    (command : PendingCommand) : PendingProgram (Except Failure Unit) :=
  mutateAttempts root appName command appRegistryCatalogUpdateAttempts

namespace PendingRuns

def pendingVersions : Option PendingFile → Finset String
  | some (.pending index) => index.pending.keys
  | _ => ∅

def failedVersions : Option PendingFile → Finset String
  | some (.failed index) => index.failed.keys
  | _ => ∅

def publishedVersions : Option PendingFile → Finset String
  | some (.index index) => (index.versions appName).keys
  | _ => ∅

-- The versions a command owes to `failed.json`: to be recorded, and not there since.
abbrev Owed (ι : Type) := ι → Finset String

def failing : PendingCommand → Finset String
  | .fail version _ => {trimSpace version}
  | _ => ∅

-- A `fail` command has to record its version once it has found it in `pending.json`.
def found (data : PendingFile) (command : PendingCommand) : Finset String :=
  pendingVersions (some data) ∩ failing command

-- A `set` command records the versions it takes out of `pending.json`, unless they are published.
def dropped (before published : Option PendingFile) (appName : String) (after : PendingFile) :
    PendingCommand → Finset String
  | .set _ _ =>
    (pendingVersions before \ pendingVersions (some after)) \ publishedVersions appName published
  | _ => ∅

section

variable {ι : Type} [DecidableEq ι] (commands : ι → PendingCommand) (root : StorageURL)
  (appName : String)

-- More versions are owed after a request to `pending.json`, and fewer after a write of
-- `failed.json`.
def noteOwed : ι → (c : StoreCall PendingFile) → c.Response → Bucket StorageURL PendingFile →
    Owed ι → Owed ι
  | i, .readData url, .ok data, b, owed =>
    if url = pendingURL root appName then
      Function.update owed i
        (owed i ∪ (found data (commands i) \ failedVersions (b.data? (failedURL root appName))))
    else
      owed
  | i, .writeCatalogObject url data _, .ok (), b, owed =>
    if url = pendingURL root appName then
      Function.update owed i
        (owed i ∪ (dropped (b.data? url) (b.data? (storageURL root (appIndexPath appName))) appName
          data (commands i) \ failedVersions (b.data? (failedURL root appName))))
    else if url = failedURL root appName then
      fun j => owed j \ failedVersions (some data)
    else
      owed
  | _, _, _, _, owed => owed

-- Besides the store and what is owed, the failure of the requests that are made now, if they fail.
structure State (ι : Type) extends Memory PendingFile (Owed ι) where
  outage : Option Failure := none

-- Requests can fail at any time and in any way: the environment decides about that between any two
-- steps.
@[reducible]
def semantics : Semantics ι (StoreCall PendingFile) StoreCall.Response (State ι) where
  Oracle := Unit
  Act := Option Failure
  act outage s := { s with outage }
  exec i c _ s :=
    let (m, r) := (storeSemantics (noteOwed commands root appName)).exec i c s.outage s.toMemory
    ({ s with toMemory := m }, r)

def config (b : Bucket StorageURL PendingFile) :
    Config ι (StoreCall PendingFile) StoreCall.Response (Except Failure Unit) (State ι) where
  mem := { bucket := b, record := fun _ => ∅ }
  prog := fun i => mutateAppRegistryPendingCatalog root appName (commands i)

-- A command that owes a version finds `failed.json` unchanged, and its write is not taken for a
-- conflict because it fails (which every failed upload of `gcloud` is: its error names the flag
-- `--if-generation-match`). Nobody else takes the version that a `fail` command owes out of
-- `pending.json`.
def Undisturbed (i : ι) : StoreCall PendingFile → State ι → Prop
  | .writeCatalogObject url data g, s =>
    (url = failedURL root appName → s.record i ≠ ∅ →
      s.bucket.generation url = g ∧ ∀ f ∈ s.outage, ¬IsCatalogPreconditionFailed f) ∧
    (url = pendingURL root appName → s.bucket.generation url = g →
      ∀ j, j ≠ i → ∀ v ∈ s.record j ∩ failing (commands j),
        v ∈ pendingVersions (s.bucket.data? url) → v ∈ pendingVersions (some data))
  | _, _ => True

instance [Fintype ι] {i : ι} {c : StoreCall PendingFile} {s : State ι} :
    Decidable (Undisturbed commands root appName i c s) := by
  cases c
  case writeCatalogObject => exact inferInstanceAs <| Decidable ((_ → _ → _) ∧ (_ → _ → _))
  all_goals exact .isTrue trivial

end

-- The name of the app comes trimmed from the flags, and the files belong to the app.
structure OfApp (appName : String) (b : Bucket StorageURL PendingFile) : Prop where
  trimmed : Text.Trimmed appName
  pending : ∀ {index}, b.data? (pendingURL root appName) = some (.pending index) →
    index.app = appName
  failed : ∀ {index}, b.data? (failedURL root appName) = some (.failed index) →
    index.app = appName

end PendingRuns
end AppRegistry
