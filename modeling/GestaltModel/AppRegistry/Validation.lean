import GestaltModel.AppRegistry.Catalog

namespace AppRegistry

open Text (quote trimSpace)

variable (s : List Char)

section Semver

def isDigit (c : Char) : Bool := '0' ≤ c && c ≤ '9'

def isIdentChar (c : Char) : Bool :=
  isDigit c || 'a' ≤ c && c ≤ 'z' || 'A' ≤ c && c ≤ 'Z' || c == '-'

def isNumber : Bool :=
  s ≠ [] && s.all isDigit && (s.length == 1 || s.head? ≠ some '0')

-- A numeric identifier with a leading zero (`isBadNum`).
def isBadNum : Bool :=
  s.all isDigit && s.length > 1 && s.head? == some '0'

def isPrerelease : Bool :=
  (s.splitOn '.').all fun i => i ≠ [] && i.all isIdentChar && !isBadNum i

def isBuild : Bool :=
  (s.splitOn '.').all fun i => i ≠ [] && i.all isIdentChar

-- `semvervalidate.Valid`: a semantic version with all three numbers and without a leading `v`.
def validSemver (version : String) : Bool :=
  let version := (trimSpace version).toList
  let (base, build) := version.span (· ≠ '+')
  let (core, prerelease) := base.span (· ≠ '-')
  let numbers := core.splitOn '.'
  numbers.length == 3 && numbers.all isNumber &&
  (prerelease == [] || isPrerelease prerelease.tail) && (build == [] || isBuild build.tail)

end Semver

section Source

def isSegmentStart (c : Char) : Bool := isDigit c || 'a' ≤ c && c ≤ 'z'

def isSegment (s : String) : Bool :=
  s.toList.head?.any isSegmentStart &&
  s.toList.all fun c => isSegmentStart c || c ∈ ['.', '_', '-']

def isHostLabel : Bool :=
  s.length ≤ 63 && s.head?.any isSegmentStart && s.getLast?.any isSegmentStart &&
  s.all fun c => isSegmentStart c || c == '-'

def isHost (s : String) : Bool :=
  let labels := s.toList.splitOn '.'
  1 < labels.length && labels.all isHostLabel

-- The package `source`: the address of an app's source, `host/owner/repo/path`.
structure Source where
  host : String
  owner : String
  repo : String
  path : List String
  deriving DecidableEq, Repr

-- `source.Parse`
def Source.parse (raw : String) : Except Failure Source := do
  require (raw = trimSpace raw) "plugin source: input contains leading or trailing whitespace"
  match Text.split '/' raw with
  | host :: owner :: repo :: p :: path =>
    require (isHost host) ("plugin source: invalid host " ++ quote host)
    match (owner :: repo :: p :: path).find? (!isSegment ·) with
    | some seg => .error ⟨"plugin source: invalid segment " ++ quote seg, none⟩
    | none     => return { host, owner, repo, path := p :: path }
  | parts =>
    .error ⟨"plugin source: expected at least 4 segments, got " ++ toString parts.length, none⟩

-- `source.ValidateVersion`
def validateVersion (version : String) : Except Failure Unit :=
  require (validSemver version) ("plugin source: invalid semver " ++ quote version)

-- `parseAppSource` returns the name of the app and its repository.
def parseAppSource (raw : String) : Except Failure (String × String) := do
  let src ← Source.parse (trimSpace raw)
  match src.path with
  | ["apps", appName] => return (appName, src.host ++ "/" ++ src.owner ++ "/" ++ src.repo)
  | path =>
    .error ⟨"app source path must be apps/\x7bapp\x7d, got " ++ quote ("/".intercalate path),
      none⟩

def appSourceAddress (repository appName : String) : String :=
  Text.trimRight '/' (trimSpace repository) ++ "/apps/" ++
  Text.trim '/' (trimSpace appName)

end Source

section Validate

def validateSourceRef (sourceRef : String) : Except Failure Unit := do
  let sourceRef := trimSpace sourceRef
  require (sourceRef.utf8ByteSize = 40) "must be a 40-character commit SHA"
  require (sourceRef.toList.all fun c => isDigit c || 'a' ≤ c && c ≤ 'f')
    "must be a 40-character lowercase commit SHA"

def validatePublication : Option Publication → Except Failure Unit
  | none => .ok ()
  | some publication => do
    require (trimSpace publication.workflowRunURL ≠ "") "workflowRunUrl is required"
    match publication.triggerPullRequest, publication.triggerCommit with
    | some trigger, none =>
      require (0 < trigger.number ∧ trimSpace trigger.url ≠ "")
        "triggerPullRequest number and URL are required"
    | none, some trigger =>
      (validateSourceRef trigger.sha).context "triggerCommit sha"
      require (trimSpace trigger.url ≠ "") "triggerCommit URL is required"
    | _, _ => .error ⟨"exactly one trigger is required", none⟩

def validatePublicationKind : PublicationKind → Except Failure Unit
  | .other text => .error ⟨"unsupported publication kind " ++ quote text, none⟩
  | _ => .ok ()

def validateLocalSourceState : Option LocalSourceState → Except Failure Unit
  | none => .ok ()
  | some state => require (trimSpace state.commitSHA ≠ "" ∨ state.dirty ∨ state.untracked)
    "localSource must record commitSha and/or dirty/untracked state"

def validateEntryRepository (repository appName : String) : Except Failure Unit := do
  let repository := trimSpace repository
  let appName := trimSpace appName
  require (repository ≠ "") "is required"
  let (parsedApp, parsedRepository) ← parseAppSource (appSourceAddress repository appName)
  require (parsedRepository = repository) "must be host/owner/repo"
  require (parsedApp = appName) ("does not match app " ++ quote appName)

def validateEntrySourceRef (entry : Entry) : Except Failure Unit :=
  if trimSpace entry.sourceRef ≠ "" then
    (validateSourceRef entry.sourceRef).context "registry entry sourceRef"
  else
    require (entry.publicationKind = .localPublish) "registry entry sourceRef is required"

def validateEntryRepositoryField (entry : Entry) : Except Failure Unit :=
  if trimSpace entry.repository = "" then
    require (trimSpace entry.sourceRef = "") "is required"
  else
    validateEntryRepository entry.repository entry.app

def validateEntryPublicationMetadata (entry : Entry) : Except Failure Unit := do
  (validatePublicationKind entry.publicationKind).context "registry entry publicationKind"
  (validateLocalSourceState entry.localSource).context "registry entry localSource"

-- `packageio.ParsePlatformString`, for its error.
def validatePlatformString (s : String) : Except Failure Unit :=
  match Text.split '/' s with
  | [os, arch] => require (os ≠ "" ∧ arch ≠ "")
    ("invalid platform string " ++ quote s ++ ": empty component")
  | _ => .error ⟨"invalid platform string " ++ quote s ++ ": expected os/arch", none⟩

def validateArtifactPlatform (target : String) : Except Failure Unit :=
  (validatePlatformString target).context ("artifact platform " ++ quote target)

def validateArtifact (target : String) (artifact : Artifact) : Except Failure Unit := do
  (validateArtifactPlatform target).context "registry entry artifact"
  require (trimSpace artifact.url.text ≠ "" ∧ trimSpace artifact.publicURL ≠ "")
    ("registry entry artifact " ++ quote target ++ " URLs are required")
  require (trimSpace artifact.sha256 ≠ "")
    ("registry entry artifact " ++ quote target ++ " sha256 is required")

def validateEntry (entry : Entry) : Except Failure Unit := do
  require (entry.schemaVersion = entrySchemaVersion)
    ("unsupported registry entry schema version " ++ toString entry.schemaVersion)
  require (trimSpace entry.app ≠ "") "registry entry app is required"
  (validateVersion (trimSpace entry.version)).context "registry entry version"
  validateEntrySourceRef entry
  require (trimSpace entry.manifestPath ≠ "") "registry entry manifestPath is required"
  (validateEntryRepositoryField entry).context "registry entry repository"
  (validatePublication entry.publication).context "registry entry publication"
  validateEntryPublicationMetadata entry
  require (entry.artifacts ≠ ∅) "registry entry artifacts are required"
  entry.artifacts.checkAll validateArtifact

-- The checks of one row of the index. The text `at_` says which row it is.
def validateIndexVersionSourceRef (at_ appName : String) (release : IndexVersion) :
    Except Failure Unit := do
  let sourceRef := trimSpace release.sourceRef
  let repository := trimSpace release.repository
  require (sourceRef = "" ∨ repository ≠ "") (at_ ++ " sourceRef requires repository")
  if sourceRef ≠ "" then
    (validateSourceRef sourceRef).context (at_ ++ " sourceRef")
  if repository ≠ "" then
    (validateEntryRepository repository appName).context (at_ ++ " repository")
  require (release.publicationKind ≠ .gitHub ∨ sourceRef ≠ "") (at_ ++ " sourceRef is required")
  (validatePublicationKind release.publicationKind).context (at_ ++ " publicationKind")
  (validateLocalSourceState release.localSource).context (at_ ++ " localSource")

def validateIndexVersion (appName version : String) (release : IndexVersion) :
    Except Failure Unit := do
  let at_ := "app registry index app " ++ quote appName ++ " version " ++ quote version
  (validateVersion version).context (at_ ++ " is invalid")
  require (release.metadata ≠ []) (at_ ++ " metadata is required")
  require (release.publishedAt ≠ 0) (at_ ++ " publishedAt is required")
  validateIndexVersionSourceRef at_ appName release
  (validatePublication release.publication).context (at_ ++ " publication")

def validateIndex (index : Index) : Except Failure Unit := do
  require (index.schemaVersion = indexSchemaVersion)
    ("unsupported app registry index schema version " ++ toString index.schemaVersion)
  index.apps.checkAll fun appName app => do
    require (trimSpace appName ≠ "") "app registry index app name is required"
    require (app.versions ≠ ∅)
      ("app registry index app " ++ quote appName ++ " has no versions")
    app.versions.checkAll (validateIndexVersion appName)

def validateRetentionVersion (mapKey : String) (entry : RetentionVersion) :
    Except Failure Unit := do
  let version := trimSpace mapKey
  require (version ≠ "") "version is required"
  (validateVersion version).context "version"
  require (entry.publishedAt ≠ 0) "publishedAt is required"
  require (entry.expiresAt ≠ some 0) "expiresAt must not be zero"

def validateRetentionIndex (index : RetentionIndex) : Except Failure Unit := do
  require (index.schemaVersion = retentionIndexSchemaVersion)
    ("unsupported retention index schema version " ++ toString index.schemaVersion)
  index.versions.checkAll fun version entry =>
    (validateRetentionVersion version entry).context
      ("retention index version " ++ quote version)

end Validate

section Decode

-- The error for an object that holds the JSON form of something else, or no JSON at all.
def undecodable (what : String) : Failure :=
  ⟨"decode " ++ what, none⟩

def decodeEntry : Document → Except Failure Entry
  | .entry entry => do
    validateEntry entry
    return entry
  | _ => .error (undecodable "app registry entry")

def decodeIndex : Document → Except Failure Index
  | .index index => do
    validateIndex index
    return index
  | _ => .error (undecodable "app registry index")

def decodeRetentionIndex : Document → Except Failure RetentionIndex
  | .retention index => do
    validateRetentionIndex index
    return index
  | _ => .error (undecodable "retention index")

def decodeIndexOrEmpty : Option Document → Except Failure Index
  | none => .ok .empty
  | some document => decodeIndex document

def decodeRetentionIndexOrEmpty : Option Document → Except Failure RetentionIndex
  | none => .ok .empty
  | some document => decodeRetentionIndex document

end Decode

-- Returns the updated index and whether it has changed. The index comes from `decodeIndexOrEmpty`,
-- so it is not `nil` and has a schema version.
def upsertAppIndex (index : Index) (entry : Entry) (metadataPath : List String)
    (displayName description : String) : Except Failure (Index × Bool) := do
  let appName := trimSpace entry.app
  let app := (index.apps.lookup appName).getD {}
  let at_ := "app " ++ quote appName ++ " version " ++ quote entry.version
  match app.versions.lookup entry.version with
  | some existing =>
    require (existing.metadata = metadataPath) (at_ ++ " is already indexed")
    if ¬indexVersionsEqualIgnoringPublishedAt existing (indexVersionFromEntry entry metadataPath) then
      .error ⟨at_ ++ " index identity mismatch: app registry index version conflict; " ++
        republishCorruptObjectGuidance, some .indexVersionConflict⟩
    let (app, changed) := applyAppIndexAppMetadata app displayName description
    if ¬changed then
      return (index, false)
    let index := { index with apps := index.apps.insert appName app }
    validateIndex index
    return (index, true)
  | none =>
    let (app, _) := applyAppIndexAppMetadata app displayName description
    let row := indexVersionFromEntry entry metadataPath
    let app := { app with versions := app.versions.insert entry.version row }
    let index := { index with apps := index.apps.insert appName app }
    validateIndex index
    return (index, true)

end AppRegistry
