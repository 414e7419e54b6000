import GestaltModel.AppRegistry.LocalRestart
import GestaltModel.AppRegistry.Validation

namespace AppRegistry

open Text (Trimmed quote trimSpace)

-- What is used of the package `semver`. The text `release` is that of the three numbers alone.
structure Semver where
  Version : Type
  Constraint : Type
  newVersion : String → Option Version
  newConstraint : String → Option Constraint
  check : Constraint → Version → Bool
  lessThan : Version → Version → Bool
  prerelease : Version → String
  release : Version → String

namespace Semver

def takeNumber (l : List Char) : Option (List Char) :=
  if l.takeWhile isDigit = [] then none else some (l.dropWhile isDigit)

def takeChar (c : Char) : List Char → Option (List Char)
  | [] => none
  | c' :: l => if c' = c then some l else none

-- A match of `constraintPrereleaseVersionRe` at the start of the text.
def startsWithPrerelease (l : List Char) : Bool :=
  let rest := takeNumber l >>= takeChar '.' >>= takeNumber >>= takeChar '.' >>= takeNumber >>=
    takeChar '-'
  rest.any fun l => l.head?.any fun c => isIdentChar c && c ≠ '-'

def constraintContainsPrerelease (constraint : String) : Bool :=
  constraint.toList.tails.any startsWithPrerelease

variable (semver : Semver)

def versionSatisfiesFleetConstraint (version constraint : String) : Bool :=
  let version := trimSpace version
  let constraint := trimSpace constraint
  if version = "" then
    false
  else if constraint = "" then
    true
  else
    match semver.newVersion version, semver.newConstraint constraint with
    | some v, some c =>
      if semver.check c v then
        true
      else if semver.prerelease v = "" ∨ constraintContainsPrerelease constraint then
        false
      else
        (semver.newVersion (semver.release v)).any (semver.check c)
    | _, _ => false

end Semver

section Requirements

-- `providerregistry.ValidateRepositoryName`
def validateRepositoryName (name : String) : Except Failure Unit :=
  let name := trimSpace name
  require (isSegment name) ("provider repository name " ++ quote name ++
    " must contain only lowercase letters, digits, dots, underscores, and hyphens")

def requirementAppName (key : String) : Except Failure String :=
  let key := trimSpace key
  if key = "" then
    .error ⟨"dependency app name is required", none⟩
  else
    match parseAppSource key with
    | .ok (appName, _) => .ok appName
    | .error _ => do
      (validateRepositoryName key).context ("invalid dependency app name " ++ quote key)
      return key

-- Whether a key names an app, as the loop of `requirementForApp` checks it.
def Names (targetApp key : String) : Prop :=
  requirementAppName key = .ok targetApp

instance {targetApp key : String} : Decidable (Names targetApp key) :=
  match h : requirementAppName key with
  | .error _ => .isFalse fun hn => by rw [Names, h] at hn; contradiction
  | .ok app => if ha : app = targetApp then .isTrue (by rw [Names, h, ha]) else
    .isFalse fun hn => by
      rw [Names, h] at hn
      exact ha (Except.ok.inj hn)

-- The exact key comes first. Among the other ones the loop takes the first key that it visits.
def requirementForApp (order : GoMap.VisitOrder) (requires : GoMap AppRequirement)
    (targetApp : String) : Option AppRequirement :=
  let targetApp := trimSpace targetApp
  if targetApp = "" then
    none
  else
    match requires.lookup targetApp with
    | some requirement => some requirement
    | none =>
      ((order.visit 0 requires.sortedKeys).find? (Names targetApp ·)).bind requires.lookup

end Requirements

inductive InstallValidationReason
  | platformArtifactMissing
  | gestaltdVersionIncompatible
  | gestaltdVersionInvalid
  | gestaltdVersionUnknown
  | dependencyNotInstalled
  | dependencyVersionUnsatisfied
  | dependencyMetadataMissing
  | dependencyOperationMissing
  | dependencyOperationSchema
  | reverseDependentMetadataMissing
  | reverseDependentVersionUnsatisfied
  | reverseDependentOperationMissing
  | reverseDependentOperationSchema
  deriving DecidableEq, Repr

def InstallValidationReason.text : InstallValidationReason → String
  | platformArtifactMissing => "platform_artifact_missing"
  | gestaltdVersionIncompatible => "gestaltd_version_incompatible"
  | gestaltdVersionInvalid => "gestaltd_version_invalid"
  | gestaltdVersionUnknown => "gestaltd_version_unknown"
  | dependencyNotInstalled => "dependency_not_installed"
  | dependencyVersionUnsatisfied => "dependency_version_unsatisfied"
  | dependencyMetadataMissing => "dependency_metadata_missing"
  | dependencyOperationMissing => "dependency_operation_missing"
  | dependencyOperationSchema => "dependency_operation_schema_mismatch"
  | reverseDependentMetadataMissing => "reverse_dependent_metadata_missing"
  | reverseDependentVersionUnsatisfied => "reverse_dependent_version_unsatisfied"
  | reverseDependentOperationMissing => "reverse_dependent_operation_missing"
  | reverseDependentOperationSchema => "reverse_dependent_operation_schema_mismatch"

def installValidationError (reason : InstallValidationReason) (detail : String) : Failure where
  text := "install-time validation failed: " ++ reason.text ++ ": " ++ detail
  sentinel := some .installValidationFailed

def validationFetchError (reason : InstallValidationReason) (subject : String) (e : Failure) :
    Failure :=
  if e.Is .registryDocumentNotFound then
    installValidationError reason (subject ++ ": published metadata not found")
  else
    e.wrap subject

section KnownVersions

-- The parts of a change request that the known versions are made from.
structure InstallRequest where
  app : String
  toVersion : String
  registry : String
  timestamp : Int
  deriving DecidableEq, Repr

-- The registry is in the metadata of the request.
def InstallRequest.ofChange (registry : Coredata.AppVersionChangeRequest → String)
    (request : Coredata.AppVersionChangeRequest) : InstallRequest where
  app := request.app
  toVersion := request.toVersion
  registry := registry request
  timestamp := request.timestamp

def installationFromChangeRequest (request : InstallRequest) : KnownInstallation where
  appName := trimSpace request.app
  version := trimSpace request.toVersion
  registry := trimSpace request.registry
  updatedAt := Time.truncate Time.millisecond request.timestamp

-- The map of `knownVersionsFromRequests`, by the name of the app and the version.
abbrev KnownVersions := GoMap (GoMap KnownInstallation)

namespace KnownVersions

def versions (known : KnownVersions) (app : String) : GoMap KnownInstallation :=
  (known.lookup app).getD ∅

def record (known : KnownVersions) (request : InstallRequest) : KnownVersions :=
  let installation := installationFromChangeRequest request
  if installation.appName = "" ∨ installation.version = "" then
    known
  else
    let versions := known.versions installation.appName
    if (versions.lookup installation.version).all (·.updatedAt < installation.updatedAt) then
      known.insert installation.appName (versions.insert installation.version installation)
    else
      known

-- The installations in the order of their apps and versions.
def toList (known : KnownVersions) : List KnownInstallation :=
  known.sortedKeys.flatMap fun app =>
    (known.versions app).sortedKeys.filterMap (known.versions app).lookup

end KnownVersions

def knownVersionsFromRequests (requests : List InstallRequest) : List KnownInstallation :=
  KnownVersions.toList (requests.foldl KnownVersions.record ∅)

-- The installation of an app that `indexKnownInstallations` picks.
def latestInstallation (installations : List KnownInstallation) (app : String) :
    Option KnownInstallation :=
  let versions := installations.filter (trimSpace ·.appName = app)
  let version := LocalPoller.latestKnownVersion versions
  if version = "" then none else versions.find? (trimSpace ·.version = version)

def indexKnownInstallations (installations : List KnownInstallation) : GoMap KnownInstallation :=
  let apps := (installations.map (trimSpace ·.appName)).filter (· ≠ "")
  apps.foldl (fun latest app => (latestInstallation installations app).elim latest (latest.insert app))
    ∅

end KnownVersions

-- The source of an app in the deploy config. The flag says whether a source of another kind pins it.
structure ProviderSource where
  registry : String := ""
  registryApp : String := ""
  pinned : Bool := false
  deriving DecidableEq, Repr

namespace ProviderSource

def IsRegistry (source : ProviderSource) : Prop :=
  trimSpace source.registry ≠ ""

instance {source : ProviderSource} : Decidable source.IsRegistry :=
  inferInstanceAs <| Decidable (_ ≠ _)

def registryAppName (source : ProviderSource) (runtimeApp : String) : String :=
  let name := trimSpace source.registryApp
  if name ≠ "" then name else trimSpace runtimeApp

end ProviderSource

structure ValidateInput where
  registry : String
  app : String
  version : String
  entry : Entry

-- The change request that is appended for an admitted candidate.
def ValidateInput.request (input : ValidateInput) (timestamp : Int) : InstallRequest where
  app := input.app
  toVersion := input.version
  registry := input.registry
  timestamp := timestamp

-- `fetch` is `fetchConfiguredRegistryEntry` with the configured registries, `sha256` the hex
-- digest, and `running` and `platform` are never empty.
structure InstallValidator where
  semver : Semver
  sha256 : String → String
  fetch : String → String → String → Except Failure Entry
  configApps : Option (GoMap ProviderSource)
  running : String
  platform : String

namespace InstallValidator

variable (v : InstallValidator)

def inputSchemaHash (schema : String) : String :=
  if schema = "" then "" else "sha256:" ++ v.sha256 schema

def source (app : String) : Option ProviderSource :=
  v.configApps.bind (·.lookup app)

def configuredForRuntime (app : String) : Bool :=
  v.configApps.isNone || (v.source app).isSome

def configPinnedDependency (app : String) : Bool :=
  match v.source app with
  | none => false
  | some source => if source.IsRegistry then false else source.pinned

def fetchPublishedEntry (registryName appName version : String) : Except Failure Entry := do
  let registryName := trimSpace registryName
  require (registryName ≠ "") "registry is required"
  v.fetch registryName ((v.source appName).elim appName (·.registryAppName appName)) version

def resolveRegistryArtifact (entry : Entry) (platform : String) : Except Failure Unit :=
  match entry.artifacts.lookup platform with
  | none =>
    .error ⟨"registry entry has no artifact for platform " ++ quote platform, none⟩
  | some artifact => do
    require (trimSpace artifact.publicURL ≠ "" ∨ trimSpace artifact.url.text ≠ "")
      ("registry entry artifact for platform " ++ quote platform ++ " has no download URL")
    require (trimSpace artifact.sha256 ≠ "")
      ("registry entry artifact for platform " ++ quote platform ++ " is missing sha256")

def gestaltdVersionCheckSkipped (running : String) : Bool :=
  running = "dev" || running = "(devel)" || "0.0.0-ci".toList.isPrefixOf running.toList

def validateGestaltdCompatibility (minGestaltdVersion : String) : Except Failure Unit :=
  let minVersion := trimSpace minGestaltdVersion
  let running := trimSpace v.running
  if minVersion = "" then
    .ok ()
  else if gestaltdVersionCheckSkipped running then
    .ok ()
  else
    match v.semver.newVersion running with
    | none =>
      .error (installValidationError .gestaltdVersionUnknown
        "cannot determine running gestaltd version")
    | some runningVersion =>
      match v.semver.newVersion minVersion with
      | none          => .error (installValidationError .gestaltdVersionInvalid
        ("registry version has invalid minGestaltdVersion " ++ quote minVersion))
      | some required => ensure (¬v.semver.lessThan runningVersion required)
        (installValidationError .gestaltdVersionIncompatible
          ("registry version requires gestaltd " ++ minVersion ++ " or newer"))

def validateRequiredOperation (published : GoMap OperationContract) (subject : String)
    (missingReason schemaReason : InstallValidationReason) (opName expectedHash : String) :
    Except Failure Unit :=
  let opName := trimSpace opName
  let expectedHash := trimSpace expectedHash
  if opName = "" then
    .ok ()
  else
    match published.lookup opName with
    | none => .error (installValidationError missingReason
      (subject ++ ": operation " ++ opName ++ " is not published"))
    | some contract => ensure (expectedHash = "" ∨ v.inputSchemaHash contract.inputSchema = expectedHash)
      (installValidationError schemaReason
        (subject ++ ": operation " ++ opName ++ " input schema hash mismatch"))

def validateRequiredOperations (required : GoMap String) (published : GoMap OperationContract)
    (subject : String) (missingReason schemaReason : InstallValidationReason) :
    Except Failure Unit :=
  required.checkAll (v.validateRequiredOperation published subject missingReason schemaReason)

-- The version check that both directions make.
def SatisfiesConstraint (version : String) (requirement : AppRequirement) : Prop :=
  trimSpace requirement.version = "" ∨
  v.semver.versionSatisfiesFleetConstraint (trimSpace version)
    (trimSpace requirement.version)

instance {version : String} {requirement : AppRequirement} :
    Decidable (v.SatisfiesConstraint version requirement) :=
  inferInstanceAs <| Decidable (_ ∨ _)

-- One round of the loop of `validateDeclaredDependencies`.
def validateDeclaredDependency (knownByApp : GoMap KnownInstallation) (depKey : String)
    (requirement : AppRequirement) : Except Failure Unit :=
  match requirementAppName depKey with
  | .error _ => .error (installValidationError .dependencyNotInstalled
    ("dependency " ++ depKey ++ ": invalid app name"))
  | .ok depApp =>
    if v.configPinnedDependency depApp then
      .ok ()
    else
      match knownByApp.lookup depApp with
      | none              => .error (installValidationError .dependencyNotInstalled
        ("dependency " ++ depApp ++ ": fleet-known version not installed"))
      | some installation => do
        let depVersion := trimSpace installation.version
        ensure (v.SatisfiesConstraint depVersion requirement)
          (installValidationError .dependencyVersionUnsatisfied
            ("dependency " ++ depApp ++ ": fleet-known version " ++ depVersion ++
              " does not satisfy " ++ trimSpace requirement.version))
        if requirement.operations = ∅ then
          return
        else
          match v.fetchPublishedEntry installation.registry depApp depVersion with
          | .error e     =>
            .error (validationFetchError .dependencyMetadataMissing ("dependency " ++ depApp) e)
          | .ok depEntry =>
            v.validateRequiredOperations requirement.operations depEntry.interface
              ("dependency " ++ depApp) .dependencyOperationMissing .dependencyOperationSchema

def validateDeclaredDependencies (input : ValidateInput) (knownByApp : GoMap KnownInstallation) :
    Except Failure Unit :=
  input.entry.requires.checkAll (v.validateDeclaredDependency knownByApp)

variable (order : String → GoMap.VisitOrder)

-- One round of the loop of `validateReverseDependents`, for an app with its known installation.
def validateReverseDependent (input : ValidateInput)
    (appName : String) (installation : KnownInstallation) : Except Failure Unit :=
  let targetApp := trimSpace input.app
  if appName = targetApp then
    .ok ()
  else if ¬v.configuredForRuntime appName then
    .ok ()
  else
    match v.fetchPublishedEntry installation.registry appName installation.version with
    | .error e =>
      if e.Is .registryDocumentNotFound then
        .ok ()
      else if e.Is .appRegistryNotConfigured then
        .error (e.wrap ("reverse dependent " ++ appName))
      else
        .error (validationFetchError .reverseDependentMetadataMissing
          ("reverse dependent " ++ appName) e)
    | .ok dependentEntry =>
      match requirementForApp (order appName) dependentEntry.requires targetApp with
      | none             => .ok ()
      | some requirement => do
        let candidateVersion := trimSpace input.version
        ensure (v.SatisfiesConstraint candidateVersion requirement)
          (installValidationError .reverseDependentVersionUnsatisfied
            ("reverse dependent " ++ appName ++ ": candidate version " ++ candidateVersion ++
              " does not satisfy " ++ trimSpace requirement.version))
        v.validateRequiredOperations requirement.operations input.entry.interface
          ("reverse dependent " ++ appName ++ " requires candidate " ++ targetApp)
          .reverseDependentOperationMissing .reverseDependentOperationSchema

def validateReverseDependents (input : ValidateInput)
    (knownByApp : GoMap KnownInstallation) : Except Failure Unit :=
  knownByApp.checkAll (v.validateReverseDependent order input)

variable (requests : List InstallRequest)

def validate (input : ValidateInput) : Except Failure Unit := do
  match resolveRegistryArtifact input.entry v.platform with
  | .error e => .error (installValidationError .platformArtifactMissing e.text)
  | .ok () =>
    v.validateGestaltdCompatibility input.entry.minGestaltdVersion
    let knownByApp := indexKnownInstallations (knownVersionsFromRequests requests)
    v.validateDeclaredDependencies input knownByApp
    v.validateReverseDependents order input knownByApp

def desired (app : String) : Option KnownInstallation :=
  (indexKnownInstallations (knownVersionsFromRequests requests)).lookup app

-- What `Installer.install` has ensured before the validation: trimmed names, a configured app and
-- registry, and the published entry.
structure Candidate (input : ValidateInput) : Prop where
  app : Trimmed input.app ∧ input.app ≠ ""
  version : Trimmed input.version ∧ input.version ≠ ""
  registry : Trimmed input.registry ∧ input.registry ≠ ""
  configured : ∃ source, v.source input.app = some source ∧
    trimSpace source.registry = input.registry
  entry : v.fetchPublishedEntry input.registry input.app input.version = .ok input.entry

-- The change requests of a sequential run whose candidates all satisfy `P`. Each one was admitted,
-- and then appended with some time.
inductive Run (P : ValidateInput → Prop) : List InstallRequest → Prop
  | start : Run P []
  | accept {requests input order} (timestamp : Int) : Run P requests → v.Candidate input → P input →
    v.validate order requests input = .ok () →
    Run P (requests ++ [input.request timestamp])

-- All apps of the deploy config are managed by a registry, so that no version is pinned.
def RegistryManaged : Prop :=
  ∀ app source, v.source app = some source → source.IsRegistry

-- A requirement is satisfied by a version of the app that it names and by its published entry.
structure Satisfied (requirement : AppRequirement) (version : String) (entry : Entry) : Prop where
  version : v.SatisfiesConstraint version requirement
  operations : ∀ op hash, requirement.operations.lookup op = some hash → trimSpace op ≠ "" →
    ∃ contract, entry.interface.lookup (trimSpace op) = some contract ∧
      (trimSpace hash = "" ∨ v.inputSchemaHash contract.inputSchema = trimSpace hash)

-- A requirement is satisfied by the desired version of the app that its key names.
def Met (key : String) (requirement : AppRequirement) : Prop :=
  ∃ dep installation entry, Names dep key ∧ desired requests dep = some installation ∧
    v.fetchPublishedEntry installation.registry dep installation.version = .ok entry ∧
    v.Satisfied requirement installation.version entry

def Consistent : Prop :=
  ∀ app installation, desired requests app = some installation →
    ∃ entry, v.fetchPublishedEntry installation.registry app installation.version = .ok entry ∧
      ∀ key requirement, entry.requires.lookup key = some requirement →
        v.Met requests key requirement

-- No two keys name the same app, and what a version requires of its own app it satisfies itself.
structure Unambiguous (input : ValidateInput) : Prop where
  keys : ∀ {app k₁ k₂}, k₁ ∈ input.entry.requires → k₂ ∈ input.entry.requires →
    Names app k₁ → Names app k₂ → k₁ = k₂
  self : ∀ {key requirement}, input.entry.requires.lookup key = some requirement →
    Names input.app key → v.Satisfied requirement input.version input.entry

end InstallValidator

-- The loop stops at the first request after the time `t`.
def versionLiveAt (requests : List Coredata.AppVersionChangeRequest) (t : Int) : String :=
  match requests.insertionSort (·.timestamp ≤ ·.timestamp) with
  | [] => ""
  | first :: rest =>
    if t < first.timestamp then
      trimSpace first.fromVersion
    else
      ((first :: rest).takeWhile (·.timestamp ≤ t)).foldl (fun _ req => trimSpace req.toVersion)
        (trimSpace first.toVersion)

end AppRegistry
