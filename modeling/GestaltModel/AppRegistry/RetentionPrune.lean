import GestaltModel.AppRegistry.Writer

namespace AppRegistry

open Interleaving

inductive RetentionPruneKind
  | deleteUnused
  | deleteArtifact
  deriving DecidableEq, Repr

structure RetentionPruneAction where
  version : String
  kind : RetentionPruneKind
  deriving DecidableEq, Repr

-- A missing (or zero) `expiresAt` counts as not expired.
def RetentionExpired (entry : RetentionVersion) (now : Int) : Prop :=
  ∃ t ∈ entry.expiresAt, t ≠ 0 ∧ t ≤ now

instance {entry : RetentionVersion} {now : Int} : Decidable (RetentionExpired entry now) :=
  match h : entry.expiresAt with
  | none => .isFalse fun ⟨_, ht, _⟩ => by simp [h] at ht
  | some t => decidable_of_iff (t ≠ 0 ∧ t ≤ now) <| by simp [RetentionExpired, h]

-- The arguments of a prune run that do not change during the run.
structure PruneInput where
  appName : String
  desiredVersion : String := ""
  deployedVersions : List String := []
  now : Int
  dryRun : Bool := false

def pruneAction (p : PruneInput) (index : Index) (version : String) (entry : RetentionVersion) :
    Option RetentionPruneAction :=
  if version = Text.trimSpace p.desiredVersion then
    none
  else if ¬RetentionExpired entry p.now then
    none
  else if ¬(entry.everDeployed ∨ version ∈ p.deployedVersions) then
    some ⟨version, .deleteUnused⟩
  else if version ∈ index.versions (Text.trimSpace p.appName) then
    some ⟨version, .deleteArtifact⟩
  else
    none

-- `keys` are the versions of the retention catalog in the order in which they are visited.
def evaluateRetentionPrune (p : PruneInput) (index : Index) (retention : RetentionIndex)
    (keys : List String) : List RetentionPruneAction :=
  keys.filterMap fun version =>
    (retention.versions.lookup version).bind (pruneAction p index version)

def ShouldApplyRetentionPruneAction (action : RetentionPruneAction) (entry : RetentionVersion)
    (now : Int) : Prop :=
  match action.kind with
  | .deleteUnused => ¬entry.everDeployed ∧ RetentionExpired entry now
  | .deleteArtifact => entry.everDeployed ∧ RetentionExpired entry now

instance {action : RetentionPruneAction} {entry : RetentionVersion} {now : Int} :
    Decidable (ShouldApplyRetentionPruneAction action entry now) :=
  match action with
  | ⟨_, .deleteUnused⟩ => inferInstanceAs <| Decidable (_ ∧ _)
  | ⟨_, .deleteArtifact⟩ => inferInstanceAs <| Decidable (_ ∧ _)

-- `RemoveRetentionVersion` returns the updated catalog, and whether it has changed.
def removeRetentionVersion (index : RetentionIndex) (version : String) : RetentionIndex × Bool :=
  let version := Text.trimSpace version
  if version ∈ index.versions then
    ({ index with versions := index.versions.erase version }, true)
  else
    (index, false)

-- The update of the index. An app without versions is dropped, as it would make the index invalid.
def removeIndexVersion (index : Index) (appName version : String) : Index × Bool :=
  match index.apps.lookup appName with
  | none => (index, false)
  | some app =>
    if version ∈ app.versions then
      let versions := app.versions.erase version
      if versions = ∅ then
        ({ index with apps := index.apps.erase appName }, true)
      else
        ({ index with apps := index.apps.insert appName { app with versions } }, true)
    else
      (index, false)

-- `ApplyRetentionPruneAction` returns the updated catalogs, and whether one of them has changed.
def applyRetentionPruneAction (index : Index) (retention : RetentionIndex) (appName : String)
    (action : RetentionPruneAction) : Index × RetentionIndex × Bool :=
  match action.kind with
  | .deleteArtifact => (index, retention, false)
  | .deleteUnused =>
    let (index, indexChanged) := removeIndexVersion index appName action.version
    let (retention, retentionChanged) := removeRetentionVersion retention action.version
    (index, retention, indexChanged || retentionChanged)

-- `ObjectNotFound`
def ObjectNotFound (f : Failure) : Prop :=
  f.Mentions "not found" ∨ f.Mentions "no urls matched" ∨ f.Mentions "matched no objects" ∨
  f.Mentions "404"

instance {f : Failure} : Decidable (ObjectNotFound f) :=
  inferInstanceAs <| Decidable (_ ∨ _)

-- `deleteAppRegistryObject` and `deleteAppRegistryPrefix`: it is no error when nothing is there.
def ignoreNotFound : Except Failure Unit → Except Failure Unit
  | .ok () => .ok ()
  | .error e => if ObjectNotFound e then .ok () else .error e

def freshRetentionEntryForPrune (retentionURL : StorageURL) (version : String) :
    RegistryProgram (Except Failure (Option RetentionVersion)) := do
  match ← readObject retentionURL with
  | .error e => return .error e
  | .ok (_, none) => return .ok none
  | .ok (_, some data) =>
    match (decodeRetentionIndex data).context "decode retention" with
    | .error e      => return .error e
    | .ok retention => return .ok (retention.versions.lookup version)

-- The catalogs, and whether to write them: the two flags of the source are only set together.
structure PruneState where
  index : Index
  retention : RetentionIndex
  changed : Bool

section Prune

variable (root : StorageURL) (p : PruneInput)

def deletePruned (action : RetentionPruneAction) : RegistryProgram (Except Failure Unit) := do
  let artifactPrefix := storageURL root (appArtifactPrefix p.appName action.version)
  match action.kind with
  | .deleteArtifact => return ignoreNotFound (← request (.deletePrefix artifactPrefix))
  | .deleteUnused =>
    let entryPath := storageURL root (appVersionEntryPath p.appName action.version)
    match ignoreNotFound (← request (.deleteObject entryPath)) with
    | .error e => return .error e
    | .ok ()   => return ignoreNotFound (← request (.deletePrefix artifactPrefix))

def pruneActions : List RetentionPruneAction → PruneState →
    RegistryProgram (Except Failure PruneState)
  | [], st => return .ok st
  | action :: actions, st => do
    if action.version ∈ p.deployedVersions ∧ action.kind = .deleteUnused then
      pruneActions actions st
    else
      match ← freshRetentionEntryForPrune (storageURL root (appRetentionPath p.appName))
        action.version with
      | .error e         => return .error e
      | .ok none         => pruneActions actions st
      | .ok (some entry) =>
        if ¬ShouldApplyRetentionPruneAction action entry p.now then
          pruneActions actions st
        else
          let (index, retention, applied) :=
            applyRetentionPruneAction st.index st.retention p.appName action
          match ← deletePruned root p action with
          | .error e => return .error e
          | .ok ()   => pruneActions actions ⟨index, retention, st.changed || applied⟩

-- The writes at the end of an attempt. A failure of either is treated in the same way.
def writePruned (st : PruneState) (indexGen retentionGen : Nat) :
    RegistryProgram (Except Failure Unit) := do
  let indexURL := storageURL root (appIndexPath p.appName)
  let retentionURL := storageURL root (appRetentionPath p.appName)
  match ← request (.writeCatalogObject retentionURL (.retention st.retention) retentionGen) with
  | .error e => return .error e
  | .ok () => request (.writeCatalogObject indexURL (.index st.index) indexGen)

-- After the install lock is claimed, which is in another store and which publishers do not claim.
def pruneAppRegistryRetention (order : GoMap.VisitOrder) : RegistryProgram (Except Failure Unit) :=
  go appRegistryCatalogUpdateAttempts
where
  -- The argument counts the attempts that are left.
  go : Nat → RegistryProgram (Except Failure Unit)
    | 0     => return .error ⟨"prune retention for " ++ p.appName ++
      ": exceeded retry limit after concurrent updates", none⟩
    | n + 1 => do
      let indexURL := storageURL root (appIndexPath p.appName)
      let retentionURL := storageURL root (appRetentionPath p.appName)
      match ← readObject indexURL with
      | .error e                   => return .error e
      | .ok (indexGen, indexData)  =>
        match ← readObject retentionURL with
        | .error e                           => return .error e
        | .ok (retentionGen, retentionData)  =>
          match (decodeIndexOrEmpty indexData).context "decode index" with
          | .error e  => return .error e
          | .ok index =>
            match (decodeRetentionIndexOrEmpty retentionData).context "decode retention" with
            | .error e      => return .error e
            | .ok retention =>
              let keys := order.visit n retention.versions.sortedKeys
              let actions := evaluateRetentionPrune p index retention keys
              if p.dryRun ∨ actions = [] then
                return .ok ()
              else
                match ← pruneActions root p actions ⟨index, retention, false⟩ with
                | .error e => return .error e
                | .ok st   =>
                  if ¬st.changed then
                    return .ok ()
                  else
                    match ← writePruned root p st indexGen retentionGen with
                    | .ok ()   => return .ok ()
                    | .error e =>
                      if IsCatalogPreconditionFailed e ∧ 0 < n then go n else return .error e

end Prune

namespace Pruning

variable {digest : Document → String} {root : StorageURL} {κ : Type}

-- The objects that a prune has deleted, and the stranded versions: the entry was deleted, the index
-- listed it, and the write of the index failed.
structure PruneRecord where
  deleted : List StorageURL := []
  stranded : Finset String := ∅

-- The prune is the client `none`, and all others are publishers.
def notePrune (root : StorageURL) (appName : String) :
    Option κ → (c : StoreCall Document) → c.Response → Bucket StorageURL Document → PruneRecord →
    PruneRecord
  | none, .deleteObject url, .ok (), _, rec => { rec with deleted := url :: rec.deleted }
  | none, .writeCatalogObject url _ _, .error _, b, rec =>
    if url = storageURL root (appIndexPath appName) then
      let listed := (listedVersions (b.data? url) appName).keys
      let stranded := listed.filter fun v =>
        storageURL root (appVersionEntryPath appName v) ∈ rec.deleted
      { rec with stranded := rec.stranded ∪ stranded }
    else
      rec
  | _, _, _, _, rec => rec

-- The configuration where one prune and any number of publishers start out on any store.
def config (p : PruneInput) (order : GoMap.VisitOrder) (writers : κ → Writer)
    (plans : κ → PublishManifest digest root) (b : Bucket StorageURL Document) :
    Config (Option κ) (StoreCall Document) StoreCall.Response (Except Failure Unit)
      (Memory Document PruneRecord) where
  mem := { bucket := b, record := {} }
  prog
    | none => pruneAppRegistryRetention root p order
    | some k => do
      let (_, failure) ← (writers k).publish (plans k)
      return failure.elim (.ok ()) .error

end Pruning
end AppRegistry
