import GestaltModel.AppRegistry.Writer

namespace AppRegistry

open Interleaving

inductive PublishedLoadState
  | absent
  | verified
  | corrupt
  deriving DecidableEq, Repr

structure PublishedLoadResult where
  state : PublishedLoadState
  entry : Option Entry := none
  err : Option Failure := none
  deriving DecidableEq

def publishReconcileMismatch (text : String) : Failure :=
  ⟨"publish reconcile mismatch: " ++ text, some .publishReconcileMismatch⟩

def indexVersionsEqual (a b : IndexVersion) : Bool :=
  a = b

-- The row of a version in a decoded index, and nothing if the app or the version is missing.
def Index.row (index : Index) (appName version : String) : Option IndexVersion :=
  (index.versions appName).lookup version

-- The part of `LoadPublishedState` after the row has been found.
def loadPublishedEntry (storageRoot : StorageURL) (indexVersion : IndexVersion) :
    RegistryProgram (Except Failure PublishedLoadResult) := do
  if indexVersion.metadata = [] then
    return .ok { state := .corrupt, err := publishReconcileMismatch "index metadata path is empty" }
  else
    match ← readObject (storageURL storageRoot indexVersion.metadata) with
    | .error e => return .error e
    | .ok (_, none) =>
      return .ok {
        state := .corrupt
        err   := publishReconcileMismatch "index references missing entry metadata"
      }
    | .ok (_, some document) =>
      match decodeEntry document with
      | .error e  =>
        return .ok {
          state := .corrupt
          err   := publishReconcileMismatch ("decode entry: " ++ e.text)
        }
      | .ok entry =>
        if indexVersionsEqual (indexVersionFromEntry entry indexVersion.metadata) indexVersion then
          return .ok { state := .verified, entry }
        else
          return .ok {
            state := .corrupt
            entry
            err   := publishReconcileMismatch "index-projected identity differs from entry"
          }

def loadPublishedState (storageRoot : StorageURL) (appName version : String) :
    RegistryProgram (Except Failure PublishedLoadResult) := do
  let appName := Text.trimSpace appName
  let version := Text.trimSpace version
  match ← readObject (storageURL storageRoot (appIndexPath appName)) with
  | .error e => return .error e
  | .ok (_, indexData) =>
    match (decodeIndexOrEmpty indexData).context "decode index" with
    | .error e  => return .error e
    | .ok index =>
      match index.row appName version with
      | none              => return .ok { state := .absent }
      | some indexVersion => loadPublishedEntry storageRoot indexVersion

-- A publish plan with what `BuildEntry` ensures about the entry.
structure BuiltManifest (digest : Document → String) (root : StorageURL) extends
    PublishManifest digest root where
  valid : validateEntry entry = .ok ()
  published : entry.publishedAt ≠ 0

namespace Republish

variable {digest : Document → String} {root : StorageURL} {ι : Type}

-- The runs publish one version of one app, with entries that are equal except for the two times.
structure SameVersion (plans : ι → BuiltManifest digest root) (appName version : String) : Prop where
  app : ∀ i, (plans i).appName = appName
  version : ∀ i, (plans i).version = version
  entries : ∀ i j,
    { (plans i).entry with publishedAt := 0, publishStartedAt := none } =
    { (plans j).entry with publishedAt := 0, publishStartedAt := none }

def noteNothing : ι → (c : StoreCall Document) → c.Response → Bucket StorageURL Document → Unit → Unit :=
  fun _ _ _ _ _ => ()

def entryURL (root : StorageURL) (appName version : String) : StorageURL :=
  storageURL root (appVersionEntryPath appName version)

def indexURL (root : StorageURL) (appName : String) : StorageURL :=
  storageURL root (appIndexPath appName)

-- The version has not been published yet. Other versions and other apps may be there.
structure Unpublished (root : StorageURL) (appName version : String)
    (b : Bucket StorageURL Document) : Prop where
  entry : b.objects (entryURL root appName version) = none
  row : Text.trimSpace version ∉ listedVersions (b.data? (indexURL root appName)) appName

def config (writers : ι → Writer) (plans : ι → BuiltManifest digest root)
    (b : Bucket StorageURL Document) :
    Config ι (StoreCall Document) StoreCall.Response (PublishResult × Option Failure)
      (Memory Document Unit) where
  mem := { bucket := b, record := () }
  prog := fun i => (writers i).publish (plans i).toPublishManifest

-- The time at which the publication of an entry has started, as an index row records it.
def startedAt (entry : Entry) : Option Int :=
  entry.publishStartedAt.filter (· ≠ 0)

def storedEntry : Option Document → Option Entry
  | some (.entry entry) => some entry
  | _ => none

-- A run that adds the row has the same start of the publication as the stored entry.
def StartsAgree (plans : ι → BuiltManifest digest root) (i : ι) :
    StoreCall Document → Memory Document Unit → Prop
  | .writeCatalogObject url _ g, s =>
    url = (plans i).indexURL → s.bucket.generation url = g →
    (plans i).entry.version ∉ listedVersions (s.bucket.data? url) (plans i).appName →
    ∀ stored ∈ storedEntry (s.bucket.data? (plans i).entryObject.storageURL),
      startedAt stored = startedAt (plans i).entry
  | _, _ => True

instance {plans : ι → BuiltManifest digest root} {i : ι} {c : StoreCall Document}
    {s : Memory Document Unit} : Decidable (StartsAgree plans i c s) := by
  cases c
  case writeCatalogObject => exact inferInstanceAs <| Decidable (_ → _ → _ → _)
  all_goals exact .isTrue trivial

def reply (c : StoreCall Document) (b : Bucket StorageURL Document) : c.Response :=
  (c.answer b).2

-- What a reader gets from `LoadPublishedState` while the runs go on.
def load (root : StorageURL) (appName version : String) (states : Nat → Bucket StorageURL Document) :
    Except Failure PublishedLoadResult :=
  (loadPublishedState root appName version).observe reply states

end Republish
end AppRegistry
