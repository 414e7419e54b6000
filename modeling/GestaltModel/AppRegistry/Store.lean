import GestaltModel.Bucket.Basic
import GestaltModel.Interleaving.Execution
import GestaltModel.Primitives.Failure

namespace AppRegistry

open Interleaving

-- A storage URL by its segments: the storage root, and those of the object's path.
abbrev StorageURL := List String

instance : LawfulBEq StorageURL :=
  inferInstance

def StorageURL.text (url : StorageURL) : String :=
  "/".intercalate url

structure ObjectDescription where
  generation : Nat
  sha256 : String
  deriving DecidableEq

-- Reading an object takes two requests, and only the retention prune deletes objects.
inductive StoreCall (β : Type)
  | describeObject (url : StorageURL)
  | readAttrs (url : StorageURL)
  | readData (url : StorageURL)
  | writeImmutableObject (url : StorageURL) (data : β) (sha256 : String)
  | writeCatalogObject (url : StorageURL) (data : β) (generation : Nat)
  | deleteObject (url : StorageURL)
  | deletePrefix (url : StorageURL)

namespace StoreCall

abbrev Response : StoreCall β → Type
  | describeObject _ => Except Failure ObjectDescription
  | readAttrs _ => Except Failure Nat
  | readData _ => Except Failure β
  | writeImmutableObject _ _ _ => Except Failure Unit
  | writeCatalogObject _ _ _ => Except Failure Unit
  | deleteObject _ => Except Failure Unit
  | deletePrefix _ => Except Failure Unit

def fail (f : Failure) : (c : StoreCall β) → c.Response
  | describeObject _ => .error f
  | readAttrs _ => .error f
  | readData _ => .error f
  | writeImmutableObject _ _ _ => .error f
  | writeCatalogObject _ _ _ => .error f
  | deleteObject _ => .error f
  | deletePrefix _ => .error f

def preconditionFailed (url : StorageURL) : Failure where
  text := "registry object precondition failed: " ++ url.text
  sentinel := some .objectPreconditionFailed

def openFailed (url : StorageURL) : Failure where
  text := "open " ++ url.text ++ ": storage: object doesn't exist"

-- Whether `url` lies under the prefix `pre` (`gcloud storage rm --recursive pre/**`).
def Under (pre url : StorageURL) : Prop :=
  pre <+: url ∧ pre ≠ url

instance {pre url : StorageURL} : Decidable (Under pre url) :=
  inferInstanceAs <| Decidable (_ ∧ _)

-- A delete of what is gone succeeds, since `deleteAppRegistryObject` and `deleteAppRegistryPrefix`
-- drop the error.
def answer (b : Bucket StorageURL β) : (c : StoreCall β) → Bucket StorageURL β × c.Response
  | describeObject url =>
    (b, .ok { generation := b.generation url, sha256 := (b.objects url).elim "" (·.sha256) })
  | readAttrs url => (b, .ok (b.generation url))
  | readData url =>
    match b.data? url with
    | some data => (b, .ok data)
    | none      => (b, .error (openFailed url))
  | writeImmutableObject url data sha256 =>
    match b.create url data sha256 with
    | some b' => (b', .ok ())
    | none    => (b, .error (preconditionFailed url))
  | writeCatalogObject url data generation =>
    match b.replace url data generation with
    | some b' => (b', .ok ())
    | none    => (b, .error (preconditionFailed url))
  | deleteObject url => (b.deleteAll (· = url), .ok ())
  | deletePrefix url => (b.deleteAll (Under url ·), .ok ())

-- A request either arrives or fails without an effect.
def exec (c : StoreCall β) (lost : Option Failure) (b : Bucket StorageURL β) :
    Bucket StorageURL β × c.Response :=
  match lost with
  | some f => (b, c.fail f)
  | none => c.answer b

end StoreCall

-- The object store together with a record `γ` of what happened, which no client can read.
structure Memory (β γ : Type) where
  bucket : Bucket StorageURL β
  record : γ

-- The store as a shared memory. Every answered request is noted in the record.
@[reducible]
def storeSemantics {ι β γ : Type}
    (note : ι → (c : StoreCall β) → c.Response → Bucket StorageURL β → γ → γ) :
    Semantics ι (StoreCall β) StoreCall.Response (Memory β γ) where
  Oracle := Option Failure
  Act := Empty
  act a := a.elim
  exec i c lost m :=
    let (b, r) := c.exec lost m.bucket
    ({ bucket := b, record := note i c r m.bucket m.record }, r)

abbrev StoreProgram (β α : Type) := Program (StoreCall β) StoreCall.Response α

def request (c : StoreCall β) : StoreProgram β c.Response :=
  .perform c

@[simp]
theorem request_bind (c : StoreCall β) (f : c.Response → StoreProgram β α) :
    (request c >>= f) = .call c f :=
  rfl

-- `RegistryObjectStore.ReadObject`. An absent object has generation `0` and no bytes.
def readObject (url : StorageURL) : StoreProgram β (Except Failure (Nat × Option β)) := do
  match ← request (.readAttrs url) with
  | .error e => return .error e
  | .ok 0 => return .ok (0, none)
  | .ok generation =>
    match ← request (.readData url) with
    | .error e => return .error e
    | .ok data => return .ok (generation, some data)

end AppRegistry
