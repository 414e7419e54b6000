import GestaltModel.AppRegistry.Store

namespace AppRegistry

open Interleaving

inductive CatalogWriteOutcome
  | updated
  | unchanged
  | notAttempted
  deriving DecidableEq, Repr

def defaultCatalogUpdateAttempts : Int := 5

def appRegistryCatalogUpdateAttempts : Nat := 5

-- `isCatalogPreconditionFailed`, including the text heuristics of `gcloudPreconditionFailed`.
def IsCatalogPreconditionFailed (f : Failure) : Prop :=
  f.Is .objectPreconditionFailed ∨
  f.Mentions "precondition" ∨ f.Mentions "generation" ∨ f.Mentions "412"

instance {f : Failure} : Decidable (IsCatalogPreconditionFailed f) :=
  inferInstanceAs <| Decidable (_ ∨ _)

-- An attempt between its read and its write: it fails, leaves the catalog unchanged (`none`) or
-- yields the bytes to write. `encode` is `json.MarshalIndent`.
def catalogUpdate (decode : Option β → Except Failure τ) (mutate : τ → Except Failure (τ × Bool))
    (encode : τ → Except Failure β) (existing : Option β) : Except Failure (Option β) := do
  let decoded ← decode existing
  let (updated, changed) ← mutate decoded
  if changed then
    let data ← encode updated
    return some data
  else
    return none

-- The result is the outcome, or the error, beside which the outcome is always `notAttempted`.
def compareAndSwapCatalog (url : StorageURL) (attempts : Int)
    (decode : Option β → Except Failure τ) (mutate : τ → Except Failure (τ × Bool))
    (encode : τ → Except Failure β) : StoreProgram β (Except Failure CatalogWriteOutcome) :=
  go (if attempts ≤ 0 then defaultCatalogUpdateAttempts else attempts).toNat
where
  -- The argument counts the attempts that are left.
  go : Nat → StoreProgram β (Except Failure CatalogWriteOutcome)
    | 0     => return .error ⟨"update " ++ url.text ++
      ": exceeded retry limit after concurrent catalog updates", none⟩
    | n + 1 => do
      match ← readObject url with
      | .error e => return .error e
      | .ok (generation, existing) =>
        match catalogUpdate decode mutate encode existing with
        | .error e        => return .error e
        | .ok none        => return .ok .unchanged
        | .ok (some data) =>
          match ← request (.writeCatalogObject url data generation) with
          | .ok ()   => return .ok .updated
          | .error e =>
            if IsCatalogPreconditionFailed e ∧ 0 < n then
              go n
            else
              return .error e

-- One caller of `compareAndSwapCatalog` with its own decode, mutate and encode functions.
structure CatalogClient (β : Type) where
  τ : Type
  attempts : Int
  decode : Option β → Except Failure τ
  mutate : τ → Except Failure (τ × Bool)
  encode : τ → Except Failure β

namespace CatalogClient

def update (c : CatalogClient β) : Option β → Except Failure (Option β) :=
  catalogUpdate c.decode c.mutate c.encode

def program (c : CatalogClient β) (url : StorageURL) :
    StoreProgram β (Except Failure CatalogWriteOutcome) :=
  compareAndSwapCatalog url c.attempts c.decode c.mutate c.encode

-- The record of these clients is the sequence of their accepted catalog writes.
def noteCommit : ι → (c : StoreCall β) → c.Response → Bucket StorageURL β → List (ι × β) →
    List (ι × β)
  | i, .writeCatalogObject _ data _, .ok (), _, commits => commits ++ [(i, data)]
  | _, _, _, _, commits => commits

-- The initial configuration where all clients are about to update the catalog at `url`.
def config (clients : ι → CatalogClient β) (url : StorageURL) (b : Bucket StorageURL β) :
    Config ι (StoreCall β) StoreCall.Response (Except Failure CatalogWriteOutcome)
      (Memory β (List (ι × β))) where
  mem := { bucket := b, record := [] }
  prog := fun i => (clients i).program url

def content (initial : Option β) (commits : List (ι × β)) : Option β :=
  commits.getLast?.elim initial (some ·.2)

-- Every commit is the result of its client's update on the content committed just before it.
inductive Committed (clients : ι → CatalogClient β) (initial : Option β) : List (ι × β) → Prop
  | nil : Committed clients initial []
  | snoc {commits i data} : Committed clients initial commits →
    (clients i).update (content initial commits) = .ok (some data) →
    Committed clients initial (commits ++ [(i, data)])

end CatalogClient
end AppRegistry
