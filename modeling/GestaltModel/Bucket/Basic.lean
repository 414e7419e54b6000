import Mathlib.Logic.Function.Basic

-- A stored object. Every write gives the object a generation that was never used before.
@[ext]
structure StoredObject (β : Type) where
  generation : Nat
  data : β
  sha256 : String

-- An object store with generation preconditions. The objects are addressed by `κ` and hold `β`.
@[ext]
structure Bucket (κ β : Type) where
  objects : κ → Option (StoredObject β)
  latest : Nat
  bounded : ∀ {k o}, objects k = some o → 0 < o.generation ∧ o.generation ≤ latest

namespace Bucket

variable {κ β : Type} [DecidableEq κ]

instance : EmptyCollection (Bucket κ β) where
  emptyCollection := { objects := fun _ => none, latest := 0, bounded := by simp }

variable (b : Bucket κ β)

-- The generation of an absent object is `0`.
def generation (k : κ) : Nat :=
  (b.objects k).elim 0 (·.generation)

def data? (k : κ) : Option β :=
  (b.objects k).map (·.data)

-- Stores an object unconditionally, with a fresh generation.
def store (k : κ) (data : β) (sha256 : String) : Bucket κ β where
  objects := Function.update b.objects k (some { generation := b.latest + 1, data, sha256 })
  latest := b.latest + 1
  bounded := by
    intro j o h
    by_cases hj : j = k
    case pos =>
      simp only [hj, Function.update_self, Option.some.injEq] at h
      simp [← h]
    case neg =>
      have := b.bounded (Function.update_of_ne hj .. ▸ h)
      exact ⟨this.left, Nat.le_succ_of_le this.right⟩

-- A create-only write: it is refused when the object exists.
def create (k : κ) (data : β) (sha256 : String) : Option (Bucket κ β) :=
  if (b.objects k).isSome then none else some (b.store k data sha256)

-- A generation-matched write. The generation `0` asks for the object to be absent.
def replace (k : κ) (data : β) (generation : Nat) : Option (Bucket κ β) :=
  if b.generation k = generation then some (b.store k data "") else none

def deleteAll (p : κ → Bool) : Bucket κ β where
  objects k := if p k then none else b.objects k
  latest := b.latest
  bounded := by
    intro j o h
    split at h
    · contradiction
    · exact b.bounded h

end Bucket
