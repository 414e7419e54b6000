import Mathlib.Data.Finmap
import Mathlib.Data.List.Sort
import Mathlib.Data.Multiset.Lattice
import Mathlib.Data.String.Basic
import GestaltModel.Primitives.Failure

-- A Go map with string keys.
abbrev GoMap (V : Type) := Finmap fun _ : String => V

namespace GoMap

variable {check : String → V → Except Failure Unit} {m : GoMap V} {k : String}

-- The texts of the errors that a check of the single entries finds.
def errors (check : String → V → Except Failure Unit) (m : GoMap V) : Multiset String :=
  m.entries.filterMap fun e =>
    match check e.1 e.2 with
    | .error f => some f.text
    | .ok () => none

-- Returns the first error. Go visits the entries in an arbitrary order, so which one is the first
-- is not determined. Here it is the least one.
def checkAll (check : String → V → Except Failure Unit) (m : GoMap V) : Except Failure Unit :=
  match ((errors check m).map WithTop.some).inf with
  | ⊤ => .ok ()
  | (t : String) => .error ⟨t, none⟩

theorem mem_errors :
    t ∈ errors check m ↔ ∃ k v f, m.lookup k = some v ∧ check k v = .error f ∧ f.text = t := by
  simp only [errors, Multiset.mem_filterMap, Finmap.lookup_eq_some_iff]
  constructor
  case mp =>
    rintro ⟨e, he, h⟩
    split at h <;> cases h
    case h_1 f hf => exact ⟨e.1, e.2, f, he, hf, rfl⟩
  case mpr =>
    rintro ⟨k, v, f, he, hf, rfl⟩
    exact ⟨⟨k, v⟩, he, by simp [hf]⟩

theorem errors_eq_zero :
    errors check m = 0 ↔ ∀ k v, m.lookup k = some v → check k v = .ok () := by
  rw [Multiset.eq_zero_iff_forall_notMem]
  constructor
  case mp =>
    intro h k v hl
    cases hc : check k v
    case ok      => rfl
    case error f => exact absurd (mem_errors.mpr ⟨k, v, f, hl, hc, rfl⟩) (h f.text)
  case mpr =>
    intro h t ht
    obtain ⟨k, v, f, hl, hf, -⟩ := mem_errors.mp ht
    cases (h k v hl).symm.trans hf

theorem checkAll_eq_ok :
    checkAll check m = .ok () ↔ ∀ k v, m.lookup k = some v → check k v = .ok () := by
  rw [← errors_eq_zero, checkAll]
  cases he : errors check m using Multiset.induction_on
  case empty => simp
  case cons t s _ =>
    have hn : ((t ::ₘ s).map WithTop.some).inf ≠ ⊤ := by
      rw [Multiset.map_cons, Multiset.inf_cons, ne_eq, inf_eq_top_iff]
      exact fun h => WithTop.coe_ne_top h.left
    split
    case h_1 h => exact absurd h hn
    case h_2   => simp

def sortedKeys (m : GoMap V) : List String :=
  Quot.liftOn m.keys.val (·.insertionSort (· ≤ ·)) fun l₁ l₂ h => by
    have hp := (l₁.perm_insertionSort (· ≤ ·)).trans (h.trans (l₂.perm_insertionSort (· ≤ ·)).symm)
    exact hp.eq_of_pairwise (fun _ _ _ _ => le_antisymm) (l₁.pairwise_insertionSort _)
      (l₂.pairwise_insertionSort _)

theorem mem_sortedKeys : k ∈ m.sortedKeys ↔ k ∈ m := by
  rw [← Finmap.mem_keys, ← Finset.mem_val, sortedKeys]
  induction m.keys.val using Quot.induction_on
  case h l => exact List.mem_insertionSort _

theorem nodup_sortedKeys : m.sortedKeys.Nodup := by
  have hn := m.keys.nodup
  rw [sortedKeys]
  revert hn
  induction m.keys.val using Quot.induction_on
  case h l => exact (l.perm_insertionSort _).nodup_iff.mpr

theorem erase_eq_self (h : k ∉ m) : m.erase k = m := by
  refine Finmap.ext_lookup fun j => ?_
  by_cases hj : j = k
  case pos => rw [hj, Finmap.lookup_erase, Finmap.lookup_eq_none.mpr h]
  case neg => exact Finmap.lookup_erase_ne hj

theorem insert_eq_self (h : m.lookup k = some v) : m.insert k v = m := by
  refine Finmap.ext_lookup fun j => ?_
  by_cases hj : j = k
  case pos => rw [hj, Finmap.lookup_insert, h]
  case neg => exact Finmap.lookup_insert_of_ne m hj

theorem lookup_of_lookup_erase (h : (m.erase k).lookup j = some v) :
    m.lookup j = some v := by
  by_cases hj : j = k
  case pos => rw [hj, Finmap.lookup_erase] at h; contradiction
  case neg => rwa [Finmap.lookup_erase_ne hj] at h

-- A loop that deletes the entries whose values satisfy a predicate.
def eraseWhere (p : V → Bool) (m : GoMap V) : GoMap V :=
  m.sortedKeys.foldl (fun m k => if (m.lookup k).any p then m.erase k else m) m

theorem lookup_foldl_erase {keys : List String} :
    (keys.foldl (fun m k => if (m.lookup k).any p then m.erase k else m) m).lookup k =
      if k ∈ keys then (m.lookup k).filter (! p ·) else m.lookup k := by
  induction keys generalizing m
  case nil => rfl
  case cons j keys hi =>
    rw [List.foldl_cons, hi]
    by_cases hk : k = j
    case neg =>
      have he : (if (m.lookup j).any p then m.erase j else m).lookup k = m.lookup k := by
        split
        case isTrue  => exact Finmap.lookup_erase_ne hk
        case isFalse => rfl
      simp [hk, he]
    case pos =>
      subst hk
      have he : (m.erase k).lookup k = none := Finmap.lookup_erase ..
      cases hl : m.lookup k
      case none   => simp [hl]
      case some v => by_cases hp : p v <;> simp [hl, hp, he, Option.filter]

theorem lookup_eraseWhere :
    (m.eraseWhere p).lookup k = (m.lookup k).filter (! p ·) := by
  rw [eraseWhere, lookup_foldl_erase]
  cases hl : m.lookup k
  case none => simp
  case some v => simp [mem_sortedKeys, Finmap.mem_of_lookup_eq_some hl]

-- The order in which the loops over a map visit its keys. It can be another one each time.
structure VisitOrder where
  visit : Nat → List String → List String
  perm : ∀ n keys, (visit n keys).Perm keys

instance : Inhabited VisitOrder where
  default := { visit := fun _ keys => keys, perm := fun _ _ => .rfl }

end GoMap
