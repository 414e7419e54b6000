import GestaltModel.Primitives.GoMap

namespace Coredata

-- Records have an id, which is the key path of the object stores.
class Record (V : Type) where
  id : V → String

-- A time that may be missing as it is read from its column, where the zero time is none.
def recTimePtr (column : Option Int) : Option Int :=
  column.filter (· ≠ 0)

-- The records of an object store by their ids. The requests that write return the store that they
-- leave behind.
structure ObjectStore (V : Type) [Record V] where
  records : GoMap V
  keyed : ∀ {id rec}, records.lookup id = some rec → Record.id rec = id

namespace ObjectStore

variable {V : Type} [Record V] {store store' : ObjectStore V} {id : String} {rec : V}

instance : EmptyCollection (ObjectStore V) where
  emptyCollection := { records := ∅, keyed := by simp }

def notFound : Failure where
  text := "indexeddb: not found"
  sentinel := some .recordNotFound

def alreadyExists : Failure where
  text := "indexeddb: already exists"
  sentinel := some .recordAlreadyExists

def lookup (store : ObjectStore V) (id : String) : Option V :=
  store.records.lookup id

instance : Membership V (ObjectStore V) where
  mem store rec := store.lookup (Record.id rec) = some rec

def getAll (store : ObjectStore V) : List V :=
  store.records.sortedKeys.filterMap store.lookup

def get (store : ObjectStore V) (id : String) : Except Failure V :=
  match store.lookup id with
  | some rec => .ok rec
  | none => .error notFound

def put (store : ObjectStore V) (rec : V) : ObjectStore V where
  records := store.records.insert (Record.id rec) rec
  keyed {k _} := by
    by_cases hk : k = Record.id rec
    case pos =>
      rw [hk, Finmap.lookup_insert]
      intro h
      cases h
      rfl
    case neg =>
      rw [Finmap.lookup_insert_of_ne _ hk]
      exact store.keyed

def add (store : ObjectStore V) (rec : V) : Except Failure (ObjectStore V) :=
  if store.lookup (Record.id rec) ≠ none then .error alreadyExists else .ok (store.put rec)

def erase (store : ObjectStore V) (id : String) : ObjectStore V where
  records := store.records.erase id
  keyed {k _} := by
    by_cases hk : k = id
    case pos =>
      rw [hk, Finmap.lookup_erase]
      exact nofun
    case neg =>
      rw [Finmap.lookup_erase_ne hk]
      exact store.keyed

def delete (store : ObjectStore V) (id : String) : Except Failure (ObjectStore V) :=
  if store.lookup id = none then .error notFound else .ok (store.erase id)

-- The record that a unique index has for the key.
def getBy [DecidableEq K] (index : V → K) (store : ObjectStore V) (key : K) : Option V :=
  store.getAll.find? (index · = key)

-- `put` for a store with a unique index.
def putUnique [DecidableEq K] (index : V → K) (store : ObjectStore V) (rec : V) :
    Except Failure (ObjectStore V) :=
  if ∃ other ∈ store.getAll, index other = index rec ∧ Record.id other ≠ Record.id rec then
    .error alreadyExists
  else
    .ok (store.put rec)

-- A loop over all records that replaces some of them.
def updateAll (store : ObjectStore V) (f : V → Option V) : ObjectStore V :=
  store.getAll.foldl (fun store rec => (f rec).elim store store.put) store

@[simp]
theorem lookup_empty : (∅ : ObjectStore V).lookup id = none :=
  rfl

theorem id_of_lookup (h : store.lookup id = some rec) : Record.id rec = id :=
  store.keyed h

@[simp]
theorem lookup_put_self : (store.put rec).lookup (Record.id rec) = some rec :=
  Finmap.lookup_insert _

theorem lookup_put_of_ne (h : id ≠ Record.id rec) : (store.put rec).lookup id = store.lookup id :=
  Finmap.lookup_insert_of_ne _ h

@[simp]
theorem lookup_erase_self : (store.erase id).lookup id = none :=
  Finmap.lookup_erase ..

theorem lookup_erase_of_ne (h : k ≠ id) : (store.erase id).lookup k = store.lookup k :=
  Finmap.lookup_erase_ne h

theorem mem_getAll : rec ∈ store.getAll ↔ store.lookup (Record.id rec) = some rec := by
  rw [getAll, List.mem_filterMap]
  constructor
  case mp =>
    intro ⟨k, _, h⟩
    rwa [id_of_lookup h]
  case mpr => exact fun h => ⟨_, GoMap.mem_sortedKeys.mpr (Finmap.mem_of_lookup_eq_some h), h⟩

theorem mem_iff : rec ∈ store ↔ store.lookup (Record.id rec) = some rec :=
  Iff.rfl

theorem mem_of_lookup (h : store.lookup id = some rec) : rec ∈ store := by
  rwa [mem_iff, id_of_lookup h]

theorem eq_of_mem (h : rec ∈ store) (h' : rec' ∈ store) (hid : Record.id rec = Record.id rec') :
    rec = rec' := by
  rw [mem_iff, hid] at h
  exact Option.some.inj (h.symm.trans h')

theorem mem_put :
    rec ∈ store.put new ↔ rec = new ∨ rec ∈ store ∧ Record.id rec ≠ Record.id new := by
  by_cases hid : Record.id rec = Record.id new
  case pos =>
    rw [mem_iff, hid, lookup_put_self, Option.some_inj]
    simp [eq_comm]
  case neg =>
    rw [mem_iff, lookup_put_of_ne hid]
    constructor
    case mp  => exact fun h => .inr ⟨h, hid⟩
    case mpr =>
      rintro (rfl | ⟨h, _⟩)
      · exact absurd rfl hid
      · exact h

theorem nodup_getAll : (store.getAll.map Record.id).Nodup := by
  rw [getAll, List.map_filterMap]
  refine GoMap.nodup_sortedKeys.filterMap fun k₁ k₂ k h₁ h₂ => ?_
  have ⟨_, hl₁, h₁⟩ := Option.map_eq_some_iff.mp h₁
  have ⟨_, hl₂, h₂⟩ := Option.map_eq_some_iff.mp h₂
  rw [← id_of_lookup hl₁, ← id_of_lookup hl₂, h₁, h₂]

section UpdateAll

variable {f : V → Option V}

theorem lookup_foldl_of_not_mem {recs : List V}
    (hf : ∀ {rec rec'}, f rec = some rec' → Record.id rec' = Record.id rec)
    (h : id ∉ recs.map Record.id) :
    (recs.foldl (fun store rec => (f rec).elim store store.put) store).lookup id =
      store.lookup id := by
  induction recs generalizing store
  case nil => rfl
  case cons rec recs hi =>
    have h := not_or.mp (mt List.mem_cons.mpr h)
    rw [List.foldl_cons, hi h.right]
    cases hr : f rec
    case none      => rfl
    case some rec' => exact lookup_put_of_ne (hf hr ▸ h.left)

theorem lookup_updateAll (hf : ∀ {rec rec'}, f rec = some rec' → Record.id rec' = Record.id rec) :
    (store.updateAll f).lookup id = (store.lookup id).map fun rec => (f rec).getD rec := by
  have hall := @nodup_getAll _ _ store
  cases hl : store.lookup id
  case none =>
    rw [updateAll, lookup_foldl_of_not_mem hf, hl]
    · rfl
    · intro h
      have ⟨rec, hm, hk⟩ := List.mem_map.mp h
      exact nomatch (hk ▸ mem_getAll.mp hm).symm.trans hl
  case some rec =>
    have hid := id_of_lookup hl
    have ⟨l₁, l₂, he⟩ := List.append_of_mem (mem_getAll.mpr (hid ▸ hl))
    rw [he, List.map_append, List.map_cons, List.nodup_middle, List.nodup_cons,
      List.mem_append, not_or, hid] at hall
    rw [updateAll, he, List.foldl_append, List.foldl_cons,
      lookup_foldl_of_not_mem hf hall.left.right]
    cases hr : f rec
    case none      => simp [lookup_foldl_of_not_mem hf hall.left.left, hl, hr]
    case some rec' => simp [hr, ← hid, ← hf hr]

end UpdateAll

theorem get_eq_ok : store.get id = .ok rec ↔ store.lookup id = some rec := by
  simp only [get]
  split <;> simp_all

theorem add_eq_ok :
    store.add rec = .ok store' ↔ store.lookup (Record.id rec) = none ∧ store' = store.put rec := by
  simp only [add]
  split <;> simp_all [eq_comm]

section Unique

variable [DecidableEq K] {index : V → K} {key : K}

theorem putUnique_eq_ok :
    store.putUnique index rec = .ok store' ↔
      (∀ other ∈ store, index other = index rec → Record.id other = Record.id rec) ∧
      store' = store.put rec := by
  simp only [putUnique, mem_iff, ← mem_getAll]
  split
  case isTrue h =>
    obtain ⟨other, hm, hi, hid⟩ := h
    simp only [reduceCtorEq, false_iff, not_and]
    exact fun h => absurd (h other hm hi) hid
  case isFalse h =>
    simp only [not_exists, not_and, not_not] at h
    rw [Except.ok.injEq, eq_comm, and_iff_right h]

theorem mem_of_getBy (h : store.getBy index key = some rec) : rec ∈ store ∧ index rec = key :=
  ⟨mem_getAll.mp (List.mem_of_find?_eq_some h), by simpa using List.find?_some h⟩

theorem getBy_of_mem (hu : ∀ {other}, other ∈ store → index other = index rec → other = rec)
    (h : rec ∈ store) : store.getBy index (index rec) = some rec := by
  cases hg : store.getBy index (index rec)
  case none =>
    rw [getBy, List.find?_eq_none] at hg
    exact absurd (decide_eq_true rfl) (hg rec (mem_getAll.mpr h))
  case some other =>
    obtain ⟨hm, hi⟩ := mem_of_getBy hg
    rw [hu hm hi]

end Unique

theorem delete_eq_ok :
    store.delete id = .ok store' ↔ store.lookup id ≠ none ∧ store' = store.erase id := by
  simp only [delete]
  split <;> simp_all [eq_comm]

end ObjectStore
end Coredata
