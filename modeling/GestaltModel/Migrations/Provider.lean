import GestaltModel.Migrations.Run

namespace Migrations

open Interleaving Interleaving.Program MigrationProgram

namespace Store

-- A store as it is declared.
def new (columns : List ColumnDef) (indexes : List IndexSchema) : Store :=
  { columns, indexes := indexes.foldl (fun m index => m.insert index.name index) ∅ }

def withIndex (store : Store) (index : IndexSchema) : Store :=
  if index.name ∈ store.indexes then store
  else { store with indexes := store.indexes.insert index.name index }

def withoutIndex (store : Store) (name : String) : Store :=
  { store with indexes := store.indexes.erase name }

def withRow (store : Store) (key : String) (record : Record) : Store :=
  { store with rows := store.rows.insert key record }

end Store

namespace Call

-- The store that a request is about.
def store : Call → Option String
  | createObjectStore name _ _ => some name
  | deleteObjectStore name => some name
  | createIndex store _ => some store
  | deleteIndex store _ => some store
  | getAllKeys store => some store
  | openCursor store => some store
  | put store _ => some store
  | begin _ => none

-- The request is about a store other than the ledger.
def Off (ledger : String) (c : Call) : Prop :=
  ∃ name ≠ ledger, c.store = some name

variable (keyOf : Record → String)

-- What a request is meant to make of its store. Whether a provider accepts it is another matter.
def change : Call → Option Store → Option Store
  | createObjectStore _ columns indexes, store => store.or (some (.new columns indexes))
  | deleteObjectStore _, _ => none
  | createIndex _ index, store => store.map (·.withIndex index)
  | deleteIndex _ name, store => store.map (·.withoutIndex name)
  | put _ record, store => store.map (·.withRow (keyOf record) record)
  | _, store => store

-- The request changes its store in this way, and no other one.
def Changes (c : Call) (d d' : Database) : Prop :=
  ∀ name, d'.lookup name =
    if c.store = some name then c.change keyOf (d.lookup name) else d.lookup name

-- A store, an index or a row is there just as it is requested, or is not there as requested.
def Done : Call → Option Store → Prop
  | createObjectStore _ columns indexes, store => ∃ s ∈ store,
    s.columns = columns ∧ s.indexes = (Store.new columns indexes).indexes
  | deleteObjectStore _, store => store = none
  | createIndex _ index, store => ∃ s ∈ store, s.indexes.lookup index.name = some index
  | deleteIndex _ name, store => ∃ s ∈ store, name ∉ s.indexes
  | put _ record, store => ∃ s ∈ store, s.rows.lookup (keyOf record) = some record
  | _, _ => False

-- The errors which say that there is nothing to do.
def ignores : Call → ErrorKind → Bool
  | createObjectStore .., .alreadyExists => true
  | createIndex .., .alreadyExists => true
  | deleteObjectStore _, .notFound => true
  | deleteIndex .., .notFound => true
  | _, _ => false

def Accepts (c : Call) : c.Response → Prop
  | .ok _ => True
  | .error e => c.ignores e.kind

-- What a request has made or found in its store is still there later.
def Stays (c : Call) (found later : Option Store) : Prop :=
  c.Done keyOf later ∨ c.change keyOf found = found ∧ later = found

end Call

-- What is assumed of a provider.
structure Host.Lawful (host : Host) : Prop where
  -- Requests are atomic: one that succeeds has its effect, and one that fails has none.
  succeeded : ∀ {c d d' r}, host.handle c d = (d', .ok r) → c.Changes host.keyOf d d'
  failed : ∀ {c d d' e}, host.handle c d = (d', .error e) → d' = d
  -- When it says that there is nothing to do, then this is so.
  redundant : ∀ {c d d' e}, host.handle c d = (d', .error e) → c.ignores e.kind →
    c.Changes host.keyOf d d
  -- What is already as requested is not refused.
  again : ∀ {c : Call} {d : Database} {name}, c.store = some name →
    c.Done host.keyOf (d.lookup name) → c.Accepts (host.handle c d).2
  -- The answers depend on nothing but the store that a request is about.
  confined : ∀ {c : Call} {d d' : Database}, (∀ name ∈ c.store, d'.lookup name = d.lookup name) →
    (host.handle c d').2 = (host.handle c d).2
  -- A ledger has the ids of revisions as keys, and as it is created it takes every record of one.
  key : ∀ id appliedAt, host.keyOf (ledgerRecord id appliedAt) = id
  keys : ∀ {d ledger store}, d.lookup ledger = some store →
    ∃ keys, (host.handle (.getAllKeys ledger) d).2 = .ok keys ∧ ∀ id, id ∈ keys ↔ id ∈ store.rows
  records : ∀ {d ledger rows}, d.lookup ledger = some { columns := ledgerColumns, rows } →
    ∀ id appliedAt, (host.handle (.put ledger (ledgerRecord id appliedAt)) d).2 = .ok ()

-- The part of a revision that makes the request.
def MigrationProgram.step (host : Host) : Call → MigrationProgram (Except DbError Unit)
  | .createObjectStore name columns indexes => createStoreIfAbsent { name, columns, indexes }
  | .deleteObjectStore name => dropStoreIfPresent name
  | .createIndex store index => createIndexIfAbsent host { store, index }
  | .deleteIndex store name => dropIndexIfPresent host { store, name }
  | .put store record => perform (.put store record)
  | _ => return .ok ()

def SchemaDeclaration.calls (schema : SchemaDeclaration) : List Call :=
  (schema.stores.map fun store => .createObjectStore store.name store.columns store.indexes) ++
  ((schema.addIndexes.map fun entry => .createIndex entry.store entry.index) ++
  ((schema.dropIndexes.map fun entry => .deleteIndex entry.store entry.name) ++
  schema.dropStores.map .deleteObjectStore))

def BackfillTransform.puts (transform : BackfillTransform)
    (values : List (Except DbError (Option Record))) : List Call :=
  values.filterMap fun value =>
    value.toOption.join.map fun row => .put transform.into (transform.value row)

-- When the requests are made one after the other, what each of them has made or found in its store
-- is still there after the later ones.
def Lasting (host : Host) (calls : List Call) (d : Database) : Prop :=
  ∀ l₁ c l₂ l₃ d₁ d₂, calls = l₁ ++ c :: l₂ ++ l₃ →
    (each (step host) l₁).eval host.handle d = (d₁, .ok ()) →
    (each (step host) (l₁ ++ c :: l₂)).eval host.handle d = (d₂, .ok ()) →
    ∀ name ∈ c.store, c.Stays host.keyOf (d₁.lookup name) (d₂.lookup name)

namespace Revision

variable (host : Host) (ledger : String) (revision : Revision)

-- The requests of the revision that are meant to change something.
def calls (d : Database) : List Call :=
  match revision.schema, revision.backfill with
  | some schema, _ => schema.calls
  | none, some transform =>
    match (host.handle (.openCursor transform.source) d).2 with
    | .ok cursor => transform.puts cursor.values
    | .error _ => []
  | none, none => []

def LedgerFree : Prop :=
  match revision.schema, revision.backfill with
  | some schema, _ => ∀ c ∈ schema.calls, c.Off ledger
  | none, some transform => transform.source ≠ ledger ∧ transform.into ≠ ledger
  | none, none => True

-- The source of a backfill is another store than its target.
def Distinct : Prop :=
  ∀ transform ∈ revision.backfill, transform.source ≠ transform.into

structure Replayable (d : Database) : Prop where
  free : revision.LedgerFree ledger
  lasting : Lasting host (revision.calls host d) d

end Revision
end Migrations
