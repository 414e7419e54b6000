import GestaltModel.Migrations.Theorems.Revisions

namespace Migrations.SchemaMatching

open MigrationProgram

def keyOf (record : Record) : String :=
  match record.lookup "id" with
  | some (.text s) => s
  | _ => ""

def notFound {α : Type} : Except DbError α :=
  .error ⟨.notFound, "indexeddb: not found"⟩

def alreadyExists {α : Type} : Except DbError α :=
  .error ⟨.alreadyExists, "indexeddb: already exists"⟩

-- What it answers, given the store that the request is about.
def answer : (c : Call) → Option Store → c.Response
  | .createObjectStore _ _ _, none => .ok ()
  | .createObjectStore name columns indexes, some store =>
    if store.columns = columns ∧ store.indexes = (Store.new columns indexes).indexes then .ok ()
    else .error ⟨.other, "object store " ++ Text.quote name ++ " schema does not match"⟩
  | .deleteObjectStore _, none => notFound
  | .deleteObjectStore _, some _ => .ok ()
  | .createIndex _ _, none => notFound
  | .createIndex _ index, some store =>
    if index.name ∈ store.indexes then alreadyExists else .ok ()
  | .deleteIndex _ _, none => notFound
  | .deleteIndex _ name, some store => if name ∈ store.indexes then .ok () else notFound
  | .getAllKeys _, none => notFound
  | .getAllKeys _, some store => .ok store.rows.sortedKeys
  | .openCursor _, none => notFound
  | .openCursor _, some store =>
    .ok { values := store.rows.sortedKeys.map fun key => .ok (store.rows.lookup key) }
  | .put _ _, none => notFound
  | .put _ _, some _ => .ok ()
  | .begin _, _ => .ok ()

def write (d : Database) (name : String) : Option Store → Database
  | none => d.erase name
  | some store => d.insert name store

def handle (c : Call) (d : Database) : Database × c.Response :=
  match c.store with
  | none => (d, answer c none)
  | some name =>
    match answer c (d.lookup name) with
    | .error e => (d, .error e)
    | .ok r => (write d name (c.change keyOf (d.lookup name)), .ok r)

-- A provider that takes a store which is already there only with the schema it has.
def host : Host where
  handle
  keyOf
  jsonString s := "\"" ++ s ++ "\""

section Lawful

variable {c : Call} {d d' : Database} {name : String} {store : Option Store}

end Lawful
end Migrations.SchemaMatching
