import GestaltModel.Interleaving.Cutoff
import GestaltModel.Primitives.GoMap

namespace Migrations

-- A field of a record. Values other than strings are known by their encoding.
inductive Value
  | null
  | text (s : String)
  | json (encoding : String)
  deriving DecidableEq, Repr

abbrev Record := GoMap Value

structure IndexSchema where
  name : String
  keyPath : List String
  unique : Bool := false
  deriving DecidableEq, Repr

inductive ColumnType
  | string
  | int
  | float
  | bool
  | time
  | bytes
  | json
  deriving DecidableEq, Repr

structure ColumnDef where
  name : String
  type : ColumnType := .string
  primaryKey : Bool := false
  notNull : Bool := false
  unique : Bool := false
  deriving DecidableEq, Repr

-- The contents of an object store, with the indexes by their names and the rows by their keys.
@[ext]
structure Store where
  columns : List ColumnDef := []
  indexes : GoMap IndexSchema := ∅
  rows : GoMap Record := ∅
  deriving DecidableEq

abbrev Database := GoMap Store

-- The errors `ErrNotFound` and `ErrAlreadyExists`, which may be wrapped, and all others.
inductive ErrorKind
  | notFound
  | alreadyExists
  | other
  deriving DecidableEq, Repr

structure DbError where
  kind : ErrorKind
  text : String
  deriving DecidableEq, Repr

-- What the calls of `Value` return while there is something to read, and `Err` in the end. They are
-- known when a cursor is opened: nobody else writes meanwhile, and a backfill does not write to the
-- store it reads.
structure Cursor where
  values : List (Except DbError (Option Record))
  err : Option DbError := none

-- The requests to the database. The last one is none: it marks where a revision starts to be
-- applied.
inductive Call
  | createObjectStore (name : String) (columns : List ColumnDef) (indexes : List IndexSchema)
  | deleteObjectStore (name : String)
  | createIndex (store : String) (index : IndexSchema)
  | deleteIndex (store name : String)
  | getAllKeys (store : String)
  | openCursor (store : String)
  | put (store : String) (record : Record)
  | begin (id : String)

@[reducible]
def Call.Result : Call → Type
  | getAllKeys _ => List String
  | openCursor _ => Cursor
  | _ => Unit

@[reducible]
def Call.Response (c : Call) : Type :=
  Except DbError c.Result

-- The database provider: what it makes of its contents and what it answers. It decides the key of a
-- record and whether indexes can be added and removed, and `jsonString` is `json.Marshal`.
structure Host where
  handle : (c : Call) → Database → Database × c.Response
  keyOf : Record → String
  indexManager : Bool := true
  jsonString : String → String

end Migrations
