import GestaltModel.Migrations.Database
import Mathlib.Data.List.Dedup

namespace Migrations

open Interleaving (Program)

structure StoreDeclaration where
  name : String
  columns : List ColumnDef := []
  indexes : List IndexSchema := []
  deriving DecidableEq, Repr

structure AddIndexDeclaration where
  store : String
  index : IndexSchema
  deriving DecidableEq, Repr

structure IndexRef where
  store : String
  name : String
  deriving DecidableEq, Repr

structure SchemaDeclaration where
  stores : List StoreDeclaration := []
  addIndexes : List AddIndexDeclaration := []
  dropStores : List String := []
  dropIndexes : List IndexRef := []
  deriving DecidableEq, Repr

structure BackfillTransform where
  source : String
  into : String
  value : Record → Record

structure Revision where
  id : String
  schema : Option SchemaDeclaration := none
  backfill : Option BackfillTransform := none

structure RunOptions where
  revisions : List Revision
  ledgerStore : String := ""

structure Result where
  applied : List String := []
  head : String := ""
  deriving DecidableEq, Repr

structure MigrationError where
  message : String
  current : String := ""
  attempted : String := ""
  cause : Option DbError := none
  deriving DecidableEq, Repr

section Checks

variable (host : Host)

def validateRevision (seen : List String) (revision : Revision) : Except MigrationError Revision :=
  let id := Text.trimSpace revision.id
  if id = "" then
    .error { message := "every revision needs a non-empty id" }
  else if id ∈ seen then
    .error { message := "duplicate revision id " ++ host.jsonString id }
  else if revision.schema.isSome = revision.backfill.isSome then
    .error { message := "revision " ++ host.jsonString id ++
      " must declare exactly one of \"schema\" or \"backfill\"" }
  else if revision.backfill.any fun transform => transform.source = transform.into then
    .error { message := "revision " ++ host.jsonString id ++
      " backfill \"from\" and \"into\" must differ: a backfill reads an immutable source and " ++
      "writes a distinct target, so it cannot read its own output and is idempotent by " ++
      "construction" }
  else
    .ok { revision with id }

def validateRevisions : List String → List Revision → Except MigrationError (List Revision)
  | _, [] => .ok []
  | seen, revision :: revisions => do
    let revision ← validateRevision host seen revision
    let rest ← validateRevisions (revision.id :: seen) revisions
    return revision :: rest

-- The text up to and with the last slash, or nothing if there is none.
def ledgerIDDirectoryPrefix (id : String) : String :=
  match Text.cutLast '/' id with
  | some (before, _) => before ++ "/"
  | none => ""

def ledgerIDOwnedByProvider (id : String) (revisions : List Revision) : Bool :=
  let prefixes := (revisions.map (·.id)).filter ('/' ∈ ·.toList) |>.map ledgerIDDirectoryPrefix
  let hasFlat := revisions.any fun revision => '/' ∉ revision.id.toList
  if '/' ∈ id.toList then ledgerIDDirectoryPrefix id ∈ prefixes else hasFlat && prefixes.isEmpty

variable (revisions : List Revision)

-- The declared ids and the namespaces are known after `validateRevisions`, which trims the ids.
def headOf : String :=
  (revisions.getLast?.map (·.id)).getD ""

def joinJSONStrings (values : List String) : String :=
  ", ".intercalate (values.map host.jsonString)

variable (applied : List String)

-- The ids that are applied are the keys of the ledger, in any order.
def unknownIDs : List String :=
  (applied.dedup.filter fun id =>
    id ∉ revisions.map (·.id) && ledgerIDOwnedByProvider id revisions).insertionSort (· ≤ ·)

def assertNotAheadOfCode : Except MigrationError Unit :=
  let unknown := unknownIDs revisions applied
  if unknown = [] then
    .ok ()
  else
    .error
      { message   := "ledger is ahead of code: applied revision(s) " ++
          joinJSONStrings host unknown ++
          " are not declared by this binary. Roll forward to a binary that defines them, or " ++
          "manually undo them and delete their ledger rows."
        current   := (unknown.getLast?).getD ""
        attempted := headOf revisions }

-- The applied ones among the revisions after the first one that is not applied.
def outOfOrder (applied : List String) : Bool → List Revision → List String
  | _, [] => []
  | sawUnapplied, revision :: revisions =>
    if revision.id ∈ applied then
      if sawUnapplied then revision.id :: outOfOrder applied sawUnapplied revisions
      else outOfOrder applied sawUnapplied revisions
    else
      outOfOrder applied true revisions

def assertContiguousPrefix : Except MigrationError Unit :=
  let outOfOrder := outOfOrder applied false revisions
  if outOfOrder = [] then
    .ok ()
  else
    .error
      { message   := "ledger has gaps: revision(s) " ++ joinJSONStrings host outOfOrder ++
          " are applied but an earlier declared revision is not. Revisions are an append-only " ++
          "ledger — a new revision must be added after all applied ones, never inserted or " ++
          "reordered before them."
        attempted := headOf revisions }

def latestAppliedID : String :=
  revisions.foldl
    (fun current revision => if revision.id ∈ applied then revision.id else current) ""

end Checks

abbrev MigrationProgram := Program Call Call.Response

namespace MigrationProgram

variable (host : Host)

def perform (c : Call) : MigrationProgram c.Response :=
  Program.perform c

-- An error that does not count.
def ignoring (kind : ErrorKind) : Except DbError Unit → Except DbError Unit
  | .error e => if e.kind = kind then .ok () else .error e
  | .ok () => .ok ()

def createStoreIfAbsent (store : StoreDeclaration) : MigrationProgram (Except DbError Unit) := do
  let result ← perform (.createObjectStore store.name store.columns store.indexes)
  return ignoring .alreadyExists result

def createIndexIfAbsent (entry : AddIndexDeclaration) : MigrationProgram (Except DbError Unit) := do
  if host.indexManager then
    let result ← perform (.createIndex entry.store entry.index)
    return ignoring .alreadyExists result
  else
    return .error ⟨.other, "indexeddb: create index " ++ Text.quote entry.index.name ++ " on " ++
      Text.quote entry.store ++ ": index manager not supported"⟩

def dropStoreIfPresent (name : String) : MigrationProgram (Except DbError Unit) := do
  let result ← perform (.deleteObjectStore name)
  return ignoring .notFound result

def dropIndexIfPresent (entry : IndexRef) : MigrationProgram (Except DbError Unit) := do
  if host.indexManager then
    let result ← perform (.deleteIndex entry.store entry.name)
    return ignoring .notFound result
  else
    return .error ⟨.other, "indexeddb: delete index " ++ Text.quote entry.name ++ " on " ++
      Text.quote entry.store ++ ": index manager not supported"⟩

def applySchema (schema : SchemaDeclaration) : MigrationProgram (Except DbError Unit) :=
  .andThen (.each createStoreIfAbsent schema.stores) <|
  .andThen (.each (createIndexIfAbsent host) schema.addIndexes) <|
  .andThen (.each (dropIndexIfPresent host) schema.dropIndexes) <|
  .each dropStoreIfPresent schema.dropStores

-- A value of the cursor that is not found or nil is left out.
def putValue (transform : BackfillTransform) :
    Except DbError (Option Record) → MigrationProgram (Except DbError Unit)
  | .error e => return if e.kind = .notFound then .ok () else .error e
  | .ok none => return .ok ()
  | .ok (some row) => perform (.put transform.into (transform.value row))

def applyBackfill (transform : BackfillTransform) : MigrationProgram (Except DbError Unit) := do
  match ← perform (.openCursor transform.source) with
  | .error e   => return .error e
  | .ok cursor =>
    .andThen (.each (putValue transform) cursor.values) (return cursor.err.elim (.ok ()) .error)

-- A revision without a schema has a backfill, which `validateRevisions` makes sure of.
def applyRevision (revision : Revision) : MigrationProgram (Except DbError Unit) :=
  match revision.schema, revision.backfill with
  | some schema, _ => applySchema host schema
  | none, some transform => applyBackfill transform
  | none, none => return .ok ()

def ledgerColumns : List ColumnDef :=
  [{ name := "revision_id", primaryKey := true, notNull := true },
    { name := "applied_at", notNull := true }]

def ensureLedgerStore (ledgerStore : String) : MigrationProgram (Except DbError Unit) :=
  createStoreIfAbsent { name := ledgerStore, columns := ledgerColumns }

def ledgerRecord (id appliedAt : String) : Record :=
  ((∅ : Record).insert "revision_id" (.text id)).insert "applied_at" (.text appliedAt)
    |>.insert "id" (.text id)

def recordRevision (ledgerStore id appliedAt : String) : MigrationProgram (Except DbError Unit) :=
  perform (.put ledgerStore (ledgerRecord id appliedAt))

def revisionFailed (id current attempted : String) (e : DbError) : MigrationError :=
  { message := "migration " ++ host.jsonString id ++ " failed: " ++ e.text
    current, attempted
    cause   := some e }

-- The loop of `Run` over the revisions, where `now` says when each of them is recorded.
def applyAll (ledgerStore : String) (now : String → String) (applied : List String)
    (head : String) :
    String → List String → List Revision → MigrationProgram (Except MigrationError Result)
  | _, appliedNow, [] => return .ok { applied := appliedNow, head }
  | current, appliedNow, revision :: revisions =>
    if revision.id ∈ applied then
      applyAll ledgerStore now applied head current appliedNow revisions
    else do
      let _ ← perform (.begin revision.id)
      match ← applyRevision host revision with
      | .error e => return .error (revisionFailed host revision.id current head e)
      | .ok ()   =>
        match ← recordRevision ledgerStore revision.id (now revision.id) with
        | .error e => return .error (revisionFailed host revision.id current head e)
        | .ok ()   =>
          applyAll ledgerStore now applied head revision.id (appliedNow ++ [revision.id]) revisions

def ledgerStoreOf (opts : RunOptions) : String :=
  let ledgerStore := Text.trimSpace opts.ledgerStore
  if ledgerStore = "" then "_gestalt_migrations" else ledgerStore

-- The rest of `Run` when the ledger store is there.
def resume (ledgerStore : String) (now : String → String) (revisions : List Revision) :
    MigrationProgram (Except MigrationError Result) := do
  match ← perform (.getAllKeys ledgerStore) with
  | .error e => return .error { message := e.text, cause := some e }
  | .ok applied =>
    match assertNotAheadOfCode host revisions applied,
      assertContiguousPrefix host revisions applied with
    | .error e, _      => return .error e
    | .ok (), .error e => return .error e
    | .ok (), .ok ()   =>
      applyAll host ledgerStore now applied (headOf revisions) (latestAppliedID revisions applied)
        [] revisions

-- An error of the database outside of a revision is returned as it is, here with its text.
def run (opts : RunOptions) (now : String → String) :
    MigrationProgram (Except MigrationError Result) :=
  match validateRevisions host [] opts.revisions with
  | .error e => return .error e
  | .ok revisions =>
    if revisions = [] then
      return .ok {}
    else do
      match ← ensureLedgerStore (ledgerStoreOf opts) with
      | .error e => return .error { message := e.text, cause := some e }
      | .ok ()   => resume host (ledgerStoreOf opts) now revisions

end MigrationProgram
end Migrations
