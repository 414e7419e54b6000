import GestaltModel.Coredata.ObjectStore
import GestaltModel.Identity.Subjects
import GestaltModel.Primitives.Time

namespace Coredata

open Identity (parseSubjectID)
open Text (trimSpace)
open Time (second truncate)

def managedSubjectKindServiceAccount : String := "service_account"

-- A time that is not set is `0`. The pointer `deletedAt` can also point to such a time.
structure ManagedSubject where
  subjectID : String
  displayName : String := ""
  description : String := ""
  createdBySubjectID : String := ""
  createdAt : Int := 0
  updatedAt : Int := 0
  deletedAt : Option Int := none
  deriving DecidableEq

-- A record as the store returns it. A column is optional if it can be left out or null.
structure ManagedSubjectRecord where
  id : String
  subjectID : String
  kind : Option String
  displayName : String
  description : String
  createdBySubjectID : String
  deleted : Bool
  createdAt : Int
  updatedAt : Int
  deletedAt : Option Int
  deriving DecidableEq

instance : Record ManagedSubjectRecord where
  id := ManagedSubjectRecord.id

abbrev ManagedSubjectStore := ObjectStore ManagedSubjectRecord

inductive ManagedSubjectColumn
  | id | subjectID | kind | displayName | description | createdBySubjectID | deleted | createdAt
  | updatedAt | deletedAt
  deriving DecidableEq

-- Whether the record has a value in the column.
def ManagedSubjectRecord.has (rec : ManagedSubjectRecord) : ManagedSubjectColumn → Bool
  | .kind => rec.kind.isSome
  | .deletedAt => rec.deletedAt.isSome
  | _ => true

namespace ManagedSubjectsSchema

-- The columns that are declared as `NotNull`.
def notNull : List ManagedSubjectColumn := [.subjectID, .kind]

-- The key path of the index `by_kind_deleted`.
def byKindDeleted : List ManagedSubjectColumn := [.kind, .deleted]

end ManagedSubjectsSchema

def recordToManagedSubject (rec : ManagedSubjectRecord) : ManagedSubject where
  subjectID := rec.subjectID
  displayName := rec.displayName
  description := rec.description
  createdBySubjectID := rec.createdBySubjectID
  createdAt := rec.createdAt
  updatedAt := rec.updatedAt
  deletedAt := recTimePtr rec.deletedAt

def managedSubjectToRecord (subject : ManagedSubject) : ManagedSubjectRecord where
  id := trimSpace subject.subjectID
  subjectID := trimSpace subject.subjectID
  kind := some <| ((parseSubjectID subject.subjectID).map Prod.fst).getD
    managedSubjectKindServiceAccount
  displayName := trimSpace subject.displayName
  description := trimSpace subject.description
  createdBySubjectID := trimSpace subject.createdBySubjectID
  deleted := subject.deletedAt.isSome
  createdAt := subject.createdAt
  updatedAt := subject.updatedAt
  deletedAt := subject.deletedAt

namespace ManagedSubjectService

def errNotFound : Failure := ⟨"not found", some .notFound⟩
def errAlreadyRegistered : Failure := ⟨"already registered", some .alreadyRegistered⟩

-- A write can be lost. A read that is lost has no effect, so it is left out.
def send (lost : Option Failure) (x : Except Failure α) : Except Failure α :=
  lost.elim x .error

-- An error of the store is turned into one of the service, or gets more context.
def translate (known : Sentinel) (error : Failure) (context : String) :
    Except Failure α → Except Failure α :=
  Except.mapError fun f => if f.Is known then error else f.wrap context

variable (lost : Option Failure) (now : Int) (store : ManagedSubjectStore)

-- The record that `CreateManagedSubject` adds.
def createdRecord (subject : ManagedSubject) : ManagedSubjectRecord where
  id := trimSpace subject.subjectID
  subjectID := trimSpace subject.subjectID
  kind := none
  displayName := trimSpace subject.displayName
  description := trimSpace subject.description
  createdBySubjectID := trimSpace subject.createdBySubjectID
  deleted := false
  createdAt := truncate second now
  updatedAt := truncate second now
  deletedAt := none

def createManagedSubject (subject : ManagedSubject) :
    Except Failure (ManagedSubjectStore × ManagedSubject) := do
  let subjectID := trimSpace subject.subjectID
  require (subjectID ≠ "") "create managed subject: subject_id is required"
  require ((parseSubjectID subjectID).map Prod.fst = some managedSubjectKindServiceAccount)
    "create managed subject: subject_id must be a canonical service_account subject ID"
  let store ← translate .recordAlreadyExists errAlreadyRegistered "create managed subject"
    (send lost (store.add (createdRecord now subject)))
  return (store, recordToManagedSubject (createdRecord now subject))

def getManagedSubject (subjectID : String) : Except Failure ManagedSubject := do
  let rec ← translate .recordNotFound errNotFound "get managed subject"
    (store.get (trimSpace subjectID))
  ensure ((recordToManagedSubject rec).deletedAt = none) errNotFound
  return recordToManagedSubject rec

def listManagedSubjects (kind : String) : Except Failure (List ManagedSubject) := do
  let kind := if trimSpace kind = "" then managedSubjectKindServiceAccount
    else trimSpace kind
  require (kind = managedSubjectKindServiceAccount)
    ("list managed subjects: unsupported kind " ++ Text.quote kind)
  let recs := store.getAll.filter fun rec =>
    ManagedSubjectsSchema.byKindDeleted.all rec.has ∧ rec.kind = some kind ∧ rec.deleted = false
  return recs.map recordToManagedSubject

-- The record that `UpdateManagedSubject` puts.
def updatedRecord (subject : ManagedSubject) : ManagedSubjectRecord :=
  { managedSubjectToRecord subject with
    updatedAt := truncate second now
    deleted := subject.deletedAt.isSome }

def updateManagedSubject (subjectID : String)
    (update : ManagedSubject → Except Failure ManagedSubject) :
    Except Failure (ManagedSubjectStore × ManagedSubject) := do
  require (trimSpace subjectID ≠ "") "update managed subject: subject_id is required"
  let subject ← update (← getManagedSubject store subjectID)
  let store ← (send lost (.ok (store.put (updatedRecord now subject)))).context
    "update managed subject"
  return (store, { recordToManagedSubject (updatedRecord now subject) with
    deletedAt := subject.deletedAt })

def deletedSubject (subject : ManagedSubject) : ManagedSubject :=
  { subject with
    deletedAt := some (truncate second now)
    updatedAt := truncate second now }

def deleteManagedSubject (subjectID : String) :
    Except Failure (ManagedSubjectStore × ManagedSubject) := do
  let rec ← translate .recordNotFound errNotFound "delete managed subject"
    (store.get (trimSpace subjectID))
  let subject := recordToManagedSubject rec
  if subject.deletedAt ≠ none then
    return (store, subject)
  else
    let subject := deletedSubject now subject
    let store ← (send lost (.ok (store.put (managedSubjectToRecord subject)))).context
      "delete managed subject"
    return (store, { recordToManagedSubject (managedSubjectToRecord subject) with
      deletedAt := subject.deletedAt })

end ManagedSubjectService

inductive ManagedSubjectOperation
  | create (subject : ManagedSubject)
  | update (subjectID : String) (update : ManagedSubject → Except Failure ManagedSubject)
  | delete (subjectID : String)

-- A call, with the time that it reads from the clock.
structure ManagedSubjectCall where
  operation : ManagedSubjectOperation
  now : Int
  lost : Option Failure := none

namespace ManagedSubjectCall

open ManagedSubjectService

variable (call : ManagedSubjectCall) (store : ManagedSubjectStore)

def subjectID : String :=
  match call.operation with
  | .create subject => trimSpace subject.subjectID
  | .update subjectID _ => trimSpace subjectID
  | .delete subjectID => trimSpace subjectID

def perform : Except Failure (ManagedSubjectStore × ManagedSubject) :=
  match call.operation with
  | .create subject => createManagedSubject call.lost call.now store subject
  | .update subjectID update => updateManagedSubject call.lost call.now store subjectID update
  | .delete subjectID => deleteManagedSubject call.lost call.now store subjectID

-- A call that fails changes nothing.
def after : ManagedSubjectStore :=
  match call.perform store with
  | .ok (store', _) => store'
  | .error _ => store

-- The call finds its subject as it has to be, and its write is not lost.
def Accepted : Prop :=
  call.lost = none ∧
  match call.operation with
  | .create _ =>
    store.lookup call.subjectID = none ∧
    (parseSubjectID call.subjectID).map Prod.fst = some managedSubjectKindServiceAccount
  | .update _ update => ∃ rec, store.lookup call.subjectID = some rec ∧
    recTimePtr rec.deletedAt = none ∧ ∃ subject, update (recordToManagedSubject rec) = .ok subject
  | .delete _ => ∃ rec, store.lookup call.subjectID = some rec ∧
    recTimePtr rec.deletedAt = none

-- A subject is created, or gets a zero time as the one of its deletion.
def Flawed : Prop :=
  match call.operation with
  | .create _ => True
  | .update _ update => ∃ rec subject, store.lookup call.subjectID = some rec ∧
    update (recordToManagedSubject rec) = .ok subject ∧ subject.deletedAt = some 0
  | .delete _ => False

-- An update keeps the id of the subject, and the clock shows a time that is set.
def Proper : Prop :=
  truncate second call.now ≠ 0 ∧
  ∀ subjectID update, call.operation = .update subjectID update →
    ∀ subject subject', update subject = .ok subject' → subject'.subjectID = subject.subjectID

end ManagedSubjectCall

-- Some calls, the latest one first.
abbrev ManagedSubjectCalls := List ManagedSubjectCall

namespace ManagedSubjectCalls

open ManagedSubjectService

def run : ManagedSubjectCalls → ManagedSubjectStore
  | [] => ∅
  | call :: earlier => call.after (run earlier)

-- The last accepted call for the subject is a flawed one.
def LastFlawed (subjectID : String) : ManagedSubjectCalls → Prop
  | [] => False
  | call :: earlier =>
    call.subjectID = subjectID ∧ call.Accepted (run earlier) ∧ call.Flawed (run earlier) ∨
    ¬(call.subjectID = subjectID ∧ call.Accepted (run earlier)) ∧ LastFlawed subjectID earlier

structure StayListed (calls : ManagedSubjectCalls) : Prop where
  notNull : ∀ rec ∈ run calls, ManagedSubjectsSchema.notNull.all rec.has
  listed : ∀ subject, (∃ subjects, listManagedSubjects (run calls) "" = .ok subjects ∧
    subject ∈ subjects) ↔ ∃ subjectID, getManagedSubject (run calls) subjectID = .ok subject
  deleted : ∀ later call earlier subjectID result, calls = later ++ call :: earlier →
    call.operation = .delete subjectID → call.perform (run earlier) = .ok result →
    (∀ subject, getManagedSubject (run calls) subjectID ≠ .ok subject) ∧
    ∀ subjects, listManagedSubjects (run calls) "" = .ok subjects →
      ∀ subject ∈ subjects, subject.subjectID ≠ trimSpace subjectID

end ManagedSubjectCalls
end Coredata
