import GestaltModel.Coredata.ObjectStore
import GestaltModel.Primitives.Rfc3339

namespace Coredata

open Text (trimSpace)

-- A change request, without its metadata. An id or a time that is not set is empty or `0`.
structure AppVersionChangeRequest where
  id : String := ""
  app : String
  fromVersion : String
  toVersion : String
  actor : String := ""
  timestamp : Int := 0
  fromVersionDeployableUntil : Option Int := none
  deriving DecidableEq, Repr

instance : Record AppVersionChangeRequest where
  id := AppVersionChangeRequest.id

def AppVersionChangeRequest.Older (request request' : AppVersionChangeRequest) : Prop :=
  request.timestamp < request'.timestamp ∨
  (request.timestamp = request'.timestamp ∧ request.id < request'.id)

instance {request request' : AppVersionChangeRequest} : Decidable (request.Older request') :=
  inferInstanceAs <| Decidable (_ ∨ _)

abbrev ChangeRequestStore := ObjectStore AppVersionChangeRequest

-- What `uuid.NewString` returns.
structure UUID where
  text : String
  nonempty : text ≠ ""
  trimmed : Text.Trimmed text

instance : Inhabited UUID where
  default := ⟨"uuid", by decide, by decide +kernel⟩

namespace AppVersionChangeRequestService

-- What is written and read back. The clock and the new id are for what the request does not set.
def normalizeRequest (now : Int) (uuid : UUID) (request : AppVersionChangeRequest) :
    AppVersionChangeRequest where
  id := if trimSpace request.id = "" then uuid.text else trimSpace request.id
  app := trimSpace request.app
  fromVersion := trimSpace request.fromVersion
  toVersion := trimSpace request.toVersion
  actor := trimSpace request.actor
  timestamp := Time.truncate Time.millisecond
    (if request.timestamp = 0 then now else request.timestamp)
  fromVersionDeployableUntil :=
    (request.fromVersionDeployableUntil.map (Time.truncate Time.millisecond)).filter (· ≠ 0)

def appendRequest (now : Int) (uuid : UUID) (request : AppVersionChangeRequest)
    (store : ChangeRequestStore) : Except Failure (ChangeRequestStore × AppVersionChangeRequest) := do
  require (trimSpace request.app ≠ "") "append app version change request: app is required"
  require (trimSpace request.fromVersion ≠ "")
    "append app version change request: from_version is required"
  require (trimSpace request.toVersion ≠ "")
    "append app version change request: to_version is required"
  let request := normalizeRequest now uuid request
  let store ← (store.add request).context "append app version change request"
  return (store, request)

-- The first day of the year 2262.
def indexedDBMaxTime : Int := 825813 * Time.day

-- The order of times in an index.
def compareDates (a b : Int) : Ordering :=
  compare (Time.unixNano a) (Time.unixNano b)

-- What the range of the index `by_app_timestamp` contains.
def Listed (app : String) (request : AppVersionChangeRequest) : Prop :=
  request.app = app ∧ compareDates request.timestamp indexedDBMaxTime ≠ .gt

instance {app : String} : DecidablePred (Listed app) :=
  fun _ => inferInstanceAs <| Decidable (_ ∧ _)

-- `ListRequestsByApp`, whose order does not matter to its callers.
def listRequestsByApp (app : String) (store : ChangeRequestStore) :
    Except Failure (List AppVersionChangeRequest) := do
  let app := trimSpace app
  require (app ≠ "") "list app version change requests: app is required"
  return store.getAll.filter (Listed app ·)

-- Whether a request is newer than the latest one so far.
def Newer (request : AppVersionChangeRequest) (latestID : String) (latestTime : Int) : Prop :=
  latestID = "" ∨ latestTime < request.timestamp ∨
  (request.timestamp = latestTime ∧ latestID < request.id)

instance {request : AppVersionChangeRequest} {latestID : String} {latestTime : Int} :
    Decidable (Newer request latestID latestTime) :=
  inferInstanceAs <| Decidable (_ ∨ _)

def latestDesiredRevisionID (requests : List AppVersionChangeRequest) (desiredVersion : String) :
    String :=
  let desiredVersion := trimSpace desiredVersion
  if desiredVersion = "" then
    ""
  else
    go desiredVersion "" 0 requests
where
  go (desiredVersion latestID : String) (latestTime : Int) : List AppVersionChangeRequest → String
    | [] => latestID
    | request :: requests =>
      if trimSpace request.toVersion = desiredVersion ∧ Newer request latestID latestTime then
        go desiredVersion request.id request.timestamp requests
      else
        go desiredVersion latestID latestTime requests

def latestRevisionIDForVersion (app version : String) (store : ChangeRequestStore) :
    Except Failure String := do
  let requests ← listRequestsByApp app store
  return latestDesiredRevisionID requests version

def defaultAppVersionChangeRequestPageLimit : Int := 50

def maxAppVersionChangeRequestPageLimit : Int := 100

structure AppVersionChangeRequestPage where
  requests : List AppVersionChangeRequest
  nextCursor : String := ""
  deriving DecidableEq, Repr

-- The newest request comes first.
def sortChangeRequestsDesc (requests : List AppVersionChangeRequest) :
    List AppVersionChangeRequest :=
  requests.insertionSort fun left right => ¬left.Older right

def invalidCursor : Failure where
  text := "invalid revision history cursor"

-- The empty cursor has the time `0`, that is none. Only the start of `time.Parse`'s message is
-- kept.
def parseAppVersionChangeRequestCursor (cursor : String) : Except Failure (Int × String) :=
  let cursor := trimSpace cursor
  if cursor = "" then
    .ok (0, "")
  else
    match Text.cutLast ':' cursor with
    | none => .error invalidCursor
    | some (timestamp, id) =>
      if timestamp = "" then
        .error invalidCursor
      else
        match Time.parseRFC3339 timestamp with
        | none           =>
          .error ⟨invalidCursor.text ++ ": parsing time " ++ Text.quote timestamp, none⟩
        | some timestamp =>
          if trimSpace id = "" then .error invalidCursor else .ok (timestamp, trimSpace id)

def formatAppVersionChangeRequestCursor (timestamp : Int) (id : String) : String :=
  Time.formatRFC3339 timestamp ++ ":" ++ trimSpace id

def changeRequestBeforeCursor (cursorTime : Int) (cursorID : String)
    (request : AppVersionChangeRequest) : Bool :=
  if cursorTime < request.timestamp then
    false
  else if request.timestamp < cursorTime then
    true
  else
    request.id < cursorID

def pageLimit (limit : Int) : Nat :=
  let limit := if limit ≤ 0 then defaultAppVersionChangeRequestPageLimit else limit
  (min limit maxAppVersionChangeRequestPageLimit).toNat

-- Which requests are left for the page.
def leftByCursor (cursor : Int × String) (request : AppVersionChangeRequest) : Bool :=
  cursor.1 = 0 || changeRequestBeforeCursor cursor.1 cursor.2 request

-- The page at the start of the requests that are left.
def firstPage (limit : Nat) (filtered : List AppVersionChangeRequest) : AppVersionChangeRequestPage :=
  if h : limit < filtered.length then
    let last := filtered[limit - 1]
    { requests   := filtered.take limit
      nextCursor := formatAppVersionChangeRequestCursor last.timestamp last.id }
  else
    { requests := filtered }

def listRequestsByAppPage (app : String) (limit : Int) (cursor : String)
    (store : ChangeRequestStore) : Except Failure AppVersionChangeRequestPage := do
  let requests ← listRequestsByApp app store
  let requests := sortChangeRequestsDesc requests
  let cursor ← parseAppVersionChangeRequestCursor cursor
  return firstPage (pageLimit limit) (requests.filter (leftByCursor cursor))

end AppVersionChangeRequestService
end Coredata
