import GestaltModel.Coredata.ObjectStore
import GestaltModel.Primitives.Time

namespace Coredata

open Text (trimSpace)

inductive AppRolloutState
  | enrolling
  | restarting
  | complete
  | failed
  deriving DecidableEq, Repr

inductive AppRolloutMode
  | unset
  | enrollment
  | heartbeat
  | other (text : String)
  deriving DecidableEq, Repr

structure AppRolloutFailureSummary where
  liveInstances : Int := 0
  minimumHealthyInstances : Int := 0
  runningDesiredVersion : Int := 0
  notRunning : Int := 0
  mismatched : Int := 0
  errors : Int := 0
  sourceVersion : String := ""
  version : String := ""
  evaluatedAt : Int := 0
  deriving DecidableEq, Repr

-- A rollout, where times that are not set are `0`.
structure AppRollout where
  app : String
  version : String
  state : AppRolloutState
  mode : AppRolloutMode := .unset
  targetSourceVersion : String := ""
  minimumHealthyInstances : Int := 0
  createdAt : Int := 0
  enrollmentEndsAt : Int := 0
  deadline : Int := 0
  healthySince : Int := 0
  heartbeatEvaluatedAt : Int := 0
  completedAt : Int := 0
  failedAt : Int := 0
  failureSummary : Option AppRolloutFailureSummary := none
  deriving DecidableEq, Repr

-- A record of the store. The columns that can be missing are optional.
structure AppRolloutRecord where
  app : String
  version : String
  state : AppRolloutState
  mode : AppRolloutMode
  targetSourceVersion : String
  minimumHealthyInstances : Int
  createdAt : Int
  enrollmentEndsAt : Int
  deadline : Int
  completedAt : Option Int
  failedAt : Option Int
  healthySince : Option Int
  heartbeatEvaluatedAt : Option Int
  failureSummary : Option AppRolloutFailureSummary
  deriving DecidableEq, Repr

instance : Record AppRolloutRecord where
  id := AppRolloutRecord.app

abbrev RolloutStore := ObjectStore AppRolloutRecord

section Codec

-- A column that is only written for a time that is set.
def timeColumn (t : Int) : Option Int :=
  if t = 0 then none else some t

def recTime (column : Option Int) : Int :=
  column.getD 0

-- A summary that cannot be marshalled is dropped. Its numbers are counts of instances, so small
-- that marshalling keeps them.
def appRolloutRecord (rollout : AppRollout) : AppRolloutRecord where
  app := rollout.app
  version := rollout.version
  state := rollout.state
  mode := rollout.mode
  targetSourceVersion := rollout.targetSourceVersion
  minimumHealthyInstances := rollout.minimumHealthyInstances
  createdAt := rollout.createdAt
  enrollmentEndsAt := rollout.enrollmentEndsAt
  deadline := rollout.deadline
  completedAt := timeColumn rollout.completedAt
  failedAt := timeColumn rollout.failedAt
  healthySince := timeColumn rollout.healthySince
  heartbeatEvaluatedAt := timeColumn rollout.heartbeatEvaluatedAt
  failureSummary := rollout.failureSummary.filter (Time.Marshals ·.evaluatedAt)

def AppRolloutMode.orEnrollment : AppRolloutMode → AppRolloutMode
  | unset => enrollment
  | mode => mode

def recordToAppRollout (rec : AppRolloutRecord) : AppRollout where
  app := rec.app
  version := rec.version
  state := rec.state
  mode := rec.mode.orEnrollment
  targetSourceVersion := rec.targetSourceVersion
  minimumHealthyInstances := rec.minimumHealthyInstances
  createdAt := rec.createdAt
  enrollmentEndsAt := rec.enrollmentEndsAt
  deadline := rec.deadline
  healthySince := recTime rec.healthySince
  heartbeatEvaluatedAt := recTime rec.heartbeatEvaluatedAt
  completedAt := recTime rec.completedAt
  failedAt := recTime rec.failedAt
  failureSummary := rec.failureSummary

end Codec

variable (now : Int)

section Checks

def IsActiveRolloutState (state : AppRolloutState) : Prop :=
  state = .enrolling ∨ state = .restarting

instance : DecidablePred IsActiveRolloutState :=
  fun _ => inferInstanceAs <| Decidable (_ ∨ _)

-- The current time stands in for a time that is not set.
def normalizedRolloutTime (now value : Int) : Int :=
  Time.truncate Time.millisecond (if value = 0 then now else value)

def AppRolloutMode.text : AppRolloutMode → String
  | unset => ""
  | enrollment => "enrollment"
  | heartbeat => "heartbeat"
  | other text => text

def validateAppRollout (rollout : AppRollout) : Except Failure Unit := do
  require (trimSpace rollout.app ≠ "" ∧ trimSpace rollout.version ≠ "")
    "app and version are required"
  match rollout.mode.orEnrollment with
  | .enrollment =>
    require (rollout.state = .enrolling) "enrollment rollout initial state must be \"enrolling\""
    require (rollout.createdAt ≠ 0 ∧ rollout.createdAt < rollout.enrollmentEndsAt ∧
        rollout.enrollmentEndsAt < rollout.deadline)
      "created_at, enrollment_ends_at, and deadline must be ordered"
  | .heartbeat =>
    require (rollout.state = .restarting) "heartbeat rollout initial state must be \"restarting\""
    require (rollout.createdAt ≠ 0 ∧ rollout.createdAt < rollout.deadline)
      "created_at and deadline must be ordered"
    require (trimSpace rollout.targetSourceVersion ≠ "" ∧ 0 < rollout.minimumHealthyInstances)
      "heartbeat rollout target source version and minimum healthy instances are required"
  | mode => .error ⟨"invalid rollout mode " ++ Text.quote mode.text, none⟩

def normalizeAppRollout (rollout : AppRollout) : AppRollout :=
  { rollout with
    app := trimSpace rollout.app
    version := trimSpace rollout.version
    mode := rollout.mode.orEnrollment
    targetSourceVersion := trimSpace rollout.targetSourceVersion
    createdAt := normalizedRolloutTime now rollout.createdAt
    enrollmentEndsAt := normalizedRolloutTime now rollout.enrollmentEndsAt
    deadline := normalizedRolloutTime now rollout.deadline }

end Checks

structure HeartbeatRolloutEvaluation where
  healthy : Bool
  stabilityWindow : Int
  evaluatedAt : Int
  failureSummary : AppRolloutFailureSummary := {}
  deriving DecidableEq, Repr

namespace AppRolloutService

def errAppRolloutActive : Failure where
  text := "app rollout is active"
  sentinel := some .appRolloutActive

def errAppRolloutEpochMismatch : Failure where
  text := "app rollout epoch does not match"
  sentinel := some .appRolloutEpochMismatch

def errAppRolloutVersionMismatch : Failure where
  text := "app rollout version does not match"
  sentinel := some .appRolloutVersionMismatch

-- All operations are transactions: they return the new store, or an error and leave the store as it
-- is.

-- The end of `Create` and `CreateAppRollout`: a terminal rollout is replaced, or none exists.
def replaceTerminal (store : RolloutStore) (rollout : AppRollout) : Except Failure RolloutStore :=
  match store.lookup rollout.app with
  | none => store.add (appRolloutRecord rollout)
  | some rec =>
    if IsActiveRolloutState (recordToAppRollout rec).state then
      .error errAppRolloutActive
    else
      .ok (store.put (appRolloutRecord rollout))

def create (rollout : AppRollout) (store : RolloutStore) :
    Except Failure (RolloutStore × AppRollout) := do
  (validateAppRollout rollout).context "create app rollout"
  let rollout := normalizeAppRollout now rollout
  let store ← replaceTerminal store rollout
  return (store, rollout)

def listActive (store : RolloutStore) : List AppRollout :=
  (store.getAll.map recordToAppRollout).filter (IsActiveRolloutState ·.state)

-- What the caller of a `Mark` function wants to happen.
inductive Mark
  | restarting
  | complete (completedAt : Int)
  | failed (failedAt : Int)
  deriving DecidableEq, Repr

namespace Mark

def state : Mark → AppRolloutState
  | restarting => .restarting
  | complete _ => .complete
  | failed _ => .failed

def time? : Mark → Option Int
  | restarting => none
  | complete t | failed t => some t

def apply : Mark → AppRollout → AppRollout
  | restarting, rollout => { rollout with state := .restarting }
  | complete t, rollout => { rollout with
      state          := .complete
      completedAt    := normalizedRolloutTime now t
      failureSummary := none }
  | failed t, rollout => { rollout with
      state    := .failed
      failedAt := normalizedRolloutTime now t }

end Mark

-- What `transition` compares with the expected rollout, apart from the version.
def EpochMatches (rollout expected : AppRollout) : Prop :=
  rollout.createdAt = expected.createdAt ∧
  trimSpace rollout.targetSourceVersion = trimSpace expected.targetSourceVersion ∧
  rollout.mode = expected.mode

instance {rollout expected : AppRollout} : Decidable (EpochMatches rollout expected) :=
  inferInstanceAs <| Decidable (_ ∧ _)

def transition (app version : String) (mark : Mark) (expected : Option AppRollout)
    (store : RolloutStore) : Except Failure (RolloutStore × AppRollout) := do
  let app := trimSpace app
  let version := trimSpace version
  require (app ≠ "" ∧ version ≠ "") "transition app rollout: app and version are required"
  let rec ← (store.get app).context "transition app rollout: load current rollout"
  let rollout := recordToAppRollout rec
  if trimSpace rollout.version ≠ version then
    .error errAppRolloutVersionMismatch
  else if ∃ e ∈ expected, ¬EpochMatches rollout e then
    .error errAppRolloutEpochMismatch
  else if rollout.state = mark.state then
    .ok (store, rollout)
  else if ¬IsActiveRolloutState rollout.state then
    .ok (store, rollout)
  else
    let rollout := mark.apply now rollout
    .ok (store.put (appRolloutRecord rollout), rollout)

-- `MarkRestarting`, `MarkComplete` and `MarkFailed`
def mark (mark : Mark) (app version : String) (store : RolloutStore) :
    Except Failure (RolloutStore × AppRollout) :=
  transition now app version mark none store

-- `MarkRestartingForRollout`, `MarkCompleteForRollout` and `MarkFailedForRollout`
def markForRollout (mark : Mark) (expected : AppRollout) (store : RolloutStore) :
    Except Failure (RolloutStore × AppRollout) :=
  transition now expected.app expected.version mark (some expected) store

-- What `EvaluateHeartbeatRollout` compares with the expected rollout.
def HeartbeatEpochMatches (rollout expected : AppRollout) : Prop :=
  trimSpace rollout.version = trimSpace expected.version ∧
  rollout.createdAt = expected.createdAt ∧
  trimSpace rollout.targetSourceVersion = trimSpace expected.targetSourceVersion ∧
  rollout.mode = .heartbeat ∧ expected.mode = .heartbeat

instance {rollout expected : AppRollout} : Decidable (HeartbeatEpochMatches rollout expected) :=
  inferInstanceAs <| Decidable (_ ∧ _)

-- Whether an evaluation is ignored, because the rollout is terminal or a newer one is recorded.
def Ignored (rollout : AppRollout) (evaluatedAt : Int) : Prop :=
  rollout.state ≠ .restarting ∨
  (rollout.heartbeatEvaluatedAt ≠ 0 ∧ evaluatedAt < rollout.heartbeatEvaluatedAt)

instance {rollout : AppRollout} {evaluatedAt : Int} : Decidable (Ignored rollout evaluatedAt) :=
  inferInstanceAs <| Decidable (_ ∨ _)

-- The observation that an evaluation adds to the rollout.
def observe (evaluation : HeartbeatRolloutEvaluation) (evaluatedAt : Int) (rollout : AppRollout) :
    AppRollout :=
  { rollout with
    heartbeatEvaluatedAt := evaluatedAt
    healthySince :=
      if evaluation.healthy then
        if rollout.healthySince = 0 then evaluatedAt else rollout.healthySince
      else
        0 }

-- What an evaluation decides after its observation, and whether the state has changed.
def decideOutcome (evaluation : HeartbeatRolloutEvaluation) (evaluatedAt : Int)
    (rollout : AppRollout) : AppRollout × Bool :=
  let stableAt := rollout.healthySince + evaluation.stabilityWindow
  if evaluation.healthy ∧ rollout.healthySince ≠ 0 ∧ stableAt ≤ evaluatedAt ∧
      stableAt ≤ rollout.deadline then
    ({ rollout with
      state := .complete
      completedAt := evaluatedAt
      failedAt := 0
      failureSummary := none }, true)
  else if rollout.deadline ≤ evaluatedAt then
    ({ rollout with
      state := .failed
      failedAt := evaluatedAt
      completedAt := 0
      failureSummary := some { evaluation.failureSummary with
        sourceVersion           := trimSpace rollout.targetSourceVersion
        version                 := trimSpace rollout.version
        minimumHealthyInstances := rollout.minimumHealthyInstances
        evaluatedAt             := evaluatedAt } }, true)
  else
    (rollout, false)

-- `EvaluateHeartbeatRollout` also returns whether the state has changed.
def evaluateHeartbeatRollout (expected : AppRollout)
    (evaluation : HeartbeatRolloutEvaluation) (store : RolloutStore) :
    Except Failure (RolloutStore × AppRollout × Bool) := do
  require (0 < evaluation.stabilityWindow)
    "evaluate heartbeat rollout: stability window must be positive"
  let evaluatedAt := normalizedRolloutTime now evaluation.evaluatedAt
  let rec ← (store.get (trimSpace expected.app)).context
    "evaluate heartbeat rollout: load current rollout"
  let rollout := recordToAppRollout rec
  if ¬HeartbeatEpochMatches rollout expected then
    .error errAppRolloutEpochMismatch
  else if Ignored rollout evaluatedAt then
    .ok (store, rollout, false)
  else
    let (rollout, transitioned) :=
      decideOutcome evaluation evaluatedAt (observe evaluation evaluatedAt rollout)
    .ok (store.put (appRolloutRecord rollout), rollout, transitioned)

end AppRolloutService

-- The outcome of a rollout, which has the id of a change request. A time that is not set is `0`.
structure AppVersionRolloutOutcome where
  id : String
  app : String
  version : String
  completedAt : Int := 0
  failedAt : Int := 0
  deriving DecidableEq, Repr

instance : Record AppVersionRolloutOutcome where
  id := AppVersionRolloutOutcome.id

abbrev RolloutOutcomeStore := ObjectStore AppVersionRolloutOutcome

namespace AppVersionRolloutOutcomeService

-- The checks of `record`. They return the record to be written.
def outcomeRecord (changeRequestID app version : String) (completedAt failedAt : Int) :
    Except Failure AppVersionRolloutOutcome := do
  let id := Text.trimSpace changeRequestID
  let app := Text.trimSpace app
  let version := Text.trimSpace version
  require (id ≠ "" ∧ app ≠ "" ∧ version ≠ "")
    "record app version rollout outcome: change request id, app, and version are required"
  require (¬(completedAt = 0 ↔ failedAt = 0))
    "record app version rollout outcome: exactly one terminal timestamp is required"
  return {
    id, app, version
    completedAt := Time.truncate Time.millisecond completedAt
    failedAt := Time.truncate Time.millisecond failedAt }

end AppVersionRolloutOutcomeService
end Coredata
