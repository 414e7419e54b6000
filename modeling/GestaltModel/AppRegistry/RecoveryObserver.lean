import GestaltModel.AppRegistry.FleetState
import GestaltModel.Coredata.Rollout
import GestaltModel.Coredata.SourceVersion

namespace AppRegistry

open Coredata

structure AppDesiredRevision where
  app : String
  version : String
  changeRequestID : String
  deriving DecidableEq, Repr

structure AppVersionRecoveryObservation where
  id : String
  app : String
  version : String
  recoveredAt : Int
  sourceVersion : String
  liveInstances : Int
  minimumHealthyInstances : Int
  deriving DecidableEq, Repr

structure RecoveryObserver where
  heartbeatTTL : Int
  stabilityWindow : Int

structure RecoveryStability where
  changeRequestID : String
  version : String
  sourceVersion : String
  minimum : Int
  healthySince : Int := 0
  deriving DecidableEq, Repr

structure RecoveryState where
  healthy : String → Option RecoveryStability := fun _ => none
  completed : List String := []

-- A desired revision with the answers to the calls for it: its outcome, and whether
-- `RecordIfCurrentFailed` has recorded the recovery.
structure RevisionSample where
  desired : AppDesiredRevision
  outcome : Except Failure (Option AppVersionRolloutOutcome)
  recorded : Except Failure Bool := .ok true

structure RecoveryPass where
  time : Int
  revisions : Except Failure (List RevisionSample)
  source : Except Failure GestaltdSourceVersionState
  heartbeats : Except Failure (List GestaltdInstanceHeartbeat)

-- What the revisions of a pass are compared with.
structure FleetBasis where
  now : Int
  sourceVersion : String
  minimum : Int
  heartbeats : List GestaltdInstanceHeartbeat

-- What comes out of a pass: the new variables, the calls of `RecordIfCurrentFailed` and the errors.
structure Observed where
  state : RecoveryState
  recorded : List AppVersionRecoveryObservation := []
  errors : List Failure := []

-- Whether two entries are about the same revision and the same requirements.
def RecoveryStability.SameBasis (current next : RecoveryStability) : Prop :=
  current.changeRequestID = next.changeRequestID ∧ current.version = next.version ∧
  current.sourceVersion = next.sourceVersion ∧ current.minimum = next.minimum

instance {current next : RecoveryStability} : Decidable (current.SameBasis next) :=
  inferInstanceAs <| Decidable (_ ∧ _)

variable (state : RecoveryState)

namespace RecoveryState

def reset (app : String) : RecoveryState :=
  { state with healthy := Function.update state.healthy app none }

def resetAll : RecoveryState :=
  { state with healthy := fun _ => none }

def resetUnseen (seen : List String) : RecoveryState :=
  { state with healthy := fun app => if app ∈ seen then state.healthy app else none }

def markCompleted (id : String) : RecoveryState :=
  { state with completed := id :: state.completed }

-- Returns since when the app has been healthy if it is not healthy for the first time.
def advance (app : String) (next : RecoveryStability) (now : Int) : RecoveryState × Option Int :=
  match state.healthy app with
  | none =>
    ({ state with
        healthy := Function.update state.healthy app (some { next with healthySince := now }) }, none)
  | some current =>
    if current.SameBasis next then
      (state, some current.healthySince)
    else
      ({ state with
          healthy := Function.update state.healthy app (some { next with healthySince := now }) },
        none)

end RecoveryState

def FailedFor (app version : String) (outcome : AppVersionRolloutOutcome) : Prop :=
  outcome.failedAt ≠ 0 ∧ outcome.completedAt = 0 ∧ Text.trimSpace outcome.app = app ∧
  Text.trimSpace outcome.version = version

instance {app version : String} : DecidablePred (FailedFor app version) :=
  fun _ => inferInstanceAs <| Decidable (_ ∧ _)

namespace RecoveryObserver

variable (o : RecoveryObserver) (basis : FleetBasis)

def project (app version : String) : AppFleetProjection :=
  evaluateFleetState {
    app
    desiredVersion := version
    sourceVersion := basis.sourceVersion
    minimumHealthyInstances := basis.minimum
    cutoff := basis.now - o.heartbeatTTL
    evaluatedAt := basis.now
    heartbeats := basis.heartbeats }

def observation (app version id : String) : AppVersionRecoveryObservation where
  id
  app
  version
  recoveredAt := basis.now
  sourceVersion := basis.sourceVersion
  liveInstances := (o.project basis app version).liveInstances
  minimumHealthyInstances := basis.minimum

-- The calls after `RecordIfCurrentFailed` has returned. Only an error leaves the entry of the app.
def afterRecord (app id : String) : Except Failure Bool → RecoveryState
  | .error _ => state
  | .ok false => state.reset app
  | .ok true => (state.reset app).markCompleted id

-- The end of the loop's body, for an app with a failed rollout whose fleet is healthy.
def observeHealthy (state : RecoveryState) (app version id : String)
    (recorded : Except Failure Bool) : Observed :=
  match state.advance app ⟨id, version, basis.sourceVersion, basis.minimum, 0⟩ basis.now with
  | (state, none) => { state }
  | (state, some healthySince) =>
    if basis.now - healthySince < o.stabilityWindow then
      { state }
    else
      { state    := afterRecord state app id recorded
        recorded := [o.observation basis app version id]
        errors   :=
          match recorded with
          | .error e => [.wrap ("observe app recovery for " ++ app ++ ": persist observation") e]
          | .ok _    => [] }

-- The body of the loop over the desired revisions.
def observeRevision (state : RecoveryState) (sample : RevisionSample) : Observed :=
  let app := Text.trimSpace sample.desired.app
  let version := Text.trimSpace sample.desired.version
  let id := Text.trimSpace sample.desired.changeRequestID
  if id = "" ∨ id ∈ state.completed then
    { state := state.reset app }
  else
    match sample.outcome with
    | .error e =>
      if e.Is .recordNotFound then
        { state := state.reset app }
      else
        { state  := state.reset app
          errors := [.wrap ("observe app recovery for " ++ app ++ ": load rollout outcome") e] }
    | .ok none => { state := state.reset app }
    | .ok (some outcome) =>
      if ¬FailedFor app version outcome then
        { state := state.reset app }
      else if (o.project basis app version).state ≠ .healthy then
        { state := state.reset app }
      else
        o.observeHealthy basis state app version id sample.recorded

def observeRevisions (basis : FleetBasis) (state : RecoveryState) : List RevisionSample → Observed
  | [] => { state }
  | sample :: samples =>
    let first := o.observeRevision basis state sample
    let rest := observeRevisions basis first.state samples
    { state    := rest.state
      recorded := first.recorded ++ rest.recorded
      errors   := first.errors ++ rest.errors }

-- `now`
def now (pass : RecoveryPass) : Int :=
  Time.truncate Time.millisecond pass.time

-- The loads that a pass starts with. They return nothing if there is nothing to compare with.
def loadBasis (pass : RecoveryPass) : Except Failure (Option (List RevisionSample × FleetBasis)) := do
  let samples ← pass.revisions.context "observe app recovery: load desired versions"
  match pass.source with
  | .error e =>
    if e.Is .recordNotFound then
      return none
    else
      .error (.wrap "observe app recovery: load source state" e)
  | .ok source =>
    let sourceVersion := Text.trimSpace source.currentSourceVersion
    if sourceVersion = "" ∨ source.minimumHealthyInstances ≤ 0 then
      return none
    else
      let heartbeats ← pass.heartbeats.context "observe app recovery: load fresh heartbeats"
      return some (samples,
        { now := now pass, sourceVersion, minimum := source.minimumHealthyInstances, heartbeats })

def observeOnce (state : RecoveryState) (pass : RecoveryPass) : Observed :=
  if o.heartbeatTTL ≤ 0 then
    { state
      errors := [⟨"app version recovery observer: heartbeat TTL must be positive", none⟩] }
  else if o.stabilityWindow ≤ 0 then
    { state
      errors := [⟨"app version recovery observer: stability window must be positive", none⟩] }
  else
    match loadBasis pass with
    | .error e => { state := state.resetAll, errors := [e] }
    | .ok none => { state := state.resetAll }
    | .ok (some (samples, basis)) =>
      let observed := o.observeRevisions basis state samples
      let seen := samples.map (Text.trimSpace ·.desired.app)
      { observed with state := observed.state.resetUnseen seen }

def run (passes : List RecoveryPass) : RecoveryState :=
  passes.foldl (fun state pass => (o.observeOnce state pass).state) {}

end RecoveryObserver
end AppRegistry
