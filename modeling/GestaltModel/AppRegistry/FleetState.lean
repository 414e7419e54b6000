import GestaltModel.Coredata.Rollout

namespace AppRegistry

open Coredata

inductive GestaltdInstanceAppState
  | running
  | starting
  | notRunning
  | error
  | unknown
  | other (text : String)
  deriving DecidableEq, Repr

structure GestaltdInstanceAppHeartbeat where
  state : GestaltdInstanceAppState
  runningVersion : String := ""
  deriving DecidableEq, Repr

structure GestaltdInstanceHeartbeat where
  sourceVersion : String
  heartbeatAt : Int
  apps : GoMap GestaltdInstanceAppHeartbeat

inductive AppFleetState
  | healthy
  | converging
  | degraded
  | unknown
  deriving DecidableEq, Repr

-- The state of the fleet and what it is based on, without the list of the replicas.
structure AppFleetProjection where
  state : AppFleetState := .unknown
  liveInstances : Int := 0
  runningDesiredVersion : Int := 0
  notRunning : Int := 0
  mismatched : Int := 0
  errors : Int := 0
  deriving DecidableEq, Repr

structure FleetEvaluation where
  app : String
  desiredVersion : String
  sourceVersion : String
  minimumHealthyInstances : Int
  cutoff : Int
  evaluatedAt : Int
  heartbeats : List GestaltdInstanceHeartbeat
  activeRollout : Option AppRollout := none

-- Counts one live instance in the class that it belongs to.
def countReplica (app desiredVersion : String) (projection : AppFleetProjection)
    (heartbeat : GestaltdInstanceHeartbeat) : AppFleetProjection :=
  let projection := { projection with liveInstances := projection.liveInstances + 1 }
  match heartbeat.apps.lookup app with
  | none => { projection with errors := projection.errors + 1 }
  | some observation =>
    if observation.state = .running ∧ Text.trimSpace observation.runningVersion = desiredVersion ∧
        desiredVersion ≠ "" then
      { projection with runningDesiredVersion := projection.runningDesiredVersion + 1 }
    else
      match observation.state with
      | .error | .unknown       => { projection with errors := projection.errors + 1 }
      | .starting | .notRunning => { projection with notRunning := projection.notRunning + 1 }
      | .running | .other _     => { projection with mismatched := projection.mismatched + 1 }

def RolloutMatches (rollout : AppRollout) (app version sourceVersion : String) (now : Int) : Prop :=
  IsActiveRolloutState rollout.state ∧ Text.trimSpace rollout.app = app ∧
  Text.trimSpace rollout.version = version ∧
  Text.trimSpace rollout.targetSourceVersion = sourceVersion ∧ now < rollout.deadline

instance {rollout : AppRollout} {app version sourceVersion : String} {now : Int} :
    Decidable (RolloutMatches rollout app version sourceVersion now) :=
  inferInstanceAs <| Decidable (_ ∧ _)

def evaluateFleetState (input : FleetEvaluation) : AppFleetProjection :=
  let app := Text.trimSpace input.app
  let desiredVersion := Text.trimSpace input.desiredVersion
  let sourceVersion := Text.trimSpace input.sourceVersion
  let live := input.heartbeats.filter fun heartbeat =>
    Text.trimSpace heartbeat.sourceVersion = sourceVersion ∧ input.cutoff ≤ heartbeat.heartbeatAt
  let projection := live.foldl (countReplica app desiredVersion) {}
  let validBasis := desiredVersion ≠ "" ∧ sourceVersion ≠ "" ∧ 0 < input.minimumHealthyInstances
  let state :=
    if ¬validBasis ∨ projection.liveInstances < input.minimumHealthyInstances then
      .unknown
    else if input.minimumHealthyInstances ≤ projection.runningDesiredVersion ∧
        projection.mismatched = 0 ∧ projection.errors = 0 then
      .healthy
    else
      .degraded
  let converging := validBasis ∧ state ≠ .healthy ∧
    ∃ rollout ∈ input.activeRollout,
      RolloutMatches rollout app desiredVersion sourceVersion input.evaluatedAt
  { projection with state := if converging then .converging else state }

end AppRegistry
