import GestaltModel.AppRegistry.Retention
import GestaltModel.AppRegistry.Services

namespace AppRegistry

open Coredata ServiceProgram

def defaultRolloutEnrollmentWindow : Int := 2 * Time.minute

def defaultRolloutTimeout : Int := 15 * Time.minute

def errAppRolloutActive : Failure where
  text := "app already has an active rollout"
  sentinel := some .appHasActiveRollout

-- The configuration of an installer that matters for the rollouts it creates.
structure Installer where
  sourceVersion : String := ""
  rolloutMode : AppRolloutMode := .unset

structure InstallInput where
  app : String
  version : String
  actor : String := ""

structure InstallOutput where
  request : AppVersionChangeRequest
  rollout : AppRollout

namespace Installer

variable (i : Installer)

def pendingRollout (app version : String) (requestedAt : Int) : AppRollout :=
  let mode := i.rolloutMode.orEnrollment
  { app, version, mode
    state := if mode = .heartbeat then .restarting else .enrolling
    createdAt := requestedAt
    enrollmentEndsAt := requestedAt + defaultRolloutEnrollmentWindow
    deadline := requestedAt + defaultRolloutTimeout }

def changeRequest (input : InstallInput) (admission : Admission) (requestedAt : Int) :
    AppVersionChangeRequest where
  app := Text.trimSpace input.app
  fromVersion := admission.fromVersion
  toVersion := Text.trimSpace input.version
  actor := Text.trimSpace input.actor
  timestamp := requestedAt
  fromVersionDeployableUntil :=
    if admission.fromVersion ≠ "" ∧ admission.fromVersion ≠ firstInstallFromVersion then
      some (requestedAt + admission.deployedRetention)
    else
      none

def createRollout (rollout : AppRollout) : ServiceProgram (Except Failure AppRollout) :=
  if Text.trimSpace i.sourceVersion ≠ "" then
    invoke (.createAppRollout rollout)
  else
    invoke (.create rollout)

-- A rollout without a change request is marked as failed, if that is possible.
def appendOrFail (app version : String) (changeRequest : AppVersionChangeRequest) :
    ServiceProgram (Except Failure AppVersionChangeRequest) := do
  match ← invoke (.appendRequest changeRequest) with
  | .ok added => return .ok added
  | .error e =>
    let _ ← invoke (.mark (.failed (← now)) app version)
    return .error (.wrap "append change request" e)

-- `install`, with the lock and all checks before the first effect as one step, and without the
-- update of the retention catalog.
def install (input : InstallInput) : ServiceProgram (Except Failure InstallOutput) := do
  let app := Text.trimSpace input.app
  let version := Text.trimSpace input.version
  match ← invoke (.admitInstall app version) with
  | .error e => return .error e
  | .ok admission =>
    let requestedAt ← now
    match ← i.createRollout (i.pendingRollout app version requestedAt) with
    | .error e =>
      if e.Is .appRolloutActive then
        return .error errAppRolloutActive
      else
        return .error (.wrap "create app rollout" e)
    | .ok rollout =>
      match ← appendOrFail app version (changeRequest input admission requestedAt) with
      | .error e    => return .error e
      | .ok request => return .ok { request, rollout }

end Installer
end AppRegistry
