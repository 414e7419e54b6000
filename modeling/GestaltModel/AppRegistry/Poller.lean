import GestaltModel.AppRegistry.Services

namespace AppRegistry

open Coredata ServiceProgram

namespace RolloutOutcomes

-- `AppVersionRolloutOutcomeService.Get`
def get (id : String) : ServiceProgram (Except Failure AppVersionRolloutOutcome) := do
  match ← invoke (.getOutcome id) with
  | .ok outcome => return .ok outcome
  | .error e =>
    if e.Is .recordNotFound then
      return .error e
    else
      return .error (.wrap "get app version rollout outcome" e)

-- `AppVersionRolloutOutcomeService.record`, after its checks. The first outcome wins.
def recordChecked (outcome : AppVersionRolloutOutcome) : ServiceProgram (Except Failure Unit) := do
  match ← invoke .ensureStore with
  | .error e => return .error e
  | .ok () =>
    match ← get outcome.id with
    | .ok _    => return .ok ()
    | .error e =>
      if ¬e.Is .recordNotFound then
        return .error e
      else
        match ← invoke (.addOutcome outcome) with
        | .ok ()   => return .ok ()
        | .error e =>
          if e.Is .recordAlreadyExists then
            return .ok ()
          else
            return .error (.wrap "record app version rollout outcome" e)

-- `RecordComplete` and `RecordFailed`
def record (changeRequestID app version : String) (completedAt failedAt : Int) :
    ServiceProgram (Except Failure Unit) :=
  match AppVersionRolloutOutcomeService.outcomeRecord changeRequestID app version completedAt
    failedAt with
  | .error e => return .error e
  | .ok outcome => recordChecked outcome

end RolloutOutcomes

-- The configuration of a replica. The first three fields tell which optional parts it has.
structure CatalogPoller where
  heartbeats : Bool := true
  rolloutOutcomes : Bool := true
  beforeRolloutComplete : Bool := true
  heartbeatTTL : Int
  healthyStabilityWindow : Int

def rolloutContext (step app version : String) : String :=
  step ++ " " ++ app ++ "@" ++ version

namespace CatalogPoller

-- The times of completion and of failure that are recorded for a rollout, if there is one.
def terminalTimes (rollout : AppRollout) : Option (Int × Int) :=
  match rollout.state with
  | .complete => if rollout.completedAt = 0 then none else some (rollout.completedAt, 0)
  | .failed => if rollout.failedAt = 0 then none else some (0, rollout.failedAt)
  | _ => none

variable (p : CatalogPoller)

-- The outcome is lost if any step fails.
def recordRolloutOutcome (rollout : AppRollout) : ServiceProgram Unit := do
  if ¬p.rolloutOutcomes then
    return ()
  else
    match terminalTimes rollout with
    | none => return ()
    | some (completedAt, failedAt) =>
      match ← invoke (.latestRevisionIDForVersion rollout.app rollout.version) with
      | .error _ => return ()
      | .ok id   =>
        if id = "" then
          return ()
        else
          let _ ← RolloutOutcomes.record id rollout.app rollout.version completedAt failedAt

def prepareRolloutCompletion (rollout : AppRollout) : ServiceProgram (Except Failure Bool) := do
  if ¬p.beforeRolloutComplete then
    return .ok true
  else
    return (← invoke (.beforeRolloutComplete rollout.app rollout.version)).context
      (rolloutContext "prepare rollout completion for" rollout.app rollout.version)

def projectFleet (rollout : AppRollout) (now : Int) (heartbeats : List GestaltdInstanceHeartbeat) :
    AppFleetProjection :=
  evaluateFleetState {
    app := rollout.app
    desiredVersion := rollout.version
    sourceVersion := rollout.targetSourceVersion
    minimumHealthyInstances := rollout.minimumHealthyInstances
    cutoff := now - p.heartbeatTTL
    evaluatedAt := now
    heartbeats }

-- Whether the rollout could complete at the given time, as far as the replica knows.
def Completable (rollout : AppRollout) (now : Int) : Prop :=
  let stableAt := rollout.healthySince + p.healthyStabilityWindow
  rollout.healthySince ≠ 0 ∧ stableAt ≤ now ∧ stableAt ≤ rollout.deadline

instance {rollout : AppRollout} {now : Int} : Decidable (p.Completable rollout now) :=
  inferInstanceAs <| Decidable (_ ∧ _)

-- Returns whether the rollout still counts as healthy, and nothing if the completion has to wait.
def gateHealthy (rollout : AppRollout) (now : Int) (healthy : Bool) :
    ServiceProgram (Except Failure (Option Bool)) := do
  if healthy ∧ p.Completable rollout now then
    match ← p.prepareRolloutCompletion rollout with
    | .error e => if now < rollout.deadline then return .error e else return .ok (some false)
    | .ok false => return .ok none
    | .ok true => return .ok (some true)
  else
    return .ok (some healthy)

def heartbeatRolloutEvaluation (now : Int) (healthy : Bool) (projection : AppFleetProjection) :
    HeartbeatRolloutEvaluation where
  healthy
  stabilityWindow := p.healthyStabilityWindow
  evaluatedAt := now
  failureSummary := {
    liveInstances         := projection.liveInstances
    runningDesiredVersion := projection.runningDesiredVersion
    notRunning            := projection.notRunning
    mismatched            := projection.mismatched
    errors                := projection.errors }

-- The end of `updateHeartbeatRolloutOutcome`.
def evaluateRollout (rollout : AppRollout) (evaluation : HeartbeatRolloutEvaluation) :
    ServiceProgram (Except Failure Bool) := do
  match ← invoke (.evaluateHeartbeatRollout rollout evaluation) with
  | .error e =>
    if e.Is .appRolloutEpochMismatch then
      return .ok false
    else
      return .error
        (.wrap (rolloutContext "evaluate heartbeat rollout" rollout.app rollout.version) e)
  | .ok (_, false) => return .ok false
  | .ok (updated, true) =>
    p.recordRolloutOutcome updated
    return .ok true

def updateHeartbeatRolloutOutcome (rollout : AppRollout) :
    ServiceProgram (Except Failure Bool) := do
  let context := rolloutContext "evaluate heartbeat rollout" rollout.app rollout.version
  if ¬p.heartbeats then
    return .error ⟨context ++ ": heartbeat service is not configured", none⟩
  else if p.heartbeatTTL ≤ 0 ∨ p.healthyStabilityWindow ≤ 0 then
    return .error ⟨context ++ ": heartbeat timing is not configured", none⟩
  else
    let now ← now
    match ← invoke (.listFreshBySourceVersion rollout.targetSourceVersion (now - p.heartbeatTTL)) with
    | .error e =>
      return .error
        (.wrap (rolloutContext "list heartbeat rollout fleet for" rollout.app rollout.version) e)
    | .ok heartbeats =>
      let projection := p.projectFleet rollout now heartbeats
      match ← p.gateHealthy rollout now (projection.state = .healthy) with
      | .error e           => return .error e
      | .ok none           => return .ok false
      | .ok (some healthy) =>
        p.evaluateRollout rollout (p.heartbeatRolloutEvaluation now healthy projection)

-- What `MarkCompleteForRollout` and `MarkFailedForRollout` are followed by.
def markTerminal (mark : AppRolloutService.Mark) (context : String) (rollout : AppRollout) :
    ServiceProgram (Except Failure Bool) := do
  match ← invoke (.markForRollout mark rollout) with
  | .error e =>
    if e.Is .appRolloutEpochMismatch then
      return .ok false
    else
      return .error (.wrap context e)
  | .ok updated =>
    p.recordRolloutOutcome updated
    return .ok true

-- Whether an instance belongs to the cohort of the rollout.
def InCohort (rollout : AppRollout) (m : AppInstanceMaterialization) : Prop :=
  rollout.createdAt ≤ m.acknowledgedAt ∧ m.acknowledgedAt < rollout.enrollmentEndsAt ∧
  (Text.trimSpace rollout.targetSourceVersion = "" ∨
    Text.trimSpace m.sourceVersion = Text.trimSpace rollout.targetSourceVersion)

instance {rollout : AppRollout} : DecidablePred (InCohort rollout) :=
  fun _ => inferInstanceAs <| Decidable (_ ∧ _)

def Converged (rollout : AppRollout) (materializations : List AppInstanceMaterialization) : Prop :=
  let cohort := materializations.filter (InCohort rollout ·)
  cohort ≠ [] ∧ ∀ m ∈ cohort, rollout.createdAt ≤ m.restartedAt ∧ m.restartedAt ≤ rollout.deadline

instance {rollout : AppRollout} {materializations : List AppInstanceMaterialization} :
    Decidable (Converged rollout materializations) :=
  inferInstanceAs <| Decidable (_ ∧ _)

def failAfterDeadline (context : String) (rollout : AppRollout) :
    ServiceProgram (Except Failure Bool) := do
  if (← now) < rollout.deadline then
    return .ok false
  else
    p.markTerminal (.failed (← now)) context rollout

-- `updateRolloutOutcome` for a converged cohort. The clock is only read if the preparation failed.
def completeConverged (rollout : AppRollout) : ServiceProgram (Except Failure Bool) := do
  match ← p.prepareRolloutCompletion rollout with
  | .ok true =>
    p.markTerminal (.complete (← now))
      (rolloutContext "complete rollout" rollout.app rollout.version) rollout
  | .ok false => p.failAfterDeadline (rolloutContext "fail rollout" rollout.app rollout.version) rollout
  | .error e =>
    if (← now) < rollout.deadline then
      return .error e
    else
      p.failAfterDeadline (rolloutContext "fail rollout" rollout.app rollout.version) rollout

def updateRolloutOutcome (rollout : AppRollout) : ServiceProgram (Except Failure Bool) := do
  if rollout.mode = .heartbeat then
    p.updateHeartbeatRolloutOutcome rollout
  else
    match ← invoke (.listByAppVersion rollout.app rollout.version) with
    | .error e =>
      return .error (.wrap (rolloutContext "list rollout cohort for" rollout.app rollout.version) e)
    | .ok materializations =>
      if Converged rollout materializations then
        p.completeConverged rollout
      else
        p.failAfterDeadline (rolloutContext "fail rollout" rollout.app rollout.version) rollout

-- Returns the rollout and whether restarts still have to wait, and nothing if the rollout is not
-- the current one anymore.
def endEnrollment (app version : String) (rollout : AppRollout) :
    ServiceProgram (Except Failure (Option (AppRollout × Bool))) := do
  if rollout.state ≠ .enrolling then
    return .ok (some (rollout, false))
  else if (← now) < rollout.enrollmentEndsAt then
    return .ok (some (rollout, true))
  else
    match ← invoke (.markForRollout .restarting rollout) with
    | .ok rollout => return .ok (some (rollout, false))
    | .error e =>
      if e.Is .appRolloutEpochMismatch then
        return .ok none
      else
        return .error (.wrap (rolloutContext "start rollout restart phase for" app version) e)

-- After a restart, the outcome of the rollout is updated once more.
def updateAfterRestart : Option AppRollout → ServiceProgram (Except Failure Unit)
  | none => return .ok ()
  | some rollout => do
    if rollout.state = .restarting then
      return (← p.updateRolloutOutcome rollout).map fun _ => ()
    else
      return .ok ()

-- The end of `reconcileApp`.
def reconcileLocal (app : String) (configured : Bool) (installations : List AppInstallation)
    (rollout : Option AppRollout) (restartBlocked : Bool) :
    ServiceProgram (Except Failure Unit) := do
  if ¬configured ∨ installations = [] then
    return .ok ()
  else
    match ← invoke (.restartApp app restartBlocked) with
    | .error e => return .error e
    | .ok false => return .ok ()
    | .ok true => p.updateAfterRestart rollout

-- The part of `reconcileApp` for a rollout of an accepted version.
def reconcileRollout (app version : String) (configured : Bool)
    (installations : List AppInstallation) (rollout : AppRollout) :
    ServiceProgram (Except Failure Unit) := do
  match ← endEnrollment app version rollout with
  | .error e => return .error e
  | .ok none => return .ok ()
  | .ok (some (rollout, restartBlocked)) =>
    if rollout.state ≠ .restarting then
      p.reconcileLocal app configured installations (some rollout) restartBlocked
    else
      match ← p.updateRolloutOutcome rollout with
      | .error e  => return .error e
      | .ok ended =>
        let rollout := if ended then none else some rollout
        p.reconcileLocal app configured installations rollout restartBlocked

def acknowledge (configured : Bool) (app version : String) :
    ServiceProgram (Except Failure Unit) := do
  if configured then invoke (.ensureAcknowledged app version) else return .ok ()

-- The part of `reconcileApp` for a rollout whose version has not been accepted.
def reconcileUnaccepted (app version : String) (rollout : AppRollout) :
    ServiceProgram (Except Failure Unit) := do
  if rollout.mode = .heartbeat then
    return (← p.updateHeartbeatRolloutOutcome rollout).map fun _ => ()
  else
    let context := rolloutContext "fail rollout without accepted version" app version
    return (← p.failAfterDeadline context rollout).map fun _ => ()

def reconcileActive (app : String) (configured : Bool) (installations : List AppInstallation) :
    Option AppRollout → ServiceProgram (Except Failure Unit)
  | none => p.reconcileLocal app configured installations none false
  | some rollout => do
    let version := Text.trimSpace rollout.version
    if installations.any (Text.trimSpace ·.version = version) then
      match ← acknowledge configured app version with
      | .error e => return .error e
      | .ok ()   => p.reconcileRollout app version configured installations rollout
    else
      p.reconcileUnaccepted app version rollout

def reconcileApp (app : String) (installations : List AppInstallation)
    (rollout : Option AppRollout) : ServiceProgram (Except Failure Unit) := do
  p.reconcileActive app (← invoke (.configured app)) installations rollout

-- `activeByApp`. The last rollout of an app counts, but there is only one.
def activeByApp (active : List AppRollout) : GoMap AppRollout :=
  active.foldl (fun m rollout =>
    let app := Text.trimSpace rollout.app
    if app = "" then m else m.insert app rollout) ∅

-- The names in `groupInstallationsByApp`, each of them once.
def installedApps (known : List AppInstallation) : List String :=
  ((known.map (Text.trimSpace ·.appName)).filter (· ≠ "")).dedup

def reconcileApps (known : List AppInstallation) (active : GoMap AppRollout) :
    List String → ServiceProgram (List Failure)
  | [] => return []
  | app :: apps => do
    let installations := known.filter (Text.trimSpace ·.appName = app)
    let result ← p.reconcileApp app installations (active.lookup app)
    let errors ← reconcileApps known active apps
    match result with
    | .ok ()   => return errors
    | .error e => return e :: errors

-- First the apps with an installation, then the others with a rollout, each in an arbitrary order.
def reconcileOnce (order : GoMap.VisitOrder) : ServiceProgram (List Failure) := do
  match ← invoke .listAllKnownVersions with
  | .error e => return [.wrap "list catalog known versions" e]
  | .ok known =>
    match ← invoke .listByInstance with
    | .error e => return [.wrap "list instance materializations" e]
    | .ok ()   =>
      match ← invoke .listActive with
      | .error e   => return [.wrap "list active app rollouts" e]
      | .ok active =>
        let installed := installedApps known
        let active := activeByApp active
        let others := active.sortedKeys.filter (· ∉ installed)
        p.reconcileApps known active (order.visit 0 installed ++ order.visit 1 others)

def evaluateRollouts : List AppRollout → ServiceProgram (List Failure)
  | [] => return []
  | rollout :: rollouts => do
    if rollout.mode ≠ .heartbeat then
      evaluateRollouts rollouts
    else
      let result ← p.updateHeartbeatRolloutOutcome rollout
      let errors ← evaluateRollouts rollouts
      match result with
      | .ok _    => return errors
      | .error e => return e :: errors

def evaluateHeartbeatRolloutsOnce : ServiceProgram (List Failure) := do
  match ← invoke .listActive with
  | .error e => return [.wrap "list active app rollouts for heartbeat evaluation" e]
  | .ok active => p.evaluateRollouts active

-- The passes of a replica. A replica runs one of them at a time.
inductive Pass
  | reconcile (order : GoMap.VisitOrder)
  | evaluate

def run : List Pass → ServiceProgram Unit
  | [] => return ()
  | .reconcile order :: passes => do
    let _ ← p.reconcileOnce order
    run passes
  | .evaluate :: passes => do
    let _ ← p.evaluateHeartbeatRolloutsOnce
    run passes

end CatalogPoller
end AppRegistry
