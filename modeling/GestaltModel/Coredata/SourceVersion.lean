import GestaltModel.Coredata.Rollout

namespace Coredata

open Text (trimSpace)

structure GestaltdSourceVersionState where
  currentSourceVersion : String := ""
  minimumHealthyInstances : Int := 0
  updatedAt : Int := 0
  temporalWorkersPromotedSourceVersion : String := ""
  temporalWorkersPromotedAt : Int := 0
  appDeployPauseOwner : String := ""
  appDeployPauseToken : String := ""
  deriving DecidableEq, Repr

-- The stores of the rollouts and of the source version, which has at most one record.
structure RolloutDB where
  source : Option GestaltdSourceVersionState := none
  rollouts : RolloutStore := ∅

def normalizedSourceVersionTime (now value : Int) : Int :=
  Time.truncate Time.millisecond (if value = 0 then now else value)

-- What is read back after `gestaltdSourceVersionStateRecord` has been written.
def gestaltdSourceVersionStateRecord (now : Int) (state : GestaltdSourceVersionState) :
    GestaltdSourceVersionState where
  currentSourceVersion := trimSpace state.currentSourceVersion
  minimumHealthyInstances := state.minimumHealthyInstances
  updatedAt := normalizedSourceVersionTime now state.updatedAt
  temporalWorkersPromotedSourceVersion :=
    trimSpace state.temporalWorkersPromotedSourceVersion
  temporalWorkersPromotedAt            :=
    normalizedSourceVersionTime now state.temporalWorkersPromotedAt
  appDeployPauseOwner := trimSpace state.appDeployPauseOwner
  appDeployPauseToken := trimSpace state.appDeployPauseToken

-- The arguments of `ActivateWithRolloutMode`.
structure Activation where
  sourceVersion : String
  activatedAt : Int
  retry : Bool := false
  enrollmentWindow : Int
  rolloutTimeout : Int
  rolloutMode : AppRolloutMode := .unset
  minimumHealthyInstances : List Int := []
  deriving DecidableEq, Repr

namespace GestaltdSourceVersionService

def defaultHeartbeatRolloutMinimumHealthyInstances : Int := 1

def errGestaltdSourceVersionUnavailable : Failure where
  text := "gestaltd source version is unavailable"
  sentinel := some .gestaltdSourceVersionUnavailable

def errAppDeployPaused : Failure where
  text := "app version changes are paused for a runtime deployment"
  sentinel := some .appDeployPaused

def errAppDeployPauseConflict : Failure where
  text := "app deploy pause is owned by another runtime deployment"
  sentinel := some .appDeployPauseConflict

-- The rollout that `CreateAppRollout` admits for the state of the source version.
def pendingRollout (state : GestaltdSourceVersionState) (rollout : AppRollout) :
    Except Failure AppRollout := do
  let pending := { rollout with
    targetSourceVersion := trimSpace state.currentSourceVersion }
  if pending.mode = .heartbeat then
    require (0 < state.minimumHealthyInstances)
      "create source-version app rollout: minimum healthy instances is unavailable"
    return { pending with minimumHealthyInstances := state.minimumHealthyInstances }
  else
    return pending

def createAppRollout (now : Int) (rollout : AppRollout) (db : RolloutDB) :
    Except Failure (RolloutDB × AppRollout) :=
  match db.source with
  | none => .error errGestaltdSourceVersionUnavailable
  | some state =>
    if trimSpace state.appDeployPauseOwner ≠ "" then
      .error errAppDeployPaused
    else if trimSpace state.currentSourceVersion = "" then
      .error errGestaltdSourceVersionUnavailable
    else do
      let pending ← pendingRollout state rollout
      (validateAppRollout pending).context "create source-version app rollout"
      let rollout := normalizeAppRollout now pending
      let rollouts ← AppRolloutService.replaceTerminal db.rollouts rollout
      return ({ db with rollouts }, rollout)

-- The checks of `ActivateWithRolloutMode`. They return the requested minimum.
def requestedMinimum (a : Activation) : Except Failure Int := do
  let mode := a.rolloutMode.orEnrollment
  require (trimSpace a.sourceVersion ≠ "")
    "activate gestaltd source version: source version is required"
  require (0 < a.enrollmentWindow ∧ a.enrollmentWindow < a.rolloutTimeout)
    "activate gestaltd source version: invalid rollout windows"
  require (mode = .enrollment ∨ mode = .heartbeat)
    ("activate gestaltd source version: invalid rollout mode " ++ Text.quote mode.text)
  match a.minimumHealthyInstances with
  | [] => return if mode = .heartbeat then defaultHeartbeatRolloutMinimumHealthyInstances else 0
  | [minimum] =>
    require (0 ≤ minimum)
      "activate gestaltd source version: minimum healthy instances must not be negative"
    require (mode ≠ .heartbeat ∨ 0 < minimum)
      "activate gestaltd source version: heartbeat minimum healthy instances must be positive"
    return minimum
  | _ =>
    .error ⟨"activate gestaltd source version: minimum healthy instances may only be provided once",
      none⟩

-- The decisions that an activation takes from the state that it finds.
structure ActivationPlan where
  sourceVersion : String
  mode : AppRolloutMode
  activatedAt : Int
  updatedAt : Int
  sourceChanged : Bool
  minimumChanged : Bool
  effectiveMinimumHealthy : Int

def activationPlan (now : Int) (a : Activation) (requested : Int)
    (state : GestaltdSourceVersionState) : ActivationPlan :=
  let sourceVersion := trimSpace a.sourceVersion
  let sourceChanged := trimSpace state.currentSourceVersion ≠ sourceVersion
  let minimum :=
    if a.minimumHealthyInstances = [] ∧ ¬sourceChanged ∧ 0 < state.minimumHealthyInstances then
      state.minimumHealthyInstances
    else
      requested
  { sourceVersion
    mode := a.rolloutMode.orEnrollment
    activatedAt := normalizedSourceVersionTime now a.activatedAt
    updatedAt := state.updatedAt
    sourceChanged
    minimumChanged := state.minimumHealthyInstances ≠ minimum
    effectiveMinimumHealthy := minimum }

def Retargets (a : Activation) (plan : ActivationPlan) (rollout : AppRollout) : Prop :=
  if a.retry ∧ trimSpace rollout.targetSourceVersion = plan.sourceVersion then
    IsActiveRolloutState rollout.state ∨
    (rollout.state = .failed ∧ rollout.failedAt ≠ 0 ∧ plan.updatedAt ≤ rollout.failedAt)
  else
    (plan.sourceChanged ∨ plan.minimumChanged) ∧ IsActiveRolloutState rollout.state

instance {a : Activation} {plan : ActivationPlan} {rollout : AppRollout} :
    Decidable (Retargets a plan rollout) :=
  inferInstanceAs <| Decidable (ite _ _ _)

def retarget (a : Activation) (plan : ActivationPlan) (rollout : AppRollout) : AppRollout :=
  { rollout with
    targetSourceVersion := plan.sourceVersion
    mode := plan.mode
    minimumHealthyInstances := if plan.mode = .heartbeat then plan.effectiveMinimumHealthy else 0
    state := if plan.mode = .heartbeat then .restarting else .enrolling
    createdAt := plan.activatedAt
    enrollmentEndsAt := plan.activatedAt + a.enrollmentWindow
    deadline := plan.activatedAt + a.rolloutTimeout
    healthySince := 0
    heartbeatEvaluatedAt := 0
    completedAt := 0
    failedAt := 0
    failureSummary := none }

-- The body of the loop over the rollouts.
def retargetRecord (a : Activation) (plan : ActivationPlan) (rec : AppRolloutRecord) :
    Option AppRolloutRecord :=
  let rollout := recordToAppRollout rec
  if Retargets a plan rollout then some (appRolloutRecord (retarget a plan rollout)) else none

def activateWithRolloutMode (now : Int) (a : Activation) (db : RolloutDB) :
    Except Failure (RolloutDB × GestaltdSourceVersionState) := do
  let requested ← requestedMinimum a
  let state := db.source.getD {}
  let plan := activationPlan now a requested state
  let changed := plan.sourceChanged ∨ plan.minimumChanged ∨ a.retry
  let rollouts :=
    if changed then db.rollouts.updateAll (retargetRecord a plan) else db.rollouts
  let state := { state with
    currentSourceVersion := plan.sourceVersion
    minimumHealthyInstances := plan.effectiveMinimumHealthy
    updatedAt               :=
      if changed ∨ state.updatedAt = 0 then plan.activatedAt else state.updatedAt }
  return ({ source := some (gestaltdSourceVersionStateRecord now state), rollouts }, state)

-- `AcquireAppDeployPause` and `ReleaseAppDeployPause`
def changeAppDeployPause (now : Int) (owner token : String) (acquire : Bool) (db : RolloutDB) :
    Except Failure (RolloutDB × GestaltdSourceVersionState) := do
  let owner := trimSpace owner
  let token := trimSpace token
  let action := if acquire then "acquire" else "release"
  require (owner ≠ "" ∧ token ≠ "") (action ++ " app deploy pause: owner and token are required")
  match db.source with
  | none => .error errGestaltdSourceVersionUnavailable
  | some state =>
    if state.appDeployPauseOwner ≠ "" ∧
        (state.appDeployPauseOwner ≠ owner ∨ state.appDeployPauseToken ≠ token) then
      .error errAppDeployPauseConflict
    else
      let state := { state with
        appDeployPauseOwner := if acquire then owner else ""
        appDeployPauseToken := if acquire then token else "" }
      return ({ db with source := some (gestaltdSourceVersionStateRecord now state) }, state)

end GestaltdSourceVersionService

inductive RolloutOperation
  | create (rollout : AppRollout)
  | createAppRollout (rollout : AppRollout)
  | mark (mark : AppRolloutService.Mark) (app version : String)
  | markForRollout (mark : AppRolloutService.Mark) (expected : AppRollout)
  | evaluate (expected : AppRollout) (evaluation : HeartbeatRolloutEvaluation)
  | activate (activation : Activation)
  | changeAppDeployPause (owner token : String) (acquire : Bool)
  deriving DecidableEq, Repr

namespace RolloutDB

def rollout? (db : RolloutDB) (app : String) : Option AppRollout :=
  (db.rollouts.lookup app).map recordToAppRollout

def execute (db : RolloutDB) (now : Int) : RolloutOperation → Except Failure RolloutDB
  | .create rollout => do
    let (rollouts, _) ← AppRolloutService.create now rollout db.rollouts
    return { db with rollouts }
  | .createAppRollout rollout => do
    return (← GestaltdSourceVersionService.createAppRollout now rollout db).1
  | .mark mark app version => do
    let (rollouts, _) ← AppRolloutService.mark now mark app version db.rollouts
    return { db with rollouts }
  | .markForRollout mark expected => do
    let (rollouts, _) ← AppRolloutService.markForRollout now mark expected db.rollouts
    return { db with rollouts }
  | .evaluate expected evaluation => do
    let (rollouts, _) ←
      AppRolloutService.evaluateHeartbeatRollout now expected evaluation db.rollouts
    return { db with rollouts }
  | .activate a => do
    return (← GestaltdSourceVersionService.activateWithRolloutMode now a db).1
  | .changeAppDeployPause owner token acquire => do
    return (← GestaltdSourceVersionService.changeAppDeployPause now owner token acquire db).1

def after (db : RolloutDB) (now : Int) (op : RolloutOperation) : RolloutDB :=
  match db.execute now op with
  | .ok db' => db'
  | .error _ => db

end RolloutDB
end Coredata
