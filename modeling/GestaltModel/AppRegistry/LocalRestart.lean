import GestaltModel.AppRegistry.Poller

namespace AppRegistry

open Coredata Interleaving
open Text (trimSpace)
open Time (millisecond truncate)

structure KnownInstallation extends AppInstallation where
  registry : String := ""
  updatedAt : Int := 0
  deriving DecidableEq, Repr

-- The record of an instance for a version of an app, without the texts of its failures.
structure LocalMaterialization extends AppInstanceMaterialization where
  materializedAt : Int := 0
  stoppedAt : Int := 0
  attemptCount : Int := 0
  deriving DecidableEq, Repr

-- The columns that `updateTimestamps` sets.
inductive MaterializationColumn
  | materializedAt
  | stoppedAt
  | restartedAt
  deriving DecidableEq, Repr

-- The functions of the poller that load a record. The store does not know which of them asks.
inductive MaterializationReader
  | ensureDesiredMaterialized
  | desiredVersionMaterialized
  | earliestStoppedAt
  | markPendingStopped
  | markAllRestarted
  deriving DecidableEq, Repr

-- The calls by which a `CatalogPoller` brings the apps of its own process to their desired versions.
inductive RestartCall
  | now
  -- The stores that all instances share. What the poller does to the rollouts is summarized.
  | listAllKnownVersions
  | listActive
  | markForRollout (mark : AppRolloutService.Mark) (rollout : AppRollout)
  | updateRolloutOutcome (rollout : AppRollout)
  | updateHeartbeatRolloutOutcome (rollout : AppRollout)
  -- `AppInstanceMaterializationService`, for the records of this instance.
  | listByInstance
  | get (reader : MaterializationReader) (app version : String)
  | acknowledge (app version sourceVersion : String) (acknowledgedAt rolloutCreatedAt : Int)
  | mark (column : MaterializationColumn) (app version : String) (time : Int)
  | recordFailure (app version : String)
  -- `AppRestarter` and `Materializer`.
  | configured (app : String)
  | acceptsRegistry (app registry : String)
  | restartable (app : String)
  | runningVersion (app : String)
  | stopApp (app : String)
  | startApp (app version : String)
  | ensure (installation : KnownInstallation)
  | pruneSuperseded (app version : String)
  | supersededPruned (app version : String)
  | installedPackageReady (app version : String)
  -- The channel `RestartReady`, the records listed in this pass and the map `stoppedAt`.
  | restartReady
  | listed (app version : String)
  | setListed (app version : String) (materialization : LocalMaterialization)
  | localStoppedAt (app : String)
  | rememberStoppedAt (app : String) (value : Int)
  | forgetStoppedAt (app : String)

-- What is not determined about the answer to a call.
structure Report where
  fault : Option Failure := none
  yes : Bool := true
  runningVersion : Option String := none
  installations : List KnownInstallation := []
  rollouts : List AppRollout := []
  rollout : Option AppRollout := none

-- A call of `StartApp`, with the time of the last `StopApp` before it that was successful.
structure AppStart where
  app : String
  version : String
  time : Int
  lastStopped : Option Int
  deriving DecidableEq, Repr

abbrev MaterializationMap := String → String → Option LocalMaterialization

-- The last two fields record when an app was stopped and started. The poller cannot read them.
structure RestartMemory where
  clock : Int
  materializations : MaterializationMap := fun _ _ => none
  listed : MaterializationMap := fun _ _ => none
  stoppedAt : String → Option Int := fun _ => none
  lastStopped : String → Option Int := fun _ => none
  starts : List AppStart := []

variable (app version : String)

namespace Materializations

def insert (m : MaterializationMap) (app version : String) (materialization : LocalMaterialization) :
    MaterializationMap :=
  fun a v => if a = app ∧ v = version then some materialization else m a v

-- `normalizedMaterializationTime`
def normalizedTime (now value : Int) : Int :=
  truncate millisecond (if value = 0 then now else value)

def acknowledgedAtForRollout (now requested rolloutCreatedAt : Int) : Int :=
  let acknowledgedAt := normalizedTime now requested
  if rolloutCreatedAt = 0 ∨ rolloutCreatedAt ≤ acknowledgedAt then
    acknowledgedAt
  else
    truncate millisecond rolloutCreatedAt

-- `findByInstanceAppVersion`
def find (m : MaterializationMap) (app version : String) : Except Failure LocalMaterialization :=
  let app := trimSpace app
  let version := trimSpace version
  if app = "" ∨ version = "" then
    .error ⟨"find app instance materialization: instance_id, app, and version are required", none⟩
  else
    match m app version with
    | some materialization => .ok materialization
    | none => .error ObjectStore.notFound

-- `Acknowledge`, where `rolloutCreatedAt` is `0`, and `AcknowledgeForRollout`.
def acknowledge (now : Int) (app version sourceVersion : String)
    (acknowledgedAt rolloutCreatedAt : Int) (m : MaterializationMap) :
    Except Failure (MaterializationMap × LocalMaterialization) := do
  let sourceVersion := trimSpace sourceVersion
  let app := trimSpace app
  let version := trimSpace version
  let rolloutCreatedAt := truncate millisecond rolloutCreatedAt
  require (app ≠ "" ∧ version ≠ "")
    "acknowledge app instance materialization: instance_id, app, and version are required"
  let acknowledgedAt := acknowledgedAtForRollout now acknowledgedAt rolloutCreatedAt
  match m app version with
  | none =>
    let materialization : LocalMaterialization :=
      { sourceVersion, acknowledgedAt, restartedAt := 0 }
    return (insert m app version materialization, materialization)
  | some current =>
    let current :=
      if current.sourceVersion = "" then { current with sourceVersion } else current
    if rolloutCreatedAt = 0 ∨ rolloutCreatedAt ≤ current.acknowledgedAt then
      return (insert m app version current, current)
    else
      let materialization : LocalMaterialization :=
        { sourceVersion := if sourceVersion = "" then current.sourceVersion else sourceVersion
          acknowledgedAt
          restartedAt   := 0 }
      return (insert m app version materialization, materialization)

def setColumn (materialization : LocalMaterialization) (time : Int) :
    MaterializationColumn → LocalMaterialization
  | .materializedAt => { materialization with materializedAt := time }
  | .stoppedAt => { materialization with stoppedAt := time }
  | .restartedAt => { materialization with restartedAt := time }

-- `MarkMaterialized`, `MarkStopped` and `MarkRestarted`
def mark (now : Int) (column : MaterializationColumn) (app version : String) (time : Int)
    (m : MaterializationMap) : Except Failure MaterializationMap := do
  let materialization ← (find m app version).context "update app instance materialization"
  let materialization := setColumn materialization (normalizedTime now time) column
  return insert m (trimSpace app) (trimSpace version) materialization

def recordFailure (m : MaterializationMap) : Except Failure MaterializationMap := do
  let app := trimSpace app
  let version := trimSpace version
  match m app version with
  | none =>
    .error (.wrap "record app instance materialization failure: load record" ObjectStore.notFound)
  | some materialization =>
    return insert m app version
      { materialization with attemptCount := materialization.attemptCount + 1 }

end Materializations

namespace RestartCall

abbrev Response : RestartCall → Type
  | now => Int
  | listAllKnownVersions => Except Failure (List KnownInstallation)
  | listActive => Except Failure (List AppRollout)
  | markForRollout _ _ => Except Failure AppRollout
  | updateRolloutOutcome _ => Except Failure Bool
  | updateHeartbeatRolloutOutcome _ => Except Failure Bool
  | listByInstance => Except Failure Unit
  | get _ _ _ => Except Failure LocalMaterialization
  | acknowledge _ _ _ _ _ => Except Failure LocalMaterialization
  | mark _ _ _ _ => Except Failure Unit
  | recordFailure _ _ => Except Failure Unit
  | configured _ => Bool
  | acceptsRegistry _ _ => Bool
  | restartable _ => Except Failure Bool
  | runningVersion _ => Option String
  | stopApp _ => Except Failure Unit
  | startApp _ _ => Except Failure Unit
  | ensure _ => Except Failure Bool
  | pruneSuperseded _ _ => Except Failure Unit
  | supersededPruned _ _ => Except Failure Bool
  | installedPackageReady _ _ => Bool
  | restartReady => Bool
  | listed _ _ => Option LocalMaterialization
  | setListed _ _ _ => Unit
  | localStoppedAt _ => Option Int
  | rememberStoppedAt _ _ => Int
  | forgetStoppedAt _ => Unit

def answer (a : Report) (x : Except Failure α) : Except Failure α :=
  match a.fault with
  | some f => .error f
  | none => x

def write (a : Report) (s : RestartMemory) (x : Except Failure (MaterializationMap × α)) :
    RestartMemory × Except Failure α :=
  match answer a x with
  | .ok (materializations, r) => ({ s with materializations }, .ok r)
  | .error e => (s, .error e)

def stop (a : Report) (s : RestartMemory) (app : String) : RestartMemory × Except Failure Unit :=
  match a.fault with
  | some f => (s, .error f)
  | none => ({ s with lastStopped := Function.update s.lastStopped app (some s.clock) }, .ok ())

def remember (s : RestartMemory) (app : String) (value : Int) : RestartMemory × Int :=
  match s.stoppedAt app with
  | some existing => (s, existing)
  | none => ({ s with stoppedAt := Function.update s.stoppedAt app (some value) }, value)

def exec (a : Report) (s : RestartMemory) : (c : RestartCall) → RestartMemory × c.Response
  | now => (s, s.clock)
  | listAllKnownVersions => (s, answer a (.ok a.installations))
  | listActive => (s, answer a (.ok a.rollouts))
  | markForRollout _ rollout => (s, answer a (.ok (a.rollout.getD rollout)))
  | updateRolloutOutcome _ => (s, answer a (.ok a.yes))
  | updateHeartbeatRolloutOutcome _ => (s, answer a (.ok a.yes))
  | listByInstance =>
    match answer a (.ok ()) with
    | .ok ()   => ({ s with listed := s.materializations }, .ok ())
    | .error e => (s, .error e)
  | get _ app version =>
    (s, answer a ((Materializations.find s.materializations app version).context
      "get app instance materialization"))
  | acknowledge app version sourceVersion acknowledgedAt rolloutCreatedAt =>
    write a s (Materializations.acknowledge s.clock app version sourceVersion acknowledgedAt
      rolloutCreatedAt s.materializations)
  | mark column app version time =>
    write a s ((Materializations.mark s.clock column app version time s.materializations).map
      (·, ()))
  | recordFailure app version =>
    write a s ((Materializations.recordFailure app version s.materializations).map (·, ()))
  | configured _ => (s, a.yes)
  | acceptsRegistry _ _ => (s, a.yes)
  | restartable _ => (s, answer a (.ok a.yes))
  | runningVersion _ => (s, a.runningVersion)
  | stopApp app => stop a s app
  | startApp app version =>
    ({ s with starts := ⟨app, version, s.clock, s.lastStopped app⟩ :: s.starts }, answer a (.ok ()))
  | ensure _ => (s, answer a (.ok a.yes))
  | pruneSuperseded _ _ => (s, answer a (.ok ()))
  | supersededPruned _ _ => (s, answer a (.ok a.yes))
  | installedPackageReady _ _ => (s, a.yes)
  | restartReady => (s, a.yes)
  | listed app version => (s, s.listed app version)
  | setListed app version m => ({ s with listed := Materializations.insert s.listed app version m }, ())
  | localStoppedAt app => (s, s.stoppedAt app)
  | rememberStoppedAt app t => remember s app t
  | forgetStoppedAt app => ({ s with stoppedAt := Function.update s.stoppedAt app none }, ())

end RestartCall

-- There is one poller, and the environment lets the time pass.
@[reducible]
def restartSemantics : Semantics Unit RestartCall RestartCall.Response RestartMemory where
  Oracle := Report
  Act := Nat
  exec _ c a s := c.exec a s
  act d s      := { s with clock := s.clock + d }

abbrev RestartProgram (α : Type) := Program RestartCall RestartCall.Response α

namespace RestartProgram

def send (c : RestartCall) : RestartProgram c.Response :=
  .perform c

def now : RestartProgram Int := do
  return truncate millisecond (← send .now)

end RestartProgram

-- What the restarter of a process can do besides restarts.
structure RestarterAbilities where
  acceptsRegistry : Bool := true
  runningVersion : Bool := true

-- The part of a poller's configuration that matters for its own process.
structure LocalPoller where
  appRestarter : Option RestarterAbilities := some {}
  appMaterializer : Bool := true
  sourceVersion : String := ""
  restartDelay : Int := 0
  disableRestartDelay : Bool := false
  maxReconcileAttempts : Int := 0

variable (app : String)

namespace LocalPoller

open RestartProgram

def defaultCatalogRestartDelay : Int := Time.minute

-- The body of the loop of `LatestKnownInstallation`.
def laterInstallation (latest installation : KnownInstallation) : KnownInstallation :=
  if latest.updatedAt < installation.updatedAt ∨ (installation.updatedAt = latest.updatedAt ∧
      trimSpace latest.version < trimSpace installation.version) then
    installation
  else
    latest

def latestKnownInstallation : List KnownInstallation → Option KnownInstallation
  | [] => none
  | first :: rest => some (rest.foldl laterInstallation first)

def latestKnownVersion (installations : List KnownInstallation) : String :=
  match latestKnownInstallation installations with
  | none => ""
  | some installation => trimSpace installation.version

def findInstallation (installations : List KnownInstallation) (version : String) :
    Option KnownInstallation :=
  installations.find? (trimSpace ·.version = trimSpace version)

variable (p : LocalPoller)

-- `restartDelay`
def delay : Int :=
  if p.disableRestartDelay then 0
  else if 0 < p.restartDelay then p.restartDelay
  else defaultCatalogRestartDelay

-- `maxReconcileAttempts`
def maxAttempts : Int :=
  if 0 < p.maxReconcileAttempts then p.maxReconcileAttempts else 3

def configured (app : String) : RestartProgram Bool :=
  match p.appRestarter with
  | none => return true
  | some _ => send (.configured app)

-- Nothing is reported by a restarter that does not know which version runs.
def runningVersion (app : String) : RestartProgram (Option String) :=
  if p.appRestarter.any (·.runningVersion) then send (.runningVersion app) else return none

def acceptsRegistry (app registry : String) : RestartProgram Bool :=
  if p.appRestarter.any (·.acceptsRegistry) then
    send (.acceptsRegistry app registry)
  else
    return true

variable (app version : String)

-- The second half of `ensureAcknowledged`.
def acknowledge (rolloutCreatedAt : Int) :
    RestartProgram (Except Failure LocalMaterialization) := do
  let acknowledgedAt ← now
  match ← send (.acknowledge app version p.sourceVersion acknowledgedAt rolloutCreatedAt) with
  | .error e => return .error (.wrap (rolloutContext "acknowledge" app version) e)
  | .ok materialization =>
    send (.setListed app version materialization)
    return .ok materialization

def ensureAcknowledged (rolloutCreatedAt : Int) :
    RestartProgram (Except Failure LocalMaterialization) := do
  match ← send (.listed app version) with
  | none => p.acknowledge app version rolloutCreatedAt
  | some existing =>
    let rolloutCreatedAt := truncate millisecond rolloutCreatedAt
    if (trimSpace p.sourceVersion = "" ∨ trimSpace existing.sourceVersion ≠ "") ∧
        (rolloutCreatedAt = 0 ∨ rolloutCreatedAt ≤ existing.acknowledgedAt) then
      return .ok existing
    else
      p.acknowledge app version rolloutCreatedAt

def loadMaterialization (reader : MaterializationReader) (app version : String) :
    RestartProgram (Except Failure LocalMaterialization) := do
  return (← send (.get reader app version)).context
    (rolloutContext "load materialization for" app version)

def recordMaterialization : RestartProgram (Except Failure Unit) := do
  let materializedAt ← now
  return (← send (.mark .materializedAt app version materializedAt)).context
    (rolloutContext "record materialization for" app version)

variable (desired : KnownInstallation)

def ensureDesiredMaterialized : RestartProgram (Except Failure Unit) := do
  let app := trimSpace desired.appName
  let version := trimSpace desired.version
  if app = "" ∨ version = "" ∨ trimSpace desired.registry = "" then
    return .ok ()
  else if ¬p.appMaterializer then
    return .error ⟨rolloutContext "app registry materializer is required for" app version, none⟩
  else
    match ← loadMaterialization .ensureDesiredMaterialized app version with
    | .error e => return .error e
    | .ok materialization =>
      match ← send (.ensure desired) with
      | .error e    => return .error (.wrap (rolloutContext "materialize" app version) e)
      | .ok changed =>
        if ¬changed ∧ materialization.materializedAt ≠ 0 then
          return .ok ()
        else
          recordMaterialization app version

def desiredVersionMaterialized : RestartProgram (Except Failure Bool) := do
  if trimSpace desired.registry = "" then
    return .ok true
  else
    let app := trimSpace desired.appName
    let version := trimSpace desired.version
    match ← loadMaterialization .desiredVersionMaterialized app version with
    | .error e => return .error e
    | .ok materialization =>
      if materialization.materializedAt = 0 ∨ ¬p.appMaterializer then
        return .ok false
      else
        return .ok (← send (.installedPackageReady app version))

def pruneSuperseded : RestartProgram (Except Failure Unit) := do
  if ¬p.appMaterializer then
    return .ok ()
  else
    return (← send (.pruneSuperseded app version)).context
      ("prune superseded versions for app " ++ app)

def supersededPruned : RestartProgram (Except Failure Bool) := do
  if ¬p.appMaterializer then
    return .ok true
  else
    return (← send (.supersededPruned app version)).context
      ("inspect superseded versions for app " ++ app)

-- The loop of `earliestStoppedAt`.
def earliestStored (app : String) :
    Option Int → List KnownInstallation → RestartProgram (Except Failure (Option Int))
  | earliest, [] => return .ok earliest
  | earliest, installation :: pending => do
    let version := trimSpace installation.version
    if version = "" then
      earliestStored app earliest pending
    else
      match ← loadMaterialization .earliestStoppedAt app version with
      | .error e            => return .error e
      | .ok materialization =>
        if materialization.stoppedAt = 0 then
          earliestStored app earliest pending
        else
          earliestStored app
            (some (earliest.elim materialization.stoppedAt (min materialization.stoppedAt))) pending

variable (pending : List KnownInstallation)

def earliestStoppedAt : RestartProgram (Except Failure (Option Int)) := do
  earliestStored app (← send (.localStoppedAt app)) pending

def markPendingStopped (app : String) (stoppedAt : Int) :
    List KnownInstallation → RestartProgram (Except Failure Unit)
  | [] => return .ok ()
  | installation :: pending => do
    let version := trimSpace installation.version
    if version = "" then
      markPendingStopped app stoppedAt pending
    else
      match ← loadMaterialization .markPendingStopped app version with
      | .error e            => return .error e
      | .ok materialization =>
        if materialization.stoppedAt ≠ 0 then
          markPendingStopped app stoppedAt pending
        else
          match ← send (.mark .stoppedAt app version stoppedAt) with
          | .error e => return .error (.wrap (rolloutContext "record stop for" app version) e)
          | .ok ()   => markPendingStopped app stoppedAt pending

def markAllRestarted (app : String) (restartedAt : Int) :
    List KnownInstallation → RestartProgram (Except Failure Unit)
  | [] => return .ok ()
  | installation :: pending => do
    let version := trimSpace installation.version
    match ← loadMaterialization .markAllRestarted app version with
    | .error e            => return .error e
    | .ok materialization =>
      if materialization.restartedAt ≠ 0 then
        markAllRestarted app restartedAt pending
      else
        match ← send (.mark .restartedAt app version restartedAt) with
        | .error e => return .error (.wrap (rolloutContext "record restart for" app version) e)
        | .ok ()   => markAllRestarted app restartedAt pending

def stop : RestartProgram (Except Failure Int) := do
  match ← send (.stopApp app) with
  | .error e => return .error (.wrap (rolloutContext ("stop app " ++ app ++ " for") app version) e)
  | .ok () =>
    let stoppedAt ← now
    return .ok (← send (.rememberStoppedAt app stoppedAt))

-- Stops the app unless it is already stopped. It is not if some other version runs.
def ensureStopped (stoppedAt : Option Int) : RestartProgram (Except Failure Int) := do
  let running ← p.runningVersion app
  match stoppedAt with
  | none => stop app version
  | some stoppedAt =>
    if running ≠ none ∧ running ≠ some version then stop app version else return .ok stoppedAt

def updateAfterRestart : Option AppRollout → RestartProgram (Except Failure Unit)
  | none => return .ok ()
  | some rollout => do
    if rollout.state = .restarting then
      return (← send (.updateRolloutOutcome rollout)).map fun _ => ()
    else
      return .ok ()

variable (rollout : Option AppRollout)

-- What follows a successful `StartApp`.
def finishRestart : RestartProgram (Except Failure Unit) := do
  match ← p.pruneSuperseded app version with
  | .error e => return .error e
  | .ok () =>
    let restartedAt ← now
    match ← markAllRestarted app restartedAt pending with
    | .error e => return .error e
    | .ok ()   =>
      send (.forgetStoppedAt app)
      updateAfterRestart rollout

def start : RestartProgram (Except Failure Unit) := do
  match ← send (.startApp app version) with
  | .error e => return .error (.wrap (rolloutContext ("start app " ++ app ++ " for") app version) e)
  | .ok () => p.finishRestart app version pending rollout

def startAfterDelay (stoppedAt : Int) : RestartProgram (Except Failure Unit) := do
  match ← markPendingStopped app stoppedAt pending with
  | .error e => return .error e
  | .ok () =>
    if p.delay ≤ 0 then
      p.start app version pending rollout
    else if (← now) - stoppedAt < p.delay then
      return .ok ()
    else
      p.start app version pending rollout

-- The end of `reconcileApp`, for an app that has to be restarted.
def restart : RestartProgram (Except Failure Unit) := do
  if ¬(← send .restartReady) then
    return .ok ()
  else
    match ← earliestStoppedAt app pending with
    | .error e => return .error e
    | .ok stoppedAt =>
      match ← p.ensureStopped app version stoppedAt with
      | .error e      => return .error e
      | .ok stoppedAt => p.startAfterDelay app version pending rollout stoppedAt

-- After too many failures the app is not restarted anymore. It can still turn out to be converged.
def checkConverged : RestartProgram (Except Failure Unit) := do
  if ¬p.appRestarter.any (·.runningVersion) then
    return .ok ()
  else
    let running ← send (.runningVersion app)
    match ← p.desiredVersionMaterialized desired with
    | .error e => return .error e
    | .ok materialized =>
      match ← p.supersededPruned app version with
      | .error e   => return .error e
      | .ok pruned =>
        if running = some version ∧ materialized ∧ pruned then
          let now ← now
          markAllRestarted app now [desired]
        else
          return .ok ()

def converge : RestartProgram (Except Failure Unit) := do
  if (← p.runningVersion app) = some version then
    match ← p.pruneSuperseded app version with
    | .error e => return .error e
    | .ok () =>
      let now ← now
      markAllRestarted app now [desired]
  else
    p.restart app version [desired] rollout

-- `markCatalogConverged`, for an app that runs elsewhere.
def convergeRemote (desired : KnownInstallation) (restartBlocked : Bool) :
    RestartProgram (Except Failure Unit) := do
  if restartBlocked then
    return .ok ()
  else
    let convergedAt ← now
    markAllRestarted app convergedAt [desired]

def convergeLocal
    (materialization : LocalMaterialization) (rollout : Option AppRollout) (restartBlocked : Bool) :
    RestartProgram (Except Failure Unit) := do
  match ← p.ensureDesiredMaterialized desired with
  | .error e => return .error (.wrap ("materialize desired version for app " ++ app) e)
  | .ok () =>
    if restartBlocked then
      return .ok ()
    else if p.maxAttempts ≤ materialization.attemptCount then
      p.checkConverged app version desired
    else
      p.converge app version desired rollout

def reconcilePending
    (materialization : LocalMaterialization) (rollout : Option AppRollout) (restartBlocked : Bool) :
    RestartProgram (Except Failure Unit) := do
  if ¬(← p.acceptsRegistry app desired.registry) then
    return .error ⟨rolloutContext "registry for" app version ++ " does not match configured source",
      none⟩
  else if p.appRestarter.isNone then
    return .ok ()
  else
    match ← send (.restartable app) with
    | .error e => return .error (.wrap ("determine restart mode for app " ++ app) e)
    | .ok false => convergeRemote app desired restartBlocked
    | .ok true => p.convergeLocal app version desired materialization rollout restartBlocked

-- The acknowledgement of the desired version, which can be the one of the rollout.
def acknowledgeDesired (acknowledged : Option (String × LocalMaterialization)) :
    RestartProgram (Except Failure LocalMaterialization) :=
  match acknowledged with
  | none => p.ensureAcknowledged app version desired.updatedAt
  | some (rolloutVersion, materialization) =>
    if rolloutVersion ≠ version then
      p.ensureAcknowledged app version desired.updatedAt
    else
      return .ok materialization

-- The part of `reconcileApp` after the rollout.
def reconcileDesired (configured : Bool) (installations : List KnownInstallation)
    (acknowledged : Option (String × LocalMaterialization)) (rollout : Option AppRollout)
    (restartBlocked : Bool) : RestartProgram (Except Failure Unit) := do
  if ¬configured ∨ installations = [] then
    return .ok ()
  else
    let version := latestKnownVersion installations
    if version = "" then
      return .error ⟨"select desired version for app " ++ app, none⟩
    else
      match findInstallation installations version with
      | none =>
        return .error ⟨rolloutContext "find desired installation for app" app version, none⟩
      | some desired =>
        match ← p.acknowledgeDesired app version desired acknowledged with
        | .error e            => return .error e
        | .ok materialization =>
          if materialization.restartedAt ≠ 0 then
            return .ok ()
          else
            p.reconcilePending app version desired materialization rollout restartBlocked

-- Returns the rollout and whether restarts still have to wait, and nothing if the rollout is not
-- the current one anymore.
def endEnrollment (rollout : AppRollout) :
    RestartProgram (Except Failure (Option (AppRollout × Bool))) := do
  if rollout.state ≠ .enrolling then
    return .ok (some (rollout, false))
  else if (← now) < rollout.enrollmentEndsAt then
    return .ok (some (rollout, true))
  else
    match ← send (.markForRollout .restarting rollout) with
    | .ok rollout => return .ok (some (rollout, false))
    | .error e =>
      if e.Is .appRolloutEpochMismatch then
        return .ok none
      else
        return .error (.wrap (rolloutContext "start rollout restart phase for" app version) e)

-- Returns the rollout if it has not become terminal.
def updateRollout (rollout : AppRollout) : RestartProgram (Except Failure (Option AppRollout)) := do
  if rollout.state = .restarting then
    return (← send (.updateRolloutOutcome rollout)).map fun terminal =>
      if terminal then none else some rollout
  else
    return .ok (some rollout)

def reconcileUnaccepted (rollout : AppRollout) : RestartProgram (Except Failure Unit) := do
  if rollout.mode = .heartbeat then
    return (← send (.updateHeartbeatRolloutOutcome rollout)).map fun _ => ()
  else if (← now) < rollout.deadline then
    return .ok ()
  else
    let failedAt ← now
    match ← send (.markForRollout (.failed failedAt) rollout) with
    | .ok _ => return .ok ()
    | .error e =>
      if e.Is .appRolloutEpochMismatch then
        return .ok ()
      else
        return .error
          (.wrap (rolloutContext "fail rollout without accepted version" app version) e)

def acknowledgeRollout (configured : Bool) (rollout : AppRollout) :
    RestartProgram (Except Failure (Option (String × LocalMaterialization))) := do
  if configured then
    return (← p.ensureAcknowledged app version rollout.createdAt).map fun m => some (version, m)
  else
    return .ok none

def reconcileRollout (configured : Bool) (installations : List KnownInstallation)
    (rollout : AppRollout) : RestartProgram (Except Failure Unit) := do
  let version := trimSpace rollout.version
  if findInstallation installations version = none then
    reconcileUnaccepted app version rollout
  else
    match ← p.acknowledgeRollout app version configured rollout with
    | .error e => return .error e
    | .ok acknowledged =>
      match ← endEnrollment app version rollout with
      | .error e                             => return .error e
      | .ok none                             => return .ok ()
      | .ok (some (rollout, restartBlocked)) =>
        match ← updateRollout rollout with
        | .error e    => return .error e
        | .ok rollout =>
          p.reconcileDesired app configured installations acknowledged rollout restartBlocked

def reconcileApp (app : String) (installations : List KnownInstallation)
    (rollout : Option AppRollout) : RestartProgram (Except Failure Unit) := do
  let app := trimSpace app
  if app = "" then
    return .ok ()
  else
    let configured ← p.configured app
    match rollout with
    | none => p.reconcileDesired app configured installations none none false
    | some rollout => p.reconcileRollout app configured installations rollout

-- `groupInstallationsByApp`, for a single app.
def installationsOf (known : List KnownInstallation) (app : String) : List KnownInstallation :=
  (known.filter (trimSpace ·.appName = app)).insertionSort fun left right =>
    left.updatedAt < right.updatedAt ∨
    (left.updatedAt = right.updatedAt ∧ left.version ≤ right.version)

-- An error is counted for the desired version of the app.
def recordFailure (installations : List KnownInstallation) (e : Failure) :
    RestartProgram (List Failure) := do
  let version := latestKnownVersion installations
  if version = "" then
    return [e]
  else
    match ← send (.recordFailure app version) with
    | .ok () => return [e]
    | .error e' =>
      return [e, .wrap (rolloutContext "record reconciliation failure for" app version) e']

-- The first loop of `ReconcileOnce`.
def reconcileInstalled (known : List KnownInstallation) (active : GoMap AppRollout) :
    List String → RestartProgram (List Failure)
  | [] => return []
  | app :: apps => do
    let installations := installationsOf known app
    match ← p.reconcileApp app installations (active.lookup app) with
    | .ok ()   => reconcileInstalled known active apps
    | .error e =>
      let errors ← recordFailure app installations e
      return errors ++ (← reconcileInstalled known active apps)

-- The second loop of `ReconcileOnce`.
def reconcileOthers (active : GoMap AppRollout) : List String → RestartProgram (List Failure)
  | [] => return []
  | app :: apps => do
    match ← p.reconcileApp app [] (active.lookup app) with
    | .ok ()   => reconcileOthers active apps
    | .error e => return e :: (← reconcileOthers active apps)

-- Go visits the apps of each loop in an arbitrary order.
def reconcileOnce (order : GoMap.VisitOrder) : RestartProgram (List Failure) := do
  match ← send .listAllKnownVersions with
  | .error e => return [.wrap "list catalog known versions" e]
  | .ok known =>
    match ← send .listByInstance with
    | .error e => return [.wrap "list instance materializations" e]
    | .ok ()   =>
      match ← send .listActive with
      | .error e   => return [.wrap "list active app rollouts" e]
      | .ok active =>
        let installed := CatalogPoller.installedApps (known.map (·.toAppInstallation))
        let active := CatalogPoller.activeByApp active
        let others := active.sortedKeys.filter (· ∉ installed)
        let errors ← p.reconcileInstalled known active (order.visit 0 installed)
        return errors ++ (← p.reconcileOthers active (order.visit 1 others))

def run : List GoMap.VisitOrder → RestartProgram Unit
  | [] => return ()
  | order :: orders => do
    let _ ← p.reconcileOnce order
    run orders

-- A poller that has just been created. The records of its instance can have any contents.
def config (orders : List GoMap.VisitOrder) (clock : Int) (materializations : MaterializationMap) :
    Config Unit RestartCall RestartCall.Response Unit RestartMemory where
  mem := { clock, materializations }
  prog _ := p.run orders

-- A time that is remembered for an app is not older than the last stop of the app.
def Recent (s : RestartMemory) (app : String) (stoppedAt : Int) : Prop :=
  ∀ lastStopped ∈ s.lastStopped app, truncate millisecond lastStopped ≤ stoppedAt

instance {s : RestartMemory} {app : String} {stoppedAt : Int} : Decidable (Recent s app stoppedAt) :=
  inferInstanceAs <| Decidable (∀ _ ∈ _, _)

-- The stop times that are looked up are recent: the one already in `stoppedAt` when an app has been
-- stopped, and the one in the record that decides whether it is stopped.
def recentStops (_ : Unit) : RestartCall → RestartMemory → Prop
  | .rememberStoppedAt app _, s => ∀ stoppedAt ∈ s.stoppedAt app, Recent s app stoppedAt
  | .get .earliestStoppedAt app version, s =>
    ∀ materialization ∈ (Materializations.find s.materializations app version).toOption,
      materialization.stoppedAt ≠ 0 → Recent s app materialization.stoppedAt
  | _, _ => True

instance {u : Unit} {c : RestartCall} {s : RestartMemory} : Decidable (recentStops u c s) :=
  match c with
  | .rememberStoppedAt _ _ => inferInstanceAs (Decidable (∀ _ ∈ _, _))
  | .get .earliestStoppedAt _ _ => inferInstanceAs (Decidable (∀ _ ∈ _, _))
  | .get .ensureDesiredMaterialized _ _ | .get .desiredVersionMaterialized _ _ => .isTrue trivial
  | .get .markPendingStopped _ _ | .get .markAllRestarted _ _ => .isTrue trivial
  | .now | .listAllKnownVersions | .listActive | .listByInstance | .restartReady => .isTrue trivial
  | .markForRollout _ _ | .updateRolloutOutcome _ | .updateHeartbeatRolloutOutcome _ => .isTrue trivial
  | .acknowledge _ _ _ _ _ | .mark _ _ _ _ | .recordFailure _ _ | .configured _ => .isTrue trivial
  | .acceptsRegistry _ _ | .restartable _ | .runningVersion _ | .stopApp _ => .isTrue trivial
  | .startApp _ _ | .ensure _ | .pruneSuperseded _ _ | .supersededPruned _ _ => .isTrue trivial
  | .installedPackageReady _ _ | .listed _ _ | .setListed _ _ _ => .isTrue trivial
  | .localStoppedAt _ | .forgetStoppedAt _ => .isTrue trivial

-- The time between the last stop and a start, on the clock of the poller.
def Delayed (d : Int) (start : AppStart) : Prop :=
  ∀ lastStopped ∈ start.lastStopped,
    truncate millisecond lastStopped + d ≤ truncate millisecond start.time

instance {d : Int} : DecidablePred (Delayed d) :=
  fun _ => inferInstanceAs <| Decidable (∀ _ ∈ _, _)

end LocalPoller
end AppRegistry
