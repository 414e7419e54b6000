import GestaltModel.AppRegistry.Catalog

namespace AppRegistry

def firstInstallFromVersion : String := "registry:first-install"

inductive DeploymentState
  | available
  | expired
  | desired
  | redeployable
  | locked
  deriving DecidableEq, Repr

def errAppVersionAlreadyInstalled : Failure where
  text := "app version is already installed"
  sentinel := some .appVersionAlreadyInstalled

def errAppVersionExpired : Failure where
  text := "app version is expired"
  sentinel := some .appVersionExpired

def errAppVersionLocked : Failure where
  text := "app version is permanently locked"
  sentinel := some .appVersionLocked

-- The first half of `ApplyDesiredVersionTransition`, for a version that is replaced.
def retireVersion (index : RetentionIndex) (version : String) (policy : RetentionPolicy)
    (now : Int) : RetentionIndex :=
  let entry := (index.versions.lookup version).getD
    { publishedAt := now, everDeployed := true, expiresAt := none }
  let entry := { entry with
    everDeployed := true
    expiresAt := cloneTimePtr (now + policy.deployedRetention) }
  { index with versions := index.versions.insert version entry }

-- The second half, for a version that becomes the desired one.
def adoptVersion (index : RetentionIndex) (version : String) (now : Int) : RetentionIndex :=
  let entry := (index.versions.lookup version).getD
    { publishedAt := now, everDeployed := false, expiresAt := none }
  let entry := { entry with everDeployed := true, expiresAt := none }
  { index with versions := index.versions.insert version entry }

-- `ApplyDesiredVersionTransition` returns the updated index, and whether it has changed.
def applyDesiredVersionTransition (index : RetentionIndex) (fromVersion toVersion : String)
    (policy : RetentionPolicy) (now : Int) : RetentionIndex × Bool :=
  let fromVersion := Text.trimSpace fromVersion
  let toVersion := Text.trimSpace toVersion
  let (index, changed) :=
    if fromVersion ≠ "" ∧ fromVersion ≠ firstInstallFromVersion then
      (retireVersion index fromVersion policy now, true)
    else
      (index, false)
  if toVersion ≠ "" then (adoptVersion index toVersion now, true) else (index, changed)

-- The state of a version and the time until which it can be deployed.
def versionDeploymentState (version desiredVersion : String) (retention : RetentionIndex)
    (policy : RetentionPolicy) (now : Int) : DeploymentState × Option Int :=
  let version := Text.trimSpace version
  let desiredVersion := Text.trimSpace desiredVersion
  if version = desiredVersion ∧ version ≠ "" then
    (.desired, none)
  else
    match retention.versions.lookup version with
    | none => (.available, none)
    | some entry =>
      if entry.everDeployed then
        match entry.expiresAt.filter (· ≠ 0) with
        | none           => (.redeployable, none)
        | some expiresAt =>
          if now < expiresAt then (.redeployable, some expiresAt) else (.locked, some expiresAt)
      else
        match entry.expiresAt.filter (· ≠ 0) with
        | some expiresAt => if now < expiresAt then (.available, none) else (.expired, none)
        | none           =>
          let unusedDeadline := entry.publishedAt + policy.unusedRetention
          if now < unusedDeadline then (.available, none) else (.expired, none)

def versionSelectable (version desiredVersion : String) (retention : RetentionIndex)
    (policy : RetentionPolicy) (now : Int) : Except Failure Unit :=
  match (versionDeploymentState version desiredVersion retention policy now).1 with
  | .available => .ok ()
  | .redeployable => .ok ()
  | .desired => .error errAppVersionAlreadyInstalled
  | .expired => .error errAppVersionExpired
  | .locked => .error errAppVersionLocked

-- The calls that change the retention catalog of an app, except for its prune.
inductive RetentionEvent
  | publish (version : String) (publishedAt : Int)
  | transition (fromVersion toVersion : String) (now : Int)
  deriving DecidableEq, Repr

def RetentionEvent.target? : RetentionEvent → Option String
  | publish _ _ => none
  | transition _ toVersion _ => some (Text.trimSpace toVersion)

-- The events so far, the latest one first.
abbrev RetentionHistory := List RetentionEvent

namespace RetentionHistory

def catalog (policy : RetentionPolicy) : RetentionHistory → RetentionIndex
  | [] => .empty
  | .publish version publishedAt :: h =>
    (upsertPublishedRetention (catalog policy h) version publishedAt policy).1
  | .transition fromVersion toVersion now :: h =>
    (applyDesiredVersionTransition (catalog policy h) fromVersion toVersion policy now).1

def current? (h : RetentionHistory) : Option String :=
  h.findSome? RetentionEvent.target?

def desiredVersion (h : RetentionHistory) : String :=
  (current? h).getD ""

-- Each transition starts at the version to which the previous one went.
def Chained : RetentionHistory → Prop
  | [] => True
  | .publish _ _ :: h => Chained h
  | .transition fromVersion _ _ :: h =>
    Text.trimSpace fromVersion = (current? h).getD firstInstallFromVersion ∧ Chained h

def Deployed (h : RetentionHistory) (version : String) : Prop :=
  version ≠ "" ∧ ∃ event ∈ h, event.target? = some version

instance {h : RetentionHistory} {version : String} : Decidable (Deployed h version) :=
  inferInstanceAs <| Decidable (_ ∧ _)

def publishedAt? (h : RetentionHistory) (version : String) : Option Int :=
  h.findSome? fun
    | .publish version' publishedAt =>
      if Text.trimSpace version' = version then some publishedAt else none
    | .transition _ _ _ => none

def replacedAt? (h : RetentionHistory) (version : String) : Option Int :=
  h.findSome? fun
    | .publish _ _ => none
    | .transition fromVersion toVersion now =>
      if Text.trimSpace fromVersion = version ∧ Text.trimSpace toVersion ≠ version then
        some now
      else
        none

def dictatedState (policy : RetentionPolicy) (h : RetentionHistory) (version : String) (now : Int) :
    DeploymentState × Option Int :=
  if version = desiredVersion h ∧ version ≠ "" then
    (.desired, none)
  else if Deployed h version then
    match (replacedAt? h version).bind fun t => cloneTimePtr (t + policy.deployedRetention) with
    | none => (.redeployable, none)
    | some deadline =>
      if now < deadline then (.redeployable, some deadline) else (.locked, some deadline)
  else
    match publishedAt? h version with
    | none => (.available, none)
    | some publishedAt =>
      if now < publishedAt + policy.unusedRetention then (.available, none) else (.expired, none)

end RetentionHistory
end AppRegistry
