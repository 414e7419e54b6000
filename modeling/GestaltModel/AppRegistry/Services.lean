import GestaltModel.AppRegistry.FleetState
import GestaltModel.Coredata.ChangeRequests
import GestaltModel.Coredata.Rollout
import GestaltModel.Coredata.SourceVersion
import GestaltModel.Interleaving.Execution

namespace AppRegistry

open Coredata Interleaving

structure AppInstallation where
  appName : String
  version : String
  deriving DecidableEq, Repr

structure AppInstanceMaterialization where
  sourceVersion : String
  acknowledgedAt : Int
  restartedAt : Int
  deriving DecidableEq, Repr

-- What the checks before an install has any effect have found out.
structure Admission where
  fromVersion : String
  deployedRetention : Int
  deriving DecidableEq, Repr

-- The calls of pollers and installers, each transaction one call. `operate` is any transaction on
-- the rollouts by somebody else.
inductive ServiceCall
  | now
  -- `AppRolloutService` and `GestaltdSourceVersionService`.
  | listActive
  | create (rollout : AppRollout)
  | createAppRollout (rollout : AppRollout)
  | mark (mark : AppRolloutService.Mark) (app version : String)
  | markForRollout (mark : AppRolloutService.Mark) (expected : AppRollout)
  | evaluateHeartbeatRollout (expected : AppRollout) (evaluation : HeartbeatRolloutEvaluation)
  | operate (time : Int) (op : RolloutOperation)
  -- `AppVersionChangeRequestService`.
  | listAllKnownVersions
  | latestRevisionIDForVersion (app version : String)
  | appendRequest (request : AppVersionChangeRequest)
  -- `AppVersionRolloutOutcomeService`.
  | ensureStore
  | getOutcome (id : String)
  | addOutcome (outcome : AppVersionRolloutOutcome)
  -- `GestaltdInstanceHeartbeatService` and `AppInstanceMaterializationService`.
  | listFreshBySourceVersion (sourceVersion : String) (cutoff : Int)
  | listByInstance
  | listByAppVersion (app version : String)
  | ensureAcknowledged (app version : String)
  -- `restartApp` brings the app to its desired version and returns whether it was restarted.
  | configured (app : String)
  | restartApp (app : String) (restartBlocked : Bool)
  | beforeRolloutComplete (app version : String)
  | admitInstall (app version : String)

-- What the stores in the model do not determine about the answer to a call.
structure Answer where
  time : Int := 0
  fault : Option Failure := none
  uuid : UUID := default
  yes : Bool := true
  installations : List AppInstallation := []
  heartbeats : List GestaltdInstanceHeartbeat := []
  materializations : List AppInstanceMaterialization := []
  admission : Admission := ⟨"registry:first-install", 0⟩

-- The stores that pollers and installers change, with a record `γ` of what happened.
structure ServiceMemory (γ : Type) where
  db : RolloutDB := {}
  requests : ChangeRequestStore := ∅
  outcomes : RolloutOutcomeStore := ∅
  record : γ

namespace ServiceCall

abbrev Response : ServiceCall → Type
  | now => Int
  | listActive => Except Failure (List AppRollout)
  | create _ => Except Failure AppRollout
  | createAppRollout _ => Except Failure AppRollout
  | mark _ _ _ => Except Failure AppRollout
  | markForRollout _ _ => Except Failure AppRollout
  | evaluateHeartbeatRollout _ _ => Except Failure (AppRollout × Bool)
  | operate _ _ => Except Failure Unit
  | listAllKnownVersions => Except Failure (List AppInstallation)
  | latestRevisionIDForVersion _ _ => Except Failure String
  | appendRequest _ => Except Failure AppVersionChangeRequest
  | ensureStore => Except Failure Unit
  | getOutcome _ => Except Failure AppVersionRolloutOutcome
  | addOutcome _ => Except Failure Unit
  | listFreshBySourceVersion _ _ => Except Failure (List GestaltdInstanceHeartbeat)
  | listByInstance => Except Failure Unit
  | listByAppVersion _ _ => Except Failure (List AppInstanceMaterialization)
  | ensureAcknowledged _ _ => Except Failure Unit
  | configured _ => Bool
  | restartApp _ _ => Except Failure Bool
  | beforeRolloutComplete _ _ => Except Failure Bool
  | admitInstall _ _ => Except Failure Admission

variable {γ : Type}

-- The answer to a call that only reads, if it does not fail.
def reads (a : Answer) (x : Except Failure α) : Except Failure α :=
  match a.fault with
  | some f => .error f
  | none => x

-- A transaction that updates a store fails as a whole or not at all.
def writes (a : Answer) (s : ServiceMemory γ) (x : Except Failure (σ × α))
    (update : σ → ServiceMemory γ) : ServiceMemory γ × Except Failure α :=
  match reads a x with
  | .ok (store, r) => (update store, .ok r)
  | .error e => (s, .error e)

def setRollouts (s : ServiceMemory γ) (rollouts : RolloutStore) : ServiceMemory γ :=
  { s with db.rollouts := rollouts }

def exec (a : Answer) (s : ServiceMemory γ) : (c : ServiceCall) → ServiceMemory γ × c.Response
  | now => (s, a.time)
  | listActive => (s, reads a (.ok (AppRolloutService.listActive s.db.rollouts)))
  | create rollout =>
    writes a s (AppRolloutService.create a.time rollout s.db.rollouts) (setRollouts s)
  | createAppRollout rollout =>
    writes a s (GestaltdSourceVersionService.createAppRollout a.time rollout s.db)
      ({ s with db := · })
  | mark m app version =>
    writes a s (AppRolloutService.mark a.time m app version s.db.rollouts) (setRollouts s)
  | markForRollout m expected =>
    writes a s (AppRolloutService.markForRollout a.time m expected s.db.rollouts) (setRollouts s)
  | evaluateHeartbeatRollout expected evaluation =>
    writes a s (AppRolloutService.evaluateHeartbeatRollout a.time expected evaluation s.db.rollouts)
      (setRollouts s)
  | operate time op =>
    writes a s ((s.db.execute time op).map (·, ())) ({ s with db := · })
  | listAllKnownVersions => (s, reads a (.ok a.installations))
  | latestRevisionIDForVersion app version =>
    (s, reads a (AppVersionChangeRequestService.latestRevisionIDForVersion app version s.requests))
  | appendRequest request =>
    writes a s (AppVersionChangeRequestService.appendRequest a.time a.uuid request s.requests)
      ({ s with requests := · })
  | ensureStore => (s, reads a (.ok ()))
  | getOutcome id => (s, reads a (s.outcomes.get id))
  | addOutcome outcome =>
    writes a s ((s.outcomes.add outcome).map (·, ())) ({ s with outcomes := · })
  | listFreshBySourceVersion _ _ => (s, reads a (.ok a.heartbeats))
  | listByInstance => (s, reads a (.ok ()))
  | listByAppVersion _ _ => (s, reads a (.ok a.materializations))
  | ensureAcknowledged _ _ => (s, reads a (.ok ()))
  | configured _ => (s, a.yes)
  | restartApp _ _ => (s, reads a (.ok a.yes))
  | beforeRolloutComplete _ _ => (s, reads a (.ok a.yes))
  | admitInstall _ _ => (s, reads a (.ok a.admission))

end ServiceCall

-- The services as a shared memory. Every answered call is noted with the stores after it.
@[reducible]
def serviceSemantics {ι γ : Type}
    (note : ι → (c : ServiceCall) → c.Response → ServiceMemory γ → γ) :
    Semantics ι ServiceCall ServiceCall.Response (ServiceMemory γ) where
  Oracle := Answer
  Act := Empty
  act a := a.elim
  exec i c a s :=
    let (s, r) := c.exec a s
    ({ s with record := note i c r s }, r)

abbrev ServiceProgram (α : Type) := Program ServiceCall ServiceCall.Response α

namespace ServiceProgram

def invoke (c : ServiceCall) : ServiceProgram c.Response :=
  .perform c

@[simp]
theorem invoke_bind (c : ServiceCall) (f : c.Response → ServiceProgram α) :
    (invoke c >>= f) = .call c f :=
  rfl

-- The `now` function of pollers and installers.
def now : ServiceProgram Int := do
  return Time.truncate Time.millisecond (← invoke .now)

end ServiceProgram
end AppRegistry
