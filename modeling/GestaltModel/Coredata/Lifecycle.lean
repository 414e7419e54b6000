import Mathlib.Logic.Relation
import GestaltModel.Coredata.SourceVersion

namespace Coredata

open GestaltdSourceVersionService

-- What tells one rollout of an app from another one.
structure RolloutEpoch where
  version : String
  createdAt : Int
  targetSourceVersion : String
  mode : AppRolloutMode
  deriving DecidableEq, Repr

namespace AppRollout

def epoch (rollout : AppRollout) : RolloutEpoch where
  version := Text.trimSpace rollout.version
  createdAt := rollout.createdAt
  targetSourceVersion := Text.trimSpace rollout.targetSourceVersion
  mode := rollout.mode

-- What holds for every rollout that is stored.
structure Consistent (rollout : AppRollout) : Prop where
  mode : rollout.mode = .enrollment ∨ rollout.mode = .heartbeat
  completedAt : rollout.completedAt ≠ 0 ↔ rollout.state = .complete
  failedAt : rollout.failedAt ≠ 0 ↔ rollout.state = .failed
  summary : rollout.failureSummary ≠ none → rollout.state = .failed
  enrolling : rollout.state = .enrolling → rollout.mode = .enrollment
  healthy : rollout.healthySince ≠ 0 →
    rollout.heartbeatEvaluatedAt ≠ 0 ∧ rollout.healthySince ≤ rollout.heartbeatEvaluatedAt
  heartbeat : rollout.mode = .heartbeat →
    rollout.targetSourceVersion ≠ "" ∧ 0 < rollout.minimumHealthyInstances

-- How a rollout can change within one epoch.
structure Continues (before after : AppRollout) : Prop where
  evaluated : before.heartbeatEvaluatedAt ≠ 0 →
    after.heartbeatEvaluatedAt ≠ 0 ∧ before.heartbeatEvaluatedAt ≤ after.heartbeatEvaluatedAt
  restarting : before.state = .restarting → after.state ≠ .enrolling
  terminal : ¬IsActiveRolloutState before.state → after = before

def Unstarted (rollout : AppRollout) : Prop :=
  rollout.completedAt = 0 ∧ rollout.failedAt = 0 ∧ rollout.healthySince = 0 ∧
  rollout.heartbeatEvaluatedAt = 0 ∧ rollout.failureSummary = none

instance : DecidablePred Unstarted :=
  fun _ => inferInstanceAs <| Decidable (_ ∧ _)

end AppRollout

namespace RolloutOperation

def IsStart : RolloutOperation → Prop
  | create _ | createAppRollout _ | activate _ => True
  | _ => False

-- New rollouts have not started, and the times of other operations are not those for no time.
def Admissible (now : Int) : RolloutOperation → Prop
  | create rollout | createAppRollout rollout => rollout.Unstarted
  | mark m _ _ | markForRollout m _ => ∀ t ∈ m.time?, normalizedRolloutTime now t ≠ 0
  | evaluate _ evaluation => normalizedRolloutTime now evaluation.evaluatedAt ≠ 0
  | activate _ => True
  | changeAppDeployPause .. => True

instance {now : Int} {op : RolloutOperation} : Decidable (op.Admissible now) :=
  match op with
  | create _ | createAppRollout _ => inferInstanceAs <| Decidable (AppRollout.Unstarted _)
  | mark _ _ _ | markForRollout _ _ => inferInstanceAs <| Decidable (∀ _ ∈ _, _)
  | evaluate _ _ => inferInstanceAs <| Decidable (_ ≠ _)
  | activate _ | changeAppDeployPause .. => .isTrue trivial

-- New rollouts have not started, and evaluations have a time.
def Dated (now : Int) : RolloutOperation → Prop
  | create rollout | createAppRollout rollout => rollout.Unstarted
  | evaluate _ evaluation => normalizedRolloutTime now evaluation.evaluatedAt ≠ 0
  | _ => True

instance {now : Int} {op : RolloutOperation} : Decidable (op.Dated now) :=
  match op with
  | create _ | createAppRollout _ => inferInstanceAs <| Decidable (AppRollout.Unstarted _)
  | evaluate _ _ => inferInstanceAs <| Decidable (_ ≠ _)
  | mark _ _ _ | markForRollout _ _ => .isTrue trivial
  | activate _ | changeAppDeployPause .. => .isTrue trivial

end RolloutOperation

namespace RolloutDB

def Step (db db' : RolloutDB) : Prop :=
  ∃ now op, RolloutOperation.Admissible now op ∧ db.after now op = db'

-- One operation within an epoch of the app. If it begins an epoch, the rollouts that it changes
-- differ from the replaced ones in their epochs.
def EpochStep (app : String) (epoch : RolloutEpoch) (db db' : RolloutDB) : Prop :=
  ∃ now op, RolloutOperation.Admissible now op ∧ db.after now op = db' ∧
    (∃ r ∈ db.rollout? app, r.epoch = epoch) ∧ (∃ r ∈ db'.rollout? app, r.epoch = epoch) ∧
    (op.IsStart → ∀ app, ∀ r ∈ db.rollout? app, ∀ r' ∈ db'.rollout? app, r'.epoch = r.epoch → r' = r)

-- Whether an operation creates the rollout of the app again or retargets it.
def Starts (db : RolloutDB) (now : Int) (app : String) : RolloutOperation → Prop
  | .create rollout =>
    Text.trimSpace rollout.app = app ∧ (db.execute now (.create rollout)).isOk
  | .createAppRollout rollout =>
    Text.trimSpace rollout.app = app ∧ (db.execute now (.createAppRollout rollout)).isOk
  | .activate a =>
    ∃ requested ∈ (requestedMinimum a).toOption,
    ∃ r ∈ db.rollout? app, Retargets a
      (activationPlan now a requested (db.source.getD {})) r
  | _ => False

instance {db : RolloutDB} {now : Int} {app : String} {op : RolloutOperation} :
    Decidable (db.Starts now app op) :=
  match op with
  | .create _ | .createAppRollout _ => inferInstanceAs <| Decidable (_ ∧ _)
  | .activate _ => inferInstanceAs <| Decidable (∃ _ ∈ _, ∃ _ ∈ _, _)
  | .mark _ _ _ | .markForRollout _ _ => .isFalse nofun
  | .evaluate _ _ | .changeAppDeployPause .. => .isFalse nofun

-- A rollout that is created again or retargeted is newer than the one before.
def Renews (db : RolloutDB) (time : Int) (op : RolloutOperation) : Prop :=
  op.IsStart → ∀ rec ∈ db.rollouts.getAll, ∀ rollout ∈ (db.after time op).rollout? rec.app,
    rollout = recordToAppRollout rec ∨ rec.createdAt < rollout.createdAt

instance {db : RolloutDB} {time : Int} {op : RolloutOperation} : Decidable (db.Renews time op) :=
  match op with
  | .create _ | .createAppRollout _ | .activate _ =>
    decidable_of_iff (∀ rec ∈ db.rollouts.getAll, ∀ rollout ∈ (db.after time _).rollout? rec.app,
      rollout = recordToAppRollout rec ∨ rec.createdAt < rollout.createdAt)
      ⟨fun h _ => h, fun h => h trivial⟩
  | .mark _ _ _ | .markForRollout _ _ | .evaluate _ _ | .changeAppDeployPause .. => .isTrue nofun

def run (db : RolloutDB) : List (Int × RolloutOperation) → RolloutDB
  | [] => db
  | (now, op) :: l => (db.after now op).run l

-- Whether one of the operations creates the rollout of the app again or retargets it.
def Restarted (app : String) (db : RolloutDB) : List (Int × RolloutOperation) → Prop
  | [] => False
  | (now, op) :: l => db.Starts now app op ∨ Restarted app (db.after now op) l

-- Whenever the rollout is created again or retargeted, its epoch differs from the expected one's.
def ChangesEpoch (expected : AppRollout) (db : RolloutDB) : List (Int × RolloutOperation) → Prop
  | [] => True
  | (now, op) :: l =>
    (db.Starts now expected.app op →
      ∀ r ∈ (db.after now op).rollout? expected.app, r.epoch ≠ expected.epoch) ∧
    ChangesEpoch expected (db.after now op) l

end RolloutDB
end Coredata
