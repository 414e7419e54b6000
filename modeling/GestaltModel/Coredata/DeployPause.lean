import GestaltModel.Coredata.SourceVersion

namespace Coredata

namespace GestaltdSourceVersionService

def markTemporalWorkersPromoted (now : Int) (sourceVersion : String) (promotedAt : Int)
    (db : RolloutDB) : Except Failure (RolloutDB × GestaltdSourceVersionState) := do
  let sourceVersion := Text.trimSpace sourceVersion
  require (sourceVersion ≠ "") "mark temporal workers promoted: source version is required"
  let promotedAt := normalizedSourceVersionTime now promotedAt
  let state := db.source.getD {}
  if Text.trimSpace state.temporalWorkersPromotedSourceVersion = sourceVersion ∧
      state.temporalWorkersPromotedAt ≠ 0 then
    return (db, state)
  else
    let state := { state with
      temporalWorkersPromotedSourceVersion := sourceVersion
      temporalWorkersPromotedAt := promotedAt }
    return ({ db with source := some (gestaltdSourceVersionStateRecord now state) }, state)

end GestaltdSourceVersionService

-- The operations on the state of the source version, each of which is a transaction.
inductive SourceVersionOperation
  | acquireAppDeployPause (owner token : String)
  | releaseAppDeployPause (owner token : String)
  | createAppRollout (rollout : AppRollout)
  | activateWithRolloutMode (activation : Activation)
  | markTemporalWorkersPromoted (sourceVersion : String) (promotedAt : Int)
  deriving DecidableEq, Repr

namespace SourceVersionOperation

def execute (now : Int) (db : RolloutDB) : SourceVersionOperation → Except Failure RolloutDB
  | acquireAppDeployPause owner token => do
    return (← GestaltdSourceVersionService.changeAppDeployPause now owner token true db).1
  | releaseAppDeployPause owner token => do
    return (← GestaltdSourceVersionService.changeAppDeployPause now owner token false db).1
  | createAppRollout rollout => do
    return (← GestaltdSourceVersionService.createAppRollout now rollout db).1
  | activateWithRolloutMode activation => do
    return (← GestaltdSourceVersionService.activateWithRolloutMode now activation db).1
  | markTemporalWorkersPromoted sourceVersion promotedAt => do
    return (← GestaltdSourceVersionService.markTemporalWorkersPromoted now sourceVersion promotedAt
      db).1

def after (now : Int) (db : RolloutDB) (op : SourceVersionOperation) : RolloutDB :=
  match op.execute now db with
  | .ok db' => db'
  | .error _ => db

def run (db : RolloutDB) (ops : List (Int × SourceVersionOperation)) : RolloutDB :=
  ops.foldl (fun db op => op.2.after op.1 db) db

end SourceVersionOperation

-- The state that operations find, which is empty as long as there is no record.
def RolloutDB.sourceState (db : RolloutDB) : GestaltdSourceVersionState :=
  db.source.getD {}

-- The parts of the state, each of which belongs to one kind of operation.
inductive StatePart
  | activation
  | pause
  | promotion
  deriving DecidableEq, Repr

-- A part is the same in two states. A time of the promotion that is not set does not count.
def StatePart.Same (state state' : GestaltdSourceVersionState) : StatePart → Prop
  | activation =>
    state'.currentSourceVersion = state.currentSourceVersion ∧
    state'.minimumHealthyInstances = state.minimumHealthyInstances
  | pause =>
    state'.appDeployPauseOwner = state.appDeployPauseOwner ∧
    state'.appDeployPauseToken = state.appDeployPauseToken
  | promotion =>
    state'.temporalWorkersPromotedSourceVersion = state.temporalWorkersPromotedSourceVersion ∧
    (state.temporalWorkersPromotedAt ≠ 0 →
      state'.temporalWorkersPromotedAt = state.temporalWorkersPromotedAt)

-- A state as it can be read from its record.
structure GestaltdSourceVersionState.Encoded (state : GestaltdSourceVersionState) : Prop where
  current : Text.Trimmed state.currentSourceVersion
  promoted : Text.Trimmed state.temporalWorkersPromotedSourceVersion
  promotedAt : Time.truncate Time.millisecond state.temporalWorkersPromotedAt =
    state.temporalWorkersPromotedAt
  owner : Text.Trimmed state.appDeployPauseOwner
  token : Text.Trimmed state.appDeployPauseToken

def RolloutDB.Encoded (db : RolloutDB) : Prop :=
  ∀ state ∈ db.source, state.Encoded

-- The state names an owner and a token of a pause.
def RolloutDB.PausedBy (db : RolloutDB) (owner token : String) : Prop :=
  db.sourceState.appDeployPauseOwner = owner ∧ db.sourceState.appDeployPauseToken = token

namespace SourceVersionOperation

def owns : SourceVersionOperation → Option StatePart
  | acquireAppDeployPause .. => some .pause
  | releaseAppDeployPause .. => some .pause
  | createAppRollout .. => none
  | activateWithRolloutMode .. => some .activation
  | markTemporalWorkersPromoted .. => some .promotion

def Fails (now : Int) (db : RolloutDB) (op : SourceVersionOperation) (e : Failure) : Prop :=
  op.execute now db = .error e ∧ op.after now db = db

def Releases (owner token : String) : SourceVersionOperation → Prop
  | releaseAppDeployPause owner' token' =>
    Text.trimSpace owner' = Text.trimSpace owner ∧ Text.trimSpace token' = Text.trimSpace token
  | _ => False

-- No operation of a sequence succeeds to release the pause of an owner with a token.
def Unreleased (owner token : String) : RolloutDB → List (Int × SourceVersionOperation) → Prop
  | _, [] => True
  | db, (now, op) :: ops =>
    (op.Releases owner token → ∃ e, op.execute now db = .error e) ∧
    Unreleased owner token (op.after now db) ops

end SourceVersionOperation
end Coredata
