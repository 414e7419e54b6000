import GestaltModel.Coredata.SourceVersion

namespace Coredata

-- An accepted evaluation: its time, and whether it is healthy.
structure Observation where
  time : Int
  healthy : Bool
  deriving DecidableEq, Repr

namespace Observation

-- The first of the latest healthy observations. The newest one is the first in the list.
def healthySince? (history : List Observation) : Option Int :=
  (history.takeWhile (·.healthy)).getLast?.map (·.time)

end Observation

namespace HeartbeatRollout

-- A call of `EvaluateHeartbeatRollout`, and what its clock shows.
structure Call where
  now : Int
  evaluation : HeartbeatRolloutEvaluation
  deriving DecidableEq, Repr

def Call.time (call : Call) : Int :=
  normalizedRolloutTime call.now call.evaluation.evaluatedAt

def Call.observation (call : Call) : Observation :=
  ⟨call.time, call.evaluation.healthy⟩

def evaluate (expected : AppRollout) (db : RolloutDB) (call : Call) : RolloutDB :=
  db.after call.now (.evaluate expected call.evaluation)

def Accepts (expected : AppRollout) (db : RolloutDB) (call : Call) : Prop :=
  ∃ r ∈ db.rollout? (Text.trimSpace expected.app), ¬AppRolloutService.Ignored r call.time

instance {expected : AppRollout} {db : RolloutDB} {call : Call} :
    Decidable (Accepts expected db call) :=
  inferInstanceAs <| Decidable (∃ _ ∈ _, _)

-- The stores after calls for one expected rollout, the newest first, and the accepted observations.
def evaluateAll (expected : AppRollout) (db : RolloutDB) :
    List Call → RolloutDB × List Observation
  | [] => (db, [])
  | call :: calls =>
    let (db, history) := evaluateAll expected db calls
    (evaluate expected db call,
      if Accepts expected db call then call.observation :: history else history)

end HeartbeatRollout
end Coredata
