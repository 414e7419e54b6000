import GestaltModel.AppRegistry.Poller
import GestaltModel.Coredata.Lifecycle

namespace AppRegistry.CompletionGate

open Coredata Interleaving ServiceProgram

variable {ι κ : Type}

-- A completion, and what `BeforeRolloutComplete` approved in the same call.
structure Completion (ι : Type) where
  replica : ι
  app : String
  version : String
  approval : Option (String × String)
  deriving DecidableEq

structure GateRecord (ι : Type) where
  approval : ι → Option (String × String)
  completions : List (Completion ι)

-- The replicas are the clients on the left. A call lists the fresh heartbeats before anything else.
def note [DecidableEq ι] : ι ⊕ κ → (c : ServiceCall) → c.Response → ServiceMemory (GateRecord ι) →
    GateRecord ι
  | .inl i, .listFreshBySourceVersion .., _, s =>
    { s.record with approval := Function.update s.record.approval i none }
  | .inl i, .beforeRolloutComplete app version, .ok true, s =>
    { s.record with approval := Function.update s.record.approval i (some (app, version)) }
  | .inl i, .evaluateHeartbeatRollout _ _, .ok (rollout, true), s =>
    if rollout.state = .complete then
      let completion := ⟨i, rollout.app, rollout.version, s.record.approval i⟩
      { s.record with completions := completion :: s.record.completions }
    else
      s.record
  | _, _, _, s => s.record

@[reducible]
def semantics (ι κ : Type) [DecidableEq ι] :
    Semantics (ι ⊕ κ) ServiceCall ServiceCall.Response (ServiceMemory (GateRecord ι)) :=
  serviceSemantics note

def operate : List (Int × RolloutOperation) → ServiceProgram Unit
  | [] => return ()
  | (time, op) :: os => do
    let _ ← invoke (.operate time op)
    operate os

def config (pollers : ι → CatalogPoller) (passes : ι → List CatalogPoller.Pass)
    (operations : κ → List (Int × RolloutOperation)) :
    Config (ι ⊕ κ) ServiceCall ServiceCall.Response Unit (ServiceMemory (GateRecord ι)) where
  mem := { record := ⟨fun _ => none, []⟩ }
  prog
    | .inl i => (pollers i).run (passes i)
    | .inr k => operate (operations k)

-- Whether the replica that evaluates the rollout has seen it healthy, in case it is recorded as healthy.
def UpToDate (expected : AppRollout) (db : RolloutDB) : Prop :=
  ∀ rollout ∈ db.rollout? (Text.trimSpace expected.app),
    rollout.healthySince ≠ 0 → expected.healthySince ≠ 0

instance {expected : AppRollout} {db : RolloutDB} : Decidable (UpToDate expected db) :=
  inferInstanceAs <| Decidable (∀ _ ∈ _, _)

-- No evaluation is based on a rollout that has become healthy since it was read.
def upToDate : ι ⊕ κ → ServiceCall → ServiceMemory (GateRecord ι) → Prop
  | _, .evaluateHeartbeatRollout expected evaluation, s =>
    Time.truncate Time.millisecond evaluation.evaluatedAt ≠ 0 ∧ UpToDate expected s.db
  | _, .operate time op, s => op.Dated time ∧ s.db.Renews time op
  | _, _, _ => True

instance {c : ι ⊕ κ} {q : ServiceCall} {s : ServiceMemory (GateRecord ι)} :
    Decidable (upToDate c q s) :=
  match q with
  | .evaluateHeartbeatRollout .. | .operate .. => inferInstanceAs <| Decidable (_ ∧ _)
  | .now | .listActive | .create _ | .createAppRollout _ => .isTrue trivial
  | .mark .. | .markForRollout .. => .isTrue trivial
  | .listAllKnownVersions | .latestRevisionIDForVersion .. | .appendRequest _ => .isTrue trivial
  | .ensureStore | .getOutcome _ | .addOutcome _ | .listFreshBySourceVersion .. => .isTrue trivial
  | .listByInstance | .listByAppVersion .. | .ensureAcknowledged .. | .configured _ => .isTrue trivial
  | .restartApp .. | .beforeRolloutComplete .. | .admitInstall .. => .isTrue trivial

end AppRegistry.CompletionGate
