import GestaltModel.AppRegistry.Installer
import GestaltModel.AppRegistry.Poller

namespace AppRegistry.Attribution

open Coredata Interleaving ServiceProgram

variable {ι κ : Type}

structure RolloutEnd where
  app : String
  version : String
  state : AppRolloutState
  completedAt : Int
  failedAt : Int
  deriving DecidableEq, Repr

def RolloutEnd.of (rollout : AppRollout) : RolloutEnd :=
  ⟨rollout.app, rollout.version, rollout.state, rollout.completedAt, rollout.failedAt⟩

-- What should be stored under the change request of the install that has created the rollout.
def RolloutEnd.outcome (e : RolloutEnd) (id : String) : AppVersionRolloutOutcome where
  id
  app := Text.trimSpace e.app
  version := Text.trimSpace e.version
  completedAt := if e.state = .complete then Time.truncate Time.millisecond e.completedAt else 0
  failedAt := if e.state = .failed then Time.truncate Time.millisecond e.failedAt else 0

-- `owner` is the install that has created the current rollout of an app, `author` the one that has
-- appended a change request. A replica is `recording` the outcome of the install whose rollout it
-- last got from the store.
structure AttributionRecord (ι κ : Type) where
  owner : String → Option κ
  author : String → Option κ
  ended : κ → Option RolloutEnd
  recording : ι → Option κ

section Note

variable [DecidableEq ι] [DecidableEq κ]

def noteRollout (c : ι ⊕ κ) (rollout : AppRollout) (rec : AttributionRecord ι κ) :
    AttributionRecord ι κ where
  owner := rec.owner
  author := rec.author
  ended k :=
    if rec.owner rollout.app = some k ∧ ¬IsActiveRolloutState rollout.state then
      some (.of rollout)
    else
      rec.ended k
  recording i := if c = .inl i then rec.owner rollout.app else rec.recording i

-- The replicas are the clients on the left, and the installs are those on the right.
def note : ι ⊕ κ → (c : ServiceCall) → c.Response → ServiceMemory (AttributionRecord ι κ) →
    AttributionRecord ι κ
  | .inr k, .create _, .ok rollout, s =>
    { s.record with owner := Function.update s.record.owner rollout.app (some k) }
  | .inr k, .createAppRollout _, .ok rollout, s =>
    { s.record with owner := Function.update s.record.owner rollout.app (some k) }
  | .inr k, .appendRequest _, .ok request, s =>
    { s.record with author := Function.update s.record.author request.id (some k) }
  | c, .mark _ _ _, .ok rollout, s => noteRollout c rollout s.record
  | c, .markForRollout _ _, .ok rollout, s => noteRollout c rollout s.record
  | c, .evaluateHeartbeatRollout _ _, .ok (rollout, _), s => noteRollout c rollout s.record
  | _, _, _, s => s.record

@[reducible]
def semantics (ι κ : Type) [DecidableEq ι] [DecidableEq κ] :
    Semantics (ι ⊕ κ) ServiceCall ServiceCall.Response (ServiceMemory (AttributionRecord ι κ)) :=
  serviceSemantics note

end Note

-- The stores are empty in the beginning, except that there can be a source version.
def config (pollers : ι → CatalogPoller) (passes : ι → List CatalogPoller.Pass)
    (installers : κ → Installer) (inputs : κ → InstallInput)
    (source : Option GestaltdSourceVersionState) :
    Config (ι ⊕ κ) ServiceCall ServiceCall.Response Unit
      (ServiceMemory (AttributionRecord ι κ)) where
  mem := {
    db     := { source }
    record := ⟨fun _ => none, fun _ => none, fun _ => none, fun _ => none⟩ }
  prog
    | .inl i => (pollers i).run (passes i)
    | .inr k => do
      let _ ← (installers k).install (inputs k)

-- The change requests among which `LatestRevisionIDForVersion` looks for the latest one.
def Candidate (app version : String) (request : AppVersionChangeRequest) : Prop :=
  AppVersionChangeRequestService.Listed (Text.trimSpace app) request ∧
  Text.trimSpace request.toVersion = Text.trimSpace version

instance {app version : String} : DecidablePred (Candidate app version) :=
  fun _ => inferInstanceAs <| Decidable (_ ∧ _)

-- The install has appended its change request, and all others for the same version are older.
def Latest (s : ServiceMemory (AttributionRecord ι κ)) (k : κ) (app version : String) : Prop :=
  ∃ request ∈ s.requests.getAll, s.record.author request.id = some k ∧
    Candidate app version request ∧
    ∀ other ∈ s.requests.getAll, Candidate app version other → other = request ∨ other.Older request

instance [DecidableEq κ] {s : ServiceMemory (AttributionRecord ι κ)} {k : κ}
    {app version : String} : Decidable (Latest s k app version) :=
  inferInstanceAs <| Decidable (∃ _ ∈ _, _)

-- Whenever the change request for a rollout is looked up, its creator's one is the latest.
def timely : ι ⊕ κ → ServiceCall → ServiceMemory (AttributionRecord ι κ) → Prop
  | .inl i, .latestRevisionIDForVersion app version, s =>
    ∃ k ∈ s.record.recording i, Latest s k app version
  | _, _, _ => True

instance [DecidableEq κ] {c : ι ⊕ κ} {q : ServiceCall} {s : ServiceMemory (AttributionRecord ι κ)} :
    Decidable (timely c q s) :=
  match c with
  | .inr _ => .isTrue trivial
  | .inl _ =>
    match q with
    | .latestRevisionIDForVersion .. => inferInstanceAs <| Decidable (∃ _ ∈ _, _)
    | .now | .listActive | .create _ | .createAppRollout _ | .mark .. => .isTrue trivial
    | .markForRollout .. => .isTrue trivial
    | .evaluateHeartbeatRollout .. | .operate .. | .listAllKnownVersions => .isTrue trivial
    | .appendRequest _ | .ensureStore | .getOutcome _ | .addOutcome _ => .isTrue trivial
    | .listFreshBySourceVersion .. | .listByInstance | .listByAppVersion .. => .isTrue trivial
    | .ensureAcknowledged .. | .configured _ | .restartApp .. => .isTrue trivial
    | .beforeRolloutComplete .. | .admitInstall .. => .isTrue trivial

end AppRegistry.Attribution
