import GestaltModel.AppRegistry.Retention
import GestaltModel.AppRegistry.RetentionPrune

namespace AppRegistry

def UnusedVersionExpired (entry : RetentionVersion) (policy : RetentionPolicy) (now : Int) : Prop :=
  ¬entry.everDeployed ∧
  if (entry.expiresAt.filter (· ≠ 0)).isSome then
    RetentionExpired entry now
  else
    entry.publishedAt + policy.unusedRetention ≤ now

instance {entry : RetentionVersion} {policy : RetentionPolicy} {now : Int} :
    Decidable (UnusedVersionExpired entry policy now) :=
  inferInstanceAs <| Decidable (_ ∧ ite _ _ _)

-- The row is of a version that can no longer be selected.
def RunOut (entry : RetentionVersion) (policy : RetentionPolicy) (now : Int) : Prop :=
  entry.everDeployed ∧ RetentionExpired entry now ∨ UnusedVersionExpired entry policy now

def applyRetentionPruneActions (appName : String) (actions : List RetentionPruneAction)
    (catalogs : Index × RetentionIndex) : Index × RetentionIndex :=
  actions.foldl (fun catalogs action =>
    let (index, retention, _) :=
      applyRetentionPruneAction catalogs.1 catalogs.2 appName action
    (index, retention)) catalogs

section

variable (p : PruneInput) (policy : RetentionPolicy)
variable (index : Index) (retention : RetentionIndex)

-- An action that is returned for the catalogs, and accepted for its row of the same catalog.
def Accepted (keys : List String) (action : RetentionPruneAction) : Prop :=
  action ∈ evaluateRetentionPrune p index retention keys ∧
  ∃ entry, retention.versions.lookup action.version = some entry ∧
    ShouldApplyRetentionPruneAction action entry p.now

-- A prune neither deletes what can still be deployed, nor does it break the catalogs.
structure PruneSafe (keys : List String) : Prop where
  undeployable : ∀ action, Accepted p index retention keys action →
    versionSelectable action.version p.desiredVersion retention policy p.now ≠ .ok () ∧
    Text.trimSpace action.version ≠ Text.trimSpace p.desiredVersion
  valid : ∀ actions, (∀ action ∈ actions, Accepted p index retention keys action) →
    let catalogs := applyRetentionPruneActions p.appName actions (index, retention)
    validateIndex catalogs.1 = .ok () ∧ validateRetentionIndex catalogs.2 = .ok ()
  desired : ∀ actions, (∀ action ∈ actions, Accepted p index retention keys action) →
    let catalogs := applyRetentionPruneActions p.appName actions (index, retention)
    let desiredVersion := Text.trimSpace p.desiredVersion
    catalogs.2.versions.lookup desiredVersion = retention.versions.lookup desiredVersion ∧
    ∀ app, (catalogs.1.versions app).lookup desiredVersion =
      (index.versions app).lookup desiredVersion
  unnamed : ∀ actions, (∀ action ∈ actions, Accepted p index retention keys action) →
    let catalogs := applyRetentionPruneActions p.appName actions (index, retention)
    (∀ v, ⟨v, .deleteUnused⟩ ∉ actions →
      catalogs.2.versions.lookup v = retention.versions.lookup v) ∧
    ∀ app v, app ≠ p.appName ∨ ⟨v, .deleteUnused⟩ ∉ actions →
      (catalogs.1.versions app).lookup v = (index.versions app).lookup v

-- The keys of expired rows are trimmed, since rows are looked up under the trimmed key, except
-- where nothing is pruned, or only artifacts and the row under the trimmed key has run out as well.
def KeysTrimmed : Prop :=
  ∀ key entry, retention.versions.lookup key = some entry → RetentionExpired entry p.now →
    ¬Text.Trimmed key →
    (¬entry.everDeployed → key ∈ p.deployedVersions) ∧
    (entry.everDeployed → key ∈ index.versions (Text.trimSpace p.appName) →
      Text.trimSpace key ≠ Text.trimSpace p.desiredVersion ∧
      ∃ entry', retention.versions.lookup (Text.trimSpace key) = some entry' ∧
        RunOut entry' policy p.now)

end
end AppRegistry
