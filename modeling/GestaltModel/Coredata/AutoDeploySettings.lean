import GestaltModel.Coredata.Rollout
import GestaltModel.Interleaving.Execution

namespace Coredata

open Interleaving
open Text (trimSpace)

-- A record of the settings store, with a `lastFailedRolloutAt` of `0` when there is none.
structure AppAutoDeploySettings where
  app : String
  enabled : Bool := false
  paused : Bool := false
  pauseReason : String := ""
  pendingVersion : String := ""
  lastSeenVersion : String := ""
  lastError : String := ""
  lastFailedRolloutAt : Int := 0
  deriving DecidableEq, Repr

instance : Record AppAutoDeploySettings where
  id := AppAutoDeploySettings.app

def normalizeAppAutoDeploySettings (settings : AppAutoDeploySettings) : AppAutoDeploySettings where
  app := trimSpace settings.app
  enabled := settings.enabled
  paused := settings.paused
  pauseReason := trimSpace settings.pauseReason
  pendingVersion := trimSpace settings.pendingVersion
  lastSeenVersion := trimSpace settings.lastSeenVersion
  lastError := trimSpace settings.lastError
  lastFailedRolloutAt :=
    if settings.lastFailedRolloutAt = 0 then 0
    else Time.truncate Time.millisecond settings.lastFailedRolloutAt

def SameAppRolloutIdentity (left right : AppRollout) : Prop :=
  trimSpace left.app = trimSpace right.app ∧
  trimSpace left.version = trimSpace right.version ∧
  left.mode = right.mode ∧
  trimSpace left.targetSourceVersion = trimSpace right.targetSourceVersion ∧
  left.createdAt = right.createdAt

instance {left right : AppRollout} : Decidable (SameAppRolloutIdentity left right) :=
  inferInstanceAs <| Decidable (_ ∧ _)

-- The function that a caller passes in. It fails or returns what it turns the settings into.
abbrev SettingsUpdate := AppAutoDeploySettings → Except Failure AppAutoDeploySettings

-- The settings, and the rollouts that `UpdateForRollout` reads along with them.
structure SettingsDB where
  settings : ObjectStore AppAutoDeploySettings := ∅
  rollouts : RolloutStore := ∅

namespace AutoDeploySettingsService

-- The settings that are written for an app when `found` is its record.
def updated (app : String) (update : SettingsUpdate) (found : Option AppAutoDeploySettings) :
    Except Failure AppAutoDeploySettings := do
  let settings ← update (found.getD { app })
  return normalizeAppAutoDeploySettings { settings with app }

-- The transaction of `UpdateForRollout`. It returns no settings if the expected rollout is not the
-- current one or has not failed.
def updateForRolloutTransaction (app : String) (expected : AppRollout) (update : SettingsUpdate)
    (db : SettingsDB) : Except Failure (SettingsDB × Option AppAutoDeploySettings) :=
  match db.rollouts.lookup app with
  | none => return (db, none)
  | some rec =>
    let current := recordToAppRollout rec
    if ¬SameAppRolloutIdentity current expected ∨ current.state ≠ .failed then
      return (db, none)
    else do
      let settings ← updated app update (db.settings.lookup app)
      return ({ db with settings := db.settings.put settings }, some settings)

end AutoDeploySettingsService

-- The requests of `AutoDeploySettingsService` to its stores. A transaction is a single one.
inductive SettingsCall
  | get (app : String)
  | put (settings : AppAutoDeploySettings)
  | updateForRollout (app : String) (expected : AppRollout) (update : SettingsUpdate)

-- The stores, and the record that each caller has read and whether a request of its has failed.
structure SettingsMemory (ι : Type) where
  db : SettingsDB
  found : ι → Option AppAutoDeploySettings := fun _ => none
  failed : ι → Bool := fun _ => false

namespace SettingsCall

abbrev Response : SettingsCall → Type
  | get _ => Except Failure AppAutoDeploySettings
  | put _ => Except Failure Unit
  | updateForRollout _ _ _ => Except Failure (Option AppAutoDeploySettings)

variable {ι : Type} [DecidableEq ι]

def reject (i : ι) (s : SettingsMemory ι) (text : String) :
    SettingsMemory ι × Except Failure α :=
  ({ s with failed := Function.update s.failed i true }, .error ⟨text, none⟩)

-- An error of the update function aborts the transaction.
def transact (s : SettingsMemory ι) :
    Except Failure (SettingsDB × Option AppAutoDeploySettings) →
    SettingsMemory ι × Except Failure (Option AppAutoDeploySettings)
  | .ok (db, settings) => ({ s with db }, .ok settings)
  | .error e => (s, .error e)

def exec (i : ι) : (c : SettingsCall) → Option String → SettingsMemory ι →
    SettingsMemory ι × c.Response
  | get app, none, s =>
    ({ s with found := Function.update s.found i (s.db.settings.lookup app) }, s.db.settings.get app)
  | put settings, none, s =>
    ({ s with db := { s.db with settings := s.db.settings.put settings } }, .ok ())
  | updateForRollout app expected update, none, s =>
    transact s (AutoDeploySettingsService.updateForRolloutTransaction app expected update s.db)
  | get _, some text, s => reject i s text
  | put _, some text, s => reject i s text
  | updateForRollout _ _ _, some text, s => reject i s text

end SettingsCall

-- Any request to the store can fail.
@[reducible]
def settingsSemantics (ι : Type) [DecidableEq ι] :
    Semantics ι SettingsCall SettingsCall.Response (SettingsMemory ι) where
  Oracle := Option String
  Act := Empty
  exec i c o s := c.exec i o s
  act a _      := a.elim

abbrev SettingsProgram (α : Type) := Program SettingsCall SettingsCall.Response α

namespace AutoDeploySettingsService

def request (c : SettingsCall) : SettingsProgram c.Response :=
  .perform c

-- The second half of `Update`, which writes what the update function has returned.
def write (settings : Except Failure AppAutoDeploySettings) :
    SettingsProgram (Except Failure (Option AppAutoDeploySettings)) :=
  match settings with
  | .error e => return .error e
  | .ok settings => do
    match ← request (.put settings) with
    | .error e => return .error (.wrap "update app auto-deploy settings: write" e)
    | .ok ()   => return .ok (some settings)

def update (app : String) (update : SettingsUpdate) :
    SettingsProgram (Except Failure (Option AppAutoDeploySettings)) := do
  let app := trimSpace app
  if app = "" then
    return .error ⟨"update app auto-deploy settings: app is required", none⟩
  else
    match ← request (.get app) with
    | .ok settings => write (updated app update (some settings))
    | .error e =>
      if e.Is .recordNotFound then
        write (updated app update none)
      else
        return .error (.wrap "update app auto-deploy settings: load current" e)

-- Returns the settings if they have been updated.
def updateForRollout (expected : AppRollout) (update : SettingsUpdate) :
    SettingsProgram (Except Failure (Option AppAutoDeploySettings)) :=
  let app := trimSpace expected.app
  if app = "" then
    return .error
      ⟨"update app auto-deploy settings for rollout: rollout app is required", none⟩
  else
    request (.updateForRollout app expected update)

inductive Operation
  | update (app : String) (f : SettingsUpdate)
  | updateForRollout (expected : AppRollout) (f : SettingsUpdate)

namespace Operation

def app : Operation → String
  | .update app _ => trimSpace app
  | .updateForRollout expected _ => trimSpace expected.app

def function : Operation → SettingsUpdate
  | .update _ f => f
  | .updateForRollout _ f => f

def program : Operation → SettingsProgram (Except Failure (Option AppAutoDeploySettings))
  | .update app f => AutoDeploySettingsService.update app f
  | .updateForRollout expected f => AutoDeploySettingsService.updateForRollout expected f

-- What an operation does that is alone with the stores.
def apply (db : SettingsDB) : Operation → SettingsDB × Except Failure (Option AppAutoDeploySettings)
  | .update app f =>
    let app := trimSpace app
    if app = "" then
      (db, .error ⟨"update app auto-deploy settings: app is required", none⟩)
    else
      match updated app f (db.settings.lookup app) with
      | .error e     => (db, .error e)
      | .ok settings => ({ db with settings := db.settings.put settings }, .ok (some settings))
  | .updateForRollout expected f =>
    let app := trimSpace expected.app
    if app = "" then
      (db, .error ⟨"update app auto-deploy settings for rollout: rollout app is required", none⟩)
    else
      match updateForRolloutTransaction app expected f db with
      | .error e           => (db, .error e)
      | .ok (db, settings) => (db, .ok settings)

end Operation

def serial (operations : ι → Operation) (db : SettingsDB) (order : List ι) : SettingsDB :=
  order.foldl (fun db i => ((operations i).apply db).1) db

-- Every caller is about to make its call, and the stores can have any contents.
def config (operations : ι → Operation) (db : SettingsDB) :
    Config ι SettingsCall SettingsCall.Response (Except Failure (Option AppAutoDeploySettings))
      (SettingsMemory ι) where
  mem := { db }
  prog i := (operations i).program

-- The executions where `Update` overwrites the record that it has read.
def unmoved (i : ι) : SettingsCall → SettingsMemory ι → Prop
  | .put settings, s => s.db.settings.lookup settings.app = s.found i
  | _, _ => True

instance {i : ι} {c : SettingsCall} {s : SettingsMemory ι} : Decidable (unmoved i c s) :=
  match c with
  | .put _ => inferInstanceAs (Decidable (_ = _))
  | .get _ | .updateForRollout _ _ _ => .isTrue trivial

end AutoDeploySettingsService
end Coredata
