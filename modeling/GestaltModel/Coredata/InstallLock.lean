import GestaltModel.Coredata.ObjectStore
import GestaltModel.Interleaving.Execution
import GestaltModel.Primitives.Time

namespace Coredata

open Interleaving

structure AppVersionInstallLock where
  id : String
  app : String
  version : String
  holder : String
  acquiredAt : Int
  expiresAt : Int
  deriving DecidableEq, Repr

instance : Record AppVersionInstallLock where
  id := AppVersionInstallLock.id

-- The last two are no requests: they mark that `Acquire` has returned a lock with the given expiry,
-- and that `Release` is called.
inductive LockCall
  | now
  | getAll
  | get (id : String)
  | add (rec : AppVersionInstallLock)
  | put (rec : AppVersionInstallLock)
  | delete (id : String)
  | acquired (key : String) (expiresAt : Int)
  | releasing (key : String)

-- `granted i key` is the expiry of the lock that holder `i` has, up to its next `Release`.
structure LockMemory (ι : Type) where
  clock : Int
  locks : ObjectStore AppVersionInstallLock
  granted : ι → String → Option Int

namespace LockCall

abbrev Response : LockCall → Type
  | now => Int
  | getAll => Except Failure (List AppVersionInstallLock)
  | get _ => Except Failure AppVersionInstallLock
  | add _ => Except Failure Unit
  | put _ => Except Failure Unit
  | delete _ => Except Failure Unit
  | acquired _ _ => Unit
  | releasing _ => Unit

variable {ι : Type} [DecidableEq ι]

-- A write to the store returns either the new store or the error.
def write (s : LockMemory ι) : Except Failure (ObjectStore AppVersionInstallLock) →
    LockMemory ι × Except Failure Unit
  | .ok locks => ({ s with locks }, .ok ())
  | .error e => (s, .error e)

def grant (s : LockMemory ι) (i : ι) (key : String) (expiresAt : Option Int) : LockMemory ι :=
  { s with granted := fun j k => if j = i ∧ k = key then expiresAt else s.granted j k }

-- Any request to the store can also fail.
def exec (i : ι) : (c : LockCall) → Option Failure → LockMemory ι → LockMemory ι × c.Response
  | now, _, s => (s, s.clock)
  | getAll, none, s => (s, .ok s.locks.getAll)
  | getAll, some f, s => (s, .error f)
  | get id, none, s => (s, s.locks.get id)
  | get _, some f, s => (s, .error f)
  | add rec, none, s => write s (s.locks.add rec)
  | add _, some f, s => write s (.error f)
  | put rec, none, s => write s (.ok (s.locks.put rec))
  | put _, some f, s => write s (.error f)
  | delete id, none, s => write s (s.locks.delete id)
  | delete _, some f, s => write s (.error f)
  | acquired key e, _, s => (grant s i key (some e), ())
  | releasing key, _, s => (grant s i key none, ())

end LockCall

-- The environment lets the time pass.
@[reducible]
def lockSemantics (ι : Type) [DecidableEq ι] :
    Semantics ι LockCall LockCall.Response (LockMemory ι) where
  Oracle := Option Failure
  Act := Nat
  exec i c o s := c.exec i o s
  act d s      := { s with clock := s.clock + d }

abbrev LockProgram (α : Type) := Program LockCall LockCall.Response α

namespace AppVersionInstallLockService

def request (c : LockCall) : LockProgram c.Response :=
  .perform c

@[simp]
theorem request_bind (c : LockCall) (f : c.Response → LockProgram α) :
    (request c >>= f) = .call c f :=
  rfl

def defaultAppVersionInstallLockTTL : Int := 15 * Time.minute

def errAppVersionInstallLockHeld : Failure where
  text := "app version install lock is held"
  sentinel := some .appVersionInstallLockHeld

def appVersionInstallLockKey (app : String) : String :=
  Text.trimSpace app

-- The errors of a delete, where it is none that there is no record.
def deleteError (text : String) : Except Failure Unit → Except Failure Unit
  | .ok () => .ok ()
  | .error e => if e.Is .recordNotFound then .ok () else .error (.wrap text e)

def tryAddLock (rec : AppVersionInstallLock) : LockProgram (Except Failure Unit) := do
  match ← request (.add rec) with
  | .ok () => return .ok ()
  | .error e =>
    if e.Is .recordAlreadyExists then
      return .error ObjectStore.alreadyExists
    else
      return .error (.wrap "acquire app version install lock" e)

def putLock (rec : AppVersionInstallLock) : LockProgram (Except Failure Unit) := do
  return (← request (.put rec)).context "refresh app version install lock"

-- The loop of `clearStaleAndCheckAppLocks`. It returns when the lock of the holder expires.
def checkAppLocks (key app holder : String) (now : Int) :
    List AppVersionInstallLock → LockProgram (Except Failure (Option Int))
  | [] => return .ok none
  | current :: recs => do
    if Text.trimSpace current.app ≠ app then
      checkAppLocks key app holder now recs
    else if now < current.expiresAt then
      if current.id = key ∧ current.holder = holder then
        return .ok (some current.expiresAt)
      else
        return .error errAppVersionInstallLockHeld
    else
      match deleteError "acquire app version install lock: delete stale"
        (← request (.delete current.id)) with
      | .error e => return .error e
      | .ok ()   => checkAppLocks key app holder now recs

def clearStaleAndCheckAppLocks (key app holder : String) (now : Int) :
    LockProgram (Except Failure (Option Int)) := do
  match ← request .getAll with
  | .error e => return .error (.wrap "acquire app version install lock: list existing" e)
  | .ok recs => checkAppLocks key app holder now recs

-- The end of `Acquire`, after the stale record of another holder is deleted.
def acquireDeleted (lock : AppVersionInstallLock) : LockProgram (Except Failure Int) := do
  match ← tryAddLock lock with
  | .ok () => return .ok lock.expiresAt
  | .error e =>
    if e.Is .recordAlreadyExists then
      return .error errAppVersionInstallLockHeld
    else
      return .error e

-- The second half of `Acquire`, when there was a record in the way.
def acquireExisting (now : Int) (lock : AppVersionInstallLock) :
    LockProgram (Except Failure Int) := do
  match ← request (.get lock.id) with
  | .error e =>
    if e.Is .recordNotFound then
      return (← tryAddLock lock).map fun () => lock.expiresAt
    else
      return .error (.wrap "acquire app version install lock: load existing" e)
  | .ok current =>
    if current.holder = lock.holder then
      if now < current.expiresAt then
        return .ok current.expiresAt
      else
        return (← putLock lock).map fun () => lock.expiresAt
    else if now < current.expiresAt then
      return .error errAppVersionInstallLockHeld
    else
      match deleteError "acquire app version install lock: delete stale"
        (← request (.delete lock.id)) with
      | .error e => return .error e
      | .ok ()   => acquireDeleted lock

-- `Acquire`, which here also returns when the acquired lock expires.
def acquire (app version holder : String) (ttl : Int) : LockProgram (Except Failure Int) := do
  let app := Text.trimSpace app
  let version := Text.trimSpace version
  let holder := Text.trimSpace holder
  if app = "" ∨ version = "" then
    return .error ⟨"acquire app version install lock: app and version are required", none⟩
  else if holder = "" then
    return .error ⟨"acquire app version install lock: holder is required", none⟩
  else
    let ttl := if ttl ≤ 0 then defaultAppVersionInstallLockTTL else ttl
    let now := Time.truncate Time.millisecond (← request .now)
    let key := appVersionInstallLockKey app
    let lock := { id := key, app, version, holder, acquiredAt := now, expiresAt := now + ttl }
    match ← clearStaleAndCheckAppLocks key app holder now with
    | .error e => return .error e
    | .ok (some expiresAt) => return .ok expiresAt
    | .ok none =>
      match ← tryAddLock lock with
      | .ok ()   => return .ok lock.expiresAt
      | .error e =>
        if ¬e.Is .recordAlreadyExists then
          return .error e
        else
          acquireExisting now lock

def release (app version holder : String) : LockProgram (Except Failure Unit) := do
  let app := Text.trimSpace app
  let version := Text.trimSpace version
  let holder := Text.trimSpace holder
  if app = "" ∨ version = "" ∨ holder = "" then
    return .ok ()
  else
    let key := appVersionInstallLockKey app
    match ← request (.get key) with
    | .error e =>
      if e.Is .recordNotFound then
        return .ok ()
      else
        return .error (.wrap "release app version install lock" e)
    | .ok existing =>
      if Text.trimSpace existing.holder ≠ holder then
        return .ok ()
      else
        return deleteError "release app version install lock" (← request (.delete key))

inductive Operation
  | acquire (app version : String) (ttl : Int)
  | release (app version : String)

def program (holder : String) : List Operation → LockProgram Unit
  | [] => return ()
  | .acquire app version ttl :: os => do
    match ← acquire app version holder ttl with
    | .error _      => program holder os
    | .ok expiresAt =>
      request (.acquired (appVersionInstallLockKey app) expiresAt)
      program holder os
  | .release app version :: os => do
    request (.releasing (appVersionInstallLockKey app))
    let _ ← release app version holder
    program holder os

-- Nobody holds a lock yet, but the store can have any contents.
def config (holders : ι → String) (operations : ι → List Operation) (clock : Int)
    (locks : ObjectStore AppVersionInstallLock) :
    Config ι LockCall LockCall.Response Unit (LockMemory ι) where
  mem := { clock, locks, granted := fun _ _ => none }
  prog i := program (holders i) (operations i)

-- Holder `i` has acquired a lock that has not expired, and has not called `Release` since.
def Holding (s : LockMemory ι) (i : ι) (key : String) : Prop :=
  ∃ expiresAt ∈ s.granted i key, s.clock < expiresAt

instance {s : LockMemory ι} {i : ι} {key : String} : Decidable (Holding s i key) :=
  inferInstanceAs <| Decidable (∃ _ ∈ _, _)

-- Holder `i` can remove the record without taking a lock: there is none, it has expired, or it is
-- its own for a lock it does not hold.
def Disposable (holders : ι → String) (i : ι) (id : String) (s : LockMemory ι) : Prop :=
  ∀ rec ∈ s.locks.lookup id, s.clock < rec.expiresAt →
    rec.holder = Text.trimSpace (holders i) ∧ s.granted i id = none

instance {holders : ι → String} {i : ι} {id : String} {s : LockMemory ι} :
    Decidable (Disposable holders i id s) :=
  match h : s.locks.lookup id with
  | none => .isTrue (by simp [Disposable, h])
  | some rec => decidable_of_iff
    (s.clock < rec.expiresAt → rec.holder = Text.trimSpace (holders i) ∧ s.granted i id = none)
    (by simp [Disposable, h])

-- The executions where what is deleted or replaced is disposable at that time.
def disposing (holders : ι → String) (i : ι) : LockCall → LockMemory ι → Prop
  | .put rec, s => Disposable holders i rec.id s
  | .delete id, s => Disposable holders i id s
  | _, _ => True

instance {holders : ι → String} {i : ι} {c : LockCall} {s : LockMemory ι} :
    Decidable (disposing holders i c s) :=
  match c with
  | .put _ => inferInstanceAs (Decidable (Disposable ..))
  | .delete _ => inferInstanceAs (Decidable (Disposable ..))
  | .now | .getAll | .get _ | .add _ => .isTrue trivial
  | .acquired _ _ | .releasing _ => .isTrue trivial

end AppVersionInstallLockService
end Coredata
