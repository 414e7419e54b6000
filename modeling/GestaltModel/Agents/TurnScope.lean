import GestaltModel.Primitives.GoMap

-- The bindings of agent turns in the store of the package `agentturnscope`.
namespace Agents

structure TurnBinding where
  callerKind : String := ""
  callerName : String := ""
  workflowRunID : String := ""
  workflowStepID : String := ""
  providerTurnID : String := ""
  deriving DecidableEq, Repr

-- A binding in memory, and the key of the turn that it was put for.
structure TurnCell where
  binding : TurnBinding
  turn : String
  deriving DecidableEq, Repr

-- The map `turnBindings` has pointers, so that keys can share a binding. A pointer is the position
-- of a cell in the order of allocation.
structure TurnStore where
  cells : List TurnCell
  turnBindings : GoMap Nat
  allocated : ∀ {key ptr}, turnBindings.lookup key = some ptr → ptr < cells.length

-- There is no key when one of the texts is empty.
def turnBindingKey (providerName sessionID turnID : String) : String :=
  let providerName := Text.trimSpace providerName
  let sessionID := Text.trimSpace sessionID
  let turnID := Text.trimSpace turnID
  if providerName = "" ∨ sessionID = "" ∨ turnID = "" then ""
  else providerName ++ "\x00" ++ sessionID ++ "\x00" ++ turnID

variable (store : TurnStore)

namespace TurnStore

def new : TurnStore where
  cells := []
  turnBindings := ∅
  allocated := by simp

-- The part of `PutTurnBinding` under the lock.
def put (key : String) (binding : TurnBinding) : TurnStore where
  cells := store.cells ++ [⟨binding, key⟩]
  turnBindings := store.turnBindings.insert key store.cells.length
  allocated := by
    intro k ptr h
    rw [List.length_append, List.length_singleton]
    by_cases hk : k = key
    case pos =>
      rw [hk, Finmap.lookup_insert] at h
      cases h
      exact Nat.lt_succ_self _
    case neg =>
      rw [Finmap.lookup_insert_of_ne _ hk] at h
      exact Nat.lt_succ_of_lt (store.allocated h)

variable (providerName sessionID turnID : String)

def putTurnBinding (binding : TurnBinding) : Except Failure TurnStore := do
  let key := turnBindingKey providerName sessionID turnID
  require (key ≠ "") "agent turn binding requires provider, session, and turn"
  return store.put key binding

def setProviderTurnID (providerTurnID : String) (cell : TurnCell) : TurnCell :=
  { cell with binding := { cell.binding with providerTurnID } }

-- The part of `BindProviderTurnID` under the lock, for a key that has a binding.
def bind (aliasKey providerTurnID : String) (ptr : Nat)
    (h : ptr < store.cells.length) : TurnStore where
  cells := store.cells.modify ptr (setProviderTurnID providerTurnID)
  turnBindings := store.turnBindings.insert aliasKey ptr
  allocated := by
    intro k ptr' hl
    rw [List.length_modify]
    by_cases hk : k = aliasKey
    case pos =>
      rw [hk, Finmap.lookup_insert] at hl
      cases hl
      exact h
    case neg =>
      rw [Finmap.lookup_insert_of_ne _ hk] at hl
      exact store.allocated hl

-- When the two keys are the same, the alias is the pointer that is there already.
def bindProviderTurnID
    (providerName sessionID turnID providerTurnID : String) : Except Failure TurnStore := do
  let key := turnBindingKey providerName sessionID turnID
  let aliasKey := turnBindingKey providerName sessionID providerTurnID
  require (key ≠ "" ∧ aliasKey ≠ "") "agent turn binding alias requires provider, session, and turn"
  match h : store.turnBindings.lookup key with
  | none => .error ⟨"agent turn binding was not found", none⟩
  | some ptr => return store.bind aliasKey (Text.trimSpace providerTurnID) ptr (store.allocated h)

def cell (key : String) : Option TurnCell :=
  (store.turnBindings.lookup key).bind (store.cells[·]?)

def getTurnBinding : Option TurnBinding :=
  let key := turnBindingKey providerName sessionID turnID
  if key = "" then none else (store.cell key).map TurnCell.binding

-- The part of `DeleteTurnBinding` under the lock. It deletes all keys with the pointer.
def delete (key : String) : TurnStore where
  cells := store.cells
  turnBindings :=
    (store.turnBindings.lookup key).elim store.turnBindings fun target =>
      store.turnBindings.eraseWhere (· = target)
  allocated := by
    intro k ptr h
    cases hl : store.turnBindings.lookup key
    case none        => exact store.allocated (by simpa [hl] using h)
    case some target =>
      simp only [hl, Option.elim_some, GoMap.lookup_eraseWhere, Option.filter_eq_some_iff] at h
      exact store.allocated h.left

def deleteTurnBinding : TurnStore :=
  let key := turnBindingKey providerName sessionID turnID
  if key = "" then store else store.delete key

end TurnStore

inductive TurnCall
  | put (providerName sessionID turnID : String) (binding : TurnBinding)
  | bind (providerName sessionID turnID providerTurnID : String)
  | delete (providerName sessionID turnID : String)
  deriving DecidableEq, Repr

-- The store, and for each key the provider turn id last bound to it since its binding was deleted.
structure TurnHistory where
  store : TurnStore := .new
  bound : String → Option String := fun _ => none

namespace TurnHistory

-- A call that fails changes nothing.
def step (history : TurnHistory) : TurnCall → TurnHistory
  | .put providerName sessionID turnID binding =>
    match history.store.putTurnBinding providerName sessionID turnID binding with
    | .ok store => { history with store }
    | .error _  => history
  | .bind providerName sessionID turnID providerTurnID =>
    match history.store.bindProviderTurnID providerName sessionID turnID providerTurnID with
    | .ok store => {
        store := store
        bound := Function.update history.bound (turnBindingKey providerName sessionID turnID)
          (some (turnBindingKey providerName sessionID providerTurnID))
      }
    | .error _  => history
  | .delete providerName sessionID turnID =>
    let store := history.store.deleteTurnBinding providerName sessionID turnID
    { store, bound := fun key => if store.cell key = none then none else history.bound key }

def run (calls : List TurnCall) : TurnHistory :=
  calls.foldl step {}

end TurnHistory

namespace TurnStore

def Unshared (key : String) : Prop :=
  ∀ k ptr, store.turnBindings.lookup key = some ptr → store.turnBindings.lookup k = some ptr → k = key

-- A call does not take the key away from a binding that has other keys.
def Keeps : TurnCall → Prop
  | .put providerName sessionID turnID _ => store.Unshared (turnBindingKey providerName sessionID turnID)
  | .bind providerName sessionID turnID providerTurnID =>
    store.Unshared (turnBindingKey providerName sessionID providerTurnID) ∨
    store.turnBindings.lookup (turnBindingKey providerName sessionID providerTurnID) =
      store.turnBindings.lookup (turnBindingKey providerName sessionID turnID)
  | .delete _ _ _ => True

end TurnStore

-- The histories of the calls that take no key away from a binding that has other keys.
inductive TurnHistory.Kept : List TurnCall → Prop
  | nil : Kept []
  | snoc (calls call) : Kept calls → (run calls).store.Keeps call → Kept (calls ++ [call])

end Agents
