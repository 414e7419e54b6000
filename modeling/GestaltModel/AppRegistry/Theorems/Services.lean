import GestaltModel.AppRegistry.Services
import GestaltModel.Coredata.Theorems.Rollout
import GestaltModel.Interleaving.Theorems.RelyGuarantee

namespace AppRegistry.ServiceCall

open Coredata Interleaving

variable {γ σ α : Type} {a : Answer} {s : ServiceMemory γ}

theorem writes_cases (a : Answer) (s : ServiceMemory γ) (x : Except Failure (σ × α))
    (update : σ → ServiceMemory γ) :
    (∃ e, writes a s x update = (s, .error e)) ∨
    ∃ store r, x = .ok (store, r) ∧ writes a s x update = (update store, .ok r) := by
  simp only [writes, reads]
  cases a.fault
  case some f => exact .inl ⟨f, rfl⟩
  case none =>
    cases x
    case error e => exact .inl ⟨e, rfl⟩
    case ok y    => exact .inr ⟨y.1, y.2, rfl, rfl⟩

theorem writes_memory {P : ServiceMemory γ → Prop} {x : Except Failure (σ × α)} (unchanged : P s)
    (updated : ∀ store r, x = .ok (store, r) → P (update store)) : P (writes a s x update).1 := by
  rcases writes_cases a s x update with ⟨e, he⟩ | ⟨store, r, hx, he⟩ <;> rw [he]
  case inl => exact unchanged
  case inr => exact updated store r hx

@[simp]
theorem exec_record (c : ServiceCall) : (c.exec a s).1.record = s.record := by
  cases c <;> first | rfl | exact writes_memory (P := (·.record = s.record)) rfl fun _ _ _ => rfl

-- The operation on the rollouts that a call executes.
def operation? (a : Answer) : ServiceCall → Option (Int × RolloutOperation)
  | create rollout => some (a.time, .create rollout)
  | createAppRollout rollout => some (a.time, .createAppRollout rollout)
  | mark m app version => some (a.time, .mark m app version)
  | markForRollout m expected => some (a.time, .markForRollout m expected)
  | evaluateHeartbeatRollout expected evaluation => some (a.time, .evaluate expected evaluation)
  | operate time op => some (time, op)
  | _ => none

theorem writes_db {x : Except Failure (σ × α)} (h : ∀ store r, x = .ok (store, r) →
      s.db.execute time op = .ok (update store).db) :
    (writes a s x update).1.db = s.db ∨
    ∃ time' op', some (time, op) = some (time', op') ∧
      (writes a s x update).1.db = s.db.after time' op' := by
  rcases writes_cases a s x update with ⟨e, he⟩ | ⟨store, r, hx, he⟩ <;> rw [he]
  case inl => exact .inl rfl
  case inr => exact .inr ⟨time, op, rfl, by simp [RolloutDB.after, h store r hx]⟩

theorem exec_db (c : ServiceCall) :
    (c.exec a s).1.db = s.db ∨
    ∃ time op, c.operation? a = some (time, op) ∧ (c.exec a s).1.db = s.db.after time op := by
  cases c
  case operate time op =>
    refine writes_db fun db _ h => ?_
    cases hx : s.db.execute time op <;> rw [hx] at h <;> cases h
    rfl
  case create | createAppRollout | mark | markForRollout | evaluateHeartbeatRollout =>
    refine writes_db fun _ _ h => ?_
    simp only [RolloutDB.execute, h]
    rfl
  case appendRequest => exact .inl (writes_memory (P := (·.db = s.db)) rfl fun _ _ _ => rfl)
  case addOutcome => exact .inl (writes_memory (P := (·.db = s.db)) rfl fun _ _ _ => rfl)
  all_goals exact .inl rfl

end AppRegistry.ServiceCall
