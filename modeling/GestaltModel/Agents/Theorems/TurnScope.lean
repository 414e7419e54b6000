import GestaltModel.Agents.TurnScope

namespace Agents

open Finmap (lookup_insert lookup_insert_of_ne)
open TurnStore

variable {store : TurnStore}

namespace TurnStore

theorem cell_eq_some {key ptr cell} (hl : store.turnBindings.lookup key = some ptr)
    (hc : store.cells[ptr]? = some cell) :
    store.cell key = some cell := by
  simp [TurnStore.cell, hl, hc]

theorem lookup_of_cell {key cell} (h : store.cell key = some cell) :
    ∃ ptr, store.turnBindings.lookup key = some ptr ∧ store.cells[ptr]? = some cell :=
  Option.bind_eq_some_iff.mp h

-- Sharing survives the insertion of a pointer at a key that is alone at its old binding.
theorem share_insert {bindings : GoMap Nat}
    (h : ∀ k p, bindings.lookup key = some p → bindings.lookup k = some p → k = key ∨ p = ptr)
    (hj : bindings.lookup j = some p) (hk : bindings.lookup k = some p) :
    ∃ p', (bindings.insert key ptr).lookup j = some p' ∧
      (bindings.insert key ptr).lookup k = some p' := by
  by_cases hjk : j = key
  case pos =>
    subst hjk
    refine ⟨ptr, lookup_insert _, ?_⟩
    by_cases hkj : k = j
    case pos => rw [hkj, lookup_insert]
    case neg => rw [lookup_insert_of_ne _ hkj, hk, (h k p hj hk).resolve_left hkj]
  case neg =>
    rw [lookup_insert_of_ne _ hjk]
    refine ⟨p, hj, ?_⟩
    by_cases hkk : k = key
    case pos =>
      subst hkk
      rw [lookup_insert, (h j p hk hj).resolve_left hjk]
    case neg => rwa [lookup_insert_of_ne _ hkk]

theorem unshared_of_lookup_eq_none {key} (h : store.turnBindings.lookup key = none) :
    store.Unshared key := by
  intro k ptr hl
  rw [h] at hl
  contradiction

theorem lookup_insert_same {bindings : GoMap Nat}
    (h : bindings.lookup k = some ptr) : (bindings.insert key ptr).lookup k = some ptr := by
  by_cases hk : k = key
  case pos => rw [hk, lookup_insert]
  case neg => rwa [lookup_insert_of_ne _ hk]

theorem turn_bind {ptr p : Nat} {cell'} (h : ptr < store.cells.length)
    (hc : (store.bind aliasKey providerTurnID ptr h).cells[p]? = some cell') :
    ∃ cell, store.cells[p]? = some cell ∧ cell'.turn = cell.turn := by
  rw [TurnStore.bind, List.getElem?_modify] at hc
  obtain ⟨cell, hcell, rfl⟩ := Option.map_eq_some_iff.mp hc
  refine ⟨cell, hcell, ?_⟩
  split <;> rfl

theorem lookup_delete (store : TurnStore) (key k : String) :
    (store.delete key).turnBindings.lookup k =
      if store.turnBindings.lookup k = store.turnBindings.lookup key then none
      else store.turnBindings.lookup k := by
  cases hl : store.turnBindings.lookup key
  case none => simp [delete, hl]
  case some target =>
    simp only [delete, hl, Option.elim_some, GoMap.lookup_eraseWhere]
    cases store.turnBindings.lookup k
    case none     => simp
    case some ptr => by_cases h : ptr = target <;> simp [Option.filter, h]

theorem lookup_deleteTurnBinding (h : store.turnBindings.lookup "" = none)
    (providerName sessionID turnID k : String) :
    (store.deleteTurnBinding providerName sessionID turnID).turnBindings.lookup k =
      if store.turnBindings.lookup k =
        store.turnBindings.lookup (turnBindingKey providerName sessionID turnID) then none
      else store.turnBindings.lookup k := by
  by_cases hk : turnBindingKey providerName sessionID turnID = ""
  case pos =>
    have hn : store.turnBindings.lookup (turnBindingKey providerName sessionID turnID) = none := by
      rw [hk]
      exact h
    simp [deleteTurnBinding, hk, hn]
  case neg => simp [deleteTurnBinding, hk, lookup_delete]

theorem cells_deleteTurnBinding (store : TurnStore) (providerName sessionID turnID : String) :
    (store.deleteTurnBinding providerName sessionID turnID).cells = store.cells := by
  simp only [deleteTurnBinding]
  split <;> rfl

end TurnStore

namespace TurnHistory

variable {history : TurnHistory}

theorem step_put (history : TurnHistory) (providerName sessionID turnID binding) :
    let key := turnBindingKey providerName sessionID turnID
    history.step (.put providerName sessionID turnID binding) = history ∨
    key ≠ "" ∧ history.step (.put providerName sessionID turnID binding) =
      { history with store := history.store.put key binding } := by
  by_cases hk : turnBindingKey providerName sessionID turnID = ""
  case pos => exact .inl (by simp [step, putTurnBinding, require, hk])
  case neg => exact .inr ⟨hk, by simp [step, putTurnBinding, require, hk]⟩

theorem step_bind (history : TurnHistory) (providerName sessionID turnID providerTurnID) :
    let key := turnBindingKey providerName sessionID turnID
    let aliasKey := turnBindingKey providerName sessionID providerTurnID
    history.step (.bind providerName sessionID turnID providerTurnID) = history ∨
    ∃ (ptr : Nat) (h : history.store.turnBindings.lookup key = some ptr), aliasKey ≠ "" ∧
      history.step (.bind providerName sessionID turnID providerTurnID) = {
        store := history.store.bind aliasKey (Text.trimSpace providerTurnID) ptr
          (history.store.allocated h)
        bound := Function.update history.bound key (some aliasKey)
      } := by
  intro key aliasKey
  cases hb : history.store.bindProviderTurnID providerName sessionID turnID providerTurnID
  case error e => exact .inl (by simp [step, hb])
  case ok store =>
    right
    have hb' := hb
    simp only [bindProviderTurnID, Except.bind_eq_ok_iff, require_eq_ok] at hb
    obtain ⟨_, hk, hm⟩ := hb
    split at hm
    case h_1     => cases hm
    case h_2 ptr hl =>
      cases hm
      exact ⟨ptr, hl, hk.right, by simp only [step, hb']; rfl⟩

-- What holds of a history when no call takes a key away from a binding that has other keys.
structure Invariant (history : TurnHistory) : Prop where
  named : history.store.turnBindings.lookup "" = none
  owned : ∀ {key ptr cell}, history.store.turnBindings.lookup key = some ptr →
    history.store.cells[ptr]? = some cell → history.store.turnBindings.lookup cell.turn = some ptr
  shared : ∀ {key aliasKey}, history.bound key = some aliasKey →
    ∃ ptr, history.store.turnBindings.lookup key = some ptr ∧
      history.store.turnBindings.lookup aliasKey = some ptr

namespace Invariant

theorem initial : Invariant {} where
  named := Finmap.lookup_empty _
  owned := by
    intro _ _ _ hl
    rw [TurnStore.new, Finmap.lookup_empty] at hl
    contradiction
  shared := by
    intro _ _ h
    contradiction

theorem put (hi : history.Invariant) (hk : key ≠ "") (binding : TurnBinding)
    (hu : history.store.Unshared key) :
    Invariant { history with store := history.store.put key binding } := by
  have hu : ∀ k p, history.store.turnBindings.lookup key = some p →
      history.store.turnBindings.lookup k = some p → k = key ∨ p = history.store.cells.length :=
    fun k p h h' => .inl (hu k p h h')
  refine ⟨?_, ?_, ?_⟩
  case refine_1 =>
    rw [TurnStore.put, lookup_insert_of_ne _ hk.symm]
    exact hi.named
  case refine_2 =>
    intro k ptr cell hl hc
    simp only [TurnStore.put] at hl hc ⊢
    by_cases hkk : k = key
    case pos =>
      rw [hkk, lookup_insert] at hl
      cases hl
      simp only [List.getElem?_concat_length, Option.some.injEq] at hc
      rw [← hc, lookup_insert]
    case neg =>
      have hl' := hl
      rw [lookup_insert_of_ne _ hkk] at hl'
      rw [List.getElem?_append_left (history.store.allocated hl')] at hc
      obtain ⟨p, hp, hp'⟩ := share_insert hu hl' (hi.owned hl' hc)
      rw [hp', ← hp, hl]
  case refine_3 =>
    intro k aliasKey hb
    obtain ⟨ptr, hl, ha⟩ := hi.shared hb
    exact share_insert hu hl ha

theorem bind (hi : history.Invariant)
    (hl : history.store.turnBindings.lookup key = some ptr) (hk : aliasKey ≠ "")
    (providerTurnID : String) (hu : history.store.Unshared aliasKey ∨
      history.store.turnBindings.lookup aliasKey = history.store.turnBindings.lookup key) :
    Invariant {
      store := history.store.bind aliasKey providerTurnID ptr (history.store.allocated hl)
      bound := Function.update history.bound key (some aliasKey)
    } := by
  have hu : ∀ k p, history.store.turnBindings.lookup aliasKey = some p →
      history.store.turnBindings.lookup k = some p → k = aliasKey ∨ p = ptr := by
    intro k p ha hp
    cases hu
    case inl hu => exact .inl (hu k p ha hp)
    case inr he =>
      rw [he, hl] at ha
      cases ha
      exact .inr rfl
  refine ⟨?_, ?_, ?_⟩
  case refine_1 =>
    rw [TurnStore.bind, lookup_insert_of_ne _ hk.symm]
    exact hi.named
  case refine_2 =>
    intro k p cell' hp hc
    obtain ⟨cell, hc, ht⟩ := turn_bind (history.store.allocated hl) hc
    rw [ht]
    simp only [TurnStore.bind] at hp ⊢
    by_cases hkk : k = aliasKey
    case pos =>
      rw [hkk, lookup_insert] at hp
      cases hp
      exact lookup_insert_same (hi.owned hl hc)
    case neg =>
      have hp' := hp
      rw [lookup_insert_of_ne _ hkk] at hp'
      obtain ⟨q, hq, hq'⟩ := share_insert hu hp' (hi.owned hp' hc)
      rw [hq', ← hq, hp]
  case refine_3 =>
    intro k aliasKey' hb
    simp only at hb
    by_cases hkk : k = key
    case pos =>
      rw [hkk, Function.update_self] at hb
      cases hb
      rw [hkk]
      exact ⟨ptr, lookup_insert_same hl, lookup_insert _⟩
    case neg =>
      rw [Function.update_of_ne hkk] at hb
      obtain ⟨p, hp, ha⟩ := hi.shared hb
      exact share_insert hu hp ha

theorem delete (hi : history.Invariant) (providerName sessionID turnID : String) :
    (history.step (.delete providerName sessionID turnID)).Invariant := by
  refine ⟨?_, ?_, ?_⟩
  case refine_1 => simp [step, lookup_deleteTurnBinding hi.named, hi.named]
  case refine_2 =>
    intro k p cell hp hc
    simp only [step, lookup_deleteTurnBinding hi.named,
      cells_deleteTurnBinding, Option.ite_none_left_eq_some] at hp hc ⊢
    have ho := hi.owned hp.right hc
    rw [ho, ← hp.right]
    exact ⟨hp.left, rfl⟩
  case refine_3 =>
    intro k aliasKey hb
    simp only [step, Option.ite_none_left_eq_some] at hb
    obtain ⟨cell, hc⟩ := Option.ne_none_iff_exists'.mp hb.left
    obtain ⟨p, hp, _⟩ := lookup_of_cell hc
    obtain ⟨q, hq, ha⟩ := hi.shared hb.right
    simp only [step, lookup_deleteTurnBinding hi.named, Option.ite_none_left_eq_some] at hp ⊢
    exact ⟨q, ⟨hp.left, hq⟩, by rw [ha, ← hq]; exact hp.left, ha⟩

end Invariant

theorem invariant_of_kept {calls} (h : Kept calls) : (run calls).Invariant := by
  induction h
  case nil => exact .initial
  case snoc calls call _ hk hi =>
    simp only [run, List.foldl_append, List.foldl_cons, List.foldl_nil] at hi ⊢
    cases call
    case put providerName sessionID turnID binding =>
      cases step_put (run calls) providerName sessionID turnID binding
      case inl h => rwa [← run, h]
      case inr h =>
        rw [← run, h.right]
        exact hi.put h.left binding hk
    case bind providerName sessionID turnID providerTurnID =>
      cases step_bind (run calls) providerName sessionID turnID providerTurnID
      case inl h => rwa [← run, h]
      case inr h =>
        obtain ⟨ptr, hl, ha, hs⟩ := h
        rw [← run, hs]
        exact hi.bind hl ha _ hk
    case delete providerName sessionID turnID => exact hi.delete providerName sessionID turnID

theorem Invariant.lookup_turn (hi : history.Invariant) {key cell}
    (h : history.store.cell key = some cell) :
    ∃ ptr, history.store.turnBindings.lookup cell.turn = some ptr := by
  obtain ⟨ptr, hl, hc⟩ := lookup_of_cell h
  exact ⟨ptr, hi.owned hl hc⟩

theorem Invariant.getTurnBinding_alias (hi : history.Invariant)
    (hb : history.bound (turnBindingKey providerName sessionID turnID) =
      some (turnBindingKey providerName sessionID providerTurnID)) :
    ∃ binding,
      history.store.getTurnBinding providerName sessionID turnID = some binding ∧
      history.store.getTurnBinding providerName sessionID providerTurnID = some binding := by
  obtain ⟨ptr, hl, ha⟩ := hi.shared hb
  have hne : ∀ {key}, history.store.turnBindings.lookup key = some ptr → key ≠ "" := by
    rintro key h rfl
    rw [hi.named] at h
    contradiction
  have hc := List.getElem?_eq_getElem (history.store.allocated hl)
  refine ⟨(history.store.cells.get ⟨ptr, history.store.allocated hl⟩).binding, ?_, ?_⟩
  case refine_1 => simp [getTurnBinding, hne hl, cell_eq_some hl hc]
  case refine_2 => simp [getTurnBinding, hne ha, cell_eq_some ha hc]

-- The deleted key may be that of the turn or that of its provider turn id.
theorem Invariant.turn_deleted (hi : history.Invariant)
    (hk : history.store.turnBindings.lookup (turnBindingKey providerName sessionID keyID) =
      history.store.turnBindings.lookup (turnBindingKey providerName sessionID turnID))
    {key cell}
    (h : (history.store.deleteTurnBinding providerName sessionID keyID).cell key = some cell) :
    cell.turn ≠ turnBindingKey providerName sessionID turnID := by
  intro ht
  have hi' : (history.step (.delete providerName sessionID keyID)).Invariant := hi.delete _ _ _
  obtain ⟨ptr, hl⟩ := hi'.lookup_turn h
  rw [ht, step, lookup_deleteTurnBinding hi.named, hk, if_pos rfl] at hl
  contradiction

-- As long as no call takes a key from a binding with other keys, a turn and its last provider turn
-- id share a binding, and all keys go together.
theorem aliases_follow_turns {calls : List TurnCall} (h : Kept calls)
    (providerName sessionID turnID : String) :
    (∀ providerTurnID,
      (run calls).bound (turnBindingKey providerName sessionID turnID) =
        some (turnBindingKey providerName sessionID providerTurnID) →
      ∃ binding,
        (run calls).store.getTurnBinding providerName sessionID turnID = some binding ∧
        (run calls).store.getTurnBinding providerName sessionID providerTurnID = some binding) ∧
    ∀ keyID,
      keyID = turnID ∨
        (run calls).bound (turnBindingKey providerName sessionID turnID) =
          some (turnBindingKey providerName sessionID keyID) →
      ∀ key cell,
        ((run calls).store.deleteTurnBinding providerName sessionID keyID).cell key = some cell →
        cell.turn ≠ turnBindingKey providerName sessionID turnID := by
  have hi := invariant_of_kept h
  refine ⟨fun _ hb => hi.getTurnBinding_alias hb, ?_⟩
  rintro keyID hk key cell hc
  refine hi.turn_deleted ?_ hc
  cases hk
  case inl hk => rw [hk]
  case inr hb =>
    obtain ⟨ptr, hl, ha⟩ := hi.shared hb
    rw [hl, ha]

-- The provider reports a second turn id, and the turn is deleted under it.
theorem aliases_follow_turns_demo :
    let calls : List TurnCall := [
      .put "claude" "s1" "t1" { callerName := "nightly" },
      .bind "claude" "s1" "t1" "p1",
      .bind "claude" "s1" "t1" "p2"
    ]
    let store := (run calls).store
    Kept calls ∧
    (∃ binding,
      store.getTurnBinding "claude" "s1" "t1" = some binding ∧
      store.getTurnBinding "claude" "s1" "p2" = some binding) ∧
    ∀ key cell, (store.deleteTurnBinding "claude" "s1" "p2").cell key = some cell →
      cell.turn ≠ turnBindingKey "claude" "s1" "t1" := by
  have h : Kept [
      .put "claude" "s1" "t1" { callerName := "nightly" },
      .bind "claude" "s1" "t1" "p1",
      .bind "claude" "s1" "t1" "p2"
    ] := by
    refine .snoc [_, _] _ (.snoc [_] _ (.snoc [] _ .nil ?_) (.inl ?_)) (.inl ?_)
    all_goals exact unshared_of_lookup_eq_none (by decide +kernel)
  have ha := aliases_follow_turns h "claude" "s1" "t1"
  exact ⟨h, ha.left "p2" (by decide +kernel), ha.right "p2" (.inr (by decide +kernel))⟩

-- A turn is put again. Its provider turn id keeps the old binding, also after the turn is deleted.
theorem alias_outlives_turn :
    let calls : List TurnCall := [
      .put "claude" "s1" "t1" { callerName := "nightly" },
      .bind "claude" "s1" "t1" "p1",
      .put "claude" "s1" "t1" { callerName := "nightly" }
    ]
    let store := (run calls).store
    (run calls).bound (turnBindingKey "claude" "s1" "t1") = some (turnBindingKey "claude" "s1" "p1") ∧
    store.getTurnBinding "claude" "s1" "t1" ≠ store.getTurnBinding "claude" "s1" "p1" ∧
    ((store.deleteTurnBinding "claude" "s1" "t1").cell (turnBindingKey "claude" "s1" "p1")).map
      TurnCell.turn = some (turnBindingKey "claude" "s1" "t1") := by
  decide +kernel

end TurnHistory
end Agents
