import GestaltModel.Coredata.AppAllowedOperations
import GestaltModel.Interleaving.Theorems.Cell

namespace Coredata.AppAllowedOperationsService

open Interleaving Cell

variable {ι : Type} {app : String} {policy patch : AppOperationPolicy} {id : String}

section RoundTrip

theorem lookup_foldl_removed {removed : List String} :
    (removed.foldl (fun policy id => policy.insert id []) policy).lookup id =
      if id ∈ removed then some [] else policy.lookup id := by
  induction removed generalizing policy
  case nil => simp
  case cons k removed hi =>
    rw [List.foldl_cons, hi]
    by_cases hk : id = k
    case pos =>
      subst hk
      simp [Finmap.lookup_insert]
    case neg => simp [hk, Finmap.lookup_insert_of_ne]

theorem lookup_addRoles :
    (addRoles policy operations k).lookup id =
      if id = k then ((policy.lookup id).filter (· ≠ [])).or (operations.lookup id)
      else operations.lookup id := by
  by_cases hk : id = k
  case neg =>
    rw [if_neg hk, addRoles]
    split
    case h_1 => rfl
    case h_2 => rfl
    case h_3 => exact Finmap.lookup_insert_of_ne _ hk
  case pos =>
    subst hk
    rw [if_pos rfl, addRoles]
    split
    case h_1 h => simp [h]
    case h_2 h => simp [h, Option.filter]
    case h_3 roles hn h =>
      have hr : roles ≠ [] := hn
      simp [h, Option.filter, hr, Finmap.lookup_insert]

theorem lookup_foldl_addRoles {keys : List String} :
    (keys.foldl (addRoles policy) operations).lookup id =
      if id ∈ keys then ((policy.lookup id).filter (· ≠ [])).or (operations.lookup id)
      else operations.lookup id := by
  induction keys generalizing operations
  case nil => simp
  case cons k keys hi =>
    rw [List.foldl_cons, hi, lookup_addRoles]
    by_cases hk : id = k
    case pos =>
      subst hk
      cases (policy.lookup id).filter (· ≠ []) <;> simp
    case neg => simp [hk]

theorem lookup_withRoles : (withRoles policy).lookup id = (policy.lookup id).filter (· ≠ []) := by
  rw [withRoles, lookup_foldl_addRoles, Finmap.lookup_empty]
  simp only [GoMap.mem_sortedKeys]
  cases hl : policy.lookup id
  case none => simp
  case some roles => simp [Finmap.mem_of_lookup_eq_some hl]

theorem mem_withoutRoles : id ∈ withoutRoles policy ↔ policy.lookup id = some [] := by
  rw [withoutRoles, List.mem_filter, GoMap.mem_sortedKeys, decide_eq_true_eq]
  exact and_iff_right_of_imp Finmap.mem_of_lookup_eq_some

theorem decodedPolicy_encoded : decodedPolicy (withRoles policy) (withoutRoles policy) = policy := by
  refine Finmap.ext_lookup fun id => ?_
  rw [decodedPolicy]
  cases hl : (withRoles policy).lookup id
  case some roles =>
    rw [Finmap.lookup_union_left (Finmap.mem_of_lookup_eq_some hl), hl]
    rw [lookup_withRoles, Option.filter_eq_some_iff] at hl
    exact hl.left.symm
  case none =>
    rw [Finmap.lookup_union_right (Finmap.lookup_eq_none.mp hl), lookup_foldl_removed]
    simp only [mem_withoutRoles, Finmap.lookup_empty]
    rw [lookup_withRoles, Option.filter_eq_none_iff] at hl
    cases hp : policy.lookup id
    case none       => simp
    case some roles =>
      have hr : roles = [] := by simpa using hl roles hp
      simp [hr]

theorem getAppOperationPolicy_policyRecord :
    getAppOperationPolicy (some (policyRecord app policy now)) = .ok policy :=
  congrArg Except.ok decodedPolicy_encoded

end RoundTrip

section Serial

variable {calls : ι → PatchCall} {initial content : Option AppOperationsRecord} {order : List ι}
  {i : ι}

theorem getAppOperationPolicy_of_committed
    (h : Committed (fun i => (calls i).client app) initial order content) :
    getAppOperationPolicy content = (getAppOperationPolicy initial).map (serial calls order) := by
  induction h
  case nil =>
    cases getAppOperationPolicy initial <;> rfl
  case snoc order content i f b _ hc hf hi =>
    rw [PatchCall.client] at hc
    split at hc
    case isTrue  => contradiction
    case isFalse =>
      cases hc
      obtain ⟨policy, hp, hb⟩ := Except.bind_eq_ok_iff.mp hf
      cases hb
      rw [getAppOperationPolicy_policyRecord]
      rw [hp] at hi
      cases h₀ : getAppOperationPolicy initial
      case error => rw [h₀] at hi; contradiction
      case ok policy₀ =>
        rw [h₀] at hi
        cases hi
        simp [Except.map, serial]

theorem decodes_of_committed
    (h : Committed (fun i => (calls i).client app) initial order content) (hm : i ∈ order) :
    ∃ policy, getAppOperationPolicy initial = .ok policy := by
  induction h
  case nil => contradiction
  case snoc order content j f b hc hj hf hi =>
    rw [PatchCall.client] at hj
    split at hj
    case isTrue  => contradiction
    case isFalse =>
      cases hj
      obtain ⟨policy, hp, -⟩ := Except.bind_eq_ok_iff.mp hf
      rw [getAppOperationPolicy_of_committed hc] at hp
      cases h₀ : getAppOperationPolicy initial
      case error     => rw [h₀] at hp; contradiction
      case ok policy => exact ⟨policy, rfl⟩

theorem lookup_serial (hm : i ∈ order)
    (hi : (calls i).patch.lookup id = some roles) (hj : ∀ j ≠ i, id ∉ (calls j).patch) :
    (serial calls order policy).lookup id = some roles := by
  induction order using List.reverseRecOn
  case nil => contradiction
  case append_singleton order j ih =>
    rw [serial, List.foldl_append, List.foldl_cons, List.foldl_nil]
    by_cases he : j = i
    case pos =>
      subst he
      rw [Finmap.lookup_union_left (Finmap.mem_of_lookup_eq_some hi), hi]
    case neg =>
      rw [Finmap.lookup_union_right (hj j he)]
      refine ih ?_
      rcases List.mem_append.mp hm with hm | hm
      · exact hm
      · exact absurd (List.mem_singleton.mp hm).symm he

-- If each call overwrites the record it has read and all return without an error, the stored policy
-- is the one after all patches in some order.
theorem patches_serializable [DecidableEq ι]
    {c : Config ι (Call AppOperationsRecord) (Response Failure) (Except Failure Unit)
      (Memory ι AppOperationsRecord)}
    (e : Reaches (semantics ι AppOperationsRecord Failure) unmoved
      (config app calls initial) c)
    (hr : ∀ i, c.prog i = .ret (.ok ())) :
    ∃ order : List ι, order.Nodup ∧ (∀ i, (calls i).patch ≠ ∅ → i ∈ order) ∧
      getAppOperationPolicy c.mem.content =
        (getAppOperationPolicy initial).map (serial calls order) ∧
      ∀ i id roles, (calls i).patch.lookup id = some roles → (∀ j ≠ i, id ∉ (calls j).patch) →
        ∃ policy, getAppOperationPolicy c.mem.content = .ok policy ∧
          policy.lookup id = some roles := by
  obtain ⟨order, h⟩ := Cell.Linearized.reaches e
  have hm : ∀ i, (calls i).patch ≠ ∅ → i ∈ order := by
    intro i hi
    exact h.mem_of_ok (if_neg hi) (hr i)
  have hp := getAppOperationPolicy_of_committed h.committed
  refine ⟨order, h.nodup, hm, hp, fun i id roles hl hj => ?_⟩
  have hi : i ∈ order := by
    refine hm i fun he => ?_
    rw [he, Finmap.lookup_empty] at hl
    contradiction
  obtain ⟨policy, h₀⟩ := decodes_of_committed h.committed hi
  rw [h₀] at hp
  exact ⟨serial calls order policy, hp, lookup_serial hi hl hj⟩

end Serial

def demoCalls : Bool → PatchCall
  | false => { patch := Finmap.singleton "read" ["viewer"], now := 0 }
  | true => { patch := Finmap.singleton "write" [], now := 0 }

theorem patches_serializable_demo :
    ∃ c, Reaches (semantics Bool AppOperationsRecord Failure) unmoved
        (config "notes" demoCalls none) c ∧
      (∀ i, c.prog i = .ret (.ok ())) ∧
      ∃ order : List Bool, order.Nodup ∧ (∀ i, (demoCalls i).patch ≠ ∅ → i ∈ order) ∧
        getAppOperationPolicy c.mem.content = .ok (serial demoCalls order ∅) := by
  obtain ⟨c, e, hr⟩ : ∃ c, Reaches (semantics Bool AppOperationsRecord Failure) unmoved
      (config "notes" demoCalls none) c ∧ ∀ i, (c.prog i).result? = some (.ok ()) :=
    Config.exists_reaches_of_run
      [.call false none, .call false none, .call true none, .call true none] (by decide +kernel)
  have hr : ∀ i, c.prog i = .ret (.ok ()) := fun i => Program.eq_ret_of_result? (hr i)
  obtain ⟨order, hn, hm, hp, -⟩ := patches_serializable e hr
  exact ⟨c, e, hr, order, hn, hm, hp⟩

-- Both read before one of them writes, and the first patch is lost.
theorem patch_lost :
    ∃ c, Reaches (semantics Bool AppOperationsRecord Failure) unguarded
        (config "notes" demoCalls none) c ∧
      (∀ i, c.prog i = .ret (.ok ())) ∧
      (demoCalls false).patch.lookup "read" = some ["viewer"] ∧
      (∀ j ≠ false, "read" ∉ (demoCalls j).patch) ∧
      ∃ policy, getAppOperationPolicy c.mem.content = .ok policy ∧ policy.lookup "read" = none := by
  obtain ⟨c, e, hr, hp⟩ : ∃ c, Reaches (semantics Bool AppOperationsRecord Failure) unguarded
      (config "notes" demoCalls none) c ∧ (∀ i, (c.prog i).result? = some (.ok ())) ∧
      (getAppOperationPolicy c.mem.content).toOption.map (·.lookup "read") = some none :=
    Config.exists_reaches_of_run
      [.call false none, .call true none, .call false none, .call true none] (by decide +kernel)
  refine ⟨c, e, fun i => Program.eq_ret_of_result? (hr i), by decide +kernel, by decide +kernel, ?_⟩
  exact Except.eq_ok_of_toOption hp

end Coredata.AppAllowedOperationsService
