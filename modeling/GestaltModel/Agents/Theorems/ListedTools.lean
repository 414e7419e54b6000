import Mathlib.Data.List.FinRange
import GestaltModel.Agents.ListedTools
import GestaltModel.Grouping.Theorems.Basic

namespace Agents

open Grouping (lex_step not_eq_true_iff_lt)
open ListedTool

-- The order of the tools, in which the id decides last.
def ListedTool.rank (t : ListedTool) : Bool ×ₗ String ×ₗ String ×ₗ String ×ₗ String ×ₗ String ×ₗ
    String ×ₗ String ×ₗ String :=
  toLex (listedAgentToolUnavailable t, toLex (t.mcpName, toLex (t.target.system, toLex (t.target.app,
    toLex (t.target.operation, toLex (t.target.connection, toLex (t.target.instance_,
      toLex (t.target.credentialMode, t.toolID))))))))

theorem sortLess_iff (a b : ListedTool) :
    listedAgentToolSortLess a b = true ↔ a.rank < b.rank := by
  simp only [listedAgentToolSortLess, rank]
  apply lex_step Iff.rfl not_eq_true_iff_lt
  repeat apply lex_step Iff.rfl (fun _ => by simp)
  simp

theorem ListedTool.toolID_eq_of_rank_eq {a b : ListedTool} (h : a.rank = b.rank) :
    a.toolID = b.toolID := by
  simp only [rank, toLex_inj, Prod.mk.injEq] at h
  tauto

theorem ListedTool.baseName_ne_empty (tool : ListedTool) : tool.baseName ≠ "" := by
  rw [baseName]
  split
  case isTrue => decide
  case isFalse => assumption

namespace ToolNames

variable {names : ToolNames} {base : String}

theorem add_ne_empty (h : base ≠ "") : (names.add base).1 ≠ "" := by
  rw [add]
  split
  case isTrue => simp [numbered]
  case isFalse => exact h

theorem rename_allocates : FreshNames.Allocates rename (·.mcpName) (·.used) where
  fresh names tool := by
    simp only [rename, add]
    split
    case isTrue => exact FreshNames.firstFree_notMem (numbered_injective _) names.used _
    case isFalse => assumption
  takes names tool := by
    simp only [rename, add]
    split <;> rfl

end ToolNames

-- What is written in an order without repetition is what the tools in this order are renamed to.
theorem assign_inOrder {order : List (Fin n)} (h : order.Nodup) :
    ∀ s : (Fin n → ListedTool) × ToolNames,
    let out := (order.foldl assignName s).1
    order.map out = FreshNames.run ToolNames.rename s.2 (order.map s.1) ∧ (∀ i ∉ order, out i = s.1 i) ∧
    ∀ i, out i = { s.1 i with mcpName := (out i).mcpName } := by
  induction order
  case nil => simp [FreshNames.run]
  case cons i order hi =>
    intro s
    obtain ⟨hn, hd⟩ := List.nodup_cons.mp h
    obtain ⟨hr, hf, hs⟩ := hi hd (assignName s i)
    have hself : (assignName s i).1 i = (s.2.rename (s.1 i)).1 := Function.update_self ..
    have hne : ∀ j ≠ i, (assignName s i).1 j = s.1 j := fun j hj => Function.update_of_ne hj ..
    refine ⟨?_, ?_, ?_⟩
    case refine_1 =>
      rw [List.map_congr_left fun j hj => hne j (ne_of_mem_of_not_mem hj hn)] at hr
      rw [List.map_cons, List.map_cons, FreshNames.run, List.foldl_cons, hf i hn, hself, hr]
      rfl
    case refine_2 =>
      intro j hj
      rw [List.mem_cons, not_or] at hj
      exact (hf j hj.right).trans (hne j hj.left)
    case refine_3 =>
      intro j
      refine (hs j).trans ?_
      by_cases he : j = i
      case pos => rw [he, hself]; rfl
      case neg => rw [hne j he]; rfl

def ListedTool.sorted (tools : List ListedTool) : List ListedTool :=
  tools.insertionSort fun a b => ¬listedAgentToolSortLess b a

theorem ListedTool.sorted_pairwise (tools : List ListedTool) :
    (sorted tools).Pairwise fun a b => a.rank ≤ b.rank := by
  have hr (a b : ListedTool) : ¬listedAgentToolSortLess b a = true ↔ a.rank ≤ b.rank := by
    rw [sortLess_iff, not_lt]
  have : Std.Total fun a b : ListedTool => ¬listedAgentToolSortLess b a = true :=
    ⟨fun a b => by simp only [hr, le_total]⟩
  have : IsTrans ListedTool fun a b => ¬listedAgentToolSortLess b a = true :=
    ⟨fun a b c => by simpa only [hr] using le_trans⟩
  exact (List.pairwise_insertionSort _ tools).imp (hr _ _).mp

-- The order does not depend on where a tool stands in the list.
theorem ListedTool.sorted_eq_of_perm
    (h : (tools.map (·.toolID)).Nodup) (hp : tools'.Perm tools) : sorted tools' = sorted tools := by
  have hs : (sorted tools').Perm (sorted tools) :=
    (List.perm_insertionSort ..).trans (hp.trans (List.perm_insertionSort ..).symm)
  apply hs.eq_of_pairwise ?_ (sorted_pairwise tools') (sorted_pairwise tools)
  intro a b ha hb hab hba
  apply List.inj_on_of_nodup_map h
  case _ => exact hp.mem_iff.mp ((List.mem_insertionSort _).mp ha)
  case _ => exact (List.mem_insertionSort _).mp hb
  case _ => exact toolID_eq_of_rank_eq (le_antisymm hab hba)

theorem assign_spec (tools : List ListedTool) :
    let out := assignStableUniqueListedAgentToolNames tools
    out.Perm (FreshNames.run ToolNames.rename ⟨∅, ∅⟩ (sorted tools)) ∧
    List.Forall₂ (fun tool named => named = { tool with mcpName := named.mcpName }) tools out := by
  have hp := List.perm_insertionSort (fun i j =>
    ¬listedAgentToolSortLess (tools.get j) (tools.get i)) (List.finRange tools.length)
  obtain ⟨hr, -, hs⟩ := assign_inOrder (hp.nodup_iff.mpr (List.nodup_finRange _))
    (tools.get, ⟨∅, ∅⟩)
  rw [List.map_insertionSort (s := fun a b => ¬listedAgentToolSortLess b a) _ _ _
    (fun _ _ _ _ => Iff.rfl),
    ← List.ofFn_eq_map, List.ofFn_get] at hr
  constructor
  case left =>
    rw [sorted, ← hr, assignStableUniqueListedAgentToolNames, List.ofFn_eq_map]
    exact hp.symm.map _
  case right =>
    rw [assignStableUniqueListedAgentToolNames, List.forall₂_iff_get]
    refine ⟨by simp, ?_⟩
    intro i hi hi'
    simpa [assignUniqueListedAgentToolNamesInOrder] using hs ⟨i, hi⟩

theorem tool_names_unique_and_stable {tools : List ListedTool}
    (h : (tools.map (·.toolID)).Nodup) :
    let out := assignStableUniqueListedAgentToolNames tools
    List.Forall₂ (fun tool named => named = { tool with mcpName := named.mcpName }) tools out ∧
    (∀ named ∈ out, named.mcpName ≠ "") ∧
    (out.map (·.mcpName)).Nodup ∧
    ∀ tools', tools'.Perm tools →
      ∀ named ∈ out, ∀ named' ∈ assignStableUniqueListedAgentToolNames tools',
        named'.toolID = named.toolID → named'.mcpName = named.mcpName := by
  intro out
  obtain ⟨hp, hf⟩ := assign_spec tools
  refine ⟨hf, ?_, ?_, ?_⟩
  case refine_1 =>
    intro named hm
    obtain ⟨names, tool, -, rfl, -⟩ := ToolNames.rename_allocates.mem_run (hp.mem_iff.mp hm)
    exact ToolNames.add_ne_empty tool.baseName_ne_empty
  case refine_2 => exact (hp.map _).nodup_iff.mpr (ToolNames.rename_allocates.nodup ..)
  case refine_3 =>
    intro tools' ht named hm named' hm' hi
    obtain ⟨hp', -⟩ := assign_spec tools'
    rw [sorted_eq_of_perm h ht] at hp'
    have hm'' := hp.symm.mem_iff.mp (hp'.mem_iff.mp hm')
    have hids : out.map (·.toolID) = tools.map (·.toolID) := by
      have hi := hf.imp (S := fun tool named => named.toolID = tool.toolID) fun _ _ h => by rw [h]
      exact List.forall₂_eq_eq_eq ▸ List.forall₂_map_right_iff.mpr
        (List.forall₂_map_left_iff.mpr hi.flip)
    rw [List.inj_on_of_nodup_map (hids ▸ h) hm'' hm hi]

theorem tool_names_of_colliding :
    let tools := [(⟨"1", "a_2", {}⟩ : ListedTool), ⟨"2", "a", {}⟩, ⟨"3", "a", {}⟩, ⟨"4", " ", {}⟩]
    (tools.map (·.toolID)).Nodup ∧
    ((assignStableUniqueListedAgentToolNames tools).map (·.mcpName)).Nodup ∧
    ∀ named ∈ assignStableUniqueListedAgentToolNames tools,
      ∀ named' ∈ assignStableUniqueListedAgentToolNames tools.reverse,
        named'.toolID = named.toolID → named'.mcpName = named.mcpName := by
  intro tools
  have h : (tools.map (·.toolID)).Nodup := by decide
  obtain ⟨-, -, hn, hs⟩ := tool_names_unique_and_stable h
  exact ⟨h, hn, hs _ tools.reverse_perm⟩

end Agents
