import GestaltModel.HostedAgents.Keys

-- A separator between two texts splits them apart, whatever separators they have themselves.
theorem Text.split_append (sep : Char) (s s' : String) :
    split sep (s ++ .singleton sep ++ s') = split sep s ++ split sep s' := by
  simp only [split, String.toList_append, String.toList_singleton, List.append_assoc,
    List.singleton_append, List.splitOn_append_cons_self, List.map_append]

-- Nothing is lost by splitting, as the pieces joined by the separator give the text again.
theorem Text.split_injective (sep : Char) : Function.Injective (split sep) := by
  intro s s' h
  have hl : s.toList.splitOn sep = s'.toList.splitOn sep :=
    List.map_injective_iff.mpr (fun _ _ => String.ofList_inj.mp) h
  have hj := congrArg [sep].intercalate hl
  rwa [List.intercalate_splitOn, List.intercalate_splitOn, String.toList_inj] at hj

theorem Text.split_eq_singleton (h : sep ∉ s.toList) :
    split sep s = [s] := by
  rw [split, List.splitOn_eq_singleton h, List.map_singleton, String.ofList_toList]

-- The text before the first separator is determined, if it has no separator itself.
theorem Text.append_singleton_inj {a b a' b' : String} (ha : sep ∉ a.toList)
    (ha' : sep ∉ a'.toList) (h : a ++ .singleton sep ++ b = a' ++ .singleton sep ++ b') :
    a = a' ∧ b = b' := by
  have hs := congrArg (split sep) h
  rw [split_append, split_append, split_eq_singleton ha, split_eq_singleton ha'] at hs
  have ⟨ha, hb⟩ := List.cons.inj hs
  exact ⟨ha, split_injective sep hb⟩

namespace HostedAgents.KeyedCreate

variable {newString : String} {newSHA1 : String → String}

theorem ext_of_texts {c c' : KeyedCreate} (hp : c.poolName = c'.poolName)
    (hs : c.subjectID = c'.subjectID) (hk : c.idempotencyKey = c'.idempotencyKey) : c = c' := by
  cases c
  cases c'
  cases hp
  cases hs
  cases hk
  rfl

variable (c : KeyedCreate)

theorem createKey_eq : c.createKey = c.subjectID ++ .singleton '\x1f' ++ c.idempotencyKey := by
  have hs : Text.trimSpace c.subjectID = c.subjectID := c.subject_trimmed
  have hk : Text.trimSpace c.idempotencyKey = c.idempotencyKey := c.key_trimmed
  have hc : "\x1f" = String.singleton '\x1f' := by decide
  rw [createKey, hostedAgentCreateKey, hs, hk, if_neg c.key_ne, hc]

-- The three texts as `hostedAgentWorkspaceRef` joins them.
def joined : String :=
  c.poolName ++ ":" ++ c.subjectID ++ ":" ++ c.idempotencyKey

theorem workspaceScope_eq : workspaceScope c.poolName c.subjectID c.idempotencyKey =
      "gestalt:agent-workspace:" ++ c.joined := by
  have hp : Text.trimSpace c.poolName = c.poolName := c.pool_trimmed
  have hs : Text.trimSpace c.subjectID = c.subjectID := c.subject_trimmed
  have hk : Text.trimSpace c.idempotencyKey = c.idempotencyKey := c.key_trimmed
  unfold workspaceScope joined
  rw [hp, hs, hk, String.append_assoc, String.append_assoc, String.append_assoc,
    String.append_assoc, String.append_assoc, String.append_assoc, String.append_assoc]

theorem workspaceRef_eq :
    c.workspaceRef newString newSHA1 = newSHA1 ("gestalt:agent-workspace:" ++ c.joined) := by
  have hk : Text.trimSpace c.idempotencyKey = c.idempotencyKey := c.key_trimmed
  rw [workspaceRef, hostedAgentWorkspaceRef, hk, if_neg c.key_ne, workspaceScope_eq]

theorem pieces_eq : c.pieces = Text.split ':' c.joined := by
  have h (s s' : String) : Text.split ':' (s ++ ":" ++ s') = _ := Text.split_append ':' s s'
  rw [pieces, joined, h, h]

theorem workspaceRef_eq_iff (hi : Function.Injective newSHA1) {c c' : KeyedCreate} :
    c.workspaceRef newString newSHA1 = c'.workspaceRef newString newSHA1 ↔ c.pieces = c'.pieces := by
  rw [workspaceRef_eq, workspaceRef_eq, hi.eq_iff, String.append_right_inj, pieces_eq, pieces_eq,
    (Text.split_injective ':').eq_iff]

-- The workspaces of two creates differ exactly if the colons do not cut them into the same pieces.
-- The create keys always differ.
theorem workspaces_not_shared (hi : Function.Injective newSHA1) {c c' : KeyedCreate}
    (hne : c ≠ c') :
    (c.workspaceRef newString newSHA1 ≠ c'.workspaceRef newString newSHA1 ↔ c.pieces ≠ c'.pieces) ∧
    (c.poolName = c'.poolName → '\x1f' ∉ c.subjectID.toList → '\x1f' ∉ c'.subjectID.toList →
      c.createKey ≠ c'.createKey) := by
  refine ⟨(workspaceRef_eq_iff hi).not, ?_⟩
  intro hp hs hs' h
  rw [createKey_eq, createKey_eq] at h
  have ⟨hs, hk⟩ := Text.append_singleton_inj hs hs' h
  exact hne <| ext_of_texts hp hs hk

-- Requests of an app's bindings, with subjects `system:http_binding:` and their names.
def hookCreate : KeyedCreate where
  poolName := "claude"
  subjectID := "system:http_binding:crm:hook"
  idempotencyKey := "lead:1"

def leadHookCreate : KeyedCreate where
  poolName := "claude"
  subjectID := "system:http_binding:crm:hook:lead"
  idempotencyKey := "1"

def nextLeadHookCreate : KeyedCreate where
  poolName := "claude"
  subjectID := "system:http_binding:crm:hook:lead"
  idempotencyKey := "2"

theorem workspaces_not_shared_demo : hookCreate ≠ nextLeadHookCreate ∧
    hookCreate.workspaceRef "" id ≠ nextLeadHookCreate.workspaceRef "" id ∧
    hookCreate.createKey ≠ nextLeadHookCreate.createKey := by
  have hne : hookCreate ≠ nextLeadHookCreate := by
    intro h
    exact absurd (congrArg KeyedCreate.idempotencyKey h) (by decide)
  have h := @workspaces_not_shared "" id Function.injective_id _ _ hne
  exact ⟨hne, h.left.mpr (by decide +kernel), h.right rfl (by decide +kernel) (by decide +kernel)⟩

-- Moving the colon between the subject and the key gives the same name, whatever the hash is.
theorem moved_colon_shares_workspace : hookCreate.subjectID ≠ leadHookCreate.subjectID ∧
    ∀ newString newSHA1, hookCreate.workspaceRef newString newSHA1 =
      leadHookCreate.workspaceRef newString newSHA1 := by
  refine ⟨by decide, fun newString newSHA1 => ?_⟩
  rw [workspaceRef_eq, workspaceRef_eq]
  congr 1

end HostedAgents.KeyedCreate
