import GestaltModel.Invocation.AccessCheck

namespace Invocation

open Authorization ResourceAccessRequest
open Text (trimSpace)

variable {evaluator : Evaluator} {answer : CheckAccessRequest → CheckAccessResponse}
  {req : ResourceAccessRequest} {reqs : List ResourceAccessRequest}

section Relations

variable {relations allowedRoles : List String}

theorem matchedAllowedRole_ne_empty : matchedAllowedRole relations allowedRoles ≠ "" ↔
    ∃ role ∈ allowedRoles, trimSpace role ≠ "" ∧
      trimSpace role ∈ relations.map trimSpace := by
  let matched := (relations.map trimSpace).filter (· ≠ "")
  have hm {role} : role ∈ matched ↔ role ≠ "" ∧ role ∈ relations.map trimSpace := by
    rw [List.mem_filter, decide_eq_true_eq, and_comm]
  have hr : matchedAllowedRole relations allowedRoles =
    ((allowedRoles.map trimSpace).find? (· ∈ matched)).getD "" := rfl
  rw [hr]
  cases hf : (allowedRoles.map trimSpace).find? (· ∈ matched)
  case none =>
    simp only [List.find?_eq_none, List.forall_mem_map, decide_eq_true_eq, hm] at hf
    simpa using hf
  case some role =>
    obtain ⟨role', ha, rfl⟩ := List.mem_map.mp (List.mem_of_find?_eq_some hf)
    have hp : trimSpace role' ∈ matched := by simpa using List.find?_some hf
    obtain ⟨hn, hp⟩ := hm.mp hp
    exact iff_of_true hn ⟨role', ha, hn, hp⟩

theorem boundedRelations_subset : boundedRelations relations ⊆ relations.map trimSpace := by
  have hg : ∀ out, boundedRelations.go out relations ⊆ out ++ relations.map trimSpace := by
    induction relations
    case nil => simp [boundedRelations.go]
    case cons relation relations hi =>
      intro out
      have ho : out ++ relations.map trimSpace ⊆ out ++ (relation :: relations).map trimSpace :=
        List.append_subset.mpr ⟨List.subset_append_left _ _,
          List.subset_append_of_subset_right _ (List.subset_cons_self _ _)⟩
      have hc : out ++ [trimSpace relation] ++ relations.map trimSpace =
          out ++ (relation :: relations).map trimSpace := by simp
      rw [boundedRelations.go]
      split
      case isTrue => exact List.Subset.trans (hi out) ho
      case isFalse =>
        split
        case isTrue  => exact hc ▸ List.subset_append_left _ _
        case isFalse => exact hc ▸ hi _
  exact hg []

theorem resourceAccessDecision_allowed {resp : CheckAccessResponse} :
    (resourceAccessDecision resp allowedRoles).allowed ↔ resp.allowed ∧ (allowedRoles = [] ∨
      matchedAllowedRole (boundedRelations resp.matchedRelations) allowedRoles ≠ "") := by
  rw [resourceAccessDecision]
  by_cases ha : resp.allowed
  case neg => simp [ha]
  case pos =>
    by_cases hn : allowedRoles = []
    case pos => simp [ha, hn]
    case neg =>
      by_cases hm : matchedAllowedRole (boundedRelations resp.matchedRelations) allowedRoles = "" <;>
        simp [ha, hn, hm]

end Relations

theorem ResourceAccessRequest.protoRequest_subject :
    (req.protoRequest.subject.map Subject.id) = some (trimSpace req.subjectID) := by
  rw [protoRequest]
  split <;> rfl

theorem ResourceAccessRequest.question_eq :
    req.question = if req.Degenerate then none else some req.protoRequest := by
  have ha : req.protoRequest.action.map Action.name = some (trimSpace req.action) := by
    rw [protoRequest]
    split <;> rfl
  have hr : req.protoRequest.resource = req.resource := by
    rw [protoRequest]
    split <;> rfl
  simp only [question, protoRequest_subject, ha, hr, Option.getD_some]
  rfl

section Pointwise

variable (h : evaluator.Pointwise answer)

include h

theorem checkResourceAccess_eq :
    checkResourceAccess (some evaluator) req = .ok (req.decision answer) := by
  rw [checkResourceAccess, decision]
  split
  case isTrue => rfl
  case isFalse => rw [h.one]; rfl

theorem checkResourceAccessMany_eq (hl : reqs.length ≤ maxBatchedAccessChecks) :
    checkResourceAccessMany (some evaluator) reqs =
      .ok (reqs.map (decision answer)) := by
  let batch := Batching.gather question reqs
  let value (e : Nat × CheckAccessRequest) : ResourceAccessDecision :=
    resourceAccessDecision (answer e.2) ((reqs[e.1]?.map (·.allowedRoles)).getD [])
  have hz : (batch.map Prod.fst).zip ((batch.map Prod.snd).map fun req => some (answer req)) =
      batch.map fun e => (e.1, some (answer e.2)) := by
    rw [List.map_map, List.zip_map']
    rfl
  have hs : Batching.scatter (reqs.map fun _ => {}) (batch.map Prod.fst) (batch.map value) =
      reqs.map (decision answer) := by
    have hv : ∀ i req question, reqs[i]? = some req → req.question = some question →
        value (i, question) = resourceAccessDecision (answer question) req.allowedRoles := by
      intro i req question hi _
      simp [value, hi]
    rw [Batching.scatter_gather hv]
    apply List.map_congr_left
    intro req _
    rw [question_eq, decision]
    split <;> rfl
  rw [checkResourceAccessMany, if_neg (Nat.not_lt.mpr hl)]
  by_cases he : batch = []
  case pos =>
    rw [he] at hs
    rw [if_pos he, ← hs]
    rfl
  case neg =>
    rw [if_neg he, h.many]
    have hm : ((batch.map Prod.fst).zip ((batch.map Prod.snd).map fun req => some (answer req))).mapM
        (fun e => projectDecision reqs e.1 e.2) = .ok (batch.map value) := by
      rw [hz, List.mapM_map]
      exact List.mapM_pure
    have hn : ((batch.map Prod.snd).map fun req => some (answer req)).length = batch.length := by simp
    change (if _ then _ else _ : Except Failure _) = _
    rw [if_neg (not_not.mpr hn), hm, ← hs]
    rfl

end Pointwise

end Invocation
