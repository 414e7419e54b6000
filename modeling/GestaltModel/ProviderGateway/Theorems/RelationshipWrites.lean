import GestaltModel.ProviderGateway.RelationshipWrites

namespace ProviderGateway

open Authorization Invocation

section Rules

variable {g : Gateway} {subjectID : String} {tuple : RelationshipTuple}

theorem isScimManagedGroup_resourceID :
    isScimManagedGroup g tuple.resourceID ↔ tuple.resourceID ∈ g.scimManagedGroupIDs := by
  simp [isScimManagedGroup, RelationshipTuple.resourceID, Text.trimSpace_trimSpace]

theorem allowsGroupScopedRelationshipMutation_eq_true
    (h : allowsGroupScopedRelationshipMutation g subjectID tuple = .ok true) :
    relationshipTupleHasDirectSubjectTarget tuple ∧
      tuple.resourceID ∉ g.scimManagedGroupIDs ∧
      isResourceAdmin g subjectID "group" tuple.resourceID = .ok true := by
  unfold allowsGroupScopedRelationshipMutation at h
  by_cases hm : isGroupMemberRelationshipTuple tuple <;> simp [hm] at h
  by_cases hd : relationshipTupleHasDirectSubjectTarget tuple <;> simp [hd] at h
  by_cases hi : tuple.resourceID = "" <;> simp [hi] at h
  by_cases hs : isScimManagedGroup g tuple.resourceID <;> simp [hs] at h
  exact ⟨hd, fun hc => hs (isScimManagedGroup_resourceID.mpr hc), h⟩

theorem allowsAppScopedRelationshipMutation_eq_true
    (h : allowsAppScopedRelationshipMutation g subjectID tuple = .ok true) :
    isResourceAdmin g subjectID "app" tuple.resourceID = .ok true := by
  unfold allowsAppScopedRelationshipMutation at h
  by_cases ha : isAppScopedRelationshipTuple tuple <;> simp [ha] at h
  by_cases hi : tuple.resourceID = "" <;> simp [hi] at h
  by_cases hr : tuple.relationName = "" <;> simp [hr] at h
  by_cases hd : relationshipTupleHasDelegableTarget tuple <;> simp [hd] at h
  exact h

theorem allowsTuples_eq_true (h : allowsTuples g subjectID globalAdmin tuples = .ok true) :
    ∀ tuple ∈ tuples, allowsRelationshipTupleWrite g subjectID globalAdmin tuple = .ok true := by
  induction tuples
  case nil => simp
  case cons hd tl hi =>
    obtain ⟨allowed, ha, h⟩ := Except.bind_eq_ok_iff.mp h
    cases allowed
    case false => cases h
    case true  => exact List.forall_mem_cons.mpr ⟨ha, hi h⟩

theorem denyUnless_eq_ok : denyUnless allowed = .ok u ↔ allowed := by
  cases allowed <;> simp [denyUnless]

end Rules

section Apply

variable {store : Store} {tuple : RelationshipTuple}

theorem mem_applyUpdate (h : ∀ u ∈ update, u.relationship.join ≠ some tuple) :
    tuple ∈ applyUpdate store update ↔ tuple ∈ store := by
  cases update
  case none => rfl
  case some update =>
    replace h := h update rfl
    unfold applyUpdate
    dsimp only
    cases hu : update.relationship.join
    case none => rfl
    case some written =>
      have hn : tuple ≠ written := fun he => h (by rw [hu, he])
      cases update.operation <;> simp [hn]

theorem mem_foldl_applyUpdate {updates : List (Option RelationshipUpdate)}
    (h : ∀ update ∈ updates, ∀ u ∈ update, u.relationship.join ≠ some tuple) :
    tuple ∈ updates.foldl applyUpdate store ↔ tuple ∈ store := by
  induction updates generalizing store
  case nil => rfl
  case cons hd tl hi =>
    obtain ⟨hd', htl⟩ := List.forall_mem_cons.mp h
    exact (hi htl).trans (mem_applyUpdate hd')

theorem mem_apply (h : some tuple ∉ relationshipTuplesFromAuthorizationRequest req) :
    tuple ∈ apply store req ↔ tuple ∈ store := by
  cases req
  case addRelationship relationship =>
    obtain _ | _ | written := relationship
    · rfl
    · rfl
    · have hn : tuple ≠ written := by simpa [relationshipTuplesFromAuthorizationRequest] using h
      simp [apply, hn]
  case deleteRelationship removed =>
    cases removed
    case none => rfl
    case some removed =>
      have hn : tuple ≠ removed := by simpa [relationshipTuplesFromAuthorizationRequest] using h
      simp [apply, hn]
  case writeRelationships updates =>
    apply mem_foldl_applyUpdate
    intro update hu u he hj
    apply h
    exact List.mem_filterMap.mpr ⟨update, hu, by simp [Option.mem_def.mp he, hj]⟩
  case other => rfl

end Apply

namespace Deployment

variable {d : Deployment} {store : Store} {subjectID : String} {tuple : RelationshipTuple}

theorem Permitted.of_write
    (hg : hasAuthorizationPublicAdminAccess (d.gateway store) subjectID false true =
      .ok globalAdmin)
    (h : allowsRelationshipTupleWrite (d.gateway store) subjectID globalAdmin (some tuple) =
      .ok true) :
    d.Permitted store subjectID tuple := by
  unfold allowsRelationshipTupleWrite at h
  by_cases hm : isGroupMemberRelationshipTuple tuple <;> simp only [hm, if_true] at h
  case pos =>
    obtain ⟨hd, hs, ha⟩ := allowsGroupScopedRelationshipMutation_eq_true h
    exact .group hm hd hs ha
  by_cases ha : isAppScopedRelationshipTuple tuple
  case neg =>
    obtain rfl : globalAdmin = true := by simpa [ha] using h
    exact .global hg ha hm
  by_cases hb : globalAdmin ∧ isAppBootstrapRelationshipTuple tuple
  case pos =>
    obtain ⟨rfl, hb⟩ := hb
    exact .bootstrap hg hb
  case neg =>
    have happ : tuple.resourceType = "app" := by simpa [isAppScopedRelationshipTuple] using ha
    exact .app happ (allowsAppScopedRelationshipMutation_eq_true (by simpa [ha, hb] using h))

theorem Permitted.of_enforce
    (h : enforceAuthorizationPublicAccess (d.gateway store) subjectID req = .ok ())
    (hm : some tuple ∈ relationshipTuplesFromAuthorizationRequest req) :
    d.Permitted store subjectID tuple := by
  have hp : authorizationMethodEnforcementPolicy req.method = some .relationshipWrite := by
    cases req
    case other => cases hm
    all_goals rfl
  simp only [enforceAuthorizationPublicAccess, hp, Except.bind_eq_ok_iff, Except.mapError_eq_ok,
    denyUnless_eq_ok, if_true] at h
  obtain ⟨globalAdmin, hg, allowed, ha, rfl⟩ := h
  have hn : relationshipTuplesFromAuthorizationRequest req ≠ [] := List.ne_nil_of_mem hm
  simp only [allowsRelationshipWriteAccess, hn, if_false] at ha
  exact .of_write hg (allowsTuples_eq_true ha _ hm)

theorem permitted_of_changed
    (h : enforceAuthorizationPublicAccess (d.gateway store) subjectID req = .ok ())
    (hc : ¬(tuple ∈ apply store req ↔ tuple ∈ store)) : d.Permitted store subjectID tuple := by
  by_contra hp
  exact hc (mem_apply fun hm => hp (.of_enforce h hm))

theorem mem_serve (h : ¬d.Permitted store call.subjectID tuple) :
    tuple ∈ d.serve store call ↔ tuple ∈ store := by
  unfold serve
  split
  case _ => rfl
  case _ u happ =>
    by_contra hc
    exact h (permitted_of_changed happ hc)

theorem mem_run (hn : ∀ store subjectID, P store subjectID → ¬d.Permitted store subjectID tuple)
    (h : d.Along P store calls) : tuple ∈ d.run store calls ↔ tuple ∈ store := by
  induction calls generalizing store
  case nil => rfl
  case cons call calls hi => exact (hi h.right).trans (mem_serve (hn _ _ h.left))

theorem along_true (store : Store) (calls : List Call) : d.Along (fun _ _ => True) store calls := by
  induction calls generalizing store
  case nil => trivial
  case cons call calls hi => exact ⟨trivial, hi _⟩

theorem isGroupMember_resourceType (h : isGroupMemberRelationshipTuple tuple) :
    tuple.resourceType = "group" := by
  simp only [isGroupMemberRelationshipTuple, decide_eq_true_eq] at h
  exact h.left

theorem isAppBootstrap_resourceType (h : isAppBootstrapRelationshipTuple tuple) :
    tuple.resourceType = "app" := by
  simp only [isAppBootstrapRelationshipTuple, decide_eq_true_eq] at h
  exact h.left

theorem Permitted.admin (h : d.Permitted store subjectID tuple) :
    d.GlobalAdmin store subjectID ∨ d.AdminOf tuple.resourceType tuple.resourceID store subjectID := by
  cases h
  case app ht ha => exact .inr (ht ▸ ha)
  case group hm _ _ ha => exact .inr (isGroupMember_resourceType hm ▸ ha)
  case bootstrap hg _ => exact .inl hg
  case global hg _ _ => exact .inl hg

theorem not_permitted_scim (hm : isGroupMemberRelationshipTuple tuple)
    (hs : tuple.resourceID ∈ d.scimManagedGroupIDs) : ¬d.Permitted store subjectID tuple := by
  intro h
  have hg := isGroupMember_resourceType hm
  cases h
  case app ht _ => simp [hg] at ht
  case group _ _ hn _ => exact hn hs
  case bootstrap _ hb => simp [isAppBootstrap_resourceType hb] at hg
  case global _ _ hn => exact hn hm

-- What accepted requests change is permitted to their caller. The tuples on a resource stay while
-- no admin of it or global admin calls, and those that name members of a managed group always stay.
theorem relationship_writes_permitted (d : Deployment) :
    (∀ store subjectID req tuple,
      enforceAuthorizationPublicAccess (d.gateway store) subjectID req = .ok () →
      ¬(tuple ∈ apply store req ↔ tuple ∈ store) → d.Permitted store subjectID tuple) ∧
    (∀ store calls tuple,
      d.Along (fun store subjectID => ¬d.GlobalAdmin store subjectID ∧
        ¬d.AdminOf tuple.resourceType tuple.resourceID store subjectID) store calls →
      (tuple ∈ d.run store calls ↔ tuple ∈ store)) ∧
    (∀ store calls tuple,
      isGroupMemberRelationshipTuple tuple → tuple.resourceID ∈ d.scimManagedGroupIDs →
      (tuple ∈ d.run store calls ↔ tuple ∈ store)) := by
  refine ⟨fun store subjectID req tuple h hc => permitted_of_changed h hc, ?_, ?_⟩
  · intro store calls tuple h
    exact mem_run (fun _ _ hn hp => hp.admin.elim hn.left hn.right) h
  · intro store calls tuple hm hs
    exact mem_run (fun _ _ _ => not_permitted_scim hm hs) (along_true store calls)

section Example

def person (id : String) : RelationshipTarget :=
  .subject { type := "subject", id }

-- An evaluator that looks for a grant to the subject or to a subject set that it is directly in.
def reaches (store : Store) (id : String) : RelationshipTarget → Bool
  | .subject subject => subject.id = id
  | .subjectSet resource relation => decide (⟨person id, relation, resource⟩ ∈ store)
  | _ => false

def holds (store : Store) (resource : Resource) (id relation : String) : Bool :=
  decide (∃ tuple ∈ store,
    tuple.resource = some resource ∧ tuple.relation = relation ∧ reaches store id tuple.target)

def answer (store : Store) (req : CheckAccessRequest) : CheckAccessResponse :=
  match req.subject, req.resource with
  | some subject, some resource =>
    let matchedRelations := ["admin", "member"].filter (holds store resource subject.id)
    { allowed := matchedRelations ≠ [], matchedRelations }
  | _, _ => {}

def subjectSets : Deployment where
  evaluator store     := {
    checkAccess := fun req => .ok (answer store req)
    checkAccessMany := fun reqs => .ok (reqs.map fun req => some (answer store req))
  }
  scimManagedGroupIDs := {"managed"}

-- The members of a group are admins of an app, and the group has an admin of its own.
def appGrant : RelationshipTuple where
  target := .subjectSet (some { type := "group", id := "g" }) "member"
  relation := "admin"
  resource := some { type := "app", id := "x" }

def delegated : Store :=
  {appGrant, ⟨person "user:bob", "admin", some { type := "group", id := "g" }⟩}

def memberOf (group id : String) : RelationshipTuple where
  target := person id
  relation := "member"
  resource := some { type := "group", id := group }

-- The admin of the group lets someone join a group.
def joins (group id : String) : Call where
  subjectID := "user:bob"
  request := .addRelationship (some (some (memberOf group id)))

theorem joins_not_admin : subjectSets.Along (fun store subjectID =>
    ¬subjectSets.GlobalAdmin store subjectID ∧ ¬subjectSets.AdminOf "app" "x" store subjectID)
    delegated [joins "g" "user:carol"] := by
  unfold Along GlobalAdmin AdminOf
  exact ⟨by decide +kernel, trivial⟩

theorem relationship_writes_permitted_delegated :
    subjectSets.Permitted delegated "user:bob" (memberOf "g" "user:carol") ∧
    (appGrant ∈ subjectSets.run delegated [joins "g" "user:carol"] ↔ appGrant ∈ delegated) ∧
    (memberOf "managed" "user:carol" ∈ subjectSets.run delegated [joins "managed" "user:carol"] ↔
      memberOf "managed" "user:carol" ∈ delegated) := by
  obtain ⟨h₁, h₂, h₃⟩ := relationship_writes_permitted subjectSets
  refine ⟨?_, ?_, ?_⟩
  · exact h₁ delegated "user:bob" (joins "g" "user:carol").request _ (by decide +kernel)
      (by decide +kernel)
  · have ht : appGrant.resourceType = "app" := by decide +kernel
    have hi : appGrant.resourceID = "x" := by decide +kernel
    exact h₂ delegated _ appGrant (ht ▸ hi ▸ joins_not_admin)
  · exact h₃ delegated _ _ (by decide +kernel) (by decide +kernel)

-- Someone becomes admin of an app by a call of someone who is neither admin of it nor global admin.
theorem app_admins_changed_by_group_admin :
    subjectSets.Along (fun store subjectID =>
      ¬subjectSets.GlobalAdmin store subjectID ∧ ¬subjectSets.AdminOf "app" "x" store subjectID)
      delegated [joins "g" "user:carol"] ∧
    ¬subjectSets.AdminOf "app" "x" delegated "user:carol" ∧
    subjectSets.AdminOf "app" "x" (subjectSets.run delegated [joins "g" "user:carol"])
      "user:carol" := by
  refine ⟨joins_not_admin, ?_, ?_⟩
  · unfold AdminOf
    decide +kernel
  · unfold AdminOf
    decide +kernel

end Example

end Deployment

end ProviderGateway
