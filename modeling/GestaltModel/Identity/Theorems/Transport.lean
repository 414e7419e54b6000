import GestaltModel.Identity.Transport
import GestaltModel.Identity.Theorems.Scopes

namespace Identity

open Finmap (ext_lookup lookup_eq_none mem_iff notMem_empty)
open Text (Trimmed)

variable {app op : String} {map set : PermissionMap} {ops : StringSet} {names : List String}

section NameSet

theorem StringSet.ext (h : ∀ op, op ∈ ops ↔ op ∈ ops') : ops = ops' := by
  apply ext_lookup
  intro op
  by_cases hm : op ∈ ops
  case pos =>
    obtain ⟨_, ho⟩ := mem_iff.mp hm
    obtain ⟨_, ho'⟩ := mem_iff.mp ((h op).mp hm)
    rw [ho, ho']
  case neg => rw [lookup_eq_none.mpr hm, lookup_eq_none.mpr (mt (h op).mpr hm)]

theorem nameSet_sortedKeys : nameSet ops.sortedKeys = ops :=
  StringSet.ext fun _ => mem_nameSet.trans GoMap.mem_sortedKeys

theorem sortedKeys_eq_nil : ops.sortedKeys = [] ↔ ops = ∅ := by
  simp only [List.eq_nil_iff_forall_not_mem, GoMap.mem_sortedKeys]
  constructor
  case mp => exact fun h => StringSet.ext fun op => iff_of_false (h op) notMem_empty
  case mpr =>
    rintro rfl op
    exact notMem_empty

theorem addNames_empty (h : ∀ name ∈ names, Trimmed name ∧ name ≠ "") :
    addNames ∅ names = nameSet names := by
  apply List.foldl_ext
  intro set name hm
  obtain ⟨ht, hn⟩ := h name hm
  rw [Trimmed] at ht
  rw [ht, if_neg hn]

end NameSet

section Entries

theorem lookup_insert_eq_ite {ops : Option StringSet} :
    (set.insert app ops).lookup app' = if app' = app then some ops else set.lookup app' := by
  by_cases he : app' = app
  case pos => rw [he, Finmap.lookup_insert, if_pos rfl]
  case neg => rw [Finmap.lookup_insert_of_ne _ he, if_neg he]

theorem lookup_foldl_entries {f : PermissionMap → String → PermissionMap}
    {entry : String → Option (Option StringSet)} {apps : List String} (hn : apps.Nodup)
    (hf : ∀ app ∈ apps, ∀ set, app ∉ set → ∀ app',
      (f set app).lookup app' = if app' = app then entry app else set.lookup app') :
    (apps.foldl f ∅).lookup app = if app ∈ apps then entry app else none := by
  induction apps using List.reverseRecOn generalizing app
  case nil => rfl
  case append_singleton apps key hi =>
    obtain ⟨hn, -, hd⟩ := List.nodup_append.mp hn
    have hi {app} := @hi app hn fun app hm => hf app (List.mem_append_left _ hm)
    have hk : key ∉ apps := fun hm => hd key hm key (List.mem_singleton_self _) rfl
    have hk : key ∉ apps.foldl f ∅ := by rw [← lookup_eq_none, hi, if_neg hk]
    rw [List.foldl_append, List.foldl_cons, List.foldl_nil, hf key (by simp) _ hk, hi]
    by_cases he : app = key <;> simp [he]

theorem lookup_foldl_sortedKeys {f : PermissionMap → String → PermissionMap}
    (entry : String → Option (Option StringSet))
    (hf : ∀ app ∈ map, ∀ set, app ∉ set → ∀ app',
      (f set app).lookup app' = if app' = app then entry app else set.lookup app') :
    (map.sortedKeys.foldl f ∅).lookup app = if app ∈ map then entry app else none := by
  rw [lookup_foldl_entries GoMap.nodup_sortedKeys fun app hm => hf app (GoMap.mem_sortedKeys.mp hm)]
  simp only [GoMap.mem_sortedKeys]

theorem foldl_addScope_operations (ht : Trimmed app) (ha : AppName app)
    (hn : ∀ name ∈ names, Trimmed name ∧ name ≠ "") (hm : app ∉ set) :
    (names.map (app ++ ":" ++ ·)).foldl addScope set =
      if names = [] then set else set.insert app (some (nameSet names)) := by
  induction names using List.reverseRecOn
  case nil => rfl
  case append_singleton names op hi =>
    have hi := hi fun name hm => hn name (List.mem_append_left _ hm)
    obtain ⟨hto, hno⟩ := hn op (by simp)
    have hs : AppScope (app ++ ":" ++ op) :=
      ⟨ht.join ha.left hto hno, app, ha, .inr ⟨op, rfl⟩⟩
    have hp := parseScope_eq_operation.mpr ⟨ha.right, hno, rfl⟩
    have hl : ((if names = [] then set
        else set.insert app (some (nameSet names))).lookup app).join.getD ∅ = nameSet names := by
      by_cases hn : names = []
      case pos => rw [if_pos hn, lookup_eq_none.mpr hm, hn]; rfl
      case neg => rw [if_neg hn, Finmap.lookup_insert]; rfl
    have hne : names ++ [op] ≠ [] := by simp
    rw [List.map_append, List.foldl_append, hi, List.map_singleton, List.foldl_cons, List.foldl_nil,
      addScope_operation hs.left hs.ne_empty hs.not_isIdentityScope hp, hl, ← nameSet_concat,
      if_neg hne]
    split
    case isTrue  => rfl
    case isFalse => rw [Finmap.insert_insert]

end Entries

section Named

variable (h : Named map)

include h

theorem Named.operationNames_trimmed :
    ∀ name ∈ operationNames (map.lookup app).join, Trimmed name ∧ name ≠ "" := by
  intro name hm
  cases hl : (map.lookup app).join
  case none => simp [hl, operationNames] at hm
  case some ops =>
    rw [hl] at hm
    exact h.operation app ops (Option.join_eq_some_iff.mp hl) name (GoMap.mem_sortedKeys.mp hm)

omit h in
theorem kept_eq : kept map app = if operationNames (map.lookup app).join = [] then none else
    some (nameSet (operationNames (map.lookup app).join)) := by
  rw [kept]
  cases hl : (map.lookup app).join
  case none => rfl
  case some ops => rw [operationNames, Option.elim_some, nameSet_sortedKeys]

theorem Named.lookup_accessPermissions :
    ((permissionsToAccessPermissions (some map)).foldl addPermission ∅).lookup app =
      if app ∈ map then some (kept map app) else none := by
  rw [permissionsToAccessPermissions, List.foldl_map]
  refine lookup_foldl_sortedKeys (fun app => some (kept map app)) fun app hm set hn app' => ?_
  obtain ⟨ht, ha⟩ := h.app app hm
  have hs : addPermission set { app, operations := operationNames (map.lookup app).join } =
      set.insert app (kept map app) := by
    rw [Trimmed] at ht
    rw [addPermission, ht, if_neg ha.left, kept_eq]
    split
    case isTrue => rfl
    case isFalse =>
      have hl : set.lookup app = none := lookup_eq_none.mpr hn
      rw [hl, if_neg nofun]
      exact congrArg (set.insert app <| some ·) (addNames_empty h.operationNames_trimmed)
  rw [hs, lookup_insert_eq_ite]

theorem Named.lookup_scopeStrings :
    ((scopeStringsFromPermissionSet (some map)).foldl addScope ∅).lookup app =
      if app ∈ map then
        if kept map app = none ∧ isIdentityScope app then none else some (kept map app)
      else none := by
  rw [scopeStringsFromPermissionSet, List.foldl_flatMap]
  refine lookup_foldl_sortedKeys (fun app => if kept map app = none ∧ isIdentityScope app then none
    else some (kept map app)) fun app hm set hn app' => ?_
  obtain ⟨ht, ha⟩ := h.app app hm
  have ho : ∀ name ∈ operationNames (map.lookup app).join, Trimmed name ∧ name ≠ "" :=
    h.operationNames_trimmed
  rw [kept_eq]
  generalize operationNames (map.lookup app).join = names at ho
  cases names
  case nil =>
    have hp := (parseScope_eq_wide ha.right).mpr rfl
    by_cases hi : isIdentityScope app
    case pos =>
      have hs : addScope set app = set := by
        rw [Trimmed] at ht
        rw [addScope, ht, if_pos (.inr hi)]
      simp only [List.foldl_cons, List.foldl_nil, hs, hi, if_true, and_self]
      by_cases he : app' = app
      case pos => rw [if_pos he, he, lookup_eq_none.mpr hn]
      case neg => rw [if_neg he]
    case neg =>
      simp only [List.foldl_cons, List.foldl_nil, addScope_wide ht ha.left hi hp, hi, if_true,
        and_false, if_false, lookup_insert_eq_ite, Bool.false_eq_true]
  case cons name names =>
    have hs := foldl_addScope_operations ht ha ho hn
    rw [if_neg (List.cons_ne_nil _ _)] at hs ⊢
    simp only [reduceCtorEq, false_and, if_false]
    exact hs ▸ lookup_insert_eq_ite

end Named

theorem Named.subjectPermissionContext (h : Named map) :
    subjectPermissionContextToPermissionSet (permissionSetToSubjectPermissionContext (some map)) =
      viaAccessPermissions (some map) := by
  rw [subjectPermissionContextToPermissionSet, permissionSetToSubjectPermissionContext,
    List.filterMap_filterMap, viaAccessPermissions]
  congr 1
  rw [permissionsToAccessPermissions, List.filterMap_map]
  refine List.filterMap_eq_map_iff_forall_eq_some.mpr fun app hm => ?_
  obtain ⟨ht, ha⟩ := h.app app (GoMap.mem_sortedKeys.mp hm)
  rw [Trimmed] at ht
  simp only [Function.comp_apply, ht, ha.left, if_false]
  split <;> simp [*, ha.left]

section Encodable

variable (hn : Named map) (he : Encodable map)

include he

theorem Encodable.kept_eq_join : kept map app = (map.lookup app).join := by
  rw [kept]
  cases hl : (map.lookup app).join
  case none => rfl
  case some ops =>
    rw [if_neg]
    rw [operationNames, Option.elim_some, sortedKeys_eq_nil]
    rintro rfl
    exact he.operations app (Option.join_eq_some_iff.mp hl)

theorem Encodable.sortedKeys_ne_nil : map.sortedKeys ≠ [] := by
  intro hk
  apply he.apps
  apply ext_lookup
  intro app
  have hm : app ∉ map := by simp [← GoMap.mem_sortedKeys, hk]
  rw [lookup_eq_none.mpr hm, Finmap.lookup_empty]

include hn

theorem Encodable.viaAccessPermissions_eq : viaAccessPermissions (some map) = some map := by
  have hne : permissionsToAccessPermissions (some map) ≠ [] := by
    simpa [permissionsToAccessPermissions] using he.sortedKeys_ne_nil
  rw [viaAccessPermissions, compilePermissions, if_neg hne, Option.some_inj]
  apply ext_lookup
  intro app
  rw [hn.lookup_accessPermissions, he.kept_eq_join]
  by_cases hm : app ∈ map
  case pos =>
    obtain ⟨ops, hl⟩ := mem_iff.mp hm
    rw [if_pos hm, hl, Option.join_some]
  case neg => rw [if_neg hm, lookup_eq_none.mpr hm]

theorem Encodable.grants_viaScopes :
    Grants (viaScopes (some map)) app op ↔ Grants (some map) app op ∧ ¬Reserved (some map) app := by
  have hne : scopeStringsFromPermissionSet (some map) ≠ [] := by
    rw [scopeStringsFromPermissionSet, ne_eq, List.flatMap_eq_nil_iff]
    intro h
    obtain ⟨app, hm⟩ := List.exists_mem_of_ne_nil _ he.sortedKeys_ne_nil
    have := h app hm
    split at this <;> simp_all
  rw [viaScopes, permissionSetFromScopes, if_neg hne]
  simp only [Grants, hn.lookup_scopeStrings, he.kept_eq_join]
  cases hl : map.lookup app
  case none => simp [lookup_eq_none.mp hl]
  case some ops =>
    have hm : app ∈ map := Finmap.mem_of_lookup_eq_some hl
    have hr : Reserved (some map) app ↔ ops = none ∧ isIdentityScope app := by
      simp [Reserved, hl, and_comm]
    rw [hr, if_pos hm, Option.join_some]
    by_cases hi : ops = none ∧ isIdentityScope app
    case pos => simp [hi]
    case neg =>
      rw [if_neg hi, and_iff_left hi]

end Encodable

theorem viaSubjectContext_eq {set : PermissionSet} (hn : ∀ map ∈ set, Named map) :
    viaSubjectContext set = viaScopes (viaAccessPermissions set) := by
  cases set
  case none => rfl
  case some map =>
    rw [viaSubjectContext, mergeSubjectScopes, if_neg (not_not.mpr rfl),
      (hn map rfl).subjectPermissionContext, viaScopes]

-- Except that scopes cannot grant all operations of an app that has the name of an identity scope.
theorem permissions_survive_transport {set : PermissionSet} (hn : ∀ map ∈ set, Named map)
    (he : ∀ map ∈ set, Encodable map) :
    (Grants (viaAccessPermissions set) app op ↔ Grants set app op) ∧
    (Grants (viaScopes set) app op ↔ Grants set app op ∧ ¬Reserved set app) ∧
    (Grants (viaSubjectContext set) app op ↔ Grants set app op ∧ ¬Reserved set app) := by
  rw [viaSubjectContext_eq hn]
  cases set
  case none =>
    have hr : ¬Reserved none app := fun ⟨_, _, h, _⟩ => nomatch h
    exact ⟨.rfl, (and_iff_left hr).symm, (and_iff_left hr).symm⟩
  case some map =>
    have hs : Grants (viaScopes (some map)) app op ↔
        Grants (some map) app op ∧ ¬Reserved (some map) app :=
      (he map rfl).grants_viaScopes (hn map rfl)
    rw [(he map rfl).viaAccessPermissions_eq (hn map rfl)]
    exact ⟨.rfl, hs, hs⟩

theorem Named.empty : Named ∅ where
  app _ hm          := absurd hm notMem_empty
  operation _ _ hl  := nomatch hl

theorem Named.insert {ops : Option StringSet} (h : Named map) (ht : Trimmed app)
    (ha : AppName app) (ho : ∀ names ∈ ops, ∀ op ∈ names, Trimmed op ∧ op ≠ "") :
    Named (map.insert app ops) where
  app app' hm := by
    obtain rfl | hm := Finmap.mem_insert.mp hm
    case inl => exact ⟨ht, ha⟩
    case inr => exact h.app app' hm
  operation app' names hl := by
    rw [lookup_insert_eq_ite] at hl
    split at hl
    case isTrue => exact ho names (Option.some.inj hl)
    case isFalse => exact h.operation app' names hl

theorem permissions_survive_demo :
    let map := ((∅ : PermissionMap).insert "email" none).insert "notes" (some (nameSet ["read"]))
    Grants (viaAccessPermissions (some map)) "email" "send" ∧
    Grants (viaScopes (some map)) "notes" "read" ∧
    ¬Grants (viaSubjectContext (some map)) "email" "send" := by
  intro map
  have hn : Named map := by
    have he : Named ((∅ : PermissionMap).insert "email" none) :=
      Named.empty.insert (by decide +kernel) (by decide +kernel) (by simp)
    refine he.insert (by decide +kernel) (by decide +kernel) ?_
    simp only [Option.mem_some_iff, forall_eq', mem_nameSet, List.mem_singleton, forall_eq]
    decide +kernel
  have he : Encodable map := by
    refine ⟨by decide +kernel, fun app => ?_⟩
    simp only [map, lookup_insert_eq_ite]
    split <;> [decide +kernel; split <;> simp]
  have h app op : (Grants (viaAccessPermissions (some map)) app op ↔ Grants (some map) app op) ∧
      (Grants (viaScopes (some map)) app op ↔ Grants (some map) app op ∧ ¬Reserved (some map) app) ∧
      (Grants (viaSubjectContext (some map)) app op ↔
        Grants (some map) app op ∧ ¬Reserved (some map) app) :=
    permissions_survive_transport (by simpa using hn) (by simpa using he)
  refine ⟨(h "email" "send").left.mpr (by decide +kernel), (h "notes" "read").right.left.mpr ?_,
    mt (h "email" "send").right.right.mp ?_⟩
  · exact ⟨by decide +kernel, fun hr => absurd hr.left (by decide +kernel)⟩
  · exact fun hr => hr.right ⟨by decide +kernel, map, rfl, by decide +kernel⟩

-- An app with the name of an identity scope cannot be granted as a whole by a scope.
theorem identity_name_lost :
    let map := (∅ : PermissionMap).insert "email" none
    Named map ∧ Grants (some map) "email" "send" ∧ ¬Grants (viaScopes (some map)) "email" "send" ∧
      ¬Grants (viaSubjectContext (some map)) "email" "send" := by
  intro map
  have hn : Named map := Named.empty.insert (by decide +kernel) (by decide +kernel) (by simp)
  exact ⟨hn, by decide +kernel⟩

end Identity
