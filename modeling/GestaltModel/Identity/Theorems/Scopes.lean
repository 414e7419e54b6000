import GestaltModel.Identity.Scopes

namespace Identity

open Text

variable {scope app op : String} {scopes names : List String} {set : PermissionMap}

theorem nameSet_concat : nameSet (names ++ [op]) = (nameSet names).insert op () := by
  rw [nameSet, List.foldl_append]
  rfl

theorem mem_nameSet : op ∈ nameSet names ↔ op ∈ names := by
  induction names using List.reverseRecOn
  case nil => exact iff_of_false Finmap.notMem_empty List.not_mem_nil
  case append_singleton names name hi =>
    rw [nameSet_concat, Finmap.mem_insert, List.mem_append, List.mem_singleton, hi, or_comm]

theorem parseScope_eq_wide (h : ':' ∉ app.toList) : parseScope scope = (app, none) ↔ scope = app := by
  rw [parseScope]
  cases hc : Text.cut ':' scope
  case none => simp
  case some p =>
    have hne : scope ≠ app := by
      rintro rfl
      rw [(cut_eq_some hc).right] at h
      simp at h
    by_cases ha : p.2 = "" <;> simp [ha, hne]

theorem parseScope_eq_operation :
    parseScope scope = (app, some op) ↔ ':' ∉ app.toList ∧ op ≠ "" ∧ scope = app ++ ":" ++ op := by
  rw [parseScope]
  constructor
  case mp =>
    intro h
    cases hc : Text.cut ':' scope
    case none => simp [hc] at h
    case some p =>
      obtain ⟨hn, hs⟩ := cut_eq_some hc
      by_cases ha : p.2 = ""
      case pos => simp [hc, ha] at h
      case neg =>
        simp only [hc, ha, if_false, Prod.mk.injEq, Option.some.injEq] at h
        obtain ⟨rfl, rfl⟩ := h
        exact ⟨hn, ha, hs⟩
  case mpr =>
    rintro ⟨hn, ho, rfl⟩
    have hc : Text.cut ':' (app ++ ":" ++ op) = some (app, op) := cut_append hn
    simp [hc, ho]

section AddScope

variable (ht : Trimmed scope) (hn : scope ≠ "") (hi : ¬isIdentityScope scope)

include ht hn hi

theorem addScope_wide (hp : parseScope scope = (app, none)) :
    addScope set scope = set.insert app none := by
  rw [Trimmed] at ht
  rw [parseScope] at hp
  rw [addScope, ht, if_neg (not_or.mpr ⟨hn, hi⟩)]
  cases hc : Text.cut ':' scope
  case none =>
    simp only [hc, Prod.mk.injEq, and_true] at hp
    rw [hp]
  case some p =>
    by_cases ha : p.2 = ""
    case pos =>
      simp only [hc, ha, if_true, Prod.mk.injEq, and_true] at hp
      simp only [ha, hp, if_true]
    case neg => simp [hc, ha] at hp

theorem addScope_operation (hp : parseScope scope = (app, some op)) :
    addScope set scope = set.insert app (some (((set.lookup app).join.getD ∅).insert op ())) := by
  obtain ⟨hc, ho, hs⟩ := parseScope_eq_operation.mp hp
  have hc : Text.cut ':' scope = some (app, op) := hs ▸ cut_append hc
  rw [Trimmed] at ht
  rw [addScope, ht, if_neg (not_or.mpr ⟨hn, hi⟩)]
  simp only [hc, ho, if_false]
  rw [if_neg fun h => h.right h.left]

end AddScope

theorem scopesAfter_concat : scopesAfter app (scopes ++ [scope]) =
    if parseScope scope = (app, none) then [] else scopesAfter app scopes ++ [scope] := by
  rw [scopesAfter, List.rtakeWhile_concat]
  by_cases h : parseScope scope = (app, none) <;> simp [h, scopesAfter]

theorem operationsIn_concat : operationsIn app (scopes ++ [scope]) =
    operationsIn app scopes ++
      (if (parseScope scope).1 = app then (parseScope scope).2 else none).toList := by
  rw [operationsIn, List.filterMap_append]
  cases h : if (parseScope scope).1 = app then (parseScope scope).2 else none <;>
    simp [h, operationsIn]

section EntryOf

theorem entryOf_concat_of_ne (h : (parseScope scope).1 ≠ app) :
    entryOf app (scopes ++ [scope]) = entryOf app scopes := by
  have hw : parseScope scope ≠ (app, none) := fun he => h (congrArg Prod.fst he)
  have ho : operationsIn app (scopesAfter app (scopes ++ [scope])) =
      operationsIn app (scopesAfter app scopes) := by
    rw [scopesAfter_concat, if_neg hw, operationsIn_concat, if_neg h]
    simp
  have hm : (∃ s ∈ scopes ++ [scope], parseScope s = (app, none)) ↔
      ∃ s ∈ scopes, parseScope s = (app, none) := by
    simp [or_and_right, exists_or, hw]
  simp only [entryOf, ho, hm]

theorem entryOf_concat_wide (h : parseScope scope = (app, none)) :
    entryOf app (scopes ++ [scope]) = some none := by
  have hm : ∃ s ∈ scopes ++ [scope], parseScope s = (app, none) := ⟨scope, by simp, h⟩
  rw [entryOf, scopesAfter_concat, if_pos h, if_neg (by simp [operationsIn]), if_pos hm]

theorem entryOf_concat_operation (h : parseScope scope = (app, some op)) :
    entryOf app (scopes ++ [scope]) =
      some (some ((nameSet (operationsIn app (scopesAfter app scopes))).insert op ())) := by
  have hw : parseScope scope ≠ (app, none) := by
    rw [h]
    simp
  have ho : operationsIn app (scopesAfter app (scopes ++ [scope])) =
      operationsIn app (scopesAfter app scopes) ++ [op] := by
    rw [scopesAfter_concat, if_neg hw, operationsIn_concat, h, if_pos rfl]
    rfl
  rw [entryOf, ho, if_pos (by simp), nameSet_concat]

theorem join_entryOf : (entryOf app scopes).join.getD ∅ =
    nameSet (operationsIn app (scopesAfter app scopes)) := by
  rw [entryOf]
  split
  case isTrue => rfl
  case isFalse h =>
    rw [not_not.mp h]
    split <;> rfl

end EntryOf

theorem lookup_foldl_addScope
    (h : ∀ scope ∈ scopes, Trimmed scope ∧ scope ≠ "" ∧ ¬isIdentityScope scope) :
    (scopes.foldl addScope ∅).lookup app = entryOf app scopes := by
  induction scopes using List.reverseRecOn generalizing app
  case nil => rfl
  case append_singleton scopes scope hi =>
    obtain ⟨ht, hn, hs⟩ := h scope (by simp)
    have hi {app} := @hi app fun scope hm => h scope (List.mem_append_left _ hm)
    rw [List.foldl_append, List.foldl_cons, List.foldl_nil]
    cases hp : parseScope scope
    case mk app' op =>
      cases op
      case none =>
        rw [addScope_wide ht hn hs hp]
        by_cases he : app = app'
        case pos => rw [he, Finmap.lookup_insert, entryOf_concat_wide hp]
        case neg =>
          rw [Finmap.lookup_insert_of_ne _ he, hi, entryOf_concat_of_ne (by rw [hp]; exact Ne.symm he)]
      case some op =>
        rw [addScope_operation ht hn hs hp]
        by_cases he : app = app'
        case pos => rw [he, Finmap.lookup_insert, hi, join_entryOf, entryOf_concat_operation hp]
        case neg =>
          rw [Finmap.lookup_insert_of_ne _ he, hi, entryOf_concat_of_ne (by rw [hp]; exact Ne.symm he)]

section AppScope

theorem AppScope.ne_empty (h : AppScope scope) : scope ≠ "" := by
  obtain ⟨-, app, ⟨hn, -⟩, rfl | ⟨op, rfl⟩⟩ := h
  case inl => exact hn
  case inr => simp

theorem AppScope.not_isIdentityScope (h : AppScope (app ++ ":" ++ op)) :
    ¬isIdentityScope (app ++ ":" ++ op) := by
  have ht : trimSpace (app ++ ":" ++ op) = app ++ ":" ++ op := h.left
  have hm : ':' ∈ (toLower (app ++ ":" ++ op)).toList := by
    rw [toLower, String.toList_ofList, List.mem_map]
    exact ⟨':', by simp, by decide⟩
  intro hi
  rw [isIdentityScope, ht, decide_eq_true_eq] at hi
  simp only [List.mem_cons, List.not_mem_nil, or_false] at hi
  obtain hi | hi | hi | hi := hi <;> simp [hi] at hm

theorem mem_appPermissionScopes (h : AppScope scope) :
    scope ∈ appPermissionScopes scopes ↔ scope ∈ scopes ∧ ¬isIdentityScope scope := by
  have hn : toLower (trimSpace scope) ≠ "" := by
    rw [h.left]
    have := h.ne_empty
    simpa [toLower] using this
  simp [appPermissionScopes, hn]

end AppScope

theorem foldl_addScope_appPermissionScopes (h : ∀ scope ∈ scopes, AppScope scope) :
    scopes.foldl addScope set = (appPermissionScopes scopes).foldl addScope set := by
  rw [appPermissionScopes, List.foldl_filter]
  apply List.foldl_ext
  intro set scope hm
  have hs : scope ∈ appPermissionScopes [scope] ↔ ¬isIdentityScope scope := by
    simp [mem_appPermissionScopes (h scope hm)]
  have ht : trimSpace scope = scope := (h scope hm).left
  rw [appPermissionScopes, List.mem_filter, and_iff_right (List.mem_singleton_self _)] at hs
  by_cases hi : isIdentityScope scope
  case pos => rw [if_neg (mt hs.mp (not_not.mpr hi)), addScope, ht, if_pos (.inr hi)]
  case neg => rw [if_pos (hs.mpr hi)]

theorem lookup_permissionSetFromScopes (h : ∀ scope ∈ scopes, AppScope scope) :
    (scopes.foldl addScope ∅).lookup app = entryOf app (appPermissionScopes scopes) := by
  rw [foldl_addScope_appPermissionScopes h]
  apply lookup_foldl_addScope
  intro scope hm
  have hs := h scope (List.mem_of_mem_filter hm)
  exact ⟨hs.left, hs.ne_empty, ((mem_appPermissionScopes hs).mp hm).right⟩

theorem exists_last (h : a ∈ l) :
    ∃ before after, l = before ++ a :: after ∧ a ∉ after := by
  obtain ⟨as, bs, hl, hn⟩ := List.eq_append_cons_of_mem (List.mem_reverse.mpr h)
  refine ⟨bs.reverse, as.reverse, ?_, by simpa using hn⟩
  rw [← List.reverse_reverse l, hl]
  simp

section AppName

variable (ha : AppName app)

include ha

theorem mem_operationsIn : op ∈ operationsIn app scopes ↔ op ≠ "" ∧ app ++ ":" ++ op ∈ scopes := by
  have hp {scope} : (if (parseScope scope).1 = app then (parseScope scope).2 else none) = some op ↔
      op ≠ "" ∧ scope = app ++ ":" ++ op := by
    have hp : parseScope scope = (app, some op) ↔ op ≠ "" ∧ scope = app ++ ":" ++ op := by
      rw [parseScope_eq_operation, and_iff_right ha.right]
    rw [← hp, Prod.ext_iff]
    by_cases h : (parseScope scope).1 = app <;> simp [h]
  rw [operationsIn, List.mem_filterMap]
  simp only [hp]
  constructor
  case mp =>
    rintro ⟨scope, hm, ho, rfl⟩
    exact ⟨ho, hm⟩
  case mpr => exact fun ⟨ho, hm⟩ => ⟨_, hm, ho, rfl⟩

theorem operationsIn_ne_nil :
    operationsIn app scopes ≠ [] ↔ ∃ op, op ≠ "" ∧ app ++ ":" ++ op ∈ scopes := by
  simp only [← mem_operationsIn ha]
  exact ⟨List.exists_mem_of_ne_nil _, fun ⟨_, hm⟩ => List.ne_nil_of_mem hm⟩

theorem exists_parseScope_eq_wide :
    (∃ scope ∈ scopes, parseScope scope = (app, none)) ↔ app ∈ scopes := by
  simp [parseScope_eq_wide ha.right]

theorem scopesAfter_of_notMem (h : app ∉ scopes) : scopesAfter app scopes = scopes := by
  rw [scopesAfter, List.rtakeWhile_eq_self_iff]
  intro scope hm
  rw [decide_eq_true_eq, ne_eq, parseScope_eq_wide ha.right]
  rintro rfl
  exact h hm

theorem scopesAfter_append (h : app ∉ after) :
    scopesAfter app (before ++ app :: after) = after := by
  have hp : ∀ scope ∈ after.reverse, decide (parseScope scope ≠ (app, none)) = true := by
    intro scope hm
    rw [decide_eq_true_eq, ne_eq, parseScope_eq_wide ha.right]
    rintro rfl
    exact h (List.mem_reverse.mp hm)
  have hw : parseScope app = (app, none) := (parseScope_eq_wide ha.right).mpr rfl
  have he : (before ++ app :: after).reverse = after.reverse ++ app :: before.reverse := by simp
  rw [scopesAfter, List.rtakeWhile, he, List.takeWhile_append_of_pos hp]
  simp [hw]

theorem entryOf_of_notMem (h : app ∉ scopes) : entryOf app scopes =
    if operationsIn app scopes = [] then none else some (some (nameSet (operationsIn app scopes))) := by
  rw [entryOf, scopesAfter_of_notMem ha h, if_neg (mt (exists_parseScope_eq_wide ha).mp h), ite_not]

-- An app that is granted as a whole is narrowed to the operations that come later, if there are any.
theorem entryOf_append (h : app ∉ after) :
    entryOf app (before ++ app :: after) = some
      (if operationsIn app after = [] then none else some (nameSet (operationsIn app after))) := by
  have hm : app ∈ before ++ app :: after := by simp
  rw [entryOf, scopesAfter_append ha h, if_pos ((exists_parseScope_eq_wide ha).mpr hm), ite_not]
  split <;> rfl

end AppName

section Meaning

variable (hs : ∀ scope ∈ scopes, AppScope scope) (ha : AppName app) (ho : op ≠ "")

include hs

theorem mem_appPermissionScopes_operation :
    app ++ ":" ++ op ∈ appPermissionScopes scopes ↔ app ++ ":" ++ op ∈ scopes := by
  constructor
  case mp => exact List.mem_of_mem_filter
  case mpr =>
    intro hm
    have hs := hs _ hm
    exact (mem_appPermissionScopes hs).mpr ⟨hm, hs.not_isIdentityScope⟩

theorem appPermissionScopes_ne_nil (he : ∃ scope ∈ scopes, ¬isIdentityScope scope) :
    appPermissionScopes scopes ≠ [] := by
  obtain ⟨scope, hm, hi⟩ := he
  exact List.ne_nil_of_mem ((mem_appPermissionScopes (hs scope hm)).mpr ⟨hm, hi⟩)

include ha ho

theorem allowsOperationPermission_iff (hp : p.scopes = scopes)
    (he : ∃ scope ∈ scopes, ¬isIdentityScope scope) :
    allowsOperationPermission (some p) app op ↔
      app ∈ appPermissionScopes scopes ∨ app ++ ":" ++ op ∈ scopes := by
  simp only [allowsOperationPermission, hp, ne_eq, ha.left, ho, not_false_iff, true_and,
    appPermissionScopes_ne_nil hs he, false_or, and_or_left, exists_or, exists_eq_right,
    mem_appPermissionScopes_operation hs]

theorem grants_iff_of_notMem (hn : app ∉ appPermissionScopes scopes) :
    Grants (some (scopes.foldl addScope ∅)) app op ↔ app ++ ":" ++ op ∈ scopes := by
  have hm : op ∈ operationsIn app (appPermissionScopes scopes) ↔ app ++ ":" ++ op ∈ scopes := by
    rw [mem_operationsIn ha, mem_appPermissionScopes_operation hs, and_iff_right ho]
  rw [Grants, lookup_permissionSetFromScopes hs, entryOf_of_notMem ha hn, ← hm]
  by_cases h : operationsIn app (appPermissionScopes scopes) = []
  case pos => simp [h]
  case neg => simp [h, mem_nameSet]

-- After the last scope for the whole app, any operation of the app narrows it.
theorem grants_iff_of_append (hl : scopes = before ++ app :: after)
    (hn : app ∉ after) (hi : ¬isIdentityScope app) :
    Grants (some (scopes.foldl addScope ∅)) app op ↔
      ((∃ op, op ≠ "" ∧ app ++ ":" ++ op ∈ after) → app ++ ":" ++ op ∈ after) := by
  have hs' : ∀ scope ∈ after, AppScope scope := fun scope hm => hs scope (by simp [hl, hm])
  have hm : app ∈ appPermissionScopes [app] :=
    (mem_appPermissionScopes (hs app (by simp [hl]))).mpr ⟨List.mem_singleton_self _, hi⟩
  have hf : appPermissionScopes scopes =
      appPermissionScopes before ++ app :: appPermissionScopes after := by
    rw [hl, appPermissionScopes, List.filter_append]
    congr 1
    apply List.filter_cons_of_pos
    exact (List.mem_filter.mp hm).right
  have ho' {o} (ho : o ≠ "") :
      o ∈ operationsIn app (appPermissionScopes after) ↔ app ++ ":" ++ o ∈ after := by
    rw [mem_operationsIn ha, mem_appPermissionScopes_operation hs', and_iff_right ho]
  have hne : operationsIn app (appPermissionScopes after) ≠ [] ↔
      ∃ o, o ≠ "" ∧ app ++ ":" ++ o ∈ after := by
    simp only [operationsIn_ne_nil ha, mem_appPermissionScopes_operation hs']
  have hn' : app ∉ appPermissionScopes after := mt List.mem_of_mem_filter hn
  rw [Grants, lookup_permissionSetFromScopes hs, hf, entryOf_append ha hn', ← ho' ho, ← hne]
  by_cases h : operationsIn app (appPermissionScopes after) = []
  case pos => simp [h]
  case neg => simp [h, mem_nameSet]

-- The permissions mean what the scopes mean, unless a grant of the whole app is forgotten.
theorem grants_iff_allows_iff {p : Principal} (hp : p.scopes = scopes)
    (he : ∃ scope ∈ scopes, ¬isIdentityScope scope) :
    (Grants (permissionSetFromScopes scopes) app op ↔ allowsOperationPermission (some p) app op) ↔
      ¬Narrowed scopes app op := by
  have hne : scopes ≠ [] := fun h => by simp [h] at he
  rw [permissionSetFromScopes, if_neg hne, allowsOperationPermission_iff hs ha ho hp he]
  by_cases hm : app ∈ appPermissionScopes scopes
  case pos =>
    have hi : ¬isIdentityScope app := by
      have := hs app (List.mem_of_mem_filter hm)
      exact ((mem_appPermissionScopes this).mp hm).right
    simp only [hm, true_or, iff_true]
    constructor
    case mp =>
      rintro hg ⟨-, before, after, hl, hn, hw, hno⟩
      exact hno ((grants_iff_of_append hs ha ho hl hn hi).mp hg hw)
    case mpr =>
      intro hw
      obtain ⟨before, after, hl, hn⟩ := exists_last (List.mem_of_mem_filter hm)
      rw [grants_iff_of_append hs ha ho hl hn hi]
      intro hex
      by_contra hno
      exact hw ⟨hi, before, after, hl, hn, hex, hno⟩
  case neg =>
    have hw : ¬Narrowed scopes app op := by
      rintro ⟨hi, before, after, hl, -⟩
      have hl : app ∈ scopes := by simp [hl]
      exact hm ((mem_appPermissionScopes (hs app hl)).mpr ⟨hl, hi⟩)
    rw [grants_iff_of_notMem hs ha ho hm]
    simp [hm, hw]

end Meaning

-- Operations of the app before the scope for all of them do not narrow it.
theorem grants_iff_allows_demo :
    let scopes := ["openid", "a:read", "a", "b:read"]
    Grants (permissionSetFromScopes scopes) "a" "write" ∧
    allowsOperationPermission (some { scopes }) "a" "write" ∧ ¬Narrowed scopes "a" "write" := by
  intro scopes
  have hs : ∀ scope ∈ scopes, AppScope scope := by
    simp only [scopes, List.forall_mem_cons]
    exact ⟨⟨by decide +kernel, "openid", by decide +kernel, .inl rfl⟩,
      ⟨by decide +kernel, "a", by decide +kernel, .inr ⟨"read", rfl⟩⟩,
      ⟨by decide +kernel, "a", by decide +kernel, .inl rfl⟩,
      ⟨by decide +kernel, "b", by decide +kernel, .inr ⟨"read", rfl⟩⟩, by simp⟩
  have hg : Grants (permissionSetFromScopes scopes) "a" "write" := by decide +kernel
  have hw : allowsOperationPermission (some { scopes }) "a" "write" := by decide +kernel
  have he : ∃ scope ∈ scopes, ¬isIdentityScope scope := by decide +kernel
  exact ⟨hg, hw, (grants_iff_allows_iff hs (by decide +kernel) (by decide) rfl he).mp
    (iff_of_true hg hw)⟩

-- The scope for all operations of the app is lost when one for an operation follows.
theorem app_scope_narrowed :
    ¬(Grants (permissionSetFromScopes ["a", "a:read"]) "a" "write" ↔
      allowsOperationPermission (some { scopes := ["a", "a:read"] }) "a" "write") := by
  decide +kernel

end Identity
