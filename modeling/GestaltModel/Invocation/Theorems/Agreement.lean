import GestaltModel.Invocation.Theorems.Listing

namespace Invocation.Broker

open Authorization Identity Text

variable {b : Broker} {policy : String → AppOperationPolicy}
  {answer : CheckAccessRequest → CheckAccessResponse} {p : Option Principal} {app : String}
  {op : CatalogOperation} {ctx : CallContext}

section Invocation

theorem checkAppAccess_eq_ok :
    b.checkAppAccess p (b.provider app) app op = .ok u ↔ b.ProfileAllows p app op := by
  rw [checkAppAccess, ProfileAllows]
  cases b.appAccessProfile p app
  case error err => simp
  case ok profile => simp

theorem authorizeOperation_isOk :
    (∃ access, b.authorizeOperation p prov op = .ok access) ↔
      ∃ role, b.evaluateInvokeAuthorization p prov op.id op.allowedRoles = .ok role := by
  rw [authorizeOperation]
  cases b.evaluateInvokeAuthorization p prov op.id op.allowedRoles
  case error err => simp [bind, Except.bind]
  case ok role =>
    simp only [bind, Except.bind]
    split <;> simp [pure, Except.pure]

theorem authorizeInvocation_isOk (hp : b.appOperationPolicy app = .ok (policy app))
    (hn : ¬privateOperation op) (hs : op.api ≠ some .browserSession) :
    (∃ r, b.authorizeInvocation ctx p (b.provider app) app op = .ok r) ↔
      Offered policy p app op ∧ b.ProfileAllows p app op ∧
      ((b.provider app).any (·.remoteCredentialDelegated) ∨
        ∃ role, b.evaluateInvokeAuthorization p app op.id (rolesOf policy (queryFor app op)) =
          .ok role) := by
  have hn' (roles) : ¬privateOperation { op with allowedRoles := roles } := hn
  simp only [authorizeInvocation, hs, hn, hn', or_false, Except.bind_eq_ok_iff, ensure_eq_ok,
    Bool.false_eq_true, if_false, false_imp_iff, true_and, hp, Unique.exists_iff, Except.ok.injEq,
    exists_eq_left']
  simp only [checkAppAccess_eq_ok, exists_and_left]
  have hr : ((policy app).resolve op.id op.allowedRoles).1 = rolesOf policy (queryFor app op) := rfl
  rw [hr, Offered, and_assoc, and_left_comm (a := b.ProfileAllows p app op)]
  refine and_congr_right fun _ => and_congr_right fun _ => and_congr_right fun _ => ?_
  by_cases hd : (b.provider app).any (·.remoteCredentialDelegated)
  case pos => simp [hd, pure, Except.pure, bind, Except.bind]
  case neg =>
    let op' := { op with allowedRoles := rolesOf policy (queryFor app op) }
    have ha : (∃ access, b.authorizeOperation p app op' = .ok access) ↔ _ := authorizeOperation_isOk
    rw [if_pos hd, or_iff_right hd, ← ha]
    simp only [Except.bind_eq_ok_iff, pure, Except.pure, Except.ok.injEq]
    constructor
    case mp =>
      rintro ⟨_, access, h, _⟩
      exact ⟨access, h⟩
    case mpr =>
      rintro ⟨access, h⟩
      exact ⟨_, access, h, rfl⟩

theorem evaluateInvokeAuthorization_isOk
    (h : ∀ evaluator ∈ b.authorization, evaluator.Pointwise answer) :
    ((b.provider app).any (·.remoteCredentialDelegated) ∨
      ∃ role, b.evaluateInvokeAuthorization p app op.id (rolesOf policy (queryFor app op)) = .ok role) ↔
      b.Granted policy answer p app op id := by
  rw [Granted]
  refine or_congr_right ?_
  rw [evaluateInvokeAuthorization]
  cases ha : b.authorization
  case none => simp
  case some evaluator =>
    simp only [authorizationDecision]
    cases resolveCredentialSubjectID b.users p
    case error err => simp [bind, Except.bind]
    case ok subjectID =>
      have hc := (h evaluator ha).one
        (b.accessRequest p subjectID (b.authorizationResource app) op.id)
      simp only [bind, Except.bind, hc, reduceCtorEq, false_or, Except.ok.injEq, exists_eq_left', id]
      generalize rolesOf policy (queryFor app op) = roles
      generalize answer _ = resp
      by_cases hr : resp.allowed
      case neg => simp [hr]
      case pos =>
        by_cases hn : roles = []
        case pos => simp [hr, hn]
        case neg =>
          by_cases hm : matchedAllowedRole resp.matchedRelations roles = "" <;> simp [hr, hn, hm]

end Invocation

section Listing

theorem userSubjectID_ne_blank (h : userID ≠ "") :
    trimSpace (userSubjectID userID) ≠ "" := by
  rw [userSubjectID, if_neg h]
  exact trimSpace_ne_empty (c := 'u') (by simp [kindUser]) (by decide)

theorem resolvedUserID_ne_empty {users : Option CredentialUserResolver}
    (h : resolvedUserID users context email = .ok userID) : userID ≠ "" := by
  cases users
  case none => simp [resolvedUserID] at h
  case some users =>
    obtain ⟨id, -, hi⟩ := Except.bind_eq_ok_iff.mp h
    cases id
    case none    => contradiction
    case some id =>
      by_cases hb : trimSpace id = ""
      case pos => simp [hb] at hi
      case neg =>
        simp only [hb, if_false, Except.ok.injEq] at hi
        rintro rfl
        rw [hi] at hb
        exact hb trimSpace_empty

theorem resolveCredentialSubjectID_ne_blank {users : Option CredentialUserResolver}
    (h : resolveCredentialSubjectID users p = .ok subjectID) : trimSpace subjectID ≠ "" := by
  cases p
  case none => simp [resolveCredentialSubjectID] at h
  case some p =>
    rw [resolveCredentialSubjectID] at h
    split at h
    case isTrue =>
      split at h
      case isTrue    => contradiction
      case isFalse hn =>
        rw [← Except.ok.inj h, trimSpace_trimSpace]
        exact hn
    case isFalse =>
      split at h
      case isTrue hu =>
        rw [← Except.ok.inj h]
        exact userSubjectID_ne_blank hu.left
      case isFalse =>
        split at h
        case isTrue  => contradiction
        case isFalse =>
          obtain ⟨id, hr, hs⟩ := Except.bind_eq_ok_iff.mp h
          rw [← Except.ok.inj hs]
          exact userSubjectID_ne_blank (resolvedUserID_ne_empty hr)

theorem passes_queryFor : b.passes policy p (queryFor app op) ↔
    Offered policy p app op ∧ b.ProfileLists p app op := by
  rw [passes, decide_eq_true_eq, Offered, and_assoc]
  refine and_congr_right fun _ => and_congr_right fun _ => ?_
  rw [ProviderAccess.allows, ProfileLists]
  simp only [accessOf, queryFor]
  cases b.appAccessProfile p app
  case error err => simp
  case ok profile => simp

theorem protoRequest_requestFor :
    (b.requestFor policy p subjectID (queryFor app op)).protoRequest =
      b.accessRequest p subjectID (b.authorizationResource app) op.id := by
  rw [ResourceAccessRequest.protoRequest, accessRequest]
  simp only [requestFor, queryFor]
  cases b.subjectAccessProperties p <;> rfl

theorem evaluated_err_eq_none : (b.evaluated policy p answer (queryFor app op)).err = none ↔
    ∃ subjectID, resolveCredentialSubjectID b.users p = .ok subjectID ∧ trimSpace op.id ≠ "" ∧
      let resp := answer (b.accessRequest p subjectID (b.authorizationResource app) op.id)
      let roles := rolesOf policy (queryFor app op)
      resp.allowed ∧
        (roles = [] ∨ matchedAllowedRole (boundedRelations resp.matchedRelations) roles ≠ "") := by
  rw [evaluated]
  cases hr : resolveCredentialSubjectID b.users p
  case error err => simp
  case ok subjectID =>
    have hd : (b.requestFor policy p subjectID (queryFor app op)).Degenerate ↔
        trimSpace op.id = "" := by
      have := resolveCredentialSubjectID_ne_blank hr
      simp [ResourceAccessRequest.Degenerate, requestFor, queryFor, this]
    simp only [Except.ok.injEq, exists_eq_left', operationAccessResult, ite_eq_left_iff,
      reduceCtorEq, imp_false, not_not, ResourceAccessRequest.decision, protoRequest_requestFor]
    by_cases hb : trimSpace op.id = ""
    case pos => simp [hd.mpr hb, hb]
    case neg =>
      rw [if_neg (mt hd.mp hb), and_iff_right hb]
      change (resourceAccessDecision _ (rolesOf policy (queryFor app op))).allowed = true ↔ _
      generalize answer _ = resp
      generalize rolesOf policy (queryFor app op) = roles
      rw [resourceAccessDecision_allowed]

theorem listed_err_eq_none :
    (b.listed policy p answer (queryFor app op)).err = none ↔
      Offered policy p app op ∧ b.ProfileLists p app op ∧ b.GrantedInBatch policy answer p app op := by
  have hj : (b.judge policy p (queryFor app op)).err = none ↔ b.passes policy p (queryFor app op) := by
    rw [judge]
    by_cases hs : allowsOperationPermission p (queryFor app op).provider (queryFor app op).operation
    case neg => simp [hs, passes]
    case pos => by_cases hp : b.passes policy p (queryFor app op) <;> simp [hs, hp]
  rw [← and_assoc, ← passes_queryFor, listed, GrantedInBatch, Granted]
  cases ha : b.authorization
  case none => simp [hj]
  case some evaluator =>
    by_cases hp : b.passes policy p (queryFor app op)
    case neg => simp [left, hp, hj]
    case pos =>
      by_cases hd : (b.provider app).any (·.remoteCredentialDelegated)
      case pos =>
        have hl : b.left policy p (queryFor app op) = none := by
          rw [left, if_neg (fun h => h.right hd)]
        simp only [hl, Option.elim_none, hj, hp, hd, true_or, and_self]
      case neg =>
        have hl : b.left policy p (queryFor app op) = some (queryFor app op) :=
          left_eq_some.mpr ⟨⟨hp, hd⟩, rfl⟩
        simp only [hl, Option.elim_some, evaluated_err_eq_none, hp, hd, reduceCtorEq, false_or,
          Bool.false_eq_true, true_and]
        constructor
        case mp =>
          rintro ⟨subjectID, hs, hb, hr⟩
          exact ⟨⟨subjectID, hs, hr⟩, hb⟩
        case mpr =>
          rintro ⟨⟨subjectID, hs, hr⟩, hb⟩
          exact ⟨subjectID, hs, hb, hr⟩

end Listing

theorem GrantedInBatch.granted (h : b.GrantedInBatch policy answer p app op) :
    b.Granted policy answer p app op id := by
  refine h.left.imp_right (.imp_right ?_)
  rintro ⟨subjectID, hs, ha, hr⟩
  refine ⟨subjectID, hs, ha, hr.imp_right ?_⟩
  simp only [matchedAllowedRole_ne_empty]
  rintro ⟨role, hm, hn, hr⟩
  obtain ⟨relation, hb, he⟩ := List.mem_map.mp hr
  obtain ⟨relation', hm', rfl⟩ := List.mem_map.mp (boundedRelations_subset hb)
  rw [trimSpace_trimSpace] at he
  exact ⟨role, hm, hn, he ▸ List.mem_map_of_mem hm'⟩

-- A listing and an invocation agree, unless they look at different operations or at different relations.
theorem listing_agrees_iff {queries : List OperationAccessQuery} {i : Nat}
    (hp : ∀ app, b.appOperationPolicy app = .ok (policy app))
    (he : ∀ evaluator ∈ b.authorization, evaluator.Pointwise answer)
    (hq : queries[i]? = some (queryFor app op)) (hn : ¬privateOperation op)
    (hs : op.api ≠ some .browserSession) :
    ((∃ results, b.checkOperationAccessMany p queries = .ok results ∧
        ∃ result, results[i]? = some result ∧ result.err = none) ↔
      ∃ r, b.authorizeInvocation ctx p (b.provider app) app op = .ok r) ↔
    ¬b.Diverges policy answer p app op := by
  rw [checkOperationAccessMany_eq hp he, authorizeInvocation_isOk (hp app) hn hs,
    evaluateInvokeAuthorization_isOk he]
  simp only [Except.ok.injEq, exists_eq_left', List.getElem?_map, hq, Option.map_some,
    Option.some_inj, listed_err_eq_none]
  constructor
  case mp =>
    rintro h (⟨ho, ha, hl, hg⟩ | ⟨ho, ha, hl, hg⟩ | ⟨ho, ha, hl, hg, hb⟩)
    case hidden => exact hl (h.mpr ⟨ho, ha, hg⟩).right.left
    case shown  => exact ha (h.mp ⟨ho, hl, hg⟩).right.left
    case late   => exact hb (h.mpr ⟨ho, ha, hg⟩).right.right
  case mpr =>
    intro hd
    constructor
    case mp =>
      rintro ⟨ho, hl, hb⟩
      by_cases ha : b.ProfileAllows p app op
      case pos => exact ⟨ho, ha, hb.granted⟩
      case neg => exact absurd (.shown ho ha hl hb) hd
    case mpr =>
      rintro ⟨ho, ha, hg⟩
      by_cases hl : b.ProfileLists p app op
      case neg => exact absurd (.hidden ho ha hl hg) hd
      case pos =>
        by_cases hb : b.GrantedInBatch policy answer p app op
        case pos => exact ⟨ho, hl, hb⟩
        case neg => exact absurd (.late ho ha hl hg hb) hd

-- Without space around the id, only the relations that are reported late make a difference.
theorem diverges_iff_of_trimmed (h : Trimmed op.id) :
    b.Diverges policy answer p app op ↔ Offered policy p app op ∧ b.ProfileAllows p app op ∧
      b.Granted policy answer p app op id ∧ ¬b.GrantedInBatch policy answer p app op := by
  have hs : (b.appAccessScope app).defaults = appAccessDefaultsFor (b.provider app) := by
    rw [appAccessScope]
    cases b.provider app <;> rfl
  have hl : b.ProfileLists p app op ↔ b.ProfileAllows p app op := by
    rw [Trimmed] at h
    simp only [ProfileLists, ProfileAllows, AppAccessScope.allows, Option.filter_some, h,
      decide_true, if_true, hs]
  constructor
  case mp =>
    rintro (⟨ho, ha, hn, hg⟩ | ⟨ho, ha, hn, hg⟩ | ⟨ho, ha, hn, hg, hb⟩)
    case hidden => exact absurd (hl.mpr ha) hn
    case shown  => exact absurd (hl.mp hn) ha
    case late   => exact ⟨ho, ha, hg, hb⟩
  case mpr =>
    rintro ⟨ho, ha, hg, hb⟩
    exact .late ho ha (hl.mpr ha) hg hb

section Demo

-- An evaluator that allows everything, for the given relations.
def demoAnswer (relations : List String) : CheckAccessRequest → CheckAccessResponse :=
  fun _ => { allowed := true, matchedRelations := relations }

def demoBroker (relations : List String) : Broker where
  providers := fun name => .ok { name }
  authorization := some {
    checkAccess     := fun req => .ok (demoAnswer relations req)
    checkAccessMany := fun reqs => .ok (reqs.map fun req => some (demoAnswer relations req)) }

def demoUser : Principal where
  userID := "6f9619ff-8b86-d011-b42d-00c04fc964ff"

def demoOperation : CatalogOperation where
  id := "purge"
  allowedRoles := ["admin"]

theorem listing_agrees_demo :
    let b := demoBroker ["viewer", "admin"]
    let queries := [queryFor "files" { id := "read" }, queryFor "notes" demoOperation]
    (∃ results, b.checkOperationAccessMany (some demoUser) queries = .ok results ∧
      ∃ result, results[1]? = some result ∧ result.err = none) ∧
    ¬b.Diverges (fun _ => ∅) (demoAnswer ["viewer", "admin"]) (some demoUser) "notes" demoOperation := by
  intro b queries
  have hp : ∀ app, b.appOperationPolicy app = .ok ∅ := fun _ => rfl
  have he : ∀ evaluator ∈ b.authorization, evaluator.Pointwise (demoAnswer ["viewer", "admin"]) := by
    rintro evaluator ⟨⟩
    exact ⟨fun _ => rfl, fun _ => rfl⟩
  have hl : (b.checkOperationAccessMany (some demoUser) queries).toOption.map
      (·[1]?.map (·.err)) = some (some none) := by decide +kernel
  have hi : (b.authorizeInvocation {} (some demoUser) (b.provider "notes") "notes"
      demoOperation).toOption.map (·.2.allowedRoles) = some ["admin"] := by decide +kernel
  obtain ⟨results, hl, hr⟩ := Except.eq_ok_of_toOption hl
  obtain ⟨r, hi, -⟩ := Except.eq_ok_of_toOption hi
  have hl : ∃ results, b.checkOperationAccessMany (some demoUser) queries = .ok results ∧
      ∃ result, results[1]? = some result ∧ result.err = none :=
    ⟨results, hl, Option.map_eq_some_iff.mp hr⟩
  exact ⟨hl, (listing_agrees_iff hp he rfl (by decide) (by decide)).mp (iff_of_true hl ⟨r, hi⟩)⟩

-- The role that counts is the last of 65 relations.
theorem late_role_not_listed :
    let relations := (List.range 64).map (fun n => "r" ++ toString n) ++ ["admin"]
    let b := demoBroker relations
    (∀ evaluator ∈ b.authorization, evaluator.Pointwise (demoAnswer relations)) ∧
    (∃ r, b.authorizeInvocation {} (some demoUser) (b.provider "notes") "notes" demoOperation = .ok r) ∧
    ¬∃ results, b.checkOperationAccessMany (some demoUser) [queryFor "notes" demoOperation] =
      .ok results ∧ ∃ result, results[0]? = some result ∧ result.err = none := by
  intro relations b
  have he : ∀ evaluator ∈ b.authorization, evaluator.Pointwise (demoAnswer relations) := by
    rintro evaluator ⟨⟩
    exact ⟨fun _ => rfl, fun _ => rfl⟩
  have hi : (b.authorizeInvocation {} (some demoUser) (b.provider "notes") "notes"
      demoOperation).toOption.map (·.2.allowedRoles) = some ["admin"] := by decide +kernel
  have hl : ((b.checkOperationAccessMany (some demoUser) [queryFor "notes" demoOperation]).toOption.map
      fun results => results[0]?.map (·.err.isSome)) = some (some true) := by decide +kernel
  obtain ⟨r, hi, -⟩ := Except.eq_ok_of_toOption hi
  refine ⟨he, ⟨r, hi⟩, ?_⟩
  rintro ⟨results, hr, result, h0, hn⟩
  rw [hr] at hl
  simp [Except.toOption, h0, hn] at hl

end Demo

end Invocation.Broker
