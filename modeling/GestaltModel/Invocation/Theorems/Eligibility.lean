import GestaltModel.Invocation.Theorems.Agreement
import GestaltModel.Scim.Theorems.Gate

namespace Invocation.Broker

open Identity Scim AuthorizationGate

-- Who is not eligible is neither shown nor allowed any operation that has to be authorized.
theorem ineligible_denied {b : Broker} {gate : AuthorizationGate} {op : CatalogOperation}
    {policy : String → AppOperationPolicy}
    (ha : b.authorization = some gate.evaluator) (h : gate.underlying.Pointwise answer)
    (hp : ∀ app, b.appOperationPolicy app = .ok (policy app))
    (hu : resolveCredentialSubjectID b.users p = .ok subjectID)
    (hg : gate.eligible ⟨some ⟨"subject", subjectID, none⟩, none, none⟩ = false)
    (hd : ¬(b.provider app).any (·.remoteCredentialDelegated)) :
    (∀ queries, ∃ results, b.checkOperationAccessMany p queries = .ok results ∧
      ∀ i : Nat, queries[i]? = some (queryFor app op) → ∃ r ∈ results[i]?, r.err ≠ none) ∧
    ¬∃ r, b.authorizeInvocation ctx p (b.provider app) app op = .ok r := by
  have he (resource action) : gate.eligible (b.accessRequest p subjectID resource action) = false := by
    rw [← hg]
    exact eligible_congr (Text.trimSpace_trimSpace subjectID)
  constructor
  case left =>
    have hw e (he : e ∈ b.authorization) : e.Pointwise (gate.gated answer) := by
      cases ha.symm.trans he
      exact pointwise h
    refine fun queries => ⟨_, checkOperationAccessMany_eq hp hw, fun i hq => ?_⟩
    refine ⟨_, by rw [List.getElem?_map, hq]; rfl, fun hn => ?_⟩
    obtain hd' | ha' | ⟨_, hu', hr, -⟩ := (listed_err_eq_none.mp hn).right.right.granted
    case inl => exact hd hd'
    case inr.inl => exact Option.some_ne_none _ (ha.symm.trans ha')
    case inr.inr =>
      cases hu.symm.trans hu'
      simp [gated, he] at hr
  case right =>
    have hn (roles access) :
        b.authorizeOperation p app { op with allowedRoles := roles } ≠ .ok access := by
      refine not_exists.mp (mt authorizeOperation_isOk.mp ?_) access
      simp [evaluateInvokeAuthorization, ha, authorizationDecision, hu, evaluator, checkAccess, he,
        bind, Except.bind]
    rintro ⟨r, hr⟩
    simp only [authorizeInvocation, Except.bind_eq_ok_iff, hd, hp] at hr
    split_ifs at hr
    all_goals simp_all [Except.bind_eq_ok_iff]

def suspendedGate : AuthorizationGate where
  underlying := ⟨fun req => .ok (demoAnswer [] req),
    fun reqs => .ok (reqs.map (some <| demoAnswer [] ·))⟩
  getUser id := .ok ⟨id, "someone@example.com"⟩
  isEligible _ _ := .ok false

theorem suspended_user_denied :
    let b := { demoBroker [] with authorization := some suspendedGate.evaluator }
    ¬∃ r, b.authorizeInvocation {} (some demoUser) (b.provider "notes") "notes" { id := "read" } =
      .ok r := by
  have hu : resolveCredentialSubjectID none (some demoUser) = .ok (userSubjectID demoUser.userID) := by
    decide +kernel
  exact (ineligible_denied rfl ⟨fun _ => rfl, fun _ => rfl⟩ (fun _ => rfl) hu (by decide +kernel)
    (by decide)).right

end Invocation.Broker
