import GestaltModel.Invocation.Theorems.Agreement
import GestaltModel.Mcp.Search
import GestaltModel.Mcp.Theorems.FrontDoor

namespace Mcp

open Authorization Identity Invocation Broker

variable {h : FrontDoor} {p : Option Principal} {b : Broker}

-- Private operations are not projected.
theorem FrontDoor.eq_of_mem_candidates (hc : c ∈ h.candidates p args) :
    ∃ app op, c = searchCandidate app args.catalogInstance op ∧ ¬privateOperation op := by
  obtain ⟨app, -, hc⟩ := List.mem_flatMap.mp hc
  split at hc
  case h_1 =>
    obtain ⟨op, hm, rfl⟩ := List.mem_map.mp hc
    refine ⟨app, op, rfl, fun hp => ?_⟩
    simp only [privateOperation, decide_eq_true_eq] at hp
    simp [matching, catalogOperationProjectedToMCP, operationExposedOnMCP, hp] at hm
  case h_2 => cases hc

-- A search of the workspace shows only operations that its caller can invoke.
theorem search_shows_invocable {policy : String → AppOperationPolicy}
    {answer : CheckAccessRequest → CheckAccessResponse} (ctx : CallContext)
    (args : SearchArguments) (hs : ∀ l, (h.sort l).Perm l)
    (ha : h.access = some b.checkOperationAccessMany)
    (hp : ∀ app, b.appOperationPolicy app = .ok (policy app))
    (he : ∀ evaluator ∈ b.authorization, evaluator.Pointwise answer)
    (hu : p ≠ none) (hq : args.app ≠ "" ∨ args.query ≠ "" ∧ args.catalogInstance = "") :
    ∃ result, h.callSearch p args = .ok result ∧
      ∀ hit ∈ result.results, ∃ app op,
        searchCandidate app args.catalogInstance op ∈ h.candidates p args ∧
        hit = (searchCandidate app args.catalogInstance op).hit ∧
        (Text.Trimmed op.id → op.api ≠ some .browserSession →
          ∃ r, b.authorizeInvocation ctx p (b.provider app) app op = .ok r) := by
  have hx : SearchPage.Exact (h.sort (h.candidates p args)) args.pageLimit
      (b.listed policy p answer · |>.err.isNone) {} :=
    ⟨rfl, Nat.zero_le _, List.nil_prefix, fun _ => rfl, by simp⟩
  have hw : Pointwise (some (b.checkOperationAccessMany p)) _ :=
    ⟨_, fun _ => checkOperationAccessMany_eq hp he, fun _ => rfl⟩
  obtain ⟨page, hf, hx, -⟩ := hx.fill hw
  have hq : ¬(args.catalogInstance ≠ "" ∧ args.app = "") ∧ ¬(args.query = "" ∧ args.app = "") := by
    tauto
  refine ⟨⟨page.hits, h.unavailable p args, "", page.offset < (h.sort (h.candidates p args)).length⟩,
    by simp [FrontDoor.callSearch, hu, hq, ha, pageSearchHits, hf], fun hit hm => ?_⟩
  rw [hx.hits] at hm
  obtain ⟨c, hm', rfl⟩ := List.mem_map.mp hm
  obtain ⟨hm, hl⟩ := List.mem_filter.mp hm'
  have hc := (hs _).mem_iff.mp (List.mem_of_mem_take hm)
  obtain ⟨app, op, rfl, hn⟩ := FrontDoor.eq_of_mem_candidates hc
  refine ⟨app, op, hc, rfl, fun ht hb => ?_⟩
  rw [authorizeInvocation_isOk (hp app) hn hb, evaluateInvokeAuthorization_isOk he]
  obtain ⟨ho, hl, hg⟩ := listed_err_eq_none.mp (Option.isNone_iff_eq_none.mp hl)
  refine ⟨ho, ?_, hg.granted⟩
  by_contra hn
  exact hn ((diverges_iff_of_trimmed ht).mp (.shown ho hn hl hg)).right.left

def demoFrontDoor : FrontDoor where
  providerNames := ["notes"]
  catalogForSearch := fun _ _ _ => some (.ok (some { operations := [{ demoOperation with }] }))
  access := some (demoBroker ["admin"]).checkOperationAccessMany
  sort := id
  toLower := Text.toLower

theorem search_shows_purge :
    ∃ result, demoFrontDoor.callSearch (some demoUser) { app := "notes" } = .ok result ∧
      result.results.map (·.operation) = ["purge"] := by
  have he e (hm : e ∈ (demoBroker ["admin"]).authorization) : e.Pointwise (demoAnswer ["admin"]) := by
    cases hm
    exact ⟨fun _ => rfl, fun _ => rfl⟩
  obtain ⟨result, hr, -⟩ := search_shows_invocable {} { app := "notes" } (h := demoFrontDoor)
    (fun _ => .refl _) rfl (fun _ => rfl) he (Option.some_ne_none demoUser) (by simp)
  have hl : (demoFrontDoor.callSearch (some demoUser) { app := "notes" }).toOption.map
      (·.results.map (·.operation)) = some ["purge"] := by decide +kernel
  rw [hr] at hl
  exact ⟨result, hr, Option.some_inj.mp hl⟩

end Mcp
