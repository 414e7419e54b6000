import GestaltModel.Invocation.Agreement
import GestaltModel.Invocation.Theorems.AccessCheck

namespace Invocation.Broker

open Authorization Identity Batching

variable {b : Broker} {policy : String → AppOperationPolicy} {p : Option Principal}
  {query : OperationAccessQuery} {queries before after : List OperationAccessQuery}
  (hp : ∀ app, b.appOperationPolicy app = .ok (policy app))

-- The state of the first loop between some queries and the remaining ones.
structure Judged.Between (b : Broker) (policy : String → AppOperationPolicy) (p : Option Principal)
    (before after : List OperationAccessQuery) (judged : Judged) : Prop where
  results : judged.results = before.map (b.judge policy p) ++ after.map fun _ => { err := none }
  pending : judged.pending = (gather (b.left policy p) before).map Prod.fst
  access : ∀ app access, judged.accessByProvider.lookup app = some access →
    access = b.accessOf policy p app
  known : ∀ query ∈ before, b.left policy p query ≠ none → query.provider ∈ judged.accessByProvider

namespace Judged.Between

variable {judged : Judged}

include hp

theorem readAccess_eq : b.readAccess p app = .ok (b.accessOf policy p app) := by
  rw [readAccess, hp]
  rfl

theorem access_eq (h : Judged.Between b policy p before after judged) :
    judged.access b p app = .ok (b.accessOf policy p app) := by
  rw [Judged.access]
  split
  case h_1 access hl => rw [h.access app access hl]
  case h_2 => exact readAccess_eq hp

omit hp in
theorem concat (h : Judged.Between b policy p before (query :: after) judged)
    {accessByProvider : GoMap ProviderAccess}
    (ha : ∀ app access, accessByProvider.lookup app = some access → access = b.accessOf policy p app)
    (hk : ∀ app, app ∈ judged.accessByProvider → app ∈ accessByProvider)
    (hl : b.left policy p query ≠ none → query.provider ∈ accessByProvider) :
    Judged.Between b policy p (before ++ [query]) after {
      results := judged.results.set before.length (b.judge policy p query)
      pending := if b.left policy p query = none then judged.pending else
        judged.pending ++ [before.length]
      accessByProvider } := by
  constructor
  case results =>
    rw [h.results, List.map_cons, List.set_append_right _ _ (by simp)]
    simp
  case pending =>
    rw [h.pending, gather_concat, List.map_append]
    cases b.left policy p query <;> simp
  case access => exact ha
  case known =>
    intro query' hm hn
    obtain hm | hm := List.mem_append.mp hm
    case inl => exact hk _ (h.known query' hm hn)
    case inr =>
      rw [List.mem_singleton.mp hm] at hn ⊢
      exact hl hn

theorem add (h : Judged.Between b policy p before (query :: after) judged) :
    ∃ judged', judged.add b p (query, before.length) = .ok judged' ∧
      Judged.Between b policy p (before ++ [query]) after judged' := by
  simp only [Judged.add, h.access_eq hp]
  by_cases hs : allowsOperationPermission p query.provider query.operation
  case neg =>
    have hl : b.left policy p query = none := by simp [left, passes, hs]
    have hc := h.concat h.access (fun _ => id) (absurd hl)
    rw [if_pos hl, judge, if_pos hs] at hc
    exact ⟨_, if_pos hs, hc⟩
  case pos =>
    have ha : ∀ app access,
        (judged.accessByProvider.insert query.provider (b.accessOf policy p query.provider)).lookup app =
          some access → access = b.accessOf policy p app := by
      intro app access hl
      by_cases he : app = query.provider
      case pos =>
        rw [he, Finmap.lookup_insert, Option.some_inj] at hl
        rw [he, hl]
      case neg =>
        rw [Finmap.lookup_insert_of_ne _ he] at hl
        exact h.access app access hl
    have hc := h.concat ha (fun app hm => Finmap.mem_insert.mpr (.inr hm))
      fun _ => Finmap.mem_insert.mpr (.inl rfl)
    have hq : (¬((policy query.provider).resolve query.operation query.allowedRoles).2 ∨
        ¬(b.accessOf policy p query.provider).allows query) ↔ ¬b.passes policy p query := by
      rw [passes, decide_eq_true_eq, and_iff_right hs, not_and_or]
    refine ⟨_, ?_, hc⟩
    rw [if_neg (not_not.mpr hs), judge, if_neg (not_not.mpr hs)]
    refine (if_congr hq rfl rfl).trans ?_
    by_cases hp : b.passes policy p query
    case neg =>
      have hl : b.left policy p query = none := by simp [left, hp]
      rw [if_pos hp, if_pos hp, if_pos hl]
      rfl
    case pos =>
      have hl : b.left policy p query = none ↔
          (b.accessOf policy p query.provider).delegatesRemote = true := by simp [left, hp]
      rw [if_neg (not_not.mpr hp), if_neg (not_not.mpr hp), if_congr hl rfl rfl]
      rfl

theorem foldlM (h : Judged.Between b policy p before after judged) :
    ∃ judged', (after.zipIdx before.length).foldlM (Judged.add b p) judged = .ok judged' ∧
      Judged.Between b policy p (before ++ after) [] judged' := by
  induction after generalizing before judged
  case nil => exact ⟨judged, rfl, by simpa using h⟩
  case cons query after hi =>
    obtain ⟨judged', ha, h'⟩ := h.add hp
    obtain ⟨judged'', hf, h''⟩ := hi h'
    refine ⟨judged'', ?_, by simpa using h''⟩
    rw [List.zipIdx_cons, List.foldlM_cons, ha]
    rw [List.length_append, List.length_singleton] at hf
    exact hf

end Judged.Between

-- The requests are built for the queries that are left, whichever resources are remembered.
theorem foldl_buildRequest {entries : List (Nat × OperationAccessQuery)}
    (hr : ∀ app access, acc.1.lookup app = some access →
      access.resource.getD (b.authorizationResource app) = b.authorizationResource app)
    (he : ∀ i query, (i, query) ∈ entries → queries[i]? = some query ∧ query.provider ∈ acc.1 ∧
      (results[i]?.map (·.allowedRoles)).getD [] = rolesOf policy query) :
    ((entries.map Prod.fst).foldl (b.buildRequest p subjectID queries results) acc).2 =
      acc.2 ++ entries.map fun e => b.requestFor policy p subjectID e.2 := by
  induction entries generalizing acc
  case nil => simp
  case cons entry entries hi =>
    obtain ⟨i, query⟩ := entry
    obtain ⟨hq, hm, hro⟩ := he i query List.mem_cons_self
    obtain ⟨access, hl⟩ := Finmap.mem_iff.mp hm
    have hb : b.buildRequest p subjectID queries results acc i =
        (acc.1.insert query.provider { access with resource := b.authorizationResource query.provider },
          acc.2 ++ [b.requestFor policy p subjectID query]) := by
      rw [buildRequest, hq, Option.map_some, Option.getD_some, hl]
      simp only [hr _ _ hl, hro]
      rfl
    rw [List.map_cons, List.foldl_cons, hb, hi]
    case hr =>
      intro app access' hl'
      by_cases ha : app = query.provider
      case pos =>
        rw [ha, Finmap.lookup_insert, Option.some_inj] at hl'
        rw [ha, ← hl']
        rfl
      case neg =>
        rw [Finmap.lookup_insert_of_ne _ ha] at hl'
        exact hr app access' hl'
    case he =>
      intro j query' hm'
      obtain ⟨hq', hm'', hro'⟩ := he j query' (List.mem_cons_of_mem _ hm')
      exact ⟨hq', Finmap.mem_insert.mpr (.inr hm''), hro'⟩
    simp

theorem mapM_eq_ok {f : α → Except ε β} {l : List α} (h : ∀ a ∈ l, f a = .ok (g a)) :
    l.mapM f = .ok (l.map g) := by
  induction l
  case nil => rfl
  case cons a l hi =>
    rw [List.mapM_cons, h a List.mem_cons_self, hi fun a hm => h a (List.mem_cons_of_mem _ hm)]
    rfl

section Pointwise

variable {evaluator : Evaluator} {answer : CheckAccessRequest → CheckAccessResponse}
  (h : evaluator.Pointwise answer)

include h

theorem mapM_chunks :
    ∃ decisions, (chunks maxBatchedAccessChecks reqs).mapM
        (checkResourceAccessMany (some evaluator)) = .ok decisions ∧
      decisions.flatten = reqs.map (ResourceAccessRequest.decision answer) := by
  refine ⟨_, mapM_eq_ok fun reqs hm =>
    checkResourceAccessMany_eq h (length_le_of_mem_chunks hm), ?_⟩
  rw [← List.map_flatten, flatten_chunks (by decide)]

end Pointwise

theorem left_eq_some :
    b.left policy p query = some query' ↔ (b.passes policy p query ∧
      ¬(b.accessOf policy p query.provider).delegatesRemote) ∧ query = query' := by
  rw [left, Option.ite_none_right_eq_some, Option.some_inj]

namespace Judged.Between

variable {judged : Judged} (hj : Judged.Between b policy p queries [] judged)

include hj

theorem of_mem_gather (hm : (i, query) ∈ gather (b.left policy p) queries) :
    queries[i]? = some query ∧ query.provider ∈ judged.accessByProvider ∧
      (judged.results[i]?.map (·.allowedRoles)).getD [] = rolesOf policy query := by
  obtain ⟨query', hq, hl⟩ := mem_gather.mp hm
  obtain ⟨⟨hp, -⟩, rfl⟩ := left_eq_some.mp hl
  have hs : allowsOperationPermission p query'.provider query'.operation := by
    rw [passes, decide_eq_true_eq] at hp
    exact hp.left
  have hr : judged.results[i]? = some (b.judge policy p query') := by simp [hj.results, hq]
  refine ⟨hq, hj.known query' (List.mem_of_getElem? hq) (by simp [hl]), ?_⟩
  rw [hr, judge, if_neg (not_not.mpr hs), if_neg (not_not.mpr hp)]
  rfl

theorem setErrors (errs : Nat × OperationAccessQuery → Option Failure)
    (he : ∀ i query, queries[i]? = some query →
      errs (i, query) = (b.evaluated policy p answer query).err) :
    judged.setErrors ((gather (b.left policy p) queries).map errs) = queries.map fun query =>
      (b.left policy p query).elim (b.judge policy p query) (b.evaluated policy p answer) := by
  have hr : judged.results = queries.map (b.judge policy p) := by simpa using hj.results
  let value (e : Nat × OperationAccessQuery) : OperationAccessDecision :=
    { err := errs e, allowedRoles := (judged.results[e.1]?.map (·.allowedRoles)).getD [] }
  have hv : ∀ i query query', queries[i]? = some query → b.left policy p query = some query' →
      value (i, query') = b.evaluated policy p answer query' := by
    intro i query query' hq hl
    obtain ⟨hq', -, hro⟩ := hj.of_mem_gather (mem_gather.mpr ⟨query, hq, hl⟩)
    simp only [value, hro, he i query' hq']
    rfl
  rw [Judged.setErrors, hj.pending, List.zip_map', List.map_map]
  have hs := scatter_gather (d := b.judge policy p) hv
  rw [← hr] at hs
  exact hs

theorem evaluate (h : evaluator.Pointwise answer) (ha : b.authorization = some evaluator) :
    judged.evaluate b p queries = .ok (queries.map fun query =>
      (b.left policy p query).elim (b.judge policy p query) (b.evaluated policy p answer)) := by
  rw [Judged.evaluate]
  cases hu : resolveCredentialSubjectID b.users p
  case error err =>
    simp only
    rw [hj.pending, List.map_map, hj.setErrors]
    intro i query hq
    simp [evaluated, hu, hq]
  case ok subjectID =>
    have hr : ∀ app access, judged.accessByProvider.lookup app = some access →
        access.resource.getD (b.authorizationResource app) = b.authorizationResource app := by
      intro app access hl
      rw [hj.access app access hl]
      rfl
    have hb : (judged.pending.foldl (b.buildRequest p subjectID queries judged.results)
        (judged.accessByProvider, [])).2 = (gather (b.left policy p) queries).map fun e =>
          b.requestFor policy p subjectID e.2 := by
      rw [hj.pending]
      exact foldl_buildRequest hr fun i query hm => hj.of_mem_gather hm
    obtain ⟨decisions, hm, hd⟩ := mapM_chunks h
    simp only
    rw [hb, ha, hm, hj.pending]
    change Except.ok _ = _
    rw [hd, List.map_map, List.zip_map', List.map_map, hj.setErrors]
    intro i query hq
    simp [evaluated, hu, hq]

end Judged.Between

section Listing

include hp

theorem checkOperationAccessMany_cases : ∃ judged, Judged.Between b policy p queries [] judged ∧
    b.checkOperationAccessMany p queries =
      if judged.pending = [] ∨ b.authorization.isNone then .ok judged.results
      else judged.evaluate b p queries := by
  have hb : Judged.Between b policy p [] queries { results := queries.map fun _ => { } } := by
    refine ⟨rfl, rfl, fun app access hl => ?_, fun query hm => absurd hm List.not_mem_nil⟩
    rw [Finmap.lookup_empty] at hl
    contradiction
  obtain ⟨judged, hf, hj⟩ := hb.foldlM hp
  refine ⟨judged, hj, ?_⟩
  change _ >>= _ = _
  rw [List.length_nil] at hf
  rw [hf]
  rfl

theorem checkOperationAccessMany_eq
    (h : ∀ evaluator ∈ b.authorization, evaluator.Pointwise answer) :
    b.checkOperationAccessMany p queries = .ok (queries.map (b.listed policy p answer)) := by
  obtain ⟨judged, hj, he⟩ := checkOperationAccessMany_cases hp
  have hr : judged.results = queries.map (b.judge policy p) := by simpa using hj.results
  rw [he]
  unfold listed
  cases ha : b.authorization
  case none => rw [if_pos (.inr rfl), hr]
  case some evaluator =>
    split
    case isFalse   => exact hj.evaluate (h evaluator ha) ha
    case isTrue hn =>
      -- Nothing is left, so there is nothing to put into the results of the first loop.
      have hg : gather (b.left policy p) queries = [] := by
        simpa [hj.pending] using hn
      have hs := hj.setErrors (fun e => (b.evaluated policy p answer e.2).err) fun _ _ _ => rfl
      rw [hg, List.map_nil, Judged.setErrors, List.zip_nil_right, List.map_nil, scatter,
        List.zip_nil_right] at hs
      rw [← hs]
      rfl

end Listing

end Invocation.Broker
