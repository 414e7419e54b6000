import GestaltModel.Scim.Gate
import GestaltModel.Invocation.Theorems.AccessCheck

namespace Scim

open Authorization Identity Invocation Batching

variable {gate : AuthorizationGate} {answer : CheckAccessRequest → CheckAccessResponse}
  {req req' : CheckAccessRequest} {requests : List CheckAccessRequest}

namespace AuthorizationGate

theorem requestEligible_congr (h : subjectKey req = subjectKey req') :
    gate.requestEligible req = gate.requestEligible req' := by
  have hb {req} : gate.requestEligible req =
      gate.requestEligible ⟨some ⟨"subject", subjectKey req, none⟩, none, none⟩ := by
    rw [requestEligible, requestEligible, subjectKey]
    cases req.subject
    case none =>
      have hn : classifyUserSubjectValue (userIDFromSubjectID (Text.trimSpace "")) ≠ .canonical := by
        decide +kernel
      simp [hn]
      rfl
    case some subject => simp
  rw [hb, h, ← hb]

theorem eligible_congr (h : subjectKey req = subjectKey req') :
    gate.eligible req = gate.eligible req' := by
  rw [eligible, eligible, requestEligible_congr h]

-- The requests that a batch sends on, and its decisions about the others.
def forwarded (gate : AuthorizationGate) (req : CheckAccessRequest) : Option CheckAccessRequest :=
  if gate.eligible req then some req else none

def decided (gate : AuthorizationGate) (req : CheckAccessRequest) : Option CheckAccessResponse :=
  if gate.eligible req then none else some {}

-- The state of the loop between some requests and the remaining ones.
structure Batch.Between (gate : AuthorizationGate) (before after : List CheckAccessRequest)
    (batch : Batch) : Prop where
  decisions : batch.decisions = before.map gate.decided ++ after.map fun _ => none
  forward : batch.forward = before.filterMap gate.forwarded
  indexes : batch.indexes = (gather gate.forwarded before).map Prod.fst
  eligibility : ∀ req eligible, batch.eligibility.lookup (subjectKey req) = some eligible →
    gate.eligible req = eligible

namespace Batch.Between

theorem add (h : Batch.Between gate before (req :: after) batch) :
    Batch.Between gate (before ++ [req]) after (batch.add gate (req, before.length)) := by
  have he : (batch.eligibility.lookup (subjectKey req)).getD (gate.eligible req) =
      gate.eligible req := by
    cases hl : batch.eligibility.lookup (subjectKey req)
    case none => rfl
    case some eligible => exact (h.eligibility req eligible hl).symm
  have hc : ∀ req' eligible,
      (batch.eligibility.insert (subjectKey req) (gate.eligible req)).lookup (subjectKey req') =
        some eligible → gate.eligible req' = eligible := by
    intro req' eligible hl
    by_cases hk : subjectKey req' = subjectKey req
    case pos =>
      rw [hk, Finmap.lookup_insert, Option.some_inj] at hl
      rw [eligible_congr hk, hl]
    case neg =>
      rw [Finmap.lookup_insert_of_ne _ hk] at hl
      exact h.eligibility req' eligible hl
  have hd : batch.decisions.set before.length (some {}) =
      before.map gate.decided ++ some ({} : CheckAccessResponse) :: after.map fun _ => none := by
    rw [h.decisions, List.map_cons, List.set_append_right _ _ (by simp)]
    simp
  simp only [Batch.add, he]
  cases hg : gate.eligible req
  case true =>
    constructor
    case decisions   => simp [h.decisions, decided, hg]
    case forward     => simp [h.forward, forwarded, hg]
    case indexes     => simp [h.indexes, gather_concat, forwarded, hg]
    case eligibility => simpa [hg] using hc
  case false =>
    constructor
    case decisions   => simp [hd, decided, hg]
    case forward     => simp [h.forward, forwarded, hg]
    case indexes     => simp [h.indexes, gather_concat, forwarded, hg]
    case eligibility => simpa [hg] using hc

theorem foldl (h : Batch.Between gate before after batch) :
    Batch.Between gate (before ++ after) []
      ((after.zipIdx before.length).foldl (Batch.add gate) batch) := by
  induction after generalizing before batch
  case nil => simpa using h
  case cons req after hi =>
    have := hi h.add
    simpa using this

end Batch.Between

theorem scatter_decided (gate : AuthorizationGate) (answer : CheckAccessRequest → CheckAccessResponse)
    (requests : List CheckAccessRequest) :
    scatter (requests.map gate.decided)
      ((gather gate.forwarded requests).map Prod.fst)
      ((requests.filterMap gate.forwarded).map fun req => some (answer req)) =
        requests.map fun req => some (gate.gated answer req) := by
  have hv : ∀ (i : Nat) req req', requests[i]? = some req → gate.forwarded req = some req' →
      some (answer (i, req').2) = some (answer req') := fun _ _ _ _ _ => rfl
  rw [← map_snd_gather, List.map_map]
  refine (scatter_gather hv).trans (List.map_congr_left fun req _ => ?_)
  cases hg : gate.eligible req <;> simp [forwarded, decided, gated, hg]

theorem Batch.Between.send {batch : Batch} (h : gate.underlying.Pointwise answer)
    (hb : Batch.Between gate requests [] batch) :
    batch.send gate = .ok (requests.map fun req => some (gate.gated answer req)) := by
  have hs := scatter_decided gate answer requests
  have hd : batch.decisions = requests.map gate.decided := by simpa using hb.decisions
  rw [← hd, ← hb.indexes, ← hb.forward] at hs
  have hl : (batch.forward.map fun req => some (answer req)).length = batch.indexes.length := by
    rw [hb.forward, hb.indexes, ← map_snd_gather]
    simp
  rw [Batch.send]
  split
  case isTrue hf =>
    rw [hf, List.map_nil, scatter, List.zip_nil_right] at hs
    rw [← hs]
    rfl
  case isFalse =>
    rw [h.many, ← hs]
    exact if_neg (not_not.mpr hl)

theorem pointwise (h : gate.underlying.Pointwise answer) :
    gate.evaluator.Pointwise (gate.gated answer) where
  one req := by
    change gate.checkAccess req = _
    rw [checkAccess, gated, h.one]
    split <;> rfl
  many requests := by
    change gate.checkAccessMany requests = _
    rw [checkAccessMany]
    split
    case isTrue he => rw [h.many, he]; rfl
    case isFalse =>
      have hb : Batch.Between gate [] requests { decisions := requests.map fun _ => none } := by
        refine ⟨rfl, rfl, rfl, fun req eligible hl => ?_⟩
        rw [Finmap.lookup_empty] at hl
        contradiction
      exact hb.foldl.send h

end AuthorizationGate

-- Through the gate, a batch gives the decision of every single check.
theorem batched_access_eq_single {reqs : List ResourceAccessRequest}
    (h : gate.underlying.Pointwise answer) (hl : reqs.length ≤ maxBatchedAccessChecks) :
    ∃ decisions, checkResourceAccessMany (some gate.evaluator) reqs = .ok decisions ∧
      reqs.map (checkResourceAccess (some gate.evaluator)) = decisions.map .ok := by
  refine ⟨_, checkResourceAccessMany_eq (AuthorizationGate.pointwise h) hl, ?_⟩
  rw [List.map_map]
  apply List.map_congr_left
  intro req _
  exact checkResourceAccess_eq (AuthorizationGate.pointwise h)

-- Of two users one is not eligible. Some requests are repeated and some ask nothing.
theorem batched_access_demo :
    let answer (req : CheckAccessRequest) : CheckAccessResponse :=
      { allowed := req.action.map Action.name = some "read", matchedRelations := ["viewer"] }
    let gate : AuthorizationGate := {
      underlying := {
        checkAccess     := fun req => .ok (answer req)
        checkAccessMany := fun reqs => .ok (reqs.map fun req => some (answer req)) }
      getUser := fun id => .ok ⟨id, "someone@example.com"⟩
      isEligible := fun id _ => .ok (id = "6f9619ff-8b86-d011-b42d-00c04fc964ff") }
    let app : Resource := { type := "app", id := "notes" }
    let eligible := "user:6f9619ff-8b86-d011-b42d-00c04fc964ff"
    let other := "user:7f9619ff-8b86-d011-b42d-00c04fc964ff"
    let reqs : List ResourceAccessRequest :=
      [⟨other, "read", some app, [], none⟩, ⟨eligible, "read", some app, ["viewer"], none⟩,
        ⟨eligible, " ", some app, [], none⟩, ⟨eligible, "read", none, [], none⟩,
        ⟨other, "read", some app, [], none⟩]
    ∃ decisions, checkResourceAccessMany (some gate.evaluator) reqs = .ok decisions ∧
      reqs.map (checkResourceAccess (some gate.evaluator)) = decisions.map .ok ∧
      decisions = [{}, { allowed := true, role := "viewer" }, {}, {}, {}] := by
  intro answer gate app eligible other reqs
  have hp : gate.underlying.Pointwise answer := ⟨fun _ => rfl, fun _ => rfl⟩
  have hl : reqs.length ≤ maxBatchedAccessChecks := by decide
  obtain ⟨decisions, hm, hs⟩ := batched_access_eq_single hp hl
  have he : (checkResourceAccessMany (some gate.evaluator) reqs).toOption =
      some [{}, { allowed := true, role := "viewer" }, {}, {}, {}] := by decide +kernel
  rw [hm] at he
  exact ⟨decisions, hm, hs, Option.some.inj he⟩

end Scim
