import GestaltModel.Mcp.FrontDoor

namespace Mcp

open Invocation Broker

variable {access : Option OperationAccess} {candidates : List SearchCandidate}
  {allows : OperationAccessQuery → Bool} {page page' : SearchPage}

-- The answer about an operation depends neither on when nor with which others it is asked about.
def Pointwise (access : Option OperationAccess) (allows : OperationAccessQuery → Bool) : Prop :=
  match access with
  | none => ∀ query, allows query
  | some check => ∃ answer : OperationAccessQuery → OperationAccessDecision,
    (∀ queries, check queries = .ok (queries.map answer)) ∧
    ∀ query, allows query = (answer query).err.isNone

theorem Pointwise.allowedOperations (h : Pointwise access allows) :
    allowedOperations access queries = .ok (queries.map allows) := by
  rw [Mcp.allowedOperations.eq_def]
  split_ifs with hq
  case pos => simp [hq]
  case neg =>
    cases access
    case none =>
      have h : allows = fun _ => true := funext h
      simp [h]
    case some check =>
      obtain ⟨answer, hc, ha⟩ := h
      simp [hc, ha]

def allowedHits (allows : OperationAccessQuery → Bool) (candidates : List SearchCandidate) :
    List SearchHit :=
  (candidates.filter (allows ·.query)).map (·.hit)

theorem allowedHits_append :
    allowedHits allows (l ++ l') = allowedHits allows l ++ allowedHits allows l' := by
  simp [allowedHits]

-- A window is consumed to its end unless the page is full before.
theorem consume_eq (allows : OperationAccessQuery → Bool) (window : List SearchCandidate)
    (hl : hits.length < limit) :
    ∃ n ≤ window.length, ∃ hits', hits' = hits ++ allowedHits allows (window.take n) ∧
      consume limit hits (window.zip (window.map (allows ·.query))) = (n, hits') ∧
      hits'.length ≤ limit ∧ (n = window.length ∨ hits'.length = limit) := by
  induction window generalizing hits
  case nil => exact ⟨0, le_rfl, hits, by simp [allowedHits], rfl, hl.le, .inl rfl⟩
  case cons c window ih =>
    cases ha : allows c.query
    case false =>
      obtain ⟨n, hn, _, rfl, he, hle, hf⟩ := ih hl
      refine ⟨n + 1, Nat.succ_le_succ hn, _, ?_, ?_, hle, hf.imp_left (congrArg _)⟩
      · simp [allowedHits, ha]
      · simp [consume, ha, he]
    case true =>
      by_cases hf : hits.length + 1 = limit
      case pos =>
        have hf : (hits ++ [c.hit]).length = limit := by simpa using hf
        refine ⟨1, Nat.le_add_left .., _, ?_, ?_, hf.le, .inr hf⟩
        · simp [allowedHits, ha]
        · simp [consume, ha, ← hf]
      case neg =>
        have hl : (hits ++ [c.hit]).length < limit := by
          rw [List.length_append, List.length_singleton]
          omega
        obtain ⟨n, hn, _, rfl, he, hle, hf'⟩ := ih hl
        refine ⟨n + 1, Nat.succ_le_succ hn, _, ?_, ?_, hle, hf'.imp_left (congrArg _)⟩
        · simp [allowedHits, ha]
        · simp [consume, ha, he, hf]

-- What the loop keeps. The candidates asked about are the examined ones, unless the page is full.
structure SearchPage.Exact (candidates : List SearchCandidate) (limit : Nat)
    (allows : OperationAccessQuery → Bool) (page : SearchPage) : Prop where
  hits : page.hits = allowedHits allows (candidates.take page.offset)
  le : page.hits.length ≤ limit
  asked : page.asked.flatten <+: candidates
  next : page.hits.length < limit → page.asked.flatten = candidates.take page.offset
  length : ∀ window ∈ page.asked, window.length ≤ maxBatchedAccessChecks

theorem SearchPage.window_eq : ∃ n ≤ maxBatchedAccessChecks,
    page.window candidates limit = (candidates.drop page.offset).take n :=
  ⟨_, (Nat.min_le_right ..).trans (Nat.min_le_left ..), rfl⟩

theorem SearchPage.Exact.fill (he : page.Exact candidates limit allows)
    (h : Pointwise access allows) :
    ∃ page', page.fill access candidates limit = .ok page' ∧
      page'.Exact candidates limit allows ∧
      (candidates.length ≤ page'.offset ∨ page'.hits.length = limit) := by
  fun_induction SearchPage.fill access candidates limit page
  case case1 page hc window err h' => rw [h.allowedOperations] at h'; cases h'
  case case2 page hc window ok h' next ih =>
    rw [h.allowedOperations, List.map_map] at h'
    cases h'
    obtain ⟨n, hn, _, rfl, hc', hle, hd⟩ := consume_eq allows window hc.right
    obtain ⟨m, hm, hw⟩ : ∃ m ≤ maxBatchedAccessChecks, window = _ := page.window_eq
    have ht : window.take n = (candidates.drop page.offset).take n := by
      rw [hw, List.take_take, Nat.min_eq_left]
      exact hn.trans (hw ▸ List.length_take_le ..)
    have hp : page.asked.flatten ++ window = candidates.take (page.offset + m) := by
      rw [he.next hc.right, hw, List.take_add]
    apply ih
    rw [show next = _ from hc', ht]
    refine ⟨?_, ht ▸ hle, ?_, ?_, ?_⟩
    case refine_1 => rw [he.hits, ← allowedHits_append, List.take_add]
    case refine_2 =>
      rw [List.flatten_append, List.flatten_singleton, hp]
      exact List.take_prefix ..
    case refine_3 =>
      intro hlt
      obtain rfl := hd.resolve_right (ht ▸ hlt.ne)
      rw [List.flatten_append, List.flatten_singleton, he.next hc.right, List.take_add, ← ht,
        List.take_length]
    case refine_4 =>
      intro w hm'
      rw [List.mem_append, List.mem_singleton] at hm'
      obtain hm' | rfl := hm'
      · exact he.length w hm'
      · exact hw ▸ (List.length_take_le ..).trans hm
  case case3 page hc =>
    refine ⟨page, rfl, he, ?_⟩
    have := he.le
    omega

-- A candidate is examined when its answer is read. These are the ones up to the page's offset.
theorem search_page_exact (candidates : List SearchCandidate) (limit : Nat)
    (h : Pointwise access allows) :
    ∃ hits truncated page, pageSearchHits access candidates limit = .ok (hits, truncated, page) ∧
      hits = (allowedHits allows candidates).take limit ∧
      page.asked.flatten <+: candidates ∧
      (∀ window ∈ page.asked, window.length ≤ maxBatchedAccessChecks) ∧
      (hits.length < (allowedHits allows candidates).length → truncated = true) ∧
      hits = allowedHits allows (candidates.take page.offset) ∧
      (page.offset = candidates.length → truncated = false) := by
  have hi : SearchPage.Exact candidates limit allows {} :=
    ⟨rfl, Nat.zero_le _, List.nil_prefix, fun _ => rfl, by simp⟩
  obtain ⟨page, hf, he, hd⟩ := hi.fill h
  have hs : allowedHits allows candidates =
      page.hits ++ allowedHits allows (candidates.drop page.offset) := by
    rw [he.hits, ← allowedHits_append, List.take_append_drop]
  refine ⟨page.hits, _, page, by simp [pageSearchHits, hf], ?_, he.asked, he.length, ?_, he.hits,
    fun ho => decide_eq_false ho.not_lt⟩
  · obtain hd | hd := hd
    · rw [hs, List.drop_eq_nil_of_le hd, allowedHits, List.filter_nil, List.map_nil, List.append_nil,
        List.take_of_length_le he.le]
    · rw [hs, ← hd, List.take_left]
  · intro hlt
    refine decide_eq_true (lt_of_not_ge fun hle => hlt.ne ?_)
    rw [hs, List.drop_eq_nil_of_le hle, allowedHits, List.filter_nil, List.map_nil, List.append_nil]

def readOnly : OperationAccess :=
  fun queries => .ok <| queries.map fun query =>
    { err := if query.operation = "read" then none else some (operationAccessDenied query) }

def sample (operation : String) : SearchCandidate :=
  ⟨⟨"app", operation, "", "", ""⟩, { provider := "app", operation }⟩

theorem search_page_of_readOnly :
    let candidates := [sample "write", sample "read", sample "read"]
    ∃ hits truncated page, pageSearchHits (some readOnly) candidates 1 =
      .ok (hits, truncated, page) ∧ hits = [(sample "read").hit] ∧ truncated = true := by
  intro candidates
  have h : Pointwise (some readOnly) (decide <| ·.operation = "read") := by
    refine ⟨_, fun _ => rfl, fun query => ?_⟩
    by_cases hr : query.operation = "read"
    all_goals simp [hr]
  obtain ⟨hits, truncated, page, he, rfl, _, _, ht, _⟩ := search_page_exact candidates 1 h
  exact ⟨_, truncated, page, he, by decide, ht (by decide)⟩

end Mcp
