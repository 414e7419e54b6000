import GestaltModel.Invocation.Broker

-- The search of the workspace's MCP front door.
namespace Mcp

open Invocation Broker

def defaultSearchLimit : Nat := 20

structure SearchHit where
  app : String
  operation : String
  catalogInstance : String
  title : String
  description : String
  deriving DecidableEq, Repr

structure SearchCandidate where
  hit : SearchHit
  query : OperationAccessQuery

-- `CheckOperationAccessMany` for the principal of a request.
abbrev OperationAccess := List OperationAccessQuery → Except Failure (List OperationAccessDecision)

-- The error is the text of the tool's result.
def allowedOperations (access : Option OperationAccess) (queries : List OperationAccessQuery) :
    Except String (List Bool) :=
  if queries = [] then
    .ok []
  else match access with
    | none => .ok (queries.map fun _ => true)
    | some check =>
      match check queries with
      | .error err  => .error ("operation access is unavailable: " ++ err.text)
      | .ok results =>
        if results.length ≠ queries.length then
          .error (s!"operation access returned {results.length} decisions " ++
            s!"for {queries.length} operations")
        else
          .ok (results.map (·.err.isNone))

theorem allowedOperations_length (h : allowedOperations access queries = .ok allowed) :
    allowed.length = queries.length := by
  simp only [allowedOperations] at h
  split_ifs at h
  case pos hq => cases h; simp [hq]
  case neg =>
    split at h
    case h_1 => cases h; simp
    case h_2 =>
      split at h
      case h_1 => cases h
      case h_2 =>
        split_ifs at h with hl
        cases h
        simpa using hl

-- How many candidates of a window are consumed up to the one that fills the page, and the hits.
def consume (limit : Nat) : List SearchHit → List (SearchCandidate × Bool) → Nat × List SearchHit
  | hits, [] => (0, hits)
  | hits, (c, ok) :: rest =>
    let hits := if ok then hits ++ [c.hit] else hits
    if ok ∧ hits.length = limit then
      (1, hits)
    else
      let (consumed, hits) := consume limit hits rest
      (consumed + 1, hits)

theorem consume_pos (h : answers ≠ []) : 0 < (consume limit hits answers).1 := by
  fun_cases consume
  case case1 => exact absurd rfl h
  all_goals exact Nat.succ_pos _

-- How far a search is. The windows it asked about are kept besides what the source has.
structure SearchPage where
  hits : List SearchHit := []
  offset : Nat := 0
  asked : List (List SearchCandidate) := []

variable (access : Option OperationAccess) (candidates : List SearchCandidate) (limit : Nat)

def SearchPage.window (page : SearchPage) : List SearchCandidate :=
  let need := limit - page.hits.length
  let take := min (candidates.length - page.offset)
    (min maxBatchedAccessChecks (max need defaultSearchLimit))
  (candidates.drop page.offset).take take

theorem SearchPage.window_ne_nil {page : SearchPage} (h : page.offset < candidates.length) :
    page.window candidates limit ≠ [] := by
  have : 0 < maxBatchedAccessChecks := by decide
  have : 0 < defaultSearchLimit := by decide
  rw [window, ← List.length_pos_iff, List.length_take, List.length_drop]
  omega

def SearchPage.fill (page : SearchPage) : Except String SearchPage :=
  if page.offset < candidates.length ∧ page.hits.length < limit then
    let window := page.window candidates limit
    match _h : allowedOperations access (window.map (·.query)) with
    | .error err => .error err
    | .ok ok =>
      let next := consume limit page.hits (window.zip ok)
      fill ⟨next.2, page.offset + next.1, page.asked ++ [window]⟩
  else
    .ok page
termination_by candidates.length - page.offset
decreasing_by
  have hw := page.window_ne_nil candidates limit (by omega)
  have hz : (page.window candidates limit).zip ok ≠ [] := by
    rw [← List.length_pos_iff] at hw ⊢
    rwa [List.length_zip, allowedOperations_length _h, List.length_map, min_self]
  have hc : 0 < (consume limit page.hits _).1 := consume_pos hz
  omega

-- The hits and whether there may be more of them, with the page for the statements about it.
def pageSearchHits : Except String (List SearchHit × Bool × SearchPage) := do
  let page ← SearchPage.fill access candidates limit {}
  return (page.hits, page.offset < candidates.length, page)

end Mcp
