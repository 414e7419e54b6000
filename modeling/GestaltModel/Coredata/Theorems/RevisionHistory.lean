import GestaltModel.Coredata.RevisionHistory
import GestaltModel.Coredata.Theorems.ChangeRequests
import GestaltModel.Pagination.Theorems.Basic
import GestaltModel.Primitives.Theorems.Rfc3339
import Mathlib.Data.Prod.Lex

namespace Coredata

open Time (Marshals second truncate)

namespace AppVersionChangeRequest

variable {r r' : AppVersionChangeRequest}

theorem older_iff : r.Older r' ↔ toLex (r.timestamp, r.id) < toLex (r'.timestamp, r'.id) := by
  rw [Prod.Lex.toLex_lt_toLex]
  rfl

theorem Older.asymm (h : r.Older r') : ¬r'.Older r := by
  rw [older_iff] at *
  exact lt_asymm h

theorem older_of_not_older (h : ¬r.Older r') (hid : r.id ≠ r'.id) : r'.Older r := by
  rw [older_iff] at *
  exact lt_of_le_of_ne (not_lt.mp h) fun he => hid (congrArg (·.2) he).symm

instance : Std.Total fun r r' : AppVersionChangeRequest => ¬r.Older r' where
  total r r' := by
    rw [older_iff, older_iff, not_lt, not_lt]
    exact le_total ..

instance : IsTrans AppVersionChangeRequest fun r r' => ¬r.Older r' where
  trans r r' r'' h h' := by
    rw [older_iff, not_lt] at *
    exact h'.trans h

end AppVersionChangeRequest

namespace AppVersionChangeRequestService

variable {requests requests' : List AppVersionChangeRequest}
  {request last next : AppVersionChangeRequest}

section Sorted

variable (hn : (requests.map Record.id).Nodup)

theorem sortChangeRequestsDesc_perm : (sortChangeRequestsDesc requests).Perm requests :=
  List.perm_insertionSort ..

include hn

theorem sortChangeRequestsDesc_pairwise :
    (sortChangeRequestsDesc requests).Pairwise fun left right => right.Older left := by
  have hs := List.pairwise_insertionSort (fun r r' : AppVersionChangeRequest => ¬r.Older r') requests
  have hn := (sortChangeRequestsDesc_perm.map Record.id).nodup_iff.mpr hn
  exact hs.imp₂ (fun _ _ => AppVersionChangeRequest.older_of_not_older) (List.pairwise_map.mp hn)

theorem eq_sortChangeRequestsDesc (h : requests'.Pairwise fun left right => right.Older left)
    (hp : requests'.Perm requests) : requests' = sortChangeRequestsDesc requests :=
  (hp.trans sortChangeRequestsDesc_perm.symm).eq_of_pairwise
    (fun _ _ _ _ h h' => absurd h h'.asymm) h (sortChangeRequestsDesc_pairwise hn)

end Sorted

section Cursor

variable {t : Int} {id : String}

theorem changeRequestBeforeCursor_iff :
    changeRequestBeforeCursor t id request ↔ toLex (request.timestamp, request.id) < toLex (t, id) := by
  rw [Prod.Lex.toLex_lt_toLex, changeRequestBeforeCursor]
  dsimp only
  split
  case isTrue => simp; omega
  case isFalse h₁ =>
    split
    case isTrue h₂  => simp [h₂]
    case isFalse h₂ => simp [(by omega : request.timestamp = t)]

theorem leftByCursor_of_older (h : request.Older last)
    (hl : leftByCursor cursor last) : leftByCursor cursor request := by
  simp only [leftByCursor, Bool.or_eq_true, decide_eq_true_eq, changeRequestBeforeCursor_iff] at *
  exact hl.imp id (AppVersionChangeRequest.older_iff.mp h).trans

theorem parse_format_cursor (h : request.PlainID) :
    (parseAppVersionChangeRequestCursor
      (formatAppVersionChangeRequestCursor request.timestamp request.id)).toOption =
    if Marshals request.timestamp then
      some (truncate second request.timestamp, request.id)
    else
      none := by
  have ⟨c, hc, hs⟩ := Time.formatRFC3339_head request.timestamp
  have hne : Time.formatRFC3339 request.timestamp ≠ "" := fun he => by simp [he] at hc
  have ht : Text.trimSpace request.id = request.id := h.trimmed
  have hcolon : ":" = String.singleton ':' := rfl
  have htrim : Text.Trimmed (Time.formatRFC3339 request.timestamp ++ ":" ++ request.id) :=
    .append (by simp [Option.mem_def.mp hc]) hs h.trimmed h.nonempty
  rw [parseAppVersionChangeRequestCursor, formatAppVersionChangeRequestCursor, ht, htrim]
  rw [if_neg (by simp), hcolon, Text.cutLast_append h.plain]
  dsimp only
  rw [if_neg hne, Time.parseRFC3339_formatRFC3339]
  by_cases hm : Marshals request.timestamp
  case pos => simp [hm, ht, h.nonempty, Except.toOption]
  case neg => simp [hm, Except.toOption]

end Cursor

end AppVersionChangeRequestService

namespace RevisionHistory

open AppVersionChangeRequestService

variable {app : String} {limit : Int} {store : ChangeRequestStore}

theorem nodup_filter :
    ((store.getAll.filter p).map Record.id).Nodup :=
  ObjectStore.nodup_getAll.sublist (List.filter_sublist.map _)

-- The pages as a listing: a cursor is compared with a request by its time and its id.
def listing (app : String) (limit : Int) (store : ChangeRequestStore) :
    Pagination.Listing AppVersionChangeRequest String where
  items := sortChangeRequestsDesc (store.getAll.filter (Listed (Text.trimSpace app) ·))
  nodup := sortChangeRequestsDesc_perm.nodup_iff.mpr nodup_filter.of_map
  size := pageLimit limit
  size_pos := by
    simp only [pageLimit, defaultAppVersionChangeRequestPageLimit,
      maxAppVersionChangeRequestPageLimit]
    split <;> omega
  cursor r := formatAppVersionChangeRequestCursor r.timestamp r.id
  left c   := (parseAppVersionChangeRequestCursor c).toOption.map leftByCursor
  mono h   := by
    have ⟨_, _, he⟩ := Option.map_eq_some_iff.mp h
    exact he ▸ (sortChangeRequestsDesc_pairwise nodup_filter).imp leftByCursor_of_older

theorem toPage_firstPage {requests : List AppVersionChangeRequest} :
    toPage (firstPage (pageLimit limit) requests) = (listing app limit store).cut requests := by
  rw [firstPage, Pagination.Listing.cut]
  change _ = if pageLimit limit < requests.length then _ else _
  split
  case isTrue h =>
    have hc {r : AppVersionChangeRequest} :
        formatAppVersionChangeRequestCursor r.timestamp r.id ≠ "" := by
      simp [formatAppVersionChangeRequestCursor]
    rw [toPage]
    dsimp only
    rw [if_neg hc]
    change _ = Pagination.Page.mk _ (Option.map _ requests[pageLimit limit - 1]?)
    rw [List.getElem?_eq_getElem (by omega)]
    rfl
  case isFalse => rfl

theorem listRequestsByApp_eq (happ : Text.trimSpace app ≠ "") :
    listRequestsByApp app store = .ok (store.getAll.filter (Listed (Text.trimSpace app) ·)) := by
  simp [listRequestsByApp, require, happ]

theorem fetch_eq (happ : Text.trimSpace app ≠ "") :
    fetch app limit store = (listing app limit store).page := by
  funext c
  have hl : (listing app limit store).left c =
      (parseAppVersionChangeRequestCursor c).toOption.map leftByCursor := rfl
  rw [fetch, listRequestsByAppPage, listRequestsByApp_eq happ, Pagination.Listing.page,
    Pagination.Listing.rest, hl]
  cases parseAppVersionChangeRequestCursor c
  case error e => rfl
  case ok cursor => exact congrArg some toPage_firstPage

theorem left_cursor (h : last.PlainID) :
    (listing app limit store).left ((listing app limit store).cursor last) =
    if Marshals last.timestamp then
      some (leftByCursor (truncate second last.timestamp, last.id))
    else
      none := by
  simp only [listing, parse_format_cursor h]
  split <;> rfl

theorem rest_empty :
    (listing app limit store).rest "" = some (listing app limit store).items := by
  have hp : parseAppVersionChangeRequestCursor "" = .ok (0, "") := by decide +kernel
  have hl : (listing app limit store).left "" = some (leftByCursor (0, "")) :=
    congrArg (·.toOption.map leftByCursor) hp
  rw [Pagination.Listing.rest, hl, Option.map_some, List.filter_eq_self.mpr]
  exact fun _ _ => rfl

-- The time of a cursor is not after its request, so it does not leave that request.
theorem not_leftByCursor_self (h : truncate second last.timestamp ≠ 0) :
    ¬leftByCursor (truncate second last.timestamp, last.id) last := by
  have := Time.truncate_le (by decide : 0 < second) last.timestamp
  simp only [leftByCursor, Bool.or_eq_true, decide_eq_true_eq, changeRequestBeforeCursor_iff,
    Prod.Lex.toLex_lt_toLex, not_or, not_and]
  exact ⟨h, by omega, fun _ => lt_irrefl _⟩

theorem leftByCursor_iff {last next : AppVersionChangeRequest}
    (h : truncate second last.timestamp ≠ 0) :
    leftByCursor (truncate second last.timestamp, last.id) next ↔
    next.timestamp < truncate second last.timestamp ∨
    (next.timestamp = truncate second last.timestamp ∧ next.id < last.id) := by
  simp only [leftByCursor, Bool.or_eq_true, decide_eq_true_eq, changeRequestBeforeCursor_iff,
    Prod.Lex.toLex_lt_toLex, h, false_or]

theorem resumes_iff_leads (h : last.PlainID) (hl : (listing app limit store).items[i]? = some last)
    (hn : (listing app limit store).items[i + 1]? = some next) :
    (listing app limit store).Resumes (i + 1) ↔ Leads last next := by
  have hc := @left_cursor app limit store last h
  by_cases hm : Marshals last.timestamp
  case neg =>
    rw [if_neg hm] at hc
    refine ⟨fun ⟨last', hl', hr⟩ => ?_, fun h => absurd h.left hm⟩
    cases hl.symm.trans hl'
    rw [Pagination.Listing.rest, hc] at hr
    exact nomatch hr
  case pos =>
    rw [if_pos hm] at hc
    by_cases ht : truncate second last.timestamp = 0
    case pos =>
      -- The cursor has no time, so it leads back to the first page.
      refine ⟨fun ⟨last', hl', hr⟩ => ?_, fun h => absurd ht h.right.left⟩
      cases hl.symm.trans hl'
      have hall {r} : leftByCursor (truncate second last.timestamp, last.id) r := by
        simp [leftByCursor, ht]
      rw [Pagination.Listing.rest, hc, Option.map_some,
        List.filter_eq_self.mpr fun _ _ => hall] at hr
      have hlen := congrArg (List.length <| ·.getD []) hr
      have hlt := (List.getElem?_eq_some_iff.mp hl).choose
      simp only [Option.getD_some, List.length_drop] at hlen
      omega
    case neg =>
      rw [Pagination.Listing.resumes_iff hl hn fun p hp => ?_, hc]
      · simp only [Option.mem_some_iff, exists_eq_left', leftByCursor_iff ht, Leads, hm, ht, ne_eq,
          not_false_eq_true, true_and]
      · cases hc.symm.trans hp
        exact not_leftByCursor_self ht

theorem items_eq (h : ∀ request ∈ requests app store, Listed (Text.trimSpace app) request) :
    (listing app limit store).items = sortChangeRequestsDesc (requests app store) := by
  change sortChangeRequestsDesc _ = _
  rw [requests]
  refine congrArg _ (List.filter_congr fun request hr => decide_eq_decide.mpr ⟨And.left, fun ha => ?_⟩)
  exact h request (List.mem_filter.mpr ⟨hr, decide_eq_true ha⟩)

theorem listed_of_mem_items
    (h : request ∈ (listing app limit store).items) : Listed (Text.trimSpace app) request :=
  of_decide_eq_true (List.mem_filter.mp (sortChangeRequestsDesc_perm.mem_iff.mp h)).right

-- The boundaries between pages, once for the positions and once for the requests there.
theorem resumes_all_iff (hid : ∀ request ∈ requests app store, request.PlainID)
    (hitems : (listing app limit store).items = sortChangeRequestsDesc (requests app store)) :
    (∀ k, (k + 1) * (listing app limit store).size < (listing app limit store).items.length →
      (listing app limit store).Resumes ((k + 1) * (listing app limit store).size)) ↔
    ∀ {k last next},
      (sortChangeRequestsDesc (requests app store))[(k + 1) * pageLimit limit - 1]? = some last →
      (sortChangeRequestsDesc (requests app store))[(k + 1) * pageLimit limit]? = some next →
      Leads last next := by
  rw [← hitems]
  have hpos {k : Nat} : (k + 1) * pageLimit limit - 1 + 1 = (k + 1) * pageLimit limit :=
    Nat.sub_add_cancel (Nat.mul_pos k.succ_pos (listing app limit store).size_pos)
  have hplain {i : Nat} {last} (hl : (listing app limit store).items[i]? = some last) :
      last.PlainID :=
    hid last (sortChangeRequestsDesc_perm.mem_iff.mp (hitems ▸ List.mem_of_getElem? hl))
  constructor
  case mp =>
    intro h k last next hl hn
    refine (resumes_iff_leads (hplain hl) hl (hpos ▸ hn)).mp ?_
    rw [hpos]
    exact h k (List.getElem?_eq_some_iff.mp hn).choose
  case mpr =>
    intro h k hk
    change (listing app limit store).Resumes ((k + 1) * pageLimit limit)
    change (k + 1) * pageLimit limit < _ at hk
    have hl := List.getElem?_eq_getElem (by omega :
      (k + 1) * pageLimit limit - 1 < (listing app limit store).items.length)
    have hn := List.getElem?_eq_getElem hk
    have := (resumes_iff_leads (hplain hl) hl (by rw [hpos]; exact hn)).mpr (h hl hn)
    rwa [hpos] at this

theorem lossless_iff (happ : Text.trimSpace app ≠ "")
    (hid : ∀ request ∈ requests app store, request.PlainID) :
    Lossless app limit store ↔ Resumable app limit store := by
  have hstart := @rest_empty app limit store
  constructor
  case mp =>
    intro ⟨n, pages, hc, hp, hs⟩
    rw [collect, fetch_eq happ] at hc
    have hlisted : ∀ request ∈ requests app store, Listed (Text.trimSpace app) request :=
      fun _ hr => listed_of_mem_items (Pagination.Listing.mem_of_follow hc (hp.mem_iff.mpr hr))
    have hitems := @items_eq app limit store hlisted
    have he : pages = sortChangeRequestsDesc (requests app store) :=
      eq_sortChangeRequestsDesc nodup_filter hs hp
    rw [he, ← hitems] at hc
    have h := (Pagination.Listing.follow_eq_items_iff hstart).mp ⟨n, hc⟩
    exact ⟨hlisted, (resumes_all_iff hid hitems).mp h⟩
  case mpr =>
    intro ⟨hlisted, h⟩
    have hitems := @items_eq app limit store hlisted
    have ⟨n, hc⟩ := (Pagination.Listing.follow_eq_items_iff hstart).mpr
      ((resumes_all_iff hid hitems).mpr h)
    rw [hitems] at hc
    refine ⟨n, _, ?_, sortChangeRequestsDesc_perm, sortChangeRequestsDesc_pairwise nodup_filter⟩
    rw [collect, fetch_eq happ, hc]

section Demo

-- A request of the app `demo`, some milliseconds after a fixed second in the year 1997.
def demoRequest (id : String) (milliseconds : Int) : AppVersionChangeRequest where
  id := id
  app := "demo"
  fromVersion := "1.0.0"
  toVersion := "1.1.0"
  timestamp := 63000000000 * second + milliseconds * Time.millisecond

def demoStore (milliseconds : Int) : ChangeRequestStore :=
  ((∅ : ChangeRequestStore).put (demoRequest "older" 100)).put (demoRequest "newer" milliseconds)

theorem lossless_iff_demo : Lossless "demo" 1 (demoStore 1100) := by
  refine (lossless_iff (by decide +kernel) (by decide +kernel)).mpr ⟨by decide +kernel, ?_⟩
  have hs : sortChangeRequestsDesc (requests "demo" (demoStore 1100)) =
      [demoRequest "newer" 1100, demoRequest "older" 100] := by decide +kernel
  have hl : pageLimit 1 = 1 := by decide
  intro k last next hlast hnext
  rw [hs, hl, Nat.mul_one] at hlast hnext
  cases k
  case zero =>
    cases hlast
    cases hnext
    decide +kernel
  case succ => exact nomatch hnext

-- Both requests are in the same second. The cursor after the newer one has the start of the second,
-- so the older one is on no page.
theorem same_second_skipped :
    (∀ request ∈ requests "demo" (demoStore 900),
      request.PlainID ∧ truncate Time.millisecond request.timestamp = request.timestamp) ∧
    demoRequest "older" 100 ∈ requests "demo" (demoStore 900) ∧
    (∀ n, collect "demo" 1 (demoStore 900) (n + 2) = some [demoRequest "newer" 900]) ∧
    ¬Lossless "demo" 1 (demoStore 900) := by
  have hp₁ : fetch "demo" 1 (demoStore 900) "" =
      some ⟨[demoRequest "newer" 900], some "1997-05-23T16:00:00Z:newer"⟩ := by decide +kernel
  have hp₂ : fetch "demo" 1 (demoStore 900) "1997-05-23T16:00:00Z:newer" = some ⟨[], none⟩ := by
    decide +kernel
  have hc (n : Nat) :
      collect "demo" 1 (demoStore 900) (n + 2) = some [demoRequest "newer" 900] := by
    simp [collect, Pagination.follow, hp₁, hp₂]
  have hm : demoRequest "older" 100 ∈ requests "demo" (demoStore 900) := by decide +kernel
  refine ⟨by decide +kernel, hm, hc, ?_⟩
  rintro ⟨n, pages, hn, hp, -⟩
  have he : pages = [demoRequest "newer" 900] := by
    rcases n with _ | _ | n
    · cases hn
    · simp [collect, Pagination.follow, hp₁] at hn
    · exact Option.some.inj (hn.symm.trans (hc n))
  rw [he] at hp
  exact absurd (hp.mem_iff.mpr hm) (by decide +kernel)

end Demo

end RevisionHistory
end Coredata
