import GestaltModel.Coredata.ChangeRequests

namespace Coredata.AppVersionChangeRequestService

theorem normalizeRequest_id :
    (normalizeRequest now uuid request).id ≠ "" ∧
    Text.Trimmed (normalizeRequest now uuid request).id := by
  simp only [normalizeRequest]
  split
  case isTrue => exact ⟨uuid.nonempty, uuid.trimmed⟩
  case isFalse hn => exact ⟨hn, Text.trimSpace_trimmed _⟩

theorem appendRequest_eq_ok (h : appendRequest now uuid request store = .ok (store', added)) :
    added = normalizeRequest now uuid request ∧ store.lookup added.id = none ∧
    store' = store.put added := by
  have ⟨_, _, h⟩ := Except.bind_eq_ok_iff.mp h
  have ⟨_, _, h⟩ := Except.bind_eq_ok_iff.mp h
  have ⟨_, _, h⟩ := Except.bind_eq_ok_iff.mp h
  have ⟨_, hadd, h⟩ := Except.bind_eq_ok_iff.mp h
  cases h
  have ⟨hn, he⟩ := ObjectStore.add_eq_ok.mp (Except.context_eq_ok.mp hadd)
  exact ⟨rfl, hn, he⟩

-- By induction on the requests left. The latest one is still to come, or the latest one so far.
theorem go_eq_of_latest (hid : latest.id ≠ "") (hv : Text.trimSpace latest.toVersion = version)
    (hall : ∀ request ∈ requests, Text.trimSpace request.toVersion = version →
      request = latest ∨ request.Older latest)
    (h : latest ∈ requests ∧ Newer latest latestID latestTime ∨
      latestID = latest.id ∧ latestTime = latest.timestamp) :
    latestDesiredRevisionID.go version latestID latestTime requests = latest.id := by
  induction requests generalizing latestID latestTime
  case nil => exact (h.resolve_left (fun h => nomatch h.left)).left
  case cons request requests hi =>
    have ⟨hr, hall⟩ := List.forall_mem_cons.mp hall
    rw [latestDesiredRevisionID.go]
    split
    case isTrue hn =>
      refine hi hall ?_
      rcases hr hn.left with he | ho
      case inl => exact .inr (by rw [he]; exact ⟨rfl, rfl⟩)
      case inr =>
        have hne : latest ≠ request := by
          intro he
          rw [he] at ho
          rcases ho with ho | ⟨_, ho⟩ <;> exact lt_irrefl _ ho
        rcases h with ⟨hm, _⟩ | ⟨hl, ht⟩
        case inl =>
          refine .inl ⟨(List.mem_cons.mp hm).resolve_left hne, .inr ?_⟩
          exact ho.imp id fun ⟨ht, hl⟩ => ⟨ht.symm, hl⟩
        case inr =>
          rw [hl, ht] at hn
          rcases hn.right with h | h | ⟨h, hlt⟩
          case inl     => exact absurd h hid
          case inr.inl =>
            rcases ho with ho | ⟨ho, _⟩ <;> omega
          case inr.inr =>
            rcases ho with ho | ⟨_, ho⟩
            · omega
            · exact absurd (hlt.trans ho) (lt_irrefl _)
    case isFalse hn =>
      refine hi hall (h.imp (fun ⟨hm, hnew⟩ => ⟨?_, hnew⟩) id)
      refine (List.mem_cons.mp hm).resolve_left fun he => hn ?_
      exact ⟨he ▸ hv, he ▸ hnew⟩

theorem latestRevisionIDForVersion_eq_ok {id : String}
    (h : latestRevisionIDForVersion app version store = .ok id) (hn : id ≠ "")
    (hm : latest ∈ store.getAll) (hid : latest.id ≠ "")
    (hl : Listed (Text.trimSpace app) latest)
    (hv : Text.trimSpace latest.toVersion = Text.trimSpace version)
    (hall : ∀ request ∈ store.getAll, Listed (Text.trimSpace app) request →
      Text.trimSpace request.toVersion = Text.trimSpace version →
      request = latest ∨ request.Older latest) : id = latest.id := by
  have ⟨requests, hr, h⟩ := Except.bind_eq_ok_iff.mp h
  have ⟨_, _, hr⟩ := Except.bind_eq_ok_iff.mp hr
  cases hr
  cases h
  rw [latestDesiredRevisionID] at hn ⊢
  split at hn
  case isTrue => contradiction
  case isFalse hne =>
    rw [if_neg hne]
    refine go_eq_of_latest hid hv (fun request hr => ?_) (.inl ⟨?_, .inl rfl⟩)
    · have ⟨hr, hlr⟩ := List.mem_filter.mp hr
      exact hall request hr (of_decide_eq_true hlr)
    · exact List.mem_filter.mpr ⟨hm, decide_eq_true hl⟩

end Coredata.AppVersionChangeRequestService
