import GestaltModel.AppRegistry.Theorems.InstallValidator

namespace AppRegistry

open Coredata LocalPoller
open InstallRequest (ofChange)

section Recorded

theorem exists_request_of_recorded (h : recorded requests app version = some i) :
    ∃ r ∈ requests, installationFromChangeRequest r = i := by
  induction requests using List.reverseRecOn
  case nil => cases h
  case append_singleton requests request hi =>
    have hm (h : recorded requests app version = some i) :
        ∃ r ∈ requests ++ [request], installationFromChangeRequest r = i := by
      obtain ⟨r, hr, he⟩ := hi h
      exact ⟨r, List.mem_append_left _ hr, he⟩
    by_cases he : app = (installationFromChangeRequest request).appName ∧
      version = (installationFromChangeRequest request).version
    case neg =>
      rw [recorded_append_of_ne he] at h
      exact hm h
    case pos =>
      obtain ⟨j, hj, ho, -⟩ := recorded_append_self requests request he.left.symm he.right.symm
        (recorded_app h).right.right (recorded_version h).right.right
      cases h.symm.trans hj
      rcases ho with rfl | ho
      case inl => exact ⟨request, by simp, rfl⟩
      case inr => exact hm ho

theorem recorded_of_mem (hr : r ∈ requests) (ha : (installationFromChangeRequest r).appName ≠ "")
    (hv : (installationFromChangeRequest r).version ≠ "") :
    ∃ i, recorded requests (installationFromChangeRequest r).appName
        (installationFromChangeRequest r).version = some i ∧
      (installationFromChangeRequest r).updatedAt ≤ i.updatedAt := by
  induction requests using List.reverseRecOn
  case nil => cases hr
  case append_singleton requests request hi =>
    rw [List.mem_append, List.mem_singleton] at hr
    by_cases he : (installationFromChangeRequest r).appName =
        (installationFromChangeRequest request).appName ∧
      (installationFromChangeRequest r).version = (installationFromChangeRequest request).version
    case neg =>
      rw [recorded_append_of_ne he]
      rcases hr with hr | rfl
      case inl => exact hi hr
      case inr => exact absurd ⟨rfl, rfl⟩ he
    case pos =>
      obtain ⟨i, hs, -, hle⟩ :=
        recorded_append_self requests request he.left.symm he.right.symm ha hv
      refine ⟨i, hs, ?_⟩
      rcases hr with hr | rfl
      case inr => exact hle _ (.inl rfl)
      case inl =>
        obtain ⟨j, hj, hl⟩ := hi hr
        exact hl.trans (hle j (.inr hj))

-- The latest known version is that of a request of the greatest rank.
theorem latestKnownVersion_of_requests (hne : requests ≠ [])
    (h : ∀ r ∈ requests, (installationFromChangeRequest r).appName ≠ "" ∧
      (installationFromChangeRequest r).version ≠ "") :
    ∃ r ∈ requests, latestKnownVersion (knownVersionsFromRequests requests) =
        Text.trimSpace r.toVersion ∧
      ∀ r' ∈ requests,
        rank (installationFromChangeRequest r') ≤ rank (installationFromChangeRequest r) := by
  have hk {r} (hr : r ∈ requests) : ∃ i ∈ knownVersionsFromRequests requests,
      rank (installationFromChangeRequest r) ≤ rank i := by
    obtain ⟨i, hi, hle⟩ := recorded_of_mem hr (h r hr).left (h r hr).right
    refine ⟨i, KnownVersions.mem_toList.mpr ⟨_, _, hi⟩, ?_⟩
    rw [rank, rank, (recorded_version hi).left]
    exact Prod.Lex.toLex_mono (Prod.mk_le_mk.mpr ⟨hle, le_rfl⟩)
  cases hl : latestKnownInstallation (knownVersionsFromRequests requests)
  case none =>
    obtain ⟨r, hr⟩ := List.exists_mem_of_ne_nil _ hne
    obtain ⟨i, hi, -⟩ := hk hr
    cases hs : knownVersionsFromRequests requests
    case nil  => simp [hs] at hi
    case cons => simp [hs, latestKnownInstallation] at hl
  case some i =>
    obtain ⟨hi, hr⟩ := latestKnownInstallation_spec hl
    obtain ⟨_, _, hi⟩ := KnownVersions.mem_toList.mp hi
    obtain ⟨r, hm, rfl⟩ := exists_request_of_recorded hi
    refine ⟨r, hm, ?_, ?_⟩
    case refine_1 => simp [latestKnownVersion, hl, installationFromChangeRequest]
    case refine_2 =>
      intro r' hr'
      obtain ⟨j, hj, hle⟩ := hk hr'
      exact hle.trans (hr j hj)

end Recorded

-- At the end of the log the last request decides.
theorem versionLiveAt_eq (hs : requests.Pairwise (·.timestamp ≤ ·.timestamp))
    (ht : ∀ r ∈ requests, r.timestamp ≤ t) (hne : requests ≠ []) :
    versionLiveAt requests t = Text.trimSpace (requests.getLast hne).toVersion := by
  have hw : requests.takeWhile (·.timestamp ≤ t) = requests :=
    List.takeWhile_eq_self_iff.mpr fun r hr => decide_eq_true (ht r hr)
  rw [versionLiveAt, hs.insertionSort_eq]
  cases requests
  case nil => contradiction
  case cons first rest =>
    dsimp only
    rw [if_neg (not_lt.mpr (ht first List.mem_cons_self)), hw]
    nth_rewrite 1 [← List.dropLast_append_getLast hne]
    rw [List.foldl_concat]

-- The log of an app as `ListRequestsByApp` returns it.
structure ChangeLog (app : String) (requests : List AppVersionChangeRequest) : Prop where
  named : app ≠ ""
  app : ∀ r ∈ requests, Text.trimSpace r.app = app
  version : ∀ r ∈ requests, Text.trimSpace r.toVersion ≠ ""
  ordered : requests.Pairwise AppVersionChangeRequest.Older

-- The live version is the latest known unless a larger one was requested in the same millisecond.
theorem live_version_eq_latest_known_iff (registry : AppVersionChangeRequest → String)
    {app : String} (hl : ChangeLog app requests) (hne : requests ≠ [])
    (ht : ∀ r ∈ requests, r.timestamp ≤ t) :
    versionLiveAt requests t = latestKnownVersion
      (knownVersionsFromRequests (requests.map (ofChange registry))) ↔
    ∀ r ∈ requests,
      Time.truncate Time.millisecond r.timestamp =
        Time.truncate Time.millisecond (requests.getLast hne).timestamp →
      Text.trimSpace r.toVersion ≤ Text.trimSpace (requests.getLast hne).toVersion := by
  have hs : requests.Pairwise (·.timestamp ≤ ·.timestamp) :=
    hl.ordered.imp fun h => h.elim le_of_lt fun h => h.left.le
  have hle {r} (hr : r ∈ requests) : Time.truncate Time.millisecond r.timestamp ≤
      Time.truncate Time.millisecond (requests.getLast hne).timestamp := by
    refine Time.truncate_mono (by decide) ?_
    rw [← List.dropLast_append_getLast hne, List.mem_append, List.mem_singleton] at hr
    rcases hr with hr | rfl
    case inr => exact le_rfl
    case inl =>
      rw [← List.dropLast_append_getLast hne, List.pairwise_append] at hs
      exact hs.right.right r hr _ List.mem_cons_self
  have hn : requests.map (ofChange registry) ≠ [] := by simpa using hne
  obtain ⟨q, hq, he, hr⟩ := latestKnownVersion_of_requests hn (by
    simp only [List.forall_mem_map]
    exact fun r hr => ⟨(hl.app r hr).trans_ne hl.named, hl.version r hr⟩)
  obtain ⟨r, hm, rfl⟩ := List.mem_map.mp hq
  simp only [List.forall_mem_map, rank, Prod.Lex.toLex_le_toLex, installationFromChangeRequest,
    ofChange, Text.trimSpace_trimSpace] at hr
  rw [versionLiveAt_eq hs ht hne, he, ofChange]
  constructor
  case mp =>
    intro hv r' hr' ht'
    rcases hr r' hr' with h | h
    case inl => exact absurd (hle hm) (not_le.mpr (ht' ▸ h))
    case inr => exact hv ▸ h.right
  case mpr =>
    intro hv
    rcases hr _ (List.getLast_mem hne) with h | h
    case inl => exact absurd (hle hm) (not_le.mpr h)
    case inr => exact le_antisymm h.right (hv r hm h.left.symm)

theorem live_version_after_rollback :
    let requests : List AppVersionChangeRequest :=
      [⟨"a", "app", "1.0.0", "2.0.0", "", 0, none⟩, ⟨"b", "app", "2.0.0", "1.0.0", "", 1000000, none⟩]
    versionLiveAt requests 1000000 = latestKnownVersion
      (knownVersionsFromRequests (requests.map (ofChange fun _ => ""))) :=
  have hl : ChangeLog "app" _ := ⟨by decide, by decide +kernel, by decide +kernel, by decide⟩
  (live_version_eq_latest_known_iff _ hl (List.cons_ne_nil _ _) (by decide)).mpr (by decide +kernel)

-- A rollback in the millisecond of the request before it.
theorem live_version_ne_latest_known :
    let requests : List AppVersionChangeRequest :=
      [⟨"a", "app", "1.0.0", "2.0.0", "", 0, none⟩, ⟨"b", "app", "2.0.0", "1.0.0", "", 0, none⟩]
    requests.Pairwise AppVersionChangeRequest.Older ∧
    versionLiveAt requests 0 = "1.0.0" ∧
    latestKnownVersion
      (knownVersionsFromRequests (requests.map (ofChange fun _ => ""))) = "2.0.0" := by
  decide +kernel

end AppRegistry
