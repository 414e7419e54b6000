import GestaltModel.AppRegistry.PruneSafety
import GestaltModel.AppRegistry.Theorems.RetentionPrune

namespace AppRegistry

open Text (Trimmed trimSpace)

variable {p : PruneInput} {policy : RetentionPolicy} {now : Int}
variable {index : Index} {retention : RetentionIndex} {keys : List String}
variable {version desiredVersion appName app v : String} {entry : RetentionVersion}
variable {action : RetentionPruneAction} {actions : List RetentionPruneAction}

theorem retentionExpired_iff (h : entry.expiresAt.filter (· ≠ 0) = some t) :
    RetentionExpired entry now ↔ t ≤ now := by
  obtain ⟨he, ht⟩ := Option.filter_eq_some_iff.mp h
  simp [RetentionExpired, he, of_decide_eq_true ht]

theorem not_retentionExpired (h : entry.expiresAt.filter (· ≠ 0) = none) :
    ¬RetentionExpired entry now := by
  rintro ⟨t, ht, hn, -⟩
  exact Option.filter_eq_none_iff.mp h t ht (decide_eq_true hn)

theorem versionSelectable_ne_ok (hd : trimSpace version ≠ trimSpace desiredVersion) :
    versionSelectable version desiredVersion retention policy now ≠ .ok () ↔
    ∃ entry, retention.versions.lookup (trimSpace version) = some entry ∧
      RunOut entry policy now := by
  simp only [versionSelectable, versionDeploymentState, if_neg (not_and_of_not_left _ hd)]
  cases retention.versions.lookup (trimSpace version)
  case none => simp
  case some entry =>
    simp only [Option.some.injEq, exists_eq_left', RunOut, UnusedVersionExpired]
    cases he : entry.expiresAt.filter (· ≠ 0)
    case none =>
      by_cases hu : entry.everDeployed <;>
        by_cases hn : now < entry.publishedAt + policy.unusedRetention <;>
        simp [hu, hn, not_retentionExpired he, Int.not_le.mpr, Int.not_lt.mp]
    case some t =>
      by_cases hu : entry.everDeployed <;> by_cases hn : now < t <;>
        simp [hu, hn, retentionExpired_iff he, Int.not_le.mpr, Int.not_lt.mp]

theorem validateRetentionIndex_eq_ok :
    validateRetentionIndex retention = .ok () ↔
    retention.schemaVersion = retentionIndexSchemaVersion ∧
    ∀ v entry, retention.versions.lookup v = some entry →
      validateRetentionVersion v entry = .ok () := by
  simp [validateRetentionIndex, Except.bind_eq_ok_iff, require_eq_ok, GoMap.checkAll_eq_ok,
    Except.context_eq_ok]

theorem validateIndex_eq_ok :
    validateIndex index = .ok () ↔
    index.schemaVersion = indexSchemaVersion ∧
    ∀ appName app, index.apps.lookup appName = some app →
      trimSpace appName ≠ "" ∧ app.versions ≠ ∅ ∧
      ∀ v row, app.versions.lookup v = some row → validateIndexVersion appName v row = .ok () := by
  simp [validateIndex, Except.bind_eq_ok_iff, require_eq_ok, GoMap.checkAll_eq_ok]

theorem decodeIndex_valid (h : decodeIndex d = .ok index) :
    validateIndex index = .ok () := by
  cases d <;> simp only [decodeIndex, reduceCtorEq] at h
  case index =>
    obtain ⟨_, hv, h⟩ := Except.bind_eq_ok_iff.mp h
    cases h
    exact hv

theorem decodeRetentionIndex_valid (h : decodeRetentionIndex d = .ok retention) :
    validateRetentionIndex retention = .ok () := by
  cases d <;> simp only [decodeRetentionIndex, reduceCtorEq] at h
  case retention =>
    obtain ⟨_, hv, h⟩ := Except.bind_eq_ok_iff.mp h
    cases h
    exact hv

theorem removeRetentionVersion_schemaVersion :
    (removeRetentionVersion retention version).1.schemaVersion = retention.schemaVersion := by
  rw [removeRetentionVersion]
  split <;> rfl

theorem validateRetentionIndex_remove (h : validateRetentionIndex retention = .ok ())
    (version : String) :
    validateRetentionIndex (removeRetentionVersion retention version).1 = .ok () := by
  rw [validateRetentionIndex_eq_ok] at h ⊢
  refine ⟨removeRetentionVersion_schemaVersion.trans h.left, fun v entry hl => ?_⟩
  rw [removeRetentionVersion_versions] at hl
  exact h.right v entry (GoMap.lookup_of_lookup_erase hl)

theorem validateIndex_remove (h : validateIndex index = .ok ()) (appName version : String) :
    validateIndex (removeIndexVersion index appName version).1 = .ok () := by
  rw [removeIndexVersion]
  split
  case h_1 => exact h
  case h_2 app ha =>
    split
    case isFalse => exact h
    case isTrue  =>
      rw [validateIndex_eq_ok] at h
      dsimp only
      split <;> rw [validateIndex_eq_ok] <;> refine ⟨h.left, fun name app' hl => ?_⟩
      case isTrue => exact h.right name app' (GoMap.lookup_of_lookup_erase hl)
      case isFalse hn =>
        by_cases hk : name = appName
        case neg => exact h.right name app' (Finmap.lookup_insert_of_ne _ hk ▸ hl)
        case pos =>
          subst hk
          cases Option.some.inj ((Finmap.lookup_insert _).symm.trans hl)
          obtain ⟨ht, -, hv⟩ := h.right name app ha
          exact ⟨ht, hn, fun v row hr => hv v row (GoMap.lookup_of_lookup_erase hr)⟩

theorem removeIndexVersion_versions_of_ne (h : app ≠ appName) :
    (removeIndexVersion index appName version).1.versions app = index.versions app := by
  rw [removeIndexVersion]
  split
  case h_1 => rfl
  case h_2 =>
    split
    case isFalse => rfl
    case isTrue  =>
      dsimp only
      split
      case isTrue  => simp [Index.versions, Finmap.lookup_erase_ne h]
      case isFalse => simp [Index.versions, Finmap.lookup_insert_of_ne _ h]

theorem applyRetentionPruneAction_index (index : Index) (retention : RetentionIndex)
    (appName : String) (action : RetentionPruneAction) (app v : String) :
    ((applyRetentionPruneAction index retention appName action).1.versions app).lookup v =
      if app = appName ∧ action = ⟨v, .deleteUnused⟩ then none
      else (index.versions app).lookup v := by
  obtain ⟨version, kind⟩ := action
  cases kind
  case deleteArtifact => simp [applyRetentionPruneAction]
  case deleteUnused =>
    simp only [applyRetentionPruneAction, RetentionPruneAction.mk.injEq, and_true]
    by_cases ha : app = appName
    case neg => simp [ha, removeIndexVersion_versions_of_ne ha]
    case pos =>
      subst ha
      rw [removeIndexVersion_versions]
      by_cases hv : version = v
      case pos => simp [hv]
      case neg => simp [hv, Finmap.lookup_erase_ne (Ne.symm hv)]

theorem applyRetentionPruneAction_retention (index : Index) (retention : RetentionIndex)
    (appName : String) (action : RetentionPruneAction) (v : String) :
    (applyRetentionPruneAction index retention appName action).2.1.versions.lookup v =
      if action.kind = .deleteUnused ∧ trimSpace action.version = v then none
      else retention.versions.lookup v := by
  obtain ⟨version, kind⟩ := action
  cases kind
  case deleteArtifact => simp [applyRetentionPruneAction]
  case deleteUnused =>
    simp only [applyRetentionPruneAction, removeRetentionVersion_versions, true_and]
    by_cases hv : trimSpace version = v
    case pos => simp [hv]
    case neg => simp [hv, Finmap.lookup_erase_ne (Ne.symm hv)]

theorem applyRetentionPruneActions_valid (hi : validateIndex catalogs.1 = .ok ())
    (hr : validateRetentionIndex catalogs.2 = .ok ()) :
    validateIndex (applyRetentionPruneActions appName actions catalogs).1 = .ok () ∧
    validateRetentionIndex (applyRetentionPruneActions appName actions catalogs).2 = .ok () := by
  induction actions generalizing catalogs
  case nil => exact ⟨hi, hr⟩
  case cons action actions ih =>
    obtain ⟨version, kind⟩ := action
    cases kind
    case deleteArtifact => exact ih hi hr
    case deleteUnused =>
      exact ih (validateIndex_remove hi appName version) (validateRetentionIndex_remove hr version)

theorem applyRetentionPruneActions_index (h : app ≠ appName ∨ ⟨v, .deleteUnused⟩ ∉ actions) :
    ((applyRetentionPruneActions appName actions catalogs).1.versions app).lookup v =
      (catalogs.1.versions app).lookup v := by
  induction actions generalizing catalogs
  case nil => rfl
  case cons action actions ih =>
    have hn : ¬(app = appName ∧ action = ⟨v, .deleteUnused⟩) := by grind
    refine (ih (by grind)).trans ?_
    rw [applyRetentionPruneAction_index, if_neg hn]

-- The rows of other versions stay in the retention catalog if the actions have trimmed keys.
theorem applyRetentionPruneActions_retention
    (ht : ∀ action ∈ actions, action.kind = .deleteUnused → Trimmed action.version)
    (h : ⟨v, .deleteUnused⟩ ∉ actions) :
    (applyRetentionPruneActions appName actions catalogs).2.versions.lookup v =
      catalogs.2.versions.lookup v := by
  induction actions generalizing catalogs
  case nil => rfl
  case cons action actions ih =>
    have hn : ¬(action.kind = .deleteUnused ∧ trimSpace action.version = v) := by
      rintro ⟨hk, rfl⟩
      have hv := ht action List.mem_cons_self hk
      obtain ⟨version, kind⟩ := action
      cases hk
      rw [hv] at h
      exact h List.mem_cons_self
    refine (ih (fun a ha => ht a (List.mem_cons_of_mem _ ha)) (mt (List.mem_cons_of_mem _) h)).trans ?_
    rw [applyRetentionPruneAction_retention, if_neg hn]

theorem pruneAction_eq_some :
    pruneAction p index version entry = some action ↔
    action.version = version ∧ version ≠ trimSpace p.desiredVersion ∧
    RetentionExpired entry p.now ∧
    (action.kind = .deleteUnused ∧ ¬(entry.everDeployed ∨ version ∈ p.deployedVersions) ∨
      action.kind = .deleteArtifact ∧ (entry.everDeployed ∨ version ∈ p.deployedVersions) ∧
      version ∈ index.versions (trimSpace p.appName)) := by
  obtain ⟨v, kind⟩ := action
  rw [pruneAction]
  by_cases hd : version = trimSpace p.desiredVersion
  case pos => simp [hd]
  by_cases he : RetentionExpired entry p.now
  case neg => simp [he]
  by_cases hu : entry.everDeployed ∨ version ∈ p.deployedVersions
  case neg => cases kind <;> simp [hd, he, hu, eq_comm (a := v)]
  case pos =>
    by_cases hi : version ∈ index.versions (trimSpace p.appName) <;>
      cases kind <;> simp [hd, he, hu, hi, eq_comm (a := v)]

section

variable (hk : ∀ k, k ∈ keys ↔ k ∈ retention.versions)
include hk

theorem accepted_iff :
    Accepted p index retention keys action ↔
    ∃ entry, retention.versions.lookup action.version = some entry ∧
      action.version ≠ trimSpace p.desiredVersion ∧ RetentionExpired entry p.now ∧
      (action.kind = .deleteUnused ∧ ¬entry.everDeployed ∧ action.version ∉ p.deployedVersions ∨
        action.kind = .deleteArtifact ∧ entry.everDeployed ∧
        action.version ∈ index.versions (trimSpace p.appName)) := by
  simp only [Accepted, evaluateRetentionPrune, List.mem_filterMap, Option.bind_eq_some_iff,
    pruneAction_eq_some]
  constructor
  case mp =>
    rintro ⟨⟨_, -, entry, hl, rfl, hd, he, ha⟩, entry', hl', hs⟩
    cases Option.some.inj (hl.symm.trans hl')
    refine ⟨entry, hl, hd, he, ?_⟩
    obtain ⟨v, kind⟩ := action
    cases kind <;> simp_all [ShouldApplyRetentionPruneAction]
  case mpr =>
    rintro ⟨entry, hl, hd, he, ha⟩
    refine ⟨⟨action.version, (hk _).mpr (Finmap.mem_of_lookup_eq_some hl), entry, hl, rfl, hd, he, ?_⟩,
      entry, hl, ?_⟩
    · tauto
    · obtain ⟨v, kind⟩ := action
      cases kind <;> simp_all [ShouldApplyRetentionPruneAction]

theorem Accepted.ne_desired (h : Accepted p index retention keys action) :
    action.version ≠ trimSpace p.desiredVersion := by
  obtain ⟨_, -, hd, -⟩ := (accepted_iff hk).mp h
  exact hd

theorem Accepted.runOut (h : Accepted p index retention keys action) :
    ∃ entry, retention.versions.lookup action.version = some entry ∧ RunOut entry policy p.now := by
  obtain ⟨entry, hl, -, he, ha⟩ := (accepted_iff hk).mp h
  refine ⟨entry, hl, ?_⟩
  rcases ha with ⟨-, hu, -⟩ | ⟨-, hu, -⟩
  case inr => exact .inl ⟨hu, he⟩
  case inl =>
    obtain ⟨t, ht, hn, -⟩ := id he
    refine .inr ⟨hu, ?_⟩
    rwa [if_pos (by simp [Option.mem_def.mp ht, hn])]

theorem KeysTrimmed.trimmed
    (h : KeysTrimmed p policy index retention) (ha : Accepted p index retention keys action)
    (hu : action.kind = .deleteUnused) : Trimmed action.version := by
  obtain ⟨entry, hl, -, he, ha⟩ := (accepted_iff hk).mp ha
  by_contra ht
  have hd := (h action.version entry hl he ht).left
  rcases ha with ⟨-, hn, hv⟩ | ⟨hn, -⟩
  case inl => exact hv (hd hn)
  case inr => cases hu.symm.trans hn

theorem KeysTrimmed.undeployable
    (h : KeysTrimmed p policy index retention) (ha : Accepted p index retention keys action) :
    versionSelectable action.version p.desiredVersion retention policy p.now ≠ .ok () ∧
    trimSpace action.version ≠ trimSpace p.desiredVersion := by
  have hs : trimSpace action.version ≠ trimSpace p.desiredVersion ∧
      ∃ entry, retention.versions.lookup (trimSpace action.version) = some entry ∧
        RunOut entry policy p.now := by
    by_cases ht : Trimmed action.version
    case pos =>
      rw [ht]
      exact ⟨ha.ne_desired hk, ha.runOut hk⟩
    case neg =>
      obtain ⟨entry, hl, -, he, hu | ⟨-, hu, hi⟩⟩ := (accepted_iff hk).mp ha
      case inl => exact absurd (h.trimmed hk ha hu.left) ht
      case inr => exact (h action.version entry hl he ht).right hu hi
  exact ⟨(versionSelectable_ne_ok hs.left).mpr hs.right, hs.left⟩

end

-- A `delete_unused` action with a key that is not trimmed removes a row that it does not name.
theorem PruneSafe.trimmed (hs : PruneSafe p policy index retention keys)
    (ha : Accepted p index retention keys action) (hk : action.kind = .deleteUnused) :
    Trimmed action.version := by
  by_contra ht
  obtain ⟨hu, hd⟩ := hs.undeployable action ha
  obtain ⟨entry, hl, -⟩ := (versionSelectable_ne_ok hd).mp hu
  have hn : action ≠ ⟨trimSpace action.version, .deleteUnused⟩ := fun h =>
    ht (congrArg RetentionPruneAction.version h).symm
  have hs := (hs.unnamed [action] (by simpa)).left (trimSpace action.version)
    (by simpa using hn.symm)
  have ha := applyRetentionPruneAction_retention index retention p.appName action
    (trimSpace action.version)
  rw [if_pos ⟨hk, rfl⟩] at ha
  cases (ha.symm.trans hs).trans hl

theorem PruneSafe.keysTrimmed (hk : ∀ k, k ∈ keys ↔ k ∈ retention.versions)
    (hs : PruneSafe p policy index retention keys) : KeysTrimmed p policy index retention := by
  intro key entry hl he ht
  have hd : key ≠ trimSpace p.desiredVersion := fun hd =>
    ht (hd ▸ Text.trimSpace_trimmed _)
  constructor
  case left =>
    intro hu
    by_contra hv
    have ha : Accepted p index retention keys ⟨key, .deleteUnused⟩ :=
      (accepted_iff hk).mpr ⟨entry, hl, hd, he, .inl ⟨rfl, hu, hv⟩⟩
    exact ht (hs.trimmed ha rfl)
  case right =>
    intro hu hi
    have ha : Accepted p index retention keys ⟨key, .deleteArtifact⟩ :=
      (accepted_iff hk).mpr ⟨entry, hl, hd, he, .inr ⟨rfl, hu, hi⟩⟩
    obtain ⟨hn, hd⟩ := hs.undeployable _ ha
    exact ⟨hd, (versionSelectable_ne_ok hd).mp hn⟩

theorem KeysTrimmed.pruneSafe (hk : ∀ k, k ∈ keys ↔ k ∈ retention.versions)
    (h : KeysTrimmed p policy index retention) (hi : validateIndex index = .ok ())
    (hr : validateRetentionIndex retention = .ok ()) :
    PruneSafe p policy index retention keys where
  undeployable _ ha := h.undeployable hk ha
  valid _ _ := applyRetentionPruneActions_valid hi hr
  desired actions ha := by
    have hn : ⟨trimSpace p.desiredVersion, .deleteUnused⟩ ∉ actions := fun hm =>
      (ha _ hm).ne_desired hk rfl
    exact ⟨applyRetentionPruneActions_retention (fun a hm => h.trimmed hk (ha a hm)) hn,
      fun app => applyRetentionPruneActions_index (.inr hn)⟩
  unnamed _ ha :=
    ⟨fun v hv => applyRetentionPruneActions_retention (fun a hm => h.trimmed hk (ha a hm)) hv,
      fun app v hv => applyRetentionPruneActions_index hv⟩

-- A prune is safe for catalogs exactly if the keys of its actions are trimmed.
theorem pruneSafe_iff {d d' : Document} (hi : decodeIndex d = .ok index)
    (hr : decodeRetentionIndex d' = .ok retention) (hk : ∀ k, k ∈ keys ↔ k ∈ retention.versions) :
    PruneSafe p policy index retention keys ↔ KeysTrimmed p policy index retention :=
  ⟨fun h => h.keysTrimmed hk,
    fun h => h.pruneSafe hk (decodeIndex_valid hi) (decodeRetentionIndex_valid hr)⟩

section Demo

def pruneDemoRow : IndexVersion where
  metadata := ["apps", "demo", "versions", "1.0.0.json"]
  platforms := ∅
  publishedAt := 1
  publishStartedAt := none
  sourceRef := ""
  repository := ""
  publication := none
  publicationKind := .unset
  publishID := ""
  builderVersion := ""
  declarationDigest := ""
  localSource := none

def pruneDemoIndex : Index where
  schemaVersion := 1
  apps := Finmap.singleton "demo" { versions := Finmap.singleton "1.0.0" pruneDemoRow }

-- The desired version, and a version that has expired without being used.
def pruneDemoRetention (unused : String) : RetentionIndex where
  schemaVersion := 1
  versions := (Finmap.singleton "1.0.0" ⟨1, true, none⟩).insert unused ⟨1, false, some 2⟩

def pruneDemoInput : PruneInput where
  appName := "demo"
  desiredVersion := "1.0.0"
  now := 10

theorem pruneSafe_iff_demo :
    let retention := pruneDemoRetention "0.9.0"
    let keys := retention.versions.sortedKeys
    Accepted pruneDemoInput pruneDemoIndex retention keys ⟨"0.9.0", .deleteUnused⟩ ∧
    PruneSafe pruneDemoInput defaultRetentionPolicy pruneDemoIndex retention keys := by
  intro retention keys
  have hi : decodeIndex (.index pruneDemoIndex) = .ok pruneDemoIndex := by decide +kernel
  have hr : decodeRetentionIndex (.retention retention) = .ok retention := by decide +kernel
  have he : evaluateRetentionPrune pruneDemoInput pruneDemoIndex retention keys =
    [⟨"0.9.0", .deleteUnused⟩] := by decide +kernel
  refine ⟨⟨by simp [he], ⟨1, false, some 2⟩, by decide +kernel, by decide +kernel⟩, ?_⟩
  refine (pruneSafe_iff hi hr fun k => GoMap.mem_sortedKeys).mpr fun key entry hl _ ht => ?_
  have hk := Finmap.mem_of_lookup_eq_some hl
  simp only [retention, pruneDemoRetention, Finmap.mem_insert, Finmap.mem_singleton] at hk
  rcases hk with rfl | rfl
  all_goals exact absurd (by decide +kernel) ht

-- A row under a key with a space makes the prune delete the row of the desired version.
theorem prune_removes_desired_row :
    let retention := pruneDemoRetention "1.0.0 "
    let action : RetentionPruneAction := ⟨"1.0.0 ", .deleteUnused⟩
    decodeIndex (.index pruneDemoIndex) = .ok pruneDemoIndex ∧
    decodeRetentionIndex (.retention retention) = .ok retention ∧
    Accepted pruneDemoInput pruneDemoIndex retention retention.versions.sortedKeys action ∧
    retention.versions.lookup "1.0.0" = some ⟨1, true, none⟩ ∧
    (applyRetentionPruneActions "demo" [action] (pruneDemoIndex, retention)).2.versions.lookup
      "1.0.0" = none := by
  refine ⟨?_, ?_, ⟨?_, ⟨1, false, some 2⟩, ?_, ?_⟩, ?_, ?_⟩ <;> decide +kernel

end Demo
end AppRegistry
