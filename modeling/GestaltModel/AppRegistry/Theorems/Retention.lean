import GestaltModel.AppRegistry.Retention
import GestaltModel.AppRegistry.Theorems.Catalog

namespace AppRegistry

open Text (trimSpace)

variable {policy : RetentionPolicy} {h h' : RetentionHistory}
variable {v version fromVersion toVersion : String} {publishedAt now : Int}
variable {row : RetentionVersion}

theorem upsertPublishedRetention_lookup_of_none
    (hr : index.versions.lookup (trimSpace version) = none) :
    (upsertPublishedRetention index version publishedAt policy).1.versions.lookup
      (trimSpace version) =
      some ⟨publishedAt, false, cloneTimePtr (publishedAt + policy.unusedRetention)⟩ := by
  simp [upsertPublishedRetention, hr]

theorem upsertPublishedRetention_lookup_of_deployed
    (hr : index.versions.lookup (trimSpace version) = some row) (hd : row.everDeployed) :
    (upsertPublishedRetention index version publishedAt policy).1.versions.lookup
      (trimSpace version) = some { row with publishedAt } := by
  simp only [upsertPublishedRetention, hr]
  split
  case isTrue he => simp [hr, ← he.left]
  case isFalse => simp [hd]

theorem upsertPublishedRetention_lookup_of_unused {p : Int}
    (hr : index.versions.lookup (trimSpace version) =
      some ⟨p, false, cloneTimePtr (p + policy.unusedRetention)⟩) :
    (upsertPublishedRetention index version publishedAt policy).1.versions.lookup
      (trimSpace version) =
      some ⟨publishedAt, false, cloneTimePtr (publishedAt + policy.unusedRetention)⟩ := by
  simp only [upsertPublishedRetention, hr]
  split
  case isTrue hu =>
    obtain ⟨rfl, -⟩ := hu
    exact hr
  case isFalse => simp

theorem retireVersion_lookup :
    ∃ p, (retireVersion index version policy now).versions.lookup version =
      some ⟨p, true, cloneTimePtr (now + policy.deployedRetention)⟩ := by
  simp [retireVersion]

theorem retireVersion_lookup_of_ne (hv : v ≠ version) :
    (retireVersion index version policy now).versions.lookup v = index.versions.lookup v := by
  simp [retireVersion, Finmap.lookup_insert_of_ne _ hv]

theorem adoptVersion_lookup :
    ∃ p, (adoptVersion index version now).versions.lookup version = some ⟨p, true, none⟩ := by
  simp [adoptVersion]

theorem adoptVersion_lookup_of_ne (hv : v ≠ version) :
    (adoptVersion index version now).versions.lookup v = index.versions.lookup v := by
  simp [adoptVersion, Finmap.lookup_insert_of_ne _ hv]

theorem applyDesiredVersionTransition_lookup_to (ht : trimSpace toVersion ≠ "") :
    ∃ p, (applyDesiredVersionTransition index fromVersion toVersion policy now).1.versions.lookup
      (trimSpace toVersion) = some ⟨p, true, none⟩ := by
  simp only [applyDesiredVersionTransition, if_pos ht]
  exact adoptVersion_lookup

theorem applyDesiredVersionTransition_lookup_from (hf : trimSpace fromVersion ≠ "")
    (hi : trimSpace fromVersion ≠ firstInstallFromVersion)
    (hn : trimSpace toVersion ≠ trimSpace fromVersion) :
    ∃ p, (applyDesiredVersionTransition index fromVersion toVersion policy now).1.versions.lookup
      (trimSpace fromVersion) =
      some ⟨p, true, cloneTimePtr (now + policy.deployedRetention)⟩ := by
  simp only [applyDesiredVersionTransition, if_pos (And.intro hf hi)]
  split
  case isFalse => exact retireVersion_lookup
  case isTrue =>
    rw [adoptVersion_lookup_of_ne hn.symm]
    exact retireVersion_lookup

theorem applyDesiredVersionTransition_lookup_of_ne
    (ht : trimSpace toVersion = v → v = "")
    (hf : trimSpace fromVersion = v → v = "" ∨ v = firstInstallFromVersion) :
    (applyDesiredVersionTransition index fromVersion toVersion policy now).1.versions.lookup v =
      index.versions.lookup v := by
  have hr : (if trimSpace fromVersion ≠ "" ∧ trimSpace fromVersion ≠
      firstInstallFromVersion then (retireVersion index (trimSpace fromVersion) policy now, true)
      else (index, false)).1.versions.lookup v = index.versions.lookup v := by
    split
    case isFalse => rfl
    case isTrue hs => exact retireVersion_lookup_of_ne (by grind)
  simp only [applyDesiredVersionTransition]
  split
  case isFalse => exact hr
  case isTrue hs => rw [adoptVersion_lookup_of_ne (by grind), hr]

namespace RetentionHistory

-- What a history tells about the row of a version. The version for no version is never replaced.
inductive Recorded (policy : RetentionPolicy) (h : RetentionHistory) (v : String) :
    Option RetentionVersion → Prop
  | unknown (hd : ¬Deployed h v) (hp : publishedAt? h v = none) : Recorded policy h v none
  | unused {p} (hd : ¬Deployed h v) (hp : publishedAt? h v = some p) :
    Recorded policy h v (some ⟨p, false, cloneTimePtr (p + policy.unusedRetention)⟩)
  | desired {p} (hd : Deployed h v) (hc : current? h = some v) :
    Recorded policy h v (some ⟨p, true, none⟩)
  | replaced {p e} (hd : Deployed h v) (hc : current? h ≠ some v)
    (he : v ≠ firstInstallFromVersion →
      ∃ t, replacedAt? h v = some t ∧ e = cloneTimePtr (t + policy.deployedRetention)) :
    Recorded policy h v (some ⟨p, true, e⟩)

theorem deployed_cons_publish : Deployed (.publish version publishedAt :: h) v ↔ Deployed h v := by
  simp [Deployed, RetentionEvent.target?]

theorem deployed_cons_transition :
    Deployed (.transition fromVersion toVersion now :: h) v ↔
      (v ≠ "" ∧ trimSpace toVersion = v) ∨ Deployed h v := by
  simp [Deployed, RetentionEvent.target?, and_or_left]

theorem deployed_of_current? (hc : current? h = some v) (hv : v ≠ "") : Deployed h v := by
  obtain ⟨event, hm, he⟩ := List.exists_of_findSome?_eq_some hc
  exact ⟨hv, event, hm, he⟩

theorem Recorded.publish (hr : Recorded policy h v ((catalog policy h).versions.lookup v)) :
    Recorded policy (.publish version publishedAt :: h) v
      ((catalog policy (.publish version publishedAt :: h)).versions.lookup v) := by
  rw [catalog]
  by_cases hv : v = trimSpace version
  case neg =>
    rw [upsertPublishedRetention_lookup_of_ne hv]
    have hp : publishedAt? (.publish version publishedAt :: h) v = publishedAt? h v := by
      simp [publishedAt?, Ne.symm hv]
    generalize (catalog policy h).versions.lookup v = row at hr ⊢
    cases hr
    case unknown hd hu     => exact .unknown (deployed_cons_publish.not.mpr hd) (hp.trans hu)
    case unused hd hu      => exact .unused (deployed_cons_publish.not.mpr hd) (hp.trans hu)
    case desired hd hc     => exact .desired (deployed_cons_publish.mpr hd) hc
    case replaced hd hc he => exact .replaced (deployed_cons_publish.mpr hd) hc he
  case pos =>
    subst hv
    generalize hl : (catalog policy h).versions.lookup (trimSpace version) = row at hr
    cases hr
    case unknown hd hp =>
      rw [upsertPublishedRetention_lookup_of_none hl]
      exact .unused (deployed_cons_publish.not.mpr hd) (by simp [publishedAt?])
    case unused hd hp =>
      rw [upsertPublishedRetention_lookup_of_unused hl]
      exact .unused (deployed_cons_publish.not.mpr hd) (by simp [publishedAt?])
    case desired hd hc =>
      rw [upsertPublishedRetention_lookup_of_deployed hl rfl]
      exact .desired (deployed_cons_publish.mpr hd) hc
    case replaced hd hc he =>
      rw [upsertPublishedRetention_lookup_of_deployed hl rfl]
      exact .replaced (deployed_cons_publish.mpr hd) hc he

theorem current?_of_chained (hf : trimSpace fromVersion = (current? h).getD firstInstallFromVersion)
    (hi : trimSpace fromVersion ≠ firstInstallFromVersion) :
    current? h = some (trimSpace fromVersion) := by
  cases hc : current? h <;> simp_all

theorem Recorded.transition
    (hf : trimSpace fromVersion = (current? h).getD firstInstallFromVersion)
    (hr : Recorded policy h v ((catalog policy h).versions.lookup v)) :
    Recorded policy (.transition fromVersion toVersion now :: h) v
      ((catalog policy (.transition fromVersion toVersion now :: h)).versions.lookup v) := by
  rw [catalog]
  by_cases ht : trimSpace toVersion = v ∧ v ≠ ""
  case pos =>
    obtain ⟨rfl, hn⟩ := ht
    obtain ⟨p, hl⟩ := applyDesiredVersionTransition_lookup_to hn
    rw [hl]
    exact .desired (deployed_cons_transition.mpr (.inl ⟨hn, rfl⟩)) rfl
  have hd : Deployed (.transition fromVersion toVersion now :: h) v ↔ Deployed h v := by
    rw [deployed_cons_transition]
    tauto
  have hc (hn : v ≠ "") : current? (.transition fromVersion toVersion now :: h) ≠ some v := by
    simp only [current?, List.findSome?_cons, RetentionEvent.target?]
    grind
  by_cases hs : trimSpace fromVersion = v ∧ v ≠ "" ∧ v ≠ firstInstallFromVersion
  case pos =>
    obtain ⟨rfl, hn, hi⟩ := hs
    obtain ⟨p, hl⟩ := applyDesiredVersionTransition_lookup_from hn hi (by tauto)
    rw [hl]
    refine .replaced (hd.mpr ?_) (hc hn) fun _ => ⟨now, ?_, rfl⟩
    · exact deployed_of_current? (current?_of_chained hf hi) hn
    · simp only [replacedAt?, List.findSome?_cons]
      grind
  case neg =>
    rw [applyDesiredVersionTransition_lookup_of_ne (by tauto) (by tauto)]
    generalize (catalog policy h).versions.lookup v = row at hr ⊢
    cases hr
    case unknown hu hp => exact .unknown (hd.not.mpr hu) hp
    case unused hu hp  => exact .unused (hd.not.mpr hu) hp
    case desired hu hv =>
      refine .replaced (hd.mpr hu) (hc hu.left) fun hi => ?_
      exact absurd ⟨by rw [hf, hv, Option.getD_some], hu.left, hi⟩ hs
    case replaced hu hv he =>
      refine .replaced (hd.mpr hu) (hc hu.left) fun hi => ?_
      have hne : trimSpace fromVersion ≠ v := fun hv => hs ⟨hv, hu.left, hi⟩
      simpa [replacedAt?, hne] using he hi

theorem catalog_recorded (policy : RetentionPolicy) (hc : Chained h) (v : String) :
    Recorded policy h v ((catalog policy h).versions.lookup v) := by
  induction h
  case nil => exact .unknown (by simp [Deployed]) rfl
  case cons event h ih =>
    cases event
    case publish    => exact (ih hc).publish
    case transition => exact (ih hc.right).transition hc.left

theorem Chained.suffix (hc : Chained h) (hs : h' <:+ h) : Chained h' := by
  induction h
  case nil => exact List.suffix_nil.mp hs ▸ hc
  case cons event h ih =>
    rcases List.suffix_cons_iff.mp hs with rfl | ht
    case inl => exact hc
    case inr =>
      cases event
      case publish    => exact ih hc ht
      case transition => exact ih hc.right ht

theorem Deployed.mono (hd : Deployed h' v) (hs : h' <:+ h) : Deployed h v := by
  obtain ⟨hv, event, hm, he⟩ := hd
  exact ⟨hv, event, hs.subset hm, he⟩

theorem everDeployed_iff (hc : Chained h) :
    ((catalog policy h).versions.lookup v).any (·.everDeployed) ↔ Deployed h v := by
  have hr := catalog_recorded policy hc v
  generalize (catalog policy h).versions.lookup v = row at hr ⊢
  cases hr <;> simp [*]

theorem current?_of_desiredVersion (hd : desiredVersion h ≠ "") :
    current? h = some (desiredVersion h) := by
  rw [desiredVersion] at hd ⊢
  cases hc : current? h <;> simp_all

theorem desiredVersion_trimmed (h : RetentionHistory) : Text.Trimmed (desiredVersion h) := by
  cases hc : current? h
  case none => simpa [desiredVersion, hc, Text.Trimmed] using Text.trimSpace_empty
  case some version =>
    obtain ⟨event, -, he⟩ := List.exists_of_findSome?_eq_some hc
    cases event <;> cases he
    simpa [desiredVersion, hc] using Text.trimSpace_trimmed _

theorem cloneTimePtr_filter (t : Int) : (cloneTimePtr t).filter (· ≠ 0) = cloneTimePtr t := by
  by_cases ht : t = 0 <;> simp [cloneTimePtr, ht]

theorem versionDeploymentState_eq (hc : Chained h)
    (hi : trimSpace version ≠ firstInstallFromVersion) :
    versionDeploymentState version (desiredVersion h) (catalog policy h) policy now =
      dictatedState policy h (trimSpace version) now := by
  have hr := catalog_recorded policy hc (trimSpace version)
  have ht : trimSpace (desiredVersion h) = desiredVersion h := desiredVersion_trimmed h
  simp only [versionDeploymentState, dictatedState, ht]
  split
  case isTrue => rfl
  case isFalse hn =>
    generalize (catalog policy h).versions.lookup (trimSpace version) = row at hr ⊢
    cases hr
    case unknown hd hp     => simp [hd, hp]
    case unused p hd hp    =>
      simp only [hd, hp, cloneTimePtr_filter, if_false, Bool.false_eq_true]
      by_cases hz : p + policy.unusedRetention = 0 <;> simp [cloneTimePtr, hz]
    case desired hd hv     => simp_all [desiredVersion, hd.left]
    case replaced hd hv he =>
      obtain ⟨t, ht, rfl⟩ := he hi
      simp only [hd, ht, cloneTimePtr_filter, if_true, Option.bind_some]

-- The two fields of a row tell whether a version was ever the desired one and when it expires.
theorem catalog_meaning (hc : Chained h) :
    (∀ h' v, h' <:+ h → ((catalog policy h').versions.lookup v).any (·.everDeployed) →
      ((catalog policy h).versions.lookup v).any (·.everDeployed)) ∧
    (∀ v, ((catalog policy h).versions.lookup v).any (·.everDeployed) ↔ Deployed h v) ∧
    (desiredVersion h ≠ "" →
      ∃ row, (catalog policy h).versions.lookup (desiredVersion h) = some row ∧
        row.everDeployed ∧ row.expiresAt = none) ∧
    (∀ v row, (catalog policy h).versions.lookup v = some row → row.everDeployed →
      v ≠ desiredVersion h → v ≠ firstInstallFromVersion →
      ∃ t, replacedAt? h v = some t ∧
        row.expiresAt = cloneTimePtr (t + policy.deployedRetention)) ∧
    (∀ v row, (catalog policy h).versions.lookup v = some row → ¬row.everDeployed →
      publishedAt? h v = some row.publishedAt ∧
      row.expiresAt = cloneTimePtr (row.publishedAt + policy.unusedRetention)) ∧
    ∀ version now, trimSpace version ≠ firstInstallFromVersion →
      versionDeploymentState version (desiredVersion h) (catalog policy h) policy now =
        dictatedState policy h (trimSpace version) now := by
  refine ⟨fun h' v hs hd => ?_, fun v => everDeployed_iff hc, fun hn => ?_, fun v row hl hd hv hi => ?_,
    fun v row hl hd => ?_, fun version now hi => versionDeploymentState_eq hc hi⟩
  · rw [everDeployed_iff (hc.suffix hs)] at hd
    exact (everDeployed_iff hc).mpr (hd.mono hs)
  · have hr := catalog_recorded policy hc (desiredVersion h)
    have hs := current?_of_desiredVersion hn
    have hd := deployed_of_current? hs hn
    generalize (catalog policy h).versions.lookup (desiredVersion h) = row at hr ⊢
    cases hr
    case desired => exact ⟨_, rfl, rfl, rfl⟩
    case replaced hv _ => exact absurd hs hv
    all_goals contradiction
  · have hr := catalog_recorded policy hc v
    rw [hl] at hr
    cases hr
    case unused => cases hd
    case desired hs => exact absurd (by simp [desiredVersion, hs]) hv
    case replaced he => exact he hi
  · have hr := catalog_recorded policy hc v
    rw [hl] at hr
    cases hr
    case unused hp => exact ⟨hp, rfl⟩
    all_goals simp at hd

-- The first version is replaced, and comes back after it has expired.
theorem catalog_meaning_demo :
    let policy : RetentionPolicy := ⟨3, 5⟩
    let h : RetentionHistory := [.transition "v2" "v1" 30, .publish "v1" 20,
      .transition "v1" " v2" 10, .transition firstInstallFromVersion "v1" 2, .publish "v1" 1]
    Chained h ∧
    (versionDeploymentState "v1" (desiredVersion h) (catalog policy h) policy 40 = (.desired, none)) ∧
    versionDeploymentState "v2" (desiredVersion h) (catalog policy h) policy 34 =
      (.redeployable, some 35) ∧
    versionDeploymentState "v2" (desiredVersion h) (catalog policy h) policy 40 =
      (.locked, some 35) := by
  intro policy h
  have hc : Chained h :=
    ⟨by decide +kernel, by decide +kernel, by decide +kernel, trivial⟩
  obtain ⟨-, -, -, -, -, hs⟩ := catalog_meaning (h := h) hc
  refine ⟨hc, ?_, ?_, ?_⟩ <;> rw [hs _ _ (by decide +kernel)] <;> decide +kernel

-- A transition can go to the version that stands for none. A deadline at the zero time is none.
theorem exceptional_versions_not_recorded :
    (let h : RetentionHistory :=
      [.transition "v1" "" 10, .transition firstInstallFromVersion "v1" 2]
    Chained h ∧ current? h = some "" ∧ (catalog ⟨3, 5⟩ h).versions.lookup "" = none) ∧
    (let h : RetentionHistory :=
      [.transition firstInstallFromVersion "v1" 10,
        .transition firstInstallFromVersion firstInstallFromVersion 2]
    Chained h ∧ current? h = some "v1" ∧
      (catalog ⟨3, 5⟩ h).versions.lookup firstInstallFromVersion = some ⟨2, true, none⟩) ∧
    (let h : RetentionHistory := [.publish "v1" 0]
    Chained h ∧ (catalog ⟨0, 5⟩ h).versions.lookup "v1" = some ⟨0, false, none⟩) := by
  refine ⟨⟨⟨?_, ?_, trivial⟩, ?_⟩, ⟨⟨?_, ?_, trivial⟩, ?_⟩, trivial, ?_⟩ <;> decide +kernel

end RetentionHistory
end AppRegistry
