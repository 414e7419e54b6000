import GestaltModel.Coredata.Theorems.Rollout

namespace Coredata

open AppRolloutService GestaltdSourceVersionService
open Except (bind_eq_ok_iff)

variable {r r' r₁ r₂ r₃ rollout : AppRollout}

variable {state : GestaltdSourceVersionState}

namespace AppRollout

structure Fresh (r : AppRollout) : Prop where
  unstarted : r.Unstarted
  initial : r.mode = .enrollment ∧ r.state = .enrolling ∨
    r.mode = .heartbeat ∧ r.state = .restarting ∧ r.targetSourceVersion ≠ "" ∧
    0 < r.minimumHealthyInstances

theorem Fresh.consistent (h : Fresh r) : Consistent r := by
  have ⟨hc, hf, hh, _, hs⟩ := h.unstarted
  rcases h.initial with ⟨hm, hst⟩ | ⟨hm, hst, ht⟩
  all_goals exact {
    mode := by simp [hm]
    completedAt := by simp [hc, hst]
    failedAt := by simp [hf, hst]
    summary := by simp [hs]
    enrolling := by simp [hst, hm]
    healthy := by simp [hh]
    heartbeat := by simp_all }

end AppRollout

theorem validateAppRollout_eq_ok (h : validateAppRollout rollout = .ok ()) :
    rollout.mode.orEnrollment = .enrollment ∧ rollout.state = .enrolling ∨
    rollout.mode.orEnrollment = .heartbeat ∧ rollout.state = .restarting ∧
      Text.trimSpace rollout.targetSourceVersion ≠ "" ∧ 0 < rollout.minimumHealthyInstances := by
  have ⟨_, _, h⟩ := bind_eq_ok_iff.mp h
  split at h
  case h_1 hm =>
    have ⟨_, hs, _⟩ := bind_eq_ok_iff.mp h
    exact .inl ⟨hm, require_eq_ok.mp hs⟩
  case h_2 hm =>
    have ⟨_, hs, h⟩ := bind_eq_ok_iff.mp h
    have ⟨_, _, ht⟩ := bind_eq_ok_iff.mp h
    exact .inr ⟨hm, require_eq_ok.mp hs, require_eq_ok.mp ht⟩
  case h_3 => contradiction

theorem normalized_fresh (hv : validateAppRollout rollout = .ok ()) (hu : rollout.Unstarted) :
    (stored (normalizeAppRollout now rollout)).Fresh where
  unstarted := by
    have ⟨hc, hf, hh, he, hs⟩ := hu
    exact ⟨hc, hf, hh, he, by simp [stored, normalizeAppRollout, hs]⟩
  initial := by simpa [stored, normalizeAppRollout] using validateAppRollout_eq_ok hv

theorem pendingRollout_unstarted (h : pendingRollout state rollout = .ok r)
    (hu : rollout.Unstarted) : r.Unstarted := by
  simp only [pendingRollout] at h
  split at h
  case isTrue =>
    obtain ⟨_, _, h⟩ := bind_eq_ok_iff.mp h
    cases h
    exact hu
  case isFalse =>
    cases h
    exact hu

theorem requestedMinimum_eq_ok (h : requestedMinimum a = .ok requested) :
    Text.trimSpace a.sourceVersion ≠ "" ∧
    (a.rolloutMode.orEnrollment = .enrollment ∨
      a.rolloutMode.orEnrollment = .heartbeat ∧ 0 < requested) := by
  have ⟨_, hs, h⟩ := bind_eq_ok_iff.mp h
  have ⟨_, _, h⟩ := bind_eq_ok_iff.mp h
  have ⟨_, hm, h⟩ := bind_eq_ok_iff.mp h
  refine ⟨require_eq_ok.mp hs, (require_eq_ok.mp hm).imp id fun hm => ⟨hm, ?_⟩⟩
  split at h
  case h_1 =>
    rw [if_pos hm] at h
    cases h
    decide
  case h_2 =>
    have ⟨_, _, h⟩ := bind_eq_ok_iff.mp h
    have ⟨_, hp, h⟩ := bind_eq_ok_iff.mp h
    cases h
    exact (require_eq_ok.mp hp).resolve_left (not_not.mpr hm)
  case h_3 => contradiction

theorem effectiveMinimumHealthy_pos (h : 0 < requested) :
    0 < (activationPlan now a requested state).effectiveMinimumHealthy := by
  simp only [activationPlan]
  split
  case isTrue hs => exact hs.right.right
  case isFalse => exact h

theorem retarget_fresh (h : requestedMinimum a = .ok requested) :
    (stored (retarget a (activationPlan now a requested state) r)).Fresh where
  unstarted := ⟨rfl, rfl, rfl, rfl, rfl⟩
  initial := by
    have ⟨hs, hm⟩ := requestedMinimum_eq_ok h
    have hplan : (activationPlan now a requested state).mode = a.rolloutMode.orEnrollment := rfl
    rcases hm with hm | ⟨hm, hp⟩ <;> simp only [stored, retarget, hplan, hm]
    case inl => exact .inl ⟨rfl, rfl⟩
    case inr => exact .inr ⟨rfl, rfl, hs, effectiveMinimumHealthy_pos hp⟩

namespace AppRollout.Consistent

theorem orEnrollment_mode (h : r.Consistent) : r.mode.orEnrollment = r.mode := by
  rcases h.mode with hm | hm <;> rw [hm] <;> rfl

theorem unset_of_active (h : r.Consistent) (ha : IsActiveRolloutState r.state) :
    r.completedAt = 0 ∧ r.failedAt = 0 ∧ r.failureSummary = none := by
  have hc : r.state ≠ .complete := by rcases ha with ha | ha <;> simp [ha]
  have hf : r.state ≠ .failed := by rcases ha with ha | ha <;> simp [ha]
  exact ⟨not_not.mp (mt h.completedAt.mp hc), not_not.mp (mt h.failedAt.mp hf),
    not_not.mp (mt h.summary hf)⟩

theorem mark {mark : Mark} (h : r.Consistent) (ha : IsActiveRolloutState r.state)
    (ht : ∀ t ∈ mark.time?, normalizedRolloutTime now t ≠ 0) :
    (stored (mark.apply now r)).Consistent := by
  have ⟨hc, hf, hs⟩ := h.unset_of_active ha
  have hm := h.orEnrollment_mode
  have heartbeat := h.heartbeat
  have healthy := h.healthy
  have mode := h.mode
  cases mark
  case restarting => constructor <;> simp_all [stored, Mark.apply]
  case complete t =>
    have ht := ht t rfl
    constructor <;> simp_all [stored, Mark.apply]
  case failed t =>
    have ht := ht t rfl
    constructor <;> simp_all [stored, Mark.apply]

theorem le_of_accepted (hi : ¬Ignored r t) :
    r.state = .restarting ∧ (r.heartbeatEvaluatedAt ≠ 0 → r.heartbeatEvaluatedAt ≤ t) := by
  have ⟨hs, hl⟩ := not_or.mp hi
  exact ⟨not_not.mp hs, fun hn => not_lt.mp fun hlt => hl ⟨hn, hlt⟩⟩

theorem observe (h : r.Consistent) (hi : ¬Ignored r t) (ht : t ≠ 0) :
    (observe evaluation t r).Consistent where
  mode := h.mode
  completedAt := h.completedAt
  failedAt := h.failedAt
  summary := h.summary
  enrolling := h.enrolling
  heartbeat := h.heartbeat
  healthy := by
    simp only [AppRolloutService.observe]
    split
    case isFalse => exact fun hn => absurd rfl hn
    case isTrue =>
      split
      case isTrue     => exact fun _ => ⟨ht, le_rfl⟩
      case isFalse hs =>
        have ⟨he, hle⟩ := h.healthy hs
        exact fun _ => ⟨ht, hle.trans ((le_of_accepted hi).right he)⟩

theorem decideOutcome (h : r.Consistent) (hs : r.state = .restarting) (ht : t ≠ 0) :
    (stored (decideOutcome evaluation t r).1).Consistent := by
  have ⟨hc, hf, hsum⟩ := h.unset_of_active (.inr hs)
  have hm := h.orEnrollment_mode
  have heartbeat := h.heartbeat
  have healthy := h.healthy
  have mode := h.mode
  simp only [AppRolloutService.decideOutcome]
  split
  · constructor <;> simp_all [stored]
  · split <;> constructor <;> simp_all [stored]

end AppRollout.Consistent

theorem Changes.consistent (h : Changes now app before op r)
    (ha : op.Admissible now) (hb : ∀ r ∈ before, r.Consistent) : r.Consistent := by
  cases h
  case create hv _ => exact (normalized_fresh hv ha).consistent
  case createAppRollout hp hv _ =>
    exact (normalized_fresh hv (pendingRollout_unstarted hp ha)).consistent
  case retarget hq _ _ => exact (retarget_fresh hq).consistent
  case mark r hf _ hact => exact (hb r hf).mark hact ha
  case markForRollout r hf _ _ hact => exact (hb r hf).mark hact ha
  case evaluate r hf _ hi =>
    have hs := (AppRollout.Consistent.le_of_accepted hi).left
    exact ((hb r hf).observe hi ha).decideOutcome hs ha

namespace AppRollout.Continues

theorem refl (r : AppRollout) : Continues r r where
  evaluated h  := ⟨h, le_rfl⟩
  restarting h := by simp [h]
  terminal _   := rfl

theorem trans (h₁ : Continues r₁ r₂) (h₂ : Continues r₂ r₃) : Continues r₁ r₃ where
  evaluated h := by
    have ⟨hn, hle⟩ := h₁.evaluated h
    have ⟨hn', hle'⟩ := h₂.evaluated hn
    exact ⟨hn', hle.trans hle'⟩
  restarting h := by
    have hne := h₁.restarting h
    by_cases ha : IsActiveRolloutState r₂.state
    case pos => exact h₂.restarting (ha.resolve_left hne)
    case neg => rwa [h₂.terminal ha]
  terminal h := by
    have he := h₁.terminal h
    exact (h₂.terminal (he ▸ h)).trans he

theorem mark {mark : Mark} (ha : IsActiveRolloutState r.state) :
    Continues r (stored (mark.apply now r)) := by
  cases mark <;> exact {
    evaluated := fun h => ⟨h, le_rfl⟩
    restarting := fun _ => nofun
    terminal := fun h => absurd ha h }

theorem evaluate (hi : ¬Ignored r t) (ht : t ≠ 0) :
    Continues r (stored (decideOutcome evaluation t (observe evaluation t r)).1) where
  evaluated h := by
    have hle := (Consistent.le_of_accepted hi).right h
    have he : (stored (decideOutcome evaluation t (observe evaluation t r)).1).heartbeatEvaluatedAt =
        t := by
      simp only [decideOutcome]
      split
      · rfl
      · split <;> rfl
    rw [he]
    exact ⟨ht, hle⟩
  restarting h := by
    simp only [decideOutcome]
    split
    · intro hr
      cases hr
    · split
      · intro hr
        cases hr
      · simp [stored, observe, h]
  terminal h := absurd (.inr (Consistent.le_of_accepted hi).left) h

end AppRollout.Continues

theorem Changes.continues (h : Changes now app (some r) op r') (ha : op.Admissible now)
    (hs : ¬op.IsStart) : r.Continues r' := by
  cases h
  case create | createAppRollout | retarget => exact absurd trivial hs
  case mark hf _ hact =>
    cases hf
    exact .mark hact
  case markForRollout hf _ _ hact =>
    cases hf
    exact .mark hact
  case evaluate hf _ hi =>
    cases hf
    exact .evaluate hi ha

namespace RolloutDB

def Consistent (db : RolloutDB) : Prop :=
  ∀ app, ∀ r ∈ db.rollout? app, r.Consistent

theorem Step.consistent (e : Step db db') (h : db.Consistent) : db'.Consistent := by
  have ⟨now, op, ha, he⟩ := e
  subst he
  intro app r hr
  rcases after_rollout? now op db app with he | ⟨r', he, hc⟩
  case inl => exact h app r (he ▸ hr)
  case inr =>
    cases Option.some.inj (he.symm.trans hr)
    exact hc.consistent ha (h app)

theorem reachable_consistent (e : Relation.ReflTransGen Step {} db) : db.Consistent := by
  induction e
  case refl => exact fun _ _ h => nomatch h
  case tail _ e hi => exact e.consistent hi

theorem EpochStep.continues (e : EpochStep app epoch db db') :
    ∃ r r', db.rollout? app = some r ∧ db'.rollout? app = some r' ∧ r.Continues r' := by
  have ⟨now, op, ha, he, ⟨r, hr, hep⟩, ⟨r', hr', hep'⟩, hs⟩ := e
  refine ⟨r, r', hr, hr', ?_⟩
  by_cases hst : op.IsStart
  case pos =>
    rw [hs hst app r hr r' hr' (hep'.trans hep.symm)]
    exact .refl r
  case neg =>
    rcases after_rollout? now op db app with hu | ⟨r'', hc, hch⟩
    case inl =>
      rw [he, hr, hr'] at hu
      cases hu
      exact .refl r
    case inr =>
      rw [he, hr'] at hc
      cases hc
      rw [hr] at hch
      exact hch.continues ha hst

theorem epoch_continues (e : Relation.ReflTransGen (EpochStep app epoch) db db') :
    ∀ r ∈ db.rollout? app, ∀ r' ∈ db'.rollout? app, r.Continues r' := by
  induction e
  case refl =>
    intro r hr r' hr'
    cases Option.some.inj (hr.symm.trans hr')
    exact .refl r
  case tail e hi =>
    intro r hr r' hr'
    have ⟨r₁, r₂, h₁, h₂, hc⟩ := e.continues
    cases Option.some.inj (h₂.symm.trans hr')
    exact (hi r hr r₁ h₁).trans hc

-- The lifecycle of a rollout, for every execution of admissible operations.
theorem rollout_lifecycle :
    (∀ db, Relation.ReflTransGen Step {} db → ∀ app, ∀ r ∈ db.rollout? app, r.Consistent) ∧
    (∀ db db' app epoch, Relation.ReflTransGen (EpochStep app epoch) db db' →
      ∀ r ∈ db.rollout? app, ∀ r' ∈ db'.rollout? app, r.Continues r') :=
  ⟨fun _ e => reachable_consistent e, fun _ _ _ _ e => epoch_continues e⟩

section Demo

def demoRollout : AppRollout where
  app := "demo"
  version := "1.0.0"
  state := .restarting
  mode := .heartbeat
  targetSourceVersion := "r1"
  minimumHealthyInstances := 1
  createdAt := 5 * Time.second
  enrollmentEndsAt := 6 * Time.second
  deadline := 9 * Time.second

def demoEvaluation : HeartbeatRolloutEvaluation where
  healthy := true
  stabilityWindow := Time.second
  evaluatedAt := 6 * Time.second

def demoCreated : RolloutDB :=
  after {} 0 (.create demoRollout)

def demoObserved : AppRollout :=
  { demoRollout with
    healthySince := 6 * Time.second
    heartbeatEvaluatedAt := 6 * Time.second }

theorem demoCreated_rollout? : demoCreated.rollout? "demo" = some demoRollout := by
  decide +kernel

theorem demoEvaluated_rollout? :
    (demoCreated.after 0 (.evaluate demoRollout demoEvaluation)).rollout? "demo" =
      some demoObserved := by
  decide +kernel

theorem rollout_lifecycle_demo :
    demoRollout.Consistent ∧ demoRollout.Continues demoObserved := by
  have hstep : Step {} demoCreated := ⟨0, .create demoRollout, by decide, rfl⟩
  have hepoch : EpochStep "demo" demoRollout.epoch demoCreated
      (demoCreated.after 0 (.evaluate demoRollout demoEvaluation)) :=
    ⟨0, _, by decide +kernel, rfl, ⟨_, demoCreated_rollout?, rfl⟩,
      ⟨_, demoEvaluated_rollout?, by decide +kernel⟩, nofun⟩
  exact ⟨rollout_lifecycle.left _ (.single hstep) "demo" _ demoCreated_rollout?,
    rollout_lifecycle.right _ _ _ _ (.single hepoch) _ demoCreated_rollout? _ demoEvaluated_rollout?⟩

-- A rollout marked at a time truncated to the zero time has no time of completion. A complete one
-- changes when it is created once more with the same times.
theorem lifecycle_exceptions :
    demoRollout.Unstarted ∧
    (∃ r ∈ (demoCreated.after 0 (.mark (.complete 1) "demo" "1.0.0")).rollout? "demo",
      r.state = .complete ∧ r.completedAt = 0) ∧
    (∃ r ∈ (demoCreated.after 0 (.mark (.complete (7 * Time.second)) "demo" "1.0.0")).rollout?
        "demo", r.state = .complete ∧
      ∃ r' ∈ ((demoCreated.after 0 (.mark (.complete (7 * Time.second)) "demo" "1.0.0")).after 0
        (.create demoRollout)).rollout? "demo", r'.epoch = r.epoch ∧ r' ≠ r) := by
  decide +kernel

end Demo
end RolloutDB
end Coredata
