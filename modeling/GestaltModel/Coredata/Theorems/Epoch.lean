import GestaltModel.Coredata.Theorems.Rollout

namespace Coredata

open AppRolloutService GestaltdSourceVersionService
open Time (second)

variable {now : Int} {app : String} {db db' : RolloutDB} {op : RolloutOperation}
variable {r r' expected : AppRollout} {ops : List (Int × RolloutOperation)}

namespace RolloutDB

-- By induction on the operations.
theorem run_named (hn : db.Named) (ops : List (Int × RolloutOperation)) : (db.run ops).Named := by
  induction ops generalizing db
  case nil => exact hn
  case cons _ _ hi => exact hi hn.after

theorem reachable_named (h : (run {} ops).rollout? app = some r) : r.Named :=
  run_named .empty ops app r h

theorem execute_of_not_starts (hx : db.execute now op = .ok db') (hop : op.IsStart)
    (hs : ¬db.Starts now app op) : db'.rollout? app = db.rollout? app := by
  have hok : (db.execute now op).isOk := by rw [hx]; rfl
  cases op
  case create rollout =>
    have ⟨x, h, hx⟩ := Except.bind_eq_ok_iff.mp hx
    have ⟨_, hr, he, _⟩ := create_eq_ok h
    cases hx
    have hne : app ≠ x.2.app := fun ha => hs ⟨by rw [ha, hr]; rfl, hok⟩
    rw [he]
    exact rollout?_put_of_ne hne
  case createAppRollout rollout =>
    have ⟨x, h, hx⟩ := Except.bind_eq_ok_iff.mp hx
    have ⟨_, pending, hp, _, hr, he, _⟩ := createAppRollout_eq_ok h
    cases hx
    have hne : app ≠ x.2.app := by
      intro ha
      refine hs ⟨?_, hok⟩
      rw [ha, hr, ← (pendingRollout_app hp).left]
      rfl
    rw [he]
    exact rollout?_put_of_ne hne
  case activate a =>
    have ⟨x, h, hx⟩ := Except.bind_eq_ok_iff.mp hx
    have ⟨requested, hq, h⟩ := activateWithRolloutMode_eq_ok h
    cases hx
    rcases h app with he | ⟨r, hr, ht, _⟩
    case inl => exact he
    case inr => exact absurd ⟨requested, by rw [hq]; rfl, r, hr, ht⟩ hs
  all_goals contradiction

theorem after_of_not_starts (hs : ¬db.Starts now app op) (hr : db.rollout? app = some r) :
    ∃ r', (db.after now op).rollout? app = some r' ∧ r'.epoch = r.epoch := by
  cases hx : db.execute now op <;> simp only [after, hx]
  case error => exact ⟨r, hr, rfl⟩
  case ok db' =>
    by_cases hop : op.IsStart
    case pos => exact ⟨r, (execute_of_not_starts hx hop hs).trans hr, rfl⟩
    case neg =>
      rcases execute_rollout? hx app with he | ⟨r', he, hc⟩
      case inl => exact ⟨r, he.trans hr, rfl⟩
      case inr =>
        rw [hr] at hc
        exact ⟨r', he, (hc.sameEpoch hop (orEnrollment_of_rollout? hr)).epoch_eq⟩

theorem after_of_starts (hs : db.Starts now app op) :
    ∃ r, (db.after now op).rollout? app = some r := by
  have created {rollout : AppRollout} {rollouts : RolloutStore} (ha : rollout.app = app)
      (hr : rollouts = db.rollouts.put (appRolloutRecord rollout)) :
      ∃ r, rollout? { db with rollouts } app = some r :=
    ⟨_, hr ▸ rollout?_put_self ha⟩
  cases op
  case create rollout =>
    obtain ⟨ha, hok⟩ := hs
    cases hx : db.execute now (.create rollout)
    case error => simp [hx, Except.isOk, Except.toBool] at hok
    case ok =>
      simp only [after, hx]
      obtain ⟨x, h, hx⟩ := Except.bind_eq_ok_iff.mp hx
      obtain ⟨_, hr, he, _⟩ := create_eq_ok h
      cases hx
      exact created (by rw [hr]; exact ha) he
  case createAppRollout rollout =>
    obtain ⟨ha, hok⟩ := hs
    cases hx : db.execute now (.createAppRollout rollout)
    case error => simp [hx, Except.isOk, Except.toBool] at hok
    case ok =>
      simp only [after, hx]
      obtain ⟨x, h, hx⟩ := Except.bind_eq_ok_iff.mp hx
      obtain ⟨_, pending, hp, _, hr, he, _⟩ := createAppRollout_eq_ok h
      cases hx
      rw [he]
      refine created ?_ rfl
      rw [hr, ← ha, ← (pendingRollout_app hp).left]
      rfl
  case activate a =>
    obtain ⟨_, _, r, hr, _⟩ := hs
    rcases after_rollout? now (.activate a) db app with he | ⟨r', he, _⟩
    case inl => exact ⟨r, he.trans hr⟩
    case inr => exact ⟨r', he⟩
  all_goals contradiction

def Superseded (expected : AppRollout) (db : RolloutDB) : Prop :=
  ∃ r, db.rollout? expected.app = some r ∧ r.epoch ≠ expected.epoch

theorem Superseded.run (h : Superseded expected db) (hc : ChangesEpoch expected db ops) :
    Superseded expected (db.run ops) := by
  induction ops generalizing db
  case nil => exact h
  case cons o ops hi =>
    refine hi ?_ hc.right
    by_cases hs : db.Starts o.1 expected.app o.2
    case pos =>
      have ⟨r, hr⟩ := after_of_starts hs
      exact ⟨r, hr, hc.left hs r hr⟩
    case neg =>
      have ⟨r, hr, hne⟩ := h
      have ⟨r', hr', he⟩ := after_of_not_starts hs hr
      exact ⟨r', hr', he ▸ hne⟩

theorem superseded_of_restarted (h : Restarted expected.app db ops)
    (hc : ChangesEpoch expected db ops) : Superseded expected (db.run ops) := by
  induction ops generalizing db
  case nil => contradiction
  case cons o ops hi =>
    rcases h with h | h
    case inr => exact hi h hc.right
    case inl =>
      have ⟨r, hr⟩ := after_of_starts h
      have hsup : Superseded expected (db.after o.1 o.2) := ⟨r, hr, hc.left h r hr⟩
      exact hsup.run hc.right

section Refused

variable (h : Superseded expected db) (hn : expected.Named)
include h hn

theorem Superseded.get :
    ∃ rec, db.rollouts.get (Text.trimSpace expected.app) = .ok rec ∧
      (recordToAppRollout rec).epoch ≠ expected.epoch := by
  have ⟨r, hr, hne⟩ := h
  have ⟨rec, hl, hr⟩ := Option.map_eq_some_iff.mp hr
  exact ⟨rec, by rw [hn.app]; exact ObjectStore.get_eq_ok.mpr hl, hr ▸ hne⟩

theorem Superseded.evaluate (hw : 0 < evaluation.stabilityWindow) :
    evaluateHeartbeatRollout now expected evaluation db.rollouts =
      .error errAppRolloutEpochMismatch := by
  have ⟨rec, hg, hne⟩ := h.get hn
  have hm : ¬HeartbeatEpochMatches (recordToAppRollout rec) expected := by
    intro ⟨hv, hc, ht, hm, hm'⟩
    exact hne (by simp [AppRollout.epoch, hv, hc, ht, hm, hm'])
  simp only [evaluateHeartbeatRollout, require, if_pos hw, hg]
  exact if_pos hm

theorem Superseded.markForRollout (now : Int) (mark : Mark) :
    AppRolloutService.markForRollout now mark expected db.rollouts =
      .error errAppRolloutVersionMismatch ∨
    AppRolloutService.markForRollout now mark expected db.rollouts =
      .error errAppRolloutEpochMismatch := by
  obtain ⟨rec, hg, hne⟩ := h.get hn
  have hnames : Text.trimSpace expected.app ≠ "" ∧ Text.trimSpace expected.version ≠ "" :=
    ⟨hn.app.symm ▸ hn.app_ne, hn.version.symm ▸ hn.version_ne⟩
  simp only [AppRolloutService.markForRollout, transition, require, if_pos hnames, hg]
  by_cases hv : Text.trimSpace (recordToAppRollout rec).version = Text.trimSpace expected.version
  case neg => exact .inl (if_pos hv)
  case pos =>
    have hm : ¬EpochMatches (recordToAppRollout rec) expected := by
      rintro ⟨hc, ht, hm⟩
      exact hne (by simp [AppRollout.epoch, hv, hc, ht, hm])
    exact .inr ((if_neg (not_not.mpr hv)).trans (if_pos ⟨expected, rfl, hm⟩))

end Refused

-- A call for a rollout read before a creation or retargeting that changes the epoch is refused.
theorem epoch_fencing {before : List (Int × RolloutOperation)}
    (hread : (run {} before).rollout? app = some expected)
    (hrestart : Restarted app (run {} before) ops)
    (hchange : ChangesEpoch expected (run {} before) ops) :
    let db := (run {} before).run ops
    (∀ now evaluation, 0 < evaluation.stabilityWindow →
      db.execute now (.evaluate expected evaluation) = .error errAppRolloutEpochMismatch) ∧
    (∀ now mark,
      db.execute now (.markForRollout mark expected) = .error errAppRolloutVersionMismatch ∨
      db.execute now (.markForRollout mark expected) = .error errAppRolloutEpochMismatch) := by
  have ha := app_of_rollout? hread
  subst ha
  have hn := reachable_named hread
  have h := superseded_of_restarted hrestart hchange
  constructor
  · intro now evaluation hw
    simp only [execute, h.evaluate hn hw]
    rfl
  · intro now mark
    refine (h.markForRollout hn now mark).imp (fun he => ?_) (fun he => ?_)
    all_goals
      simp only [execute, he]
      rfl

section Demo

def demoPending : AppRollout where
  app := "demo"
  version := "1.0.0"
  state := .restarting
  mode := .heartbeat
  createdAt := 5 * second
  enrollmentEndsAt := 6 * second
  deadline := 9 * second

def demoActivation (t minimum : Int) : Activation where
  sourceVersion := "r1"
  activatedAt := t
  enrollmentWindow := second
  rolloutTimeout := 4 * second
  rolloutMode := .heartbeat
  minimumHealthyInstances := [minimum]

-- The rollout is created, and it is retargeted to another minimum of healthy instances.
def demoCreate : List (Int × RolloutOperation) :=
  [(0, .activate (demoActivation second 1)), (0, .createAppRollout demoPending)]

def demoExpected : AppRollout :=
  { demoPending with targetSourceVersion := "r1", minimumHealthyInstances := 1 }

def demoRetarget (t : Int) : List (Int × RolloutOperation) :=
  [(0, .activate (demoActivation t 2))]

def demoEvaluate : RolloutOperation :=
  .evaluate demoExpected ⟨true, second, 6 * second, {}⟩

theorem demo_read : (run {} demoCreate).rollout? "demo" = some demoExpected := by
  decide +kernel

theorem epoch_fencing_demo :
    ((run {} demoCreate).run (demoRetarget (6 * second))).execute 0 demoEvaluate =
      .error errAppRolloutEpochMismatch := by
  have hs : Starts (run {} demoCreate) 0 "demo"
      (.activate (demoActivation (6 * second) 2)) := by decide +kernel
  have he : ∀ r ∈ (after (run {} demoCreate) 0
      (.activate (demoActivation (6 * second) 2))).rollout? "demo",
      r.epoch ≠ demoExpected.epoch := by decide +kernel
  have hrestart : Restarted "demo" (run {} demoCreate) (demoRetarget (6 * second)) :=
    Or.inl hs
  have hchange : ChangesEpoch demoExpected (run {} demoCreate) (demoRetarget (6 * second)) :=
    And.intro (fun _ => he) trivial
  exact (epoch_fencing demo_read hrestart hchange).left 0 _ (by decide)

-- The rollout is retargeted at the time of its creation, so its epoch stays the same and the call
-- for the rollout read before is not refused.
theorem same_time_retarget_not_fenced :
    Starts (run {} demoCreate) 0 "demo" (.activate (demoActivation (5 * second) 2)) ∧
    let db := (run {} demoCreate).run (demoRetarget (5 * second))
    (∃ r ∈ db.rollout? "demo", r.minimumHealthyInstances = 2 ∧ r.healthySince = 0) ∧
    (∃ r ∈ (db.after 0 demoEvaluate).rollout? "demo",
      r.minimumHealthyInstances = 2 ∧ r.healthySince = 6 * second) := by
  decide +kernel

end Demo
end RolloutDB
end Coredata
