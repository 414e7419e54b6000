import GestaltModel.Coredata.Lifecycle

namespace Coredata

open Except (bind_eq_ok_iff context_eq_ok)
open GestaltdSourceVersionService (Retargets activationPlan pendingRollout requestedMinimum
  retarget)
open Text (trimSpace)
open AppRolloutService GestaltdSourceVersionService

section Codec

variable {rollout : AppRollout}

@[simp]
theorem recTime_timeColumn (t : Int) : recTime (timeColumn t) = t := by
  simp only [recTime, timeColumn]
  split <;> simp_all

@[simp]
theorem orEnrollment_orEnrollment (mode : AppRolloutMode) :
    mode.orEnrollment.orEnrollment = mode.orEnrollment := by
  cases mode <;> rfl

def stored (rollout : AppRollout) : AppRollout :=
  { rollout with
    mode := rollout.mode.orEnrollment
    failureSummary := rollout.failureSummary.filter (Time.Marshals ·.evaluatedAt) }

theorem recordToAppRollout_appRolloutRecord :
    recordToAppRollout (appRolloutRecord rollout) = stored rollout := by
  simp [recordToAppRollout, appRolloutRecord, stored]

end Codec

namespace RolloutDB

variable {db db' : RolloutDB} {app : String} {rollout : AppRollout} {rollouts : RolloutStore}

theorem rollout?_put_self (ha : rollout.app = app) :
    rollout? { db with rollouts := rollouts.put (appRolloutRecord rollout) } app =
      some (stored rollout) := by
  subst ha
  have h : (rollouts.put (appRolloutRecord rollout)).lookup rollout.app =
      some (appRolloutRecord rollout) := ObjectStore.lookup_put_self
  simp [rollout?, h, recordToAppRollout_appRolloutRecord]

theorem rollout?_put_of_ne (h : app ≠ rollout.app) :
    rollout? { db with rollouts := rollouts.put (appRolloutRecord rollout) } app =
      rollout? { db with rollouts } app := by
  have h : (rollouts.put (appRolloutRecord rollout)).lookup app = rollouts.lookup app :=
    ObjectStore.lookup_put_of_ne h
  simp [rollout?, h]

theorem app_of_rollout? (h : db.rollout? app = some rollout) : rollout.app = app := by
  have ⟨rec, hl, hr⟩ := Option.map_eq_some_iff.mp h
  rw [← hr]
  exact ObjectStore.id_of_lookup hl

theorem orEnrollment_of_rollout? (h : db.rollout? app = some rollout) :
    rollout.mode.orEnrollment = rollout.mode := by
  have ⟨rec, _, hr⟩ := Option.map_eq_some_iff.mp h
  rw [← hr]
  exact orEnrollment_orEnrollment rec.mode

end RolloutDB

-- What changes only at the beginning of an epoch.
structure AppRollout.SameEpoch (r r' : AppRollout) : Prop where
  app : r'.app = r.app
  version : r'.version = r.version
  mode : r'.mode = r.mode
  targetSourceVersion : r'.targetSourceVersion = r.targetSourceVersion
  createdAt : r'.createdAt = r.createdAt
  deadline : r'.deadline = r.deadline

namespace AppRollout.SameEpoch

variable {r r' : AppRollout}

theorem epoch_eq (h : SameEpoch r r') : r'.epoch = r.epoch := by
  simp [epoch, h.version, h.createdAt, h.targetSourceVersion, h.mode]

theorem stored (h : SameEpoch r r') (hm : r.mode.orEnrollment = r.mode) : SameEpoch r (stored r') :=
  ⟨h.app, h.version, by rw [← hm, ← h.mode]; rfl, h.targetSourceVersion, h.createdAt, h.deadline⟩

theorem mark (now : Int) (mark : Mark) (r : AppRollout) :
    SameEpoch r (mark.apply now r) := by
  cases mark <;> exact ⟨rfl, rfl, rfl, rfl, rfl, rfl⟩

theorem decideOutcome (evaluation : HeartbeatRolloutEvaluation) (t : Int) (r : AppRollout) :
    SameEpoch r (AppRolloutService.decideOutcome evaluation t r).1 := by
  simp only [AppRolloutService.decideOutcome]
  split
  · exact ⟨rfl, rfl, rfl, rfl, rfl, rfl⟩
  · split <;> exact ⟨rfl, rfl, rfl, rfl, rfl, rfl⟩

theorem evaluate (evaluation : HeartbeatRolloutEvaluation) (t : Int) (r : AppRollout) :
    SameEpoch r
      (AppRolloutService.decideOutcome evaluation t (AppRolloutService.observe evaluation t r)).1 :=
  have h := decideOutcome evaluation t (AppRolloutService.observe evaluation t r)
  ⟨h.app, h.version, h.mode, h.targetSourceVersion, h.createdAt, h.deadline⟩

end AppRollout.SameEpoch

-- The rollout of an app before an operation and the one that it writes, without the stores.
inductive Changes (now : Int) (app : String) (before : Option AppRollout) :
    RolloutOperation → AppRollout → Prop
  | create {rollout} (named : trimSpace rollout.app = app)
    (valid : validateAppRollout rollout = .ok ())
    (terminal : ∀ r ∈ before, ¬IsActiveRolloutState r.state) :
    Changes now app before (.create rollout) (stored (normalizeAppRollout now rollout))
  | createAppRollout {rollout pending state} (named : trimSpace pending.app = app)
    (admitted : pendingRollout state rollout = .ok pending)
    (valid : validateAppRollout pending = .ok ())
    (terminal : ∀ r ∈ before, ¬IsActiveRolloutState r.state) :
    Changes now app before (.createAppRollout rollout) (stored (normalizeAppRollout now pending))
  | retarget {a requested state r}
    (valid : requestedMinimum a = .ok requested)
    (found : before = some r)
    (retargets : Retargets a
      (activationPlan now a requested state) r) :
    Changes now app before (.activate a) (stored (retarget a
      (activationPlan now a requested state) r))
  | mark {mark name version r} (found : before = some r)
    (matching : trimSpace r.version = trimSpace version)
    (active : IsActiveRolloutState r.state) :
    Changes now app before (.mark mark name version) (stored (mark.apply now r))
  | markForRollout {mark expected r} (found : before = some r)
    (matching : trimSpace r.version = trimSpace expected.version)
    (epoch : EpochMatches r expected)
    (active : IsActiveRolloutState r.state) :
    Changes now app before (.markForRollout mark expected) (stored (mark.apply now r))
  | evaluate {expected evaluation r} (found : before = some r)
    (epoch : HeartbeatEpochMatches r expected)
    (accepted : ¬Ignored r
      (normalizedRolloutTime now evaluation.evaluatedAt)) :
    Changes now app before (.evaluate expected evaluation)
      (stored (AppRolloutService.decideOutcome evaluation
        (normalizedRolloutTime now evaluation.evaluatedAt)
        (AppRolloutService.observe evaluation
          (normalizedRolloutTime now evaluation.evaluatedAt) r)).1)

theorem Changes.sameEpoch
    (h : Changes now app (some r) op r') (hs : ¬op.IsStart) (hm : r.mode.orEnrollment = r.mode) :
    r.SameEpoch r' := by
  cases h
  case create | createAppRollout | retarget => exact absurd trivial hs
  case mark hf _ _ =>
    cases hf
    exact (AppRollout.SameEpoch.mark ..).stored hm
  case markForRollout hf _ _ _ =>
    cases hf
    exact (AppRollout.SameEpoch.mark ..).stored hm
  case evaluate hf _ _ =>
    cases hf
    exact (AppRollout.SameEpoch.evaluate ..).stored hm

section Execute

variable {now : Int} {op : RolloutOperation} {db db' : RolloutDB}

theorem changes_of_put {rollouts : RolloutStore}
    (hr : rollouts = db.rollouts.put (appRolloutRecord rollout)) (hk : rollout.app = key)
    (h : Changes now key (db.rollout? key) op (stored rollout)) :
    RolloutDB.rollout? { db with rollouts } app = db.rollout? app ∨
    ∃ r, RolloutDB.rollout? { db with rollouts } app = some r ∧
      Changes now app (db.rollout? app) op r := by
  subst hr hk
  by_cases ha : app = rollout.app
  case pos => exact .inr ⟨_, RolloutDB.rollout?_put_self ha.symm, ha ▸ h⟩
  case neg => exact .inl (RolloutDB.rollout?_put_of_ne ha)

theorem AppRolloutService.replaceTerminal_eq_ok
    (h : replaceTerminal db.rollouts rollout = .ok rollouts) :
    rollouts = db.rollouts.put (appRolloutRecord rollout) ∧
    ∀ r ∈ db.rollout? rollout.app, ¬IsActiveRolloutState r.state := by
  simp only [replaceTerminal] at h
  split at h
  case h_1 hl =>
    have ⟨_, h⟩ := ObjectStore.add_eq_ok.mp h
    exact ⟨h, by simp [RolloutDB.rollout?, hl]⟩
  case h_2 rec hl =>
    split at h
    · contradiction
    · cases h
      exact ⟨rfl, by simpa [RolloutDB.rollout?, hl]⟩

theorem AppRolloutService.create_eq_ok (h : create now rollout db.rollouts = .ok (rollouts, r)) :
    validateAppRollout rollout = .ok () ∧ r = normalizeAppRollout now rollout ∧
      rollouts = db.rollouts.put (appRolloutRecord r) ∧
      ∀ r' ∈ db.rollout? r.app, ¬IsActiveRolloutState r'.state := by
  have ⟨_, hv, h⟩ := bind_eq_ok_iff.mp h
  have ⟨rollouts, hr, h⟩ := bind_eq_ok_iff.mp h
  have ⟨hr, ht⟩ := replaceTerminal_eq_ok hr
  cases h
  exact ⟨context_eq_ok.mp hv, rfl, hr, ht⟩

theorem AppRolloutService.transition_eq_ok {mark : Mark}
    (h : transition now app version mark expected db.rollouts = .ok (rollouts, rollout)) :
    ∃ r, db.rollout? (trimSpace app) = some r ∧
      trimSpace r.version = trimSpace version ∧ (∀ e ∈ expected, EpochMatches r e) ∧
      (rollouts = db.rollouts ∧ rollout = r ∨
        IsActiveRolloutState r.state ∧ rollout = mark.apply now r ∧
        rollouts = db.rollouts.put (appRolloutRecord rollout)) := by
  simp only [transition] at h
  have ⟨_, _, h⟩ := bind_eq_ok_iff.mp h
  have ⟨rec, hl, h⟩ := bind_eq_ok_iff.mp h
  have hl := ObjectStore.get_eq_ok.mp (context_eq_ok.mp hl)
  split at h; · contradiction
  case isFalse hv =>
    split at h; · contradiction
    case isFalse he =>
      refine ⟨recordToAppRollout rec, by simp [RolloutDB.rollout?, hl], not_not.mp hv,
        fun e hm => by_contra fun hn => he ⟨e, hm, hn⟩, ?_⟩
      split at h
      · cases h
        exact .inl ⟨rfl, rfl⟩
      · split at h
        case isTrue =>
          cases h
          exact .inl ⟨rfl, rfl⟩
        case isFalse ha =>
          cases h
          exact .inr ⟨not_not.mp ha, rfl, rfl⟩

theorem AppRolloutService.evaluateHeartbeatRollout_eq_ok
    (h : evaluateHeartbeatRollout now expected evaluation db.rollouts =
      .ok (rollouts, rollout, transitioned)) :
    let evaluatedAt := normalizedRolloutTime now evaluation.evaluatedAt
    ∃ r, db.rollout? (trimSpace expected.app) = some r ∧ HeartbeatEpochMatches r expected ∧
    (Ignored r evaluatedAt ∧ rollouts = db.rollouts ∧ rollout = r ∧ transitioned = false ∨
      ¬Ignored r evaluatedAt ∧ rollouts = db.rollouts.put (appRolloutRecord rollout) ∧
      (rollout, transitioned) =
        decideOutcome evaluation evaluatedAt (observe evaluation evaluatedAt r)) := by
  simp only [evaluateHeartbeatRollout] at h
  have ⟨_, _, h⟩ := bind_eq_ok_iff.mp h
  have ⟨rec, hl, h⟩ := bind_eq_ok_iff.mp h
  have hl := ObjectStore.get_eq_ok.mp (context_eq_ok.mp hl)
  refine ⟨recordToAppRollout rec, by simp [RolloutDB.rollout?, hl], ?_⟩
  split at h; · contradiction
  case isFalse he =>
    refine ⟨not_not.mp he, ?_⟩
    split at h
    case isTrue hi =>
      cases h
      exact .inl ⟨hi, rfl, rfl, rfl⟩
    case isFalse hi =>
      cases h
      exact .inr ⟨hi, rfl, rfl⟩

theorem AppRolloutService.evaluateHeartbeatRollout_eq
    (hr : db.rollout? (trimSpace expected.app) = some r) (hm : HeartbeatEpochMatches r expected)
    (hw : 0 < evaluation.stabilityWindow) (ht : normalizedRolloutTime now evaluation.evaluatedAt = t)
    (hd : decideOutcome evaluation t (observe evaluation t r) = decided) :
    evaluateHeartbeatRollout now expected evaluation db.rollouts =
      if Ignored r t then
        .ok (db.rollouts, r, false)
      else
        .ok (db.rollouts.put (appRolloutRecord decided.1), decided.1, decided.2) := by
  have ⟨rec, hl, hr⟩ := Option.map_eq_some_iff.mp hr
  have hl := ObjectStore.get_eq_ok.mpr hl
  subst hr ht hd
  simp only [evaluateHeartbeatRollout, require, if_pos hw, hl]
  exact if_neg (not_not.mpr hm)

theorem normalizedRolloutTime_eq (h : Time.truncate Time.millisecond value ≠ 0) :
    normalizedRolloutTime now value = Time.truncate Time.millisecond value := by
  have hv : value ≠ 0 := fun hv => h (by rw [hv]; rfl)
  rw [normalizedRolloutTime, if_neg hv]

theorem GestaltdSourceVersionService.createAppRollout_eq_ok
    (h : createAppRollout now rollout db = .ok (db', r)) :
    ∃ state pending, pendingRollout state rollout = .ok pending ∧
      validateAppRollout pending = .ok () ∧ r = normalizeAppRollout now pending ∧
      db' = { db with rollouts := db.rollouts.put (appRolloutRecord r) } ∧
      ∀ r' ∈ db.rollout? r.app, ¬IsActiveRolloutState r'.state := by
  simp only [createAppRollout] at h
  split at h; · contradiction
  case h_2 state _ =>
    split at h; · contradiction
    split at h; · contradiction
    have ⟨pending, hp, h⟩ := bind_eq_ok_iff.mp h
    have ⟨_, hv, h⟩ := bind_eq_ok_iff.mp h
    have ⟨rollouts, hr, h⟩ := bind_eq_ok_iff.mp h
    have ⟨hr, ht⟩ := replaceTerminal_eq_ok hr
    cases h
    exact ⟨state, pending, hp, context_eq_ok.mp hv, rfl, by rw [hr], ht⟩

theorem GestaltdSourceVersionService.retargetRecord_id (h : retargetRecord a plan rec = some rec') :
    Record.id rec' = Record.id rec := by
  simp only [retargetRecord, Option.ite_none_right_eq_some] at h
  rw [← Option.some.inj h.right]
  rfl

theorem GestaltdSourceVersionService.activateWithRolloutMode_eq_ok
    (h : activateWithRolloutMode now a db = .ok (db', state)) :
    ∃ requested, requestedMinimum a = .ok requested ∧
      let plan := activationPlan now a requested (db.source.getD {})
      ∀ app, db'.rollout? app = db.rollout? app ∨
        ∃ r, db.rollout? app = some r ∧ Retargets a plan r ∧
          db'.rollout? app = some (stored (retarget a plan r)) := by
  simp only [activateWithRolloutMode] at h
  have ⟨requested, hq, h⟩ := bind_eq_ok_iff.mp h
  cases h
  refine ⟨requested, hq, fun app => ?_⟩
  simp only [RolloutDB.rollout?]
  split
  case isFalse => exact .inl rfl
  case isTrue =>
    rw [ObjectStore.lookup_updateAll retargetRecord_id]
    cases hl : db.rollouts.lookup app
    case none => exact .inl rfl
    case some rec =>
      simp only [retargetRecord, Option.map_some]
      split
      case isTrue hr => exact .inr ⟨_, rfl, hr, by simp [recordToAppRollout_appRolloutRecord]⟩
      case isFalse   => exact .inl rfl

theorem GestaltdSourceVersionService.changeAppDeployPause_eq_ok
    (h : changeAppDeployPause now owner token acquire db = .ok x) :
    x.1 = { db with source := x.1.source } := by
  simp only [changeAppDeployPause] at h
  have ⟨_, _, h⟩ := bind_eq_ok_iff.mp h
  split at h; · contradiction
  split at h; · contradiction
  cases h
  rfl

theorem execute_rollout? (h : db.execute now op = .ok db') (app : String) :
    db'.rollout? app = db.rollout? app ∨
    ∃ r, db'.rollout? app = some r ∧ Changes now app (db.rollout? app) op r := by
  cases op <;> have ⟨x, hx, h⟩ := bind_eq_ok_iff.mp h <;> cases h
  case create =>
    have ⟨hv, hr, he, ht⟩ := create_eq_ok hx
    exact changes_of_put he rfl (hr ▸ .create rfl hv (hr ▸ ht))
  case createAppRollout =>
    have ⟨_, _, hp, hv, hr, hdb, ht⟩ := createAppRollout_eq_ok hx
    rw [hdb]
    exact changes_of_put rfl rfl (hr ▸ .createAppRollout rfl hp hv (hr ▸ ht))
  case mark =>
    have ⟨r, hf, hv, _, hx⟩ := transition_eq_ok hx
    rcases hx with ⟨he, _⟩ | ⟨ha, hr, he⟩
    case inl => exact .inl (by rw [he])
    case inr =>
      have hk := RolloutDB.app_of_rollout? hf
      exact changes_of_put he (hr ▸ (AppRollout.SameEpoch.mark ..).app.trans hk) (hr ▸ .mark hf hv ha)
  case markForRollout =>
    have ⟨r, hf, hv, hm, hx⟩ := transition_eq_ok hx
    rcases hx with ⟨he, _⟩ | ⟨ha, hr, he⟩
    case inl => exact .inl (by rw [he])
    case inr =>
      have hk := RolloutDB.app_of_rollout? hf
      exact changes_of_put he (hr ▸ (AppRollout.SameEpoch.mark ..).app.trans hk)
        (hr ▸ .markForRollout hf hv (hm _ rfl) ha)
  case evaluate =>
    have ⟨r, hf, hm, hx⟩ := evaluateHeartbeatRollout_eq_ok hx
    rcases hx with ⟨_, he, _⟩ | ⟨ha, he, hd⟩
    case inl => exact .inl (by rw [he])
    case inr =>
      have hk := RolloutDB.app_of_rollout? hf
      have hd : x.2.1 = _ := congrArg Prod.fst hd
      rw [hd] at he
      exact changes_of_put he ((AppRollout.SameEpoch.evaluate ..).app.trans hk) (.evaluate hf hm ha)
  case activate =>
    have ⟨_, hq, hr⟩ := activateWithRolloutMode_eq_ok hx
    exact (hr app).imp id fun ⟨r, hf, hr, he⟩ => ⟨_, he, .retarget hq hf hr⟩
  case changeAppDeployPause =>
    rw [changeAppDeployPause_eq_ok hx]
    exact .inl rfl

theorem RolloutDB.after_rollout? (now : Int) (op : RolloutOperation) (db : RolloutDB)
    (app : String) :
    (db.after now op).rollout? app = db.rollout? app ∨
    ∃ r, (db.after now op).rollout? app = some r ∧ Changes now app (db.rollout? app) op r := by
  rw [after]
  split
  case h_1 h => exact execute_rollout? h app
  case h_2 => exact .inl rfl

-- The rollouts are left alone, or the rollout of the app was active and is now the returned one.
def RolloutDB.Returned (db db' : RolloutDB) (rollout : AppRollout) : Prop :=
  ∃ r, db.rollout? rollout.app = some r ∧
    (db' = db ∧ rollout = r ∨
      IsActiveRolloutState r.state ∧ db'.rollout? rollout.app = some (stored rollout) ∧
      ∀ app ≠ rollout.app, db'.rollout? app = db.rollout? app)

theorem RolloutDB.Returned.put (hr : db.rollout? rollout.app = some r)
    (ha : IsActiveRolloutState r.state) :
    db.Returned { db with rollouts := db.rollouts.put (appRolloutRecord rollout) } rollout :=
  ⟨r, hr, .inr ⟨ha, rollout?_put_self rfl, fun _ hne => rollout?_put_of_ne hne⟩⟩

theorem AppRolloutService.transition_returned {mark : Mark}
    (h : transition now app version mark expected db.rollouts = .ok (rollouts, rollout)) :
    db.Returned { db with rollouts } rollout := by
  have ⟨r, hf, _, _, h⟩ := transition_eq_ok h
  have hk := RolloutDB.app_of_rollout? hf
  rw [← hk] at hf
  rcases h with ⟨he, hr⟩ | ⟨ha, hr, he⟩
  case inl => exact ⟨r, hr ▸ hf, .inl ⟨by rw [he], hr⟩⟩
  case inr =>
    rw [he]
    refine .put ?_ ha
    rw [hr, (AppRollout.SameEpoch.mark now mark r).app]
    exact hf

theorem AppRolloutService.evaluateHeartbeatRollout_returned
    (h : evaluateHeartbeatRollout now expected evaluation db.rollouts =
      .ok (rollouts, rollout, transitioned)) :
    db.Returned { db with rollouts } rollout := by
  have ⟨r, hf, _, h⟩ := evaluateHeartbeatRollout_eq_ok h
  have hk := RolloutDB.app_of_rollout? hf
  rw [← hk] at hf
  rcases h with ⟨_, he, hr, _⟩ | ⟨hi, he, hd⟩
  case inl => exact ⟨r, hr ▸ hf, .inl ⟨by rw [he], hr⟩⟩
  case inr =>
    have hr : rollout = _ := congrArg Prod.fst hd
    rw [he]
    refine .put ?_ (.inr (not_not.mp (not_or.mp hi).left))
    rw [hr, (AppRollout.SameEpoch.evaluate ..).app]
    exact hf

end Execute

section Named

variable {now : Int} {app : String} {op : RolloutOperation} {db : RolloutDB} {r r' : AppRollout}

theorem GestaltdSourceVersionService.pendingRollout_app (h : pendingRollout state rollout = .ok r) :
    r.app = rollout.app ∧ r.version = rollout.version := by
  simp only [pendingRollout] at h
  split at h
  case isTrue =>
    have ⟨_, _, h⟩ := bind_eq_ok_iff.mp h
    cases h
    exact ⟨rfl, rfl⟩
  case isFalse =>
    cases h
    exact ⟨rfl, rfl⟩

structure AppRollout.Named (r : AppRollout) : Prop where
  app : Text.Trimmed r.app
  app_ne : r.app ≠ ""
  version : Text.Trimmed r.version
  version_ne : r.version ≠ ""

theorem AppRollout.SameEpoch.named (h : r.SameEpoch r') (hn : r.Named) : r'.Named :=
  ⟨h.app ▸ hn.app, h.app ▸ hn.app_ne, h.version ▸ hn.version, h.version ▸ hn.version_ne⟩

theorem normalized_named (hv : validateAppRollout rollout = .ok ()) :
    (stored (normalizeAppRollout now rollout)).Named := by
  have ⟨_, hn, _⟩ := bind_eq_ok_iff.mp hv
  have ⟨ha, hv⟩ := require_eq_ok.mp hn
  exact ⟨Text.trimSpace_trimmed _, ha, Text.trimSpace_trimmed _, hv⟩

theorem Changes.named (h : Changes now app before op r)
    (hb : ∀ r ∈ before, r.Named ∧ r.mode.orEnrollment = r.mode) : r.Named := by
  by_cases hs : op.IsStart
  case pos =>
    cases h
    case create hv _             => exact normalized_named hv
    case createAppRollout hv _   => exact normalized_named hv
    case retarget r _ hf _       =>
      have hn := (hb r hf).left
      exact ⟨hn.app, hn.app_ne, hn.version, hn.version_ne⟩
    all_goals contradiction
  case neg =>
    cases before
    case some r₀ =>
      have ⟨hn, hm⟩ := hb r₀ rfl
      exact (h.sameEpoch hs hm).named hn
    case none => cases h <;> first | contradiction | exact absurd trivial hs

namespace RolloutDB

def Named (db : RolloutDB) : Prop :=
  ∀ app, ∀ r ∈ db.rollout? app, r.Named

theorem Named.empty : Named {} :=
  fun _ _ h => nomatch h

theorem Named.after (h : db.Named) : (db.after now op).Named := by
  intro app r hr
  rcases after_rollout? now op db app with he | ⟨r', he, hc⟩
  case inl => exact h app r (he ▸ hr)
  case inr =>
    cases Option.some.inj (he.symm.trans hr)
    exact hc.named fun r hr => ⟨h app r hr, orEnrollment_of_rollout? hr⟩

end RolloutDB
end Named
end Coredata
