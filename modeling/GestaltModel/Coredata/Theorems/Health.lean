import GestaltModel.Coredata.Theorems.Lifecycle

namespace Coredata

open AppRolloutService

variable {now t : Int} {app : String} {op : RolloutOperation} {r r' r₁ r₂ r₃ : AppRollout}

namespace AppRollout

theorem SameEpoch.refl (r : AppRollout) : SameEpoch r r :=
  ⟨rfl, rfl, rfl, rfl, rfl, rfl⟩

theorem SameEpoch.trans (h₁ : SameEpoch r₁ r₂) (h₂ : SameEpoch r₂ r₃) : SameEpoch r₁ r₃ :=
  ⟨h₂.app.trans h₁.app, h₂.version.trans h₁.version, h₂.mode.trans h₁.mode,
    h₂.targetSourceVersion.trans h₁.targetSourceVersion, h₂.createdAt.trans h₁.createdAt,
    h₂.deadline.trans h₁.deadline⟩

-- A rollout cannot be healthy for longer than it has been evaluated.
def HealthRecorded (r : AppRollout) : Prop :=
  r.healthySince ≠ 0 → r.heartbeatEvaluatedAt ≠ 0 ∧ r.healthySince ≤ r.heartbeatEvaluatedAt

-- How the recorded health of a rollout can change within its epoch.
structure HealthContinues (before after : AppRollout) : Prop where
  epoch : before.SameEpoch after
  evaluated : before.heartbeatEvaluatedAt ≠ 0 →
    after.heartbeatEvaluatedAt ≠ 0 ∧ before.heartbeatEvaluatedAt ≤ after.heartbeatEvaluatedAt
  healthy : before.heartbeatEvaluatedAt ≠ 0 → after.healthySince = 0 ∨
    after.healthySince = before.healthySince ∨ before.heartbeatEvaluatedAt ≤ after.healthySince

namespace HealthContinues

theorem refl (r : AppRollout) : HealthContinues r r where
  epoch := .refl r
  evaluated h := ⟨h, le_rfl⟩
  healthy _   := .inr (.inl rfl)

theorem trans (h₁ : HealthContinues r₁ r₂) (h₂ : HealthContinues r₂ r₃) : HealthContinues r₁ r₃ where
  epoch := h₁.epoch.trans h₂.epoch
  evaluated h := by
    have ⟨hn, hle⟩ := h₁.evaluated h
    have ⟨hn', hle'⟩ := h₂.evaluated hn
    exact ⟨hn', hle.trans hle'⟩
  healthy h := by
    have ⟨hn, hle⟩ := h₁.evaluated h
    rcases h₂.healthy hn with h₃ | h₃ | h₃
    case inl => exact .inl h₃
    case inr.inl => exact h₃ ▸ h₁.healthy h
    case inr.inr => exact .inr (.inr (hle.trans h₃))

theorem healthySince_le (h : HealthContinues r r') (hr : r.HealthRecorded) (hs : r.healthySince ≠ 0)
    (hs' : r'.healthySince ≠ 0) : r.healthySince ≤ r'.healthySince := by
  have ⟨hn, hle⟩ := hr hs
  rcases h.healthy hn with h | h | h
  case inl => contradiction
  case inr.inl => exact h.ge
  case inr.inr => exact hle.trans h

theorem of_stored (hm : r.mode.orEnrollment = r.mode) : HealthContinues r (stored r) where
  epoch := (SameEpoch.refl r).stored hm
  evaluated h := ⟨h, le_rfl⟩
  healthy _   := .inr (.inl rfl)

theorem mark (mark : Mark) (hm : r.mode.orEnrollment = r.mode) :
    HealthContinues r (stored (mark.apply now r)) where
  epoch := (SameEpoch.mark now mark r).stored hm
  evaluated h := by cases mark <;> exact ⟨h, le_rfl⟩
  healthy _   := by cases mark <;> exact .inr (.inl rfl)

end HealthContinues

theorem evaluated_health (evaluation : HeartbeatRolloutEvaluation) (t : Int) (r : AppRollout) :
    let r' := stored (decideOutcome evaluation t (observe evaluation t r)).1
    r'.heartbeatEvaluatedAt = t ∧
    (r'.healthySince = 0 ∨ r'.healthySince = t ∨
      r'.healthySince = r.healthySince ∧ r.healthySince ≠ 0) := by
  have hs : (observe evaluation t r).healthySince = 0 ∨ (observe evaluation t r).healthySince = t ∨
      (observe evaluation t r).healthySince = r.healthySince ∧ r.healthySince ≠ 0 := by
    simp only [observe]
    split
    · split
      · exact .inr (.inl rfl)
      · exact .inr (.inr ⟨rfl, ‹_›⟩)
    · exact .inl rfl
  simp only [decideOutcome]
  split
  · exact ⟨rfl, hs⟩
  · split <;> exact ⟨rfl, hs⟩

theorem HealthContinues.evaluate
    (hm : r.mode.orEnrollment = r.mode) (hi : ¬Ignored r t) (ht : t ≠ 0) :
    HealthContinues r (stored (decideOutcome evaluation t (observe evaluation t r)).1) := by
  have ⟨he, hs⟩ := evaluated_health evaluation t r
  have hle := (Consistent.le_of_accepted hi).right
  refine ⟨(SameEpoch.evaluate evaluation t r).stored hm, fun h => he.symm ▸ ⟨ht, hle h⟩, fun h => ?_⟩
  rcases hs with hs | hs | ⟨hs, _⟩
  case inl => exact .inl hs
  case inr.inl => exact .inr (.inr (hs.symm ▸ hle h))
  case inr.inr => exact .inr (.inl hs)

theorem HealthRecorded.evaluate (h : r.HealthRecorded) (hi : ¬Ignored r t) (ht : t ≠ 0) :
    (stored (decideOutcome evaluation t (observe evaluation t r)).1).HealthRecorded := by
  have ⟨he, hs⟩ := evaluated_health evaluation t r
  have hle := (Consistent.le_of_accepted hi).right
  rw [HealthRecorded, he]
  rcases hs with hs | hs | ⟨hs, hn⟩ <;> rw [hs]
  case inl => exact fun h => absurd rfl h
  case inr.inl => exact fun _ => ⟨ht, le_rfl⟩
  case inr.inr =>
    have ⟨hev, hle'⟩ := h hn
    exact fun _ => ⟨ht, hle'.trans (hle hev)⟩

-- Either the rollout has changed within its epoch, or there is a newer one.
def Becomes (before after : AppRollout) : Prop :=
  before.createdAt < after.createdAt ∨ before.HealthContinues after

theorem Becomes.trans (h₁ : Becomes r₁ r₂) (h₂ : Becomes r₂ r₃) : Becomes r₁ r₃ := by
  rcases h₁ with h₁ | h₁ <;> rcases h₂ with h₂ | h₂
  case inl.inl => exact .inl (h₁.trans h₂)
  case inl.inr => exact .inl (h₂.epoch.createdAt.symm ▸ h₁)
  case inr.inl => exact .inl (h₁.epoch.createdAt ▸ h₂)
  case inr.inr => exact .inr (h₁.trans h₂)

end AppRollout

theorem Changes.healthContinues (h : Changes now app (some r) op r') (hd : op.Dated now)
    (hs : ¬op.IsStart) (hm : r.mode.orEnrollment = r.mode) : r.HealthContinues r' := by
  cases h
  case create | createAppRollout | retarget => exact absurd trivial hs
  case mark hf _ _ =>
    cases hf
    exact .mark _ hm
  case markForRollout hf _ _ _ =>
    cases hf
    exact .mark _ hm
  case evaluate hf _ hi =>
    cases hf
    exact .evaluate hm hi hd

theorem Changes.healthRecorded (h : Changes now app before op r)
    (hd : op.Dated now) (hb : ∀ r ∈ before, r.HealthRecorded) : r.HealthRecorded := by
  cases h
  case create hv _ => exact (normalized_fresh hv hd).consistent.healthy
  case createAppRollout hp hv _ =>
    exact (normalized_fresh hv (pendingRollout_unstarted hp hd)).consistent.healthy
  case retarget hq _ _ => exact (retarget_fresh hq).consistent.healthy
  case mark m _ _ r hf _ _ =>
    have := hb r hf
    cases m <;> exact this
  case markForRollout m _ r hf _ _ _ =>
    have := hb r hf
    cases m <;> exact this
  case evaluate r hf _ hi => exact (hb r hf).evaluate hi hd

namespace RolloutDB

variable {db db' db₁ db₂ db₃ : RolloutDB}

def HealthRecorded (db : RolloutDB) : Prop :=
  ∀ app, ∀ r ∈ db.rollout? app, r.HealthRecorded

-- Rollouts stay in the store, and each becomes what is there later.
def Later (db db' : RolloutDB) : Prop :=
  ∀ app r, db.rollout? app = some r → ∃ r', db'.rollout? app = some r' ∧ r.Becomes r'

theorem Later.refl (db : RolloutDB) : Later db db :=
  fun _ r h => ⟨r, h, .inr (.refl r)⟩

theorem Later.trans (h₁ : Later db₁ db₂) (h₂ : Later db₂ db₃) : Later db₁ db₃ := by
  intro app r hr
  have ⟨r₂, hr₂, hb₂⟩ := h₁ app r hr
  have ⟨r₃, hr₃, hb₃⟩ := h₂ app r₂ hr₂
  exact ⟨r₃, hr₃, hb₂.trans hb₃⟩

theorem HealthRecorded.after (h : db.HealthRecorded) (hd : op.Dated now) :
    (db.after now op).HealthRecorded := by
  intro app r hr
  rcases after_rollout? now op db app with he | ⟨r', he, hc⟩
  case inl => exact h app r (he ▸ hr)
  case inr =>
    cases Option.some.inj (he.symm.trans hr)
    exact hc.healthRecorded hd (h app)

theorem Later.after (hd : op.Dated now) (hn : db.Renews now op) : Later db (db.after now op) := by
  intro app r hr
  rcases after_rollout? now op db app with he | ⟨r', he, hc⟩
  case inl => exact ⟨r, he.trans hr, .inr (.refl r)⟩
  case inr =>
    refine ⟨r', he, ?_⟩
    by_cases hs : op.IsStart
    case neg =>
      rw [hr] at hc
      exact .inr (hc.healthContinues hd hs (orEnrollment_of_rollout? hr))
    case pos =>
      have ⟨rec, hl, hrec⟩ := Option.map_eq_some_iff.mp hr
      have hid : rec.app = app := ObjectStore.id_of_lookup hl
      have hm := ObjectStore.mem_getAll.mpr ((ObjectStore.id_of_lookup hl).symm ▸ hl)
      rcases hn hs rec hm r' (hid ▸ he) with h | h
      case inl => exact .inr (h.trans hrec ▸ .refl r)
      case inr => exact .inl (hrec ▸ h)

end RolloutDB
end Coredata
