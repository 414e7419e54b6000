import GestaltModel.Coredata.Heartbeat
import GestaltModel.Coredata.Theorems.Rollout

namespace Coredata

open AppRolloutService RolloutDB
open Observation (healthySince?)
open Time (millisecond)

variable {evaluation : HeartbeatRolloutEvaluation} {t : Int}

theorem Observation.healthySince?_cons (o : Observation) (history : List Observation) :
    healthySince? (o :: history) =
      if o.healthy then some ((healthySince? history).getD o.time) else none := by
  simp only [healthySince?, List.takeWhile_cons]
  split
  case isTrue =>
    rw [List.getLast?_cons, Option.map_some]
    cases (history.takeWhile (·.healthy)).getLast? <;> rfl
  case isFalse => rfl

namespace HeartbeatRollout

variable {expected r r₀ : AppRollout} {db : RolloutDB} {call : Call} {calls : List Call}
variable {history : List Observation}

structure Summary (history : List Observation) (r : AppRollout) : Prop where
  evaluatedAt : r.heartbeatEvaluatedAt = (history.head?.map (·.time)).getD 0
  healthySince : r.healthySince = (healthySince? history).getD 0
  times : ∀ o ∈ history, o.time ≠ 0

namespace Summary

theorem healthySince?_ne_zero (h : Summary history r) {s : Int}
    (hs : healthySince? history = some s) : s ≠ 0 := by
  have ⟨o, ho, hs⟩ := Option.map_eq_some_iff.mp hs
  have hm := List.takeWhile_sublist _ |>.mem (List.mem_of_getLast? ho)
  exact hs ▸ h.times o hm

theorem observe (h : Summary history r) (ht : call.time ≠ 0) :
    Summary (call.observation :: history) (observe call.evaluation call.time r) where
  evaluatedAt := rfl
  times o ho   := by
    rcases List.mem_cons.mp ho with ho | ho
    case inl => exact ho ▸ ht
    case inr => exact h.times o ho
  healthySince := by
    have hn {s} := h.healthySince?_ne_zero (s := s)
    simp only [AppRolloutService.observe, Observation.healthySince?_cons, Call.observation,
      h.healthySince]
    cases hs : healthySince? history <;> split <;> simp_all

theorem decideOutcome (h : Summary history r) :
    Summary history (stored (decideOutcome evaluation t r).1) := by
  simp only [AppRolloutService.decideOutcome]
  split
  · exact ⟨h.evaluatedAt, h.healthySince, h.times⟩
  · split <;> exact ⟨h.evaluatedAt, h.healthySince, h.times⟩

end Summary

theorem decided_matches (h : HeartbeatEpochMatches r expected) :
    HeartbeatEpochMatches
      (stored (decideOutcome evaluation t (observe evaluation t r)).1) expected := by
  have ⟨hv, hc, ht, hm, he⟩ := h
  have hs := (AppRollout.SameEpoch.evaluate evaluation t r).stored (by rw [hm]; rfl)
  rw [HeartbeatEpochMatches, hs.version, hs.createdAt, hs.targetSourceVersion, hs.mode]
  exact ⟨hv, hc, ht, hm, he⟩

structure Inv (expected : AppRollout) (history : List Observation) (db : RolloutDB)
    (r : AppRollout) : Prop where
  found : db.rollout? (Text.trimSpace expected.app) = some r
  epoch : HeartbeatEpochMatches r expected
  summary : Summary history r

section Call

variable (h : Inv expected history db r) (hw : 0 < call.evaluation.stabilityWindow)
include h

theorem Inv.accepts_iff : Accepts expected db call ↔ ¬Ignored r call.time := by
  simp [Accepts, h.found]

include hw

theorem Inv.evaluate_of_ignored (hi : Ignored r call.time) : evaluate expected db call = db := by
  have he := evaluateHeartbeatRollout_eq h.found h.epoch hw (t := call.time) rfl rfl
  rw [if_pos hi] at he
  simp only [evaluate, after, execute, he]
  rfl

theorem Inv.evaluate_of_accepted (hi : ¬Ignored r call.time) :
    (evaluate expected db call).rollout? (Text.trimSpace expected.app) =
      some (stored (decideOutcome call.evaluation call.time
        (observe call.evaluation call.time r)).1) := by
  have he := evaluateHeartbeatRollout_eq h.found h.epoch hw (t := call.time) rfl rfl
  rw [if_neg hi] at he
  have hk := app_of_rollout? h.found
  simp only [evaluate, after, execute, he]
  exact rollout?_put_self ((AppRollout.SameEpoch.evaluate ..).app.trans hk)

theorem Inv.step (ht : call.time ≠ 0) :
    ∃ r', Inv expected
      (if Accepts expected db call then call.observation :: history else history)
      (evaluate expected db call) r' := by
  by_cases hi : Ignored r call.time
  case pos =>
    rw [if_neg (mt h.accepts_iff.mp (not_not.mpr hi)), h.evaluate_of_ignored hw hi]
    exact ⟨r, h⟩
  case neg =>
    rw [if_pos (h.accepts_iff.mpr hi)]
    exact ⟨_, h.evaluate_of_accepted hw hi, decided_matches h.epoch,
      (h.summary.observe ht).decideOutcome⟩

end Call

-- By induction on the calls, the oldest one first.
theorem Inv.run (h : Inv expected [] db r)
    (hc : ∀ call ∈ calls, 0 < call.evaluation.stabilityWindow ∧ call.time ≠ 0) :
    ∃ r', Inv expected (evaluateAll expected db calls).2 (evaluateAll expected db calls).1 r' := by
  induction calls
  case nil => exact ⟨r, h⟩
  case cons call calls hi =>
    have ⟨r', h'⟩ := hi fun c hm => hc c (List.mem_cons_of_mem _ hm)
    have ⟨hw, ht⟩ := hc call List.mem_cons_self
    exact h'.step hw ht

-- What a decision that changes the state of the rollout tells about the history.
theorem Summary.outcome (h : Summary history r)
    (hh : evaluation.healthy = true → (healthySince? history).isSome)
    (hd : (AppRolloutService.decideOutcome evaluation t r).2) :
    let decided := (AppRolloutService.decideOutcome evaluation t r).1
    (decided.state = .complete → decided.completedAt = t ∧ evaluation.healthy ∧
      ∃ s ∈ healthySince? history, s + evaluation.stabilityWindow ≤ t ∧
        s + evaluation.stabilityWindow ≤ r.deadline) ∧
    (decided.state = .failed → r.deadline ≤ t ∧ (¬evaluation.healthy ∨
      ∃ s ∈ healthySince? history, t < s + evaluation.stabilityWindow ∨
        r.deadline < s + evaluation.stabilityWindow)) := by
  have healthy (hh' : evaluation.healthy = true) :
      ∃ s ∈ healthySince? history, r.healthySince = s ∧ s ≠ 0 := by
    obtain ⟨s, hs⟩ := Option.isSome_iff_exists.mp (hh hh')
    exact ⟨s, hs, by rw [h.healthySince, hs]; rfl, h.healthySince?_ne_zero hs⟩
  simp only [AppRolloutService.decideOutcome] at hd ⊢
  split
  case isTrue hstable =>
    obtain ⟨hh, _, ht, hdl⟩ := hstable
    obtain ⟨s, hs, he, _⟩ := healthy hh
    rw [he] at ht hdl
    exact ⟨fun _ => ⟨rfl, hh, s, hs, ht, hdl⟩, fun hf => by cases hf⟩
  case isFalse hunstable =>
    rw [if_neg hunstable] at hd
    split
    case isFalse hdl => simp [hdl] at hd
    case isTrue hdl =>
      refine ⟨fun hc => (by cases hc), fun _ => ⟨hdl, ?_⟩⟩
      by_cases hh : evaluation.healthy = true
      case neg => exact .inl hh
      case pos =>
        obtain ⟨s, hs, he, hn⟩ := healthy hh
        rw [he] at hunstable
        refine .inr ⟨s, hs, ?_⟩
        by_contra hc
        obtain ⟨h₁, h₂⟩ := not_or.mp hc
        exact hunstable ⟨hh, hn, not_lt.mp h₁, not_lt.mp h₂⟩

theorem Summary.ignored (h : Summary history r) {o : Observation} (ho : o ∈ history.head?)
    (ht : t < o.time) : Ignored r t := by
  have he : r.heartbeatEvaluatedAt = o.time := by rw [h.evaluatedAt, ho]; rfl
  rw [Ignored, he]
  exact .inr ⟨h.times o (List.mem_of_mem_head? ho), ht⟩

-- A call that completes the rollout has seen it healthy for the stability window and before the
-- deadline, one that fails it has not and the deadline has passed, and one older than the last
-- accepted one changes nothing.
theorem heartbeat_completion_sound {transitioned : Bool} {rollouts : RolloutStore}
    (hfound : db.rollout? (Text.trimSpace expected.app) = some r₀)
    (hmatch : HeartbeatEpochMatches r₀ expected) (hsince : r₀.healthySince = 0)
    (hevaluated : r₀.heartbeatEvaluatedAt = 0)
    (hcalls : ∀ c ∈ call :: calls, 0 < c.evaluation.stabilityWindow ∧ c.time ≠ 0)
    (hcall : evaluateHeartbeatRollout call.now expected call.evaluation
      (evaluateAll expected db calls).1.rollouts = .ok (rollouts, r, transitioned)) :
    let history := (evaluateAll expected db calls).2
    let since? := healthySince? (call.observation :: history)
    let window := call.evaluation.stabilityWindow
    (transitioned → r.state = .complete → r.completedAt = call.time ∧ call.evaluation.healthy ∧
      ∃ s ∈ since?, s + window ≤ call.time ∧ s + window ≤ r.deadline) ∧
    (transitioned → r.state = .failed → r.deadline ≤ call.time ∧ (¬call.evaluation.healthy ∨
      ∃ s ∈ since?, call.time < s + window ∨ r.deadline < s + window)) ∧
    (∀ o ∈ history.head?, call.time < o.time →
      ¬transitioned ∧ rollouts = (evaluateAll expected db calls).1.rollouts) := by
  have ⟨hw, ht⟩ := hcalls call List.mem_cons_self
  have hstart : Inv expected [] db r₀ := ⟨hfound, hmatch, hevaluated, hsince, nofun⟩
  have ⟨r', h⟩ := hstart.run fun c hm => hcalls c (List.mem_cons_of_mem _ hm)
  rw [evaluateHeartbeatRollout_eq h.found h.epoch hw (t := call.time) rfl rfl] at hcall
  dsimp only
  split at hcall
  case isTrue hi =>
    cases hcall
    exact ⟨nofun, nofun, fun _ _ _ => ⟨nofun, rfl⟩⟩
  case isFalse hi =>
    cases hcall
    have hsum := h.summary.observe ht
    have hh : call.evaluation.healthy = true → (healthySince?
        (call.observation :: (evaluateAll expected db calls).2)).isSome := by
      intro hh
      simp [Observation.healthySince?_cons, Call.observation, hh]
    rw [(AppRollout.SameEpoch.evaluate call.evaluation call.time r').deadline]
    exact ⟨fun hd => (hsum.outcome hh hd).left, fun hd => (hsum.outcome hh hd).right,
      fun o ho hlt => absurd (h.summary.ignored ho hlt) hi⟩

section Demo

def demoRollout : AppRollout where
  app := "demo"
  version := "1.0.0"
  state := .restarting
  mode := .heartbeat
  targetSourceVersion := "r1"
  minimumHealthyInstances := 1
  createdAt := 1 * millisecond
  enrollmentEndsAt := 2 * millisecond
  deadline := 15 * millisecond

def demoDB : RolloutDB :=
  after {} 0 (.create demoRollout)

def demoCall (t : Int) : Call where
  now := 0
  evaluation := { healthy := true, stabilityWindow := 10 * millisecond, evaluatedAt := t }

-- Healthy calls at 2 ms and at 12 ms complete the rollout.
theorem heartbeat_completion_sound_demo :
    ∃ rollouts r, evaluateHeartbeatRollout 0 demoRollout
      (demoCall (12 * millisecond)).evaluation
      (evaluateAll demoRollout demoDB [demoCall (2 * millisecond)]).1.rollouts =
        .ok (rollouts, r, true) ∧ r.state = .complete ∧
    ∃ s ∈ healthySince? ((demoCall (12 * millisecond)).observation ::
        (evaluateAll demoRollout demoDB [demoCall (2 * millisecond)]).2),
      s + 10 * millisecond ≤ 12 * millisecond ∧
      s + 10 * millisecond ≤ r.deadline := by
  have ⟨⟨rollouts, r, transitioned⟩, hcall, ho⟩ := Except.eq_ok_of_toOption
    (x := evaluateHeartbeatRollout 0 demoRollout (demoCall (12 * millisecond)).evaluation
      (evaluateAll demoRollout demoDB [demoCall (2 * millisecond)]).1.rollouts)
    (f := fun x => (x.2.1.state, x.2.2)) (b := (.complete, true)) (by decide +kernel)
  have ⟨hstate, ht⟩ := Prod.mk.inj ho
  dsimp only at hstate ht
  subst ht
  have hfound : demoDB.rollout? (Text.trimSpace demoRollout.app) = some demoRollout := by
    decide +kernel
  have hcalls : ∀ c ∈ [demoCall (12 * millisecond), demoCall (2 * millisecond)],
      0 < c.evaluation.stabilityWindow ∧ c.time ≠ 0 := by decide +kernel
  have hs := heartbeat_completion_sound hfound (by decide +kernel) rfl rfl hcalls hcall
  have ⟨_, _, s, hs, h₁, h₂⟩ := hs.left rfl hstate
  exact ⟨rollouts, r, hcall, hstate, s, hs, h₁, h₂⟩

-- The first healthy call is truncated to the zero time and does not count. The rollout fails
-- although it was healthy for long enough.
theorem heartbeat_zero_time_fails :
    let calls := [demoCall (10 * millisecond), demoCall 500000]
    let last := demoCall (15 * millisecond)
    (evaluateHeartbeatRollout 0 demoRollout last.evaluation
      (evaluateAll demoRollout demoDB calls).1.rollouts).toOption.map
        (fun x => (x.2.1.state, x.2.1.deadline, x.2.2)) =
      some (.failed, 15 * millisecond, true) ∧
    last.evaluation.healthy ∧
    healthySince? (last.observation :: (evaluateAll demoRollout demoDB calls).2) =
      some 0 ∧
    0 + last.evaluation.stabilityWindow ≤ last.time ∧
    0 + last.evaluation.stabilityWindow ≤ 15 * millisecond := by
  decide +kernel

end Demo
end HeartbeatRollout
end Coredata
