import GestaltModel.AppRegistry.CompletionGate
import GestaltModel.AppRegistry.Theorems.Poller
import GestaltModel.Coredata.Theorems.Health

namespace AppRegistry.CompletionGate

open Coredata Interleaving ServiceProgram CatalogPoller AppRolloutService
open ServiceCall (Response exec_record setRollouts writes_cases)

variable {ι κ : Type} {pollers : ι → CatalogPoller} {i : ι} {c : ι ⊕ κ} {q : ServiceCall} {a : Answer}
variable {s s' s₁ s₂ s₃ : ServiceMemory (GateRecord ι)} {r r₀ : AppRollout}

structure Inv (pollers : ι → CatalogPoller) (s : ServiceMemory (GateRecord ι)) : Prop where
  named : s.db.Named
  health : s.db.HealthRecorded
  gated : ∀ e ∈ s.record.completions, (pollers e.replica).beforeRolloutComplete →
    e.approval = some (e.app, e.version)

structure Rely (c : ι ⊕ κ) (s s' : ServiceMemory (GateRecord ι)) : Prop where
  later : s.db.Later s'.db
  approval : ∀ i, c = .inl i → s'.record.approval i = s.record.approval i

structure Guar (c : ι ⊕ κ) (s s' : ServiceMemory (GateRecord ι)) : Prop where
  later : s.db.Later s'.db
  approval : ∀ i, c ≠ .inl i → s'.record.approval i = s.record.approval i

theorem Rely.refl (c : ι ⊕ κ) (s : ServiceMemory (GateRecord ι)) : Rely c s s :=
  ⟨.refl _, fun _ _ => rfl⟩

theorem Rely.trans (h₁ : Rely c s₁ s₂) (h₂ : Rely c s₂ s₃) : Rely c s₁ s₃ where
  later := h₁.later.trans h₂.later
  approval i h := (h₂.approval i h).trans (h₁.approval i h)

-- A rollout that was read at some time in the past.
structure Seen (r : AppRollout) (s : ServiceMemory (GateRecord ι)) : Prop where
  named : r.Named
  health : r.HealthRecorded
  found : ∃ r', s.db.rollout? r.app = some r' ∧ r.Becomes r'

theorem Seen.later (h : Seen r s) (hl : s.db.Later s'.db) : Seen r s' where
  named := h.named
  health := h.health
  found := by
    have ⟨r₁, hr₁, hb₁⟩ := h.found
    have ⟨r₂, hr₂, hb₂⟩ := hl r.app r₁ hr₁
    exact ⟨r₂, hr₂, hb₁.trans hb₂⟩

theorem Inv.seen (h : Inv pollers s) (hr : s.db.rollout? r.app = some r) : Seen r s :=
  ⟨h.named _ _ hr, h.health _ _ hr, r, hr, .inr (.refl r)⟩

theorem Inv.seen_of_active (h : Inv pollers s) (hr : r ∈ listActive s.db.rollouts) : Seen r s := by
  have ⟨rec, hm, he⟩ := List.mem_map.mp (List.mem_filter.mp hr).left
  refine h.seen ?_
  rw [← he]
  exact Option.map_eq_some_iff.mpr ⟨rec, ObjectStore.mem_getAll.mp hm, rfl⟩

theorem Inv.seen_of_mark {mark : Mark} (h : Inv pollers s) (hi : Inv pollers s')
    (hm : markForRollout time mark expected s.db.rollouts = .ok (rollouts, r))
    (hs : s'.db = { s.db with rollouts }) : Seen r s' := by
  have ⟨r₀, hf, _, _, hx⟩ := transition_eq_ok hm
  rcases hx with ⟨he, hr⟩ | ⟨_, hr, he⟩
  case inl =>
    refine hi.seen ?_
    rw [hs, he, hr, RolloutDB.app_of_rollout? hf]
    exact hf
  case inr =>
    have hep := AppRollout.SameEpoch.mark time mark r₀
    have hput : s'.db.rollout? r.app = some (stored r) := by
      rw [hs, he]
      exact RolloutDB.rollout?_put_self rfl
    have hmode : r.mode.orEnrollment = r.mode := by
      rw [hr, hep.mode]
      exact RolloutDB.orEnrollment_of_rollout? hf
    refine ⟨hr ▸ hep.named (h.named _ _ hf), ?_, _, hput, .inr (.of_stored hmode)⟩
    have := h.health _ _ hf
    subst hr
    cases mark <;> exact this

-- The calls that need no justification.
def Quiet : ServiceCall → Prop
  | .create _ | .createAppRollout _ | .evaluateHeartbeatRollout _ _ => False
  | _ => True

theorem Quiet.operation (hq : Quiet q) (hg : upToDate c q s) {time : Int} {op : RolloutOperation}
    (ho : q.operation? a = some (time, op)) : op.Dated time ∧ s.db.Renews time op := by
  cases q <;> cases ho
  case create | createAppRollout | evaluateHeartbeatRollout => contradiction
  case mark | markForRollout => exact ⟨trivial, nofun⟩
  case operate => exact hg

theorem exec_rollouts (hi : Inv pollers s)
    (ho : ∀ {time op}, q.operation? a = some (time, op) → op.Dated time ∧ s.db.Renews time op) :
    s.db.Later (q.exec a s).1.db ∧ (q.exec a s).1.db.Named ∧ (q.exec a s).1.db.HealthRecorded := by
  rcases q.exec_db with he | ⟨time, op, hop, he⟩ <;> rw [he]
  case inl => exact ⟨.refl _, hi.named, hi.health⟩
  case inr =>
    have ⟨hd, hr⟩ := ho hop
    exact ⟨.after hd hr, hi.named.after, hi.health.after hd⟩

variable [DecidableEq ι]

theorem compatible : Compatible (semantics ι κ) (Inv pollers) Rely Guar where
  refl := .refl
  trans _ := .trans
  interfere hij _ _ h := ⟨h.later, fun i hj => h.approval i fun hi => hij (hi.trans hj.symm)⟩
  env_inv a  := a.elim
  env_rely a := a.elim

abbrev GateSafe (pollers : ι → CatalogPoller) (c : ι ⊕ κ)
    (post : α → ServiceMemory (GateRecord ι) → Prop) (prog : ServiceProgram α)
    (s : ServiceMemory (GateRecord ι)) : Prop :=
  Safe (semantics ι κ) upToDate (Inv pollers) c (Rely c) (Guar c) post prog s

section Calls

variable {post : α → ServiceMemory (GateRecord ι) → Prop}

theorem note_approval (h : c ≠ .inl i) (res : q.Response) :
    (note c q res s).approval i = s.record.approval i := by
  cases c
  case inr k => rfl
  case inl j =>
    have hj : i ≠ j := fun hi => h (hi ▸ rfl)
    cases q
    case listFreshBySourceVersion => exact Function.update_of_ne hj ..
    case beforeRolloutComplete =>
      match res with
      | .ok true  => exact Function.update_of_ne hj ..
      | .ok false => rfl
      | .error _  => rfl
    case evaluateHeartbeatRollout =>
      match res with
      | .ok (_, true)  => simp only [note]; split <;> rfl
      | .ok (_, false) => rfl
      | .error _       => rfl
    all_goals rfl

theorem note_completions (hq : Quiet q) (res : q.Response) :
    (note c q res s).completions = s.record.completions := by
  cases c
  case inr k => rfl
  case inl j =>
    cases q
    case evaluateHeartbeatRollout => contradiction
    case beforeRolloutComplete =>
      match res with
      | .ok true  => rfl
      | .ok false => rfl
      | .error _  => rfl
    all_goals rfl

theorem quiet_exec (hq : Quiet q) (hi : Inv pollers s) (hg : upToDate c q s) :
    Inv pollers ((semantics ι κ).exec c q a s).1 ∧ Guar c s ((semantics ι κ).exec c q a s).1 := by
  have ⟨hl, hn, hh⟩ := exec_rollouts (a := a) hi (hq.operation hg)
  refine ⟨⟨hn, hh, ?_⟩, hl, fun i hc => ?_⟩
  · simp only [note_completions hq, exec_record]
    exact hi.gated
  · simp only [note_approval hc, exec_record]

theorem quiet_safe {k : q.Response → ServiceProgram α} (hq : Quiet q)
    (h : ∀ s' res, s.db.Later s'.db → GateSafe pollers c post (k res) s') :
    GateSafe pollers c post (.call q k) s := by
  intro s' hr hi hg a
  have ⟨hinv, hguar⟩ := quiet_exec (a := a) hq hi hg
  exact ⟨hinv, hguar, h _ _ (hr.later.trans hguar.later)⟩

theorem quiet_program (hp : prog.Only Quiet) :
    GateSafe pollers c (fun _ _ => True) prog s :=
  .of_only (fun _ _ hq hi hg _ => quiet_exec hq hi hg) hp

theorem markForRollout_safe {mark : Mark}
    {k : (ServiceCall.markForRollout mark r).Response → ServiceProgram α}
    (failed : ∀ s' f, GateSafe pollers c post (k (.error f)) s')
    (marked : ∀ s' r', Seen r' s' → GateSafe pollers c post (k (.ok r')) s') :
    GateSafe pollers c post (.call (.markForRollout mark r) k) s := by
  intro s' _ hi hg a
  have ⟨hinv, hguar⟩ := quiet_exec (a := a) (q := .markForRollout mark r) trivial hi hg
  refine ⟨hinv, hguar, ?_⟩
  rcases writes_cases a s' (markForRollout a.time mark r s'.db.rollouts)
    (setRollouts s') with ⟨e, he⟩ | ⟨rollouts, r', hm, he⟩
  case inl =>
    simp only [ServiceCall.exec, he]
    exact failed _ e
  case inr =>
    simp only [ServiceCall.exec, he] at hinv ⊢
    exact marked _ r' (hi.seen_of_mark hinv hm rfl)

end Calls

section Gate

variable {p : CatalogPoller} {evaluation : HeartbeatRolloutEvaluation} {healthy : Bool} {t now : Int}

-- If a healthy rollout can complete as far as replica `i` knows, then the completion is approved.
def Approved (p : CatalogPoller) (i : ι) (r : AppRollout) (now : Int) (healthy : Bool)
    (s : ServiceMemory (GateRecord ι)) : Prop :=
  p.beforeRolloutComplete → healthy → p.Completable r now →
    s.record.approval i = some (r.app, r.version)

omit [DecidableEq ι] in
theorem Approved.rely (h : Approved p i r now healthy s) (hr : Rely (κ := κ) (.inl i) s s') :
    Approved p i r now healthy s' :=
  fun hb hh hc => (hr.approval i rfl).trans (h hb hh hc)

theorem prepareRolloutCompletion_safe :
    GateSafe (κ := κ) pollers (.inl i)
      (fun res s => (pollers i).beforeRolloutComplete → res = .ok true →
        s.record.approval i = some (r.app, r.version))
      ((pollers i).prepareRolloutCompletion r) s := by
  rw [prepareRolloutCompletion]
  split
  case isTrue hb => exact fun _ _ _ hb' => absurd hb' hb
  case isFalse =>
    rw [invoke_bind]
    intro s' _ hi hg a
    obtain ⟨hinv, hguar⟩ :=
      quiet_exec (a := a) (q := .beforeRolloutComplete r.app r.version) trivial hi hg
    refine ⟨hinv, hguar, fun s'' hr _ _ hres => ?_⟩
    rw [hr.approval i rfl]
    simp only [ServiceCall.exec] at hres ⊢
    rw [Except.context_eq_ok.mp hres]
    exact Function.update_self ..

theorem gateHealthy_safe :
    GateSafe (κ := κ) pollers (.inl i)
      (fun res s => ∀ h, res = .ok (some h) → Approved (pollers i) i r now h s)
      ((pollers i).gateHealthy r now healthy) s := by
  rw [gateHealthy]
  split
  case isFalse hn =>
    intro _ _ _ h hres
    cases hres
    exact fun _ hh hc => absurd ⟨hh, hc⟩ hn
  case isTrue =>
    refine .bind (.refl _) prepareRolloutCompletion_safe fun res s _ hp => ?_
    match res with
    | .error e =>
      dsimp only
      split
      · exact fun _ _ _ _ => nofun
      · intro _ _ _ h hres
        cases hres
        exact fun _ => nofun
    | .ok false => exact fun _ _ _ _ => nofun
    | .ok true  =>
      intro s' hr _ h hres
      cases hres
      exact Approved.rely (fun hb _ _ => hp hb rfl) hr

-- What completes in the store could complete as far as the replica knows, because it has not missed
-- that the rollout became healthy.
theorem completable_of_complete (hb : r.Becomes r₀)
    (hm : HeartbeatEpochMatches r₀ r) (hr : r.HealthRecorded)
    (hu : r₀.healthySince ≠ 0 → r.healthySince ≠ 0)
    (hp : evaluation.stabilityWindow = p.healthyStabilityWindow) (hw : 0 < p.healthyStabilityWindow)
    (ht : t ≤ now) (hd : (rollout, true) = decideOutcome evaluation t (observe evaluation t r₀))
    (hc : rollout.state = .complete) : evaluation.healthy ∧ p.Completable r now := by
  simp only [decideOutcome] at hd
  split at hd
  case isFalse =>
    split at hd
    · cases hd
      contradiction
    · cases hd
  case isTrue h =>
    obtain ⟨hh, _, hst, hdl⟩ := h
    have hs : (observe evaluation t r₀).healthySince =
        if r₀.healthySince = 0 then t else r₀.healthySince := if_pos hh
    rw [hs] at hst hdl
    have hdl : _ ≤ r₀.deadline := hdl
    by_cases hs₀ : r₀.healthySince = 0
    case pos =>
      rw [if_pos hs₀] at hst
      omega
    case neg =>
      rw [if_neg hs₀] at hst hdl
      have hc : r.HealthContinues r₀ := hb.resolve_left (by rw [hm.right.left]; exact lt_irrefl _)
      have hle := hc.healthySince_le hr (hu hs₀) hs₀
      have hdeadline := hc.epoch.deadline
      refine ⟨hh, hu hs₀, ?_, ?_⟩ <;> omega

omit [DecidableEq ι] in
theorem completion_gated (hseen : Seen r s) (hi : Inv pollers s)
    (hg : upToDate (κ := κ) (.inl i) (.evaluateHeartbeatRollout r evaluation) s)
    (ha : Approved (pollers i) i r evaluation.evaluatedAt evaluation.healthy s)
    (hp : evaluation.stabilityWindow = (pollers i).healthyStabilityWindow)
    (hw : 0 < (pollers i).healthyStabilityWindow) {rollouts : RolloutStore} {rollout : AppRollout}
    (hx : evaluateHeartbeatRollout now r evaluation s.db.rollouts = .ok (rollouts, rollout, true))
    (hc : rollout.state = .complete) (hb : (pollers i).beforeRolloutComplete) :
    s.record.approval i = some (rollout.app, rollout.version) := by
  have ⟨ht, hu⟩ := hg
  have ⟨r₀, hf, hm, hx⟩ := evaluateHeartbeatRollout_eq_ok hx
  have ⟨_, _, hd⟩ := hx.resolve_left (fun h => nomatch h.right.right.right)
  have ⟨r', hr', hbec⟩ := hseen.found
  have happ := hseen.named.app
  rw [happ] at hf
  cases Option.some.inj (hr'.symm.trans hf)
  have hle : normalizedRolloutTime now evaluation.evaluatedAt ≤ evaluation.evaluatedAt := by
    rw [normalizedRolloutTime_eq ht]
    exact Time.truncate_le (by decide) _
  have ⟨hh, hcomp⟩ := completable_of_complete hbec hm hseen.health
    (hu r₀ (happ.symm ▸ hf)) hp hw hle hd hc
  have hep := AppRollout.SameEpoch.evaluate evaluation
    (normalizedRolloutTime now evaluation.evaluatedAt) r₀
  rw [← hd] at hep
  have hversion : r₀.version = r.version := by
    rw [← (hi.named _ _ hf).version, hm.left, hseen.named.version]
  rw [ha hb hh hcomp, hep.app, hep.version, RolloutDB.app_of_rollout? hf, hversion]

theorem evaluate_exec (hseen : Seen r s) (hi : Inv pollers s)
    (hg : upToDate (κ := κ) (.inl i) (.evaluateHeartbeatRollout r evaluation) s)
    (ha : Approved (pollers i) i r evaluation.evaluatedAt evaluation.healthy s)
    (hp : evaluation.stabilityWindow = (pollers i).healthyStabilityWindow)
    (hw : 0 < (pollers i).healthyStabilityWindow) :
    let s' := ((semantics ι κ).exec (.inl i) (.evaluateHeartbeatRollout r evaluation) a s).1
    Inv pollers s' ∧ Guar (κ := κ) (.inl i) s s' := by
  have hop {time op} (ho : (ServiceCall.evaluateHeartbeatRollout r evaluation).operation? a =
      some (time, op)) : op.Dated time ∧ s.db.Renews time op := by
    cases ho
    refine ⟨?_, nofun⟩
    rw [RolloutOperation.Dated, normalizedRolloutTime_eq hg.left]
    exact hg.left
  have ⟨hl, hn, hh⟩ := exec_rollouts hi hop
  refine ⟨⟨hn, hh, fun e he hb => ?_⟩, hl, fun j hj => ?_⟩
  case refine_2 => simp only [note_approval hj, exec_record]
  case refine_1 =>
    rcases writes_cases a s (evaluateHeartbeatRollout a.time r evaluation s.db.rollouts)
      (setRollouts s) with ⟨f, hx⟩ | ⟨rollouts, ⟨rollout, transitioned⟩, hok, hx⟩
    all_goals simp only [ServiceCall.exec, hx] at he
    case inl => exact hi.gated e he hb
    case inr =>
      cases transitioned
      case false => exact hi.gated e he hb
      case true =>
        simp only [note] at he
        split at he
        case isFalse => exact hi.gated e he hb
        case isTrue hc =>
          rcases List.mem_cons.mp he with he | he
          case inr => exact hi.gated e he hb
          case inl =>
            subst he
            exact completion_gated hseen hi hg ha hp hw hok hc hb

end Gate

section Programs

variable {p : CatalogPoller}

theorem quiet_of_read (h : q.IsRead) : Quiet q := by
  cases h <;> trivial

theorem record_quiet (id app version : String) (completedAt failedAt : Int) :
    (RolloutOutcomes.record id app version completedAt failedAt).Only Quiet := by
  rw [RolloutOutcomes.record]
  split
  case h_1 => exact .ret _
  case h_2 =>
    rw [RolloutOutcomes.recordChecked, invoke_bind]
    refine .call trivial fun res => ?_
    cases res
    case error => exact .ret _
    case ok =>
      refine .bind ?_ fun res => ?_
      · rw [RolloutOutcomes.get, invoke_bind]
        refine .call trivial fun res => ?_
        cases res <;> dsimp only
        case ok    => exact .ret _
        case error => split <;> exact .ret _
      · cases res
        case ok    => exact .ret _
        case error =>
          dsimp only
          split
          · exact .ret _
          · rw [invoke_bind]
            refine .call trivial fun res => ?_
            cases res <;> dsimp only
            case ok    => exact .ret _
            case error => split <;> exact .ret _

theorem recordRolloutOutcome_quiet (r : AppRollout) : (p.recordRolloutOutcome r).Only Quiet := by
  rw [recordRolloutOutcome]
  split; · exact .ret _
  split; · exact .ret _
  rw [invoke_bind]
  refine .call trivial fun res => ?_
  cases res
  case error => exact .ret _
  case ok id =>
    dsimp only
    split
    · exact .ret _
    · exact .bind (record_quiet ..) fun _ => .ret _

theorem markTerminal_quiet {mark : Mark} :
    (p.markTerminal mark context r).Only Quiet := by
  rw [markTerminal, invoke_bind]
  refine .call trivial fun res => ?_
  cases res
  case ok => exact .bind (recordRolloutOutcome_quiet _) fun _ => .ret _
  case error =>
    dsimp only
    split <;> exact .ret _

theorem evaluateRollout_safe (hs : Seen r s)
    (ha : Approved (pollers i) i r evaluation.evaluatedAt evaluation.healthy s)
    (hp : evaluation.stabilityWindow = (pollers i).healthyStabilityWindow)
    (hw : 0 < (pollers i).healthyStabilityWindow) :
    GateSafe (κ := κ) pollers (.inl i) (fun _ _ => True)
      ((pollers i).evaluateRollout r evaluation) s := by
  rw [evaluateRollout, invoke_bind]
  intro s' hr hi hg a
  have ⟨hinv, hguar⟩ := evaluate_exec (a := a) (hs.later hr.later) hi hg (ha.rely hr) hp hw
  refine ⟨hinv, hguar, quiet_program ?_⟩
  generalize ((semantics ι κ).exec (.inl i) (.evaluateHeartbeatRollout r evaluation) a s').2 = res
  match res with
  | .ok (_, false) => exact .ret _
  | .ok (_, true) => exact .bind (recordRolloutOutcome_quiet _) fun _ => .ret _
  | .error _ =>
    dsimp only
    split <;> exact .ret _

theorem Seen.frame (hs : Seen r s) (h : GateSafe pollers c post prog s) :
    GateSafe pollers c (fun a s => post a s ∧ Seen r s) prog s :=
  Safe.frame (fun hs hr _ => hs.later hr.later) (fun hs hg _ => hs.later hg.later) h hs

theorem updateHeartbeatRolloutOutcome_safe (hs : Seen r s) :
    GateSafe (κ := κ) pollers (.inl i) (fun _ _ => True)
      ((pollers i).updateHeartbeatRolloutOutcome r) s := by
  rw [updateHeartbeatRolloutOutcome]
  split; · exact .done
  split; · exact .done
  case isFalse hw =>
    have hw := not_le.mp (not_or.mp hw).right
    refine .bind (.refl _) (hs.frame (quiet_program (.call trivial fun _ => .ret _))) fun t s₁ _ hs => ?_
    rw [invoke_bind]
    refine quiet_safe trivial fun s₂ res hl => ?_
    have hs := hs.right.later hl
    cases res
    case error => exact .done
    case ok heartbeats =>
      refine .bind (.refl _) (hs.frame gateHealthy_safe) fun res s₃ _ hres => ?_
      match res with
      | .error _ => exact .done
      | .ok none => exact .done
      | .ok (some healthy) =>
        exact evaluateRollout_safe hres.right (hres.left healthy rfl) rfl hw

theorem pollerRules : Rules (note (κ := κ)) upToDate (Inv pollers) (.inl i) (Rely (κ := κ) (.inl i))
    (Guar (κ := κ) (.inl i)) (pollers i) Seen where
  refl := .refl _
  seen_rely h hr _ := h.later hr.later
  seen_guar h hg _ := h.later hg.later
  reads _ _ h hi hg _ := quiet_exec (quiet_of_read h) hi hg
  listed hi _     := hi.seen_of_active
  restarted := markForRollout_safe (fun _ _ _ _ _ _ => nofun) fun _ _ hs _ hr _ _ he => by
    cases he
    exact hs.later hr.later
  terminal := quiet_program markTerminal_quiet
  heartbeat := updateHeartbeatRolloutOutcome_safe

theorem operate_quiet (operations : List (Int × RolloutOperation)) :
    (operate operations).Only Quiet := by
  induction operations
  case nil => exact .ret _
  case cons o os hi => exact .call trivial fun _ => hi

-- Completions are approved, as long as no replica has missed that the rollout became healthy.
theorem completions_approved {passes : ι → List Pass} {operations : κ → List (Int × RolloutOperation)}
    [DecidableEq κ]
    {c : Config (ι ⊕ κ) ServiceCall Response Unit (ServiceMemory (GateRecord ι))}
    (h : Reaches (semantics ι κ) upToDate (config pollers passes operations) c) {e : Completion ι}
    (he : e ∈ c.mem.record.completions) (hb : (pollers e.replica).beforeRolloutComplete) :
    e.approval = some (e.app, e.version) := by
  have hs : Sound (semantics ι κ) upToDate (Inv pollers) Rely Guar (fun _ _ _ => True)
      (config pollers passes operations) := by
    refine ⟨⟨.empty, (fun _ _ h => nomatch h), (fun _ h => nomatch h)⟩, fun c => ?_⟩
    cases c
    case inl i => exact pollerRules.run_safe
    case inr k => exact quiet_program (operate_quiet _)
  exact (hs.reaches compatible h).holds.gated e he hb

end Programs

section Demo

def demoRollout : AppRollout where
  app := "demo"
  version := "1.0.0"
  state := .restarting
  mode := .heartbeat
  targetSourceVersion := "r1"
  minimumHealthyInstances := 1
  createdAt := 1 * Time.millisecond
  enrollmentEndsAt := 2 * Time.millisecond
  deadline := 100 * Time.millisecond

def demoPoller : CatalogPoller where
  heartbeatTTL := Time.second
  healthyStabilityWindow := 10 * Time.millisecond

def demoConfig : Config (Bool ⊕ Unit) ServiceCall Response Unit
    (ServiceMemory (GateRecord Bool)) :=
  config (fun _ => demoPoller) (fun _ => [.evaluate, .evaluate]) (fun _ => [(0, .create demoRollout)])

def demoHeartbeat : GestaltdInstanceHeartbeat where
  sourceVersion := "r1"
  heartbeatAt := 0
  apps := Finmap.singleton "demo" ⟨.running, "1.0.0"⟩

-- A replica reads the clock, finds a healthy fleet, and goes on with some more calls.
def demoEvaluate (i : Bool) (time : Int) (calls : Nat) : List (Event (semantics Bool Unit)) :=
  [.call (.inl i) { time }, .call (.inl i) { heartbeats := [demoHeartbeat] }] ++
  List.replicate calls (.call (.inl i) {})

def demoGated : List (Event (semantics Bool Unit)) :=
  [.call (.inr ()) {}, .call (.inl true) {}] ++ demoEvaluate true (10 * Time.millisecond) 1 ++
  [.call (.inl true) {}] ++ demoEvaluate true (20 * Time.millisecond) 2

theorem completions_approved_demo :
    ∃ c, Reaches (semantics Bool Unit) upToDate demoConfig c ∧
    ∃ e ∈ c.mem.record.completions, e.approval = some (e.app, e.version) := by
  have ⟨c, hr, e, he⟩ : ∃ c, Reaches (semantics Bool Unit) upToDate demoConfig c ∧
      ∃ e, e ∈ c.mem.record.completions.head? :=
    have ⟨c, hr, he⟩ : ∃ c, Reaches (semantics Bool Unit) upToDate demoConfig c ∧
        c.mem.record.completions.head?.isSome :=
      Config.exists_reaches_of_run demoGated (by decide +kernel)
    ⟨c, hr, Option.isSome_iff_exists.mp he⟩
  have he := List.mem_of_mem_head? he
  exact ⟨c, hr, e, he, completions_approved hr he rfl⟩

-- The first replica reads the rollout before the second one has seen it healthy, and evaluates it
-- so late that this completes it.
def demoStale : List (Event (semantics Bool Unit)) :=
  [.call (.inr ()) {}, .call (.inl false) {}, .call (.inl true) {}] ++
  demoEvaluate true (10 * Time.millisecond) 1 ++ demoEvaluate false (20 * Time.millisecond) 1

theorem stale_read_skips_gate : ∃ c, Reaches (semantics Bool Unit) unguarded demoConfig c ∧
    demoPoller.beforeRolloutComplete ∧
    c.mem.record.completions = [⟨false, "demo", "1.0.0", none⟩] :=
  Config.exists_reaches_of_run demoStale (by decide +kernel)

end Demo
end AppRegistry.CompletionGate
