import GestaltModel.AppRegistry.LocalRestart
import GestaltModel.Interleaving.Theorems.RelyGuarantee

namespace AppRegistry

open Coredata Interleaving RestartProgram RestartCall
open Function (update update_of_ne update_self)

variable {q : RestartCall} {restartBlocked configured : Bool}

-- The calls that neither stop nor start an app, nor change which stop times are remembered.
def RestartCall.Neutral : RestartCall → Prop
  | stopApp _ | startApp _ _ | rememberStoppedAt _ _ | forgetStoppedAt _ => False
  | _ => True

theorem RestartCall.write_materializations (x : Except Failure (MaterializationMap × α)) :
    ∃ materializations, (write a s x).1 = { s with materializations } := by
  simp only [write]
  split
  · exact ⟨_, rfl⟩
  · exact ⟨_, rfl⟩

theorem RestartCall.Neutral.exec (h : q.Neutral) (a : Report) (s : RestartMemory) :
    ∃ materializations listed, (q.exec a s).1 = { s with materializations, listed } := by
  cases q
  case stopApp | startApp | rememberStoppedAt | forgetStoppedAt => exact h.elim
  case acknowledge | mark | recordFailure =>
    obtain ⟨m, hm⟩ := write_materializations (a := a) (s := s) _
    exact ⟨m, _, hm⟩
  case listByInstance =>
    simp only [RestartCall.exec]
    split <;> exact ⟨_, _, rfl⟩
  all_goals exact ⟨_, _, rfl⟩

namespace LocalPoller

section Neutral

variable {p : LocalPoller}

theorem send_neutral {f : q.Response → RestartProgram α} (h : q.Neutral)
    (hf : ∀ r, (f r).Only Neutral) : (send q >>= f).Only Neutral :=
  .call h hf

theorem now_neutral : now.Only Neutral :=
  .call trivial fun _ => .ret _

theorem configured_neutral : (p.configured app).Only Neutral := by
  rw [configured]
  split
  · exact .ret _
  · exact .call trivial .ret

theorem runningVersion_neutral : (p.runningVersion app).Only Neutral := by
  rw [runningVersion]
  split
  · exact .call trivial .ret
  · exact .ret _

theorem acceptsRegistry_neutral :
    (p.acceptsRegistry app registry).Only Neutral := by
  rw [acceptsRegistry]
  split
  · exact .call trivial .ret
  · exact .ret _

theorem acknowledge_neutral : (p.acknowledge app version t).Only Neutral := by
  refine now_neutral.bind fun now => .bind_ok (.call trivial .ret) (fun _ => .ret _) fun r => ?_
  exact .call trivial fun _ => .ret _

theorem ensureAcknowledged_neutral :
    (p.ensureAcknowledged app version t).Only Neutral := by
  refine send_neutral trivial fun r => ?_
  cases r
  case none => exact acknowledge_neutral
  case some =>
    dsimp only
    split
    · exact .ret _
    · exact acknowledge_neutral

theorem loadMaterialization_neutral :
    (loadMaterialization reader app version).Only Neutral :=
  .call trivial fun _ => .ret _

theorem recordMaterialization_neutral :
    (recordMaterialization app version).Only Neutral :=
  now_neutral.bind fun _ => .call trivial fun _ => .ret _

theorem ensureDesiredMaterialized_neutral :
    (p.ensureDesiredMaterialized desired).Only Neutral := by
  rw [ensureDesiredMaterialized]
  split
  · exact .ret _
  · split
    · exact .ret _
    · refine .bind_ok loadMaterialization_neutral (fun _ => .ret _) fun r => ?_
      refine .bind_ok (.call trivial .ret) (fun _ => .ret _) fun r => ?_
      dsimp only
      split
      · exact .ret _
      · exact recordMaterialization_neutral

theorem desiredVersionMaterialized_neutral :
    (p.desiredVersionMaterialized desired).Only Neutral := by
  rw [desiredVersionMaterialized]
  split
  · exact .ret _
  · refine .bind_ok loadMaterialization_neutral (fun _ => .ret _) fun r => ?_
    dsimp only
    split
    · exact .ret _
    · exact .call trivial fun _ => .ret _

theorem pruneSuperseded_neutral : (p.pruneSuperseded app version).Only Neutral := by
  rw [pruneSuperseded]
  split
  · exact .ret _
  · exact .call trivial fun _ => .ret _

theorem supersededPruned_neutral : (p.supersededPruned app version).Only Neutral := by
  rw [supersededPruned]
  split
  · exact .ret _
  · exact .call trivial fun _ => .ret _

theorem markPendingStopped_neutral :
    (markPendingStopped app stoppedAt pending).Only Neutral := by
  induction pending <;> rw [markPendingStopped]
  case nil => exact .ret _
  case cons hi =>
    split
    · exact hi
    · refine .bind_ok loadMaterialization_neutral (fun _ => .ret _) fun r => ?_
      dsimp only
      split
      · exact hi
      · refine .bind_ok (.call trivial .ret) (fun _ => .ret _) fun r => ?_
        exact hi

theorem markAllRestarted_neutral :
    (markAllRestarted app restartedAt pending).Only Neutral := by
  induction pending <;> rw [markAllRestarted]
  case nil => exact .ret _
  case cons hi =>
    refine .bind_ok loadMaterialization_neutral (fun _ => .ret _) fun r => ?_
    dsimp only
    split
    · exact hi
    · refine .bind_ok (.call trivial .ret) (fun _ => .ret _) fun r => ?_
      exact hi

theorem updateAfterRestart_neutral :
    (updateAfterRestart rollout).Only Neutral := by
  cases rollout <;> rw [updateAfterRestart]
  case none => exact .ret _
  case some =>
    split
    · exact .call trivial fun _ => .ret _
    · exact .ret _

theorem checkConverged_neutral :
    (p.checkConverged app version desired).Only Neutral := by
  rw [checkConverged]
  split
  · exact .ret _
  · refine .call trivial fun running => ?_
    refine .bind_ok desiredVersionMaterialized_neutral (fun _ => .ret _) fun r => ?_
    refine .bind_ok supersededPruned_neutral (fun _ => .ret _) fun r => ?_
    dsimp only
    split
    · exact now_neutral.bind fun _ => markAllRestarted_neutral
    · exact .ret _

theorem convergeRemote_neutral :
    (convergeRemote app desired restartBlocked).Only Neutral := by
  rw [convergeRemote]
  split
  · exact .ret _
  · exact now_neutral.bind fun _ => markAllRestarted_neutral

theorem acknowledgeDesired_neutral :
    (p.acknowledgeDesired app version desired acknowledged).Only Neutral := by
  cases acknowledged <;> rw [acknowledgeDesired]
  case none => exact ensureAcknowledged_neutral
  case some =>
    split
    · exact ensureAcknowledged_neutral
    · exact .ret _

theorem endEnrollment_neutral : (endEnrollment app version rollout).Only Neutral := by
  rw [endEnrollment]
  split
  · exact .ret _
  · refine now_neutral.bind fun now => ?_
    split
    · exact .ret _
    · refine send_neutral trivial fun r => ?_
      cases r
      case ok => exact .ret _
      case error =>
        dsimp only
        split <;> exact .ret _

theorem updateRollout_neutral : (updateRollout rollout).Only Neutral := by
  rw [updateRollout]
  split
  · exact .call trivial fun _ => .ret _
  · exact .ret _

theorem reconcileUnaccepted_neutral :
    (reconcileUnaccepted app version rollout).Only Neutral := by
  rw [reconcileUnaccepted]
  split
  · exact .call trivial fun _ => .ret _
  · refine now_neutral.bind fun now => ?_
    split
    · exact .ret _
    · refine now_neutral.bind fun now => send_neutral trivial fun r => ?_
      cases r
      case ok => exact .ret _
      case error =>
        dsimp only
        split <;> exact .ret _

theorem acknowledgeRollout_neutral :
    (p.acknowledgeRollout app version configured rollout).Only Neutral := by
  rw [acknowledgeRollout]
  split
  · exact ensureAcknowledged_neutral.bind fun _ => .ret _
  · exact .ret _

theorem recordFailure_neutral :
    (recordFailure app installations e).Only Neutral := by
  rw [recordFailure]
  split
  · exact .ret _
  · refine send_neutral trivial fun r => ?_
    cases r <;> exact .ret _

end Neutral

section Safety

variable {p : LocalPoller}
-- Apps have been stopped in the past, and all of them were started with the delay.
structure Timely (d : Int) (s : RestartMemory) : Prop where
  past : ∀ {app t}, s.lastStopped app = some t → t ≤ s.clock
  delayed : ∀ start ∈ s.starts, Delayed d start

-- Nothing happens between the calls of the poller, except that time passes.
structure Passes (s s' : RestartMemory) : Prop where
  clock : s.clock ≤ s'.clock
  rest : s' = { s with clock := s'.clock }

-- The stop times that the poller remembers are recent.
def Rested (s : RestartMemory) : Prop :=
  ∀ app, ∀ t ∈ s.stoppedAt app, Recent s app t

-- So is the one that it has found for an app, if any.
structure Settled (app : String) (stoppedAt : Option Int) (s : RestartMemory) : Prop where
  rested : Rested s
  found : ∀ t ∈ stoppedAt, Recent s app t

theorem Passes.refl (s : RestartMemory) : Passes s s where
  clock := le_rfl
  rest := rfl

theorem Passes.trans (h₁ : Passes s₁ s₂) (h₂ : Passes s₂ s₃) : Passes s₁ s₃ where
  clock := h₁.clock.trans h₂.clock
  rest := by rw [h₂.rest, h₁.rest]

theorem compatible :
    Compatible restartSemantics (Timely d) (fun _ => Passes) (fun _ _ _ => True) where
  refl _            := .refl
  trans _           := .trans
  interfere h       := absurd rfl h
  env_inv t _ h     := {
    past := fun hs => (h.past hs).trans (Int.le_add_of_nonneg_right (Int.natCast_nonneg t))
    delayed := h.delayed }
  env_rely t _ _ _ := {
    clock := Int.le_add_of_nonneg_right (Int.natCast_nonneg t)
    rest := rfl }

-- What is known about stop times only depends on when apps were stopped and on what is remembered.
theorem Settled.congr (h : Settled app stoppedAt s) (h₁ : s'.stoppedAt = s.stoppedAt)
    (h₂ : s'.lastStopped = s.lastStopped) : Settled app stoppedAt s' where
  rested app t ht τ hτ := h.rested app t (h₁ ▸ ht) τ (h₂ ▸ hτ)
  found t ht τ hτ      := h.found t ht τ (h₂ ▸ hτ)

theorem Settled.passes (h : Settled app stoppedAt s) (hp : Passes s s') : Settled app stoppedAt s' :=
  h.congr (by rw [hp.rest]) (by rw [hp.rest])

theorem Rested.settled (h : Rested s) (app : String) : Settled app none s :=
  ⟨h, by simp⟩

abbrev RestartSafe (d : Int) (post : α → RestartMemory → Prop) (prog : RestartProgram α)
    (s : RestartMemory) : Prop :=
  Safe restartSemantics recentStops (Timely d) () Passes (fun _ _ => True) post prog s

theorem neutral_step (hq : q.Neutral) (a : Report) (hi : Timely d s) (h : Settled app stoppedAt s) :
    Timely d (q.exec a s).1 ∧ Settled app stoppedAt (q.exec a s).1 := by
  obtain ⟨_, _, he⟩ := hq.exec a s
  rw [he]
  exact ⟨⟨hi.past, hi.delayed⟩, h.congr rfl rfl⟩

theorem neutral_safe (hp : prog.Only Neutral) (h : Settled app stoppedAt s) :
    RestartSafe d (fun _ s => Settled app stoppedAt s) prog s := by
  refine .keep (fun h hr _ => h.passes hr) (fun q s hq hi h _ a => ?_) hp h
  obtain ⟨h₁, h₂⟩ := neutral_step hq a hi h
  exact ⟨h₁, trivial, h₂⟩

theorem neutral_bind {f : β → RestartProgram α}
    (hp : prog.Only Neutral) (h : Settled app stoppedAt s)
    (hf : ∀ b s', Settled app stoppedAt s' → RestartSafe d post (f b) s') :
    RestartSafe d post (prog >>= f) s :=
  .bind .refl (neutral_safe hp h) fun b s' _ h => hf b s' h

theorem neutral_rested (hp : prog.Only Neutral)
    (h : Settled app stoppedAt s) : RestartSafe d (fun _ s => Rested s) prog s :=
  (neutral_safe hp h).mono fun _ _ _ h => h.rested

theorem ret_rested (h : Rested s) : RestartSafe d (fun _ s => Rested s) (.ret a) s :=
  neutral_rested (.ret a) (h.settled "")

theorem now_safe
    (hk : ∀ s', Passes s s' → RestartSafe d post (k (Time.truncate Time.millisecond s'.clock)) s') :
    RestartSafe d post (now >>= k) s :=
  fun s' hr hi _ _ => ⟨hi, trivial, hk s' hr⟩

theorem answer_eq_ok (h : answer a x = .ok r) : x = .ok r := by
  rw [answer] at h
  split at h
  · contradiction
  · exact h

theorem loadStopped_safe (h : Settled app stoppedAt s)
    (failed : ∀ e s', Settled app stoppedAt s' → RestartSafe d post (f (.error e)) s')
    (loaded : ∀ m s', Settled app stoppedAt s' →
      (m.stoppedAt ≠ 0 → Recent s' app m.stoppedAt) → RestartSafe d post (f (.ok m)) s') :
    RestartSafe d post (loadMaterialization .earliestStoppedAt app version >>= f) s := by
  intro s' hr hi hg a
  have h' := h.passes hr
  refine ⟨hi, trivial, ?_⟩
  simp only [RestartCall.exec]
  cases hx : answer a ((Materializations.find s'.materializations app version).context
    "get app instance materialization")
  case error e => exact failed _ s' h'
  case ok m =>
    refine loaded m s' h' (hg m ?_)
    simp [Except.context_eq_ok.mp (answer_eq_ok hx), Except.toOption]

theorem earliestStored_safe (h : Settled app stoppedAt s) :
    RestartSafe d (fun r s => Rested s ∧ ∀ found, r = .ok found → Settled app found s)
      (earliestStored app stoppedAt pending) s := by
  induction pending generalizing s stoppedAt <;> rw [earliestStored]
  case nil =>
    intro s' hr _
    refine ⟨(h.passes hr).rested, fun found he => ?_⟩
    cases he
    exact h.passes hr
  case cons hi =>
    split
    · exact hi h
    · refine loadStopped_safe h
        (fun e s₁ h₁ s₂ hr _ => ⟨(h₁.passes hr).rested, fun _ he => by cases he⟩)
        fun m s₁ h₁ hm => ?_
      dsimp only
      split
      · exact hi h₁
      · refine hi ⟨h₁.rested, fun t ht => ?_⟩
        cases ht
        cases stoppedAt
        case none       => exact hm ‹_›
        case some found =>
          simp only [Option.elim_some]
          rcases min_choice m.stoppedAt found with he | he <;> rw [he]
          case inl => exact hm ‹_›
          case inr => exact h₁.found found rfl

theorem earliestStoppedAt_safe (h : Rested s) :
    RestartSafe d (fun r s => Rested s ∧ ∀ found, r = .ok found → Settled app found s)
      (earliestStoppedAt app pending) s := by
  intro s' hr hi _ a
  have h' := ((h.settled app).passes hr).rested
  exact ⟨hi, trivial, earliestStored_safe ⟨h', h' app⟩⟩

theorem remember_eq (s : RestartMemory) (app : String) (value : Int) :
    remember s app value =
      ({ s with stoppedAt := update s.stoppedAt app ((s.stoppedAt app).getD value) },
        (s.stoppedAt app).getD value) := by
  rw [remember]
  split
  case h_1 t ht =>
    have he : update s.stoppedAt app (some t) = s.stoppedAt := by simp [← ht]
    simp [ht, he]
  case h_2 ht => simp [ht]

-- Right after an app was stopped, only the stop time that is remembered for it can be an old one.
def JustStopped (app : String) (s : RestartMemory) : Prop :=
  ∀ app' ≠ app, ∀ t ∈ s.stoppedAt app', Recent s app' t

-- The executions that are considered rule that out when the stop time is to be remembered.
theorem remember_safe {k : Int → RestartProgram α} (h : JustStopped app s) (hv : Recent s app value)
    (hk : ∀ t s', Settled app (some t) s' → RestartSafe d post (k t) s') :
    RestartSafe d post (.call (.rememberStoppedAt app value) k) s := by
  intro s' hr hi hg a
  have hr := hr.rest
  have hv : Recent s' app value := by rw [hr]; exact hv
  have ho : JustStopped app s' := by rw [hr]; exact h
  have ht : Recent s' app ((s'.stoppedAt app).getD value) := by
    cases hs : s'.stoppedAt app
    case none => exact hv
    case some t => exact hg t hs
  simp only [RestartCall.exec, remember_eq]
  refine ⟨⟨hi.past, hi.delayed⟩, trivial, hk _ _ ⟨fun app' t ha => ?_, fun t ha => ?_⟩⟩
  · by_cases he : app' = app
    case pos =>
      subst he
      simp only [update_self, Option.mem_some_iff] at ha
      exact ha ▸ ht
    case neg =>
      simp only [update_of_ne he] at ha
      exact ho app' he t ha
  · cases ha
    exact ht

theorem stopApp_safe {k : Except Failure Unit → RestartProgram α} (h : Rested s)
    (failed : ∀ e s', Rested s' → RestartSafe d post (k (.error e)) s')
    (stopped : ∀ s', JustStopped app s' → s'.lastStopped app = some s'.clock →
      RestartSafe d post (k (.ok ())) s') :
    RestartSafe d post (.call (.stopApp app) k) s := by
  intro s' hr hi _ a
  have h' := ((h.settled app).passes hr).rested
  simp only [RestartCall.exec, RestartCall.stop]
  cases a.fault
  case some f => exact ⟨hi, trivial, failed f s' h'⟩
  case none =>
    refine ⟨⟨fun {app' t} ht => ?_, hi.delayed⟩, trivial, stopped _ (fun app' ha t ht τ hτ => ?_) ?_⟩
    · by_cases ha : app' = app
      case pos =>
        subst ha
        simp only [update_self, Option.some.injEq] at ht
        exact ht.ge
      case neg =>
        simp only [update_of_ne ha] at ht
        exact hi.past ht
    · simp only [update_of_ne ha] at hτ
      exact h' app' t ht τ hτ
    · exact update_self ..

theorem stop_safe (h : Rested s) :
    RestartSafe d (fun r s => Rested s ∧ ∀ t, r = .ok t → Settled app (some t) s)
      (stop app version) s := by
  refine stopApp_safe h (fun e s₁ h₁ s₂ hr _ => ?_) fun s₁ h₁ hs => now_safe fun s₂ hr => ?_
  · exact ⟨((h₁.settled app).passes hr).rested, fun _ he => by cases he⟩
  · -- The clock is read after the app was stopped.
    have hc := hr.clock
    have hr := hr.rest
    refine remember_safe (by rw [hr]; exact h₁) (fun τ hτ => ?_) fun t s₃ h₃ s₄ hr _ => ?_
    · have hτ : τ ∈ s₁.lastStopped app := by rw [hr] at hτ; exact hτ
      rw [hs] at hτ
      cases hτ
      exact Time.truncate_mono (by decide) hc
    · refine ⟨(h₃.passes hr).rested, fun t' he => ?_⟩
      cases he
      exact h₃.passes hr

theorem ensureStopped_safe (h : Settled app stoppedAt s) :
    RestartSafe d (fun r s => Rested s ∧ ∀ t, r = .ok t → Settled app (some t) s)
      (p.ensureStopped app version stoppedAt) s := by
  refine neutral_bind runningVersion_neutral h fun running s₁ h₁ => ?_
  cases stoppedAt
  case none => exact stop_safe h₁.rested
  case some t =>
    dsimp only
    split
    · exact stop_safe h₁.rested
    · intro s₂ hr _
      refine ⟨(h₁.passes hr).rested, fun t' he => ?_⟩
      cases he
      exact h₁.passes hr

theorem finishRestart_safe (h : Rested s) :
    RestartSafe d (fun _ s => Rested s) (p.finishRestart app version pending rollout) s := by
  refine neutral_bind pruneSuperseded_neutral (h.settled app) fun r s₁ h₁ => ?_
  cases r
  case error => exact ret_rested h₁.rested
  case ok =>
    refine neutral_bind now_neutral h₁ fun now s₂ h₂ => ?_
    refine neutral_bind markAllRestarted_neutral h₂ fun r s₃ h₃ => ?_
    cases r
    case error => exact ret_rested h₃.rested
    case ok    =>
      intro s₄ hr hi _ a
      have h₄ := (h₃.passes hr).rested
      have h₅ : Rested ((forgetStoppedAt app).exec a s₄).1 := by
        intro app' t ht
        by_cases ha : app' = app
        case pos => simp [RestartCall.exec, ha] at ht
        case neg =>
          simp only [RestartCall.exec, update_of_ne ha] at ht
          exact h₄ app' t ht
      exact ⟨⟨hi.past, hi.delayed⟩, trivial,
        neutral_rested updateAfterRestart_neutral (h₅.settled app)⟩

-- The delay has passed since the app was stopped.
def Ready (d : Int) (app : String) (s : RestartMemory) : Prop :=
  ∀ t ∈ s.lastStopped app,
    Time.truncate Time.millisecond t + d ≤ Time.truncate Time.millisecond s.clock

theorem Ready.passes (h : Ready d app s) (hp : Passes s s') : Ready d app s' := by
  intro t ht
  have hc := Time.truncate_mono (show 0 < Time.millisecond by decide) hp.clock
  rw [hp.rest] at ht
  exact (h t ht).trans hc

theorem start_safe (h : Rested s) (hd : Ready d app s) :
    RestartSafe d (fun _ s => Rested s) (p.start app version pending rollout) s := by
  intro s' hr hi _ a
  have h' := ((h.settled app).passes hr).rested
  refine ⟨⟨hi.past, ?_⟩, trivial, ?_⟩
  · simp only [RestartCall.exec, List.forall_mem_cons]
    exact ⟨hd.passes hr, hi.delayed⟩
  · simp only [RestartCall.exec]
    cases answer a (.ok ())
    case error => exact ret_rested h'
    case ok => exact finishRestart_safe h'

theorem startAfterDelay_safe (hd : 0 < p.delay) (h : Settled app (some t) s) :
    RestartSafe p.delay (fun _ s => Rested s) (p.startAfterDelay app version pending rollout t) s := by
  refine neutral_bind markPendingStopped_neutral h fun r s₁ h₁ => ?_
  cases r
  case error => exact ret_rested h₁.rested
  case ok =>
    dsimp only
    split
    · exact absurd hd (by omega)
    · refine now_safe fun s₂ hr => ?_
      have h₂ := h₁.passes hr
      split
      · exact ret_rested h₂.rested
      · refine start_safe h₂.rested fun τ hτ => ?_
        have := h₂.found t rfl τ hτ
        omega

-- Programs of a poller that keep its remembered stop times recent, and start apps with its delay.
def Rests (p : LocalPoller) (prog : RestartProgram α) : Prop :=
  ∀ s, Rested s → RestartSafe p.delay (fun _ s => Rested s) prog s

section Rests

theorem Rests.neutral (hp : prog.Only Neutral) : p.Rests prog :=
  fun _ h => neutral_rested hp (h.settled "")

theorem Rests.ret (a : α) : p.Rests (.ret a) :=
  .neutral (.ret a)

theorem Rests.bind {f : β → RestartProgram α} (hp : p.Rests prog)
    (hf : ∀ b, p.Rests (f b)) : p.Rests (prog >>= f) :=
  fun s h => .bind .refl (hp s h) fun b s' _ h' => hf b s' h'

theorem Rests.bind_ok {f : Except ε β → RestartProgram α}
    (hp : p.Rests prog) (he : ∀ e, p.Rests (f (.error e))) (hf : ∀ b, p.Rests (f (.ok b))) :
    p.Rests (prog >>= f) := by
  refine hp.bind fun r => ?_
  cases r
  case error => exact he _
  case ok => exact hf _

variable (hd : 0 < p.delay)
include hd

theorem restart_rests : p.Rests (p.restart app version pending rollout) := by
  refine .bind (.neutral (.call trivial .ret)) fun ready => ?_
  split
  · exact .ret _
  · intro s h
    refine .bind .refl (earliestStoppedAt_safe h) fun r s₁ _ h₁ => ?_
    cases r
    case error => exact ret_rested h₁.left
    case ok found =>
      refine .bind .refl (ensureStopped_safe (h₁.right found rfl)) fun r s₂ _ h₂ => ?_
      cases r
      case error => exact ret_rested h₂.left
      case ok t  => exact startAfterDelay_safe hd (h₂.right t rfl)

theorem converge_rests : p.Rests (p.converge app version desired rollout) := by
  refine .bind (.neutral runningVersion_neutral) fun running => ?_
  split
  · refine .bind_ok (.neutral pruneSuperseded_neutral) (fun _ => .ret _) fun r => ?_
    exact .neutral (now_neutral.bind fun _ => markAllRestarted_neutral)
  · exact restart_rests hd

theorem convergeLocal_rests :
    p.Rests (p.convergeLocal app version desired materialization rollout restartBlocked) := by
  refine .bind_ok (.neutral ensureDesiredMaterialized_neutral) (fun _ => .ret _) fun r => ?_
  dsimp only
  split
  · exact .ret _
  · split
    · exact .neutral checkConverged_neutral
    · exact converge_rests hd

theorem reconcilePending_rests :
    p.Rests (p.reconcilePending app version desired materialization rollout restartBlocked) := by
  refine .bind (.neutral acceptsRegistry_neutral) fun accepted => ?_
  split
  · exact .ret _
  · split
    · exact .ret _
    · refine .bind (.neutral (.call trivial .ret)) fun r => ?_
      rcases r with _ | _ | _
      case error => exact .ret _
      case ok.false => exact .neutral convergeRemote_neutral
      case ok.true => exact convergeLocal_rests hd

theorem reconcileDesired_rests :
    p.Rests
      (p.reconcileDesired app configured installations acknowledged rollout restartBlocked) := by
  rw [reconcileDesired]
  split
  · exact .ret _
  · dsimp only
    split
    · exact .ret _
    · split
      · exact .ret _
      · refine .bind_ok (.neutral acknowledgeDesired_neutral) (fun _ => .ret _) fun r => ?_
        dsimp only
        split
        · exact .ret _
        · exact reconcilePending_rests hd

theorem reconcileRollout_rests {rollout : AppRollout} :
    p.Rests (p.reconcileRollout app configured installations rollout) := by
  rw [reconcileRollout]
  split
  · exact .neutral reconcileUnaccepted_neutral
  · refine .bind_ok (.neutral acknowledgeRollout_neutral) (fun _ => .ret _) fun r => ?_
    refine .bind (.neutral endEnrollment_neutral) fun r => ?_
    rcases r with _ | _ | ⟨rollout, restartBlocked⟩
    case error => exact .ret _
    case ok.none => exact .ret _
    case ok.some =>
      refine .bind_ok (.neutral updateRollout_neutral) (fun _ => .ret _) fun r => ?_
      exact reconcileDesired_rests hd

theorem reconcileApp_rests : p.Rests (p.reconcileApp app installations rollout) := by
  rw [reconcileApp]
  split
  · exact .ret _
  · refine .bind (.neutral configured_neutral) fun configured => ?_
    cases rollout
    case none => exact reconcileDesired_rests hd
    case some => exact reconcileRollout_rests hd

theorem reconcileInstalled_rests :
    p.Rests (p.reconcileInstalled known active apps) := by
  induction apps <;> rw [reconcileInstalled]
  case nil => exact .ret _
  case cons app apps hi =>
    refine .bind (reconcileApp_rests hd) fun r => ?_
    cases r
    case ok    => exact hi
    case error => exact .bind (.neutral recordFailure_neutral) fun _ => .bind hi fun _ => .ret _

theorem reconcileOthers_rests : p.Rests (p.reconcileOthers active apps) := by
  induction apps <;> rw [reconcileOthers]
  case nil => exact .ret _
  case cons app apps hi =>
    refine .bind (reconcileApp_rests hd) fun r => ?_
    cases r
    case ok    => exact hi
    case error => exact .bind hi fun _ => .ret _

theorem reconcileOnce_rests : p.Rests (p.reconcileOnce order) := by
  rw [reconcileOnce]
  refine .bind_ok (.neutral (.call trivial .ret)) (fun _ => .ret _) fun r => ?_
  refine .bind_ok (.neutral (.call trivial .ret)) (fun _ => .ret _) fun r => ?_
  refine .bind_ok (.neutral (.call trivial .ret)) (fun _ => .ret _) fun r => ?_
  refine .bind (reconcileInstalled_rests hd) fun _ => ?_
  exact .bind (reconcileOthers_rests hd) fun _ => .ret _

theorem run_rests : p.Rests (p.run orders) := by
  induction orders <;> rw [run]
  case nil => exact .ret _
  case cons hi => exact .bind (reconcileOnce_rests hd) fun _ => hi

end Rests

theorem starts_delayed {orders : List GoMap.VisitOrder} {clock : Int}
    {materializations : MaterializationMap}
    {c : Config Unit RestartCall Response Unit RestartMemory} (hd : 0 < p.delay)
    (e : Reaches restartSemantics recentStops (p.config orders clock materializations) c) :
    ∀ start ∈ c.mem.starts, Delayed p.delay start := by
  have hs : Sound restartSemantics recentStops (Timely p.delay) (fun _ => Passes)
      (fun _ _ _ => True) (fun _ _ s => Rested s) (p.config orders clock materializations) := {
    holds := { past := by simp [config], delayed := by simp [config] }
    safe := fun _ => run_rests hd _ (by simp [Rested, config]) }
  exact (hs.reaches compatible e).holds.delayed

end Safety

section Demo

-- A poller whose restarter knows which version runs but not which registries are accepted.
def demo : LocalPoller where
  appRestarter := some { acceptsRegistry := false }
  restartDelay := Time.minute

def demoOrders : List GoMap.VisitOrder :=
  List.replicate 4 default

def demoConfig : Config Unit RestartCall Response Unit RestartMemory :=
  demo.config demoOrders Time.day fun _ _ => none

abbrev RestartEvent := Event restartSemantics

-- The next calls of the poller, which succeed.
def proceed (n : Nat) : List RestartEvent :=
  List.replicate n (.call () {})

def running (version : String) : RestartEvent :=
  .call () { runningVersion := some version }

def known (installations : List KnownInstallation) : RestartEvent :=
  .call () { installations }

def demoFirst : KnownInstallation where
  appName := "demo"
  version := "1.0.0"

def demoSecond : KnownInstallation where
  appName := "demo"
  version := "2.0.0"
  updatedAt := Time.minute

-- The first version is to be installed, so the app is stopped.
def demoStop : List RestartEvent :=
  [known [demoFirst]] ++ proceed 8 ++ [running "0.9.0"] ++ proceed 3 ++ [running "0.9.0"] ++ proceed 6

-- The delay has passed in the next pass, which starts the app.
def demoStart : List RestartEvent :=
  [.env 60000000000] ++ [known [demoFirst]] ++ proceed 13

theorem starts_delayed_demo :
    ∃ c, Reaches restartSemantics recentStops demoConfig c ∧
      ∃ start ∈ c.mem.starts, start.lastStopped = some Time.day ∧ Delayed demo.delay start := by
  obtain ⟨c, e, start, hs, hl⟩ : ∃ c, Reaches restartSemantics recentStops demoConfig c ∧
      ∃ start ∈ c.mem.starts, start.lastStopped = some Time.day :=
    Config.exists_reaches_of_run (demoStop ++ demoStart) (by decide +kernel)
  exact ⟨c, e, start, hs, hl, starts_delayed (by decide +kernel) e start hs⟩

-- The next pass finds the desired version running, but the stop time is still remembered.
def demoConverge : List RestartEvent :=
  [.call () { fault := some ⟨"prune failed", none⟩ }] ++ proceed 1 ++
  [known [demoFirst]] ++ proceed 5 ++ [running "1.0.0"] ++ proceed 4

-- A day later the second version is to be installed, and the app is stopped and started at once.
def demoUpgrade : List RestartEvent :=
  [.env 86400000000000] ++ [known [demoFirst, demoSecond]] ++ proceed 8 ++ [running "1.0.0"] ++
  proceed 3 ++ [running "1.0.0"] ++ proceed 7

theorem old_stop_time_skips_delay :
    0 < demo.delay ∧ ∃ c, Reaches restartSemantics unguarded demoConfig c ∧
      ∃ start ∈ c.mem.starts, start.version = "2.0.0" ∧ start.lastStopped = some start.time ∧
        ¬Delayed demo.delay start :=
  ⟨by decide +kernel, Config.exists_reaches_of_run
    (demoStop ++ demoStart ++ demoConverge ++ demoUpgrade) (by decide +kernel)⟩

end Demo
end LocalPoller
end AppRegistry
