import GestaltModel.AppRegistry.Poller
import GestaltModel.AppRegistry.Theorems.Services

namespace AppRegistry

open Coredata Interleaving ServiceProgram

variable {configured : Bool} {version : String} {rollout : Option AppRollout}
  {installations : List AppInstallation}

-- The calls that leave the stores as they are.
inductive ServiceCall.IsRead : ServiceCall → Prop
  | now                          : IsRead .now
  | listActive                   : IsRead .listActive
  | listAllKnownVersions         : IsRead .listAllKnownVersions
  | latestRevisionIDForVersion (app version) : IsRead (.latestRevisionIDForVersion app version)
  | ensureStore                  : IsRead .ensureStore
  | getOutcome (id)              : IsRead (.getOutcome id)
  | listFreshBySourceVersion (sourceVersion cutoff) :
    IsRead (.listFreshBySourceVersion sourceVersion cutoff)
  | listByInstance               : IsRead .listByInstance
  | listByAppVersion (app version) : IsRead (.listByAppVersion app version)
  | ensureAcknowledged (app version) : IsRead (.ensureAcknowledged app version)
  | configured (app)             : IsRead (.configured app)
  | restartApp (app restartBlocked) : IsRead (.restartApp app restartBlocked)
  | beforeRolloutComplete (app version) : IsRead (.beforeRolloutComplete app version)
  | admitInstall (app version)   : IsRead (.admitInstall app version)

theorem ServiceCall.IsRead.exec_eq {q : ServiceCall} (h : q.IsRead) : (q.exec a s).1 = s := by
  cases h <;> rfl

namespace CatalogPoller

variable {p : CatalogPoller} {r : AppRollout}

theorem now_reads : now.Only ServiceCall.IsRead :=
  .call .now fun _ => .ret _

theorem prepareRolloutCompletion_reads :
    (p.prepareRolloutCompletion r).Only ServiceCall.IsRead := by
  rw [prepareRolloutCompletion]
  split
  · exact .ret _
  · rw [invoke_bind]
    exact .call (.beforeRolloutComplete ..) fun _ => .ret _

theorem acknowledge_reads :
    (acknowledge configured app version).Only ServiceCall.IsRead := by
  rw [acknowledge]
  split
  · exact .call (.ensureAcknowledged ..) fun _ => .ret _
  · exact .ret _

theorem mem_of_activeByApp (h : (activeByApp active).lookup app = some r) : r ∈ active := by
  suffices hs : ∀ (m : GoMap AppRollout), (active.foldl (fun m rollout =>
      let app := Text.trimSpace rollout.app
      if app = "" then m else m.insert app rollout) m).lookup app = some r →
      r ∈ active ∨ m.lookup app = some r from
    (hs ∅ h).resolve_right (by simp)
  clear h
  induction active
  case nil => exact fun m h => .inr h
  case cons rollout active hi =>
    intro m h
    rcases hi _ h with h | h
    case inl => exact .inl (List.mem_cons_of_mem _ h)
    case inr =>
      dsimp only at h
      split at h
      case isTrue => exact .inr h
      case isFalse =>
        by_cases ha : app = Text.trimSpace rollout.app
        case pos =>
          rw [ha, Finmap.lookup_insert] at h
          cases h
          exact .inl List.mem_cons_self
        case neg =>
          rw [Finmap.lookup_insert_of_ne _ ha] at h
          exact .inr h

-- What has to be shown about a replica, which otherwise only reads. `Seen` is what it knows about a
-- rollout that it has read.
structure Rules {ι γ : Type} (note : ι → (c : ServiceCall) → c.Response → ServiceMemory γ → γ)
    (guard : ι → ServiceCall → ServiceMemory γ → Prop) (inv : ServiceMemory γ → Prop) (i : ι)
    (rely guar : ServiceMemory γ → ServiceMemory γ → Prop) (p : CatalogPoller)
    (Seen : AppRollout → ServiceMemory γ → Prop) : Prop where
  refl : ∀ s, rely s s
  seen_rely : ∀ {r s s'}, Seen r s → rely s s' → inv s' → Seen r s'
  seen_guar : ∀ {r s s'}, Seen r s → guar s s' → inv s' → Seen r s'
  reads : ∀ q s, q.IsRead → inv s → guard i q s → ∀ a,
    inv ((serviceSemantics note).exec i q a s).1 ∧ guar s ((serviceSemantics note).exec i q a s).1
  listed : ∀ {s}, inv s → ∀ r ∈ AppRolloutService.listActive s.db.rollouts, Seen r s
  restarted : ∀ {r s}, Safe (serviceSemantics note) guard inv i rely guar
    (fun res s => ∀ r', res = .ok r' → Seen r' s) (invoke (.markForRollout .restarting r)) s
  terminal : ∀ {mark context r s}, Safe (serviceSemantics note) guard inv i rely guar
    (fun _ _ => True) (p.markTerminal mark context r) s
  heartbeat : ∀ {r s}, Seen r s → Safe (serviceSemantics note) guard inv i rely guar
    (fun _ _ => True) (p.updateHeartbeatRolloutOutcome r) s

namespace Rules

variable {ι γ : Type} {note : ι → (c : ServiceCall) → c.Response → ServiceMemory γ → γ}
variable {guard : ι → ServiceCall → ServiceMemory γ → Prop} {inv : ServiceMemory γ → Prop} {i : ι}
variable {rely guar : ServiceMemory γ → ServiceMemory γ → Prop}
variable {Seen : AppRollout → ServiceMemory γ → Prop} {s : ServiceMemory γ}

abbrev Meets (_ : Rules note guard inv i rely guar p Seen) (post : α → ServiceMemory γ → Prop)
    (prog : ServiceProgram α) (s : ServiceMemory γ) : Prop :=
  Safe (serviceSemantics note) guard inv i rely guar post prog s

variable (h : Rules note guard inv i rely guar p Seen)
include h

theorem read {k : q.Response → ServiceProgram α} (hq : q.IsRead) {F : ServiceMemory γ → Prop}
    (hF : F s) (stable : ∀ {s s'}, F s → rely s s' → inv s' → F s')
    (kept : ∀ {s s'}, F s → guar s s' → inv s' → F s')
    (hk : ∀ res s', F s' → h.Meets post (k res) s') :
    h.Meets post (.call q k) s := by
  intro s' hr hi hg a
  have ⟨hinv, hguar⟩ := h.reads q s' hq hi hg a
  exact ⟨hinv, hguar, hk _ _ (kept (stable hF hr hi) hguar hinv)⟩

theorem now_safe (hk : ∀ t s', h.Meets post (k t) s') :
    h.Meets post (now >>= k) s :=
  .bind h.refl (.of_only h.reads now_reads) fun t s' _ _ => hk t s'

theorem failAfterDeadline_safe :
    h.Meets (fun _ _ => True) (p.failAfterDeadline context r) s := by
  rw [failAfterDeadline]
  refine h.now_safe fun t s₁ => ?_
  split
  · exact .done
  · exact h.now_safe fun _ _ => h.terminal

theorem completeConverged_safe :
    h.Meets (fun _ _ => True) (p.completeConverged r) s := by
  rw [completeConverged]
  refine .bind h.refl (.of_only h.reads prepareRolloutCompletion_reads) fun res s₁ _ _ => ?_
  match res with
  | .ok true => exact h.now_safe fun _ _ => h.terminal
  | .ok false => exact h.failAfterDeadline_safe
  | .error _ =>
    refine h.now_safe fun t s₂ => ?_
    split
    · exact .done
    · exact h.failAfterDeadline_safe

theorem updateRolloutOutcome_safe (hs : Seen r s) :
    h.Meets (fun _ _ => True) (p.updateRolloutOutcome r) s := by
  rw [updateRolloutOutcome]
  split
  · exact h.heartbeat hs
  · rw [invoke_bind]
    refine h.read (.listByAppVersion ..) hs h.seen_rely h.seen_guar fun res s₁ _ => ?_
    cases res
    case error => exact .done
    case ok =>
      dsimp only
      split
      · exact h.completeConverged_safe
      · exact h.failAfterDeadline_safe

theorem endEnrollment_safe (hs : Seen r s) :
    h.Meets
      (fun res s => ∀ r' blocked, res = .ok (some (r', blocked)) → Seen r' s)
      (endEnrollment app version r) s := by
  have keep {blocked : Bool} {s : ServiceMemory γ} (hs : Seen r s) :
      h.Meets
        (fun (res : Except Failure (Option (AppRollout × Bool))) s =>
          ∀ r' blocked, res = .ok (some (r', blocked)) → Seen r' s)
        (.ret (.ok (some (r, blocked)))) s := by
    intro s' hr hi r' _ he
    cases he
    exact h.seen_rely hs hr hi
  rw [endEnrollment]
  split
  · exact keep hs
  · refine .bind h.refl (.frame h.seen_rely h.seen_guar (.of_only h.reads now_reads) hs)
      fun t s₁ _ hs => ?_
    split
    · exact keep hs.right
    · refine .bind h.refl h.restarted fun res s₂ _ hres => ?_
      cases res
      case ok r' =>
        intro s₃ hr hi _ _ he
        cases he
        exact h.seen_rely (hres r' rfl) hr hi
      case error =>
        dsimp only
        split <;> exact fun _ _ _ _ _ => nofun

theorem updateAfterRestart_safe (hs : ∀ r ∈ rollout, Seen r s) :
    h.Meets (fun _ _ => True) (p.updateAfterRestart rollout) s := by
  cases rollout <;> rw [updateAfterRestart]
  case none => exact .done
  case some r =>
    split
    · exact .bind h.refl (h.updateRolloutOutcome_safe (hs r rfl)) fun _ _ _ _ => .done
    · exact .done

theorem reconcileLocal_safe (hs : ∀ r ∈ rollout, Seen r s) :
    h.Meets (fun _ _ => True) (p.reconcileLocal app configured installations rollout blocked) s := by
  rw [reconcileLocal]
  split; · exact .done
  rw [invoke_bind]
  refine h.read (.restartApp ..) (F := fun s => ∀ r ∈ rollout, Seen r s) hs
    (fun hs hr hi r hm => h.seen_rely (hs r hm) hr hi)
    (fun hs hg hi r hm => h.seen_guar (hs r hm) hg hi) fun res s₁ hs => ?_
  match res with
  | .error _ => exact .done
  | .ok false => exact .done
  | .ok true => exact h.updateAfterRestart_safe hs

theorem reconcileRollout_safe (hs : Seen r s) :
    h.Meets (fun _ _ => True) (p.reconcileRollout app version configured installations r) s := by
  rw [reconcileRollout]
  refine .bind h.refl (h.endEnrollment_safe hs) fun res s₁ _ hres => ?_
  match res with
  | .error _ => exact .done
  | .ok none => exact .done
  | .ok (some (r, blocked)) =>
    have hs := hres r blocked rfl
    dsimp only
    split
    · exact h.reconcileLocal_safe fun r' hr => Option.some.inj hr ▸ hs
    · refine .bind h.refl (.frame h.seen_rely h.seen_guar (h.updateRolloutOutcome_safe hs) hs)
        fun res s₂ _ hs => ?_
      cases res
      case error => exact .done
      case ok ended =>
        refine h.reconcileLocal_safe fun r' hr => ?_
        cases ended <;> cases hr
        exact hs.right

theorem reconcileUnaccepted_safe (hs : Seen r s) :
    h.Meets (fun _ _ => True) (p.reconcileUnaccepted app version r) s := by
  rw [reconcileUnaccepted]
  split
  · exact .bind h.refl (h.heartbeat hs) fun _ _ _ _ => .done
  · exact .bind h.refl h.failAfterDeadline_safe fun _ _ _ _ => .done

theorem reconcileActive_safe (hs : ∀ r ∈ rollout, Seen r s) :
    h.Meets (fun _ _ => True) (p.reconcileActive app configured installations rollout) s := by
  cases rollout <;> rw [reconcileActive]
  case none => exact h.reconcileLocal_safe fun _ hm => nomatch hm
  case some r =>
    have hs := hs r rfl
    split
    · refine .bind h.refl (.frame h.seen_rely h.seen_guar (.of_only h.reads acknowledge_reads) hs)
        fun res s₂ _ hs => ?_
      cases res
      case error => exact .done
      case ok    => exact h.reconcileRollout_safe hs.right
    · exact h.reconcileUnaccepted_safe hs

theorem reconcileApp_safe (hs : ∀ r ∈ rollout, Seen r s) :
    h.Meets (fun _ _ => True) (p.reconcileApp app installations rollout) s := by
  rw [reconcileApp, invoke_bind]
  exact h.read (.configured app) (F := fun s => ∀ r ∈ rollout, Seen r s) hs
    (fun hs hr hi r hm => h.seen_rely (hs r hm) hr hi)
    (fun hs hg hi r hm => h.seen_guar (hs r hm) hg hi) fun _ _ hs => h.reconcileActive_safe hs

-- By induction on the apps that are left.
theorem reconcileApps_safe (hs : ∀ app, ∀ r ∈ active.lookup app, Seen r s) :
    h.Meets (fun _ _ => True) (p.reconcileApps known active apps) s := by
  induction apps generalizing s
  case nil => exact .done
  case cons app apps hi =>
    rw [reconcileApps]
    refine .bind h.refl (.frame (F := fun s => ∀ app, ∀ r ∈ active.lookup app, Seen r s)
      (fun hs hr hi app r hm => h.seen_rely (hs app r hm) hr hi)
      (fun hs hg hi app r hm => h.seen_guar (hs app r hm) hg hi)
      (h.reconcileApp_safe (hs app)) hs) fun res s₁ _ hs => ?_
    refine .bind h.refl (hi hs.right) fun _ _ _ _ => ?_
    cases res <;> exact .done

theorem listActive_safe {k : Except Failure (List AppRollout) → ServiceProgram α}
    (failed : ∀ s' f, h.Meets post (k (.error f)) s')
    (listed : ∀ s' active, (∀ r ∈ active, Seen r s') →
      h.Meets post (k (.ok active)) s') :
    h.Meets post (.call .listActive k) s := by
  intro s' _ hi hg a
  have ⟨hinv, hguar⟩ := h.reads _ s' .listActive hi hg a
  refine ⟨hinv, hguar, ?_⟩
  have hs := fun r hr => h.seen_guar (h.listed hi r hr) hguar hinv
  simp only [ServiceCall.exec, ServiceCall.reads] at hs ⊢
  revert hs
  cases a.fault
  case some f => exact fun _ => failed _ f
  case none => exact fun hs => listed _ _ hs

theorem reconcileOnce_safe :
    h.Meets (fun _ _ => True) (p.reconcileOnce order) s := by
  rw [reconcileOnce, invoke_bind]
  refine h.read .listAllKnownVersions trivial (F := fun _ => True) (fun _ _ _ => trivial)
    (fun _ _ _ => trivial) fun res s₁ _ => ?_
  cases res
  case error => exact .done
  case ok known =>
    dsimp only
    rw [invoke_bind]
    refine h.read .listByInstance trivial (F := fun _ => True) (fun _ _ _ => trivial)
      (fun _ _ _ => trivial) fun res s₂ _ => ?_
    cases res
    case error => exact .done
    case ok =>
      dsimp only
      rw [invoke_bind]
      refine h.listActive_safe (fun _ _ => .done) fun s₃ active hs => ?_
      exact h.reconcileApps_safe fun app r hr => hs r (mem_of_activeByApp hr)

-- By induction on the rollouts that are left.
theorem evaluateRollouts_safe (hs : ∀ r ∈ rollouts, Seen r s) :
    h.Meets (fun _ _ => True) (p.evaluateRollouts rollouts) s := by
  induction rollouts generalizing s
  case nil => exact .done
  case cons r rollouts hi =>
    have ⟨hr, hs⟩ := List.forall_mem_cons.mp hs
    rw [evaluateRollouts]
    split
    · exact hi hs
    · refine .bind h.refl (.frame (F := fun s => ∀ r ∈ rollouts, Seen r s)
        (fun hs hr hi r hm => h.seen_rely (hs r hm) hr hi)
        (fun hs hg hi r hm => h.seen_guar (hs r hm) hg hi) (h.heartbeat hr) hs) fun res s₁ _ hs => ?_
      refine .bind h.refl (hi hs.right) fun _ _ _ _ => ?_
      cases res <;> exact .done

theorem evaluateHeartbeatRolloutsOnce_safe :
    h.Meets (fun _ _ => True) p.evaluateHeartbeatRolloutsOnce s := by
  rw [evaluateHeartbeatRolloutsOnce, invoke_bind]
  exact h.listActive_safe (fun _ _ => .done) fun _ _ hs => h.evaluateRollouts_safe hs

theorem run_safe :
    h.Meets (fun _ _ => True) (p.run passes) s := by
  induction passes generalizing s
  case nil => exact .done
  case cons pass passes hi =>
    cases pass
    case reconcile => exact .bind h.refl h.reconcileOnce_safe fun _ _ _ _ => hi
    case evaluate  => exact .bind h.refl h.evaluateHeartbeatRolloutsOnce_safe fun _ _ _ _ => hi

end Rules
end CatalogPoller
end AppRegistry
