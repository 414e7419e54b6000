import GestaltModel.Coredata.DeployPause
import GestaltModel.Coredata.Theorems.Rollout

namespace Coredata

open GestaltdSourceVersionService
open Text (Trimmed trimSpace trimSpace_trimmed)

variable {state state' : GestaltdSourceVersionState} {part : StatePart}
variable {op : SourceVersionOperation}
variable {db db' : RolloutDB} {now : Int} {owner token owner' token' : String}

variable {x : RolloutDB × GestaltdSourceVersionState}

@[simp]
theorem StatePart.Same.refl (part : StatePart) (state : GestaltdSourceVersionState) :
    part.Same state state := by
  cases part <;> simp [Same]

theorem gestaltdSourceVersionStateRecord_encoded (now : Int) (state : GestaltdSourceVersionState) :
    (gestaltdSourceVersionStateRecord now state).Encoded where
  current := trimSpace_trimmed _
  promoted := trimSpace_trimmed _
  promotedAt := Time.truncate_truncate ..
  owner := trimSpace_trimmed _
  token := trimSpace_trimmed _

theorem RolloutDB.Encoded.sourceState (h : db.Encoded) : db.sourceState.Encoded := by
  rw [RolloutDB.sourceState]
  cases hs : db.source
  case some state => exact h state hs
  case none =>
    have ht : Trimmed "" := Text.trimSpace_empty
    exact ⟨ht, ht, rfl, ht, ht⟩

theorem StatePart.Same.encode (h : part.Same state state') (he : state.Encoded) (now : Int) :
    part.Same state (gestaltdSourceVersionStateRecord now state') := by
  cases part
  case activation =>
    obtain ⟨hv, hm⟩ := h
    exact ⟨hv ▸ he.current, hm⟩
  case pause =>
    obtain ⟨ho, ht⟩ := h
    exact ⟨ho ▸ he.owner, ht ▸ he.token⟩
  case promotion =>
    obtain ⟨hv, ht⟩ := h
    refine ⟨hv ▸ he.promoted, fun hz => ?_⟩
    simp [gestaltdSourceVersionStateRecord, normalizedSourceVersionTime, ht hz, hz, he.promotedAt]

theorem GestaltdSourceVersionService.changeAppDeployPause_source
    (h : changeAppDeployPause now owner token acquire db = .ok x) :
    ∃ state, db.source = some state ∧
      (state.appDeployPauseOwner = "" ∨
        state.appDeployPauseOwner = trimSpace owner ∧
        state.appDeployPauseToken = trimSpace token) ∧
      x.1.source = some (gestaltdSourceVersionStateRecord now { state with
        appDeployPauseOwner := if acquire then trimSpace owner else ""
        appDeployPauseToken := if acquire then trimSpace token else "" }) := by
  simp only [changeAppDeployPause] at h
  obtain ⟨_, _, h⟩ := Except.bind_eq_ok_iff.mp h
  split at h; · contradiction
  case h_2 state hs =>
    split at h; · contradiction
    case isFalse hc =>
      cases h
      exact ⟨state, hs, by tauto, rfl⟩

theorem GestaltdSourceVersionService.owner_token_required
    (h : changeAppDeployPause now owner token acquire db = .ok x) :
    trimSpace owner ≠ "" ∧ trimSpace token ≠ "" := by
  simp only [changeAppDeployPause] at h
  obtain ⟨_, hr, -⟩ := Except.bind_eq_ok_iff.mp h
  exact require_eq_ok.mp hr

theorem GestaltdSourceVersionService.changeAppDeployPause_blank (acquire : Bool)
    (h : trimSpace owner = "" ∨ trimSpace token = "") :
    changeAppDeployPause now owner token acquire db =
      .error ⟨(if acquire then "acquire" else "release") ++
        " app deploy pause: owner and token are required", none⟩ := by
  have hn : ¬(trimSpace owner ≠ "" ∧ trimSpace token ≠ "") := by tauto
  simp only [changeAppDeployPause, require, if_neg hn]
  rfl

theorem SourceVersionOperation.execute_source (h : op.execute now db = .ok db') :
    db'.source = db.source ∨
    ∃ state, (∀ part, op.owns ≠ some part → part.Same db.sourceState state) ∧
      db'.source = some (gestaltdSourceVersionStateRecord now state) := by
  cases op <;> obtain ⟨x, hx, h⟩ := Except.bind_eq_ok_iff.mp h <;> cases h
  case acquireAppDeployPause =>
    obtain ⟨state, hs, -, hw⟩ := changeAppDeployPause_source hx
    refine .inr ⟨_, fun part hp => ?_, hw⟩
    cases part <;> simp_all [owns, RolloutDB.sourceState, StatePart.Same]
  case releaseAppDeployPause =>
    obtain ⟨state, hs, -, hw⟩ := changeAppDeployPause_source hx
    refine .inr ⟨_, fun part hp => ?_, hw⟩
    cases part <;> simp_all [owns, RolloutDB.sourceState, StatePart.Same]
  case createAppRollout =>
    obtain ⟨_, _, -, -, -, hdb, -⟩ := createAppRollout_eq_ok hx
    exact .inl (by rw [hdb])
  case activateWithRolloutMode =>
    obtain ⟨requested, -, hx⟩ := Except.bind_eq_ok_iff.mp hx
    cases hx
    refine .inr ⟨_, fun part hp => ?_, rfl⟩
    cases part <;> simp_all [owns, RolloutDB.sourceState, StatePart.Same]
  case markTemporalWorkersPromoted =>
    obtain ⟨_, _, hx⟩ := Except.bind_eq_ok_iff.mp hx
    dsimp only at hx
    split at hx <;> cases hx
    case isTrue => exact .inl rfl
    case isFalse =>
      refine .inr ⟨_, fun part hp => ?_, rfl⟩
      cases part <;> simp_all [owns, RolloutDB.sourceState, StatePart.Same]

theorem SourceVersionOperation.after_eq (now : Int) (db : RolloutDB) (op : SourceVersionOperation) :
    op.after now db = db ∨ op.execute now db = .ok (op.after now db) := by
  rw [after]
  split
  case h_1 h => exact .inr h
  case h_2 => exact .inl rfl

theorem SourceVersionOperation.Fails.of_error {e : Failure} (h : op.execute now db = .error e) :
    op.Fails now db e :=
  ⟨h, by rw [after, h]⟩

theorem SourceVersionOperation.after_same (he : db.Encoded) (now : Int)
    (op : SourceVersionOperation) (hp : op.owns ≠ some part) :
    part.Same db.sourceState (op.after now db).sourceState := by
  rcases op.after_eq now db with h | h
  case inl => simp [h]
  case inr =>
    rcases execute_source h with h | ⟨state, hs, h⟩
    case inl => simp [RolloutDB.sourceState, h]
    case inr => simpa [RolloutDB.sourceState, h] using (hs part hp).encode he.sourceState now

theorem SourceVersionOperation.after_encoded (he : db.Encoded) (now : Int)
    (op : SourceVersionOperation) : (op.after now db).Encoded := by
  rcases op.after_eq now db with h | h
  case inl => rwa [h]
  case inr =>
    intro state hs
    rcases execute_source h with h | ⟨state', -, h⟩
    case inl => exact he state (h ▸ hs)
    case inr =>
      cases Option.some.inj (h.symm.trans hs)
      exact gestaltdSourceVersionStateRecord_encoded ..

theorem SourceVersionOperation.run_encoded (he : db.Encoded)
    (ops : List (Int × SourceVersionOperation)) : (run db ops).Encoded := by
  induction ops generalizing db
  case nil => exact he
  case cons op _ ih => exact ih (op.2.after_encoded he op.1)

-- While there is a pause, the only changes of it that succeed are those of its owner with its token.
theorem GestaltdSourceVersionService.changeAppDeployPause_same (hp : db.PausedBy owner' token')
    (ho : owner' ≠ "") (h : changeAppDeployPause now owner token acquire db = .ok x) :
    trimSpace owner = owner' ∧ trimSpace token = token' := by
  obtain ⟨state, hs, hc, -⟩ := changeAppDeployPause_source h
  simp only [RolloutDB.PausedBy, RolloutDB.sourceState, hs, Option.getD_some] at hp
  rcases hc with hc | ⟨hc, ht⟩
  case inl => exact absurd (hp.left.symm.trans hc) ho
  case inr => exact ⟨hc.symm.trans hp.left, ht.symm.trans hp.right⟩

theorem GestaltdSourceVersionService.acquired
    (h : changeAppDeployPause now owner token true db = .ok x) :
    x.1.PausedBy (trimSpace owner) (trimSpace token) := by
  obtain ⟨_, -, -, hw⟩ := changeAppDeployPause_source h
  simp [RolloutDB.PausedBy, RolloutDB.sourceState, hw, gestaltdSourceVersionStateRecord,
    Text.trimSpace_trimSpace]

theorem SourceVersionOperation.after_pausedBy (he : db.Encoded)
    (hp : db.PausedBy (trimSpace owner) (trimSpace token)) (ho : trimSpace owner ≠ "")
    (hr : op.Releases owner token → ∃ e, op.execute now db = .error e) :
    (op.after now db).PausedBy (trimSpace owner) (trimSpace token) := by
  by_cases hw : op.owns = some .pause
  case neg =>
    obtain ⟨hso, hst⟩ := op.after_same he now hw
    exact ⟨hso.trans hp.left, hst.trans hp.right⟩
  case pos =>
    rcases op.after_eq now db with h | h
    case inl => rwa [h]
    case inr =>
      cases op <;> try cases hw
      case acquireAppDeployPause =>
        obtain ⟨x, hx, h⟩ := Except.bind_eq_ok_iff.mp h
        obtain ⟨hso, hst⟩ := changeAppDeployPause_same hp ho hx
        rw [← hso, ← hst, ← Except.ok.inj h]
        exact acquired hx
      case releaseAppDeployPause =>
        obtain ⟨x, hx, -⟩ := Except.bind_eq_ok_iff.mp h
        obtain ⟨e, hf⟩ := hr (changeAppDeployPause_same hp ho hx)
        cases h.symm.trans hf

theorem SourceVersionOperation.run_pausedBy (he : db.Encoded)
    (hp : db.PausedBy (trimSpace owner) (trimSpace token)) (ho : trimSpace owner ≠ "")
    (hr : Unreleased owner token db ops) :
    (run db ops).PausedBy (trimSpace owner) (trimSpace token) := by
  induction ops generalizing db
  case nil => exact hp
  case cons op _ ih =>
    exact ih (op.2.after_encoded he op.1) (after_pausedBy he hp ho hr.left) hr.right

theorem RolloutDB.PausedBy.source (hp : db.PausedBy owner token) (ho : owner ≠ "") :
    ∃ state, db.source = some state ∧ state.appDeployPauseOwner = owner ∧
      state.appDeployPauseToken = token := by
  cases hs : db.source
  case none => simp [PausedBy, sourceState, hs, ho.symm] at hp
  case some => simpa [PausedBy, sourceState, hs] using hp

theorem GestaltdSourceVersionService.changeAppDeployPause_conflict (acquire : Bool)
    (hp : db.PausedBy owner token) (ho : owner ≠ "")
    (hn : (trimSpace owner', trimSpace token') ≠ (owner, token))
    (ho' : trimSpace owner' ≠ "") (ht' : trimSpace token' ≠ "") :
    changeAppDeployPause now owner' token' acquire db = .error errAppDeployPauseConflict := by
  obtain ⟨state, hs, rfl, rfl⟩ := hp.source ho
  have hc : state.appDeployPauseOwner ≠ trimSpace owner' ∨
      state.appDeployPauseToken ≠ trimSpace token' := by
    by_contra! hc
    exact hn (Prod.ext hc.left.symm hc.right.symm)
  simp [changeAppDeployPause, require, ho', ht', hs, ho, hc, bind, Except.bind]

theorem GestaltdSourceVersionService.createAppRollout_paused (hp : db.PausedBy owner token)
    (ho : owner ≠ "") (hn : Trimmed owner) (rollout : AppRollout) :
    createAppRollout now rollout db = .error errAppDeployPaused := by
  obtain ⟨state, hs, rfl, -⟩ := hp.source ho
  simp only [Trimmed] at hn
  simp [createAppRollout, hs, hn, ho]

-- Each operation leaves alone what it does not own. An acquired pause stays until it is released
-- with the same owner and token, and no rollout is created.
theorem SourceVersionOperation.deploy_pause_exclusive (he : db.Encoded)
    (ops : List (Int × SourceVersionOperation)) :
    (∀ now (op : SourceVersionOperation) (part : StatePart), op.owns ≠ some part →
      part.Same (run db ops).sourceState (op.after now (run db ops)).sourceState) ∧
    ∀ now owner token paused,
      (acquireAppDeployPause owner token).execute now (run db ops) = .ok paused →
      ∀ ops', Unreleased owner token paused ops' →
        (run paused ops').PausedBy (trimSpace owner) (trimSpace token) ∧
        (∀ now owner' token',
          (trimSpace owner', trimSpace token') ≠
            (trimSpace owner, trimSpace token) →
          trimSpace owner' ≠ "" → trimSpace token' ≠ "" →
          (acquireAppDeployPause owner' token').Fails now (run paused ops')
            errAppDeployPauseConflict ∧
          (releaseAppDeployPause owner' token').Fails now (run paused ops')
            errAppDeployPauseConflict) ∧
        (∀ now owner' token', trimSpace owner' = "" ∨ trimSpace token' = "" →
          (acquireAppDeployPause owner' token').Fails now (run paused ops')
            ⟨"acquire app deploy pause: owner and token are required", none⟩ ∧
          (releaseAppDeployPause owner' token').Fails now (run paused ops')
            ⟨"release app deploy pause: owner and token are required", none⟩) ∧
        ∀ now rollout, (createAppRollout rollout).Fails now (run paused ops') errAppDeployPaused := by
  have he := run_encoded he ops
  refine ⟨fun now op part => op.after_same he now, fun now owner token paused h ops' hu => ?_⟩
  have he' : paused.Encoded := by
    simpa only [after, h] using after_encoded he now (acquireAppDeployPause owner token)
  obtain ⟨x, hx, h⟩ := Except.bind_eq_ok_iff.mp h
  cases h
  have ho := (owner_token_required hx).left
  have hp := run_pausedBy he' (acquired hx) ho hu
  refine ⟨hp, fun now owner' token' hn ho' ht' => ?_, fun now owner' token' hb => ?_,
    fun now rollout => ?_⟩
  · constructor <;> apply Fails.of_error <;>
      rw [execute, changeAppDeployPause_conflict _ hp ho hn ho' ht'] <;> rfl
  · constructor <;> apply Fails.of_error <;> rw [execute, changeAppDeployPause_blank _ hb] <;> rfl
  · apply Fails.of_error
    rw [execute, createAppRollout_paused hp ho (trimSpace_trimmed _)]
    rfl

theorem SourceVersionOperation.deploy_pause_exclusive_demo :
    ∃ paused,
      (acquireAppDeployPause " deploy" "1").execute Time.minute
        (run {} [(Time.second, activateWithRolloutMode ⟨"v1", 0, false, 1, 2, .unset, []⟩)]) =
        .ok paused ∧
      paused.PausedBy "deploy" "1" ∧
      (releaseAppDeployPause "deploy" "2").Fails Time.day paused errAppDeployPauseConflict ∧
      (createAppRollout ⟨"a", "v", .enrolling, .unset, "", 0, 0, 0, 0, 0, 0, 0, 0, none⟩).Fails
        Time.day paused errAppDeployPaused := by
  obtain ⟨paused, h, -⟩ : ∃ paused,
      (acquireAppDeployPause " deploy" "1").execute Time.minute
        (run {} [(Time.second, activateWithRolloutMode ⟨"v1", 0, false, 1, 2, .unset, []⟩)]) =
        .ok paused ∧ paused.source.isSome = true :=
    Except.eq_ok_of_toOption (by decide +kernel)
  have he : RolloutDB.Encoded {} := by
    intro _ h
    cases h
  obtain ⟨hp, hc, -, hr⟩ := (deploy_pause_exclusive he _).right _ _ _ _ h [] trivial
  refine ⟨paused, h, ?_, (hc Time.day "deploy" "2" ?_ ?_ ?_).right, hr Time.day _⟩
  · have ho : trimSpace " deploy" = "deploy" := by decide +kernel
    have ht : trimSpace "1" = "1" := by decide +kernel
    exact ho ▸ ht ▸ hp
  all_goals decide +kernel

-- The first activation sets the promotion time. A request without an owner fails without the pause.
theorem SourceVersionOperation.unset_promotion_time_and_blank_owner :
    let activate := activateWithRolloutMode ⟨"v1", 0, false, 1, 2, .unset, []⟩
    let active := run {} [(Time.second, activate)]
    let paused := (acquireAppDeployPause "deploy" "1").after Time.minute active
    (activate.owns ≠ some .promotion ∧
      (run {} []).sourceState.temporalWorkersPromotedAt = 0 ∧
      active.sourceState.temporalWorkersPromotedAt = Time.second) ∧
    paused.sourceState.appDeployPauseOwner = "deploy" ∧
    paused.sourceState.appDeployPauseToken = "1" ∧
    ((acquireAppDeployPause "" "2").execute Time.day paused).map RolloutDB.source =
      .error ⟨"acquire app deploy pause: owner and token are required", none⟩ := by
  decide +kernel

end Coredata
