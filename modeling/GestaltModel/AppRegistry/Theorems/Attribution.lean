import GestaltModel.AppRegistry.Attribution
import GestaltModel.AppRegistry.Theorems.Poller
import GestaltModel.Coredata.Theorems.ChangeRequests

namespace AppRegistry.Attribution

open Coredata Interleaving ServiceProgram CatalogPoller AppRolloutService ObjectStore
open ServiceCall (IsRead Response reads setRollouts writes_cases)
open AppVersionChangeRequestService (appendRequest appendRequest_eq_ok latestRevisionIDForVersion
  normalizeRequest_id)

variable {ι κ : Type} {i : ι} {k : κ} {c : ι ⊕ κ} {q : ServiceCall} {a : Answer}
variable {s s' s₁ s₂ s₃ : ServiceMemory (AttributionRecord ι κ)} {r rollout : AppRollout}

-- The outcome is how the rollout of the install has ended that has appended the change request.
def Attributed (outcome : AppVersionRolloutOutcome) (s : ServiceMemory (AttributionRecord ι κ)) :
    Prop :=
  ∃ k e, s.record.author outcome.id = some k ∧ s.record.ended k = some e ∧
    outcome = e.outcome outcome.id

structure Inv (s : ServiceMemory (AttributionRecord ι κ)) : Prop where
  appended : ∀ id k, s.record.author id = some k → s.requests.lookup id ≠ none
  ids : ∀ id, s.requests.lookup id ≠ none → id ≠ "" ∧ Text.Trimmed id
  unique : ∀ app app' k, s.record.owner app = some k → s.record.owner app' = some k → app = app'
  ended : ∀ app k e, s.record.owner app = some k → s.record.ended k = some e →
    ∃ r, s.db.rollout? app = some r ∧ ¬IsActiveRolloutState r.state ∧ .of r = e
  outcomes : ∀ id outcome, s.outcomes.lookup id = some outcome → Attributed outcome s

-- The install has not created a rollout.
def Fresh (k : κ) (s : ServiceMemory (AttributionRecord ι κ)) : Prop :=
  (∀ app, s.record.owner app ≠ some k) ∧ s.record.ended k = none

-- What was recorded once stays like that.
structure Keeps (s s' : ServiceMemory (AttributionRecord ι κ)) : Prop where
  author : ∀ {id k}, s.record.author id = some k → s'.record.author id = some k
  ended : ∀ {k e}, s.record.ended k = some e → s'.record.ended k = some e

structure Rely (c : ι ⊕ κ) (s s' : ServiceMemory (AttributionRecord ι κ)) : Prop
    extends Keeps s s' where
  recording : ∀ i, c = .inl i → s'.record.recording i = s.record.recording i
  fresh : ∀ k, c = .inr k → Fresh k s → Fresh k s'

structure Guar (c : ι ⊕ κ) (s s' : ServiceMemory (AttributionRecord ι κ)) : Prop
    extends Keeps s s' where
  recording : ∀ i, c ≠ .inl i → s'.record.recording i = s.record.recording i
  fresh : ∀ k, c ≠ .inr k → Fresh k s → Fresh k s'

theorem Keeps.refl (s : ServiceMemory (AttributionRecord ι κ)) : Keeps s s :=
  ⟨id, id⟩

theorem Keeps.trans (h₁ : Keeps s₁ s₂) (h₂ : Keeps s₂ s₃) : Keeps s₁ s₃ :=
  ⟨fun h => h₂.author (h₁.author h), fun h => h₂.ended (h₁.ended h)⟩

theorem Rely.refl (c : ι ⊕ κ) (s : ServiceMemory (AttributionRecord ι κ)) : Rely c s s :=
  ⟨.refl s, fun _ _ => rfl, fun _ _ => id⟩

theorem Rely.trans (h₁ : Rely c s₁ s₂) (h₂ : Rely c s₂ s₃) : Rely c s₁ s₃ where
  toKeeps := h₁.toKeeps.trans h₂.toKeeps
  recording i h := (h₂.recording i h).trans (h₁.recording i h)
  fresh k h hf  := h₂.fresh k h (h₁.fresh k h hf)

theorem Guar.refl (c : ι ⊕ κ) (s : ServiceMemory (AttributionRecord ι κ)) : Guar c s s :=
  ⟨.refl s, fun _ _ => rfl, fun _ _ => id⟩

theorem Attributed.keeps (h : Attributed outcome s) (hk : Keeps s s') : Attributed outcome s' := by
  have ⟨k, e, ha, he, ho⟩ := h
  exact ⟨k, e, hk.author ha, hk.ended he, ho⟩

theorem Inv.of_keeps (hi : Inv s)
    (hk : Keeps s { s with db, record }) (ha : record.author = s.record.author)
    (hu : ∀ app app' k, record.owner app = some k → record.owner app' = some k → app = app')
    (he : ∀ app k e, record.owner app = some k → record.ended k = some e →
      ∃ r, db.rollout? app = some r ∧ ¬IsActiveRolloutState r.state ∧ .of r = e) :
    Inv { s with db, record } where
  appended id k h     := hi.appended id k (ha ▸ h)
  ids := hi.ids
  unique := hu
  ended := he
  outcomes id o h     := (hi.outcomes id o h).keeps hk

section Returned

variable {db : RolloutDB}

theorem Inv.ended_of_returned (hi : Inv s) (hr : s.db.Returned db rollout)
    (ho : s.record.owner rollout.app = some k) (he : s.record.ended k = some e) :
    db = s.db ∧ ¬IsActiveRolloutState rollout.state ∧ .of rollout = e := by
  have ⟨r₀, hf, hr⟩ := hr
  have ⟨r₁, hf₁, hn, he⟩ := hi.ended _ _ _ ho he
  cases Option.some.inj (hf.symm.trans hf₁)
  rcases hr with ⟨hdb, hr⟩ | ⟨ha, _⟩
  case inl => exact ⟨hdb, hr ▸ hn, hr ▸ he⟩
  case inr => contradiction

variable [DecidableEq ι] [DecidableEq κ]

theorem Inv.keeps_returned (hi : Inv s) (hr : s.db.Returned db rollout) :
    Keeps s { s with db, record := noteRollout c rollout s.record } where
  author h := h
  ended {k e} he := by
    simp only [noteRollout]
    split
    case isTrue hk => rw [(hi.ended_of_returned hr hk.left he).right.right]
    case isFalse => exact he

theorem Inv.returned (hi : Inv s) (hr : s.db.Returned db rollout) :
    Inv { s with db, record := noteRollout c rollout s.record } := by
  refine hi.of_keeps (hi.keeps_returned hr) rfl hi.unique fun app k e ho he => ?_
  have ⟨r₀, hf, hr'⟩ := hr
  simp only [noteRollout] at he
  split at he
  case isTrue hk =>
    cases he
    cases hi.unique _ _ _ ho hk.left
    rcases hr' with ⟨hdb, hr'⟩ | ⟨_, hdb, _⟩
    case inl => exact ⟨r₀, hdb ▸ hf, hr' ▸ hk.right, hr' ▸ rfl⟩
    case inr => exact ⟨_, hdb, hk.right, rfl⟩
  case isFalse =>
    by_cases ha : app = rollout.app
    case pos =>
      have ⟨hdb, _⟩ := hi.ended_of_returned hr (ha ▸ ho) he
      rw [hdb]
      exact hi.ended app k e ho he
    case neg =>
      have ⟨r, hr, h⟩ := hi.ended app k e ho he
      rcases hr' with ⟨hdb, _⟩ | ⟨_, _, hdb⟩
      case inl => exact ⟨r, hdb ▸ hr, h⟩
      case inr => exact ⟨r, (hdb app ha).trans hr, h⟩

theorem Inv.guar_returned (hi : Inv s) (hr : s.db.Returned db rollout) :
    Guar c s { s with db, record := noteRollout c rollout s.record } where
  toKeeps := hi.keeps_returned hr
  recording i h := if_neg h
  fresh k _ hf  := by
    refine ⟨hf.left, ?_⟩
    simp only [noteRollout]
    rw [if_neg fun h => hf.left _ h.left]
    exact hf.right

end Returned

section Steps

theorem Inv.created (hi : Inv s) (hf : Fresh k s)
    (hdb : ∀ app ≠ r.app, db.rollout? app = s.db.rollout? app) :
    let record := { s.record with owner := Function.update s.record.owner r.app (some k) }
    Inv { s with db, record } ∧ Guar (.inr k) s { s with db, record } := by
  have owner {app k'} (h : Function.update s.record.owner r.app (some k) app = some k') :
      app = r.app ∧ k' = k ∨ app ≠ r.app ∧ s.record.owner app = some k' := by
    by_cases ha : app = r.app
    case pos =>
      rw [ha, Function.update_self] at h
      exact .inl ⟨ha, (Option.some.inj h).symm⟩
    case neg =>
      rw [Function.update_of_ne ha] at h
      exact .inr ⟨ha, h⟩
  refine ⟨hi.of_keeps ⟨id, id⟩ rfl (fun app app' k' h h' => ?_) fun app k' e h he => ?_,
    ⟨id, id⟩, fun _ _ => rfl, fun k' hk hf' => ⟨fun app h => ?_, hf'.right⟩⟩
  · rcases owner h with ⟨ha, hk⟩ | ⟨_, h⟩ <;> rcases owner h' with ⟨ha', hk'⟩ | ⟨_, h'⟩
    case inl.inl => exact ha.trans ha'.symm
    case inl.inr => exact absurd (hk ▸ h') (hf.left app')
    case inr.inl => exact absurd (hk' ▸ h) (hf.left app)
    case inr.inr => exact hi.unique app app' k' h h'
  · rcases owner h with ⟨_, hk⟩ | ⟨ha, h⟩
    case inl => exact nomatch (hk ▸ he).symm.trans hf.right
    case inr =>
      have ⟨r', hr', h⟩ := hi.ended app k' e h he
      exact ⟨r', (hdb app ha).trans hr', h⟩
  · rcases owner h with ⟨_, hk'⟩ | ⟨_, h⟩
    case inl => exact hk (hk' ▸ rfl)
    case inr => exact hf'.left app h

theorem Inv.append (hi : Inv s)
    (hn : s.requests.lookup added.id = none) (hid : added.id ≠ "" ∧ Text.Trimmed added.id)
    (ha : ∀ id ≠ added.id, author id = s.record.author id) :
    let record := { s.record with author }
    Inv { s with requests := s.requests.put added, record } ∧
    Guar c s { s with requests := s.requests.put added, record } := by
  have stored (id : String) : id = added.id ∨
      id ≠ added.id ∧ (s.requests.put added).lookup id = s.requests.lookup id := by
    by_cases h : id = added.id
    case pos => exact .inl h
    case neg => exact .inr ⟨h, lookup_put_of_ne h⟩
  have hk : Keeps s { s with requests := s.requests.put added, record := { s.record with author } } := by
    refine ⟨fun {id k} h => ?_, id⟩
    rw [← h]
    exact ha id fun he => hi.appended id k h (he ▸ hn)
  refine ⟨⟨fun id k h => ?_, fun id h => ?_, hi.unique, hi.ended,
    fun id o h => (hi.outcomes id o h).keeps hk⟩, hk, fun _ _ => rfl, fun _ _ => id⟩
  · rcases stored id with he | ⟨hne, hl⟩
    case inl =>
      have hput : (s.requests.put added).lookup added.id = some added := lookup_put_self
      rw [he]
      exact fun h => nomatch h.symm.trans hput
    case inr =>
      rw [hl]
      exact hi.appended id k ((ha id hne).symm.trans h)
  · rcases stored id with he | ⟨_, hl⟩
    case inl => exact he ▸ hid
    case inr => exact hi.ids id (hl ▸ h)

theorem Inv.record (hi : Inv s) (ho : Attributed outcome s) :
    Inv { s with outcomes := s.outcomes.put outcome } where
  appended := hi.appended
  ids := hi.ids
  unique := hi.unique
  ended := hi.ended
  outcomes id o h := by
    by_cases hid : id = outcome.id
    case pos =>
      have hput : (s.outcomes.put outcome).lookup outcome.id = some outcome :=
        lookup_put_self
      rw [hid] at h
      exact Option.some.inj (hput.symm.trans h) ▸ ho
    case neg =>
      have hput : (s.outcomes.put outcome).lookup id = s.outcomes.lookup id :=
        lookup_put_of_ne hid
      exact hi.outcomes id o (hput ▸ h)

end Steps

section Exec

variable [DecidableEq ι] [DecidableEq κ]

theorem read_exec (h : q.IsRead) : ((semantics ι κ).exec c q a s).1 = s := by
  have hn (res : q.Response) : note c q res s = s.record := by cases c <;> cases h <;> rfl
  simp only [h.exec_eq, hn]

-- The calls that return a rollout which they did not create.

theorem mark_exec (mark : Mark) (app version : String) :
    (∃ e, (semantics ι κ).exec c (.mark mark app version) a s = (s, .error e)) ∨
    ∃ db r', s.db.Returned db r' ∧ (semantics ι κ).exec c (.mark mark app version) a s =
      ({ s with db, record := noteRollout c r' s.record }, .ok r') := by
  rcases writes_cases a s (AppRolloutService.mark a.time mark app version s.db.rollouts)
    (setRollouts s) with ⟨e, he⟩ | ⟨rollouts, r', hx, he⟩
  all_goals simp only [ServiceCall.exec, he]
  case inl => exact .inl ⟨e, by cases c <;> rfl⟩
  case inr => exact .inr ⟨_, r', transition_returned hx, by cases c <;> rfl⟩

theorem markForRollout_exec (mark : Mark) (r : AppRollout) :
    (∃ e, (semantics ι κ).exec c (.markForRollout mark r) a s = (s, .error e)) ∨
    ∃ db r', s.db.Returned db r' ∧ (semantics ι κ).exec c (.markForRollout mark r) a s =
      ({ s with db, record := noteRollout c r' s.record }, .ok r') := by
  rcases writes_cases a s (markForRollout a.time mark r s.db.rollouts)
    (setRollouts s) with ⟨e, he⟩ | ⟨rollouts, r', hx, he⟩
  all_goals simp only [ServiceCall.exec, he]
  case inl => exact .inl ⟨e, by cases c <;> rfl⟩
  case inr => exact .inr ⟨_, r', transition_returned hx, by cases c <;> rfl⟩

theorem evaluate_exec (r : AppRollout) (evaluation : HeartbeatRolloutEvaluation) :
    (∃ e, (semantics ι κ).exec c (.evaluateHeartbeatRollout r evaluation) a s = (s, .error e)) ∨
    ∃ db r' transitioned, s.db.Returned db r' ∧
      (semantics ι κ).exec c (.evaluateHeartbeatRollout r evaluation) a s =
        ({ s with db, record := noteRollout c r' s.record }, .ok (r', transitioned)) := by
  rcases writes_cases a s (evaluateHeartbeatRollout a.time r evaluation s.db.rollouts)
    (setRollouts s) with ⟨e, he⟩ | ⟨rollouts, ⟨r', transitioned⟩, hx, he⟩
  all_goals simp only [ServiceCall.exec, he]
  case inl => exact .inl ⟨e, by cases c <;> rfl⟩
  case inr =>
    exact .inr ⟨_, r', transitioned, evaluateHeartbeatRollout_returned hx, by cases c <;> rfl⟩

theorem appendRequest_exec (request : AppVersionChangeRequest) (hi : Inv s) :
    Inv ((semantics ι κ).exec c (.appendRequest request) a s).1 ∧
    Guar c s ((semantics ι κ).exec c (.appendRequest request) a s).1 := by
  rcases writes_cases a s
    (appendRequest a.time a.uuid request s.requests)
    ({ s with requests := · }) with ⟨e, he⟩ | ⟨requests, added, hx, he⟩
  all_goals simp only [ServiceCall.exec, he]
  case inl => cases c <;> exact ⟨hi, .refl _ s⟩
  case inr =>
    obtain ⟨ha, hn, hs⟩ := appendRequest_eq_ok hx
    have hid : added.id ≠ "" ∧ Text.Trimmed added.id :=
      ha ▸ normalizeRequest_id
    subst hs
    cases c
    case inl i => exact hi.append hn hid fun _ _ => rfl
    case inr k => exact hi.append hn hid fun _ h => Function.update_of_ne h ..

theorem create_exec (rollout : AppRollout) (hi : Inv s) (hf : Fresh k s) :
    Inv ((semantics ι κ).exec (.inr k) (.create rollout) a s).1 ∧
    Guar (.inr k) s ((semantics ι κ).exec (.inr k) (.create rollout) a s).1 := by
  rcases writes_cases a s (create a.time rollout s.db.rollouts)
    (setRollouts s) with ⟨e, he⟩ | ⟨rollouts, r, hx, he⟩
  all_goals simp only [ServiceCall.exec, he]
  case inl => exact ⟨hi, .refl _ s⟩
  case inr =>
    obtain ⟨_, _, hr, _⟩ := create_eq_ok hx
    subst hr
    exact hi.created hf fun _ hne => RolloutDB.rollout?_put_of_ne hne

theorem createAppRollout_exec (rollout : AppRollout) (hi : Inv s) (hf : Fresh k s) :
    Inv ((semantics ι κ).exec (.inr k) (.createAppRollout rollout) a s).1 ∧
    Guar (.inr k) s ((semantics ι κ).exec (.inr k) (.createAppRollout rollout) a s).1 := by
  rcases writes_cases a s
    (GestaltdSourceVersionService.createAppRollout a.time rollout s.db)
    ({ s with db := · }) with ⟨e, he⟩ | ⟨db, r, hx, he⟩
  all_goals simp only [ServiceCall.exec, he]
  case inl => exact ⟨hi, .refl _ s⟩
  case inr =>
    obtain ⟨_, _, _, _, _, hdb, _⟩ := GestaltdSourceVersionService.createAppRollout_eq_ok hx
    subst hdb
    exact hi.created hf fun _ hne => RolloutDB.rollout?_put_of_ne hne

end Exec

section Programs

variable [DecidableEq ι] [DecidableEq κ] {post : α → ServiceMemory (AttributionRecord ι κ) → Prop}

theorem compatible : Compatible (semantics ι κ) Inv Rely Guar where
  refl := .refl
  trans _ := .trans
  interfere hij _ _ h := {
    toKeeps := h.toKeeps
    recording := fun i hj => h.recording i fun hi => hij (hi.trans hj.symm)
    fresh := fun k hj => h.fresh k fun hi => hij (hi.trans hj.symm) }
  env_inv a  := a.elim
  env_rely a := a.elim

abbrev AttributionSafe (c : ι ⊕ κ) (post : α → ServiceMemory (AttributionRecord ι κ) → Prop)
    (prog : ServiceProgram α) (s : ServiceMemory (AttributionRecord ι κ)) : Prop :=
  Safe (semantics ι κ) timely Inv c (Rely c) (Guar c) post prog s

-- If the rollout that replica `i` got from the store has ended, then it is recorded like that.
def Knows (i : ι) (r : AppRollout) (s : ServiceMemory (AttributionRecord ι κ)) : Prop :=
  ∀ k, s.record.recording i = some k → ¬IsActiveRolloutState r.state →
    s.record.ended k = some (.of r)

theorem knows_noteRollout :
    Knows (κ := κ) i r { s with db, record := noteRollout (.inl i) r s.record } := by
  intro k ho hn
  have ho : s.record.owner r.app = some k := (if_pos rfl).symm.trans ho
  exact if_pos ⟨ho, hn⟩

omit [DecidableEq ι] [DecidableEq κ] in
theorem Knows.rely (h : Knows i r s) (hr : Rely (.inl i) s s') : Knows i r s' := by
  intro k ho hn
  rw [hr.recording i rfl] at ho
  exact hr.ended (h k ho hn)

theorem markForRollout_safe {mark : Mark} {k : Except Failure AppRollout → ServiceProgram α}
    (failed : ∀ s' f, AttributionSafe (κ := κ) (.inl i) post (k (.error f)) s')
    (returned : ∀ s' r', Knows i r' s' → AttributionSafe (κ := κ) (.inl i) post (k (.ok r')) s') :
    AttributionSafe (κ := κ) (.inl i) post (.call (.markForRollout mark r) k) s := by
  intro s' _ hi _ a
  rcases markForRollout_exec (c := .inl i) (a := a) (s := s') mark r with ⟨e, he⟩ | ⟨db, r', hr, he⟩
  all_goals rw [he]
  case inl => exact ⟨hi, .refl _ _, failed s' e⟩
  case inr => exact ⟨hi.returned hr, hi.guar_returned hr, returned _ r' knows_noteRollout⟩

theorem evaluate_safe {k : Except Failure (AppRollout × Bool) → ServiceProgram α}
    (failed : ∀ s' f, AttributionSafe (κ := κ) (.inl i) post (k (.error f)) s')
    (returned : ∀ s' r' transitioned, Knows i r' s' →
      AttributionSafe (κ := κ) (.inl i) post (k (.ok (r', transitioned))) s') :
    AttributionSafe (κ := κ) (.inl i) post (.call (.evaluateHeartbeatRollout r evaluation) k) s := by
  intro s' _ hi _ a
  rcases evaluate_exec (c := .inl i) (a := a) (s := s') r evaluation with
    ⟨e, he⟩ | ⟨db, r', transitioned, hr, he⟩
  all_goals rw [he]
  case inl => exact ⟨hi, .refl _ _, failed s' e⟩
  case inr =>
    exact ⟨hi.returned hr, hi.guar_returned hr, returned _ r' transitioned knows_noteRollout⟩

theorem read_safe {k : q.Response → ServiceProgram α} (hq : q.IsRead)
    (h : ∀ s' res, Rely c s s' → AttributionSafe c post (k res) s') :
    AttributionSafe c post (.call q k) s := by
  intro s' hr hi _ a
  rw [read_exec hq]
  exact ⟨hi, .refl c s', h s' _ hr⟩

theorem addOutcome_safe {k : Except Failure Unit → ServiceProgram α} (ho : Attributed outcome s)
    (h : ∀ s' res, AttributionSafe c post (k res) s') :
    AttributionSafe c post (.call (.addOutcome outcome) k) s := by
  intro s' hr hi _ a
  have ho := ho.keeps hr.toKeeps
  rcases writes_cases a s' ((s'.outcomes.add outcome).map (·, ()))
    ({ s' with outcomes := · }) with ⟨e, he⟩ | ⟨outcomes, _, hx, he⟩
  all_goals simp only [ServiceCall.exec, he]
  case inl => cases c <;> exact ⟨hi, .refl _ s', h _ _⟩
  case inr =>
    cases hadd : s'.outcomes.add outcome <;> rw [hadd] at hx <;> cases hx
    obtain ⟨_, hput⟩ := add_eq_ok.mp hadd
    subst hput
    cases c <;> exact ⟨hi.record ho, ⟨⟨id, id⟩, fun _ _ => rfl, fun _ _ => id⟩, h _ _⟩

omit [DecidableEq ι] [DecidableEq κ] in
theorem outcomeRecord_eq_ok {id : String} (hid : Text.Trimmed id)
    (ht : terminalTimes r = some (completedAt, failedAt))
    (h : AppVersionRolloutOutcomeService.outcomeRecord id r.app r.version completedAt failedAt =
      .ok outcome) : outcome = (RolloutEnd.of r).outcome id := by
  have hid : Text.trimSpace id = id := hid
  obtain ⟨_, _, h⟩ := Except.bind_eq_ok_iff.mp h
  obtain ⟨_, _, h⟩ := Except.bind_eq_ok_iff.mp h
  cases h
  rw [terminalTimes] at ht
  split at ht
  case h_1 hs =>
    obtain ⟨_, ht⟩ := Option.ite_none_left_eq_some.mp ht
    cases ht
    simp [RolloutEnd.outcome, RolloutEnd.of, hs, hid, Time.truncate]
  case h_2 hs =>
    obtain ⟨_, ht⟩ := Option.ite_none_left_eq_some.mp ht
    cases ht
    simp [RolloutEnd.outcome, RolloutEnd.of, hs, hid, Time.truncate]
  case h_3 => contradiction

theorem get_reads (id : String) : (RolloutOutcomes.get id).Only IsRead := by
  rw [RolloutOutcomes.get, invoke_bind]
  refine .call (.getOutcome id) fun res => ?_
  cases res <;> dsimp only
  case ok => exact .ret _
  case error => split <;> exact .ret _

theorem reads_only (hp : prog.Only IsRead) :
    AttributionSafe c (fun _ s' => Rely c s s') prog s := by
  induction hp generalizing s
  case ret => exact fun _ hr _ => hr
  case call hc _ hk =>
    exact read_safe hc fun s' res hr => (hk res).mono fun _ _ _ hr' => hr.trans hr'

theorem recordChecked_safe (ho : Attributed outcome s) :
    AttributionSafe c (fun _ _ => True) (RolloutOutcomes.recordChecked outcome) s := by
  rw [RolloutOutcomes.recordChecked, invoke_bind]
  refine read_safe .ensureStore fun s₁ res hr => ?_
  have ho := ho.keeps hr.toKeeps
  cases res
  case error => exact .done
  case ok =>
    refine .bind (.refl c) (reads_only (get_reads _)) fun res s₂ _ hr => ?_
    cases res
    case ok    => exact .done
    case error =>
      dsimp only
      split
      · exact .done
      · rw [invoke_bind]
        refine addOutcome_safe (ho.keeps hr.toKeeps) fun s₃ res => ?_
        cases res <;> dsimp only
        case ok    => exact .done
        case error => split <;> exact .done

theorem record_safe {id : String}
    (ha : s.record.author id = some k) (he : s.record.ended k = some (.of r))
    (hid : Text.Trimmed id) (ht : terminalTimes r = some (completedAt, failedAt)) :
    AttributionSafe c (fun _ _ => True)
      (RolloutOutcomes.record id r.app r.version completedAt failedAt) s := by
  rw [RolloutOutcomes.record]
  split
  case h_1 => exact .done
  case h_2 outcome hout =>
    have ho := outcomeRecord_eq_ok hid ht hout
    have hoid : outcome.id = id := by rw [ho]; rfl
    exact recordChecked_safe ⟨k, .of r, hoid ▸ ha, he, hoid ▸ ho⟩

omit [DecidableEq ι] [DecidableEq κ] in
theorem terminal_of_times (h : terminalTimes r = some times) :
    ¬IsActiveRolloutState r.state := by
  rw [terminalTimes] at h
  split at h
  case h_1 hs => simp [hs, IsActiveRolloutState]
  case h_2 hs => simp [hs, IsActiveRolloutState]
  case h_3 => contradiction

omit [DecidableEq ι] [DecidableEq κ] in
theorem Inv.author_of_latest (hi : Inv s) {app version id : String} (hl : Latest s k app version)
    (h : latestRevisionIDForVersion app version s.requests = .ok id)
    (hn : id ≠ "") : s.record.author id = some k ∧ Text.Trimmed id := by
  have ⟨request, hm, ha, ⟨hlist, hv⟩, hall⟩ := hl
  have hstored : s.requests.lookup request.id ≠ none := hi.appended _ _ ha
  have ⟨hne, ht⟩ := hi.ids _ hstored
  have he := AppVersionChangeRequestService.latestRevisionIDForVersion_eq_ok h hn hm hne hlist hv
    fun other hm hlist hv => hall other hm ⟨hlist, hv⟩
  exact he ▸ ⟨ha, ht⟩

variable {p : CatalogPoller}

theorem recordRolloutOutcome_safe (hk : Knows i r s) :
    AttributionSafe (κ := κ) (.inl i) (fun _ _ => True) (p.recordRolloutOutcome r) s := by
  rw [recordRolloutOutcome]
  split; · exact .done
  split
  case h_1 => exact .done
  case h_2 completedAt failedAt ht =>
    rw [invoke_bind]
    intro s' hr hi hg a
    obtain ⟨k, ho, hl⟩ := hg
    have hend := (hk.rely hr) k ho (terminal_of_times ht)
    rw [read_exec (.latestRevisionIDForVersion ..)]
    refine ⟨hi, .refl _ _, ?_⟩
    simp only [ServiceCall.exec]
    cases hres : reads a
      (latestRevisionIDForVersion r.app r.version s'.requests)
    case error => exact .done
    case ok id =>
      have hres : latestRevisionIDForVersion r.app r.version
          s'.requests = .ok id := by
        simp only [reads] at hres
        split at hres
        · contradiction
        · exact hres
      dsimp only
      split; · exact .done
      case isFalse hn =>
        obtain ⟨ha, hid⟩ := hi.author_of_latest hl hres hn
        exact .bind (.refl _) (record_safe ha hend hid ht) fun _ _ _ _ => .done

theorem markTerminal_safe {mark : Mark} :
    AttributionSafe (κ := κ) (.inl i) (fun _ _ => True) (p.markTerminal mark context r) s := by
  rw [markTerminal, invoke_bind]
  refine markForRollout_safe (fun s₁ f => ?_) fun s₁ r' hk => ?_
  · dsimp only
    split <;> exact .done
  · exact .bind (.refl _) (recordRolloutOutcome_safe hk) fun _ _ _ _ => .done

theorem evaluateRollout_safe :
    AttributionSafe (κ := κ) (.inl i) (fun _ _ => True) (p.evaluateRollout r evaluation) s := by
  rw [evaluateRollout, invoke_bind]
  refine evaluate_safe (fun s₁ f => ?_) fun s₁ r' transitioned hk => ?_
  · dsimp only
    split <;> exact .done
  · cases transitioned
    case false => exact .done
    case true =>
      exact .bind (.refl _) (recordRolloutOutcome_safe hk) fun _ _ _ _ => .done

omit [DecidableEq ι] [DecidableEq κ] in
theorem gateHealthy_reads {now : Int} :
    (p.gateHealthy r now healthy).Only IsRead := by
  rw [gateHealthy]
  split
  case isFalse => exact .ret _
  case isTrue =>
    refine .bind prepareRolloutCompletion_reads fun res => ?_
    match res with
    | .ok true  => exact .ret _
    | .ok false => exact .ret _
    | .error _  =>
      dsimp only
      split <;> exact .ret _

theorem updateHeartbeatRolloutOutcome_safe :
    AttributionSafe (κ := κ) (.inl i) (fun _ _ => True) (p.updateHeartbeatRolloutOutcome r) s := by
  rw [updateHeartbeatRolloutOutcome]
  split; · exact .done
  split; · exact .done
  refine .bind (.refl _) (reads_only now_reads) fun t s₁ _ _ => ?_
  rw [invoke_bind]
  refine read_safe (.listFreshBySourceVersion ..) fun s₂ res _ => ?_
  cases res
  case error => exact .done
  case ok =>
    refine .bind (.refl _) (reads_only gateHealthy_reads) fun res s₃ _ _ => ?_
    match res with
    | .error _     => exact .done
    | .ok none     => exact .done
    | .ok (some _) => exact evaluateRollout_safe

theorem pollerRules : Rules (note (κ := κ)) timely Inv (.inl i) (Rely (κ := κ) (.inl i))
    (Guar (κ := κ) (.inl i)) p fun _ _ => True where
  refl := .refl _
  seen_rely _ _ _ := trivial
  seen_guar _ _ _ := trivial
  reads q s h hi _ a := by
    rw [read_exec h]
    exact ⟨hi, .refl _ s⟩
  listed _ _ _    := trivial
  restarted := markForRollout_safe (fun _ _ _ _ _ _ _ => trivial)
    fun _ _ _ _ _ _ _ _ => trivial
  terminal := markTerminal_safe
  heartbeat _     := updateHeartbeatRolloutOutcome_safe

section Install

variable {installer : Installer} {input : InstallInput}

theorem createRollout_safe (hf : Fresh k s) :
    AttributionSafe (ι := ι) (.inr k) (fun _ _ => True) (installer.createRollout rollout) s := by
  rw [Installer.createRollout]
  split
  · intro s' hr hi _ a
    have ⟨hinv, hguar⟩ := createAppRollout_exec (a := a) rollout hi (hr.fresh k rfl hf)
    exact ⟨hinv, hguar, .done⟩
  · intro s' hr hi _ a
    have ⟨hinv, hguar⟩ := create_exec (a := a) rollout hi (hr.fresh k rfl hf)
    exact ⟨hinv, hguar, .done⟩

theorem appendOrFail_safe {request : AppVersionChangeRequest} :
    AttributionSafe c (fun _ _ => True) (Installer.appendOrFail app version request) s := by
  rw [Installer.appendOrFail, invoke_bind]
  intro s₁ _ hi _ a
  have ⟨hinv, hguar⟩ := appendRequest_exec (c := c) (a := a) request hi
  refine ⟨hinv, hguar, ?_⟩
  generalize ((semantics ι κ).exec c (.appendRequest request) a s₁).2 = res
  cases res
  case ok => exact .done
  case error =>
    refine .bind (.refl _) (reads_only now_reads) fun t s₂ _ _ => ?_
    rw [invoke_bind]
    intro s₃ _ hi _ a
    rcases mark_exec (c := c) (a := a) (s := s₃) (.failed t) app version with
      ⟨e, he⟩ | ⟨db, r', hr, he⟩
    all_goals rw [he]
    case inl => exact ⟨hi, .refl _ _, .done⟩
    case inr => exact ⟨hi.returned hr, hi.guar_returned hr, .done⟩

theorem install_safe (hf : Fresh k s) :
    AttributionSafe (ι := ι) (.inr k) (fun _ _ => True) (installer.install input) s := by
  rw [Installer.install, invoke_bind]
  refine read_safe (.admitInstall ..) fun s₁ res hr => ?_
  have hf := hr.fresh k rfl hf
  cases res
  case error => exact .done
  case ok admission =>
    refine .bind (.refl _) (reads_only now_reads) fun t s₂ _ hr => ?_
    have hf := hr.fresh k rfl hf
    refine .bind (.refl _) (createRollout_safe hf) fun res s₃ _ _ => ?_
    cases res
    case error =>
      dsimp only
      split <;> exact .done
    case ok =>
      refine .bind (.refl _) appendOrFail_safe fun res _ _ _ => ?_
      cases res <;> exact .done

end Install

-- If the change request of a rollout is the latest one when it is looked up, the outcome stored
-- under it is how the rollout of the same install has ended.
theorem outcomes_attributed {pollers : ι → CatalogPoller} {passes : ι → List Pass}
    {installers : κ → Installer} {inputs : κ → InstallInput}
    {source : Option GestaltdSourceVersionState}
    {c : Config (ι ⊕ κ) ServiceCall Response Unit (ServiceMemory (AttributionRecord ι κ))}
    (h : Reaches (semantics ι κ) timely (config pollers passes installers inputs source) c)
    {id : String} {outcome : AppVersionRolloutOutcome}
    (ho : c.mem.outcomes.lookup id = some outcome) :
    ∃ k e, c.mem.record.author id = some k ∧ c.mem.record.ended k = some e ∧
      outcome = e.outcome id := by
  have hs : Sound (semantics ι κ) timely Inv Rely Guar (fun _ _ _ => True)
      (config pollers passes installers inputs source) := by
    refine ⟨⟨nofun, nofun, nofun, nofun, nofun⟩, fun c => ?_⟩
    cases c
    case inl i => exact pollerRules.run_safe
    case inr k =>
      exact .bind (.refl _) (install_safe ⟨nofun, rfl⟩) fun _ _ _ _ => .done
  have hid : outcome.id = id := id_of_lookup ho
  exact hid ▸ (hs.reaches compatible h).holds.outcomes id outcome ho

end Programs

section Demo

def demoConfig : Config (Unit ⊕ Bool) ServiceCall Response Unit
    (ServiceMemory (AttributionRecord Unit Bool)) :=
  config (fun _ => { heartbeatTTL := 0, healthyStabilityWindow := 0 })
    (fun _ => [.reconcile default]) (fun _ => {}) (fun _ => { app := "demo", version := "1.0.0" }) none

def demoUUID (second : Bool) : UUID :=
  if second then ⟨"second", by decide, by decide +kernel⟩ else ⟨"first", by decide, by decide +kernel⟩

def demoInstall (second : Bool) (time : Int) : List (Event (semantics Unit Bool)) :=
  [.call (.inr second) {}, .call (.inr second) { time }, .call (.inr second) {},
    .call (.inr second) { uuid := demoUUID second }]

-- The replica finds the rollout after its deadline, and marks it as failed.
def demoFail (time : Int) : List (Event (semantics Unit Bool)) :=
  List.replicate 4 (.call (.inl ()) {}) ++ List.replicate 2 (.call (.inl ()) { time }) ++
  [.call (.inl ()) {}]

def demoRecord : List (Event (semantics Unit Bool)) :=
  List.replicate 4 (.call (.inl ()) {})

theorem outcomes_attributed_demo :
    ∃ c, Reaches (semantics Unit Bool) timely demoConfig c ∧
    ∃ outcome, c.mem.outcomes.lookup "first" = some outcome ∧ outcome.failedAt = 1000 * Time.second ∧
    ∃ k e, c.mem.record.author "first" = some k ∧ c.mem.record.ended k = some e ∧
      outcome = e.outcome "first" := by
  have ⟨c, hr, ho⟩ : ∃ c, Reaches (semantics Unit Bool) timely demoConfig c ∧
      (c.mem.outcomes.lookup "first").map (·.failedAt) = some (1000 * Time.second) :=
    Config.exists_reaches_of_run
      (demoInstall false Time.second ++ demoFail (1000 * Time.second) ++ demoRecord)
      (by decide +kernel)
  have ⟨outcome, ho, hf⟩ := Option.map_eq_some_iff.mp ho
  exact ⟨c, hr, outcome, ho, hf, outcomes_attributed hr ho⟩

-- The version is installed again after its rollout has failed, but before the look-up. The failure
-- is recorded for the second install, whose rollout has not ended.
theorem retry_takes_outcome : ∃ c, Reaches (semantics Unit Bool) unguarded demoConfig c ∧
    c.mem.record.author "second" = some true ∧ c.mem.record.ended true = none ∧
    c.mem.outcomes.lookup "first" = none ∧
    (c.mem.outcomes.lookup "second").map (·.failedAt) = some (1000 * Time.second) :=
  Config.exists_reaches_of_run
    (demoInstall false Time.second ++ demoFail (1000 * Time.second) ++
      demoInstall true (1001 * Time.second) ++ demoRecord)
    (by decide +kernel)

end Demo
end AppRegistry.Attribution
