import GestaltModel.AppRegistry.RecoveryObserver

namespace AppRegistry.RecoveryObserver

open Coredata
open Time (minute)

variable {seen : List String}

-- A pass finds the revision, its rollout has failed, the fleet is healthy, and nothing that this
-- depends on fails to load.
def HealthyIn (o : RecoveryObserver) (pass : RecoveryPass) (app version id sourceVersion : String)
    (minimum : Int) : Prop :=
  ∃ samples source heartbeats, pass.revisions = .ok samples ∧ pass.source = .ok source ∧
    pass.heartbeats = .ok heartbeats ∧
    Text.trimSpace source.currentSourceVersion = sourceVersion ∧
    source.minimumHealthyInstances = minimum ∧
    (∃ sample ∈ samples, Text.trimSpace sample.desired.app = app ∧
      Text.trimSpace sample.desired.version = version ∧
      Text.trimSpace sample.desired.changeRequestID = id ∧
      ∃ outcome, sample.outcome = .ok (some outcome) ∧ FailedFor app version outcome) ∧
    (o.project { now := now pass, sourceVersion, minimum, heartbeats } app version).state = .healthy

-- The entry of an app says since which pass all passes have found it healthy.
def Since (o : RecoveryObserver) (passes : List RecoveryPass) (app : String)
    (entry : RecoveryStability) : Prop :=
  ∃ before start between, passes = before ++ start :: between ∧ now start = entry.healthySince ∧
    ∀ pass ∈ start :: between,
      o.HealthyIn pass app entry.version entry.changeRequestID entry.sourceVersion entry.minimum

variable {o : RecoveryObserver} {passes : List RecoveryPass} {pass : RecoveryPass}
variable {app version id : String} {entry : RecoveryStability} {basis : FleetBasis}
variable {samples : List RevisionSample} {sample : RevisionSample} {state : RecoveryState}

theorem Since.start (ht : now pass = entry.healthySince)
    (h : o.HealthyIn pass app entry.version entry.changeRequestID entry.sourceVersion entry.minimum) :
    o.Since (passes ++ [pass]) app entry :=
  ⟨passes, pass, [], rfl, ht, by simpa using h⟩

theorem Since.extend (h : o.Since passes app entry)
    (hp : o.HealthyIn pass app entry.version entry.changeRequestID entry.sourceVersion entry.minimum) :
    o.Since (passes ++ [pass]) app entry := by
  obtain ⟨before, start, between, rfl, ht, hs⟩ := h
  refine ⟨before, start, between ++ [pass], by simp, ht, fun p hm => ?_⟩
  rcases List.mem_append.mp (List.cons_append ▸ hm) with hm | hm
  case inl => exact hs p hm
  case inr => rwa [List.mem_singleton.mp hm]

theorem basis_of_loadBasis (h : loadBasis pass = .ok (some (samples, basis))) :
    basis.now = now pass ∧ pass.revisions = .ok samples ∧ pass.heartbeats = .ok basis.heartbeats ∧
    ∃ source, pass.source = .ok source ∧
      Text.trimSpace source.currentSourceVersion = basis.sourceVersion ∧
      source.minimumHealthyInstances = basis.minimum := by
  obtain ⟨samples', hs, h⟩ := Except.bind_eq_ok_iff.mp h
  split at h
  case h_1 =>
    split at h <;> cases h
  case h_2 source hsrc =>
    dsimp only at h
    split at h
    · cases h
    · obtain ⟨heartbeats, hh, h⟩ := Except.bind_eq_ok_iff.mp h
      cases h
      exact ⟨rfl, Except.context_eq_ok.mp hs, Except.context_eq_ok.mp hh, source, hsrc, rfl, rfl⟩

theorem observeRevision_cases (o : RecoveryObserver) (basis : FleetBasis) (state : RecoveryState)
    (sample : RevisionSample) :
    let app := Text.trimSpace sample.desired.app
    let version := Text.trimSpace sample.desired.version
    let id := Text.trimSpace sample.desired.changeRequestID
    ((o.observeRevision basis state sample).state = state.reset app ∧
      (o.observeRevision basis state sample).recorded = []) ∨
    ((∃ outcome, sample.outcome = .ok (some outcome) ∧ FailedFor app version outcome) ∧
      (o.project basis app version).state = .healthy ∧
      o.observeRevision basis state sample =
        o.observeHealthy basis state app version id sample.recorded) := by
  simp only [observeRevision]
  split
  · exact .inl ⟨rfl, rfl⟩
  · split
    · split <;> exact .inl ⟨rfl, rfl⟩
    · exact .inl ⟨rfl, rfl⟩
    · split
      · exact .inl ⟨rfl, rfl⟩
      · split
        · exact .inl ⟨rfl, rfl⟩
        · exact .inr ⟨⟨_, ‹_›, not_not.mp ‹_›⟩, not_not.mp ‹_›, rfl⟩

theorem advance_cases (state : RecoveryState) (app : String) (next : RecoveryStability) (now : Int) :
    (state.advance app next now).2 = none ∧
      (state.advance app next now).1.healthy =
        Function.update state.healthy app (some { next with healthySince := now }) ∨
    ∃ current, state.healthy app = some current ∧ current.SameBasis next ∧
      state.advance app next now = (state, some current.healthySince) := by
  rw [RecoveryState.advance]
  split
  · exact .inl ⟨rfl, rfl⟩
  · split
    · exact .inr ⟨_, ‹_›, ‹_›, rfl⟩
    · exact .inl ⟨rfl, rfl⟩

-- A healthy revision gets a new entry, or keeps one that can be reset after the recovery.
theorem observeHealthy_cases (o : RecoveryObserver) (basis : FleetBasis) (state : RecoveryState)
    (app version id : String) (recorded : Except Failure Bool) :
    let observed := o.observeHealthy basis state app version id recorded
    (observed.state.healthy = Function.update state.healthy app
        (some ⟨id, version, basis.sourceVersion, basis.minimum, basis.now⟩) ∧
      observed.recorded = []) ∨
    ∃ current, state.healthy app = some current ∧
      current.SameBasis ⟨id, version, basis.sourceVersion, basis.minimum, 0⟩ ∧
      (observed.state.healthy = state.healthy ∨
        observed.state.healthy = Function.update state.healthy app none) ∧
      (observed.recorded = [] ∨ observed.recorded = [o.observation basis app version id] ∧
        o.stabilityWindow ≤ basis.now - current.healthySince) := by
  simp only [observeHealthy]
  obtain ⟨hn, hh⟩ | ⟨current, hc, hb, ha⟩ := advance_cases state app
    ⟨id, version, basis.sourceVersion, basis.minimum, 0⟩ basis.now
  · rw [← Prod.eta (state.advance ..), hn]
    exact .inl ⟨hh, rfl⟩
  · rw [ha]
    refine .inr ⟨current, hc, hb, ?_⟩
    dsimp only
    split
    · exact ⟨.inl rfl, .inl rfl⟩
    · refine ⟨?_, .inr ⟨rfl, not_lt.mp ‹_›⟩⟩
      rcases recorded with _ | _ | _
      case error => exact .inl rfl
      case ok.false => exact .inr rfl
      case ok.true => exact .inr rfl

-- In the middle of a pass: the entries of the apps that were seen in it cover the pass already.
def Tracks (o : RecoveryObserver) (passes : List RecoveryPass) (pass : RecoveryPass)
    (seen : List String) (state : RecoveryState) : Prop :=
  ∀ app entry, state.healthy app = some entry →
    (app ∉ seen ∧ o.Since passes app entry) ∨ o.Since (passes ++ [pass]) app entry

-- What has to hold when a recovery is recorded in a pass.
def Justified (o : RecoveryObserver) (passes : List RecoveryPass) (pass : RecoveryPass)
    (observation : AppVersionRecoveryObservation) : Prop :=
  observation.recoveredAt = now pass ∧ ∃ entry, o.Since (passes ++ [pass]) observation.app entry ∧
    o.stabilityWindow ≤ now pass - entry.healthySince ∧
    entry.SameBasis ⟨observation.id, observation.version, observation.sourceVersion,
      observation.minimumHealthyInstances, 0⟩

theorem Tracks.update (h : o.Tracks passes pass seen state)
    (hh : state'.healthy = Function.update state.healthy app stability)
    (he : ∀ entry ∈ stability, o.Since (passes ++ [pass]) app entry) :
    o.Tracks passes pass (seen ++ [app]) state' := by
  intro app' entry hs
  rw [hh] at hs
  by_cases ha : app' = app
  case pos =>
    subst ha
    rw [Function.update_self] at hs
    exact .inr (he entry hs)
  case neg =>
    rw [Function.update_of_ne ha] at hs
    rcases h app' entry hs with ⟨hn, h⟩ | h
    · exact .inl ⟨by simp [hn, ha], h⟩
    · exact .inr h

theorem Tracks.since (h : o.Tracks passes pass seen state) (he : state.healthy app = some entry)
    (hb : entry.SameBasis ⟨id, version, basis.sourceVersion, basis.minimum, 0⟩)
    (hp : o.HealthyIn pass app version id basis.sourceVersion basis.minimum) :
    o.Since (passes ++ [pass]) app entry := by
  obtain ⟨rfl, rfl, hsv, hmin⟩ := hb
  rcases h app entry he with ⟨_, h⟩ | h
  · exact h.extend (by rw [hsv, hmin]; exact hp)
  · exact h

theorem observeHealthy_tracks (hnow : basis.now = now pass) (h : o.Tracks passes pass seen state)
    (hp : o.HealthyIn pass app version id basis.sourceVersion basis.minimum) :
    o.Tracks passes pass (seen ++ [app])
      (o.observeHealthy basis state app version id recorded).state ∧
    ∀ observation ∈ (o.observeHealthy basis state app version id recorded).recorded,
      o.Justified passes pass observation := by
  obtain ⟨hst, hr⟩ | ⟨current, hc, hb, hst, hr⟩ :=
    o.observeHealthy_cases basis state app version id recorded
  · rw [hr]
    refine ⟨h.update hst fun entry he => ?_, by simp⟩
    cases he
    exact .start hnow.symm hp
  · have hs := h.since hc hb hp
    refine ⟨?_, fun observation ho => ?_⟩
    · rcases hst with hst | hst
      · refine h.update (hst.trans (Function.update_eq_self app _).symm) fun entry he => ?_
        rw [Option.some.inj (hc.symm.trans he)] at hs
        exact hs
      · exact h.update hst (by simp)
    · rcases hr with hr | ⟨hr, hw⟩ <;> rw [hr] at ho
      · contradiction
      · cases List.mem_singleton.mp ho
        exact ⟨hnow, current, hs, hnow ▸ hw, hb⟩

theorem observeRevision_tracks (hl : loadBasis pass = .ok (some (samples, basis)))
    (hs : sample ∈ samples) (h : o.Tracks passes pass seen state) :
    o.Tracks passes pass (seen ++ [Text.trimSpace sample.desired.app])
      (o.observeRevision basis state sample).state ∧
    ∀ observation ∈ (o.observeRevision basis state sample).recorded,
      o.Justified passes pass observation := by
  obtain ⟨hst, hr⟩ | ⟨hout, hproj, he⟩ := o.observeRevision_cases basis state sample
  · rw [hst, hr]
    exact ⟨h.update rfl (by simp), by simp⟩
  · rw [he]
    obtain ⟨hnow, hrev, hhb, source, hsrc, hsv, hmin⟩ := basis_of_loadBasis hl
    refine observeHealthy_tracks hnow h ⟨samples, source, basis.heartbeats, hrev, hsrc, hhb, hsv,
      hmin, ⟨sample, hs, rfl, rfl, rfl, hout⟩, ?_⟩
    rw [← hnow]
    exact hproj

-- The loop of a pass, of which `samples'` is what is left to do.
theorem observeRevisions_tracks
    (hl : loadBasis pass = .ok (some (samples, basis))) (hs : samples' ⊆ samples)
    (h : o.Tracks passes pass seen state) :
    o.Tracks passes pass (seen ++ samples'.map (Text.trimSpace ·.desired.app))
      (o.observeRevisions basis state samples').state ∧
    ∀ observation ∈ (o.observeRevisions basis state samples').recorded,
      o.Justified passes pass observation := by
  induction samples' generalizing state seen <;> rw [observeRevisions]
  case nil => exact ⟨by simpa using h, by simp⟩
  case cons sample samples' hi =>
    obtain ⟨hm, hs⟩ := List.cons_subset.mp hs
    obtain ⟨h₁, hr₁⟩ := observeRevision_tracks hl hm h
    obtain ⟨h₂, hr₂⟩ := hi hs h₁
    refine ⟨by simpa using h₂, fun observation ho => ?_⟩
    rcases List.mem_append.mp ho with ho | ho
    · exact hr₁ observation ho
    · exact hr₂ observation ho

def Tracked (o : RecoveryObserver) (passes : List RecoveryPass) (state : RecoveryState) : Prop :=
  ∀ app entry, state.healthy app = some entry → o.Since passes app entry

theorem observeOnce_tracked (hw : 0 < o.heartbeatTTL ∧ 0 < o.stabilityWindow)
    (h : o.Tracked passes state) :
    o.Tracked (passes ++ [pass]) (o.observeOnce state pass).state ∧
    ∀ observation ∈ (o.observeOnce state pass).recorded, o.Justified passes pass observation := by
  rw [observeOnce, if_neg hw.left.not_ge, if_neg hw.right.not_ge]
  split
  · exact ⟨by simp [Tracked, RecoveryState.resetAll], by simp⟩
  · exact ⟨by simp [Tracked, RecoveryState.resetAll], by simp⟩
  case h_3 samples basis hl =>
    have ht : o.Tracks passes pass [] state := fun app entry he => .inl ⟨by simp, h app entry he⟩
    obtain ⟨h₁, hr⟩ := observeRevisions_tracks hl (List.Subset.refl samples) ht
    refine ⟨fun app entry he => ?_, hr⟩
    simp only [RecoveryState.resetUnseen] at he
    split at he
    case isFalse => contradiction
    case isTrue hseen =>
      rcases h₁ app entry he with ⟨hn, _⟩ | hs
      · exact absurd hseen hn
      · exact hs

theorem run_tracked (hw : 0 < o.heartbeatTTL ∧ 0 < o.stabilityWindow)
    (passes : List RecoveryPass) : o.Tracked passes (o.run passes) := by
  induction passes using List.reverseRecOn
  case nil => simp [Tracked, run]
  case append_singleton passes pass hi =>
    rw [run, List.foldl_concat]
    exact (observeOnce_tracked hw hi).left

theorem recorded_stable {observation : AppVersionRecoveryObservation}
    (h : observation ∈ (o.observeOnce (o.run passes) pass).recorded) :
    observation.recoveredAt = now pass ∧
    ∃ before start between, passes = before ++ start :: between ∧
      o.stabilityWindow ≤ now pass - now start ∧
      ∀ pass' ∈ start :: between ++ [pass],
        o.HealthyIn pass' observation.app observation.version observation.id
          observation.sourceVersion observation.minimumHealthyInstances := by
  by_cases hw : 0 < o.heartbeatTTL ∧ 0 < o.stabilityWindow
  case neg =>
    rw [observeOnce] at h
    split at h
    · contradiction
    · rw [if_pos (not_lt.mp (not_and.mp hw (not_le.mp ‹_›)))] at h
      contradiction
  case pos =>
    obtain ⟨ht, entry, ⟨before, start, between, he, hs, hp⟩, hd, hb⟩ :=
      (observeOnce_tracked hw (run_tracked hw passes)).right observation h
    obtain ⟨hid, hv, hsv, hmin⟩ := hb
    rw [hid, hv, hsv, hmin] at hp
    rw [← hs] at hd
    refine ⟨ht, before, start, ?_⟩
    rcases List.eq_nil_or_concat' between with rfl | ⟨between, last, rfl⟩
    case inl =>
      -- The pass itself is not late enough.
      obtain ⟨_, hl⟩ := List.append_inj' he rfl
      cases hl
      omega
    case inr =>
      rw [← List.cons_append, ← List.append_assoc] at he
      obtain ⟨hb, hl⟩ := List.append_inj' he rfl
      cases hl
      exact ⟨between, hb, hd, hp⟩

section Demo

def demo : RecoveryObserver where
  heartbeatTTL := minute
  stabilityWindow := 2 * minute

-- The rollout of an app has failed, but its only instance runs the desired version.
def demoPass (time : Int) : RecoveryPass where
  time
  revisions := .ok [{
    desired := { app := "demo", version := "1.0.0", changeRequestID := "request" }
    outcome := .ok (some { id := "request", app := "demo", version := "1.0.0", failedAt := 1 }) }]
  source := .ok { currentSourceVersion := "source", minimumHealthyInstances := 1 }
  heartbeats := .ok [{
    sourceVersion := "source"
    heartbeatAt   := time
    apps          := (∅ : GoMap GestaltdInstanceAppHeartbeat).insert "demo"
      { state := .running, runningVersion := "1.0.0" } }]

def demoObservation : AppVersionRecoveryObservation where
  id := "request"
  app := "demo"
  version := "1.0.0"
  recoveredAt := 3 * minute
  sourceVersion := "source"
  liveInstances := 1
  minimumHealthyInstances := 1

theorem recorded_stable_demo :
    demoObservation ∈ (demo.observeOnce (demo.run [demoPass minute, demoPass (2 * minute)])
      (demoPass (3 * minute))).recorded ∧
    ∃ before start between,
      [demoPass minute, demoPass (2 * minute)] = before ++ start :: between ∧
      demo.stabilityWindow ≤ now (demoPass (3 * minute)) - now start ∧
      ∀ pass ∈ start :: between ++ [demoPass (3 * minute)],
        demo.HealthyIn pass "demo" "1.0.0" "request" "source" 1 := by
  have h : demoObservation ∈
      (demo.observeOnce (demo.run [demoPass minute, demoPass (2 * minute)])
        (demoPass (3 * minute))).recorded := by
    decide +kernel
  exact ⟨h, (recorded_stable h).right⟩

end Demo
end AppRegistry.RecoveryObserver
