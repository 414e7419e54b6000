import GestaltModel.Coredata.AutoDeploySettings

namespace Coredata.AutoDeploySettingsService

open Interleaving
open AppAutoDeploySettings (enabled paused)
open Text (trimSpace)

variable {ι : Type}

-- How far caller `i` has got when the operations in `order` have taken effect.
inductive Progress (operations : ι → Operation) (db : SettingsDB) (order : List ι) (i : ι) :
    SettingsProgram (Except Failure (Option AppAutoDeploySettings)) →
    Option AppAutoDeploySettings → Bool → Prop
  | waiting {found} (hn : i ∉ order) :
    Progress operations db order i (operations i).program found false
  | writing {app f found settings} (hn : i ∉ order) (ho : operations i = .update app f)
    (ha : trimSpace app ≠ "") (hu : updated (trimSpace app) f found = .ok settings) :
    Progress operations db order i (write (.ok settings)) found false
  | done {before after found} (ho : order = before ++ i :: after) :
    Progress operations db order i (.ret ((operations i).apply (serial operations db before)).2)
      found false
  | failed {e found} (hn : i ∉ order) :
    Progress operations db order i (.ret (.error e)) found true

-- The stores are as if the operations in `order` had been executed one after the other.
structure Linearized (operations : ι → Operation) (db : SettingsDB) (order : List ι)
    (c : Config ι SettingsCall SettingsCall.Response (Except Failure (Option AppAutoDeploySettings))
      (SettingsMemory ι)) : Prop where
  nodup : order.Nodup
  stores : c.mem.db = serial operations db order
  progress : ∀ i, Progress operations db order i (c.prog i) (c.mem.found i) (c.mem.failed i)

variable {operations : ι → Operation} {order : List ι} {i j : ι}
variable {failed : Bool}

theorem serial_concat :
    serial operations db (order ++ [i]) =
      ((operations i).apply (serial operations db order)).1 := by
  simp [serial]

theorem updated_app
    (h : updated app f found = .ok settings) (ha : Text.Trimmed app) : settings.app = app := by
  obtain ⟨_, _, h⟩ := Except.bind_eq_ok_iff.mp h
  cases h
  exact ha

namespace Progress

theorem append (h : Progress operations db order j p found failed) (hj : j ≠ i) :
    Progress operations db (order ++ [i]) j p found failed := by
  have hn (h : j ∉ order) : j ∉ order ++ [i] := by simp [h, hj]
  cases h
  case waiting h => exact .waiting (hn h)
  case writing h ho ha hu => exact .writing (hn h) ho ha hu
  case failed h => exact .failed (hn h)
  case done before after ho =>
    subst ho
    exact .done (List.append_assoc before (j :: after) [i])

end Progress

section Steps

variable [DecidableEq ι]
variable {c c' : Config ι SettingsCall SettingsCall.Response
  (Except Failure (Option AppAutoDeploySettings)) (SettingsMemory ι)}
variable {q : SettingsCall}
variable {k : q.Response → SettingsProgram (Except Failure (Option AppAutoDeploySettings))}

theorem exec_others (h : j ≠ i) :
    (q.exec i o s).1.found j = s.found j ∧ (q.exec i o s).1.failed j = s.failed j := by
  cases q <;> cases o
  case updateForRollout.none app expected f =>
    simp only [SettingsCall.exec]
    cases updateForRolloutTransaction app expected f s.db <;> exact ⟨rfl, rfl⟩
  all_goals simp [SettingsCall.exec, SettingsCall.reject, h]

namespace Linearized

variable (h : Linearized operations db order c)
include h

theorem keep (hd : (q.exec i o c.mem).1.db = c.mem.db)
    (hp : Progress operations db order i (k (q.exec i o c.mem).2) ((q.exec i o c.mem).1.found i)
      ((q.exec i o c.mem).1.failed i)) :
    Linearized operations db order (c.resume (settingsSemantics ι) i q k o) where
  nodup := h.nodup
  stores := hd.trans h.stores
  progress j := by
    by_cases hj : j = i
    case pos =>
      subst hj
      simpa using hp
    case neg =>
      obtain ⟨h₁, h₂⟩ := exec_others (q := q) (o := o) (s := c.mem) hj
      simp only [Config.resume_prog_of_ne hj, Config.resume_mem, h₁, h₂]
      exact h.progress j

theorem commit (hn : i ∉ order)
    (hd : (q.exec i o c.mem).1.db = ((operations i).apply c.mem.db).1)
    (hp : k (q.exec i o c.mem).2 = .ret ((operations i).apply c.mem.db).2)
    (hf : (q.exec i o c.mem).1.failed i = false) :
    Linearized operations db (order ++ [i]) (c.resume (settingsSemantics ι) i q k o) where
  nodup := h.nodup.append (List.nodup_singleton i) (by simpa using hn)
  stores := by rw [serial_concat, ← h.stores]; exact hd
  progress j := by
    by_cases hj : j = i
    case pos =>
      subst hj
      simp only [Config.resume_prog_self, Config.resume_mem, hf, hp, h.stores]
      exact .done rfl
    case neg =>
      obtain ⟨h₁, h₂⟩ := exec_others (q := q) (o := o) (s := c.mem) hj
      simp only [Config.resume_prog_of_ne hj, Config.resume_mem, h₁, h₂]
      exact (h.progress j).append hj

-- The first request of `Update`: if the update function fails, its error is left to return,
-- otherwise the settings are left to be written.
theorem read {k : (SettingsCall.get (trimSpace app)).Response →
      SettingsProgram (Except Failure (Option AppAutoDeploySettings))}
    (hn : i ∉ order) (hf : c.mem.failed i = false)
    (ho : operations i = .update app f) (ha : trimSpace app ≠ "")
    (hk : k (c.mem.db.settings.get (trimSpace app)) =
      write (updated (trimSpace app) f (c.mem.db.settings.lookup (trimSpace app)))) :
    ∃ order', Linearized operations db order'
      (c.resume (settingsSemantics ι) i (.get (trimSpace app)) k none) := by
  cases hu : updated (trimSpace app) f (c.mem.db.settings.lookup (trimSpace app))
  case error e =>
    have hap : (operations i).apply c.mem.db = (c.mem.db, .error e) := by
      simp [ho, Operation.apply, ha, hu]
    refine ⟨_, h.commit hn ?_ ?_ hf⟩
    · rw [hap]
      rfl
    · rw [hap]
      exact hk.trans (by rw [hu]; rfl)
  case ok settings =>
    refine ⟨order, h.keep rfl ?_⟩
    simp only [SettingsCall.exec, Function.update_self, hf, hk, hu]
    exact .writing hn ho ha hu

theorem reject (hn : i ∉ order) (hk : k (q.exec i (some text) c.mem).2 = .ret (.error e)) :
    Linearized operations db order (c.resume (settingsSemantics ι) i q k (some text)) := by
  have hs : (q.exec i (some text) c.mem).1 =
      { c.mem with failed := Function.update c.mem.failed i true } := by
    cases q <;> rfl
  refine h.keep (by rw [hs]) ?_
  simp only [hk, hs, Function.update_self]
  exact .failed hn

theorem transact (hn : i ∉ order) (hf : c.mem.failed i = false)
    (ho : operations i = .updateForRollout expected f) (ha : trimSpace expected.app ≠ "") :
    Linearized operations db (order ++ [i]) (c.resume (settingsSemantics ι) i
      (.updateForRollout (trimSpace expected.app) expected f) .ret none) := by
  cases ht : updateForRolloutTransaction (trimSpace expected.app) expected f c.mem.db
  all_goals
    refine h.commit hn ?_ ?_ ?_
    all_goals simp [ho, Operation.apply, ha, ht, SettingsCall.exec, SettingsCall.transact, hf]

-- The second request of `Update`, which overwrites the record that the first one has found.
theorem overwrite {k : (SettingsCall.put settings).Response →
      SettingsProgram (Except Failure (Option AppAutoDeploySettings))}
    (hn : i ∉ order) (hf : c.mem.failed i = false)
    (ho : operations i = .update app f) (ha : trimSpace app ≠ "")
    (hu : updated (trimSpace app) f (c.mem.found i) = .ok settings)
    (unmoved : c.mem.db.settings.lookup settings.app = c.mem.found i)
    (hk : k (.ok ()) = .ret (.ok (some settings))) :
    Linearized operations db (order ++ [i])
      (c.resume (settingsSemantics ι) i (.put settings) k none) := by
  have hap : (operations i).apply c.mem.db =
      ({ c.mem.db with settings := c.mem.db.settings.put settings }, .ok (some settings)) := by
    rw [updated_app hu (Text.trimSpace_trimmed app)] at unmoved
    simp [ho, Operation.apply, ha, unmoved, hu]
  refine h.commit hn ?_ ?_ hf
  · rw [hap]
    rfl
  · rw [hap]
    exact hk

theorem step (e : Step (settingsSemantics ι) unmoved c c') :
    ∃ order', Linearized operations db order' c' := by
  cases e
  case env a => exact a.elim
  case call i q k o hc allowed =>
    have hp := h.progress i
    rw [hc] at hp
    generalize hq : Program.call q k = p, hr : c.mem.found i = found, hf : c.mem.failed i = failed
      at hp
    cases hp
    case done   => contradiction
    case failed => contradiction
    case waiting hn =>
      cases ho : operations i <;> rw [ho] at hq
      case update app f =>
        by_cases ha : trimSpace app = ""
        case pos => simp [Operation.program, update, ha] at hq
        case neg =>
          simp only [Operation.program, update, ha, ↓reduceIte] at hq
          cases hq
          cases o
          case some text => exact ⟨order, h.reject hn rfl⟩
          case none      =>
            refine h.read hn hf ho ha ?_
            cases hl : c.mem.db.settings.lookup (trimSpace app)
            all_goals simp [ObjectStore.get, hl, Failure.Is, ObjectStore.notFound]
      case updateForRollout expected f =>
        by_cases ha : trimSpace expected.app = ""
        case pos => simp [Operation.program, updateForRollout, ha] at hq
        case neg =>
          simp only [Operation.program, updateForRollout, ha, ↓reduceIte] at hq
          cases hq
          cases o
          case some text => exact ⟨order, h.reject hn rfl⟩
          case none      => exact ⟨_, h.transact hn hf ho ha⟩
    case writing app f settings hn ho ha hu =>
      subst hr
      cases hq
      cases o
      case some text => exact ⟨order, h.reject hn rfl⟩
      case none      => exact ⟨_, h.overwrite hn hf ho ha hu allowed rfl⟩

omit h in
theorem reaches (e : Reaches (settingsSemantics ι) unmoved (config operations db) c) :
    ∃ order, Linearized operations db order c := by
  induction e
  case refl => exact ⟨[], List.nodup_nil, rfl, fun _ => .waiting List.not_mem_nil⟩
  case tail e hi =>
    obtain ⟨_, h⟩ := hi
    exact h.step e

end Linearized
end Steps

section Results

variable {c : Config ι SettingsCall SettingsCall.Response
  (Except Failure (Option AppAutoDeploySettings)) (SettingsMemory ι)}

theorem transaction_cases
    (h : updateForRolloutTransaction app expected f db = .ok (db', settings?)) :
    (db' = db ∧ settings? = none) ∨
    ∃ settings, updated app f (db.settings.lookup app) = .ok settings ∧
      db' = { db with settings := db.settings.put settings } ∧ settings? = some settings := by
  simp only [updateForRolloutTransaction] at h
  split at h
  · cases h
    exact .inl ⟨rfl, rfl⟩
  · split at h
    · cases h
      exact .inl ⟨rfl, rfl⟩
    · obtain ⟨settings, hu, h⟩ := Except.bind_eq_ok_iff.mp h
      cases h
      exact .inr ⟨settings, hu, rfl, rfl⟩

theorem Operation.apply_cases (op : Operation) (db : SettingsDB) :
    ((op.apply db).1 = db ∧ ∀ settings, (op.apply db).2 ≠ .ok (some settings)) ∨
    ∃ settings, updated op.app op.function (db.settings.lookup op.app) = .ok settings ∧
      op.apply db = ({ db with settings := db.settings.put settings }, .ok (some settings)) := by
  cases op <;> simp only [apply, app, function]
  case update app f =>
    split
    · exact .inl ⟨rfl, by simp⟩
    · split
      · exact .inl ⟨rfl, by simp⟩
      · exact .inr ⟨_, ‹_›, rfl⟩
  case updateForRollout expected f =>
    split
    · exact .inl ⟨rfl, by simp⟩
    · split
      · exact .inl ⟨rfl, by simp⟩
      · obtain ⟨rfl, rfl⟩ | ⟨settings, hu, rfl, rfl⟩ := transaction_cases ‹_›
        · exact .inl ⟨rfl, by simp⟩
        · exact .inr ⟨settings, hu, rfl⟩

theorem Operation.rejected {op : Operation} (h : op.program = .ret r) :
    ∃ e, r = .error e ∧ ∀ db, op.apply db = (db, .error e) := by
  cases op
  case update app f =>
    simp only [program, AutoDeploySettingsService.update] at h
    split at h
    · cases h
      exact ⟨_, rfl, fun db => by simp [apply, *]⟩
    · contradiction
  case updateForRollout expected f =>
    simp only [program, AutoDeploySettingsService.updateForRollout] at h
    split at h
    · cases h
      exact ⟨_, rfl, fun db => by simp [apply, *]⟩
    · contradiction

theorem Operation.app_trimmed (op : Operation) : Text.Trimmed op.app := by
  cases op <;> exact Text.trimSpace_trimmed _

theorem Linearized.done_of_ok
    (h : Linearized operations db order c) (hr : c.prog i = .ret (.ok settings?)) :
    ∃ before after, order = before ++ i :: after ∧
      ((operations i).apply (serial operations db before)).2 = .ok settings? := by
  have hp := h.progress i
  rw [hr] at hp
  generalize hq : Program.ret (Except.ok settings?) = p, c.mem.failed i = failed at hp
  cases hp
  case failed => cases hq
  case writing => contradiction
  case done before after ho => exact ⟨before, after, ho, (Program.ret.inj hq).symm⟩
  case waiting =>
    obtain ⟨_, he, _⟩ := Operation.rejected hq.symm
    contradiction

theorem Operation.lookup_of_apply {op : Operation} (h : (op.apply db).2 = .ok (some settings)) :
    (op.apply db).1.settings.lookup op.app = some settings := by
  obtain ⟨_, hn⟩ | ⟨settings', hu, ha⟩ := op.apply_cases db
  · exact absurd h (hn _)
  · rw [ha] at h ⊢
    cases h
    have hid : op.app = Record.id settings := (updated_app hu op.app_trimmed).symm
    rw [hid]
    exact ObjectStore.lookup_put_self

section Fields

def Operation.Keeps (op : Operation) (field : AppAutoDeploySettings → Bool) : Prop :=
  ∀ settings settings', op.function settings = .ok settings' → field settings' = field settings

theorem Operation.Keeps.apply {op : Operation} {app : String}
    (hk : op.Keeps field) (hf : field ∈ [enabled, paused])
    (h : db.settings.lookup app = some settings) :
    ∃ settings', (op.apply db).1.settings.lookup app = some settings' ∧
      field settings' = field settings := by
  obtain ⟨he, _⟩ | ⟨settings', hu, ha⟩ := op.apply_cases db
  · exact ⟨settings, he.symm ▸ h, rfl⟩
  · rw [ha]
    have hid : Record.id settings' = op.app := updated_app hu op.app_trimmed
    by_cases happ : app = op.app
    case neg => exact ⟨settings, (ObjectStore.lookup_put_of_ne (hid.symm ▸ happ)).trans h, rfl⟩
    case pos =>
      subst happ
      refine ⟨settings', ?_, ?_⟩
      · rw [← hid]
        exact ObjectStore.lookup_put_self
      · rw [h] at hu
        obtain ⟨s, hs, hu⟩ := Except.bind_eq_ok_iff.mp hu
        cases hu
        have hs : field s = field settings := hk _ _ hs
        rw [← hs]
        simp only [List.mem_cons, List.not_mem_nil, or_false] at hf
        obtain rfl | rfl := hf <;> rfl

theorem serial_keeps (hk : ∀ i ∈ order, (operations i).Keeps field)
    (hf : field ∈ [enabled, paused])
    (h : db.settings.lookup app = some settings) :
    ∃ settings', (serial operations db order).settings.lookup app = some settings' ∧
      field settings' = field settings := by
  induction order generalizing db settings
  case nil => exact ⟨settings, h, rfl⟩
  case cons i order hi =>
    obtain ⟨settings₁, h₁, he₁⟩ := (hk i List.mem_cons_self).apply hf h
    obtain ⟨settings₂, h₂, he₂⟩ := hi (fun j hj => hk j (List.mem_cons_of_mem i hj)) h₁
    exact ⟨settings₂, h₂, he₂.trans he₁⟩

theorem Linearized.keeps (h : Linearized operations db order c)
    (hr : c.prog i = .ret (.ok (some settings))) (hk : ∀ j ≠ i, (operations j).Keeps field)
    (hf : field ∈ [enabled, paused]) :
    ∃ settings', c.mem.db.settings.lookup (operations i).app = some settings' ∧
      field settings' = field settings := by
  obtain ⟨before, after, rfl, ha⟩ := h.done_of_ok hr
  have hn := h.nodup
  rw [List.nodup_middle, List.nodup_cons, List.mem_append, not_or] at hn
  rw [h.stores, serial, List.foldl_append, List.foldl_cons]
  refine serial_keeps (fun j hj => hk j ?_) hf (Operation.lookup_of_apply ha)
  rintro rfl
  exact hn.left.right hj

end Fields

variable (h : Linearized operations db order c)
include h

theorem Linearized.not_failed (hi : i ∈ order) :
    c.mem.failed i = false := by
  have hp := h.progress i
  generalize c.prog i = p, c.mem.failed i = failed at hp ⊢
  cases hp
  case failed hn => exact absurd hi hn
  all_goals rfl

theorem Linearized.complete (hr : c.prog i = .ret r)
    (hf : c.mem.failed i = false) :
    ∃ order', Linearized operations db order' c ∧ i ∈ order' ∧ order ⊆ order' := by
  have hp := h.progress i
  rw [hr, hf] at hp
  generalize hq : Program.ret r = p at hp
  cases hp
  case writing => contradiction
  case done before after ho => exact ⟨order, h, by simp [ho], List.Subset.refl order⟩
  case waiting hn =>
    obtain ⟨e, rfl, ha⟩ := Operation.rejected hq.symm
    refine ⟨order ++ [i], ⟨?_, ?_, fun j => ?_⟩, by simp, by simp⟩
    · exact h.nodup.append (List.nodup_singleton i) (by simpa using hn)
    · rw [serial_concat, ha, h.stores]
    · by_cases hj : j = i
      case neg => exact (h.progress j).append hj
      case pos =>
        subst hj
        have hd : (operations j).apply (serial operations db order) =
          (serial operations db order, .error e) := ha _
        have hr : c.prog j = .ret ((operations j).apply (serial operations db order)).2 := by
          rw [hr, hd]
        rw [hr, hf]
        exact .done rfl

theorem Linearized.complete_all {is : List ι} (hr : ∀ i ∈ is, (c.prog i).result? ≠ none) :
    ∃ order', Linearized operations db order' c ∧ ∀ i ∈ is, c.mem.failed i = false → i ∈ order' := by
  induction is
  case nil => exact ⟨order, h, by simp⟩
  case cons i is hi =>
    obtain ⟨order₁, h₁, hm⟩ := hi fun j hj => hr j (List.mem_cons_of_mem i hj)
    obtain ⟨r, hr⟩ := Option.ne_none_iff_exists'.mp (hr i List.mem_cons_self)
    cases hf : c.mem.failed i
    case true => exact ⟨order₁, h₁, by simpa [hf] using hm⟩
    case false =>
      obtain ⟨order₂, h₂, hm₂, hs⟩ := h₁.complete (Program.eq_ret_of_result? hr) hf
      exact ⟨order₂, h₂, by simpa [hm₂] using fun j hj hf => hs (hm j hj hf)⟩

end Results

section Main

variable {operations : Bool → Operation} {db : SettingsDB}

theorem Linearized.two {order : List Bool} (h : Linearized operations db order c)
    (hi : ∀ i, c.mem.failed i = false → i ∈ order) :
    ∃ order' ∈ [[false, true], [true, false]], order = order'.filter (! c.mem.failed ·) := by
  have hm i : c.mem.failed i = false ↔ i ∈ order := ⟨hi i, h.not_failed⟩
  have hn := h.nodup
  rcases order with _ | ⟨a, _ | ⟨b, _ | ⟨d, _⟩⟩⟩
  case nil => simp_all
  case cons.nil => cases a <;> simp_all
  case cons.cons.nil => cases a <;> cases b <;> simp_all
  case cons.cons.cons => cases a <;> cases b <;> cases d <;> simp_all

theorem updates_serializable (e : Reaches (settingsSemantics Bool) unmoved (config operations db) c) :
    ((∀ i, (c.prog i).result? ≠ none) →
      ∃ order ∈ [[false, true], [true, false]],
        c.mem.db = serial operations db (order.filter (! c.mem.failed ·))) ∧
    ∀ field ∈ [enabled, paused], ∀ i settings,
      c.prog i = .ret (.ok (some settings)) → (∀ j ≠ i, (operations j).Keeps field) →
      ∃ settings', c.mem.db.settings.lookup (operations i).app = some settings' ∧
        field settings' = field settings := by
  obtain ⟨order, h⟩ := Linearized.reaches e
  refine ⟨fun hr => ?_, fun field hf i settings hi hk => h.keeps hi hk hf⟩
  obtain ⟨order', h', hm⟩ := h.complete_all fun i (_ : i ∈ [false, true]) => hr i
  obtain ⟨order, ho, he⟩ := h'.two fun i => hm i (by cases i <;> simp)
  exact ⟨order, ho, he ▸ h'.stores⟩

end Main

section Demo

-- The controller remembers a version and an operator disables the deployments.
def remembering : Operation :=
  .update "app" fun settings => .ok { settings with lastSeenVersion := "1.0.0" }

def disabling : Operation :=
  .update "app" fun settings => .ok { settings with enabled := false }

def demoOperations : Bool → Operation
  | false => remembering
  | true => disabling

def demoDB : SettingsDB where
  settings := (∅ : ObjectStore AppAutoDeploySettings).put { app := "app", enabled := true }

theorem demo_keeps : ∀ j ≠ true, (demoOperations j).Keeps enabled := by
  intro j hj settings settings' h
  cases j
  case true => contradiction
  case false =>
    cases h
    rfl

theorem updates_serializable_demo :
    ∃ c, Reaches (settingsSemantics Bool) unmoved (config demoOperations demoDB) c ∧
      (∃ order ∈ [[false, true], [true, false]],
        c.mem.db = serial demoOperations demoDB (order.filter (! c.mem.failed ·))) ∧
      ∃ settings, c.mem.db.settings.lookup (demoOperations true).app = some settings ∧
        settings.enabled = false := by
  obtain ⟨c, e, hr, hs⟩ : ∃ c,
      Reaches (settingsSemantics Bool) unmoved (config demoOperations demoDB) c ∧
      (∀ i, (c.prog i).result? ≠ none) ∧
      (c.prog true).result? = some (.ok (some { app := "app", lastSeenVersion := "1.0.0" })) :=
    Config.exists_reaches_of_run
      [.call false none, .call false none, .call true none, .call true none] (by decide +kernel)
  have h := updates_serializable e
  have hs := Program.eq_ret_of_result? hs
  exact ⟨c, e, h.left hr, h.right _ List.mem_cons_self true _ hs demo_keeps⟩

-- The operator disables the deployments after the read of the controller, whose write enables them.
theorem stale_write_reenables :
    ∃ c, Reaches (settingsSemantics Bool) unguarded (config demoOperations demoDB) c ∧
      (∀ i, (c.prog i).result? ≠ none) ∧
      (∀ order ∈ [[false, true], [true, false]],
        c.mem.db ≠ serial demoOperations demoDB (order.filter (! c.mem.failed ·))) ∧
      (∃ settings, c.prog true = .ret (.ok (some settings)) ∧ settings.enabled = false) ∧
      (∀ j ≠ true, (demoOperations j).Keeps enabled) ∧
      ∃ settings, c.mem.db.settings.lookup (demoOperations true).app = some settings ∧
        settings.enabled = true := by
  obtain ⟨c, e, hr, hs, hf, he⟩ : ∃ c,
      Reaches (settingsSemantics Bool) unguarded (config demoOperations demoDB) c ∧
      (∀ i, (c.prog i).result? ≠ none) ∧
      (c.prog true).result? = some (.ok (some { app := "app" })) ∧
      (∀ i, c.mem.failed i = false) ∧
      c.mem.db.settings.lookup (demoOperations true).app =
        some { app := "app", enabled := true, lastSeenVersion := "1.0.0" } :=
    Config.exists_reaches_of_run
      [.call false none, .call true none, .call true none, .call false none] (by decide +kernel)
  refine ⟨c, e, hr, fun order ho hd => ?_, ⟨_, Program.eq_ret_of_result? hs, rfl⟩, demo_keeps,
    _, he, rfl⟩
  have hd : c.mem.db.settings.lookup (demoOperations true).app =
      (serial demoOperations demoDB order).settings.lookup (demoOperations true).app := by
    rw [hd, List.filter_eq_self.mpr (by simp [hf])]
  have hn : ∀ order ∈ [[false, true], [true, false]],
      (serial demoOperations demoDB order).settings.lookup (demoOperations true).app =
        some { app := "app", lastSeenVersion := "1.0.0" } := by
    decide +kernel
  simp [he, hn order ho] at hd

end Demo
end Coredata.AutoDeploySettingsService
