import GestaltModel.Coredata.RemoteRegistrations

namespace Coredata

namespace ObjectStore

variable [Record V] {store : ObjectStore V} {id : String} {rec : V} {recs : List V}

theorem lookup_foldl_put_of_ne (h : ∀ rec ∈ recs, id ≠ Record.id rec) :
    (recs.foldl ObjectStore.put store).lookup id = store.lookup id := by
  induction recs generalizing store
  case nil => rfl
  case cons rec recs ih =>
    rw [List.foldl_cons, ih fun rec hr => h rec (List.mem_cons_of_mem _ hr)]
    exact ObjectStore.lookup_put_of_ne (h rec List.mem_cons_self)

theorem lookup_foldl_put (hn : (recs.map Record.id).Nodup) (hr : rec ∈ recs) :
    (recs.foldl ObjectStore.put store).lookup (Record.id rec) = some rec := by
  induction recs generalizing store
  case nil => contradiction
  case cons first recs ih =>
    obtain ⟨hf, hn⟩ := List.nodup_cons.mp hn
    rw [List.foldl_cons]
    rcases List.mem_cons.mp hr with rfl | hr
    case inr => exact ih hn hr
    case inl =>
      rw [lookup_foldl_put_of_ne, ObjectStore.lookup_put_self]
      intro other ho he
      exact hf (he ▸ List.mem_map_of_mem ho)

end ObjectStore

variable {db db' : RemoteDB} {reg stored : RemoteRegistration} {rows : List RemoteProvider}

namespace RemoteDB

theorem putRegistration_eq_ok (h : db.putRegistration reg = .ok db') :
    db' = { db with registrations := db.registrations.put reg } := by
  rw [RemoteDB.putRegistration] at h
  split at h
  case isTrue => contradiction
  case isFalse => exact (Except.ok.inj h).symm

theorem commitReplacement_eq_ok (h : db.commitReplacement g stored rows = .ok db') :
    db' = { registrations := db.registrations.put stored
            providers := rows.foldl ObjectStore.put db.providers } := by
  rw [RemoteDB.commitReplacement] at h
  split at h; · contradiction
  obtain ⟨db₁, h₁, h⟩ := Except.bind_eq_ok_iff.mp h
  cases h
  rw [putRegistration_eq_ok (Except.context_eq_ok.mp h₁)]

theorem commitReplacement_isError :
    (∃ e, db.commitReplacement g stored rows = .error e) ↔
      (db.registrations.lookup stored.id).map (·.generation) ≠ g ∨ db.HasUniqueConflict stored := by
  rw [RemoteDB.commitReplacement]
  split
  case isTrue hg => exact ⟨fun _ => .inl hg, fun _ => ⟨_, rfl⟩⟩
  case isFalse hg =>
    rw [or_iff_right hg, RemoteDB.putRegistration]
    split
    case isTrue hc  => exact ⟨fun _ => hc, fun _ => ⟨_, rfl⟩⟩
    case isFalse hc =>
      refine ⟨?_, fun h => absurd h hc⟩
      rintro ⟨e, h⟩
      cases h

theorem commitUpdate_eq_ok (h : db.commitUpdate op g reg = .ok db') :
    (db.registrations.lookup reg.id).map (·.generation) = some g ∧
      db' = { db with registrations := db.registrations.put reg } := by
  rw [RemoteDB.commitUpdate] at h
  split at h
  case isTrue => contradiction
  case isFalse hg => exact ⟨not_not.mp hg, putRegistration_eq_ok (Except.context_eq_ok.mp h)⟩

theorem registrationByOwner_owner (h : reg ∈ db.registrationByOwner owner) :
    reg.ownerSubjectID = owner := by
  simpa using List.find?_some h

end RemoteDB

namespace RemoteRegistrationService

variable {existing : Option RemoteRegistration} {owner id : String} {expectedGeneration : UInt64}

theorem targetID_some :
    targetID (some reg) stored expectedGeneration = .ok target ↔
      reg.generation = expectedGeneration ∧
        (Text.trimSpace stored.id = "" ∨ Text.trimSpace stored.id = reg.id) ∧ target = reg.id := by
  simp only [targetID]
  split
  case isTrue hg => simp [hg]
  case isFalse hg =>
    split
    case isTrue hi  => simp [hi]
    case isFalse hi =>
      have hi : Text.trimSpace stored.id = "" ∨ Text.trimSpace stored.id = reg.id := by
        by_contra h
        exact hi (not_or.mp h)
      simp [not_not.mp hg, hi, eq_comm (a := target)]

theorem targetID_none :
    targetID none stored expectedGeneration = .ok target ↔
      expectedGeneration = 0 ∧ Text.trimSpace stored.id ≠ "" ∧ target = Text.trimSpace stored.id := by
  simp only [targetID]
  split
  case isTrue hg => simp [hg]
  case isFalse hg =>
    split
    case isTrue hi  => simp [hi]
    case isFalse hi => simp [not_not.mp hg, hi, eq_comm (a := target)]

theorem targetID_generation (h : targetID existing stored expectedGeneration = .ok id)
    (he : reg ∈ existing) : reg.generation = expectedGeneration := by
  cases he
  exact (targetID_some.mp h).left

theorem validateRemoteProviders_go_eq_ok
    (h : validateRemoteProviders.go seen providers = .ok ()) (registrationID : String) (g : UInt64) :
    (providers.map (remoteProviderRecord · registrationID g |>.id)).Nodup ∧
      ∀ provider ∈ providers, (remoteProviderRecord provider registrationID g).id ∉ seen ∧
        normalizeKind provider.providerKind ≠ "" ∧ Text.trimSpace provider.providerName ≠ "" := by
  induction providers generalizing seen
  case nil => simp
  case cons provider providers ih =>
    simp only [validateRemoteProviders.go, Except.bind_eq_ok_iff, require_eq_ok] at h
    obtain ⟨_, hb, _, _, _, hs, _, _, h⟩ := h
    obtain ⟨hn, hp⟩ := ih h
    constructor
    case left =>
      refine List.nodup_cons.mpr ⟨fun hm => ?_, hn⟩
      obtain ⟨other, ho, he⟩ := List.mem_map.mp hm
      exact (hp other ho).left (he ▸ List.mem_cons_self)
    case right =>
      intro other ho
      rcases List.mem_cons.mp ho with rfl | ho
      case inl => exact ⟨hs, hb⟩
      case inr => exact ⟨fun hm => (hp other ho).left (List.mem_cons_of_mem _ hm), (hp other ho).right⟩

theorem validateReplace_eq_ok (h : validateReplace owner reg providers = .ok ()) :
    validateRemoteProviders.go [] providers = .ok () := by
  simp only [validateReplace, validateRemoteProviders, Except.bind_eq_ok_iff, require_eq_ok,
    Except.context_eq_ok] at h
  obtain ⟨_, _, _, _, _, _, h⟩ := h
  exact h

end RemoteRegistrationService
end Coredata
