import GestaltModel.Coredata.RemoteRejection
import GestaltModel.Coredata.Theorems.RemoteRegistrations

namespace Coredata

open Interleaving RemoteRegistrationService RemoteDB
open Text (trimSpace)
open ObjectStore (id_of_lookup lookup_erase_of_ne mem_getAll)

variable {db db₁ db₂ db₃ : RemoteDB} {s : RemoteSession} {id key registrationID : String}
variable {reg chosen : RemoteRegistration} {row : RemoteProvider} {providers : List RemoteProvider}
variable {now : Int}

namespace RemoteDB

def dropProviders (db : RemoteDB) (registrationID : String) : RemoteDB :=
  { db with
    providers := (db.providersByRegistration registrationID).foldl (fun store row => store.erase row.id)
      db.providers }

def swept (db : RemoteDB) (registrationID : String) : RemoteDB :=
  { db.dropProviders registrationID with registrations := db.registrations.erase registrationID }

theorem lookup_foldl_erase {store : ObjectStore RemoteProvider} {rows : List RemoteProvider} :
    (rows.foldl (fun store row => store.erase row.id) store).lookup key =
      if key ∈ rows.map RemoteProvider.id then none else store.lookup key := by
  induction rows generalizing store
  case nil => rfl
  case cons row rows ih =>
    rw [List.foldl_cons, ih, List.map_cons]
    by_cases hk : key = row.id
    case pos => simp [hk]
    case neg => simp [hk, lookup_erase_of_ne hk]

theorem mem_providersByRegistration :
    row ∈ db.providersByRegistration registrationID ↔
      db.providers.lookup row.id = some row ∧ row.registrationID = registrationID := by
  simp [providersByRegistration, mem_getAll, Record.id]

theorem lookup_dropProviders :
    (db.dropProviders registrationID).providers.lookup key =
      (db.providers.lookup key).filter (·.registrationID ≠ registrationID) := by
  rw [dropProviders, lookup_foldl_erase]
  cases hl : db.providers.lookup key
  case none => simp
  case some row =>
    have hid : row.id = key := id_of_lookup hl
    have hm : key ∈ (db.providersByRegistration registrationID).map RemoteProvider.id ↔
        row.registrationID = registrationID := by
      rw [List.mem_map]
      constructor
      case mp =>
        rintro ⟨other, ho, hk⟩
        obtain ⟨ho, hr⟩ := mem_providersByRegistration.mp ho
        rw [hk, hl] at ho
        cases ho
        exact hr
      case mpr =>
        intro hr
        exact ⟨row, mem_providersByRegistration.mpr ⟨hid ▸ hl, hr⟩, hid⟩
    by_cases hr : row.registrationID = registrationID
    case pos => simp [hm.mpr hr, hr, Option.filter_some]
    case neg => simp [mt hm.mp hr, hr, Option.filter_some]

end RemoteDB

namespace RemoteSession

-- What the single calls do.

@[simp]
theorem handle_now :
    handle .now s = ({ s with readings := fun n => s.readings (n + 1) }, s.readings 0) :=
  rfl

@[simp]
theorem handle_registrationByOwner :
    handle (.registrationByOwner owner) s = (s, .ok (s.db.registrationByOwner owner)) :=
  rfl

@[simp]
theorem handle_getRegistration :
    handle (.getRegistration id) s = (s, .ok (s.db.registrations.lookup id)) :=
  rfl

@[simp]
theorem handle_deleteRegistration :
    handle (.deleteRegistration id) s =
      ({ s with db := { s.db with registrations := s.db.registrations.erase id } }, .ok ()) :=
  rfl

@[simp]
theorem handle_getProvider :
    handle (.getProvider id) s = (s, .ok (s.db.providers.lookup id)) :=
  rfl

@[simp]
theorem handle_providersByRegistration :
    handle (.providersByRegistration id) s = (s, .ok (s.db.providersByRegistration id)) :=
  rfl

@[simp]
theorem handle_deleteProvider :
    handle (.deleteProvider id) s =
      ({ s with db := { s.db with providers := s.db.providers.erase id } }, .ok ()) :=
  rfl

theorem eval_deleteProviders :
    (deleteProviders rows).eval handle s =
      ({ s with db := { s.db with
          providers := rows.foldl (fun store row => store.erase row.id) s.db.providers } }, .ok ()) := by
  induction rows generalizing s
  case nil => rfl
  case cons row rows ih =>
    rw [deleteProviders, request_bind, Program.eval_call, handle_deleteProvider]
    exact ih

theorem eval_deleteProvidersForRegistration :
    (deleteProvidersForRegistration registrationID).eval handle s =
      ({ s with db := s.db.dropProviders registrationID }, .ok ()) := by
  rw [deleteProvidersForRegistration, request_bind, Program.eval_call,
    handle_providersByRegistration]
  exact eval_deleteProviders

theorem eval_sweep :
    (sweep registrationID).eval handle s =
      ({ s with db := s.db.swept registrationID }, .ok ()) := by
  rw [sweep, Program.eval_bind, eval_deleteProvidersForRegistration]
  exact handle_deleteRegistration

end RemoteSession

namespace RemoteRejection

open RemoteSession

-- The stores after some registrations have been removed that had expired, or did not exist.
structure Swept (now : Int) (db db' : RemoteDB) : Prop where
  regs : ∀ {id reg}, db'.registrations.lookup id = some reg → db.registrations.lookup id = some reg
  rows : ∀ {id row}, db'.providers.lookup id = some row → db.providers.lookup id = some row
  active : ∀ {id reg}, db.registrations.lookup id = some reg → RegistrationActive reg now →
    db'.registrations.lookup id = some reg
  rowKept : ∀ {id row reg}, db.providers.lookup id = some row →
    db.registrations.lookup row.registrationID = some reg → RegistrationActive reg now →
    db'.providers.lookup id = some row

namespace Swept

theorem refl (now : Int) (db : RemoteDB) : Swept now db db where
  regs h        := h
  rows h        := h
  active h _    := h
  rowKept h _ _ := h

theorem trans (h₁ : Swept now db₁ db₂) (h₂ : Swept now db₂ db₃) : Swept now db₁ db₃ where
  regs h    := h₁.regs (h₂.regs h)
  rows h    := h₁.rows (h₂.rows h)
  active h ha := h₂.active (h₁.active h ha) ha
  rowKept hp hr ha := h₂.rowKept (h₁.rowKept hp hr ha) (h₁.active hr ha) ha

theorem of_dropProviders
    (h : ∀ reg, db.registrations.lookup registrationID = some reg → ¬RegistrationActive reg now) :
    Swept now db (db.dropProviders registrationID) where
  regs hl := hl
  rows hl := by
    rw [lookup_dropProviders] at hl
    exact (Option.filter_eq_some_iff.mp hl).left
  active hl _ := hl
  rowKept {key row reg} hp hr ha := by
    have hne : row.registrationID ≠ registrationID := fun he => h reg (he ▸ hr) ha
    rw [lookup_dropProviders, hp]
    simp [Option.filter_some, hne]

theorem of_swept
    (h : ∀ reg, db.registrations.lookup registrationID = some reg → ¬RegistrationActive reg now) :
    Swept now db (db.swept registrationID) := by
  have hd := of_dropProviders h
  constructor
  case regs =>
    intro id reg hl
    by_cases hi : id = registrationID
    case pos => simp [swept, hi] at hl
    case neg => exact (lookup_erase_of_ne hi).symm.trans hl
  case rows => exact hd.rows
  case active =>
    intro id reg hl ha
    have hi : id ≠ registrationID := fun hi => h reg (hi ▸ hl) ha
    exact (lookup_erase_of_ne hi).trans hl
  case rowKept => exact hd.rowKept

theorem providerOf_iff (h : Swept now db₁ db₂) :
    ProviderOf db₂ now reg provider ↔ ProviderOf db₁ now reg provider := by
  constructor
  case mp =>
    rintro ⟨row, hp, ho, hr, ha⟩
    exact ⟨row, h.rows hp, ho, h.regs hr, ha⟩
  case mpr =>
    rintro ⟨row, hp, ho, hr, ha⟩
    exact ⟨row, h.rowKept hp (ho ▸ hr) ha, ho, h.active hr ha, ha⟩

end Swept

section Resolve

variable {kind name : String} {clock : Int}

structure Resolves (db : RemoteDB) (now : Int) (kind name : String) (row : RemoteProvider)
    (reg : RemoteRegistration) : Prop where
  provider     :
    db.providers.lookup (remoteProviderID (normalizeKind kind) (trimSpace name)) = some row
  registration : db.registrations.lookup row.registrationID = some reg
  generation : row.generation = reg.generation
  active : RegistrationActive reg now

theorem resolve_of_blank (hb : normalizeKind kind = "" ∨ trimSpace name = "") :
    db.resolve clock kind name =
      .error ⟨"resolve remote provider: kind and name are required", none⟩ := by
  rw [resolve, resolveProvider]
  simp only [if_pos hb, Program.pure_eq, Program.eval_ret]

theorem resolve_of_resolves (hb : ¬(normalizeKind kind = "" ∨ trimSpace name = ""))
    (h : Resolves db (normalizedRemoteTime clock) kind name row reg) :
    db.resolve clock kind name = .ok (row, reg) := by
  rw [resolve, resolveProvider]
  simp only [if_neg hb]
  rw [request_bind, Program.eval_call, handle_getProvider]
  simp only [h.provider]
  rw [request_bind, Program.eval_call, handle_getRegistration]
  simp only [h.registration, if_neg (not_not.mpr h.generation)]
  rw [request_bind, Program.eval_call, handle_now]
  simp only [if_neg (not_not.mpr h.active), Program.pure_eq, Program.eval_ret]

theorem resolve_of_not_resolves (hb : ¬(normalizeKind kind = "" ∨ trimSpace name = ""))
    (h : ∀ row reg, ¬Resolves db (normalizedRemoteTime clock) kind name row reg) :
    db.resolve clock kind name = .error errNotRegistered := by
  rw [resolve, resolveProvider]
  simp only [if_neg hb]
  rw [request_bind, Program.eval_call, handle_getProvider]
  cases hp : db.providers.lookup (remoteProviderID (normalizeKind kind) (trimSpace name))
  case none => rfl
  case some row =>
    dsimp only
    rw [request_bind, Program.eval_call, handle_getRegistration]
    cases hr : db.registrations.lookup row.registrationID
    case none => rfl
    case some reg =>
      dsimp only
      split
      case isTrue => rfl
      case isFalse hg =>
        rw [request_bind, Program.eval_call, handle_now]
        split
        case isTrue     => rfl
        case isFalse ha => exact absurd ⟨hp, hr, not_not.mp hg, not_not.mp ha⟩ (h row reg)

theorem resolve_congr
    (h : ∀ row reg, Resolves db₂ (normalizedRemoteTime clock) kind name row reg ↔
      Resolves db₁ (normalizedRemoteTime clock) kind name row reg) :
    db₂.resolve clock kind name = db₁.resolve clock kind name := by
  by_cases hb : normalizeKind kind = "" ∨ trimSpace name = ""
  case pos => rw [resolve_of_blank hb, resolve_of_blank hb]
  case neg =>
    by_cases hr : ∃ row reg, Resolves db₁ (normalizedRemoteTime clock) kind name row reg
    case pos =>
      obtain ⟨row, reg, hr⟩ := hr
      rw [resolve_of_resolves hb hr, resolve_of_resolves hb ((h row reg).mpr hr)]
    case neg =>
      have hn : ∀ row reg, ¬Resolves db₁ (normalizedRemoteTime clock) kind name row reg :=
        fun row reg hx => hr ⟨row, reg, hx⟩
      rw [resolve_of_not_resolves hb hn,
        resolve_of_not_resolves hb fun row reg hx => hn row reg ((h row reg).mp hx)]

-- Removing what has expired changes nothing that is live.
theorem Swept.unchanged (h : Swept (normalizedRemoteTime clock) db₁ db₂) :
    Unchanged clock db₁ db₂ where
  active id reg hl ha := ⟨reg, h.active hl ha, rfl, rfl⟩
  resolve kind name t ht := by
    have hn : normalizedRemoteTime clock ≤ normalizedRemoteTime t :=
      Time.truncate_mono (by decide) ht
    refine resolve_congr fun row reg => ?_
    constructor
    case mp =>
      rintro ⟨hp, hr, hg, ha⟩
      exact ⟨h.rows hp, h.regs hr, hg, ha⟩
    case mpr =>
      rintro ⟨hp, hr, hg, ha⟩
      have ha' : RegistrationActive reg (normalizedRemoteTime clock) := lt_of_le_of_lt hn ha
      exact ⟨h.rowKept hp hr ha', h.active hr ha', hg, ha⟩

end Resolve

def Claimed (now : Int) (db : RemoteDB) (registrationID : String) (providers : List RemoteProvider) :
    Prop :=
  ∃ provider ∈ providers, ∃ other, other.id ≠ registrationID ∧ ProviderOf db now other provider

theorem Swept.claimed_iff (h : Swept now db₁ db₂) :
    Claimed now db₂ registrationID providers ↔ Claimed now db₁ registrationID providers := by
  simp only [Claimed, h.providerOf_iff]

theorem eval_ensureProviderOwnership :
    ∃ db', Swept now s.db db' ∧
      ((ensureProviderOwnership registrationID now providers).eval handle s =
          ({ s with db := db' }, .ok ()) ∧ ¬Claimed now s.db registrationID providers ∨
        (ensureProviderOwnership registrationID now providers).eval handle s =
          ({ s with db := db' }, .error errProviderOwnedElsewhere) ∧
            Claimed now s.db registrationID providers) := by
  induction providers generalizing s
  case nil => exact ⟨s.db, .refl now s.db, .inl ⟨rfl, by simp [Claimed]⟩⟩
  case cons provider providers ih =>
    rw [ensureProviderOwnership, request_bind, Program.eval_call, handle_getProvider]
    -- Whether the first provider is claimed decides whether the loop goes on.
    have next (hp : ∀ other, ProviderOf s.db now other provider → other.id = registrationID) :
        Claimed now s.db registrationID (provider :: providers) ↔
          Claimed now s.db registrationID providers := by
      simp only [Claimed, List.mem_cons, exists_eq_or_imp, or_iff_right_iff_imp]
      rintro ⟨other, hne, ho⟩
      exact absurd (hp other ho) hne
    cases hp : s.db.providers.lookup
      (remoteProviderID provider.providerKind provider.providerName)
    case none =>
      rw [next fun other ho => ?_]
      · exact ih
      · obtain ⟨row, hr, _⟩ := ho
        cases hp.symm.trans hr
    case some owner =>
      dsimp only
      split
      case isTrue ho =>
        rw [next fun other hx => ?_]
        · exact ih
        · obtain ⟨row, hr, hid, _⟩ := hx
          cases hp.symm.trans hr
          exact hid.symm.trans ho
      case isFalse ho =>
        rw [request_bind, Program.eval_call, handle_getRegistration]
        dsimp only
        split
        case isTrue ha =>
          obtain ⟨reg, hl, ha⟩ := ha
          have hid : reg.id = owner.registrationID := id_of_lookup hl
          refine ⟨s.db, .refl now s.db, .inr ⟨rfl, provider, List.mem_cons_self, reg, ?_, ?_⟩⟩
          · rwa [hid]
          · exact ⟨owner, hp, hid.symm, hid ▸ hl, ha⟩
        case isFalse ha =>
          -- The owner has expired, or is gone, and is swept.
          have hn : ∀ reg, s.db.registrations.lookup owner.registrationID = some reg →
              ¬RegistrationActive reg now := fun reg hl ha' => ha ⟨reg, hl, ha'⟩
          have hs := Swept.of_swept hn
          rw [next fun other hx => ?_, ← hs.claimed_iff]
          · rw [Program.eval_bind, eval_sweep]
            obtain ⟨db', h', hr⟩ := @ih { s with db := s.db.swept owner.registrationID }
            exact ⟨db', hs.trans h', hr⟩
          · obtain ⟨row, hr, hid, hl, ha'⟩ := hx
            cases hp.symm.trans hr
            exact absurd ha' (hn other (hid ▸ hl))

def UniqueOwners (db : RemoteDB) : Prop :=
  ∀ reg reg', db.registrations.lookup reg.id = some reg → db.registrations.lookup reg'.id = some reg' →
    reg.ownerSubjectID = reg'.ownerSubjectID → reg.id = reg'.id

theorem UniqueOwners.eq (h : UniqueOwners db)
    (hr : db.registrations.lookup reg.id = some reg) (hr' : db.registrations.lookup reg'.id = some reg')
    (ho : reg.ownerSubjectID = reg'.ownerSubjectID) : reg = reg' := by
  have hid := h reg reg' hr hr' ho
  rw [hid, hr'] at hr
  exact (Option.some.inj hr).symm

theorem UniqueOwners.sub (h : UniqueOwners db₁)
    (hs : ∀ {id reg}, db₂.registrations.lookup id = some reg → db₁.registrations.lookup id = some reg) :
    UniqueOwners db₂ :=
  fun reg reg' hr hr' => h reg reg' (hs hr) (hs hr')

theorem UniqueOwners.putRegistration (h : UniqueOwners db₁) (hp : db₁.putRegistration reg = .ok db₂) :
    UniqueOwners db₂ := by
  rw [RemoteDB.putRegistration] at hp
  split at hp
  case isTrue => contradiction
  case isFalse hc =>
    cases hp
    have other {reg'} (hi : reg'.id ≠ reg.id)
        (hl : (db₁.registrations.put reg).lookup reg'.id = some reg') :
        db₁.registrations.lookup reg'.id = some reg' :=
      (ObjectStore.lookup_put_of_ne hi).symm.trans hl
    have conflict {reg'} (hi : reg'.id ≠ reg.id)
        (hl : (db₁.registrations.put reg).lookup reg'.id = some reg') :
        reg'.ownerSubjectID ≠ reg.ownerSubjectID :=
      fun ho => hc ⟨reg', mem_getAll.mpr (other hi hl), hi, ho⟩
    have same {reg'} (hi : reg'.id = reg.id)
        (hl : (db₁.registrations.put reg).lookup reg'.id = some reg') : reg' = reg := by
      rw [hi] at hl
      exact (Option.some.inj (ObjectStore.lookup_put_self.symm.trans hl)).symm
    intro r₁ r₂ h₁ h₂ ho
    by_cases i₁ : r₁.id = reg.id
    case pos =>
      by_cases i₂ : r₂.id = reg.id
      case pos => exact i₁.trans i₂.symm
      case neg => exact absurd (same i₁ h₁ ▸ ho).symm (conflict i₂ h₂)
    case neg =>
      by_cases i₂ : r₂.id = reg.id
      case pos => exact absurd (same i₂ h₂ ▸ ho) (conflict i₁ h₁)
      case neg => exact h r₁ r₂ (other i₁ h₁) (other i₂ h₂) ho

theorem UniqueOwners.handle (h : UniqueOwners s.db) (c : RemoteCall) :
    UniqueOwners (handle c s).1.db := by
  cases c
  case deleteRegistration id =>
    refine h.sub fun {id' reg} hl => ?_
    by_cases hi : id' = id
    case pos => simp [hi] at hl
    case neg => exact (lookup_erase_of_ne hi).symm.trans hl
  case commitReplacement g stored rows =>
    change UniqueOwners (RemoteCall.commit s.db (s.db.commitReplacement g stored rows)).1
    rw [commitReplacement]
    split
    case isTrue => exact h
    case isFalse =>
      cases hp : s.db.putRegistration stored
      case error => exact h
      case ok db' => exact (h.putRegistration hp).sub fun hl => hl
  case commitUpdate op g reg =>
    change UniqueOwners (RemoteCall.commit s.db (s.db.commitUpdate op g reg)).1
    rw [commitUpdate]
    split
    case isTrue => exact h
    case isFalse =>
      cases hp : s.db.putRegistration reg
      case error  => exact h
      case ok db' => exact h.putRegistration hp
  all_goals exact h

theorem uniqueOwners_of_reachable (h : db.Reachable) : UniqueOwners db := by
  have run {α} (p : RemoteProgram α) {s : RemoteSession} (h : UniqueOwners s.db) :
      UniqueOwners (p.eval handle s).1.db :=
    Program.eval_invariant (I := fun s : RemoteSession => UniqueOwners s.db)
      (fun c _ hs => hs.handle c) p h
  induction h
  case empty => exact fun reg _ hr => by simp at hr
  case ownership _ _ _ ih => exact run _ ih
  case lease _ _ _ ih => exact run _ ih

section Replace

variable {owner : String} {expectedGeneration : UInt64}

def current (db : RemoteDB) (owner : String) (now : Int) : Option RemoteRegistration :=
  (db.registrationByOwner owner).filter (RegistrationActive · now)

theorem registrationByOwner_eq_some (h : db.registrationByOwner owner = some reg) :
    db.registrations.lookup reg.id = some reg ∧ reg.ownerSubjectID = owner :=
  ⟨mem_getAll.mp (List.mem_of_find?_eq_some h), registrationByOwner_owner h⟩

theorem registrationByOwner_isSome (h : db.registrations.lookup reg.id = some reg)
    (ho : reg.ownerSubjectID = owner) : ∃ reg', db.registrationByOwner owner = some reg' := by
  refine Option.isSome_iff_exists.mp (List.find?_isSome.mpr ⟨reg, mem_getAll.mpr h, ?_⟩)
  simpa using ho

theorem current_eq_some (h : current db owner now = some reg) :
    db.registrations.lookup reg.id = some reg ∧ reg.ownerSubjectID = owner ∧
      RegistrationActive reg now := by
  obtain ⟨hr, ha⟩ := Option.filter_eq_some_iff.mp h
  obtain ⟨hl, ho⟩ := registrationByOwner_eq_some hr
  exact ⟨hl, ho, of_decide_eq_true ha⟩

theorem current_of_active (hu : UniqueOwners db) (h : db.registrations.lookup reg.id = some reg)
    (ho : reg.ownerSubjectID = owner) (ha : RegistrationActive reg now) :
    current db owner now = some reg := by
  obtain ⟨reg', hr⟩ := registrationByOwner_isSome h ho
  obtain ⟨hl', ho'⟩ := registrationByOwner_eq_some hr
  cases hu.eq h hl' (ho.trans ho'.symm)
  rw [current, hr, Option.filter_some, if_pos (by simpa using ha)]

-- The owner's registration is removed if it has expired, so that it has no other one then.
theorem eval_sweepExpired (hu : UniqueOwners s.db) :
    ∃ db', Swept now s.db db' ∧
      (sweepExpired (s.db.registrationByOwner owner) now).eval handle s =
        ({ s with db := db' }, .ok (current s.db owner now)) ∧
      (current s.db owner now = none → ∀ reg, db'.registrations.lookup reg.id = some reg →
        reg.ownerSubjectID ≠ owner) := by
  cases hr : s.db.registrationByOwner owner
  case none =>
    refine ⟨s.db, .refl now s.db, ?_, fun _ reg hl ho => ?_⟩
    · rw [current, hr]
      rfl
    · obtain ⟨reg', h'⟩ := registrationByOwner_isSome hl ho
      cases hr.symm.trans h'
  case some existing =>
    obtain ⟨hl, ho⟩ := registrationByOwner_eq_some hr
    by_cases ha : RegistrationActive existing now
    case pos =>
      have hc : current s.db owner now = some existing := current_of_active hu hl ho ha
      refine ⟨s.db, .refl now s.db, ?_, fun hn => ?_⟩
      · rw [sweepExpired, if_pos ha, hc]
        rfl
      · cases hc.symm.trans hn
    case neg =>
      have hc : current s.db owner now = none := by
        rw [current, hr, Option.filter_some, if_neg (by simpa using ha)]
      have hs : Swept now s.db (s.db.swept existing.id) := by
        refine .of_swept fun reg hl' => ?_
        cases hl.symm.trans hl'
        exact ha
      refine ⟨s.db.swept existing.id, hs, ?_, fun _ reg hl' ho' => ?_⟩
      · rw [sweepExpired, if_neg ha, Program.eval_bind, eval_sweep, hc]
        rfl
      · cases hu.eq hl (hs.regs hl') (ho.trans ho'.symm)
        simp [swept] at hl'

def Refused (owner registrationID : String) (existing : Option RemoteRegistration)
    (reg : RemoteRegistration) (db : RemoteDB) : Prop :=
  normalizedRemoteTime reg.leaseExpiresAt = 0 ∨
  (db.registrations.lookup registrationID).map (·.generation) ≠ existing.map (·.generation) ∨
  ∃ other, db.registrations.lookup other.id = some other ∧ other.id ≠ registrationID ∧
    other.ownerSubjectID = owner

theorem eval_store :
    (∃ e, ((store owner registrationID existing reg providers).eval handle s).2 = .error e ∧
      ((store owner registrationID existing reg providers).eval handle s).1.db =
        s.db.dropProviders registrationID ∧ Refused owner registrationID existing reg s.db) ∨
    (∃ stored, ((store owner registrationID existing reg providers).eval handle s).2 = .ok stored) ∧
      ¬Refused owner registrationID existing reg s.db := by
  rw [store, Program.eval_bind, eval_deleteProvidersForRegistration]
  dsimp only
  rw [request_bind, Program.eval_call, handle_now]
  dsimp only
  split
  case isTrue hz => exact .inl ⟨_, rfl, rfl, .inl hz⟩
  case isFalse hz =>
    rw [request_bind, Program.eval_call]
    have hz : normalizedRemoteTime reg.leaseExpiresAt ≠ 0 := hz
    generalize hn : normalizedRemoteTime (s.readings 0) = now
    generalize hr : providers.map (remoteProviderRecord · registrationID
      (replacement owner registrationID existing reg now).generation) = rows
    -- The transaction sees the stores without the providers, which it does not look at.
    have hc : (∃ e, (s.db.dropProviders registrationID).commitReplacement
        (existing.map (·.generation)) (replacement owner registrationID existing reg now) rows =
          .error e) ↔ Refused owner registrationID existing reg s.db := by
      rw [commitReplacement_isError, Refused, or_iff_right hz]
      simp only [HasUniqueConflict, mem_getAll]
      rfl
    simp only [RemoteSession.handle, RemoteCall.exec]
    cases hx : (s.db.dropProviders registrationID).commitReplacement (existing.map (·.generation))
      (replacement owner registrationID existing reg now) rows
    case error e => exact .inl ⟨e, rfl, rfl, hc.mp ⟨e, hx⟩⟩
    case ok db'  =>
      refine .inr ⟨⟨_, rfl⟩, fun hr => ?_⟩
      obtain ⟨e, he⟩ := hc.mpr hr
      cases hx.symm.trans he

-- A replacement has passed all checks before the providers of the chosen registration are removed.
structure Passed (owner : String) (reg : RemoteRegistration) (providers : List RemoteProvider)
    (expectedGeneration : UInt64) (now : Int) (db : RemoteDB) (registrationID : String) : Prop where
  valid : validateReplace owner reg providers = .ok ()
  target : targetID (current db (trimSpace owner) now) reg expectedGeneration =
    .ok registrationID
  unclaimed : ¬Claimed now db registrationID providers

-- A replacement is rejected while only expired registrations have been removed, or it has passed.
theorem eval_replace (hu : UniqueOwners s.db) :
    (∃ e, ((replace owner reg providers expectedGeneration).eval handle s).2 = .error e ∧
      Swept (normalizedRemoteTime (s.readings 0)) s.db
        ((replace owner reg providers expectedGeneration).eval handle s).1.db ∧
      ∀ id, ¬Passed owner reg providers expectedGeneration (normalizedRemoteTime (s.readings 0)) s.db
        id) ∨
    ∃ id s', Swept (normalizedRemoteTime (s.readings 0)) s.db s'.db ∧
      Passed owner reg providers expectedGeneration (normalizedRemoteTime (s.readings 0)) s.db id ∧
      (current s.db (trimSpace owner) (normalizedRemoteTime (s.readings 0)) = none →
        ∀ reg, s'.db.registrations.lookup reg.id = some reg →
          reg.ownerSubjectID ≠ trimSpace owner) ∧
      (replace owner reg providers expectedGeneration).eval handle s =
        (store (trimSpace owner) id
          (current s.db (trimSpace owner) (normalizedRemoteTime (s.readings 0))) reg
          providers).eval handle s' := by
  simp only [replace]
  split
  case h_1 e hv =>
    refine .inl ⟨e, rfl, .refl _ _, fun id hp => ?_⟩
    cases hv.symm.trans hp.valid
  case h_2 hv =>
    rw [request_bind, Program.eval_call, handle_registrationByOwner]
    dsimp only
    rw [request_bind, Program.eval_call, handle_now]
    rw [Program.eval_bind]
    obtain ⟨db₁, h₁, he₁, ho₁⟩ := @eval_sweepExpired
      { s with readings := fun n => s.readings (n + 1) } (normalizedRemoteTime (s.readings 0))
      (trimSpace owner) hu
    rw [he₁]
    dsimp only at h₁ ho₁ ⊢
    split
    case h_1 e ht =>
      refine .inl ⟨e, rfl, h₁, fun id hp => ?_⟩
      cases ht.symm.trans hp.target
    case h_2 id ht =>
      rw [Program.eval_bind]
      obtain ⟨db₂, h₂, he₂⟩ := @eval_ensureProviderOwnership
        { readings := fun n => s.readings (n + 1), db := db₁ } id providers
        (normalizedRemoteTime (s.readings 0))
      rw [h₁.claimed_iff] at he₂
      rcases he₂ with ⟨he₂, hc⟩ | ⟨he₂, hc⟩
      case inl =>
        rw [he₂]
        refine .inr ⟨id, _, h₁.trans h₂, ⟨hv, ht, hc⟩, fun hn reg hl => ?_, rfl⟩
        exact ho₁ hn reg (h₂.regs hl)
      case inr =>
        rw [he₂]
        refine .inl ⟨_, rfl, h₁.trans h₂, fun id' hp => ?_⟩
        cases ht.symm.trans hp.target
        exact hp.unclaimed hc

theorem Exposed.passed (hu : UniqueOwners db)
    (h : Exposed owner reg providers expectedGeneration clock db) :
    ∃ chosen, db.registrations.lookup chosen.id = some chosen ∧
      RegistrationActive chosen (normalizedRemoteTime clock) ∧ Resolvable db chosen ∧
      Chosen owner reg expectedGeneration (normalizedRemoteTime clock) db chosen ∧
      Passed owner reg providers expectedGeneration (normalizedRemoteTime clock) db chosen.id := by
  obtain ⟨hv, chosen, hl, ha, hc, hr, hp⟩ := h
  refine ⟨chosen, hl, ha, hr, hc, hv, ?_, ?_⟩
  case refine_1 =>
    cases hc
    case own ho hg hi _ =>
      rw [current_of_active hu hl ho ha]
      exact targetID_some.mpr ⟨hg, hi, rfl⟩
    case foreign hn hg hi hne =>
      have hcur : current db (trimSpace owner) (normalizedRemoteTime clock) = none := by
        cases hx : current db (trimSpace owner) (normalizedRemoteTime clock)
        case none => rfl
        case some other =>
          obtain ⟨hl', ho', ha'⟩ := current_eq_some hx
          exact absurd ha' (hn _ other hl' ho')
      rw [hcur]
      exact targetID_none.mpr ⟨hg, hi ▸ hne, hi.symm⟩
  case refine_2 =>
    rintro ⟨provider, hm, other, hne, ho⟩
    exact hne (congrArg _ (hp provider hm other ho))

theorem Chosen.refused (hs : Swept now db₁ db₂)
    (hl : db₁.registrations.lookup chosen.id = some chosen) (ha : RegistrationActive chosen now)
    (h : Chosen owner reg expectedGeneration now db₁ chosen) :
    Refused (trimSpace owner) chosen.id (current db₁ (trimSpace owner) now) reg db₂ := by
  cases h
  case own lease => exact .inl lease
  case foreign hn _ _ _ =>
    refine .inr (.inl ?_)
    rw [hs.active hl ha]
    cases hx : current db₁ (trimSpace owner) now
    case none => simp
    case some other =>
      obtain ⟨hl', ho', ha'⟩ := current_eq_some hx
      exact absurd ha' (hn _ other hl' ho')

theorem Passed.choice (hs : Swept now db₁ db₂) (hu : UniqueOwners db₁)
    (h : Passed owner reg providers expectedGeneration now db₁ chosen.id)
    (hl : db₁.registrations.lookup chosen.id = some chosen) (ha : RegistrationActive chosen now)
    (hr : Refused (trimSpace owner) chosen.id (current db₁ (trimSpace owner) now) reg db₂) :
    Chosen owner reg expectedGeneration now db₁ chosen := by
  have ht := h.target
  cases hx : current db₁ (trimSpace owner) now
  case some existing =>
    obtain ⟨hl', ho, _⟩ := current_eq_some hx
    rw [hx] at ht hr
    obtain ⟨hg, hi, hid⟩ := targetID_some.mp ht
    rw [hid, hl'] at hl
    cases hl
    refine .own ho hg hi ?_
    -- The transaction itself finds nothing wrong.
    rcases hr with hr | hr | ⟨other, hl₂, hne, ho₂⟩
    case inl => exact hr
    case inr.inl => exact absurd (by rw [hs.active hl' ha]) hr
    case inr.inr => exact absurd (hu _ _ (hs.regs hl₂) hl' (ho₂.trans ho.symm)) hne
  case none =>
    rw [hx] at ht
    obtain ⟨hg, hi, hid⟩ := targetID_none.mp ht
    refine .foreign (fun id other hl' ho ha' => ?_) hg hid.symm (hid ▸ hi)
    have hid' : other.id = id := id_of_lookup hl'
    cases hx.symm.trans (current_of_active hu (hid' ▸ hl') ho ha')

theorem Passed.exposed (hs : Swept (normalizedRemoteTime clock) db₁ db₂) (hu : UniqueOwners db₁)
    (h : Passed owner reg providers expectedGeneration (normalizedRemoteTime clock) db₁ chosen.id)
    (hl : db₁.registrations.lookup chosen.id = some chosen)
    (ha : RegistrationActive chosen (normalizedRemoteTime clock))
    (hr : Refused (trimSpace owner) chosen.id
      (current db₁ (trimSpace owner) (normalizedRemoteTime clock)) reg db₂)
    (hv : Resolvable db₁ chosen) :
    Exposed owner reg providers expectedGeneration clock db₁ := by
  refine ⟨h.valid, chosen, hl, ha, h.choice hs hu hl ha hr, hv, fun provider hm other ho => ?_⟩
  by_contra hne
  refine h.unclaimed ⟨provider, hm, other, fun hid => hne ?_, ho⟩
  obtain ⟨row, _, _, hl', _⟩ := ho
  rw [hid, hl] at hl'
  exact (Option.some.inj hl').symm

-- The providers of an active registration are lost without the registration.
theorem unchanged_dropProviders_iff (h : Swept (normalizedRemoteTime clock) db₁ db₂)
    (hl : db₁.registrations.lookup chosen.id = some chosen)
    (ha : RegistrationActive chosen (normalizedRemoteTime clock)) :
    Unchanged clock db₁ (db₂.dropProviders chosen.id) ↔ ¬Resolvable db₁ chosen := by
  constructor
  case mp =>
    rintro hu ⟨kind, name, row, hk, hn, hp, ho, hg⟩
    have hb : ¬(normalizeKind kind = "" ∨ trimSpace name = "") := not_or.mpr ⟨hk, hn⟩
    have h₁ := resolve_of_resolves hb ⟨hp, ho ▸ hl, hg, ha⟩
    have h₂ := hu.resolve kind name clock le_rfl
    rw [h₁, resolve_of_not_resolves hb] at h₂
    · cases h₂
    · rintro row' reg' ⟨hp', _⟩
      rw [lookup_dropProviders, h.rowKept hp (ho ▸ hl) ha] at hp'
      simp [Option.filter_some, ho] at hp'
  case mpr =>
    intro hv
    refine ⟨fun id reg hl ha => ⟨reg, h.active hl ha, rfl, rfl⟩, fun kind name t ht => ?_⟩
    by_cases hb : normalizeKind kind = "" ∨ trimSpace name = ""
    case pos => rw [resolve_of_blank hb, resolve_of_blank hb]
    case neg =>
      refine resolve_congr fun row reg => ?_
      constructor
      case mp =>
        rintro ⟨hp, hr, hg, ha⟩
        rw [lookup_dropProviders] at hp
        exact ⟨h.rows (Option.filter_eq_some_iff.mp hp).left, h.regs hr, hg, ha⟩
      case mpr =>
        rintro ⟨hp, hr, hg, ha'⟩
        have hact : RegistrationActive reg (normalizedRemoteTime clock) :=
          lt_of_le_of_lt (Time.truncate_mono (by decide) ht) ha'
        have hne : row.registrationID ≠ chosen.id := by
          intro he
          rw [he, hl] at hr
          cases hr
          exact hv ⟨kind, name, row, (not_or.mp hb).left, (not_or.mp hb).right, hp, he, hg⟩
        refine ⟨?_, h.active hr hact, hg, ha'⟩
        rw [lookup_dropProviders, h.rowKept hp hr hact]
        simp [Option.filter_some, hne]

-- A rejection changes nothing live, unless it comes after providers of an active one are removed.
theorem rejection_harmless_iff (hr : db.Reachable) (owner : String) (reg : RemoteRegistration)
    (providers : List RemoteProvider) (expectedGeneration : UInt64) (readings : Nat → Int) :
    (∀ e, ((replace owner reg providers expectedGeneration).eval handle { readings, db }).2 = .error e →
      Unchanged (readings 0) db
        ((replace owner reg providers expectedGeneration).eval handle { readings, db }).1.db) ↔
    ¬Exposed owner reg providers expectedGeneration (readings 0) db := by
  have hu := uniqueOwners_of_reachable hr
  rcases @eval_replace { readings, db } reg providers owner expectedGeneration hu with
    ⟨e, he, hs, hn⟩ | ⟨id, s', hs, hp, _, he⟩
  case inl =>
    refine iff_of_true (fun _ _ => hs.unchanged) fun hx => ?_
    obtain ⟨chosen, _, _, _, _, hx⟩ := hx.passed hu
    exact hn chosen.id hx
  case inr =>
    -- An exposed registration is the one that was chosen.
    have same (hx : Exposed owner reg providers expectedGeneration (readings 0) db) :
        ∃ chosen, chosen.id = id ∧ db.registrations.lookup chosen.id = some chosen ∧
          RegistrationActive chosen (normalizedRemoteTime (readings 0)) ∧ Resolvable db chosen ∧
          Chosen owner reg expectedGeneration (normalizedRemoteTime (readings 0)) db chosen := by
      obtain ⟨chosen, hl, ha, hv, hc, hx⟩ := hx.passed hu
      cases hp.target.symm.trans hx.target
      exact ⟨chosen, rfl, hl, ha, hv, hc⟩
    rw [he]
    rcases @eval_store s' id reg providers (trimSpace owner)
      (current db (trimSpace owner) (normalizedRemoteTime (readings 0))) with
      ⟨e, hr, hd, hf⟩ | ⟨⟨stored, hr⟩, hf⟩
    case inl =>
      rw [hr, hd]
      by_cases ha : ∃ chosen, db.registrations.lookup id = some chosen ∧
        RegistrationActive chosen (normalizedRemoteTime (readings 0))
      case pos =>
        obtain ⟨chosen, hl, ha⟩ := ha
        have hid : chosen.id = id := id_of_lookup hl
        subst hid
        have hiff : Exposed owner reg providers expectedGeneration (readings 0) db ↔
            Resolvable db chosen := by
          refine ⟨fun hx => ?_, hp.exposed hs hu hl ha hf⟩
          obtain ⟨chosen', hid, hl', _, hv, _⟩ := same hx
          rw [hid, hl] at hl'
          cases hl'
          exact hv
        rw [hiff, ← unchanged_dropProviders_iff hs hl ha]
        exact ⟨fun h => h e rfl, fun h _ _ => h⟩
      case neg =>
        have hd : Swept (normalizedRemoteTime (readings 0)) s'.db (s'.db.dropProviders id) :=
          .of_dropProviders fun chosen hl ha' => ha ⟨chosen, hs.regs hl, ha'⟩
        refine iff_of_true (fun _ _ => (hs.trans hd).unchanged) fun hx => ?_
        obtain ⟨chosen, rfl, hl, ha', _⟩ := same hx
        exact ha ⟨chosen, hl, ha'⟩
    case inr =>
      rw [hr]
      refine iff_of_true (fun _ h => by cases h) fun hx => ?_
      obtain ⟨chosen, rfl, hl, ha, _, hc⟩ := same hx
      exact hf (hc.refused hs hl ha)

end Replace

def registration (leaseExpiresAt : Int) : RemoteRegistration where
  id := "alice"
  tunnelHost := "tunnel"
  tunnelCertificate := [0]
  serverSPKISHA256 := "spki"
  leaseExpiresAt := leaseExpiresAt

def provider : RemoteProvider where
  providerKind := "app"
  providerName := "demo"
  definition := Finmap.singleton "source" "demo"

def registered : RemoteDB :=
  let op := RemoteOwnership.Operation.replace "alice" (registration (3600 * Time.second)) [provider] 0
  (op.program.eval handle { readings := fun _ => 0, db := {} }).1.db

theorem reachable_registered : registered.Reachable :=
  .ownership _ _ .empty

-- It is rejected to register no provider at all.
theorem rejection_harmless_demo :
    registered.Reachable ∧
      ∃ e, ((replace "alice" (registration (7200 * Time.second)) [] 1).eval handle
          { readings := fun _ => 0, db := registered }).2 = .error e ∧
        Unchanged 0 registered
          ((replace "alice" (registration (7200 * Time.second)) [] 1).eval handle
            { readings := fun _ => 0, db := registered }).1.db := by
  have hv : validateReplace "alice" (registration (7200 * Time.second)) [] ≠ .ok () := by
    decide +kernel
  have he : ((replace "alice" (registration (7200 * Time.second)) [] 1).eval handle
      { readings := fun _ => 0, db := registered }).2 =
        .error ⟨"replace remote registration: at least one provider is required", none⟩ := by
    decide +kernel
  refine ⟨reachable_registered, _, he, ?_⟩
  exact (rejection_harmless_iff reachable_registered "alice" (registration (7200 * Time.second)) [] 1
    fun _ => 0).mpr (fun hx => hv hx.left) _ he

-- A replacement without a lease is rejected after the providers are gone.
theorem rejection_removes_providers :
    registered.Reachable ∧
      ∃ e, ((replace "alice" (registration 0) [provider] 1).eval handle
          { readings := fun _ => 0, db := registered }).2 = .error e ∧
        ¬Unchanged 0 registered
          ((replace "alice" (registration 0) [provider] 1).eval handle
            { readings := fun _ => 0, db := registered }).1.db := by
  refine ⟨reachable_registered,
    ⟨"replace remote registration: lease_expires_at is required", none⟩, by decide +kernel, fun h => ?_⟩
  have hr := congrArg (fun r => r.toOption.isSome) (h.resolve "app" "demo" 0 le_rfl)
  revert hr
  decide +kernel

end RemoteRejection
end Coredata
