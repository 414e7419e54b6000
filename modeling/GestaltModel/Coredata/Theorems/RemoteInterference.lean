import GestaltModel.Coredata.RemoteOwnership
import GestaltModel.Coredata.Theorems.RemoteRules

namespace Coredata.RemoteOwnership

open Interleaving RemoteRegistrationService RemoteMemory RemoteCall ObjectStore

variable {operations : ι → Operation} {i j : ι} {s s' s₁ s₂ s₃ : RemoteMemory ι}
variable {reg stored : RemoteRegistration} {row : RemoteProvider} {rows : List RemoteProvider}
variable {id : String} {db : RemoteDB}

-- What is replaced or removed, or whose providers are, has expired or is the caller's target.
def Expendable (operations : ι → Operation) (i : ι) (registrationID : String) (s : RemoteMemory ι) :
    Prop :=
  ∀ reg, s.db.registrations.lookup registrationID = some reg → RegistrationActive reg s.now →
    (operations i).Targets reg

-- Registrations and their providers stay while the lease is active and nobody writes who is meant to.
structure Later (operations : ι → Operation) (s s' : RemoteMemory ι) : Prop where
  clock : s.clock ≤ s'.clock
  wrote : ∀ {i reg}, s.wrote i reg = true → s'.wrote i reg = true
  reg : ∀ {reg}, s.Stored reg → RegistrationActive reg s'.now → Undisturbed operations reg s' →
    s'.Stored reg
  row : ∀ {reg id row}, s.Stored reg → RegistrationActive reg s'.now →
    Undisturbed operations reg s' → s.db.providers.lookup id = some row →
    row.registrationID = reg.id → s'.db.providers.lookup id = some row

namespace Later

theorem refl (s : RemoteMemory ι) : Later operations s s where
  clock := le_rfl
  wrote h       := h
  reg h _ _     := h
  row _ _ _ h _ := h

theorem active (h : Later operations s s') (ha : RegistrationActive reg s'.now) :
    RegistrationActive reg s.now :=
  active_of_le h.clock ha

theorem undisturbed (h : Later operations s s') (hu : Undisturbed operations reg s') :
    Undisturbed operations reg s := by
  intro i ht
  by_contra ha
  have ha := h.wrote (Bool.not_eq_false _ ▸ ha)
  exact Bool.false_ne_true ((hu i ht).symm.trans ha)

theorem trans (h₁ : Later operations s₁ s₂) (h₂ : Later operations s₂ s₃) :
    Later operations s₁ s₃ where
  clock := h₁.clock.trans h₂.clock
  wrote h := h₂.wrote (h₁.wrote h)
  reg hr ha hu := h₂.reg (h₁.reg hr (h₂.active ha) (h₂.undisturbed hu)) ha hu
  row hr ha hu hp ho := by
    have hr' := h₁.reg hr (h₂.active ha) (h₂.undisturbed hu)
    exact h₂.row hr' ha hu (h₁.row hr (h₂.active ha) (h₂.undisturbed hu) hp ho) ho

theorem of_act [DecidableEq ι] (d : Nat) : Later operations s ((remoteSemantics ι).act d s) where
  clock := Int.le_add_of_nonneg_right (Int.natCast_nonneg d)
  wrote h       := h
  reg h _ _     := h
  row _ _ _ h _ := h

end Later

-- Others touch nothing that is recorded about a caller.
structure Rely (operations : ι → Operation) (i : ι) (s s' : RemoteMemory ι) : Prop where
  later : Later operations s s'
  found : s'.found i = s.found i
  failed : s'.failed i = s.failed i

structure Guar (operations : ι → Operation) (i : ι) (s s' : RemoteMemory ι) : Prop where
  later : Later operations s s'
  found : ∀ {j}, j ≠ i → s'.found j = s.found j
  failed : ∀ {j}, j ≠ i → s'.failed j = s.failed j

theorem Rely.refl (i : ι) (s : RemoteMemory ι) : Rely operations i s s :=
  ⟨.refl s, rfl, rfl⟩

theorem compatible [DecidableEq ι] :
    Compatible (remoteSemantics ι) (fun _ => True) (Rely operations) (Guar operations) where
  refl := .refl
  trans _ _ _ _ h₁ h₂ :=
    ⟨h₁.later.trans h₂.later, h₂.found.trans h₁.found, h₂.failed.trans h₁.failed⟩
  interfere hij _ _ h := ⟨h.later, h.found hij.symm, h.failed hij.symm⟩
  env_inv _ _ _ := trivial
  env_rely d _ _ _ := ⟨.of_act d, rfl, rfl⟩

theorem later_of_db (hc : s'.clock = s.clock) (hw : s'.wrote = s.wrote) (hd : s'.db = s.db) :
    Later operations s s' where
  clock := hc.ge
  wrote h       := hw ▸ h
  reg h _ _     := by rwa [RemoteMemory.Stored, hd]
  row _ _ _ h _ := hd ▸ h

theorem lookup_put_cases (h : Expendable operations i reg.id s) (id : String) :
    (s.db.registrations.put reg).lookup id = s.db.registrations.lookup id ∨
      Expendable operations i id s := by
  by_cases hi : id = reg.id
  case pos => exact .inr (hi ▸ h)
  case neg => exact .inl (lookup_put_of_ne hi)

-- The owner's registration may be active, and is not yet compared with the expected generation.
def Pending (operations : ι → Operation) (i : ι) (existing : Option RemoteRegistration)
    (s : RemoteMemory ι) : Prop :=
  ∀ id reg, s.found i id = some reg → existing = some reg ∨
    (RegistrationActive reg s.now → (operations i).Targets reg)

theorem Pending.rely (h : Pending operations i existing s) (hr : Rely operations i s s') :
    Pending operations i existing s' := by
  intro id reg hf
  rw [hr.found] at hf
  exact (h id reg hf).imp_right fun ht ha => ht (hr.later.active ha)

theorem Pending.judged (h : Pending operations i existing s)
    (he : ∀ reg, existing = some reg → RegistrationActive reg s.now → (operations i).Targets reg) :
    Judged (operations i).Targets i s := by
  intro id reg hf ha
  rcases h id reg hf with hx | ht
  case inl => exact he reg hx ha
  case inr => exact ht ha

-- Stored with all providers, until the lease expires or somebody writes who is meant to replace it.
def Holds (operations : ι → Operation) (stored : RemoteRegistration) (rows : List RemoteProvider)
    (s : RemoteMemory ι) : Prop :=
  RegistrationActive stored s.now → Undisturbed operations stored s →
    s.Stored stored ∧ ∀ row ∈ rows, s.db.providers.lookup row.id = some row

theorem Holds.later (h : Holds operations stored rows s) (hl : Later operations s s')
    (ho : ∀ row ∈ rows, row.registrationID = stored.id) : Holds operations stored rows s' := by
  intro ha hu
  obtain ⟨hs, hp⟩ := h (hl.active ha) (hl.undisturbed hu)
  exact ⟨hl.reg hs ha hu, fun row hm => hl.row hs ha hu (hp row hm) (ho row hm)⟩

theorem Holds.of_commit (hs : s.db.registrations = db.registrations.put stored)
    (hp : s.db.providers = rows.foldl ObjectStore.put db.providers)
    (hn : (rows.map RemoteProvider.id).Nodup) : Holds operations stored rows s := by
  intro _ _
  refine ⟨?_, fun row hm => ?_⟩
  · rw [RemoteMemory.Stored, hs]
    exact lookup_put_self
  · rw [hp]
    exact lookup_foldl_put hn hm

theorem Holds.single (h : Holds operations stored rows s) (hm : row ∈ rows) :
    Holds operations stored [row] s := by
  intro ha hu
  obtain ⟨hs, hp⟩ := h ha hu
  exact ⟨hs, by simpa using hp row hm⟩

-- The lease is active, and nobody has written who is meant to.
def Lasting (operations : ι → Operation) (stored : RemoteRegistration) (s : RemoteMemory ι) : Prop :=
  RegistrationActive stored s.now ∧ Undisturbed operations stored s

theorem Lasting.back (h : Later operations s s') (hl : Lasting operations stored s') :
    Lasting operations stored s :=
  ⟨h.active hl.left, h.undisturbed hl.right⟩

section Calls

variable [DecidableEq ι] {c : RemoteCall}

theorem guar_of_later (h : Later operations s (c.execute i o s).1) :
    Guar operations i s (c.execute i o s).1 where
  later := h
  found {j} hj := by
    cases o <;> simp [execute, hj]
  failed {j} hj := by
    cases o
    case none => rfl
    case some =>
      simp only [execute]
      split <;> simp [hj]

theorem fail_guar (f : Failure) : Guar operations i s (c.execute i (some f) s).1 :=
  guar_of_later (later_of_db rfl rfl rfl)

theorem read_guar (h : ¬c.Writes) (o : Option Failure) :
    Guar operations i s (c.execute i o s).1 := by
  cases o
  case some f => exact fail_guar f
  case none => exact guar_of_later (later_of_db rfl (if_neg h) (exec_of_not_writes h))

theorem write_later (hc : s'.clock = s.clock) (hw : s'.wrote =
      Function.update s.wrote i fun reg => s.wrote i reg || decide (s.Stored reg))
    (hr : ∀ id, s'.db.registrations.lookup id = s.db.registrations.lookup id ∨
      Expendable operations i id s)
    (hp : ∀ id, s'.db.providers.lookup id = s.db.providers.lookup id ∨
      ∀ row, s.db.providers.lookup id = some row → Expendable operations i row.registrationID s) :
    Later operations s s' := by
  have hn : s'.now = s.now := congrArg normalizedRemoteTime hc
  have ht {reg} (hl : s.Stored reg) (hu : Undisturbed operations reg s') :
      ¬(operations i).Targets reg := by
    intro ht
    have hn := hu i ht
    simp [hw, hl] at hn
  constructor
  case clock => exact hc.ge
  case wrote =>
    intro j reg hj
    rw [hw]
    by_cases he : j = i
    case pos => simp [he, he ▸ hj]
    case neg => simp [he, hj]
  case reg =>
    intro reg hl hv hu
    rcases hr reg.id with h | h
    case inl => exact h.trans hl
    case inr => exact absurd (h reg hl (hn ▸ hv)) (ht hl hu)
  case row =>
    intro reg id row hl hv hu hp' ho
    rcases hp id with h | h
    case inl => rw [h, hp']
    case inr => exact absurd (h row hp' reg (ho ▸ hl) (hn ▸ hv)) (ht hl hu)

theorem deleteRegistration_later (h : Expendable operations i id s) :
    Later operations s ((deleteRegistration id).execute i none s).1 := by
  refine write_later rfl rfl (fun id' => ?_) fun _ => .inl rfl
  by_cases hi : id' = id
  case pos => exact .inr (hi ▸ h)
  case neg => exact .inl (lookup_erase_of_ne hi)

theorem deleteProvider_later
    (h : ∀ row, s.db.providers.lookup id = some row → Expendable operations i row.registrationID s) :
    Later operations s ((deleteProvider id).execute i none s).1 := by
  refine write_later rfl rfl (fun _ => .inl rfl) fun id' => ?_
  by_cases hi : id' = id
  case pos => exact .inr (hi ▸ h)
  case neg => exact .inl (lookup_erase_of_ne hi)

theorem commitReplacement_later (hr : Expendable operations i stored.id s)
    (hp : ∀ row ∈ rows, ∀ row', s.db.providers.lookup row.id = some row' →
      Expendable operations i row'.registrationID s) :
    Later operations s ((commitReplacement g stored rows).execute i none s).1 := by
  simp only [execute, RemoteCall.exec]
  cases h : s.db.commitReplacement g stored rows
  case error => exact write_later rfl rfl (fun _ => .inl rfl) fun _ => .inl rfl
  case ok db' =>
    rw [RemoteDB.commitReplacement_eq_ok h]
    refine write_later rfl rfl (lookup_put_cases hr) fun id => ?_
    by_cases hi : ∃ row ∈ rows, id = row.id
    case pos =>
      obtain ⟨row, hm, rfl⟩ := hi
      exact .inr (hp row hm)
    case neg => exact .inl (lookup_foldl_put_of_ne fun row hm he => hi ⟨row, hm, he⟩)

theorem guar_of_done (h : Later operations s (c.execute i none s).1) (o : Option Failure) :
    Guar operations i s (c.execute i o s).1 := by
  cases o
  case none => exact guar_of_later h
  case some f => exact fail_guar f

-- Whoever acts on what he has found touches only what is expendable.
theorem discipline : Discipline (operations i).Targets i (Rely operations i) (Guar operations i) where
  refl := .refl i
  clock hr   := hr.later.clock
  found hr   := hr.found
  read o hw  := read_guar hw o
  deleteProvider o hj hf := by
    refine guar_of_done (deleteProvider_later fun row hl => ?_) o
    exact fun reg => hj.of_fresh (hf row hl)
  deleteRegistration o hj hf := guar_of_done (deleteRegistration_later fun reg => hj.of_fresh hf) o

theorem commitReplacement_guar (hj : Judged (operations i).Targets i s)
    (hf : (commitReplacement g stored rows).fresh i s) (o : Option Failure) :
    Guar operations i s ((commitReplacement g stored rows).execute i o s).1 := by
  refine guar_of_done (commitReplacement_later (fun reg => hj.of_fresh hf.left) ?_) o
  exact fun row hm row' hl reg => hj.of_fresh (hf.right row hm row' hl)

theorem Pending.of_registrationByOwner (h : s.found i = fun _ => none) :
    Pending operations i (s.db.registrationByOwner owner)
      ((registrationByOwner owner).execute i none s).1 := by
  intro id reg hf
  simp only [execute, note, Function.update_self, h] at hf
  cases hx : s.db.registrationByOwner owner
  case none => simp [hx] at hf
  case some existing =>
    rw [hx, Option.elim_some] at hf
    by_cases hi : id = existing.id
    case pos => exact .inl (by simpa [hi] using hf)
    case neg => simp [hi] at hf

end Calls
end Coredata.RemoteOwnership
