import GestaltModel.Coredata.RemoteLease
import GestaltModel.Coredata.Theorems.RemoteRules

namespace Coredata.RemoteLease

open Interleaving RemoteRegistrationService RemoteMemory ObjectStore
open RemoteCall (execute fresh)
open Time (second)

variable {ι : Type} {operations : ι → Operation} {i : ι} {s s' : RemoteMemory ι}
variable {reg reg' stored : RemoteRegistration} {id registrationID : String} {db : RemoteDB}

variable {op : String} {leaseDuration : Int}

-- A caller stores no new registrations, removes nothing active, and changes no deadline unless it
-- renews the lease.
structure Careful (operation : Operation) (s : RemoteMemory ι) (db : RemoteDB) : Prop where
  absent : ∀ {id}, s.db.registrations.lookup id = none → db.registrations.lookup id = none
  kept : ∀ {id reg}, s.db.registrations.lookup id = some reg → RegistrationActive reg s.now →
    db.registrations.lookup id ≠ none
  row : ∀ {id row reg}, s.db.providers.lookup id = some row →
    s.db.registrations.lookup row.registrationID = some reg → RegistrationActive reg s.now →
    db.providers.lookup id = some row
  deadline : ∀ {id reg reg'}, s.db.registrations.lookup id = some reg →
    db.registrations.lookup id = some reg' → ¬operation.Renews →
    reg'.leaseExpiresAt = reg.leaseExpiresAt

namespace Careful

variable {operation : Operation}

theorem refl (operation : Operation) (s : RemoteMemory ι) : Careful operation s s.db where
  absent h     := h
  kept h _     := by simp [h]
  row h _ _    := h
  deadline h h' _ := by
    cases h.symm.trans h'
    rfl

theorem deleteRegistration
    (h : ∀ reg, s.db.registrations.lookup id = some reg → ¬RegistrationActive reg s.now) :
    Careful operation s { s.db with registrations := s.db.registrations.erase id } := by
  have he {id'} (hi : id' ≠ id) : (s.db.registrations.erase id).lookup id' = _ :=
    lookup_erase_of_ne hi
  constructor
  case absent =>
    intro id' hl
    by_cases hi : id' = id
    case pos => simp [hi]
    case neg => rwa [he hi]
  case kept =>
    intro id' reg hl ha
    have hi : id' ≠ id := fun hi => h reg (hi ▸ hl) ha
    simp [he hi, hl]
  case row => exact fun hl _ _ => hl
  case deadline =>
    intro id' reg reg' hl hl' _
    by_cases hi : id' = id
    case pos => simp [hi] at hl'
    case neg =>
      cases hl.symm.trans ((he hi).symm.trans hl')
      rfl

theorem deleteProvider
    (h : ∀ row reg, s.db.providers.lookup id = some row →
      s.db.registrations.lookup row.registrationID = some reg → ¬RegistrationActive reg s.now) :
    Careful operation s { s.db with providers := s.db.providers.erase id } where
  absent := (refl operation s).absent
  kept := (refl operation s).kept
  deadline := (refl operation s).deadline
  row {id' row reg} hp hl ha := by
    have hi : id' ≠ id := fun hi => h row reg (hi ▸ hp) hl ha
    exact (lookup_erase_of_ne hi).trans hp

theorem put (hl : s.db.registrations.lookup reg'.id = some reg)
    (hd : ¬operation.Renews → reg'.leaseExpiresAt = reg.leaseExpiresAt) :
    Careful operation s { s.db with registrations := s.db.registrations.put reg' } := by
  have he {id} (hi : id ≠ reg'.id) : (s.db.registrations.put reg').lookup id = _ :=
    lookup_put_of_ne hi
  have hs : (s.db.registrations.put reg').lookup reg'.id = some reg' :=
    lookup_put_self
  constructor
  case absent =>
    intro id hn
    have hi : id ≠ reg'.id := by
      rintro rfl
      simp [hl] at hn
    rwa [he hi]
  case kept =>
    intro id reg hl _
    by_cases hi : id = reg'.id
    case pos => simp [hi, hs]
    case neg => simp [he hi, hl]
  case row => exact fun hp _ _ => hp
  case deadline =>
    intro id reg₁ reg₂ h₁ h₂ hn
    by_cases hi : id = reg'.id
    case pos =>
      subst hi
      cases hl.symm.trans h₁
      cases hs.symm.trans h₂
      exact hd hn
    case neg =>
      cases h₁.symm.trans ((he hi).symm.trans h₂)
      rfl

end Careful

structure Rely (i : ι) (s s' : RemoteMemory ι) : Prop where
  clock : s.clock ≤ s'.clock
  found : s'.found i = s.found i

structure Guar (operations : ι → Operation) (i : ι) (s s' : RemoteMemory ι) : Prop where
  clock : s'.clock = s.clock
  found : ∀ {j}, j ≠ i → s'.found j = s.found j
  stores : Careful (operations i) s s'.db

theorem Rely.refl (i : ι) (s : RemoteMemory ι) : Rely i s s :=
  ⟨le_rfl, rfl⟩

variable [DecidableEq ι] {c : RemoteCall}

theorem compatible : Compatible (remoteSemantics ι) (fun _ => True) Rely (Guar operations) where
  refl := .refl
  trans _ _ _ _ h₁ h₂      := ⟨h₁.clock.trans h₂.clock, h₂.found.trans h₁.found⟩
  interfere hij _ _ h      := ⟨h.clock.ge, h.found hij.symm⟩
  env_inv _ _ _            := trivial
  env_rely d _ _ _         := ⟨Int.le_add_of_nonneg_right (Int.natCast_nonneg d), rfl⟩

theorem guar_of_careful (h : Careful (operations i) s (c.exec s.clock s.db).1) (o : Option Failure) :
    Guar operations i s (c.execute i o s).1 where
  clock := by cases o <;> rfl
  found {j} hj := by cases o <;> simp [execute, hj]
  stores := by
    cases o
    case none   => exact h
    case some f => exact .refl _ s

theorem discipline : Discipline (fun _ => False) i (Rely i) (Guar operations i) where
  refl := .refl i
  clock hr  := hr.clock
  found hr  := hr.found
  read o hw := by
    refine guar_of_careful ?_ o
    rw [exec_of_not_writes hw]
    exact .refl _ _
  deleteProvider o hj hf := by
    refine guar_of_careful (.deleteProvider fun row reg hp hl => ?_) o
    exact hj.of_fresh (hf row hp) hl
  deleteRegistration o hj hf := by
    refine guar_of_careful (.deleteRegistration fun reg hl => ?_) o
    exact hj.of_fresh hf hl

theorem commitUpdate_guar (hl : s.found i reg'.id = some reg)
    (hd : ¬(operations i).Renews → reg'.leaseExpiresAt = reg.leaseExpiresAt)
    (hf : s.Fresh i reg'.id) (o : Option Failure) :
    Guar operations i s ((RemoteCall.commitUpdate op g reg').execute i o s).1 := by
  refine guar_of_careful ?_ o
  simp only [RemoteCall.exec]
  cases h : s.db.commitUpdate op g reg'
  case error => exact .refl _ s
  case ok db' =>
    obtain ⟨hg, rfl⟩ := RemoteDB.commitUpdate_eq_ok h
    obtain ⟨current, hc, _⟩ := Option.map_eq_some_iff.mp hg
    cases (hf current hc).symm.trans hl
    exact .put hc hd

section Programs

variable {post : α → RemoteMemory ι → Prop} {generation : UInt64}

abbrev LeaseSafe (operations : ι → Operation) (i : ι) (post : α → RemoteMemory ι → Prop)
    (prog : RemoteProgram α) (s : RemoteMemory ι) : Prop :=
  RemoteSafe i (Rely i) (Guar operations i) post prog s

theorem updateRegistrationAtGeneration_safe (hm : ∀ reg now, (mutate reg now).id = reg.id)
    (hd : ∀ reg now, ¬(operations i).Renews → (mutate reg now).leaseExpiresAt = reg.leaseExpiresAt) :
    LeaseSafe operations i
      (OnOk fun stored s' => ∃ reg t, s.now ≤ t ∧ t ≤ s'.now ∧ reg.id = Text.trimSpace registrationID ∧
        stored = mutate reg t)
      (updateRegistrationAtGeneration op registrationID generation mutate) s := by
  rw [updateRegistrationAtGeneration]
  dsimp only
  split
  case isTrue => exact error_safe
  case isFalse =>
    rw [request_bind]
    refine discipline.read_safe id (fun _ _ _ => error_safe) fun s₁ hr₁ => ?_
    simp only [RemoteCall.exec]
    cases hl : s₁.db.registrations.lookup (Text.trimSpace registrationID)
    case none => exact error_safe
    case some reg =>
      have hid : reg.id = Text.trimSpace registrationID := id_of_lookup hl
      dsimp only
      split
      case isTrue => exact error_safe
      case isFalse =>
        rw [request_bind]
        refine discipline.now_safe fun s₂ hr₂ => ?_
        split
        case isTrue => exact error_safe
        case isFalse =>
          rw [request_bind]
          refine call_safe (fun s₃ o hr₃ hf => ?_) (fun _ _ _ => error_safe) fun s₃ hr₃ => ?_
          · refine commitUpdate_guar ?_ (hd reg _) hf o
            rw [hr₃.found, hr₂.found, hm, hid]
            simp [execute, RemoteCall.note, hl]
          · simp only [RemoteCall.exec]
            cases s₃.db.commitUpdate op generation (mutate reg (normalizedRemoteTime s₂.clock))
            case error => exact error_safe
            case ok =>
              intro s₄ hr₄ _
              have hc : s₂.clock ≤ s₄.clock := hr₃.clock.trans hr₄.clock
              exact ⟨reg, s₂.now, now_mono (hr₁.clock.trans hr₂.clock), now_mono hc, hid, rfl⟩

-- A renewal gives the lease its duration from a time during the call.
def RenewedAt (registrationID : String) (leaseDuration start : Int) (stored : RemoteRegistration)
    (s : RemoteMemory ι) : Prop :=
  stored.id = Text.trimSpace registrationID ∧ ∃ t, start ≤ t ∧ t ≤ s.now ∧
    stored.leaseExpiresAt = normalizedRemoteTime (t + leaseDuration)

theorem renewLease_safe (h : operations i = .renewLease registrationID generation leaseDuration) :
    LeaseSafe operations i (OnOk (RenewedAt registrationID leaseDuration s.now))
      (renewLease registrationID generation leaseDuration) s := by
  rw [renewLease]
  split
  case isTrue => exact error_safe
  case isFalse =>
    refine Safe.mono (updateRegistrationAtGeneration_safe (fun _ _ => rfl) fun _ _ hn => ?_) ?_
    · rw [h] at hn
      exact absurd trivial hn
    · rintro (_ | stored) s' _ hs
      case error => trivial
      case ok =>
        obtain ⟨reg, t, ht, ht', hid, rfl⟩ := hs
        exact ⟨hid, t, ht, ht', rfl⟩

theorem recordCheckFailure_safe :
    LeaseSafe operations i (OnOk fun _ _ => True)
      (recordCheckFailure registrationID generation lastError) s := by
  refine Safe.mono (updateRegistrationAtGeneration_safe (fun _ _ => rfl) fun _ _ _ => rfl) ?_
  rintro (_ | _) _ _ _ <;> trivial

theorem expire_safe (hs : s.found i = fun _ => none) :
    LeaseSafe operations i (OnOk fun _ _ => True)
      (expire registrationID generation observedDeadline) s := by
  have ret_safe {s : RemoteMemory ι} :
      LeaseSafe operations i (OnOk fun _ _ => True) (.ret (.ok ())) s := fun _ _ _ => trivial
  simp only [expire]
  split
  case isTrue => exact error_safe
  case isFalse =>
    split
    case isTrue => exact error_safe
    case isFalse =>
      rw [request_bind]
      refine discipline.read_safe id (fun _ _ _ => error_safe) fun s₁ hr₁ => ?_
      simp only [RemoteCall.exec]
      cases hl : s₁.db.registrations.lookup (Text.trimSpace registrationID)
      case none => exact ret_safe
      case some reg =>
        dsimp only
        split
        case isTrue => exact ret_safe
        case isFalse =>
          rw [request_bind]
          refine discipline.now_safe fun s₂ hr₂ => ?_
          split
          case isTrue => exact ret_safe
          case isFalse hn =>
            have hj : Judged (fun _ => False) i s₂ := by
              intro id reg' hf ha
              simp only [hr₂.found, execute, RemoteCall.note, Function.update_self, hl,
                hr₁.found, hs] at hf
              by_cases hi : id = Text.trimSpace registrationID
              case pos =>
                cases show some reg = some reg' by simpa [hi] using hf
                exact hn ha
              case neg => simp [hi] at hf
            refine (discipline.removeRegistrationWithGenerationCheck_safe hj).mono ?_
            rintro (_ | _) _ _ _ <;> trivial

end Programs

theorem program_safe (hs : s.found i = fun _ => none) :
    LeaseSafe operations i (fun _ _ => True) (operations i).program s := by
  cases h : operations i
  case renewLease => exact .bind (.refl i) (renewLease_safe h) fun _ _ _ _ _ _ _ => trivial
  case recordCheckFailure =>
    exact .bind (.refl i) recordCheckFailure_safe fun _ _ _ _ _ _ _ => trivial
  case expire => exact .bind (.refl i) (expire_safe hs) fun _ _ _ _ _ _ _ => trivial

-- What a renewal returns, if it begins in the memory `s`.
def Renewed (registrationID : String) (leaseDuration start : Int) : Result → RemoteMemory ι → Prop
  | .updated (.ok stored), s => RenewedAt registrationID leaseDuration start stored s
  | _, _ => True

theorem renewal_safe (ho : operations i = .renewLease registrationID generation leaseDuration)
    (hp : prog = (operations i).program) :
    LeaseSafe operations i (Renewed registrationID leaseDuration s.now) prog s := by
  rw [hp, ho]
  refine .bind (.refl i) (renewLease_safe ho) fun r s₁ _ hr s₂ hr₂ _ => ?_
  cases r
  case error => trivial
  case ok stored =>
    obtain ⟨hid, t, ht, ht', hd⟩ := hr
    exact ⟨hid, t, ht, ht'.trans (now_mono hr₂.clock), hd⟩

theorem sound (operations : ι → Operation) (clock : Int) (db : RemoteDB) :
    Sound (remoteSemantics ι) fresh (fun _ => True) Rely (Guar operations)
      (fun _ _ _ => True) (config operations clock db) where
  holds := trivial
  safe _ := program_safe rfl

-- A renewal that succeeds ends with the transaction that stores what it returns.
def Commits : (c : RemoteCall) → c.Response → Result → Prop
  | .commitUpdate _ _ reg, r, .updated (.ok stored) => reg = stored ∧ r = .ok ()
  | _, _, .updated (.ok _) => False
  | _, _, _ => True

theorem updateRegistrationAtGeneration_last :
    (updateRegistrationAtGeneration op registrationID generation mutate).Last
      (fun c r result => Commits c r (.updated result)) := by
  rw [updateRegistrationAtGeneration]
  dsimp only
  split
  case isTrue => exact .ret _
  case isFalse =>
    rw [request_bind]
    refine .call (fun r a h => ?_) fun r => ?_
    all_goals rcases r with _ | _ | reg
    case refine_1.error | refine_1.ok.none =>
      cases h
      trivial
    case refine_2.error | refine_2.ok.none => exact .ret _
    case refine_1.ok.some =>
      dsimp only at h
      split at h
      case isTrue =>
        cases h
        trivial
      case isFalse => contradiction
    case refine_2.ok.some =>
      dsimp only
      split
      case isTrue => exact .ret _
      case isFalse =>
        rw [request_bind]
        refine .call (fun now a h => ?_) fun now => ?_
        case refine_1 =>
          split at h
          case isTrue =>
            cases h
            trivial
          case isFalse => contradiction
        case refine_2 =>
          split
          case isTrue => exact .ret _
          case isFalse =>
            rw [request_bind]
            refine .call (fun r a h => ?_) fun r => ?_
            all_goals cases r
            case refine_1.error =>
              cases h
              trivial
            case refine_1.ok =>
              cases h
              exact ⟨rfl, rfl⟩
            all_goals exact .ret _

theorem renewLease_last :
    (Operation.renewLease registrationID generation leaseDuration).program.Last Commits := by
  refine .map ?_
  rw [renewLease]
  split
  case isTrue => exact .ret _
  case isFalse => exact updateRegistrationAtGeneration_last

section Executions

variable {guard : ι → RemoteCall → RemoteMemory ι → Prop} {post : ι → Result → RemoteMemory ι → Prop}
variable {c c' c₁ c₂ : Config ι RemoteCall RemoteCall.Response Result (RemoteMemory ι)}

theorem keepsActive_step
    (hs : Sound (remoteSemantics ι) guard (fun _ => True) Rely (Guar operations) post c)
    (e : Step (remoteSemantics ι) guard c c') : KeepsActive c.mem c'.mem := by
  intro reg hl ha
  cases e
  case env a =>
    refine ⟨fun hn => ?_, fun _ _ hp _ => hp⟩
    exact Option.some_ne_none reg (hl.symm.trans hn)
  case call i q k o hp hg =>
    have hi := hs.safe i
    rw [hp] at hi
    obtain ⟨_, hG, _⟩ := hi _ (.refl i _) trivial hg o
    refine ⟨hG.stores.kept hl ha, fun id row hr ho => ?_⟩
    exact hG.stores.row hr (ho ▸ hl) ha

-- The deadline of a registration does not get earlier than `stored` has it.
theorem deadline_step
    (hs : Sound (remoteSemantics ι) (prolonging operations stored) (fun _ => True) Rely
      (Guar operations) post c)
    (e : Step (remoteSemantics ι) (prolonging operations stored) c c')
    (h : ∀ reg, c.mem.db.registrations.lookup stored.id = some reg →
      stored.leaseExpiresAt ≤ reg.leaseExpiresAt) :
    ∀ reg, c'.mem.db.registrations.lookup stored.id = some reg →
      stored.leaseExpiresAt ≤ reg.leaseExpiresAt := by
  intro reg' hl'
  cases e
  case env a => exact h reg' hl'
  case call i q k o hp hg =>
    have hi := hs.safe i
    rw [hp] at hi
    obtain ⟨_, hG, _⟩ := hi _ (.refl i _) trivial hg o
    by_cases hn : (operations i).Renews
    case pos =>
      cases o
      case some f => exact h reg' hl'
      case none =>
        rcases stored_of_exec hl' with hl | hq
        case inl => exact h reg' hl
        case inr => exact hg.right hn reg' hq (id_of_lookup hl')
    case neg =>
      cases hl : c.mem.db.registrations.lookup stored.id
      case none =>
        cases (hG.stores.absent hl).symm.trans hl'
      case some reg =>
        rw [hG.stores.deadline hl hl' hn]
        exact h reg hl

theorem deadline_reaches
    (hs : Sound (remoteSemantics ι) (prolonging operations stored) (fun _ => True) Rely
      (Guar operations) post c₁)
    (e : Reaches (remoteSemantics ι) (prolonging operations stored) c₁ c₂)
    (h : ∀ reg, c₁.mem.db.registrations.lookup stored.id = some reg →
      stored.leaseExpiresAt ≤ reg.leaseExpiresAt) :
    ∀ reg, c₂.mem.db.registrations.lookup stored.id = some reg →
      stored.leaseExpiresAt ≤ reg.leaseExpiresAt := by
  induction e
  case refl => exact h
  case tail e₁ e₂ ih => exact deadline_step (hs.reaches compatible e₁) e₂ ih

theorem stored_of_return (hl : (c.prog a).Last Commits)
    (hn : (c.prog a).result? = none) (e : Step (remoteSemantics ι) guard c c')
    (hr : c'.prog a = .ret (.updated (.ok stored))) :
    c'.mem.db.registrations.lookup stored.id = some stored := by
  obtain ⟨q, o, -, hm, hq⟩ := e.last hl hn hr
  cases q
  case commitUpdate op g reg =>
    obtain ⟨rfl, ho⟩ := hq
    cases o
    case some f => cases ho
    case none =>
      rw [hm]
      simp only [execute, RemoteCall.exec] at ho ⊢
      cases hc : c.mem.db.commitUpdate op g reg
      case error f =>
        rw [hc] at ho
        cases ho
      case ok db' =>
        rw [RemoteCall.commit, (RemoteDB.commitUpdate_eq_ok hc).right]
        exact lookup_put_self
  all_goals contradiction

-- Active registrations and their providers are not removed, and a lease lasts as long as it was
-- renewed for, until it is renewed for a shorter time.
theorem lease_kept (operations : ι → Operation) (clock : Int) (db : RemoteDB) :
    (∀ c c', Reaches (remoteSemantics ι) fresh (config operations clock db) c →
      Step (remoteSemantics ι) fresh c c' → KeepsActive c.mem c'.mem) ∧
    ∀ a registrationID generation leaseDuration stored c c₀ c₁,
      operations a = .renewLease registrationID generation leaseDuration →
      Reaches (remoteSemantics ι) fresh (config operations clock db) c →
      c.prog a = (operations a).program →
      Reaches (remoteSemantics ι) fresh c c₀ → (c₀.prog a).result? = none →
      Step (remoteSemantics ι) fresh c₀ c₁ → c₁.prog a = .ret (.updated (.ok stored)) →
      ∃ t, c.mem.now ≤ t ∧ t ≤ c₁.mem.now ∧ ∀ c₂,
        Reaches (remoteSemantics ι) (prolonging operations stored) c₁ c₂ →
        ∀ reg, c₂.mem.db.registrations.lookup (Text.trimSpace registrationID) = some reg →
          normalizedRemoteTime (t + leaseDuration) ≤ reg.leaseExpiresAt := by
  have hs := sound operations clock db
  constructor
  case left => exact fun c c' h e => keepsActive_step (hs.reaches compatible h) e
  case right =>
    intro a registrationID generation leaseDuration stored c c₀ c₁ ho h₀ hp h₁ hn e hr
    have hc := hs.reaches compatible h₀
    have hf := hc.focus (i := a) (renewal_safe ho hp)
    obtain ⟨hid, t, ht, ht', hd⟩ : RenewedAt registrationID leaseDuration c.mem.now stored c₁.mem :=
      (hf.reaches compatible (h₁.tail e)).result compatible hr rfl
    have hl : (c₀.prog a).Last Commits := by
      refine h₁.last ?_
      rw [hp, ho]
      exact renewLease_last
    have hst := stored_of_return hl hn e hr
    have hs₁ := (hc.reaches compatible (h₁.tail e)).restrict
      fun i q s (h : prolonging operations stored i q s) => h.left
    refine ⟨t, ht, ht', fun c₂ h₂ reg hl₂ => ?_⟩
    rw [← hid] at hl₂
    rw [← hd]
    refine deadline_reaches hs₁ h₂ (fun reg hreg => ?_) reg hl₂
    cases hst.symm.trans hreg
    exact le_rfl

end Executions

-- A registration with a provider, whose lease lasts one minute at the time 0.
def leased (leaseExpiresAt : Int) : RemoteRegistration where
  id := "reg"
  generation := 1
  leaseExpiresAt := leaseExpiresAt

def leasedStores : RemoteDB where
  registrations := ObjectStore.put ∅ (leased (60 * second))
  providers := ObjectStore.put ∅
    { id := "app\x1fdemo", providerKind := "app", providerName := "demo", registrationID := "reg",
      generation := 1, definition := ∅ }

-- It is renewed for an hour, a check fails, somebody wants to expire it, and it gets a minute.
def keepers : Fin 4 → Operation
  | 0 => .renewLease "reg" 1 (3600 * second)
  | 1 => .recordCheckFailure "reg" 1 "dial timeout"
  | 2 => .expire "reg" 1 (60 * second)
  | 3 => .renewLease "reg" 1 (60 * second)

def calls (i : Fin 4) (n : Nat) : List (Event (remoteSemantics (Fin 4))) :=
  .replicate n (.call i none)

-- The renewal for an hour is followed by the failed check and by the attempt to expire it.
theorem lease_kept_demo :
    ∃ c₁ c₂ reg,
      Reaches (remoteSemantics (Fin 4)) fresh (config keepers 0 leasedStores) c₁ ∧
      (c₁.prog 0).result? = some (.updated (.ok (leased (3600 * second)))) ∧
      Reaches (remoteSemantics (Fin 4)) (prolonging keepers (leased (3600 * second))) c₁ c₂ ∧
      (c₂.prog 1).result?.isSome ∧ (c₂.prog 2).result?.isSome ∧
      c₂.mem.db.registrations.lookup "reg" = some reg ∧
      3600 * second ≤ reg.leaseExpiresAt := by
  obtain ⟨c₀, hc₀, h⟩ := (Option.any_eq_true _ _).mp (show ((config keepers 0 leasedStores).run
      (remoteSemantics (Fin 4)) fresh (calls 0 2)).any (fun c₀ =>
        (c₀.prog 0).result? = none ∧
        (c₀.fire (remoteSemantics (Fin 4)) fresh (.call 0 none)).any fun c₁ =>
          c₁.mem.now = 0 ∧
          (c₁.prog 0).result? = some (.updated (.ok (leased (3600 * second)))) ∧
          (c₁.run (remoteSemantics (Fin 4)) (prolonging keepers (leased (3600 * second)))
            (calls 1 3 ++ calls 2 1)).any fun c₂ =>
              (c₂.prog 1).result?.isSome ∧ (c₂.prog 2).result?.isSome ∧
              (c₂.mem.db.registrations.lookup "reg").isSome) = true by decide +kernel)
  obtain ⟨hn, h⟩ := of_decide_eq_true h
  obtain ⟨c₁, hc₁, h⟩ := (Option.any_eq_true _ _).mp h
  obtain ⟨ht, hr, h⟩ := of_decide_eq_true h
  obtain ⟨c₂, hc₂, h⟩ := (Option.any_eq_true _ _).mp h
  obtain ⟨h₁, h₂, hl⟩ := of_decide_eq_true h
  obtain ⟨reg, hl⟩ := Option.isSome_iff_exists.mp hl
  have r₀ := Config.reaches_of_run hc₀
  have e := Config.step_of_fire hc₁
  have r₂ := Config.reaches_of_run hc₂
  obtain ⟨t, h0, ht', hk⟩ := (lease_kept keepers 0 leasedStores).right 0 "reg" 1
    (3600 * second) (leased (3600 * second)) _ c₀ c₁ rfl .refl rfl r₀ hn e
    (Program.eq_ret_of_result? hr)
  have ht0 : t = 0 := le_antisymm (ht ▸ ht') h0
  rw [show Text.trimSpace "reg" = "reg" by decide +kernel] at hk
  have hd := hk c₂ r₂ reg hl
  rw [ht0] at hd
  exact ⟨c₁, c₂, reg, r₀.tail e, hr, r₂, h₁, h₂, hl, hd⟩

-- The lease is renewed for an hour, and then for a minute.
theorem renewed_for_shorter_time :
    ∃ c₁ c₂, Reaches (remoteSemantics (Fin 4)) unguarded (config keepers 0 leasedStores) c₁ ∧
      c₁.prog 3 = (keepers 3).program ∧
      (c₁.prog 0).result? = some (.updated (.ok (leased (3600 * second)))) ∧
      Reaches (remoteSemantics (Fin 4)) unguarded c₁ c₂ ∧
      (c₂.mem.db.registrations.lookup "reg").map (·.leaseExpiresAt) = some (60 * second) :=
  Config.exists_reaches_of_runs (calls 0 3) (calls 3 3) (by simp [calls]) (by decide +kernel)

end Coredata.RemoteLease
