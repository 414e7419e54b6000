import GestaltModel.Coredata.Theorems.RemoteInterference

namespace Coredata.RemoteOwnership

open Interleaving RemoteRegistrationService RemoteMemory RemoteCall Text
open RemoteCall (fresh)

variable {ι : Type} {operations : ι → Operation} {i : ι} {s : RemoteMemory ι}
variable {reg stored : RemoteRegistration} {row : RemoteProvider} {rows : List RemoteProvider}
variable {registrationID : String} {db : RemoteDB}

-- What the result of an operation tells about the stores.
def Published (operations : ι → Operation) (i : ι) : Result → RemoteMemory ι → Prop
  | .replaced (.ok stored), s =>
    (∀ row ∈ (operations i).rows stored, row.providerKind ≠ "" ∧ row.providerName ≠ "") ∧
    Holds operations stored ((operations i).rows stored) s
  | _, _ => True

theorem mem_rows {operation : Operation} (h : row ∈ operation.rows stored) :
    row.id = remoteProviderID row.providerKind row.providerName ∧
      row.registrationID = stored.id ∧ row.generation = stored.generation := by
  cases operation
  case replace =>
    obtain ⟨provider, _, rfl⟩ := List.mem_map.mp h
    exact ⟨rfl, rfl, rfl⟩
  all_goals contradiction

section Programs

variable [DecidableEq ι] {c : RemoteCall} {post : α → RemoteMemory ι → Prop}
variable {Q : α → RemoteMemory ι → Prop} {providers : List RemoteProvider} {now : Int}
variable {existing : Option RemoteRegistration} {owner : String} {expectedGeneration : UInt64}

abbrev OwnershipSafe (operations : ι → Operation) (i : ι) (post : α → RemoteMemory ι → Prop)
    (prog : RemoteProgram α) (s : RemoteMemory ι) : Prop :=
  RemoteSafe i (Rely operations i) (Guar operations i) post prog s

theorem since_safe (h : OwnershipSafe operations i post p s)
    (hn : now ≤ s.now) : OwnershipSafe operations i (fun a s => post a s ∧ now ≤ s.now) p s :=
  h.frame (fun hn hr _ => hn.trans (now_mono hr.later.clock))
    (fun hn hg _ => hn.trans (now_mono hg.later.clock)) hn

-- An owner that is found to be active ends the loop, so that only those are swept that are not.
theorem ensureProviderOwnership_safe (hj : Judged (operations i).Targets i s) (hn : now ≤ s.now) :
    OwnershipSafe operations i (OnOk fun _ => Judged (operations i).Targets i)
      (ensureProviderOwnership registrationID now providers) s := by
  induction providers generalizing s
  case nil => exact discipline.ret_safe hj
  case cons provider providers ih =>
    rw [ensureProviderOwnership, request_bind]
    generalize remoteProviderID provider.providerKind provider.providerName = key
    refine discipline.read_safe id (fun _ _ _ => error_safe) fun s₁ hr₁ => ?_
    have hj₁ : Judged (operations i).Targets i ((getProvider key).execute i none s₁).1 :=
      (discipline.judged hj hr₁).done rfl
    have hn₁ : now ≤ ((getProvider key).execute i none s₁).1.now :=
      hn.trans (now_mono hr₁.later.clock)
    revert hj₁ hn₁
    generalize ((getProvider key).execute i none s₁).1 = s₁'
    intro hj₁ hn₁
    simp only [RemoteCall.exec]
    split
    case h_1 => exact error_safe
    case h_2 => exact ih hj₁ hn₁
    case h_3 owner _ =>
      split
      case isTrue => exact ih hj₁ hn₁
      case isFalse =>
        rw [request_bind]
        refine discipline.read_safe id (fun _ _ _ => error_safe) fun s₂ hr₂ => ?_
        simp only [RemoteCall.exec]
        split
        case isTrue => exact error_safe
        case isFalse ha =>
          have hn₂ := hn₁.trans (now_mono hr₂.later.clock)
          have hj₂ : Judged (operations i).Targets i
              ((getRegistration owner.registrationID).execute i none s₂).1 := by
            refine (discipline.judged hj₁ hr₂).update rfl fun reg hl hv => ?_
            exact absurd ⟨reg, hl, lt_of_le_of_lt hn₂ hv⟩ ha
          refine .bind (.refl i) (since_safe (discipline.sweep_safe hj₂) hn₂) ?_
          · rintro (_ | _) s₃ _ ⟨hj₃, hn₃⟩
            case error => exact error_safe
            case ok    => exact ih hj₃ hn₃

theorem sweepExpired_safe (hp : Pending operations i existing s) (hn : now ≤ s.now) :
    OwnershipSafe operations i
      (OnOk fun existing' s => Pending operations i existing' s ∧ ∀ reg ∈ existing', reg ∈ existing)
      (sweepExpired existing now) s := by
  cases existing
  case none => exact fun _ hr _ => ⟨hp.rely hr, by simp⟩
  case some reg =>
    simp only [sweepExpired]
    split
    case isTrue  => exact fun _ hr _ => ⟨hp.rely hr, fun _ h => h⟩
    case isFalse ha =>
      have hj : Judged (operations i).Targets i s := by
        refine hp.judged fun reg' he hv => ?_
        cases he
        exact absurd (lt_of_le_of_lt hn hv) ha
      refine .bind (.refl i) (discipline.sweep_safe hj) fun r s _ hj => ?_
      cases r
      case error => exact error_safe
      case ok =>
        intro s' hr _
        exact ⟨fun id reg hf => .inr (discipline.judged hj hr id reg hf), by simp⟩

theorem store_safe (hj : Judged (operations i).Targets i s)
    (hn : ∀ {g}, (providers.map (remoteProviderRecord · registrationID g |>.id)).Nodup) :
    OwnershipSafe operations i
      (OnOk fun stored => Holds operations stored
        (providers.map (remoteProviderRecord · stored.id stored.generation)))
      (store owner registrationID existing reg providers) s := by
  refine .bind (.refl i) (discipline.deleteProvidersForRegistration_safe hj) fun r s _ hj => ?_
  cases r
  case error => exact error_safe
  case ok =>
    rw [request_bind]
    refine discipline.now_safe fun s₁ hr₁ => ?_
    dsimp only
    split
    case isTrue => exact error_safe
    case isFalse =>
      refine call_safe (fun s₂ o hr₂ hf => ?_) (fun _ _ _ => error_safe) fun s₂ hr₂ => ?_
      · have hj₂ := discipline.judged (discipline.judged hj hr₁) hr₂
        exact commitReplacement_guar hj₂ hf o
      simp only [execute, RemoteCall.exec]
      cases hc : s₂.db.commitReplacement _ _ _
      case error => exact error_safe
      case ok db' =>
        intro s₃ hr₃ _
        rw [RemoteDB.commitReplacement_eq_ok hc] at hr₃
        refine Holds.later (.of_commit rfl rfl ?_) hr₃.later ?_
        · rw [List.map_map]
          exact hn
        · simp [remoteProviderRecord]

theorem replace_safe (h : operations i = .replace owner reg providers expectedGeneration)
    (hs : s.found i = fun _ => none) :
    OwnershipSafe operations i (OnOk fun stored => Published operations i (.replaced (.ok stored)))
      (replace owner reg providers expectedGeneration) s := by
  simp only [replace]
  split
  case h_1 => exact error_safe
  case h_2 hv =>
    have hv := validateReplace_eq_ok hv
    rw [request_bind]
    refine discipline.read_safe id (fun _ _ _ => error_safe) fun s₁ hr₁ => ?_
    have ho : ∀ {reg}, reg ∈ s₁.db.registrationByOwner (trimSpace owner) →
      reg.ownerSubjectID = trimSpace owner := RemoteDB.registrationByOwner_owner
    have hp : Pending operations i (s₁.db.registrationByOwner (trimSpace owner))
      ((registrationByOwner (trimSpace owner)).execute i none s₁).1 :=
      .of_registrationByOwner (hr₁.found.trans hs)
    revert ho hp
    simp only [RemoteCall.exec]
    generalize ((registrationByOwner (trimSpace owner)).execute i none s₁).1 = s₁'
    generalize s₁.db.registrationByOwner (trimSpace owner) = existing
    intro ho hp
    rw [request_bind]
    refine discipline.now_safe fun s₂ hr₂ => ?_
    refine .bind (.refl i) (since_safe (sweepExpired_safe (hp.rely hr₂) le_rfl) le_rfl) ?_
    rintro (_ | existing') s₃ _ ⟨h₃, hn₃⟩
    case error => exact error_safe
    case ok =>
      obtain ⟨hp₃, he⟩ := h₃
      dsimp only
      split
      case h_1 => exact error_safe
      case h_2 id ht =>
        have hj : Judged (operations i).Targets i s₃ := by
          refine hp₃.judged fun reg hx _ => ?_
          rw [h]
          exact ⟨ho (he reg hx), targetID_generation ht hx⟩
        refine .bind (.refl i) (ensureProviderOwnership_safe hj hn₃) fun r s₄ _ hj => ?_
        cases r
        case error => exact error_safe
        case ok =>
          refine (store_safe hj (validateRemoteProviders_go_eq_ok hv _ _).left).mono ?_
          rintro (_ | stored) s₅ _ hh
          case error => trivial
          case ok    =>
            rw [OnOk, Published, h]
            refine ⟨fun row hm => ?_, hh⟩
            obtain ⟨provider, hp, rfl⟩ := List.mem_map.mp hm
            exact ((validateRemoteProviders_go_eq_ok hv "" 0).right provider hp).right

-- From the read on, a deletion acts on the registration that it has compared.
theorem delete_safe (h : operations i = .delete registrationID expectedGeneration)
    (hs : s.found i = fun _ => none) :
    OwnershipSafe operations i (OnOk fun _ _ => True) (delete registrationID expectedGeneration) s := by
  simp only [delete]
  split
  case isTrue => exact error_safe
  case isFalse =>
    rw [request_bind]
    refine discipline.read_safe id (fun _ _ _ => error_safe) fun s₁ hr₁ => ?_
    simp only [RemoteCall.exec]
    cases hl : s₁.db.registrations.lookup (trimSpace registrationID)
    case none => exact error_safe
    case some reg =>
      dsimp only
      split
      case isTrue => exact error_safe
      case isFalse hg =>
        have hj : Judged (operations i).Targets i
            ((getRegistration (trimSpace registrationID)).execute i none s₁).1 := by
          refine Judged.update (fun _ _ hf => ?_) rfl fun reg' hl' _ => ?_
          · simp [hr₁.found, hs] at hf
          · cases hl.symm.trans hl'
            rw [h]
            exact ⟨ObjectStore.id_of_lookup hl, not_not.mp hg⟩
        refine (discipline.removeRegistrationWithGenerationCheck_safe hj).mono fun r _ _ _ => ?_
        cases r <;> trivial

abbrev LastingSafe (operations : ι → Operation) (stored : RemoteRegistration) (i : ι)
    (post : α → RemoteMemory ι → Prop) (prog : RemoteProgram α) (s : RemoteMemory ι) : Prop :=
  Safe (remoteSemantics ι) (fun i c s => fresh i c s ∧ Lasting operations stored s) (fun _ => True) i
    (Rely operations i) (Guar operations i) post prog s

theorem read_safe {k : c.Response → RemoteProgram α} (hw : ¬c.Writes)
    (hh : Holds operations stored rows s) (ho : ∀ row ∈ rows, row.registrationID = stored.id)
    (failed : ∀ s' f, LastingSafe operations stored i post (k (c.fail f s'.clock))
      (c.execute i (some f) s').1)
    (done : ∀ s', Lasting operations stored s' → s'.Stored stored →
      (∀ row ∈ rows, s'.db.providers.lookup row.id = some row) →
      Holds operations stored rows (c.execute i none s').1 →
      LastingSafe operations stored i post (k (c.exec s'.clock s'.db).2) (c.execute i none s').1) :
    LastingSafe operations stored i post (.call c k) s := by
  intro s' hr _ hg o
  refine ⟨trivial, read_guar hw o, ?_⟩
  cases o
  case some f => exact failed s' f
  case none =>
    have hh' := hh.later hr.later ho
    obtain ⟨hs, hp⟩ := hh' hg.right.left hg.right.right
    exact done s' hg.right hs hp (hh'.later (read_guar hw none).later ho)

theorem failed_safe (h : s.failed i = true) :
    LastingSafe operations stored i (fun r s => Q r s ∨ s.failed i = true) (.ret result) s :=
  fun _ hr _ => .inr (hr.failed.trans h)

theorem resolveProvider_safe (hh : Holds operations stored [row] s)
    (hid : row.id = remoteProviderID row.providerKind row.providerName)
    (ho : row.registrationID = stored.id) (hg : row.generation = stored.generation)
    (hb : row.providerKind ≠ "" ∧ row.providerName ≠ "")
    (hk : normalizeKind kind = row.providerKind) (hn : trimSpace name = row.providerName) :
    LastingSafe operations stored i
      (fun result s => result = .ok (row, stored) ∨ s.failed i = true)
      (resolveProvider kind name) s := by
  have ho' : ∀ row' ∈ [row], row'.registrationID = stored.id := by simpa using ho
  have hb' : ¬(normalizeKind kind = "" ∨ trimSpace name = "") := by
    rw [hk, hn]
    exact not_or.mpr hb
  rw [← hk, ← hn] at hid
  rw [resolveProvider, if_neg hb', request_bind]
  refine read_safe id hh ho' (fun s' f => ?_) ?_
  · exact failed_safe (execute_failed (c := .getProvider _) trivial f)
  intro s₁ _ _ hp₁ hh₁
  have hp₁ := hp₁ row List.mem_cons_self
  rw [hid] at hp₁
  simp only [RemoteCall.exec, hp₁]
  rw [request_bind]
  refine read_safe id hh₁ ho' (fun s' f => ?_) ?_
  · exact failed_safe (execute_failed (c := .getRegistration _) trivial f)
  intro s₂ _ hs₂ _ _
  rw [RemoteMemory.Stored, ← ho] at hs₂
  simp only [RemoteCall.exec, hs₂]
  rw [if_neg (not_not.mpr hg), request_bind]
  -- The lease is still active when the clock is read, or else the rest does not matter.
  intro s₃ _ _ hl₃ o
  refine ⟨trivial, read_guar id o, ?_⟩
  have ha : RegistrationActive stored (normalizedRemoteTime s₃.clock) := hl₃.right.left
  cases o <;> simp [RemoteCall.exec, fail, execute, ha, Safe]

theorem resolveProvider_only :
    (resolveProvider kind name).Only (¬·.Writes) := by
  simp only [resolveProvider]
  split
  case isTrue => exact .ret _
  case isFalse =>
    refine .call id fun r => ?_
    rcases r with _ | _ | provider
    case error | ok.none => exact .ret _
    case ok.some =>
      refine .call id fun r => ?_
      rcases r with _ | _ | reg
      case error | ok.none => exact .ret _
      case ok.some =>
        dsimp only [Program.bind_ret]
        split
        case isTrue  => exact .ret _
        case isFalse =>
          refine .call id fun now => ?_
          dsimp only [Program.bind_ret]
          split <;> exact .ret _

end Programs

variable [DecidableEq ι] {clock : Int}
variable {c c₁ c₂ : Config ι RemoteCall Response Result (RemoteMemory ι)}

theorem program_safe (hs : s.found i = fun _ => none) :
    OwnershipSafe operations i (Published operations i) (operations i).program s := by
  cases h : operations i
  case replace owner reg providers expectedGeneration =>
    refine .bind (.refl i) (replace_safe h hs) fun r s _ hr s' hr' _ => ?_
    cases r
    case error => trivial
    case ok stored =>
      exact ⟨hr.left, hr.right.later hr'.later fun row hm => (mem_rows hm).right.left⟩
  case delete =>
    exact .bind (.refl i) (delete_safe h hs) fun _ _ _ _ _ _ _ => trivial
  case resolveProvider =>
    refine .bind (.refl i) (.of_only (fun _ _ hw _ _ o => ?_) resolveProvider_only) ?_
    · exact ⟨trivial, read_guar hw o⟩
    · exact fun _ _ _ _ _ _ _ => trivial

theorem sound (operations : ι → Operation) (clock : Int) (db : RemoteDB) :
    Sound (remoteSemantics ι) fresh (fun _ => True) (Rely operations) (Guar operations)
      (Published operations) (config operations clock db) where
  holds := trivial
  safe _ := program_safe rfl

theorem later (hs : Sound (remoteSemantics ι) fresh (fun _ => True) (Rely operations)
      (Guar operations) (Published operations) c₁)
    (h : Reaches (remoteSemantics ι) fresh c₁ c₂) : Later operations c₁.mem c₂.mem :=
  hs.related compatible .refl .trans (fun _ _ hg => hg.later) (fun d _ _ => .of_act d) h

-- Somebody who has not begun to resolve a provider that is stored will get its registration.
theorem resolver_safe {operation : Operation}
    (hh : Holds operations stored [row] s) (hm : row ∈ operation.rows stored)
    (hb : row.providerKind ≠ "" ∧ row.providerName ≠ "")
    (hk : normalizeKind kind = row.providerKind) (hn : trimSpace name = row.providerName) :
    LastingSafe operations stored r
      (fun result s => result = .resolved (.ok (row, stored)) ∨ s.failed r = true)
      (Operation.resolveProvider kind name).program s := by
  obtain ⟨hid, ho, hg⟩ := mem_rows hm
  refine .bind (.refl r) (resolveProvider_safe hh hid ho hg hb hk hn) ?_
  intro result s _ h s' hr _
  rcases h with rfl | hf
  case inl => exact .inl rfl
  case inr => exact .inr (hr.failed.trans hf)

-- Once a replacement has returned, the registration stays, and whoever begins to resolve one of its
-- providers gets it unless a request fails.
theorem ownership_durable {a : ι}
    (h₁ : Reaches (remoteSemantics ι) fresh (config operations clock db) c₁)
    (hr : c₁.prog a = .ret (.replaced (.ok stored)))
    (h₂ : Reaches (remoteSemantics ι) fresh c₁ c₂)
    (ha : RegistrationActive stored c₂.mem.now) (hu : Undisturbed operations stored c₂.mem) :
    c₂.mem.Stored stored ∧ ∀ row ∈ (operations a).rows stored,
      c₂.mem.db.providers.lookup row.id = some row ∧
      ∀ r kind name result, operations r = .resolveProvider kind name →
        normalizeKind kind = row.providerKind → trimSpace name = row.providerName →
        c₁.prog r = (operations r).program → c₂.prog r = .ret result →
        result = .resolved (.ok (row, stored)) ∨ c₂.mem.failed r = true := by
  have hs := (sound operations clock db).reaches compatible h₁
  obtain ⟨hb, hh⟩ : Published operations a (.replaced (.ok stored)) c₁.mem :=
    hs.result compatible hr
  have hh₂ := hh.later (later hs h₂) fun row hm => (mem_rows hm).right.left
  obtain ⟨hs₂, hp₂⟩ := hh₂ ha hu
  refine ⟨hs₂, fun row hm => ⟨hp₂ row hm, fun r kind name result ho hk hn hp hr₂ => ?_⟩⟩
  have h₂' := h₂.restrict (P := Lasting operations stored)
    (fun h e hl => Lasting.back (later (hs.reaches compatible h) (.single e)) hl) ⟨ha, hu⟩
  have hs' := (hs.restrict fun i q s h => h.left).focus (i := r)
    (hp.trans (congrArg _ ho) ▸ resolver_safe (hh.single hm) hm (hb row hm) hk hn)
  exact (hs'.reaches compatible h₂').result compatible hr₂ rfl

def rival (owner : String) : Operation :=
  .replace owner
    { id := owner, tunnelHost := "tunnel", tunnelCertificate := [0], serverSPKISHA256 := "spki",
      leaseExpiresAt := 3600 * Time.second }
    [{ providerKind := "app", providerName := "demo", definition := Finmap.singleton "source" "demo" }]
    0

def rivals : Fin 3 → Operation
  | 0 => rival "a"
  | 1 => rival "b"
  | 2 => .resolveProvider "app" "demo"

def rivalRegistration (owner : String) : RemoteRegistration where
  id := owner
  ownerSubjectID := owner
  generation := 1
  tunnelHost := "tunnel"
  tunnelCertificate := [0]
  serverSPKISHA256 := "spki"
  leaseExpiresAt := 3600 * Time.second

def rivalProvider (owner : String) : RemoteProvider where
  id := "app\x1fdemo"
  providerKind := "app"
  providerName := "demo"
  registrationID := owner
  generation := 1
  definition := Finmap.singleton "source" "demo"

abbrev RemoteEvent := Event (remoteSemantics (Fin 3))

def calls (i : Fin 3) (n : Nat) : List RemoteEvent :=
  .replicate n (.call i none)

theorem not_mem_calls {i j : Fin 3} (h : j ≠ i) (o : Option Failure) :
    .call j o ∉ calls i n := by
  intro hm
  cases List.eq_of_mem_replicate hm
  exact h rfl

-- The second owner comes after the first one, and is rejected.
theorem ownership_durable_demo :
    ∃ c, Reaches (remoteSemantics (Fin 3)) fresh (config rivals 0 {}) c ∧
      c.mem.Stored (rivalRegistration "a") ∧
      c.prog 2 = .ret (.resolved (.ok (rivalProvider "a", rivalRegistration "a"))) := by
  obtain ⟨c₁, c₂, h₁, hp, hr, h₂, ha, hu, hf, hr₂⟩ :
      ∃ c₁ c₂, Reaches (remoteSemantics (Fin 3)) fresh (config rivals 0 {}) c₁ ∧
        c₁.prog 2 = (rivals 2).program ∧
        (c₁.prog 0).result? = some (.replaced (.ok (rivalRegistration "a"))) ∧
        Reaches (remoteSemantics (Fin 3)) fresh c₁ c₂ ∧
        RegistrationActive (rivalRegistration "a") c₂.mem.now ∧
        Undisturbed rivals (rivalRegistration "a") c₂.mem ∧ c₂.mem.failed 2 = false ∧
        ((c₂.prog 2).result?).isSome = true :=
    Config.exists_reaches_of_runs (calls 0 6) (calls 1 4 ++ calls 2 3)
      (not_mem_calls (by decide)) (by decide +kernel)
  obtain ⟨result, hr₂⟩ := Option.isSome_iff_exists.mp hr₂
  have hr₂ := Program.eq_ret_of_result? hr₂
  obtain ⟨hs, h⟩ := ownership_durable h₁ (Program.eq_ret_of_result? hr) h₂ ha hu
  have h := (h (rivalProvider "a") (by decide +kernel)).right 2 "app" "demo" result rfl
    (by decide +kernel) (by decide +kernel) hp hr₂
  rw [hf, or_iff_left Bool.false_ne_true] at h
  exact ⟨c₂, h₁.trans h₂, hs, h ▸ hr₂⟩

-- Both owners look for the provider before it is stored, and the second one stores it after the first.
theorem provider_taken_over :
    ∃ c₁ c₂, Reaches (remoteSemantics (Fin 3)) unguarded (config rivals 0 {}) c₁ ∧
      c₁.prog 2 = (rivals 2).program ∧
      (c₁.prog 0).result? = some (.replaced (.ok (rivalRegistration "a"))) ∧
      Reaches (remoteSemantics (Fin 3)) unguarded c₁ c₂ ∧
      RegistrationActive (rivalRegistration "a") c₂.mem.now ∧
      Undisturbed rivals (rivalRegistration "a") c₂.mem ∧ c₂.mem.failed 2 = false ∧
      (c₂.prog 2).result? =
        some (.resolved (.ok (rivalProvider "b", rivalRegistration "b"))) :=
  Config.exists_reaches_of_runs (calls 0 3 ++ calls 1 3 ++ calls 0 3) (calls 1 3 ++ calls 2 3)
    (by simp [not_mem_calls]) (by decide +kernel)

end Coredata.RemoteOwnership
