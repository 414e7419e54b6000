import GestaltModel.Coredata.ManagedSecrets
import GestaltModel.Primitives.Theorems.Rfc3339

namespace Coredata

open Except (bind_eq_ok_iff context_eq_ok)
open ObjectStore (putUnique_eq_ok)

theorem secretVersionID_inj
    (h : secretVersionID name n = secretVersionID name' n') : name = name' ∧ n = n' := by
  -- The last colon separates the name from the number, which has digits only.
  have hc : ∀ name n, Text.cutLast ':' (secretVersionID name n) =
      some (name, .ofList (Time.appendInt 9 n)) := by
    intro name n
    refine Text.cutLast_append fun h => ?_
    rw [String.toList_ofList] at h
    exact absurd (Time.isDigit_of_mem_appendInt h) (by decide)
  obtain ⟨hn, hd⟩ := Prod.mk.inj (Option.some.inj ((hc ..).symm.trans ((congrArg _ h).trans (hc ..))))
  refine ⟨hn, ?_⟩
  rw [← @Time.ofDigitChars_appendInt 9 n, String.ofList_injective hd, Time.ofDigitChars_appendInt]

namespace ManagedSecretService

variable {hash : Bytes → String} {env : SecretEnvironment} {input : PutSecretInput} {now : Int}
  {db db' : ManagedSecretDB} {secret current : ManagedSecret}
  {name actor reason auditID : String} {row : ManagedSecretAuditLog} {p : Profile}

theorem get_eq_ok :
    get name db = .ok secret ↔
      validateSecretName name = .ok () ∧ db.secrets.lookup name = some secret := by
  rw [get, bind_eq_ok_iff]
  constructor
  case mp =>
    rintro ⟨_, hv, h⟩
    cases hl : db.secrets.lookup name
    case none => simp [hl] at h
    case some =>
      rw [hl] at h
      cases h
      exact ⟨hv, rfl⟩
  case mpr =>
    rintro ⟨hv, hl⟩
    exact ⟨_, hv, by rw [hl]; rfl⟩

theorem checkOperation_eq_ok {current : Option ManagedSecret} :
    checkOperation input current = .ok () ↔
      (current = none ↔ input.operation = .create) := by
  cases current <;> cases h : input.operation <;> simp [checkOperation, h]

theorem profile_some :
    profile input (some current) = .ok p ↔ (current.scope = .app → current.ownerApp ≠ "") ∧
      p = ⟨current.ownerApp, current.scope, current.description⟩ := by
  change (require _ _ >>= fun _ => .ok _) = _ ↔ _
  rw [bind_eq_ok_iff]
  constructor
  case mp =>
    rintro ⟨_, hr, h⟩
    cases h
    exact ⟨not_and.mp (require_eq_ok.mp hr), rfl⟩
  case mpr =>
    rintro ⟨ho, rfl⟩
    exact ⟨(), require_eq_ok.mpr (not_and.mpr ho), rfl⟩

theorem profile_owned {current : Option ManagedSecret} (h : profile input current = .ok p) :
    p.scope = .app → p.ownerApp ≠ "" := by
  rw [profile] at h
  split at h
  case h_1 => contradiction
  case h_2 =>
    obtain ⟨_, hr, h⟩ := bind_eq_ok_iff.mp h
    cases h
    exact not_and.mp (require_eq_ok.mp hr)

theorem priorWrite_eq_some (h : priorWrite db name reason = some row) :
    reason ≠ "" ∧ row ∈ db.audit ∧ row.name = name ∧ row.requestID = reason ∧
      row.result = "success" := by
  rw [priorWrite] at h
  split at h
  case isTrue => contradiction
  case isFalse hn =>
    obtain ⟨hg, hr⟩ := Option.filter_eq_some_iff.mp h
    obtain ⟨hm, hk⟩ := ObjectStore.mem_of_getBy hg
    obtain ⟨rfl, rfl⟩ := Prod.mk.inj hk
    exact ⟨hn, hm, rfl, rfl, of_decide_eq_true hr⟩

theorem validatePut_eq_ok :
    validatePut input = .ok () ↔ validateSecretName input.name = .ok () ∧ input.ciphertext ≠ [] ∧
      input.ciphertext.length ≤ 2 * 1024 * 1024 ∧ Text.trimSpace input.actor ≠ "" ∧
      Text.trimSpace input.reason ≠ "" := by
  simp [validatePut, bind_eq_ok_iff, Unique.exists_iff]

-- The versions that a name has are stored under ids of their own, so only the audit row can conflict.
theorem write_eq_ok {current : Option ManagedSecret} :
    write hash now auditID input p current db = .ok r ↔
      (∀ secret ∈ current, secret.retiredAt = none) ∧
      (∀ row ∈ db.audit, row.nameRequest = (input.name, Text.trimSpace input.requestID) →
        row.id = auditID) ∧
      r = (⟨db.secrets.put (newSecret now input p current),
        db.versions.put { newVersion hash now input p current with ciphertext := input.ciphertext },
        db.audit.put (newRow hash now auditID input p current)⟩,
        newSecret now input p current, newVersion hash now input p current) := by
  have hv : ∀ rec ∈ db.versions, rec.nameVersion = (input.name, nextVersion current) →
      Record.id rec = secretVersionID input.name (nextVersion current) := by
    intro rec _ h
    obtain ⟨hn, hv⟩ := Prod.mk.inj h
    rw [← hn, ← hv]
    rfl
  rw [write, bind_eq_ok_iff]
  constructor
  case mp =>
    rintro ⟨_, ha, h⟩
    obtain ⟨versions, hp, h⟩ := bind_eq_ok_iff.mp h
    obtain ⟨audit, hr, h⟩ := bind_eq_ok_iff.mp h
    obtain ⟨-, rfl⟩ := putUnique_eq_ok.mp (context_eq_ok.mp hp)
    obtain ⟨hu, rfl⟩ := putUnique_eq_ok.mp (context_eq_ok.mp hr)
    cases h
    refine ⟨fun secret hm => ?_, hu, rfl⟩
    simpa [Option.mem_def.mp hm] using require_eq_ok.mp ha
  case mpr =>
    rintro ⟨ha, hu, rfl⟩
    have hr : require (current.all (·.retiredAt = none))
        ("cannot write retired secret " ++ Text.quote input.name) = .ok () := by
      rw [require_eq_ok]
      cases current
      case none   => rfl
      case some s => exact decide_eq_true (ha s rfl)
    refine ⟨(), hr, bind_eq_ok_iff.mpr ⟨_, context_eq_ok.mpr ?_,
      bind_eq_ok_iff.mpr ⟨_, context_eq_ok.mpr ?_, rfl⟩⟩⟩
    · exact putUnique_eq_ok.mpr ⟨hv, rfl⟩
    · exact putUnique_eq_ok.mpr ⟨hu, rfl⟩

theorem put_eq_ok :
    put hash env input db = .ok r ↔ validatePut input = .ok () ∧
      checkOperation input (db.secrets.lookup input.name) = .ok () ∧
      ∃ p, profile input (db.secrets.lookup input.name) = .ok p ∧
        match priorWrite db input.name (Text.trimSpace input.requestID) with
        | some row => ∃ existing, get input.name db = .ok existing ∧
          r = (db, existing, versionOfRow row existing)
        | none => write hash (env.now input.now) env.auditID input p
          (db.secrets.lookup input.name) db = .ok r := by
  rw [put]
  constructor
  case mp =>
    intro h
    obtain ⟨_, hv, h⟩ := bind_eq_ok_iff.mp h
    obtain ⟨_, ho, h⟩ := bind_eq_ok_iff.mp h
    obtain ⟨p, hp, h⟩ := bind_eq_ok_iff.mp h
    refine ⟨hv, ho, p, hp, ?_⟩
    cases hw : priorWrite db input.name (Text.trimSpace input.requestID)
    case none => simpa only [hw] using h
    case some =>
      simp only [hw] at h
      obtain ⟨existing, hg, h⟩ := bind_eq_ok_iff.mp h
      cases h
      exact ⟨existing, hg, rfl⟩
  case mpr =>
    rintro ⟨hv, ho, p, hp, h⟩
    refine bind_eq_ok_iff.mpr ⟨_, hv, bind_eq_ok_iff.mpr ⟨_, ho,
      bind_eq_ok_iff.mpr ⟨p, hp, ?_⟩⟩⟩
    cases hw : priorWrite db input.name (Text.trimSpace input.requestID)
    case none => simpa only [hw] using h
    case some =>
      simp only [hw] at h ⊢
      obtain ⟨existing, hg, rfl⟩ := h
      exact bind_eq_ok_iff.mpr ⟨existing, hg, rfl⟩

theorem retire_eq_ok :
    retire env name actor reason now db = .ok r ↔ validateSecretName name = .ok () ∧
      (Text.trimSpace actor ≠ "" ∧ Text.trimSpace reason ≠ "") ∧
      ∃ current, db.secrets.lookup name = some current ∧
        if current.retiredAt ≠ none then
          r = (db, current)
        else
          (∀ row ∈ db.audit, row.nameRequest = (current.name, "") → row.id = env.auditID) ∧
          r = (⟨db.secrets.put (retiredSecret actor reason (env.now now) current), db.versions,
            db.audit.put (retireRow env.auditID actor reason (env.now now) current)⟩,
            retiredSecret actor reason (env.now now) current) := by
  rw [retire]
  constructor
  case mp =>
    intro h
    obtain ⟨_, hv, h⟩ := bind_eq_ok_iff.mp h
    obtain ⟨_, ha, h⟩ := bind_eq_ok_iff.mp h
    refine ⟨hv, require_eq_ok.mp ha, ?_⟩
    cases hl : db.secrets.lookup name
    case none => simp [hl] at h
    case some current =>
      refine ⟨current, rfl, ?_⟩
      simp only [hl] at h
      split at h
      case isTrue hr =>
        cases h
        rw [if_pos hr]
      case isFalse hr =>
        obtain ⟨_, hp, h⟩ := bind_eq_ok_iff.mp h
        obtain ⟨hu, rfl⟩ := putUnique_eq_ok.mp (context_eq_ok.mp hp)
        cases h
        rw [if_neg hr]
        exact ⟨hu, rfl⟩
  case mpr =>
    rintro ⟨hv, ha, current, hl, h⟩
    refine bind_eq_ok_iff.mpr ⟨_, hv, bind_eq_ok_iff.mpr ⟨(), require_eq_ok.mpr ha, ?_⟩⟩
    simp only [hl]
    split at h
    case isTrue hr =>
      rw [if_pos hr, h]
      rfl
    case isFalse hr =>
      obtain ⟨hu, rfl⟩ := h
      rw [if_neg hr]
      exact bind_eq_ok_iff.mpr ⟨_, context_eq_ok.mpr
        (putUnique_eq_ok.mpr ⟨hu, rfl⟩), rfl⟩

end ManagedSecretService

theorem ManagedSecretDB.step_after {hash : Bytes → String}
    {db : ManagedSecretDB} (h : env.Fresh db) : db.Step hash (db.after hash env call) := by
  rw [after]
  cases hp : call.perform hash env db
  case error => exact .error hp
  case ok => exact .ok h hp

end Coredata
