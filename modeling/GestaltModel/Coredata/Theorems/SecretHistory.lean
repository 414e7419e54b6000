import GestaltModel.Coredata.SecretHistory
import GestaltModel.Coredata.Theorems.ManagedSecrets

namespace Coredata

open ObjectStore (id_of_lookup mem_iff mem_of_lookup mem_put)
open ManagedSecretDB (Reaches after)
open SecretEnvironment (Fresh)

namespace ManagedSecret.Kept

variable {secret secret' secret'' : ManagedSecret}

theorem refl (secret : ManagedSecret) : secret.Kept secret :=
  ⟨rfl, rfl, rfl, rfl, rfl, rfl, le_rfl, fun _ => rfl⟩

theorem trans (h : secret.Kept secret') (h' : secret'.Kept secret'') : secret.Kept secret'' where
  name := h'.name.trans h.name
  ownerApp := h'.ownerApp.trans h.ownerApp
  scope := h'.scope.trans h.scope
  description := h'.description.trans h.description
  createdAt := h'.createdAt.trans h.createdAt
  createdBy := h'.createdBy.trans h.createdBy
  currentVer := h.currentVer.trans h'.currentVer
  retired hr  := by
    have he := h.retired hr
    rw [← he]
    exact h'.retired (he ▸ hr)

end ManagedSecret.Kept

namespace SecretHistory

open ManagedSecretService

variable {hash : Bytes → String} {env : SecretEnvironment} {db db' db'' : ManagedSecretDB}
  {call : SecretCall} {auditID : String} {secret : ManagedSecret}

theorem perform_effect (h : call.perform hash env db = .ok db') : Effect hash env.auditID db db' := by
  cases call
  case put input =>
    obtain ⟨r, hp, h⟩ := Except.bind_eq_ok_iff.mp h
    cases h
    obtain ⟨hv, ho, p, hk, h⟩ := put_eq_ok.mp hp
    split at h
    case h_1 =>
      obtain ⟨_, _, rfl⟩ := h
      exact .none
    case h_2 =>
      obtain ⟨ha, hu, rfl⟩ := write_eq_ok.mp h
      exact .wrote (validatePut_eq_ok.mp hv).left ho hk ha hu
  case retire name actor reason now =>
    obtain ⟨r, hp, h⟩ := Except.bind_eq_ok_iff.mp h
    cases h
    obtain ⟨-, -, current, hl, h⟩ := retire_eq_ok.mp hp
    split at h
    case isTrue =>
      rw [h]
      exact .none
    case isFalse hr =>
      obtain ⟨hu, rfl⟩ := h
      exact .retired hl (not_not.mp hr) hu

theorem Extends.refl (db : ManagedSecretDB) : Extends db db where
  secrets secret hm := ⟨secret, hm, .refl secret⟩
  versions _        := id
  audit _           := id
  closed _ _ _      := ⟨fun _ hm _ => hm, fun _ hm _ => hm⟩

theorem Extends.trans (h : Extends db db') (h' : Extends db' db'') : Extends db db'' where
  secrets secret hm := by
    obtain ⟨secret', hm', hk⟩ := h.secrets secret hm
    obtain ⟨secret'', hm'', hk'⟩ := h'.secrets secret' hm'
    exact ⟨secret'', hm'', hk.trans hk'⟩
  versions rec hm := h'.versions rec (h.versions rec hm)
  audit row hm    := h'.audit row (h.audit row hm)
  closed secret hm hr := by
    obtain ⟨secret', hm', hk⟩ := h.secrets secret hm
    cases hk.retired hr
    obtain ⟨hv, ha⟩ := h.closed secret hm hr
    obtain ⟨hv', ha'⟩ := h'.closed secret hm' hr
    exact ⟨fun rec hm hn => hv rec (hv' rec hm hn) hn, fun row hm hn => ha row (ha' row hm hn) hn⟩

theorem eq_of_name {secret' : ManagedSecret} (h : secret ∈ db.secrets) (h' : secret' ∈ db.secrets)
    (hn : secret.name = secret'.name) : secret = secret' :=
  ObjectStore.eq_of_mem h h' hn

section Step

variable (hc : Consistent db) (hf : db.audit.lookup auditID = none)

include hf in
theorem audit_put {row : ManagedSecretAuditLog} (hid : row.id = auditID)
    {other : ManagedSecretAuditLog} :
    other ∈ db.audit.put row ↔ other = row ∨ other ∈ db.audit := by
  rw [mem_put]
  refine or_congr_right (and_iff_left_of_imp fun hm he => ?_)
  rw [mem_iff, he] at hm
  change db.audit.lookup row.id = _ at hm
  rw [hid, hf] at hm
  contradiction

include hc in
theorem versions_put {name : String} {rec other : ManagedSecretVersionRecord}
    (hn : rec.name = name) (hv : rec.version = nextVersion (db.secrets.lookup name)) :
    other ∈ db.versions.put rec ↔ other = rec ∨ other ∈ db.versions := by
  rw [mem_put]
  refine or_congr_right (and_iff_left_of_imp fun hm he => ?_)
  obtain ⟨hname, hversion⟩ := secretVersionID_inj he
  obtain ⟨secret, hs, hsn⟩ := hc.version other hm
  have hle := ((hc.recorded secret hs).bounded other hm hsn.symm).right
  have hl : db.secrets.lookup name = some secret := by
    rw [← hn, ← hname, ← hsn]
    exact hs
  rw [hversion, hv, hl] at hle
  exact absurd hle (by simp [nextVersion])

include hc in
theorem recorded_next (name : String) :
    ∃ last, nextVersion (db.secrets.lookup name) = last + 1 ∧ Recorded db name last := by
  cases hl : db.secrets.lookup name
  case some secret =>
    have hr := hc.recorded secret (mem_of_lookup hl)
    rw [show secret.name = name from id_of_lookup hl] at hr
    exact ⟨_, rfl, hr⟩
  case none =>
    have hv : ∀ rec ∈ db.versions, rec.name ≠ name := by
      rintro rec hm rfl
      obtain ⟨secret, hs, hn⟩ := hc.version rec hm
      rw [mem_iff, show Record.id secret = rec.name from hn, hl] at hs
      contradiction
    have ha : ∀ row ∈ db.audit, row.name ≠ name := by
      rintro row hm rfl
      obtain ⟨secret, hs, hn, -⟩ := hc.row row hm
      rw [mem_iff, show Record.id secret = row.name from hn, hl] at hs
      contradiction
    refine ⟨0, rfl, ?_⟩
    constructor
    case numbered => intro n _ _; omega
    case bounded  => exact fun rec hm hn => absurd hn (hv rec hm)
    case audited  => intro n _ _; omega
    case covered  => exact fun row hm hn => absurd hn (ha row hm)
    case once     => exact fun row hm _ _ hn => absurd hn (ha row hm)

end Step

namespace Recorded

variable {name : String} {last : Nat}

theorem congr (h : Recorded db name last)
    (hv : ∀ rec : ManagedSecretVersionRecord, rec.name = name → (rec ∈ db'.versions ↔ rec ∈ db.versions))
    (ha : ∀ row : ManagedSecretAuditLog, row.name = name → (row ∈ db'.audit ↔ row ∈ db.audit)) :
    Recorded db' name last where
  numbered n h₁ h₂ := by
    obtain ⟨rec, ⟨hm, hn⟩, hu⟩ := h.numbered n h₁ h₂
    exact ⟨rec, ⟨(hv rec hn.left).mpr hm, hn⟩, fun rec' h => hu rec' ⟨(hv rec' h.2.1).mp h.1, h.2⟩⟩
  bounded rec hm hn := h.bounded rec ((hv rec hn).mp hm) hn
  audited n h₁ h₂ := by
    obtain ⟨row, ⟨hm, hn⟩, hu⟩ := h.audited n h₁ h₂
    exact ⟨row, ⟨(ha row hn.left).mpr hm, hn⟩, fun row' h => hu row' ⟨(ha row' h.2.1).mp h.1, h.2⟩⟩
  covered row hm hn := h.covered row ((ha row hn).mp hm) hn
  once row hm row' hm' hn hn' := h.once row ((ha row hn).mp hm) row' ((ha row' hn').mp hm') hn hn'

theorem succ {new : ManagedSecretVersionRecord} {entry : ManagedSecretAuditLog}
    (h : Recorded db name last)
    (hv : ∀ rec, rec ∈ db'.versions ↔ rec = new ∨ rec ∈ db.versions)
    (hnew : new.name = name ∧ new.version = last + 1)
    (ha : ∀ row, row ∈ db'.audit ↔ row = entry ∨ row ∈ db.audit)
    (hentry : entry.name = name ∧ entry.action ≠ .retire ∧ entry.version = last + 1) :
    Recorded db' name (last + 1) where
  numbered n h₁ h₂ := by
    rcases Nat.lt_or_eq_of_le h₂ with hlt | rfl
    case inl =>
      obtain ⟨rec, ⟨hm, hn⟩, hu⟩ := h.numbered n h₁ (by omega)
      refine ⟨rec, ⟨(hv rec).mpr (.inr hm), hn⟩, ?_⟩
      rintro rec' ⟨hm', hn'⟩
      rcases (hv rec').mp hm' with rfl | hm'
      · omega
      · exact hu rec' ⟨hm', hn'⟩
    case inr =>
      refine ⟨new, ⟨(hv new).mpr (.inl rfl), hnew⟩, ?_⟩
      rintro rec' ⟨hm', hn', hv'⟩
      rcases (hv rec').mp hm' with rfl | hm'
      · rfl
      · have := h.bounded rec' hm' hn'
        omega
  bounded rec hm hn := by
    rcases (hv rec).mp hm with rfl | hm
    · omega
    · have := h.bounded rec hm hn
      omega
  audited n h₁ h₂ := by
    rcases Nat.lt_or_eq_of_le h₂ with hlt | rfl
    case inl =>
      obtain ⟨row, ⟨hm, hn⟩, hu⟩ := h.audited n h₁ (by omega)
      refine ⟨row, ⟨(ha row).mpr (.inr hm), hn⟩, ?_⟩
      rintro row' ⟨hm', hn'⟩
      rcases (ha row').mp hm' with rfl | hm'
      · omega
      · exact hu row' ⟨hm', hn'⟩
    case inr =>
      refine ⟨entry, ⟨(ha entry).mpr (.inl rfl), hentry⟩, ?_⟩
      rintro row' ⟨hm', hn', hr', hv'⟩
      rcases (ha row').mp hm' with rfl | hm'
      · rfl
      · have := h.covered row' hm' hn' hr'
        omega
  covered row hm hn hr := by
    rcases (ha row).mp hm with rfl | hm
    · omega
    · have := h.covered row hm hn hr
      omega
  once row hm row' hm' hn hn' hr hr' := by
    rcases (ha row).mp hm with rfl | hm
    · exact absurd hr hentry.2.1
    · rcases (ha row').mp hm' with rfl | hm'
      · exact absurd hr' hentry.2.1
      · exact h.once row hm row' hm' hn hn' hr hr'

theorem retire {entry : ManagedSecretAuditLog} (h : Recorded db name last)
    (hv : db'.versions = db.versions)
    (ha : ∀ row, row ∈ db'.audit ↔ row = entry ∨ row ∈ db.audit) (hentry : entry.action = .retire)
    (hnone : ∀ row ∈ db.audit, row.name = name → row.action ≠ .retire) : Recorded db' name last where
  numbered := hv ▸ h.numbered
  bounded := hv ▸ h.bounded
  audited n h₁ h₂ := by
    obtain ⟨row, ⟨hm, hn⟩, hu⟩ := h.audited n h₁ h₂
    refine ⟨row, ⟨(ha row).mpr (.inr hm), hn⟩, ?_⟩
    rintro row' ⟨hm', hn'⟩
    rcases (ha row').mp hm' with rfl | hm'
    · exact absurd hentry hn'.2.1
    · exact hu row' ⟨hm', hn'⟩
  covered row hm hn hr := by
    rcases (ha row).mp hm with rfl | hm
    · exact absurd hentry hr
    · exact h.covered row hm hn hr
  once row hm row' hm' hn hn' hr hr' := by
    rcases (ha row).mp hm with rfl | hm
    · rcases (ha row').mp hm' with rfl | hm'
      · rfl
      · exact absurd hr' (hnone row' hm' hn')
    · exact absurd hr (hnone row hm hn)

end Recorded

namespace Change

variable {row : ManagedSecretAuditLog} (h : Change db db' secret row)

include h

theorem mem_secrets :
    other ∈ db'.secrets ↔ other = secret ∨ other ∈ db.secrets ∧ other.name ≠ secret.name := by
  rw [h.secrets]
  exact mem_put

theorem grows : Extends db db' where
  secrets current hm := by
    by_cases hn : current.name = secret.name
    case pos => exact ⟨secret, h.mem_secrets.mpr (.inl rfl), (h.kept current hm hn).right⟩
    case neg => exact ⟨current, h.mem_secrets.mpr (.inr ⟨hm, hn⟩), .refl current⟩
  versions := h.versions
  audit other hm  := (h.audit other).mpr (.inr hm)
  closed current hm hr := by
    have hn : current.name ≠ secret.name := fun hn => hr (h.kept current hm hn).left
    constructor
    case left => exact fun rec hm hrec => h.others rec hm (hrec ▸ hn)
    case right =>
      intro other hm ho
      rcases (h.audit other).mp hm with rfl | hm
      · exact absurd (ho.symm.trans h.about) hn
      · exact hm

theorem consistent (hc : Consistent db) : Consistent db' where
  recorded other hm := by
    rcases h.mem_secrets.mp hm with rfl | ⟨hm, hn⟩
    · exact h.recorded
    · refine (hc.recorded other hm).congr (fun rec hr => ⟨?_, h.versions rec⟩) fun row' hr => ?_
      · exact fun hm => h.others rec hm (hr ▸ hn)
      · rw [h.audit, or_iff_right]
        rintro rfl
        exact hn (hr.symm.trans h.about)
  named other hm := by
    rcases h.mem_secrets.mp hm with rfl | ⟨hm, -⟩
    · exact h.named
    · exact hc.named other hm
  owned other hm := by
    rcases h.mem_secrets.mp hm with rfl | ⟨hm, -⟩
    · exact h.owned
    · exact hc.owned other hm
  version rec hm := by
    by_cases hn : rec.name = secret.name
    case pos => exact ⟨secret, h.mem_secrets.mpr (.inl rfl), hn.symm⟩
    case neg =>
      obtain ⟨other, hs, ho⟩ := hc.version rec (h.others rec hm hn)
      exact ⟨other, h.mem_secrets.mpr (.inr ⟨hs, ho ▸ hn⟩), ho⟩
  row other hm := by
    rcases (h.audit other).mp hm with rfl | hm
    · exact ⟨secret, h.mem_secrets.mpr (.inl rfl), h.about.symm, h.retired⟩
    · obtain ⟨current, hs, hn, hr⟩ := hc.row other hm
      by_cases hsn : current.name = secret.name
      case neg => exact ⟨current, h.mem_secrets.mpr (.inr ⟨hs, hsn⟩), hn, hr⟩
      case pos =>
        have ha := (h.kept current hs hsn).left
        exact ⟨secret, h.mem_secrets.mpr (.inl rfl), hsn ▸ hn, fun h => absurd ha (hr h)⟩
  indexed other hm other' hm' he := by
    rcases (h.audit other).mp hm with rfl | hm
    · rcases (h.audit other').mp hm' with rfl | hm'
      · rfl
      · exact absurd he.symm (h.unique other' hm')
    · rcases (h.audit other').mp hm' with rfl | hm'
      · exact absurd he (h.unique other hm)
      · exact hc.indexed other hm other' hm' he

end Change

theorem Consistent.empty : Consistent {} where
  named _    := nofun
  recorded _ := nofun
  owned _    := nofun
  version _  := nofun
  row _      := nofun
  indexed _  := nofun

theorem unique_of_fresh (hf : db.audit.lookup auditID = none) {key : String × String}
    (hu : ∀ row ∈ db.audit, row.nameRequest = key → row.id = auditID) :
    ∀ row ∈ db.audit, row.nameRequest ≠ key := by
  intro row hm he
  rw [mem_iff, show Record.id row = auditID from hu row hm he, hf] at hm
  contradiction

theorem newSecret_kept {input : PutSecretInput} {p : Profile} {now : Int}
    (hl : db.secrets.lookup input.name = some secret) (hr : secret.retiredAt = none)
    (hk : profile input (db.secrets.lookup input.name) = .ok p) :
    secret.Kept (newSecret now input p (db.secrets.lookup input.name)) := by
  rw [hl] at hk ⊢
  obtain ⟨-, rfl⟩ := profile_some.mp hk
  exact ⟨(id_of_lookup hl).symm, rfl, rfl, rfl, rfl, rfl, Nat.le_succ _,
    fun h => absurd hr h⟩

theorem effect_cases (hc : Consistent db) (hf : db.audit.lookup auditID = none)
    (h : Effect hash auditID db db') : db' = db ∨ ∃ secret row, Change db db' secret row := by
  cases h
  case none => exact .inl rfl
  case wrote input p now hname ho hk ha hu =>
    obtain ⟨last, hlast, hr⟩ := recorded_next hc input.name
    have hv {rec} := @versions_put db hc input.name
      { newVersion hash now input p (db.secrets.lookup input.name) with ciphertext := input.ciphertext }
      rec rfl rfl
    have hrow {row} := @audit_put db auditID hf
      (newRow hash now auditID input p (db.secrets.lookup input.name)) rfl row
    refine .inr ⟨newSecret now input p (db.secrets.lookup input.name),
      newRow hash now auditID input p (db.secrets.lookup input.name), ?_⟩
    constructor
    case secrets  => rfl
    case versions => exact fun rec hm => hv.mpr (.inr hm)
    case others =>
      intro rec hm hn
      rcases hv.mp hm with rfl | hm
      · exact absurd rfl hn
      · exact hm
    case audit    => exact fun row => hrow
    case about    => rfl
    case unique   => exact unique_of_fresh hf hu
    case kept =>
      intro current hm hn
      have hl : db.secrets.lookup input.name = some current := by
        rw [← show current.name = input.name from hn]
        exact hm
      exact ⟨ha current hl, newSecret_kept hl (ha current hl) hk⟩
    case named    => exact hname
    case owned    => exact profile_owned hk
    case retired  => exact nofun
    case recorded =>
      change Recorded _ input.name (nextVersion (db.secrets.lookup input.name))
      rw [hlast]
      exact hr.succ (fun rec => hv) ⟨rfl, hlast⟩ (fun row => hrow) ⟨rfl, nofun, hlast⟩
  case retired name actor reason now current hl ha hu =>
    have hrow {row} := @audit_put db auditID hf (retireRow auditID actor reason now current) rfl row
    have hm := mem_of_lookup hl
    refine .inr ⟨retiredSecret actor reason now current, retireRow auditID actor reason now current, ?_⟩
    constructor
    case secrets  => rfl
    case versions => exact fun rec hm => hm
    case others   => exact fun rec hm _ => hm
    case audit    => exact fun row => hrow
    case about    => rfl
    case unique   => exact unique_of_fresh hf hu
    case kept =>
      intro other hm' hn
      cases eq_of_name hm' hm hn
      exact ⟨ha, rfl, rfl, rfl, rfl, rfl, rfl, le_rfl, fun h => absurd ha h⟩
    case named    => exact hc.named current hm
    case owned    => exact hc.owned current hm
    case retired  => exact nofun
    case recorded =>
      refine (hc.recorded current hm).retire rfl (fun row => hrow) rfl fun row hr hn he => ?_
      obtain ⟨other, hs, hsn, hret⟩ := hc.row row hr
      cases eq_of_name hs hm (hsn.trans hn)
      exact hret he ha

theorem step_cases (hc : Consistent db) (h : db.Step hash db') :
    db' = db ∨ ∃ secret row, Change db db' secret row := by
  cases h
  case ok hf h => exact effect_cases hc hf (perform_effect h)
  case error => exact .inl rfl

theorem step_consistent (hc : Consistent db) (h : db.Step hash db') : Consistent db' := by
  rcases step_cases hc h with rfl | ⟨_, _, h⟩
  · exact hc
  · exact h.consistent hc

theorem step_extends (hc : Consistent db) (h : db.Step hash db') : Extends db db' := by
  rcases step_cases hc h with rfl | ⟨_, _, h⟩
  · exact .refl _
  · exact h.grows

theorem reaches_consistent (hc : Consistent db) (h : db.Reaches hash db') : Consistent db' := by
  induction h
  case refl => exact hc
  case tail _ hs hc => exact step_consistent hc hs

theorem reaches_extends (hc : Consistent db) (h : db.Reaches hash db') : Extends db db' := by
  induction h
  case refl => exact .refl _
  case tail h hs hi => exact hi.trans (step_extends (reaches_consistent hc h) hs)

theorem unclaimed_iff (hf : env.Fresh db) :
    (∀ row ∈ db.audit, row.nameRequest = (name, "") → row.id = env.auditID) ↔ Unclaimed db name := by
  constructor
  case mp => exact fun hu row hm hn hr => unique_of_fresh hf hu row hm (congrArg₂ Prod.mk hn hr)
  case mpr => exact fun hu row hm he => absurd (Prod.mk.inj he).right (hu row hm (Prod.mk.inj he).left)

section Accepted

variable (hc : Consistent db) (hs : secret ∈ db.secrets) (ha : secret.retiredAt = none)
  (hf : env.Fresh db)

include hc hs ha hf

theorem put_accepted_iff (hn : input.name = secret.name)
    (ho : input.operation = .rotate) (hr : Text.trimSpace input.requestID = "") :
    (∃ r, put hash env input db = .ok r) ↔ validatePut input = .ok () ∧ Unclaimed db secret.name := by
  have hl : db.secrets.lookup input.name = some secret := hn ▸ hs
  have hp : profile input (some secret) = .ok ⟨secret.ownerApp, secret.scope, secret.description⟩ :=
    profile_some.mpr ⟨hc.owned secret hs, rfl⟩
  simp only [put_eq_ok, hl, write_eq_ok, hr, unclaimed_iff hf, ← hn]
  constructor
  case mp =>
    rintro ⟨r, hv, -, p, -, -, hu, -⟩
    exact ⟨hv, hu⟩
  case mpr =>
    rintro ⟨hv, hu⟩
    refine ⟨_, hv, checkOperation_eq_ok.mpr (by simp [ho]), _, hp, ?_, hu, rfl⟩
    rintro _ ⟨⟩
    exact ha

theorem retire_accepted_iff :
    (∃ r, retire env secret.name actor reason now db = .ok r) ↔
      (Text.trimSpace actor ≠ "" ∧ Text.trimSpace reason ≠ "") ∧ Unclaimed db secret.name := by
  have hl : db.secrets.lookup secret.name = some secret := hs
  have hv := hc.named secret hs
  simp only [retire_eq_ok, hl, hv, true_and, ← unclaimed_iff hf]
  constructor
  case mp =>
    rintro ⟨r, hr, _, ⟨⟩, h⟩
    rw [if_neg (not_not.mpr ha)] at h
    exact ⟨hr, h.left⟩
  case mpr =>
    rintro ⟨hr, hu⟩
    exact ⟨_, hr, secret, rfl, (if_neg (not_not.mpr ha)).mpr ⟨hu, rfl⟩⟩

end Accepted

section Requests

variable {input : PutSecretInput} {version : ManagedSecretVersion} {row : ManagedSecretAuditLog}

theorem put_logged (h : put hash env input db = .ok (db', secret, version)) :
    ∃ row ∈ db'.audit, row.nameRequest = (input.name, Text.trimSpace input.requestID) ∧
      row.result = "success" ∧ row.version = version.version := by
  obtain ⟨-, -, p, -, h⟩ := put_eq_ok.mp h
  split at h
  case h_1 row hw =>
    obtain ⟨_, _, h⟩ := h
    cases h
    obtain ⟨-, hm, hn, hr, hs⟩ := priorWrite_eq_some hw
    exact ⟨row, hm, congrArg₂ Prod.mk hn hr, hs, rfl⟩
  case h_2 =>
    obtain ⟨-, -, h⟩ := write_eq_ok.mp h
    cases h
    exact ⟨_, mem_put.mpr (.inl rfl), rfl, rfl, rfl⟩

theorem priorWrite_of_mem (hc : Consistent db) (hm : row ∈ db.audit) (hr : row.requestID ≠ "")
    (hs : row.result = "success") : priorWrite db row.name row.requestID = some row := by
  rw [priorWrite, if_neg hr]
  refine Option.filter_eq_some_iff.mpr ⟨?_, decide_eq_true hs⟩
  exact ObjectStore.getBy_of_mem (fun ho he => hc.indexed _ ho row hm he) hm

theorem put_replayed (hc : Consistent db) (hs : secret ∈ db.secrets) (hn : input.name = secret.name)
    (hv : validatePut input = .ok ()) (ho : input.operation = .rotate) (hm : row ∈ db.audit)
    (hrow : row.nameRequest = (input.name, Text.trimSpace input.requestID))
    (hr : Text.trimSpace input.requestID ≠ "") (hres : row.result = "success") :
    put hash env input db = .ok (db, secret, versionOfRow row secret) := by
  have hl : db.secrets.lookup input.name = some secret := hn ▸ hs
  have hw : priorWrite db input.name (Text.trimSpace input.requestID) = some row := by
    obtain ⟨hname, hreq⟩ := Prod.mk.inj hrow
    rw [← hreq] at hr
    rw [← hname, ← hreq, priorWrite_of_mem hc hm hr hres]
  rw [put_eq_ok, hl, hw]
  refine ⟨hv, checkOperation_eq_ok.mpr (by simp [ho]), _,
    profile_some.mpr ⟨hc.owned secret hs, rfl⟩, secret, ?_, rfl⟩
  exact get_eq_ok.mpr ⟨(validatePut_eq_ok.mp hv).left, hl⟩

end Requests

-- Every history is complete and only added to. Without a request id something is accepted only
-- while the audit log of the secret has no such row.
theorem history_kept (hash : Bytes → String) {db : ManagedSecretDB}
    (h : Reaches hash {} db) :
    (∀ secret ∈ db.secrets, Recorded db secret.name secret.currentVer) ∧
    (∀ db', db.Reaches hash db' → Extends db db') ∧
    ∀ secret ∈ db.secrets, secret.retiredAt = none → ∀ env : SecretEnvironment, env.Fresh db →
      (∀ input : PutSecretInput, input.name = secret.name → input.operation = .rotate →
        Text.trimSpace input.requestID = "" →
        ((∃ r, put hash env input db = .ok r) ↔
          validatePut input = .ok () ∧ Unclaimed db secret.name)) ∧
      (∀ actor reason now, (∃ r, retire env secret.name actor reason now db = .ok r) ↔
        (Text.trimSpace actor ≠ "" ∧ Text.trimSpace reason ≠ "") ∧ Unclaimed db secret.name) := by
  have hc := reaches_consistent .empty h
  refine ⟨hc.recorded, fun db' h' => reaches_extends hc h', fun secret hs ha env hf => ⟨?_, ?_⟩⟩
  · exact fun input hn ho hr => put_accepted_iff hc hs ha hf hn ho hr
  · exact fun actor reason now => retire_accepted_iff hc hs ha hf

-- A secret is created with the given request id.
def creation (requestID : String) : PutSecretInput where
  operation := .create
  name := "token"
  ownerApp := "demo"
  reason := "initial"
  actor := "alice"
  requestID := requestID
  ciphertext := [1]
  now := Time.second

def rotation : PutSecretInput where
  operation := .rotate
  name := "token"
  reason := "rotation"
  actor := "alice"
  ciphertext := [2]
  now := 2 * Time.second

def sha256 (ciphertext : Bytes) : String :=
  if ciphertext = [1] then "4bf5122f344554c53bde2ebb8cd2b7e3d1600ad631c385a5d7cce23c7785459a"
  else "dbc1b4c900ffe48d575b5da5c638040125f65db0fe3e24494b76ea986457d986"

def created (requestID : String) : ManagedSecretDB :=
  after sha256 ⟨0, "audit-1"⟩ (.put (creation requestID)) {}

def token : ManagedSecret where
  name := "token"
  ownerApp := "demo"
  scope := .app
  description := ""
  currentVer := 1
  createdAt := Time.second
  updatedAt := Time.second
  createdBy := "alice"
  updatedBy := "alice"

theorem reaches_created (requestID : String) : Reaches sha256 {} (created requestID) :=
  .single (ManagedSecretDB.step_after rfl)

-- A secret that was created under a request id can be rotated without one.
theorem history_kept_demo :
    Reaches sha256 {} (created "request-1") ∧ token ∈ (created "request-1").secrets ∧
      ∃ r, put sha256 ⟨0, "audit-2"⟩ rotation (created "request-1") = .ok r := by
  have hs : token ∈ (created "request-1").secrets := by
    rw [mem_iff]
    decide +kernel
  have hf : Fresh ⟨0, "audit-2"⟩ (created "request-1") := by
    rw [Fresh]
    decide +kernel
  have hu : Unclaimed (created "request-1") "token" := by
    have h : ∀ row ∈ (created "request-1").audit.getAll, row.name = "token" → row.requestID ≠ "" := by
      decide +kernel
    exact fun row hm => h row (ObjectStore.mem_getAll.mpr hm)
  refine ⟨reaches_created _, hs, ?_⟩
  exact (((history_kept sha256 (reaches_created "request-1")).2.2 token hs rfl ⟨0, "audit-2"⟩ hf).1
    rotation rfl rfl (by decide +kernel)).mpr ⟨by decide +kernel, hu⟩

-- Without it, neither a rotation nor a retirement is possible.
theorem request_id_missing :
    Reaches sha256 {} (created "") ∧ token ∈ (created "").secrets ∧
      token.retiredAt = none ∧ Fresh ⟨0, "audit-2"⟩ (created "") ∧
      validatePut rotation = .ok () ∧
      (put sha256 ⟨0, "audit-2"⟩ rotation (created "")).toOption.isNone ∧
      (retire ⟨0, "audit-2"⟩ "token" "alice" "unused" (2 * Time.second)
        (created "")).toOption.isNone := by
  refine ⟨reaches_created _, ?_, rfl, ?_, by decide +kernel, by decide +kernel, by decide +kernel⟩
  · rw [mem_iff]
    decide +kernel
  · rw [Fresh]
    decide +kernel

end SecretHistory
end Coredata
