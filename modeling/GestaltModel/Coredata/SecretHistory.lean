import GestaltModel.Coredata.ManagedSecrets

namespace Coredata

open ManagedSecretService

-- What stays the same about a secret, which is everything once it is retired.
structure ManagedSecret.Kept (secret secret' : ManagedSecret) : Prop where
  name : secret'.name = secret.name
  ownerApp : secret'.ownerApp = secret.ownerApp
  scope : secret'.scope = secret.scope
  description : secret'.description = secret.description
  createdAt : secret'.createdAt = secret.createdAt
  createdBy : secret'.createdBy = secret.createdBy
  currentVer : secret.currentVer ≤ secret'.currentVer
  retired : secret.retiredAt ≠ none → secret' = secret

namespace SecretHistory

-- The versions and the audit rows of a secret with the given number of versions.
structure Recorded (db : ManagedSecretDB) (name : String) (last : Nat) : Prop where
  numbered : ∀ n, 1 ≤ n → n ≤ last →
    ∃! rec, rec ∈ db.versions ∧ rec.name = name ∧ rec.version = n
  bounded : ∀ rec ∈ db.versions, rec.name = name → 1 ≤ rec.version ∧ rec.version ≤ last
  audited : ∀ n, 1 ≤ n → n ≤ last →
    ∃! row, row ∈ db.audit ∧ row.name = name ∧ row.action ≠ .retire ∧ row.version = n
  covered : ∀ row ∈ db.audit, row.name = name → row.action ≠ .retire →
    1 ≤ row.version ∧ row.version ≤ last
  once : ∀ row ∈ db.audit, ∀ row' ∈ db.audit, row.name = name → row'.name = name →
    row.action = .retire → row'.action = .retire → row = row'

-- Versions and audit rows are never changed, and a retired secret does not get more of them.
structure Extends (db db' : ManagedSecretDB) : Prop where
  secrets : ∀ secret ∈ db.secrets, ∃ secret' ∈ db'.secrets, secret.Kept secret'
  versions : ∀ rec ∈ db.versions, rec ∈ db'.versions
  audit : ∀ row ∈ db.audit, row ∈ db'.audit
  closed : ∀ secret ∈ db.secrets, secret.retiredAt ≠ none →
    (∀ rec ∈ db'.versions, rec.name = secret.name → rec ∈ db.versions) ∧
    (∀ row ∈ db'.audit, row.name = secret.name → row ∈ db.audit)

def Unclaimed (db : ManagedSecretDB) (name : String) : Prop :=
  ∀ row ∈ db.audit, row.name = name → row.requestID ≠ ""

-- The invariant of the three stores. Everything that is recorded belongs to a secret.
structure Consistent (db : ManagedSecretDB) : Prop where
  named : ∀ secret ∈ db.secrets, validateSecretName secret.name = .ok ()
  recorded : ∀ secret ∈ db.secrets, Recorded db secret.name secret.currentVer
  owned : ∀ secret ∈ db.secrets, secret.scope = .app → secret.ownerApp ≠ ""
  version : ∀ rec ∈ db.versions, ∃ secret ∈ db.secrets, secret.name = rec.name
  row : ∀ row ∈ db.audit, ∃ secret ∈ db.secrets, secret.name = row.name ∧
    (row.action = .retire → secret.retiredAt ≠ none)
  indexed : ∀ row ∈ db.audit, ∀ row' ∈ db.audit, row.nameRequest = row'.nameRequest → row = row'

-- What a call that succeeds does to the stores.
inductive Effect (hash : Bytes → String) (auditID : String) (db : ManagedSecretDB) :
    ManagedSecretDB → Prop
  | none : Effect hash auditID db db
  | wrote {input : PutSecretInput} {profile : ManagedSecretService.Profile} {now : Int}
    (named : validateSecretName input.name = .ok ())
    (operation : checkOperation input (db.secrets.lookup input.name) = .ok ())
    (kept : ManagedSecretService.profile input (db.secrets.lookup input.name) = .ok profile)
    (active : ∀ secret ∈ db.secrets.lookup input.name, secret.retiredAt = Option.none)
    (unique : ∀ row ∈ db.audit, row.nameRequest = (input.name, Text.trimSpace input.requestID) →
      row.id = auditID) :
    Effect hash auditID db
      ⟨db.secrets.put (newSecret now input profile (db.secrets.lookup input.name)),
        db.versions.put { newVersion hash now input profile
          (db.secrets.lookup input.name) with ciphertext := input.ciphertext },
        db.audit.put (newRow hash now auditID input profile
          (db.secrets.lookup input.name))⟩
  | retired {name actor reason : String} {now : Int} {current : ManagedSecret}
    (found : db.secrets.lookup name = some current) (active : current.retiredAt = Option.none)
    (unique : ∀ row ∈ db.audit, row.nameRequest = (current.name, "") → row.id = auditID) :
    Effect hash auditID db
      ⟨db.secrets.put (retiredSecret actor reason now current), db.versions,
        db.audit.put (retireRow auditID actor reason now current)⟩

-- A call has written a secret, which was not retired before, and an audit row about it.
structure Change (db db' : ManagedSecretDB) (secret : ManagedSecret) (row : ManagedSecretAuditLog) :
    Prop where
  secrets : db'.secrets = db.secrets.put secret
  versions : ∀ rec ∈ db.versions, rec ∈ db'.versions
  others : ∀ rec ∈ db'.versions, rec.name ≠ secret.name → rec ∈ db.versions
  audit : ∀ other, other ∈ db'.audit ↔ other = row ∨ other ∈ db.audit
  about : row.name = secret.name
  unique : ∀ other ∈ db.audit, other.nameRequest ≠ row.nameRequest
  kept : ∀ current ∈ db.secrets, current.name = secret.name →
    current.retiredAt = none ∧ current.Kept secret
  named : validateSecretName secret.name = .ok ()
  owned : secret.scope = .app → secret.ownerApp ≠ ""
  retired : row.action = .retire → secret.retiredAt ≠ none
  recorded : Recorded db' secret.name secret.currentVer

end SecretHistory
end Coredata
