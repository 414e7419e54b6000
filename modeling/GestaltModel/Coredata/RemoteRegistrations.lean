import GestaltModel.Coredata.ObjectStore
import GestaltModel.Interleaving.Execution
import GestaltModel.Primitives.Time

namespace Coredata

open Interleaving
open Text (trimSpace)

-- A registration as it is read back from its record.
structure RemoteRegistration where
  id : String
  ownerSubjectID : String := ""
  generation : UInt64 := 0
  tunnelHost : String := ""
  tunnelCertificate : List UInt8 := []
  serverSPKISHA256 : String := ""
  connectURL : String := ""
  leaseExpiresAt : Int := 0
  createdAt : Int := 0
  updatedAt : Int := 0
  lastCheckedAt : Option Int := none
  lastSuccessfulHeartbeatAt : Option Int := none
  lastError : String := ""
  deriving DecidableEq, Repr

-- The values of a definition are given by their JSON text.
structure RemoteProvider where
  id : String := ""
  providerKind : String
  providerName : String
  registrationID : String := ""
  generation : UInt64 := 0
  definition : GoMap String
  deriving DecidableEq

instance : Record RemoteRegistration where
  id := RemoteRegistration.id

instance : Record RemoteProvider where
  id := RemoteProvider.id

structure RemoteDB where
  registrations : ObjectStore RemoteRegistration := ∅
  providers : ObjectStore RemoteProvider := ∅

def normalizeKind (kind : String) : String :=
  trimSpace (Text.toLower kind)

namespace RemoteRegistrationService

def errGenerationMismatch : Failure where
  text := "remote registration generation mismatch"
  sentinel := some .remoteGenerationMismatch

def errProviderOwnedElsewhere : Failure where
  text := "remote provider owned by another registration"
  sentinel := some .remoteProviderOwnedElsewhere

def errNotRegistered : Failure where
  text := "remote provider is not registered"
  sentinel := some .remoteNotRegistered

def remoteProviderID (kind name : String) : String :=
  normalizeKind kind ++ "\x1f" ++ trimSpace name

def normalizedRemoteTime (value : Int) : Int :=
  Time.truncate Time.millisecond value

def RegistrationActive (reg : RemoteRegistration) (now : Int) : Prop :=
  now < reg.leaseExpiresAt

instance {reg : RemoteRegistration} {now : Int} : Decidable (RegistrationActive reg now) :=
  inferInstanceAs <| Decidable (_ < _)

def validateRemoteRegistration (reg : RemoteRegistration) : Except Failure Unit := do
  require (trimSpace reg.tunnelHost ≠ "") "tunnel_host is required"
  require (reg.tunnelCertificate ≠ []) "tunnel_certificate is required"
  require (trimSpace reg.serverSPKISHA256 ≠ "") "server_spki_sha256 is required"

def validateRemoteProviders (providers : List RemoteProvider) : Except Failure Unit := do
  require (providers ≠ []) "at least one provider is required"
  go [] providers
where
  -- The first argument are the ids that were seen.
  go : List String → List RemoteProvider → Except Failure Unit
    | _, []                  => .ok ()
    | seen, provider :: rest => do
      let kind := normalizeKind provider.providerKind
      let name := trimSpace provider.providerName
      require (kind ≠ "" ∧ name ≠ "") "provider kind and name are required"
      require (kind ≠ "identity" ∧ kind ≠ "authorization")
        ("provider kind " ++ Text.quote kind ++ " cannot be registered remotely")
      let id := remoteProviderID kind name
      require (id ∉ seen) ("duplicate provider " ++ kind ++ "/" ++ name)
      require (provider.definition ≠ ∅) ("provider definition is required for " ++ kind ++ "/" ++ name)
      go (id :: seen) rest

def remoteProviderRecord (provider : RemoteProvider) (registrationID : String)
    (generation : UInt64) : RemoteProvider :=
  let kind := normalizeKind provider.providerKind
  let name := trimSpace provider.providerName
  { id := remoteProviderID kind name, providerKind := kind, providerName := name, registrationID,
    generation, definition := provider.definition }

end RemoteRegistrationService

variable (db : RemoteDB)

namespace RemoteDB

open RemoteRegistrationService

-- The index `by_owner_subject`, which is unique.
def registrationByOwner (owner : String) : Option RemoteRegistration :=
  db.registrations.getAll.find? (·.ownerSubjectID = owner)

-- The index `by_registration`
def providersByRegistration (registrationID : String) : List RemoteProvider :=
  db.providers.getAll.filter (·.registrationID = registrationID)

-- A record of another registration has the same key in the unique index.
def HasUniqueConflict (reg : RemoteRegistration) : Prop :=
  ∃ other ∈ db.registrations.getAll, other.id ≠ reg.id ∧ other.ownerSubjectID = reg.ownerSubjectID

instance {db : RemoteDB} {reg : RemoteRegistration} : Decidable (db.HasUniqueConflict reg) :=
  inferInstanceAs <| Decidable (∃ _ ∈ _, _)

def putRegistration (reg : RemoteRegistration) : Except Failure RemoteDB :=
  if db.HasUniqueConflict reg then
    .error ObjectStore.alreadyExists
  else
    .ok { db with registrations := db.registrations.put reg }

-- The write transaction of `Replace`. The generation is missing if there was no registration.
def commitReplacement (storedGeneration : Option UInt64)
    (stored : RemoteRegistration) (rows : List RemoteProvider) : Except Failure RemoteDB :=
  if (db.registrations.lookup stored.id).map (·.generation) ≠ storedGeneration then
    .error errGenerationMismatch
  else do
    let db ← (db.putRegistration stored).context "replace remote registration: store registration"
    return { db with providers := rows.foldl ObjectStore.put db.providers }

-- The write transaction of `updateRegistrationAtGeneration`.
def commitUpdate (op : String) (generation : UInt64) (reg : RemoteRegistration) :
    Except Failure RemoteDB :=
  if (db.registrations.lookup reg.id).map (·.generation) ≠ some generation then
    .error errGenerationMismatch
  else
    (db.putRegistration reg).context op

end RemoteDB

-- Clock readings and requests. A missing record is no error, and a transaction is one request.
inductive RemoteCall
  | now
  | registrationByOwner (owner : String)
  | getRegistration (id : String)
  | deleteRegistration (id : String)
  | getProvider (id : String)
  | providersByRegistration (registrationID : String)
  | deleteProvider (id : String)
  | commitReplacement (storedGeneration : Option UInt64) (stored : RemoteRegistration)
    (rows : List RemoteProvider)
  | commitUpdate (op : String) (generation : UInt64) (reg : RemoteRegistration)

namespace RemoteCall

abbrev Response : RemoteCall → Type
  | now => Int
  | registrationByOwner _ => Except Failure (Option RemoteRegistration)
  | getRegistration _ => Except Failure (Option RemoteRegistration)
  | deleteRegistration _ => Except Failure Unit
  | getProvider _ => Except Failure (Option RemoteProvider)
  | providersByRegistration _ => Except Failure (List RemoteProvider)
  | deleteProvider _ => Except Failure Unit
  | commitReplacement _ _ _ => Except Failure Unit
  | commitUpdate _ _ _ => Except Failure Unit

-- The response to a request that fails.
def fail (f : Failure) (now : Int) : (c : RemoteCall) → c.Response
  | .now => now
  | .registrationByOwner _ => .error f
  | .getRegistration _ => .error f
  | .deleteRegistration _ => .error f
  | .getProvider _ => .error f
  | .providersByRegistration _ => .error f
  | .deleteProvider _ => .error f
  | .commitReplacement _ _ _ => .error f
  | .commitUpdate _ _ _ => .error f

-- A transaction returns either the new stores or the error.
def commit : Except Failure RemoteDB → RemoteDB × Except Failure Unit
  | .ok db' => (db', .ok ())
  | .error e => (db, .error e)

def exec (clock : Int) : (c : RemoteCall) → RemoteDB → RemoteDB × c.Response
  | now, db => (db, clock)
  | registrationByOwner owner, db => (db, .ok (db.registrationByOwner owner))
  | getRegistration id, db => (db, .ok (db.registrations.lookup id))
  | deleteRegistration id, db =>
    ({ db with registrations := db.registrations.erase id }, .ok ())
  | getProvider id, db => (db, .ok (db.providers.lookup id))
  | providersByRegistration id, db => (db, .ok (db.providersByRegistration id))
  | deleteProvider id, db => ({ db with providers := db.providers.erase id }, .ok ())
  | commitReplacement g stored rows, db => commit db (db.commitReplacement g stored rows)
  | commitUpdate op g reg, db => commit db (db.commitUpdate op g reg)

end RemoteCall

abbrev RemoteProgram (α : Type) := Program RemoteCall RemoteCall.Response α

variable (registrationID : String)

namespace RemoteRegistrationService

def request (c : RemoteCall) : RemoteProgram c.Response :=
  .perform c

@[simp]
theorem request_bind (c : RemoteCall) (f : c.Response → RemoteProgram α) :
    (request c >>= f) = .call c f :=
  rfl

-- The loop of `deleteProvidersForRegistration`.
def deleteProviders : List RemoteProvider → RemoteProgram (Except Failure Unit)
  | [] => return .ok ()
  | rec :: recs => do
    match ← request (.deleteProvider rec.id) with
    | .error e => return .error e
    | .ok ()   => deleteProviders recs

def deleteProvidersForRegistration : RemoteProgram (Except Failure Unit) := do
  match ← request (.providersByRegistration registrationID) with
  | .error e => return .error e
  | .ok recs => deleteProviders recs

-- A registration is removed after its providers.
def sweep : RemoteProgram (Except Failure Unit) := do
  match ← deleteProvidersForRegistration registrationID with
  | .error e => return .error e
  | .ok () => request (.deleteRegistration registrationID)

def ensureProviderOwnership (registrationID : String) (now : Int) :
    List RemoteProvider → RemoteProgram (Except Failure Unit)
  | [] => return .ok ()
  | provider :: providers => do
    match ← request (.getProvider (remoteProviderID provider.providerKind provider.providerName)) with
    | .error e         => return .error (.wrap "check provider ownership" e)
    | .ok none         => ensureProviderOwnership registrationID now providers
    | .ok (some owner) =>
      if owner.registrationID = registrationID then
        ensureProviderOwnership registrationID now providers
      else
        match ← request (.getRegistration owner.registrationID) with
        | .error e     =>
          return .error (.wrap "check provider ownership: load owner registration" e)
        | .ok ownerReg =>
          if ∃ reg ∈ ownerReg, RegistrationActive reg now then
            return .error errProviderOwnedElsewhere
          else
            match ← sweep owner.registrationID with
            | .error e => return .error (.wrap "check provider ownership: sweep expired owner" e)
            | .ok ()   => ensureProviderOwnership registrationID now providers

-- The registration of the owner, which is removed if its lease has expired.
def sweepExpired (existing : Option RemoteRegistration) (now : Int) :
    RemoteProgram (Except Failure (Option RemoteRegistration)) := do
  match existing with
  | none => return .ok none
  | some existing =>
    if RegistrationActive existing now then
      return .ok (some existing)
    else
      match ← sweep existing.id with
      | .error e => return .error (.wrap "replace remote registration: sweep expired" e)
      | .ok ()   => return .ok none

-- The checks of `Replace` before it looks at the providers. They return the id of the registration.
def targetID (existing : Option RemoteRegistration) (reg : RemoteRegistration)
    (expectedGeneration : UInt64) : Except Failure String :=
  let incomingID := trimSpace reg.id
  match existing with
  | none =>
    if expectedGeneration ≠ 0 then
      .error errGenerationMismatch
    else if incomingID = "" then
      .error ⟨"replace remote registration: id is required", none⟩
    else
      .ok incomingID
  | some existing =>
    if existing.generation ≠ expectedGeneration then
      .error errGenerationMismatch
    else if incomingID ≠ "" ∧ incomingID ≠ existing.id then
      .error ⟨"replace remote registration: registration id mismatch", none⟩
    else
      .ok existing.id

-- The registration that `Replace` stores.
def replacement (owner registrationID : String) (existing : Option RemoteRegistration)
    (reg : RemoteRegistration) (now : Int) : RemoteRegistration where
  id := registrationID
  ownerSubjectID := owner
  generation := (existing.elim 0 (·.generation)) + 1
  tunnelHost := trimSpace reg.tunnelHost
  tunnelCertificate := reg.tunnelCertificate
  serverSPKISHA256 := trimSpace reg.serverSPKISHA256
  connectURL := trimSpace reg.connectURL
  leaseExpiresAt := normalizedRemoteTime reg.leaseExpiresAt
  createdAt := existing.elim now (·.createdAt)
  updatedAt := now
  lastSuccessfulHeartbeatAt := recTimePtr now

-- The end of `Replace`, after its checks.
def store (owner registrationID : String) (existing : Option RemoteRegistration)
    (reg : RemoteRegistration) (providers : List RemoteProvider) :
    RemoteProgram (Except Failure RemoteRegistration) := do
  match ← deleteProvidersForRegistration registrationID with
  | .error e => return .error (.wrap "replace remote registration: sweep providers" e)
  | .ok () =>
    let now := normalizedRemoteTime (← request .now)
    let stored := replacement owner registrationID existing reg now
    if stored.leaseExpiresAt = 0 then
      return .error ⟨"replace remote registration: lease_expires_at is required", none⟩
    else
      let rows := providers.map (remoteProviderRecord · registrationID stored.generation)
      match ← request (.commitReplacement (existing.map (·.generation)) stored rows) with
      | .error e => return .error e
      | .ok ()   => return .ok stored

-- The checks of the arguments of `Replace`.
def validateReplace (owner : String) (reg : RemoteRegistration) (providers : List RemoteProvider) :
    Except Failure Unit := do
  require (trimSpace owner ≠ "") "replace remote registration: owner is required"
  (validateRemoteRegistration reg).context "replace remote registration"
  (validateRemoteProviders providers).context "replace remote registration"

def replace (owner : String) (reg : RemoteRegistration) (providers : List RemoteProvider)
    (expectedGeneration : UInt64) : RemoteProgram (Except Failure RemoteRegistration) := do
  match validateReplace owner reg providers with
  | .error e => return .error e
  | .ok () =>
    let owner := trimSpace owner
    match ← request (.registrationByOwner owner) with
    | .error e     =>
      return .error (.wrap "replace remote registration: load owner registration" e)
    | .ok existing =>
      let now := normalizedRemoteTime (← request .now)
      match ← sweepExpired existing now with
      | .error e     => return .error e
      | .ok existing =>
        match targetID existing reg expectedGeneration with
        | .error e           => return .error e
        | .ok registrationID =>
          match ← ensureProviderOwnership registrationID now providers with
          | .error e => return .error e
          | .ok ()   => store owner registrationID existing reg providers

-- `removeRegistrationWithGenerationCheck`, which makes no such check.
def removeRegistrationWithGenerationCheck : RemoteProgram (Except Failure Unit) := do
  match ← deleteProvidersForRegistration registrationID with
  | .error e => return .error (.wrap "sweep providers" e)
  | .ok () => request (.deleteRegistration registrationID)

def delete (expectedGeneration : UInt64) : RemoteProgram (Except Failure Unit) := do
  let registrationID := trimSpace registrationID
  if registrationID = "" then
    return .error ⟨"delete remote registration: registration id is required", none⟩
  else
    match ← request (.getRegistration registrationID) with
    | .error e => return .error (.wrap "delete remote registration" e)
    | .ok none => return .error errNotRegistered
    | .ok (some reg) =>
      if reg.generation ≠ expectedGeneration then
        return .error errGenerationMismatch
      else
        removeRegistrationWithGenerationCheck registrationID

def expire (generation : UInt64) (observedDeadline : Int) :
    RemoteProgram (Except Failure Unit) := do
  let registrationID := trimSpace registrationID
  let observedDeadline := normalizedRemoteTime observedDeadline
  if registrationID = "" then
    return .error ⟨"expire remote registration: registration id is required", none⟩
  else if observedDeadline = 0 then
    return .error ⟨"expire remote registration: observed deadline is required", none⟩
  else
    match ← request (.getRegistration registrationID) with
    | .error e => return .error (.wrap "expire remote registration" e)
    | .ok none => return .ok ()
    | .ok (some reg) =>
      if reg.generation ≠ generation ∨ reg.leaseExpiresAt ≠ observedDeadline then
        return .ok ()
      else if normalizedRemoteTime (← request .now) < reg.leaseExpiresAt then
        return .ok ()
      else
        removeRegistrationWithGenerationCheck registrationID

def resolveProvider (kind name : String) :
    RemoteProgram (Except Failure (RemoteProvider × RemoteRegistration)) := do
  let kind := normalizeKind kind
  let name := trimSpace name
  if kind = "" ∨ name = "" then
    return .error ⟨"resolve remote provider: kind and name are required", none⟩
  else
    match ← request (.getProvider (remoteProviderID kind name)) with
    | .error e => return .error (.wrap "resolve remote provider: load provider" e)
    | .ok none => return .error errNotRegistered
    | .ok (some provider) =>
      match ← request (.getRegistration provider.registrationID) with
      | .error e       => return .error (.wrap "resolve remote provider: load registration" e)
      | .ok none       => return .error errNotRegistered
      | .ok (some reg) =>
        if provider.generation ≠ reg.generation then
          return .error errNotRegistered
        else if ¬RegistrationActive reg (normalizedRemoteTime (← request .now)) then
          return .error errNotRegistered
        else
          return .ok (provider, reg)

-- `updateRegistrationAtGeneration`, which here also returns what it has stored.
def updateRegistrationAtGeneration (op registrationID : String) (generation : UInt64)
    (mutate : RemoteRegistration → Int → RemoteRegistration) :
    RemoteProgram (Except Failure RemoteRegistration) := do
  let registrationID := trimSpace registrationID
  if registrationID = "" then
    return .error ⟨op ++ ": registration id is required", none⟩
  else
    match ← request (.getRegistration registrationID) with
    | .error e => return .error (.wrap op e)
    | .ok none => return .error errNotRegistered
    | .ok (some reg) =>
      if reg.generation ≠ generation then
        return .error errGenerationMismatch
      else
        let now := normalizedRemoteTime (← request .now)
        if ¬RegistrationActive reg now then
          return .error errNotRegistered
        else
          match ← request (.commitUpdate op generation (mutate reg now)) with
          | .error e => return .error e
          | .ok ()   => return .ok (mutate reg now)

def renew (leaseDuration : Int) (reg : RemoteRegistration) (now : Int) : RemoteRegistration :=
  { reg with
    updatedAt := now
    lastSuccessfulHeartbeatAt := recTimePtr now
    leaseExpiresAt := normalizedRemoteTime (now + leaseDuration) }

def renewLease (generation : UInt64) (leaseDuration : Int) :
    RemoteProgram (Except Failure RemoteRegistration) :=
  if leaseDuration ≤ 0 then
    return .error ⟨"renew remote registration lease: lease duration must be positive", none⟩
  else
    updateRegistrationAtGeneration "renew remote registration lease" registrationID generation
      (renew leaseDuration)

-- `RecordCheckFailure`, after `sanitizeRemoteRegistrationError`.
def recordCheckFailure (generation : UInt64) (lastError : String) :
    RemoteProgram (Except Failure RemoteRegistration) :=
  updateRegistrationAtGeneration "record remote registration check failure" registrationID generation
    fun reg now => { reg with updatedAt := now, lastCheckedAt := recTimePtr now, lastError }

end RemoteRegistrationService
end Coredata
