import Mathlib.Data.Prod.Lex
import Mathlib.Data.List.FinRange
import GestaltModel.Grouping.Basic
import GestaltModel.Primitives.Time

-- The choice between the stored credentials of a connection.
namespace Credentials

open Text (trimSpace)

structure ExternalCredentialGrant where
  expiresAt : Option Int
  refreshErrorCount : Int
  deriving DecidableEq, Repr

structure ExternalCredential where
  id : String
  qualifier : String
  accountKey : String := ""
  grant : Option ExternalCredentialGrant := none
  metadataJSON : String := ""
  createdAt : Int := 0
  deriving DecidableEq, Repr

structure CredentialAccountCandidate where
  accountKey : String
  id : String
  qualifier : String
  createdAt : Int
  needsReconnect : Bool
  deriving DecidableEq, Repr

def preferCredentialAccountCandidate (candidate current : CredentialAccountCandidate)
    (preferred : String) : Bool :=
  let preferred := trimSpace preferred
  let candidatePreferred := preferred ≠ "" ∧ trimSpace candidate.qualifier = preferred
  let currentPreferred := preferred ≠ "" ∧ trimSpace current.qualifier = preferred
  if candidate.needsReconnect ≠ current.needsReconnect then !candidate.needsReconnect
  else if decide candidatePreferred ≠ decide currentPreferred then candidatePreferred
  else if decide (candidate.createdAt = 0) ≠ decide (current.createdAt = 0) then
    candidate.createdAt ≠ 0
  else if candidate.createdAt ≠ current.createdAt then candidate.createdAt < current.createdAt
  else if candidate.id ≠ current.id then candidate.id < current.id
  else candidate.qualifier < current.qualifier

variable (candidates : List CredentialAccountCandidate)

def groupCredentialAccountCandidateGroups : List (Grouping.Cluster (Fin candidates.length)) :=
  Grouping.groups (fun index => trimSpace (candidates.get index).accountKey)
    (List.finRange candidates.length)

def groupCredentialAccountCandidateIndices (preferred : String) : List (Fin candidates.length) :=
  (groupCredentialAccountCandidateGroups candidates).map <| Grouping.Cluster.best fun index best =>
    preferCredentialAccountCandidate (candidates.get index) (candidates.get best) preferred

def credentialNeedsReconnect (credential : ExternalCredential) (now : Int) : Bool :=
  match credential.grant with
  | some ⟨some expiresAt, refreshErrorCount⟩ => 0 < refreshErrorCount ∧ ¬now < expiresAt
  | _ => false

section

-- `json.Unmarshal` into a map of texts
variable (unmarshal : String → Option (GoMap String))

def accountKeyFromMetadataJSON (metadataJSON : String) : String :=
  if trimSpace metadataJSON = "" then ""
  else
    match unmarshal metadataJSON with
    | none => ""
    | some metadata => trimSpace ((metadata.lookup "account_key").getD "")

def accountKeyForCredential (credential : ExternalCredential) : String :=
  if trimSpace credential.accountKey ≠ "" then trimSpace credential.accountKey
  else accountKeyFromMetadataJSON unmarshal credential.metadataJSON

def credentialAccountCandidate (credential : ExternalCredential) (now : Int) :
    CredentialAccountCandidate where
  accountKey := accountKeyForCredential unmarshal credential
  id := credential.id
  qualifier := credential.qualifier
  createdAt := credential.createdAt
  needsReconnect := credentialNeedsReconnect credential now

def preferCredential (candidate : ExternalCredential) (current : Option ExternalCredential)
    (preferred : String) (now : Int) : Bool :=
  match current with
  | none => true
  | some current =>
    preferCredentialAccountCandidate (credentialAccountCandidate unmarshal candidate now)
      (credentialAccountCandidate unmarshal current now) preferred

variable (credentials : List ExternalCredential)

def chooseCredential (preferred : String) (now : Int) : Option ExternalCredential :=
  credentials.foldl
    (fun chosen credential =>
      if preferCredential unmarshal credential chosen preferred now then some credential else chosen)
    none

def groupCredentialAccounts (preferred : String) (now : Int) : List ExternalCredential :=
  Grouping.group (accountKeyForCredential unmarshal) id
    (fun account credential =>
      if preferCredential unmarshal credential account preferred now then credential else account)
    credentials

-- The part of `ChooseCredentialInstance` after the grouping.
def chooseAccountInstance (accounts : List ExternalCredential) (preferred : String) (now : Int) :
    Option String :=
  let preferred := trimSpace preferred
  if preferred ≠ "" ∧ accounts.any fun credential =>
      trimSpace credential.qualifier = preferred ∧ !credentialNeedsReconnect credential now then
    some preferred
  else
    match accounts.filter (!credentialNeedsReconnect · now), accounts with
    | [credential], _ => some (trimSpace credential.qualifier)
    | [], [credential] => some (trimSpace credential.qualifier)
    | _, _ => none

def chooseCredentialInstance (preferred : String) (now : Int) : Option String :=
  chooseAccountInstance (groupCredentialAccounts unmarshal credentials preferred now) preferred now

end

-- No two credentials, or candidates, have the same id and qualifier.
def Distinct (credentials : List ExternalCredential) : Prop :=
  (credentials.map fun c => (c.id, c.qualifier)).Nodup

def DistinctCandidates : Prop :=
  (candidates.map fun c => (c.id, c.qualifier)).Nodup

namespace ExternalCredential

def Usable (credential : ExternalCredential) (now : Int) : Prop :=
  credentialNeedsReconnect credential now = false

-- The qualifier is the preferred one.
def Preferred (credential : ExternalCredential) (preferred : String) : Prop :=
  trimSpace preferred ≠ "" ∧ trimSpace credential.qualifier = trimSpace preferred

def SameAccount (unmarshal : String → Option (GoMap String)) (c d : ExternalCredential) : Prop :=
  Grouping.Same (accountKeyForCredential unmarshal) c d

end ExternalCredential

-- The place of a candidate in the order of preference.
abbrev Rank := Bool ×ₗ Bool ×ₗ Bool ×ₗ Int ×ₗ String ×ₗ String

def CredentialAccountCandidate.rank (c : CredentialAccountCandidate) (preferred : String) : Rank :=
  let preferred := trimSpace preferred
  toLex (c.needsReconnect, toLex (!decide (preferred ≠ "" ∧ trimSpace c.qualifier = preferred),
    toLex (decide (c.createdAt = 0), toLex (c.createdAt, toLex (c.id, c.qualifier)))))

end Credentials
