import Mathlib.Data.List.Infix
import GestaltModel.Primitives.Text

-- The error values that callers recognize with `errors.Is`.
inductive Sentinel
  | objectPreconditionFailed
  | registryEntryConflict
  | indexVersionConflict
  | publishReconcileMismatch
  | registryDocumentNotFound
  | appRegistryNotConfigured
  | installValidationFailed
  | recordNotFound
  | recordAlreadyExists
  | appVersionInstallLockHeld
  | appRolloutActive
  | appRolloutEpochMismatch
  | appRolloutVersionMismatch
  | gestaltdSourceVersionUnavailable
  | appDeployPaused
  | appDeployPauseConflict
  | appHasActiveRollout
  | appVersionAlreadyInstalled
  | appVersionExpired
  | appVersionLocked
  | remoteGenerationMismatch
  | remoteProviderOwnedElsewhere
  | remoteNotRegistered
  | managedSecretExists
  | managedSecretNotFound
  | notFound
  | credentialSubjectRequired
  | opaqueCredentialSubject
  | authorizationUnavailable
  | authorizationDenied
  | scopeDenied
  | userEmailConflict
  | alreadyRegistered
  deriving DecidableEq, Repr

-- An error with its text and the error value it wraps.
structure Failure where
  text : String
  sentinel : Option Sentinel := none
  deriving DecidableEq, Repr

namespace Failure

def Is (f : Failure) (s : Sentinel) : Prop :=
  f.sentinel = some s

instance {f : Failure} {s : Sentinel} : Decidable (f.Is s) :=
  inferInstanceAs <| Decidable (_ = _)

-- The error `fmt.Errorf(context + ": %w", err)`.
def wrap (context : String) (f : Failure) : Failure :=
  { f with text := context ++ ": " ++ f.text }

-- Whether the text of an error mentions a text of ASCII letters, irrespective of their case.
def Mentions (f : Failure) (s : String) : Prop :=
  s.toList <:+: (Text.toLower f.text).toList

instance {f : Failure} {s : String} : Decidable (f.Mentions s) :=
  inferInstanceAs <| Decidable (_ <:+: _)

end Failure

-- Returns the error with the given text if a check fails.
def require (p : Prop) [Decidable p] (text : String) : Except Failure Unit :=
  if p then .ok () else .error ⟨text, none⟩

-- Returns the given error if a check fails.
def ensure (p : Prop) [Decidable p] (f : Failure) : Except Failure Unit :=
  if p then .ok () else .error f

-- The result of a fallible step that returns early with the error, under more context.
def Except.context (text : String) : Except Failure α → Except Failure α :=
  Except.mapError (Failure.wrap text)

theorem Except.bind_eq_ok_iff {x : Except ε α} {f : α → Except ε β} :
    (x >>= f) = .ok b ↔ ∃ a, x = .ok a ∧ f a = .ok b := by
  cases x
  case error => exact ⟨nofun, nofun⟩
  case ok a => exact ⟨fun h => ⟨a, rfl, h⟩, fun ⟨_, h₁, h₂⟩ => by cases h₁; exact h₂⟩

theorem Except.eq_ok_of_toOption {x : Except ε α} {b : β}
    (h : x.toOption.map f = some b) : ∃ a, x = .ok a ∧ f a = b := by
  cases x
  case error => contradiction
  case ok a => exact ⟨a, rfl, Option.some.inj h⟩

theorem Except.mapError_eq_ok {x : Except ε α} {f : ε → ε'} :
    x.mapError f = .ok a ↔ x = .ok a := by
  cases x <;> simp [Except.mapError]

@[simp]
theorem Except.context_eq_ok {x : Except Failure α} :
    x.context text = .ok a ↔ x = .ok a :=
  Except.mapError_eq_ok

@[simp]
theorem require_eq_ok [Decidable p] :
    require p text = .ok u ↔ p := by
  simp [require]

@[simp]
theorem ensure_eq_ok [Decidable p] :
    ensure p f = .ok u ↔ p := by
  simp [ensure]

-- The codes and messages of gRPC errors.
inductive Code
  | permissionDenied
  | internal
  | unavailable
  | unauthenticated
  deriving DecidableEq, Repr

structure StatusError where
  code : Code
  message : String
  deriving DecidableEq, Repr
