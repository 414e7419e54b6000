import GestaltModel.HostedAgents.Programs

namespace HostedAgents

-- Where a goroutine is in a start. It has a slot of the counter `starting` unless it is `free`.
inductive Slot
  | free
  | launching
  | launched (b stamp : Nat) (inst : Instance)
  | discarding (b : Nat)
  | settling
  deriving DecidableEq

-- The instance is not a backend yet, but it can become one.
def Slot.Pending : Slot → Prop
  | launching => True
  | launched .. => True
  | _ => False

instance : DecidablePred Slot.Pending
  | .free => inferInstanceAs <| Decidable False
  | .launching => inferInstanceAs <| Decidable True
  | .launched .. => inferInstanceAs <| Decidable True
  | .discarding _ => inferInstanceAs <| Decidable False
  | .settling => inferInstanceAs <| Decidable False

-- The instance that the goroutine has started and that nobody else knows.
def Slot.owns : Slot → Option Nat
  | launched b _ _ => some b
  | discarding b => some b
  | _ => none

-- Where a goroutine is in `drainAndCloseBackend`. Those that `Close` starts are `pending`.
inductive Drain
  | none
  | pending (b : Nat)
  | started (b : Nat)
  | timed (b : Nat) (now : Int)
  | waiting (b : Nat) (deadline : Int)
  | closing (b : Nat)
  deriving DecidableEq

-- The backend that the goroutine has marked as closing and not yet as closed.
def Drain.target : Drain → Option Nat
  | started b => some b
  | timed b _ => some b
  | waiting b _ => some b
  | _ => Option.none

-- The backend that the goroutine has marked as closed and whose provider it has still to close.
def Drain.closes : Drain → Option Nat
  | closing b => some b
  | _ => Option.none

-- The backend that `Close` has left to the goroutine.
def Drain.awaits : Drain → Option Nat
  | pending b => some b
  | _ => Option.none

-- Where a `CreateSession` is with the key that it has claimed.
inductive Claim
  | none
  | creating (key : String) (b : Nat)
  | abandoning (key : String)
  deriving DecidableEq

-- What a goroutine has still to do for the others. One that is cut off never goes on, so its phase
-- does not matter. `holds` is the backend it has acquired, `shut` says that it has closed the pool,
-- and `fetched` is a report that it has not yet recorded.
structure Phase where
  slot : Slot := .free
  holds : Option Nat := none
  drain : Drain := .none
  claim : Claim := .none
  health : Bool := false
  shut : Bool := false
  fetched : Option (Nat × Nat × Option RuntimeSession) := none
  deriving DecidableEq

namespace Phase

def Done (φ : Phase) : Prop :=
  φ.slot = .free ∧ φ.holds = none ∧ φ.drain = .none ∧ φ.claim = .none

-- The duties of the goroutine.
def owns (φ : Phase) : Option Nat := φ.slot.owns
def target (φ : Phase) : Option Nat := φ.drain.target
def closes (φ : Phase) : Option Nat := φ.drain.closes
def awaits (φ : Phase) : Option Nat := φ.drain.awaits

def start : Goroutine → Phase
  | .scaleOut => { slot := .launching }
  | .proactive _ => { slot := .launching }
  | .drain b => { drain := .pending b }
  | .healthLoop => { health := true }
  | _ => {}

end Phase

def Call.Starts : Call → Prop
  | launch => True
  | startBackend .. => True
  | discard _ => True
  | settle => True
  | settleAcquire _ => True
  | settleProactive .. => True
  | _ => False

instance : DecidablePred Call.Starts := fun q => by
  apply @Call.casesOn (Decidable <| ·.Starts) q <;> intros <;> unfold Call.Starts <;> infer_instance

def Call.Drains : Call → Prop
  | beginDrain _ => True
  | drainClock _ => True
  | drainDeadline .. => True
  | checkDrained .. => True
  | closeProvider _ => True
  | _ => False

instance : DecidablePred Call.Drains := fun q => by
  apply @Call.casesOn (Decidable <| ·.Drains) q <;> intros <;> unfold Call.Drains <;> infer_instance

def Call.Creates : Call → Prop
  | prepareWorkspace req _ _ => req.createKey ≠ ""
  | removeWorkspace req _ _ => req.createKey ≠ ""
  | createSession req _ => req.createKey ≠ ""
  | deleteCreateKeyBackend key => key ≠ ""
  | _ => False

namespace Slot

-- The calls of a goroutine that starts an instance.
def Ok : Slot → Call → Prop
  | launching, q => q = .launch
  | launched b stamp inst, q => q = .startBackend b stamp inst
  | discarding b, q => q = .discard b
  | settling, q =>
    q = .settle ∨ (∃ started, q = .settleAcquire started) ∨ ∃ b started, q = .settleProactive b started
  | free, q => ¬q.Starts

def next (slot : Slot) : (q : Call) → q.Response → Slot
  | .acquireBackend .., .start => launching
  | .ensureMinReady, true => launching
  | .launch, none => settling
  | .launch, some (b, stamp, inst) => launched b stamp inst
  | .startBackend .., true => settling
  | .startBackend b _ _, false => discarding b
  | .discard _, _ => settling
  | .settle, _ => free
  | .settleAcquire _, _ => free
  | .settleProactive .., _ => free
  | .forever, _ => free
  | _, _ => slot

end Slot

namespace Drain

def Ok : Drain → Call → Prop
  | none, q => (∃ b, q = .beginDrain b) ∨ ¬q.Drains
  | pending b, q => q = .beginDrain b
  | started b, q => q = .drainClock b
  | timed b t, q => q = .drainDeadline b t
  | waiting b d, q => q = .checkDrained b d ∨ q = .forever
  | closing b, q => q = .closeProvider b

def next (drain : Drain) : (q : Call) → q.Response → Drain
  | .beginDrain b, true => started b
  | .beginDrain _, false => none
  | .drainClock b, now => timed b now
  | .drainDeadline b _, d => waiting b d
  | .checkDrained b _, true => closing b
  | .closeProvider _, _ => none
  | .forever, _ => none
  | _, _ => drain

end Drain

-- A call acquires at most one backend, gives it back, and claims a key for the backend it holds.
def holdsOk : Option Nat → Call → Prop
  | holds, .acquireBackend .. => holds = none
  | holds, .settleAcquire _ => holds = none
  | holds, .preferBackend .. => holds = none
  | holds, .releaseBackend b => holds = some b
  | holds, .claimCreateKeyBackend _ b => holds = some b
  | _, _ => True

def holdsNext (holds : Option Nat) : (q : Call) → q.Response → Option Nat
  | .acquireBackend .., .acquired b _ => some b
  | .settleAcquire (some b), true => some b
  | .preferBackend b _, .acquired => some b
  | .releaseBackend _, _ => none
  | .forever, _ => none
  | _, _ => holds

namespace Claim

def Ok : Claim → Call → Prop
  | none, q => ¬q.Creates
  | creating key b, q =>
    (∃ req ref, q = .prepareWorkspace req b ref ∧ req.createKey = key) ∨
    ∃ req, q = .createSession req b ∧ req.createKey = key
  | abandoning key, q =>
    (∃ req b ref, q = .removeWorkspace req b ref ∧ req.createKey = key) ∨
    q = .deleteCreateKeyBackend key

def next (claim : Claim) : (q : Call) → q.Response → Claim
  | .claimCreateKeyBackend key b, owner =>
    if key ≠ "" ∧ owner = b then creating key b else none
  | .prepareWorkspace req _ _, prepared =>
    if req.createKey ≠ "" ∧ prepared = false then abandoning req.createKey else claim
  | .createSession .., _ => none
  | .deleteCreateKeyBackend _, _ => none
  | .forever, _ => none
  | _, _ => claim

end Claim

-- The pool is emptied by the goroutine that has closed it.
def shutOk : Bool → Call → Prop
  | shut, .endClose => shut = true
  | _, _ => True

def shutNext (shut : Bool) : (q : Call) → q.Response → Bool
  | .beginClose, some _ => true
  | _, _ => shut

-- Sessions are fetched by the health loop only, unless the policy is never to restart.
def fetchOk (policy : LifecyclePolicy) (φ : Phase) : Call → Prop
  | .getSession _ => policy.restartPolicy = .never ∨ φ.health
  | .recordRefresh b stamp session _ => φ.fetched = some (b, stamp, session)
  | _ => True

def fetchNext (fetched : Option (Nat × Nat × Option RuntimeSession)) :
    (q : Call) → q.Response → Option (Nat × Nat × Option RuntimeSession)
  | .getSession b, some (stamp, session) => some (b, stamp, session)
  | .recordRefresh .., _ => none
  | _, _ => fetched

def discipline (policy : LifecyclePolicy) : Goroutines.Discipline Call Call.Response Phase where
  ok φ q     := φ.slot.Ok q ∧ φ.drain.Ok q ∧ holdsOk φ.holds q ∧ φ.claim.Ok q ∧ shutOk φ.shut q ∧
    fetchOk policy φ q
  next φ q r :=
    { slot    := φ.slot.next q r
      holds   := holdsNext φ.holds q r
      drain   := φ.drain.next q r
      claim   := φ.claim.next q r
      health  := φ.health
      shut    := shutNext φ.shut q r
      fetched := fetchNext φ.fetched q r }

end HostedAgents
