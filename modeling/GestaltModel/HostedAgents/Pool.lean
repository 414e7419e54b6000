import GestaltModel.Primitives.GoMap
import GestaltModel.Primitives.Time
import Mathlib.Logic.Function.Basic

namespace HostedAgents

open Text (trimSpace)

section Sessions

inductive SessionState
  | failed
  | stopped
  | other (text : String)
  deriving DecidableEq, Repr

structure SessionLifecycle where
  startedAt : Option Int := none
  recommendedDrainAt : Option Int := none
  expiresAt : Option Int := none
  deriving DecidableEq, Repr

structure RuntimeSession where
  state : SessionState := .other "ready"
  lifecycle : Option SessionLifecycle := none
  metadata : GoMap String := ∅
  deriving DecidableEq

def metadataText (metadata : GoMap String) (key : String) : String :=
  trimSpace ((metadata.lookup key).getD "")

-- `strconv.ParseBool`
def parseBool (text : String) : Option Bool :=
  if text ∈ ["1", "t", "T", "TRUE", "true", "True"] then some true
  else if text ∈ ["0", "f", "F", "FALSE", "false", "False"] then some false
  else none

def parseRuntimeImageMatch (raw : String) : Option Bool :=
  let raw := trimSpace raw
  if raw = "" then none else parseBool raw

def hostedRuntimeImageMismatchReason (template expected actual : String) : String :=
  let template := if template = "" then "runtime template" else template
  let expected := if expected = "" then "unknown" else expected
  let actual := if actual = "" then "unknown" else actual
  template ++ " image mismatch: expected " ++ Text.quote expected ++ ", actual " ++ Text.quote actual

def hostedRuntimeSessionCompatibilityReason : Option RuntimeSession → String
  | none => ""
  | some session =>
    let actual := metadataText session.metadata "runtime.actualImage"
    let current := metadataText session.metadata "runtime.currentImage"
    let expected := metadataText session.metadata "runtime.expectedImage"
    let template := metadataText session.metadata "runtime.template"
    if current ≠ "" ∧ actual ≠ "" ∧ current ≠ actual then
      hostedRuntimeImageMismatchReason template current actual
    else if parseRuntimeImageMatch ((session.metadata.lookup "runtime.imageMatch").getD "") =
        some false then
      hostedRuntimeImageMismatchReason template (if current = "" then expected else current) actual
    else
      ""

variable (session : Option RuntimeSession)

def Incompatible : Prop :=
  hostedRuntimeSessionCompatibilityReason session ≠ ""

instance {session : Option RuntimeSession} : Decidable (Incompatible session) :=
  inferInstanceAs <| Decidable (_ ≠ _)

def runtimeSessionExpiresAt : Option Int :=
  session.bind (·.lifecycle) |>.bind (·.expiresAt)

-- Whether there is a reason to retire the instance.
def runtimeSessionRetires (drainAt : Option Int) (now : Int) : Bool :=
  match session with
  | none => false
  | some runtime =>
    runtime.state = .failed || runtime.state = .stopped || Incompatible session ||
    drainAt.any (· ≤ now)

end Sessions

inductive RestartPolicy
  | always
  | never
  deriving DecidableEq, Repr

-- The lifecycle policy of the config, which accepts positive numbers of instances only.
structure LifecyclePolicy where
  minReadyInstances : Nat
  maxReadyInstances : Nat
  startupTimeout : Int
  healthCheckInterval : Int
  restartPolicy : RestartPolicy
  drainTimeout : Int
  deriving DecidableEq, Repr

namespace LifecyclePolicy

def hostedAgentRuntimeLifecycleSafetyMargin : Int := 5 * Time.second

variable (policy : LifecyclePolicy)

def runtimeSessionExpiryDrainAt (lifecycle : SessionLifecycle) (expiresAt now : Int) : Int :=
  let reserve := policy.startupTimeout + policy.drainTimeout + policy.healthCheckInterval +
    hostedAgentRuntimeLifecycleSafetyMargin
  let drainAt := expiresAt - reserve
  let adjusted :=
    if now < expiresAt ∧ drainAt < now then now + (expiresAt - now) / 2 else drainAt
  match lifecycle.startedAt with
  | none => adjusted
  | some startedAt =>
    let minDrainAt := startedAt + (expiresAt - startedAt) / 2
    if 0 < expiresAt - startedAt ∧ drainAt < minDrainAt then minDrainAt else adjusted

def runtimeSessionDrainAt (session : Option RuntimeSession) (now : Int) : Option Int :=
  match session.bind (·.lifecycle) with
  | none => none
  | some lifecycle =>
    match lifecycle.recommendedDrainAt, lifecycle.expiresAt with
    | recommended, none                => recommended
    | none, some expiresAt             =>
      some (policy.runtimeSessionExpiryDrainAt lifecycle expiresAt now)
    | some recommended, some expiresAt =>
      some (min recommended (policy.runtimeSessionExpiryDrainAt lifecycle expiresAt now))

def runtimeSessionReplacementLeadTime : Int :=
  let lead := policy.startupTimeout + policy.healthCheckInterval
  let lead := if lead ≤ 0 then policy.healthCheckInterval else lead
  if lead ≤ 0 then Time.second else lead

-- Whether there is a reason to start a replacement early.
def runtimeSessionReplacesProactively (startedAt : Int) (session : Option RuntimeSession)
    (drainAt : Option Int) (now : Int) : Bool :=
  match session, drainAt with
  | some runtime, some deadline =>
    let startAt := deadline - policy.runtimeSessionReplacementLeadTime
    let minStartAt := startedAt + (deadline - startedAt) / 2
    let startAt := if startedAt < deadline ∧ startAt < minStartAt then minStartAt else startAt
    runtime.state ≠ .failed && runtime.state ≠ .stopped && now < deadline && startAt ≤ now
  | _, _ => false

end LifecyclePolicy

-- What the start of an instance gives: its runtime session, and whether that can be refreshed.
structure Instance where
  runtimeSession : Option RuntimeSession := none
  refreshable : Bool := true
  deriving DecidableEq

-- For the proofs only: the `stamp` says which report of its provider the session is, `closingSince`
-- when it was marked as closing, and `drainExpiry` which expiry its drain takes into account.
structure Backend where
  registered : Bool := false
  refreshable : Bool := true
  runtimeSession : Option RuntimeSession := none
  stamp : Nat := 0
  startedAt : Int := 0
  runtimeDrainAt : Option Int := none
  forceCloseAt : Option Int := none
  active : Nat := 0
  liveTurns : Finset String := ∅
  draining : Bool := false
  replacing : Bool := false
  closing : Bool := false
  closed : Bool := false
  closingSince : Option Int := none
  drainExpiry : Option Int := none

-- The state of `hostedAgentProviderPool` under its lock. Backends are known by the number of their
-- instance, and one that `heap` does not hold is a nil pointer. The fields after
-- `createKeyBackends` are outside: the clock, the instances started, how often each provider was
-- closed, the reported sessions, and the first claim of each key.
structure Pool where
  heap : Nat → Backend := fun _ => {}
  backends : List Nat := []
  nextPick : Nat := 0
  starting : Nat := 0
  lifecycle : Nat := 0
  drains : Nat := 0
  closed : Bool := false
  sessionBackends : GoMap Nat := ∅
  turnBackends : GoMap Nat := ∅
  interactionBackends : GoMap Nat := ∅
  createKeyBackends : GoMap Nat := ∅
  now : Int := 0
  launched : Nat := 0
  closes : Nat → Nat := fun _ => 0
  reports : List (Nat × Option RuntimeSession) := []
  firstClaims : GoMap Nat := ∅

namespace Pool

variable (policy : LifecyclePolicy) (s : Pool)

def modify (b : Nat) (f : Backend → Backend) : Pool :=
  { s with heap := Function.update s.heap b (f (s.heap b)) }

section Readiness

def backendAvailableLocked (b : Nat) (allowDraining : Bool) : Bool :=
  !(s.heap b).closed && (allowDraining || !((s.heap b).draining || (s.heap b).closing)) &&
  b ∈ s.backends

def backendRuntimeDrainDueLocked (b : Nat) : Bool :=
  (s.heap b).runtimeDrainAt.any (· ≤ s.now)

def backendRuntimeSessionStaleLocked (b : Nat) : Bool :=
  Incompatible (s.heap b).runtimeSession

def backendAcceptsNewWorkLocked (b : Nat) : Bool :=
  s.backendAvailableLocked b false && !s.backendRuntimeDrainDueLocked b &&
  !s.backendRuntimeSessionStaleLocked b

def readyCount : Nat :=
  s.backends.countP s.backendAcceptsNewWorkLocked

def canScaleOutLocked : Bool :=
  0 < policy.maxReadyInstances && s.readyCount + s.starting < policy.maxReadyInstances

def pickReadyBackendLocked : Option Nat :=
  let ready := s.backends.filter s.backendAcceptsNewWorkLocked
  let idle := ready.filter fun b => (s.heap b).active = 0
  let ready := if idle ≠ [] then idle else ready
  ready[s.nextPick % ready.length]?

def availableBackends (allowDraining : Bool) : List Nat :=
  s.backends.filter (s.backendAvailableLocked · allowDraining)

end Readiness

section Acquire

inductive AcquireResult
  | closed
  | unavailable
  | acquired (b : Nat) (scaled : Bool)
  | start
  | wait
  deriving DecidableEq, Repr

def hold (b : Nat) : Pool :=
  s.modify b fun backend => { backend with active := backend.active + 1 }

def startScaleOutLocked : Pool :=
  { s with starting := s.starting + 1, lifecycle := s.lifecycle + 1 }

-- A round of `acquireBackend` up to where it starts an instance, waits or returns.
def acquireBackend (preferred : Option Nat) (allowDraining : Bool) : Pool × AcquireResult :=
  if s.closed then
    (s, .closed)
  else
    match preferred with
    | some b =>
      if s.backendAvailableLocked b allowDraining then (s.hold b, .acquired b false)
      else (s, .unavailable)
    | none =>
      match s.pickReadyBackendLocked with
      | some b =>
        let picked := { s with nextPick := s.nextPick + 1 }
        if 0 < (s.heap b).active ∧ s.canScaleOutLocked policy then
          (picked.startScaleOutLocked.hold b, .acquired b true)
        else
          (picked.hold b, .acquired b false)
      | none =>
        if s.canScaleOutLocked policy then ({ s with starting := s.starting + 1 }, .start)
        else (s, .wait)

-- The end of a start, which gives the slot back.
def settle : Pool :=
  { s with starting := s.starting - 1 }

def settleAcquire (started : Option Nat) : Pool × Bool :=
  match started with
  | none => (s.settle, false)
  | some b =>
    if s.backendAcceptsNewWorkLocked b then (s.settle.hold b, true) else (s.settle, false)

inductive PreferResult
  | closed
  | acquired
  | declined
  deriving DecidableEq, Repr

-- The section of `acquireBackendForNewWork` for a preferred backend.
def preferBackend (b : Nat) (allowDraining : Bool) : Pool × PreferResult :=
  if s.closed then
    (s, .closed)
  else if s.backendAcceptsNewWorkLocked b || (allowDraining && s.backendAvailableLocked b true &&
      !s.backendRuntimeDrainDueLocked b && !s.backendRuntimeSessionStaleLocked b) then
    (s.hold b, .acquired)
  else
    (s, .declined)

def releaseBackend (b : Nat) : Pool :=
  s.modify b fun backend => { backend with active := backend.active - 1 }

end Acquire

section Lifecycle

def newBackend (stamp : Nat) (inst : Instance) : Backend :=
  { registered     := true
    refreshable    := inst.refreshable
    runtimeSession := inst.runtimeSession
    stamp          := stamp
    startedAt      := s.now
    runtimeDrainAt := policy.runtimeSessionDrainAt inst.runtimeSession s.now
    forceCloseAt   := runtimeSessionExpiresAt inst.runtimeSession }

-- The section of `startBackend`, for the instance `b`. The response says whether it was registered.
def startBackend (b stamp : Nat) (inst : Instance) : Pool × Bool :=
  if s.closed then
    (s, false)
  else
    ({ s with
        heap := Function.update s.heap b (s.newBackend policy stamp inst)
        backends := s.backends ++ [b] }, true)

-- The first section of `ensureMinReady`. The response says whether an instance has to be started.
def ensureMinReady : Pool × Bool :=
  if s.closed ∨ policy.minReadyInstances ≤ s.readyCount + s.starting then
    (s, false)
  else
    ({ s with starting := s.starting + 1 }, true)

def earlier : Option Int → Option Int → Option Int
  | some t, some t' => some (min t t')
  | some t, none => some t
  | none, t => t

-- The last section of `refreshBackendRuntimeSession`.
def recordRefresh (b stamp : Nat) (session : Option RuntimeSession) (drainAt : Option Int) :
    Pool × Option Int :=
  if s.backendAvailableLocked b true then
    let drainAt := earlier (s.heap b).runtimeDrainAt drainAt
    (s.modify b fun backend =>
      { backend with
        runtimeSession := session
        stamp := stamp
        runtimeDrainAt := drainAt
        forceCloseAt := runtimeSessionExpiresAt session }, drainAt)
  else
    (s, drainAt)

def markBackendDraining (b : Nat) : Pool × Bool :=
  if ¬(s.heap b).registered ∨ (s.heap b).draining ∨ (s.heap b).closed then
    (s, false)
  else
    (s.modify b fun backend => { backend with draining := true }, true)

def addLifecycleWork : Pool × Bool :=
  if s.closed then (s, false) else ({ s with lifecycle := s.lifecycle + 1 }, true)

-- The first section of `startProactiveReplacement`.
def startProactiveReplacement (b : Nat) : Pool × Bool :=
  let backend := s.heap b
  if s.closed ∨ backend.draining ∨ backend.closing ∨ backend.closed ∨ backend.replacing ∨
      ¬s.backendAvailableLocked b false ∨ ¬s.canScaleOutLocked policy then
    (s, false)
  else
    let marked := s.modify b fun backend => { backend with replacing := true }
    ({ marked with starting := s.starting + 1, lifecycle := s.lifecycle + 1 }, true)

-- Its second section, after the start of the replacement.
def settleProactive (b : Nat) (started : Bool) : Pool :=
  if s.settle.backendAvailableLocked b true then
    s.settle.modify b fun backend =>
      { backend with draining := backend.draining || started, replacing := false }
  else
    s.settle

def lifecycleDone : Pool :=
  { s with lifecycle := s.lifecycle - 1 }

end Lifecycle

section Drain

def removeBackendLocked (b : Nat) : Pool :=
  { s with
    backends := s.backends.erase b
    sessionBackends := s.sessionBackends.eraseWhere (· = b)
    turnBackends := s.turnBackends.eraseWhere (· = b)
    interactionBackends := s.interactionBackends.eraseWhere (· = b)
    createKeyBackends := s.createKeyBackends.eraseWhere (· = b) }

-- The sections of `drainAndCloseBackend`. The first one returns whether nobody else does it.
def beginDrain (b : Nat) : Pool × Bool :=
  if ¬(s.heap b).registered ∨ (s.heap b).closed ∨ (s.heap b).closing then
    (s, false)
  else
    (s.modify b fun backend =>
      { backend with closing := true, draining := true, closingSince := some s.now }, true)

def drainDeadline (b : Nat) (now : Int) : Pool × Int :=
  let deadline := now + policy.drainTimeout
  let forceCloseAt := (s.heap b).forceCloseAt
  (s.modify b fun backend => { backend with drainExpiry := forceCloseAt },
    match forceCloseAt with
    | some t => if t < deadline then t else deadline
    | none => deadline)

def checkDrained (b : Nat) (deadline : Int) : Pool × Bool :=
  if ((s.heap b).active = 0 ∧ (s.heap b).liveTurns = ∅) ∨ deadline < s.now then
    ((s.modify b fun backend => { backend with closed := true }).removeBackendLocked b, true)
  else
    (s, false)

-- The first section of `Close`. The response gives the backends to drain.
def beginClose : Pool × Option (List Nat) :=
  if s.closed then
    (s, none)
  else
    ({ s with
        closed := true
        drains := s.backends.length
        heap := fun b =>
          if b ∈ s.backends ∧ ¬(s.heap b).closed then { s.heap b with draining := true }
          else s.heap b }, some s.backends)

-- The last section of `Close`.
def endClose : Pool :=
  { s with
    backends := []
    sessionBackends := ∅
    turnBackends := ∅
    interactionBackends := ∅
    createKeyBackends := ∅ }

end Drain

section Keys

def claimCreateKeyBackend (key : String) (b : Nat) : Pool × Nat :=
  if key = "" then
    (s, b)
  else
    match s.createKeyBackends.lookup key with
    | some owner => (s, owner)
    | none =>
      ({ s with
          createKeyBackends := s.createKeyBackends.insert key b
          firstClaims       :=
            if key ∈ s.firstClaims then s.firstClaims else s.firstClaims.insert key b }, b)

def deleteCreateKeyBackend (key : String) : Pool :=
  if key = "" then s else { s with createKeyBackends := s.createKeyBackends.erase key }

end Keys

section Routes

def recordSessionBackend (sessionID : String) (b : Nat) : Pool :=
  if trimSpace sessionID ≠ "" ∧ s.backendAvailableLocked b true then
    { s with sessionBackends := s.sessionBackends.insert (trimSpace sessionID) b }
  else
    s

def deleteSessionBackend (sessionID : String) : Pool :=
  if trimSpace sessionID = "" then s
  else { s with sessionBackends := s.sessionBackends.erase (trimSpace sessionID) }

def recordTurnBackend (turnID : String) (b : Nat) : Pool :=
  if trimSpace turnID ≠ "" ∧ s.backendAvailableLocked b true then
    { s with turnBackends := s.turnBackends.insert (trimSpace turnID) b }
  else
    s

-- The section of `recordTurn`, after the session of the turn was recorded.
def recordTurn (turnID : String) (live : Bool) (b : Nat) : Pool :=
  let turnID := trimSpace turnID
  if turnID = "" ∨ ¬s.backendAvailableLocked b true then
    s
  else if live then
    { s.modify b (fun backend => { backend with liveTurns := insert turnID backend.liveTurns }) with
      turnBackends := s.turnBackends.insert turnID b }
  else
    { s.modify b (fun backend => { backend with liveTurns := backend.liveTurns.erase turnID }) with
      turnBackends :=
        if (s.heap b).draining then s.turnBackends.insert turnID b else s.turnBackends.erase turnID }

def deleteTurnBackend (turnID : String) : Pool :=
  let turnID := trimSpace turnID
  if turnID = "" then
    s
  else
    { s with
      turnBackends := s.turnBackends.erase turnID
      heap := fun b =>
        if b ∈ s.backends then { s.heap b with liveTurns := (s.heap b).liveTurns.erase turnID }
        else s.heap b }

-- The flag says whether the interaction is resolved or canceled.
def recordInteraction (interactionID turnID sessionID : String) (settled : Bool) (b : Nat) : Pool :=
  let put (backends : GoMap Nat) (id : String) :=
    if id ≠ "" then backends.insert id b else backends
  if interactionID = "" ∨ ¬s.backendAvailableLocked b true then
    s
  else
    { s with
      interactionBackends :=
        if settled ∧ ¬(s.heap b).draining then s.interactionBackends.erase interactionID
        else s.interactionBackends.insert interactionID b
      turnBackends := put s.turnBackends (trimSpace turnID)
      sessionBackends := put s.sessionBackends (trimSpace sessionID) }

def deleteInteractionBackend (interactionID : String) : Pool :=
  if trimSpace interactionID = "" then s
  else { s with interactionBackends := s.interactionBackends.erase (trimSpace interactionID) }

def backendDraining (b : Nat) : Bool :=
  (s.heap b).draining && !(s.heap b).closed

end Routes
end Pool
end HostedAgents
