import GestaltModel.Goroutines.Basic
import GestaltModel.HostedAgents.Keys
import GestaltModel.HostedAgents.Pool

namespace HostedAgents

open Interleaving (Program)

-- The request of `CreateSession`, where the flag says whether it asks for a workspace.
structure CreateRequest where
  subjectID : String
  idempotencyKey : String
  workspace : Bool
  deriving DecidableEq, Repr

def CreateRequest.createKey (req : CreateRequest) : String :=
  hostedAgentCreateKey req.subjectID (Text.trimSpace req.idempotencyKey)

-- The scope of `hostedAgentWorkspaceRef`. Without a key the name is a random one.
def CreateRequest.workspaceRef (poolName : String) (req : CreateRequest) : Option String :=
  if Text.trimSpace req.idempotencyKey = "" then
    none
  else
    some (workspaceScope poolName req.subjectID req.idempotencyKey)

inductive Routed
  | session (id : String)
  | turn (id : String)
  | interaction (id : String)
  deriving DecidableEq, Repr

-- A session, a turn, only the success of a turn, an interaction (which can be resolved or
-- canceled), or that a session is archived.
inductive Record
  | session (id : String) (archived : Bool)
  | turn (id sessionID : String) (live : Bool)
  | turnCreated (id : String)
  | interaction (id turnID sessionID : String) (settled : Bool)
  | gone (routed : Routed)
  deriving DecidableEq, Repr

inductive CallResult
  | ok (records : List Record)
  | notFound
  | failed
  deriving DecidableEq, Repr

-- Where others can interleave: calls to the outside, and the sections under the pool's lock.
inductive Call
  | now
  | canceled
  | launch
  | discard (b : Nat)
  | closeProvider (b : Nat)
  | getSession (b : Nat)
  | ping (b : Nat)
  | provider (b : Nat)
  | prepareWorkspace (req : CreateRequest) (b : Nat) (ref : Option String)
  | removeWorkspace (req : CreateRequest) (b : Nat) (ref : Option String)
  | createSession (req : CreateRequest) (b : Nat)
  | probe (b : Nat)
  | forever
  | acquireBackend (preferred : Option Nat) (allowDraining : Bool)
  | settleAcquire (started : Option Nat)
  | preferBackend (b : Nat) (allowDraining : Bool)
  | releaseBackend (b : Nat)
  | availableBackends (allowDraining : Bool)
  | compatibilityReason (b : Nat)
  | refreshable (b : Nat)
  | recordRefresh (b stamp : Nat) (session : Option RuntimeSession) (drainAt : Option Int)
  | startedAt (b : Nat)
  | startBackend (b stamp : Nat) (inst : Instance)
  | ensureMinReady
  | settle
  | markBackendDraining (b : Nat)
  | addLifecycleWork (b : Nat)
  | startProactiveReplacement (b : Nat)
  | settleProactive (b : Nat) (started : Bool)
  | lifecycleDone
  | beginDrain (b : Nat)
  | drainClock (b : Nat)
  | drainDeadline (b : Nat) (now : Int)
  | checkDrained (b : Nat) (deadline : Int)
  | drainDone
  | beginClose
  | waitDrains
  | waitLifecycle
  | endClose
  | createKeyBackend (key : String)
  | claimCreateKeyBackend (key : String) (b : Nat)
  | deleteCreateKeyBackend (key : String)
  | recordSessionBackend (sessionID : String) (b : Nat)
  | deleteSessionBackend (sessionID : String)
  | recordTurnBackend (turnID : String) (b : Nat)
  | recordTurn (turnID : String) (live : Bool) (b : Nat)
  | deleteTurnBackend (turnID : String)
  | recordInteraction (interactionID turnID sessionID : String) (settled : Bool) (b : Nat)
  | deleteInteractionBackend (interactionID : String)
  | backendDraining (b : Nat)

namespace Call

@[reducible]
def Response : Call → Type
  | now => Int
  | canceled => Bool
  | launch => Option (Nat × Nat × Instance)
  | getSession _ => Option (Nat × Option RuntimeSession)
  | ping _ => Bool
  | provider _ => CallResult
  | prepareWorkspace .. => Bool
  | createSession .. => CallResult
  | acquireBackend .. => Pool.AcquireResult
  | settleAcquire _ => Bool
  | preferBackend .. => Pool.PreferResult
  | availableBackends _ => List Nat
  | compatibilityReason _ => String
  | refreshable _ => Bool
  | recordRefresh .. => Option Int
  | startedAt _ => Int
  | startBackend .. => Bool
  | ensureMinReady => Bool
  | markBackendDraining _ => Bool
  | addLifecycleWork _ => Bool
  | startProactiveReplacement _ => Bool
  | beginDrain _ => Bool
  | drainClock _ => Int
  | drainDeadline .. => Int
  | checkDrained .. => Bool
  | beginClose => Option (List Nat)
  | createKeyBackend _ => Option Nat
  | claimCreateKeyBackend .. => Nat
  | backendDraining _ => Bool
  | _ => Unit

end Call

abbrev PoolProgram := Program Call Call.Response

-- A start gives an instance or fails, a runtime session is reported or not, and so on.
structure Outcome where
  inst : Option Instance := none
  session : Option (Option RuntimeSession) := none
  healthy : Bool := true
  result : CallResult := .ok []
  prepared : Bool := true
  canceled : Bool := false

namespace Pool

variable (policy : LifecyclePolicy) (s : Pool)

-- The provider reports the session or fails. There is no provider behind a nil pointer.
def getSession (b : Nat) : Option (Option RuntimeSession) → Pool × Option (Nat × Option RuntimeSession)
  | none => (s, none)
  | some session =>
    if (s.heap b).registered then
      ({ s with reports := s.reports ++ [(b, session)] }, some (s.reports.length, session))
    else
      (s, none)

def launch : Option Instance → Pool × Option (Nat × Nat × Instance)
  | none => (s, none)
  | some inst =>
    ({ s with
        launched := s.launched + 1
        reports  := s.reports ++ [(s.launched, inst.runtimeSession)] },
      some (s.launched, s.reports.length, inst))

def closeProvider (b : Nat) : Pool :=
  { s with closes := Function.update s.closes b (s.closes b + 1) }

def exec : (q : Call) → Outcome → Pool → Pool × q.Response
  | .now, _, s => (s, s.now)
  | .canceled, o, s => (s, o.canceled)
  | .launch, o, s => s.launch o.inst
  | .discard b, _, s => (s.closeProvider b, ())
  | .closeProvider b, _, s => (s.closeProvider b, ())
  | .getSession b, o, s => s.getSession b o.session
  | .ping _, o, s => (s, o.healthy)
  | .provider _, o, s => (s, o.result)
  | .prepareWorkspace .., o, s => (s, o.prepared)
  | .removeWorkspace .., _, s => (s, ())
  | .createSession .., o, s => (s, o.result)
  | .probe _, _, s => (s, ())
  | .forever, _, s => (s, ())
  | .acquireBackend preferred allow, _, s => s.acquireBackend policy preferred allow
  | .settleAcquire started, _, s => s.settleAcquire started
  | .preferBackend b allow, _, s => s.preferBackend b allow
  | .releaseBackend b, _, s => (s.releaseBackend b, ())
  | .availableBackends allow, _, s => (s, s.availableBackends allow)
  | .compatibilityReason b, _, s =>
    (s, hostedRuntimeSessionCompatibilityReason (s.heap b).runtimeSession)
  | .refreshable b, _, s => (s, (s.heap b).refreshable)
  | .recordRefresh b stamp session drainAt, _, s => s.recordRefresh b stamp session drainAt
  | .startedAt b, _, s => (s, (s.heap b).startedAt)
  | .startBackend b stamp inst, _, s => s.startBackend policy b stamp inst
  | .ensureMinReady, _, s => s.ensureMinReady policy
  | .settle, _, s => (s.settle, ())
  | .markBackendDraining b, _, s => s.markBackendDraining b
  | .addLifecycleWork _, _, s => s.addLifecycleWork
  | .startProactiveReplacement b, _, s => s.startProactiveReplacement policy b
  | .settleProactive b started, _, s => (s.settleProactive b started, ())
  | .lifecycleDone, _, s => (s.lifecycleDone, ())
  | .beginDrain b, _, s => s.beginDrain b
  | .drainClock _, _, s => (s, s.now)
  | .drainDeadline b now, _, s => s.drainDeadline policy b now
  | .checkDrained b deadline, _, s => s.checkDrained b deadline
  | .drainDone, _, s => ({ s with drains := s.drains - 1 }, ())
  | .beginClose, _, s => s.beginClose
  | .waitDrains, _, s => (s, ())
  | .waitLifecycle, _, s => (s, ())
  | .endClose, _, s => (s.endClose, ())
  | .createKeyBackend key, _, s =>
    (s, if key = "" then none else s.createKeyBackends.lookup key)
  | .claimCreateKeyBackend key b, _, s => s.claimCreateKeyBackend key b
  | .deleteCreateKeyBackend key, _, s => (s.deleteCreateKeyBackend key, ())
  | .recordSessionBackend id b, _, s => (s.recordSessionBackend id b, ())
  | .deleteSessionBackend id, _, s => (s.deleteSessionBackend id, ())
  | .recordTurnBackend id b, _, s => (s.recordTurnBackend id b, ())
  | .recordTurn id live b, _, s => (s.recordTurn id live b, ())
  | .deleteTurnBackend id, _, s => (s.deleteTurnBackend id, ())
  | .recordInteraction id turnID sessionID settled b, _, s =>
    (s.recordInteraction id turnID sessionID settled b, ())
  | .deleteInteractionBackend id, _, s => (s.deleteInteractionBackend id, ())
  | .backendDraining b, _, s => (s, s.backendDraining b)

-- The calls that wait: those for the two wait groups of `Close`, and a loop that is cut off.
def enabled : Call → Pool → Prop
  | .forever, _ => False
  | .waitDrains, s => s.drains = 0
  | .waitLifecycle, s => s.lifecycle = 0
  | _, _ => True

instance {q : Call} {s : Pool} : Decidable (enabled q s) := by
  cases q <;> unfold enabled <;> infer_instance

end Pool

-- Which backend the routing maps name for a client's call is left open.
inductive Goroutine
  | healthLoop
  | scaleOut
  | replacement (b : Nat)
  | proactive (b : Nat)
  | drain (b : Nat)
  | probe (b : Nat)
  | close
  | createSession (req : CreateRequest)
  | createTurn (preferred : Option Nat) (allowDraining : Bool)
  | callBackend (preferred : Option Nat) (sought : Option Routed)
  | pingBackend (b : Nat)
  deriving DecidableEq

inductive PoolError
  | closed
  | notReady
  | startFailed
  | canceled
  | prepareFailed
  | callFailed
  deriving DecidableEq, Repr

namespace PoolProgram

def perform (q : Call) : PoolProgram q.Response :=
  Program.perform q

variable (policy : LifecyclePolicy)

-- The loops of the source are unrolled `n` times. A goroutine that is not done then stops for ever.
def cutOff : PoolProgram (Except PoolError α) := do
  perform .forever
  return .error .closed

-- `startBackend`, which returns the number of the backend.
def startBackend : PoolProgram (Option Nat) := do
  match ← perform .launch with
  | none => return none
  | some (b, stamp, inst) =>
    if ← perform (.startBackend b stamp inst) then
      return some b
    else do
      perform (.discard b)
      return none

def acquireBackend (preferred : Option Nat) (allowDraining : Bool) :
    Nat → PoolProgram (Except PoolError Nat)
  | 0 => cutOff
  | n + 1 => do
    match ← perform (.acquireBackend preferred allowDraining) with
    | .closed       => return .error .closed
    | .unavailable  => return .error .notReady
    | .acquired b _ => return .ok b
    | .start        => do
      let started ← startBackend
      let acquired ← perform (.settleAcquire started)
      match started with
      | none   => return .error .startFailed
      | some b => if acquired then return .ok b else acquireBackend preferred allowDraining n
    | .wait         =>
      if ← perform .canceled then
        return .error .canceled
      else
        acquireBackend preferred allowDraining n

def ensureMinReady : Nat → PoolProgram (Except PoolError Unit)
  | 0 => cutOff
  | n + 1 => do
    if ← perform .ensureMinReady then
      let started ← startBackend
      perform .settle
      match started with
      | none   => return .error .startFailed
      | some _ => ensureMinReady n
    else
      return .ok ()

-- The loop of `drainAndCloseBackend`.
def awaitDrained (b : Nat) (deadline : Int) : Nat → PoolProgram (Except PoolError Unit)
  | 0 => cutOff
  | n + 1 => do
    if ← perform (.checkDrained b deadline) then
      perform (.closeProvider b)
      return .ok ()
    else
      awaitDrained b deadline n

def drainAndCloseBackend (n b : Nat) : PoolProgram (Except PoolError Unit) := do
  if ← perform (.beginDrain b) then
    let now ← perform (.drainClock b)
    let deadline ← perform (.drainDeadline b now)
    awaitDrained b deadline n
  else
    return .ok ()

variable (b : Nat)

def replaceBackendAllowNever (allowRestartPolicyNever : Bool) : PoolProgram Unit := do
  if policy.restartPolicy = .never ∧ allowRestartPolicyNever = false then
    return
  else if ← perform (.markBackendDraining b) then
    let _ ← perform (.addLifecycleWork b)
    return
  else
    return

-- `refreshBackendRuntimeSession`, also with a context of the caller.
def refreshBackendRuntimeSession : PoolProgram (Option (Option RuntimeSession × Option Int)) := do
  if ← perform (.refreshable b) then
    match ← perform (.getSession b) with
    | none => return none
    | some (stamp, session) => do
      let now ← perform .now
      let drainAt := policy.runtimeSessionDrainAt session now
      let drainAt ← perform (.recordRefresh b stamp session drainAt)
      return some (session, drainAt)
  else
    return some (none, none)

-- `ensureBackendFreshForNewWork`, which returns whether the backend is fresh.
def ensureBackendFreshForNewWork : PoolProgram Bool := do
  if (← perform (.compatibilityReason b)) ≠ "" then
    replaceBackendAllowNever policy b true
    return false
  else if policy.restartPolicy ≠ .never then
    return true
  else
    match ← refreshBackendRuntimeSession policy b with
    | none => do
      replaceBackendAllowNever policy b true
      return false
    | some (session, drainAt) => do
      let now ← perform .now
      if runtimeSessionRetires session drainAt now then
        replaceBackendAllowNever policy b true
        return false
      else
        return true

-- What `acquireBackendForNewWork` does with a backend that it has acquired.
def freshOr (again : PoolProgram (Except PoolError Nat)) : PoolProgram (Except PoolError Nat) := do
  if ← ensureBackendFreshForNewWork policy b then
    return .ok b
  else
    perform (.releaseBackend b)
    if ← perform .canceled then return .error .canceled else again

def acquireBackendForNewWork (preferred : Option Nat) (allowDraining : Bool) :
    Nat → PoolProgram (Except PoolError Nat)
  | 0 => cutOff
  | n + 1 =>
    match preferred with
    | some b => do
      match ← perform (.preferBackend b allowDraining) with
      | .closed   => return .error .closed
      | .acquired => freshOr policy b (acquireBackendForNewWork none allowDraining n)
      | .declined =>
        if ← perform .canceled then
          return .error .canceled
        else
          acquireBackendForNewWork none allowDraining n
    | none   => do
      match ← acquireBackend none false n with
      | .error e => return .error e
      | .ok b    => freshOr policy b (acquireBackendForNewWork none allowDraining n)

def maybeProbeAfterCallError (result : CallResult) : PoolProgram Unit :=
  if result = .failed ∧ policy.restartPolicy ≠ .never then perform (.probe b) else return

def deleteRoute : Routed → PoolProgram Unit
  | .session id => perform (.deleteSessionBackend id)
  | .turn id => perform (.deleteTurnBackend id)
  | .interaction id => perform (.deleteInteractionBackend id)

def recordSession (id : String) (archived : Bool) (b : Nat) : PoolProgram Unit := do
  if Text.trimSpace id = "" then
    return
  else if archived then
    if ← perform (.backendDraining b) then
      perform (.recordSessionBackend id b)
    else
      perform (.deleteSessionBackend id)
  else
    perform (.recordSessionBackend id b)

def recordTurn (id sessionID : String) (live : Bool) (b : Nat) : PoolProgram Unit := do
  if Text.trimSpace id = "" then
    return
  else
    perform (.recordSessionBackend sessionID b)
    perform (.recordTurn id live b)

def record : Record → PoolProgram Unit
  | .session id archived => recordSession id archived b
  | .turn id sessionID live => recordTurn id sessionID live b
  | .turnCreated id => perform (.recordTurnBackend id b)
  | .interaction id turnID sessionID settled =>
    perform (.recordInteraction id turnID sessionID settled b)
  | .gone routed => deleteRoute routed

def recordAll (b : Nat) : List Record → PoolProgram Unit
  | [] => return
  | r :: records => do
    record b r
    recordAll b records

-- Claims the key and goes to the backend that has it already.
def claim (key : String) (b : Nat) : Nat → PoolProgram (Except PoolError Nat)
  | 0 => cutOff
  | n + 1 => do
    let owner ← perform (.claimCreateKeyBackend key b)
    if owner = b then
      return .ok b
    else
      perform (.releaseBackend b)
      match ← acquireBackend (some owner) true n with
      | .error e => return .error e
      | .ok b    => claim key b n

-- The call of the provider, where the workspace is prepared if there is one.
def createOn (req : CreateRequest) (ref : Option String) (prepared : Bool) (b : Nat) :
    PoolProgram (Except PoolError Unit) := do
  let result ← perform (.createSession req b)
  match result with
  | .ok records =>
    perform (.releaseBackend b)
    recordAll b records
    return .ok ()
  | error =>
    if prepared ∧ Text.trimSpace req.idempotencyKey = "" then
      perform (.removeWorkspace req b ref)
      perform (.releaseBackend b)
      maybeProbeAfterCallError policy b error
      return .error .callFailed
    else
      perform (.releaseBackend b)
      maybeProbeAfterCallError policy b error
      return .error .callFailed

def createSession (poolName : String) (req : CreateRequest) (n : Nat) :
    PoolProgram (Except PoolError Unit) := do
  let preferred ← perform (.createKeyBackend req.createKey)
  match ← acquireBackendForNewWork policy preferred preferred.isSome n with
  | .error e => return .error e
  | .ok b => do
    match ← claim req.createKey b n with
    | .error e => return .error e
    | .ok b    =>
      if req.workspace then
        let ref := req.workspaceRef poolName
        if ← perform (.prepareWorkspace req b ref) then
          createOn policy req ref true b
        else
          perform (.removeWorkspace req b ref)
          perform (.deleteCreateKeyBackend req.createKey)
          perform (.releaseBackend b)
          return .error .prepareFailed
      else
        createOn policy req none false b

def createTurn (preferred : Option Nat) (allowDraining : Bool) (n : Nat) : PoolProgram Unit := do
  match ← acquireBackendForNewWork policy preferred allowDraining n with
  | .error _ => return
  | .ok b => do
    let result ← perform (.provider b)
    perform (.releaseBackend b)
    maybeProbeAfterCallError policy b result
    match result with
    | .ok records => recordAll b records
    | _           => return

-- They go to one backend, or to any if none is given. The route to what is not found is deleted.
def callBackend (preferred : Option Nat) (sought : Option Routed) (n : Nat) : PoolProgram Unit := do
  match ← acquireBackend preferred preferred.isSome n with
  | .error _ => return
  | .ok b => do
    let result ← perform (.provider b)
    perform (.releaseBackend b)
    maybeProbeAfterCallError policy b result
    match result, sought with
    | .ok records, _          => recordAll b records
    | .notFound, some routed => deleteRoute routed
    | _, _                    => return

def pingBackend (b n : Nat) : PoolProgram Unit := do
  match ← acquireBackend (some b) true n with
  | .error _ => return
  | .ok b => do
    let _ ← perform (.ping b)
    perform (.releaseBackend b)

-- One round of the health loop for a backend.
def checkHealth : PoolProgram Unit := do
  match ← refreshBackendRuntimeSession policy b with
  | none => replaceBackendAllowNever policy b false
  | some (session, drainAt) => do
    let now ← perform .now
    if runtimeSessionRetires session drainAt now then
      replaceBackendAllowNever policy b false
    else if ← perform (.ping b) then
      let startedAt ← perform (.startedAt b)
      let now ← perform .now
      if policy.runtimeSessionReplacesProactively startedAt session drainAt now then
        let _ ← perform (.startProactiveReplacement b)
        return
      else
        return
    else
      replaceBackendAllowNever policy b false

def checkHealths : List Nat → PoolProgram Unit
  | [] => return
  | b :: bs => do
    checkHealth policy b
    checkHealths bs

def healthLoop (n : Nat) : Nat → PoolProgram (Except PoolError Unit)
  | 0 => cutOff
  | k + 1 => do
    if ← perform .canceled then
      perform .lifecycleDone
      return .ok ()
    else
      let _ ← ensureMinReady n
      let bs ← perform (.availableBackends false)
      checkHealths policy bs
      healthLoop n k

def close : PoolProgram Unit := do
  match ← perform .beginClose with
  | none => return
  | some _ => do
    perform .waitDrains
    perform .waitLifecycle
    perform .endClose

def discardResult (p : PoolProgram α) : PoolProgram Unit := do
  let _ ← p
  return

def body (poolName : String) (n : Nat) : Goroutine → PoolProgram Unit
  | .healthLoop => discardResult (healthLoop policy n n)
  | .scaleOut => do
    let _ ← startBackend
    perform .settle
    perform .lifecycleDone
  | .replacement b => do
    let _ ← ensureMinReady n
    let _ ← drainAndCloseBackend n b
    perform .lifecycleDone
  | .proactive b => do
    let started ← startBackend
    perform (.settleProactive b started.isSome)
    if started.isSome then
      let _ ← drainAndCloseBackend n b
      perform .lifecycleDone
    else
      perform .lifecycleDone
  | .drain b => do
    let _ ← drainAndCloseBackend n b
    perform .drainDone
  | .probe b => do
    if ← perform (.ping b) then return else replaceBackendAllowNever policy b false
  | .close => close
  | .createSession req => discardResult (createSession policy poolName req n)
  | .createTurn preferred allowDraining => createTurn policy preferred allowDraining n
  | .callBackend preferred sought => callBackend policy preferred sought n
  | .pingBackend b => pingBackend b n

end PoolProgram

def spawns : (q : Call) → q.Response → List Goroutine
  | .acquireBackend .., .acquired _ true => [.scaleOut]
  | .addLifecycleWork b, true => [.replacement b]
  | .startProactiveReplacement b, true => [.proactive b]
  | .beginClose, some bs => bs.map .drain
  | .probe b, _ => [.probe b]
  | _, _ => []

-- The moves of the environment: time passes, and clients make calls.
inductive Act
  | tick (d : Nat)
  | createSession (req : CreateRequest)
  | createTurn (preferred : Option Nat) (allowDraining : Bool)
  | callBackend (preferred : Option Nat) (sought : Option Routed)
  | pingBackend (b : Nat)
  | close

def Act.enters : Act → List Goroutine
  | tick _ => []
  | createSession req => [.createSession req]
  | createTurn preferred allowDraining => [.createTurn preferred allowDraining]
  | callBackend preferred sought => [.callBackend preferred sought]
  | pingBackend b => [.pingBackend b]
  | close => [.close]

def Act.apply : Act → Pool → Pool
  | tick d, s => { s with now := s.now + d }
  | _, s => s

def system (policy : LifecyclePolicy) (poolName : String) (n : Nat) :
    Goroutines.System Goroutine Call Call.Response Pool where
  Oracle := Outcome
  Act := Act
  enabled := Pool.enabled
  exec := Pool.exec policy
  spawns := spawns
  act := Act.apply
  enters := Act.enters
  body := PoolProgram.body policy poolName n

instance {policy : LifecyclePolicy} {poolName : String} {n : Nat} {q : Call} {s : Pool} :
    Decidable ((system policy poolName n).enabled q s) :=
  inferInstanceAs <| Decidable (Pool.enabled q s)

abbrev PoolConfig := Goroutines.Config Call Call.Response Pool

-- An instance is started while nobody else knows the pool, which takes some time.
def Pool.startInstance (policy : LifecyclePolicy) (s : Pool) (d : Nat) (inst : Instance) : Pool :=
  let s := { s with now := s.now + d }
  ((s.launch (some inst)).1.startBackend policy s.launched s.reports.length inst).1

-- `newHostedAgentProviderPool`: starts the given instances one after the other.
def Pool.construct (policy : LifecyclePolicy) (now : Int) (instances : List (Nat × Instance)) : Pool :=
  instances.foldl (fun s i => s.startInstance policy i.1 i.2) { now }

-- The pool after its construction, with as many instances as the policy asks for, and a health loop
-- unless it never restarts. If an instance cannot be started, the pool is closed.
inductive Initial (policy : LifecyclePolicy) (poolName : String) (n : Nat) : PoolConfig → Prop
  | ready {now instances} (complete : instances.length = policy.minReadyInstances) :
    Initial policy poolName n
      { mem     := { Pool.construct policy now instances with
          lifecycle := if policy.restartPolicy = .never then 0 else 1 }
        threads := if policy.restartPolicy = .never then []
          else [PoolProgram.body policy poolName n .healthLoop] }
  | failed {now instances} (incomplete : instances.length < policy.minReadyInstances) :
    Initial policy poolName n
      { mem     := Pool.construct policy now instances
        threads := [PoolProgram.body policy poolName n .close] }

end HostedAgents
