import GestaltModel.Goroutines.Theorems.Basic
import GestaltModel.HostedAgents.Phases

namespace HostedAgents

open Goroutines (Discipline)
open Goroutines.Discipline (Keeps)

variable {q : Call}

namespace Phase

-- The phase of a goroutine that is neither in a start nor in a drain nor in a keyed create.
abbrev idle (holds : Option Nat) (health : Bool)
    (fetched : Option (Nat × Nat × Option RuntimeSession)) : Phase :=
  { holds, health, fetched }

def At (holds : Option Nat) (health : Bool) (φ : Phase) : Prop :=
  ∃ fetched, φ = idle holds health fetched

end Phase

-- The calls that a goroutine can make in any idle phase and that do not change it.
def Call.Neutral : Call → Prop
  | now => True
  | canceled => True
  | ping _ => True
  | provider _ => True
  | probe _ => True
  | availableBackends _ => True
  | compatibilityReason _ => True
  | refreshable _ => True
  | startedAt _ => True
  | markBackendDraining _ => True
  | addLifecycleWork _ => True
  | startProactiveReplacement _ => True
  | lifecycleDone => True
  | drainDone => True
  | waitDrains => True
  | waitLifecycle => True
  | createKeyBackend _ => True
  | recordSessionBackend .. => True
  | deleteSessionBackend _ => True
  | recordTurnBackend .. => True
  | recordTurn .. => True
  | deleteTurnBackend _ => True
  | recordInteraction .. => True
  | deleteInteractionBackend _ => True
  | backendDraining _ => True
  | _ => False

theorem Drain.pending_ok : (Drain.pending b).Ok (.beginDrain b) :=
  rfl

theorem Drain.none_ok : Drain.none.Ok (.beginDrain b) :=
  .inl ⟨b, rfl⟩

variable {policy : LifecyclePolicy} {holds : Option Nat} {health : Bool}

theorem ok_of_neutral (h : q.Neutral) :
    (discipline policy).ok (.idle holds health fetched) q := by
  cases q <;> first | exact False.elim h | exact ⟨id, .inr id, trivial, id, trivial, trivial⟩

theorem next_of_neutral (h : q.Neutral) (r : q.Response) :
    (discipline policy).next (.idle holds health fetched) q r = .idle holds health fetched := by
  cases q <;> first | exact False.elim h | rfl

namespace PoolProgram

-- The program takes an idle goroutine from the backend that it holds to one that depends on the result.
def Takes (policy : LifecyclePolicy) (health : Bool) (holds : Option Nat) (p : PoolProgram α)
    (post : α → Option Nat) : Prop :=
  ∀ fetched, (discipline policy).Keeps (fun a => Phase.At (post a) health) p
    (.idle holds health fetched)

namespace Takes

variable {post : α → Option Nat} {f : q.Response → PoolProgram α}

theorem ret : Takes policy health (post a) (.ret a) post :=
  fun fetched => ⟨fetched, rfl⟩

theorem bind {f : β → PoolProgram α}
    (h : Takes policy health holds p mid) (hf : ∀ a, Takes policy health (mid a) (f a) post) :
    Takes policy health holds (p >>= f) post := by
  intro fetched
  refine (h fetched).bind fun a φ hφ => ?_
  obtain ⟨fetched, rfl⟩ := hφ
  exact hf a fetched

theorem perform (hq : q.Neutral) :
    Takes policy health holds (PoolProgram.perform q) fun _ => holds :=
  fun fetched => ⟨ok_of_neutral hq, fun r => ⟨fetched, next_of_neutral hq r⟩⟩

theorem neutral (hq : q.Neutral) (h : ∀ r, Takes policy health holds (f r) post) :
    Takes policy health holds (PoolProgram.perform q >>= f) post :=
  (perform hq).bind h

theorem release : Takes policy health (some b) (PoolProgram.perform (.releaseBackend b)) fun _ => none :=
  fun fetched => ⟨⟨id, .inr id, rfl, id, trivial, trivial⟩, fun _ => ⟨fetched, rfl⟩⟩

end Takes

-- A loop can be cut off where nothing is owed, or while it waits for a backend to drain.
theorem keeps_cutOff
    (hd : drain.Ok .forever) (hp : post (.error .closed) (.idle none health fetched)) :
    (discipline policy).Keeps post cutOff { holds, drain, health, fetched } := by
  exact ⟨⟨id, hd, trivial, id, trivial, trivial⟩, fun _ => hp⟩

theorem takes_cutOff (hp : post (.error .closed) = none) :
    Takes policy health holds cutOff post :=
  fun fetched => keeps_cutOff (.inr id) ⟨fetched, by rw [hp]⟩

theorem keeps_startBackend :
    (discipline policy).Keeps (fun _ φ => φ = { slot := .settling, holds, health, fetched })
      startBackend { slot := .launching, holds, health, fetched } := by
  refine ⟨⟨rfl, .inr id, trivial, id, trivial, trivial⟩, fun r => ?_⟩
  rcases r with _ | ⟨b, stamp, inst⟩
  case none => rfl
  case some =>
    refine ⟨⟨rfl, .inr id, trivial, id, trivial, trivial⟩, fun r => ?_⟩
    cases r
    case true  => rfl
    case false => exact ⟨⟨rfl, .inr id, trivial, id, trivial, trivial⟩, fun _ => rfl⟩

theorem takes_acquireBackend (n : Nat) :
    Takes policy health none (acquireBackend preferred allowDraining n) Except.toOption := by
  induction n
  case zero => exact takes_cutOff rfl
  case succ n hi =>
    intro fetched
    refine ⟨⟨id, .inr id, rfl, id, trivial, trivial⟩, fun r => ?_⟩
    cases r
    case closed       => exact ⟨fetched, rfl⟩
    case unavailable  => exact ⟨fetched, rfl⟩
    case acquired b _ => exact ⟨fetched, rfl⟩
    case wait         =>
      refine Takes.neutral (q := .canceled) trivial (fun r => ?_) fetched
      cases r
      case true  => exact .ret
      case false => exact hi
    case start        =>
      refine keeps_startBackend.bind fun started φ hφ => ?_
      subst hφ
      refine ⟨⟨.inr (.inl ⟨_, rfl⟩), .inr id, rfl, id, trivial, trivial⟩, fun r => ?_⟩
      cases started
      case none   => exact ⟨fetched, rfl⟩
      case some b =>
        cases r
        case true  => exact ⟨fetched, rfl⟩
        case false => exact hi fetched

theorem takes_ensureMinReady (n : Nat) :
    Takes policy health none (ensureMinReady n) fun _ => none := by
  induction n
  case zero => exact takes_cutOff rfl
  case succ n hi =>
    intro fetched
    refine ⟨⟨id, .inr id, trivial, id, trivial, trivial⟩, fun r => ?_⟩
    cases r
    case false => exact ⟨fetched, rfl⟩
    case true  =>
      refine keeps_startBackend.bind fun started φ hφ => ?_
      subst hφ
      refine ⟨⟨.inl rfl, .inr id, trivial, id, trivial, trivial⟩, fun _ => ?_⟩
      cases started
      case none => exact ⟨fetched, rfl⟩
      case some => exact hi fetched

theorem keeps_awaitDrained (n : Nat) :
    (discipline policy).Keeps (fun _ => Phase.At none health) (awaitDrained b deadline n)
      { drain := .waiting b deadline, health, fetched } := by
  induction n
  case zero => exact keeps_cutOff (.inr rfl) ⟨fetched, rfl⟩
  case succ n hi =>
    refine ⟨⟨id, .inl rfl, trivial, id, trivial, trivial⟩, fun r => ?_⟩
    cases r
    case false => exact hi
    case true  => exact ⟨⟨id, rfl, trivial, id, trivial, trivial⟩, fun _ => ⟨fetched, rfl⟩⟩

theorem keeps_drainAndCloseBackend (hd : drain.Ok (.beginDrain b)) :
    (discipline policy).Keeps (fun _ => Phase.At none health) (drainAndCloseBackend n b)
      { drain, health, fetched } := by
  refine ⟨⟨id, hd, trivial, id, trivial, trivial⟩, fun r => ?_⟩
  cases r
  case false => exact ⟨fetched, rfl⟩
  case true =>
    refine ⟨⟨id, rfl, trivial, id, trivial, trivial⟩, fun now => ?_⟩
    exact ⟨⟨id, rfl, trivial, id, trivial, trivial⟩, fun deadline => keeps_awaitDrained n⟩

theorem takes_replaceBackendAllowNever :
    Takes policy health holds (replaceBackendAllowNever policy b allow) fun _ => holds := by
  rw [replaceBackendAllowNever]
  split
  case isTrue => exact .ret
  case isFalse =>
    refine .neutral trivial fun r => ?_
    cases r
    case false => exact .ret
    case true  => exact .neutral trivial fun _ => .ret

theorem takes_refreshBackendRuntimeSession (hp : policy.restartPolicy = .never ∨ health = true) :
    Takes policy health holds (refreshBackendRuntimeSession policy b) fun _ => holds := by
  refine .neutral trivial fun r => ?_
  cases r
  case false => exact .ret
  case true =>
    intro fetched
    refine ⟨⟨id, .inr id, trivial, id, trivial, hp⟩, fun r => ?_⟩
    rcases r with _ | ⟨stamp, session⟩
    case none => exact ⟨fetched, rfl⟩
    case some =>
      refine ⟨ok_of_neutral trivial, fun now => ?_⟩
      exact ⟨⟨id, .inr id, trivial, id, trivial, rfl⟩, fun _ => ⟨none, rfl⟩⟩

theorem takes_ensureBackendFreshForNewWork :
    Takes policy health holds (ensureBackendFreshForNewWork policy b) fun _ => holds := by
  refine .neutral trivial fun reason => ?_
  have hr : Takes policy health holds
      (do replaceBackendAllowNever policy b true; return false) fun _ => holds :=
    takes_replaceBackendAllowNever.bind fun _ => .ret
  split
  case isTrue => exact hr
  case isFalse =>
    split
    case isTrue     => exact .ret
    case isFalse hn =>
      refine (takes_refreshBackendRuntimeSession (.inl (not_not.mp hn))).bind fun r => ?_
      rcases r with _ | ⟨session, drainAt⟩
      case none => exact hr
      case some =>
        refine .neutral trivial fun now => ?_
        split
        case isTrue  => exact hr
        case isFalse => exact .ret

theorem takes_freshOr (h : Takes policy health none again Except.toOption) :
    Takes policy health (some b) (freshOr policy b again) Except.toOption := by
  refine takes_ensureBackendFreshForNewWork.bind fun fresh => ?_
  cases fresh
  case true => exact .ret
  case false =>
    refine Takes.release.bind fun _ => .neutral trivial fun r => ?_
    cases r
    case true  => exact .ret
    case false => exact h

theorem takes_acquireBackendForNewWork (n : Nat) :
    Takes policy health none (acquireBackendForNewWork policy preferred allowDraining n)
      Except.toOption := by
  induction n generalizing preferred
  case zero => exact takes_cutOff rfl
  case succ n hi =>
    cases preferred
    case none =>
      refine (takes_acquireBackend n).bind fun r => ?_
      cases r
      case error e => exact .ret
      case ok b    => exact takes_freshOr hi
    case some b =>
      intro fetched
      refine ⟨⟨id, .inr id, rfl, id, trivial, trivial⟩, fun r => ?_⟩
      cases r
      case closed   => exact ⟨fetched, rfl⟩
      case acquired => exact takes_freshOr hi fetched
      case declined =>
        refine Takes.neutral (q := .canceled) trivial (fun r => ?_) fetched
        cases r
        case true  => exact .ret
        case false => exact hi

theorem takes_maybeProbeAfterCallError :
    Takes policy health holds (maybeProbeAfterCallError policy b result) fun _ => holds := by
  rw [maybeProbeAfterCallError]
  split
  case isTrue => exact .perform trivial
  case isFalse => exact .ret

theorem takes_deleteRoute (routed : Routed) :
    Takes policy health holds (deleteRoute routed) fun _ => holds := by
  cases routed <;> exact .perform trivial

theorem takes_recordSession {id : String} :
    Takes policy health holds (recordSession id archived b) fun _ => holds := by
  rw [recordSession]
  split
  case isTrue => exact .ret
  case isFalse =>
    cases archived
    case false => exact .perform trivial
    case true  =>
      refine .neutral trivial fun draining => ?_
      cases draining <;> exact .perform trivial

theorem takes_record (r : Record) : Takes policy health holds (record b r) fun _ => holds := by
  cases r
  case session => exact takes_recordSession
  case turnCreated => exact .perform trivial
  case interaction => exact .perform trivial
  case gone routed => exact takes_deleteRoute routed
  case turn =>
    rw [record, recordTurn]
    split
    case isTrue  => exact .ret
    case isFalse => exact .neutral trivial fun _ => .perform trivial

theorem takes_recordAll (records : List Record) :
    Takes policy health holds (recordAll b records) fun _ => holds := by
  induction records
  case nil => exact .ret
  case cons r records hi => exact (takes_record r).bind fun _ => hi

-- The phase of a create that holds its backend and has put its key on it, if there is one.
abbrev claimed (key : String) (b : Nat)
    (fetched : Option (Nat × Nat × Option RuntimeSession)) : Phase :=
  { holds := some b, claim := if key ≠ "" then .creating key b else .none, fetched }

-- The phase after a preparation that has failed.
abbrev abandoned (key : String) (b : Nat)
    (fetched : Option (Nat × Nat × Option RuntimeSession)) : Phase :=
  { holds := some b, claim := if key ≠ "" then .abandoning key else .none, fetched }

def Claimed (key : String) : Except PoolError Nat → Phase → Prop
  | .ok b, φ => ∃ fetched, φ = claimed key b fetched
  | .error _, φ => Phase.At none false φ

theorem next_claim {owner : Nat} :
    (discipline policy).next (.idle (some b) false fetched) (.claimCreateKeyBackend key b) owner =
      if owner = b then claimed key b fetched else .idle (some b) false fetched := by
  have h : (discipline policy).next (.idle (some b) false fetched) (.claimCreateKeyBackend key b) owner =
    { holds := some b, claim := if key ≠ "" ∧ owner = b then .creating key b else .none, fetched } := rfl
  rw [h]
  by_cases ho : owner = b <;> simp [ho]

theorem next_prepare {prepared : Bool} :
    (discipline policy).next (claimed req.createKey b fetched) (.prepareWorkspace req b ref) prepared =
      if prepared then claimed req.createKey b fetched else abandoned req.createKey b fetched := by
  have h : (discipline policy).next (claimed req.createKey b fetched) (.prepareWorkspace req b ref)
      prepared =
    { holds := some b, fetched, claim := if req.createKey ≠ "" ∧ prepared = false then
        .abandoning req.createKey else (claimed req.createKey b fetched).claim } := rfl
  rw [h]
  cases prepared
  case true => simp
  case false => by_cases hk : req.createKey = "" <;> simp [hk]

theorem claimed_ok (h : q = .createSession req b ∨ ∃ ref, q = .prepareWorkspace req b ref) :
    (claimed req.createKey b fetched).claim.Ok q := by
  by_cases hk : req.createKey = ""
  case pos =>
    simp only [hk, ne_eq, not_true_eq_false, if_false]
    rcases h with rfl | ⟨ref, rfl⟩ <;> exact fun h => h hk
  case neg =>
    simp only [ne_eq, hk, not_false_eq_true, if_true]
    rcases h with rfl | ⟨ref, rfl⟩
    case inl => exact .inr ⟨req, rfl, rfl⟩
    case inr => exact .inl ⟨req, ref, rfl, rfl⟩

theorem abandoned_ok
    (h : q = .deleteCreateKeyBackend req.createKey ∨ ∃ b ref, q = .removeWorkspace req b ref) :
    (abandoned req.createKey b fetched).claim.Ok q := by
  by_cases hk : req.createKey = ""
  case pos =>
    simp only [hk, ne_eq, not_true_eq_false, if_false]
    rcases h with rfl | ⟨b, ref, rfl⟩ <;> exact fun h => h hk
  case neg =>
    simp only [ne_eq, hk, not_false_eq_true, if_true]
    rcases h with rfl | ⟨b, ref, rfl⟩
    case inl => exact .inr rfl
    case inr => exact .inl ⟨req, b, ref, rfl, rfl⟩

theorem keeps_claim (n : Nat) :
    (discipline policy).Keeps (Claimed key) (claim key b n) (.idle (some b) false fetched) := by
  induction n generalizing b fetched
  case zero => exact keeps_cutOff (.inr id) ⟨fetched, rfl⟩
  case succ n hi =>
    refine ⟨⟨id, .inr id, rfl, id, trivial, trivial⟩, fun owner => ?_⟩
    rw [next_claim]
    by_cases ho : owner = b
    case pos =>
      rw [if_pos ho]
      simp only [ho, Interleaving.Program.bind_ret, if_true]
      exact ⟨fetched, rfl⟩
    case neg =>
      rw [if_neg ho]
      simp only [ho, Interleaving.Program.bind_ret, if_false]
      refine ⟨⟨id, .inr id, rfl, id, trivial, trivial⟩, fun _ => ?_⟩
      refine (takes_acquireBackend n _).bind fun r φ hφ => ?_
      cases r
      case error e => exact hφ
      case ok b'   =>
        obtain ⟨fetched, rfl⟩ := hφ
        exact hi

theorem keeps_createOn :
    (discipline policy).Keeps (fun _ => Phase.At none false) (createOn policy req ref prepared b)
      (claimed req.createKey b fetched) := by
  have hf (error : CallResult) : Takes policy false (some b)
      (do perform (.releaseBackend b)
          maybeProbeAfterCallError policy b error
          return (.error .callFailed : Except PoolError Unit)) fun _ => none :=
    Takes.release.bind fun _ => takes_maybeProbeAfterCallError.bind fun _ => .ret
  refine ⟨⟨id, .inr id, trivial, claimed_ok (.inl rfl), trivial, trivial⟩, fun result => ?_⟩
  cases result
  case ok records =>
    exact (Takes.release.bind fun _ => (takes_recordAll records).bind fun _ => .ret) _
  all_goals
    simp only [Interleaving.Program.bind_ret]
    split
    case isFalse => exact hf _ _
    case isTrue hk =>
      have hc : ¬(Call.removeWorkspace req b ref).Creates := by
        simp [Call.Creates, CreateRequest.createKey, hostedAgentCreateKey, hk.right,
          Text.trimSpace_empty]
      exact ⟨⟨id, .inr id, trivial, hc, trivial, trivial⟩, fun _ => hf _ _⟩

theorem takes_createSession :
    Takes policy false none (createSession policy poolName req n) fun _ => none := by
  refine .neutral trivial fun preferred => (takes_acquireBackendForNewWork n).bind fun r => ?_
  cases r
  case error e => exact .ret
  case ok b =>
    intro fetched
    refine (keeps_claim n).bind fun r φ hφ => ?_
    cases r
    case error e => exact hφ
    case ok b' =>
      obtain ⟨fetched, rfl⟩ := hφ
      simp only
      split
      case isFalse => exact keeps_createOn
      case isTrue =>
        refine ⟨⟨id, .inr id, trivial, claimed_ok (.inr ⟨_, rfl⟩), trivial, trivial⟩, fun prepared => ?_⟩
        rw [next_prepare]
        cases prepared
        case true  => exact keeps_createOn
        case false =>
          refine ⟨⟨id, .inr id, trivial, abandoned_ok (.inr ⟨_, _, rfl⟩), trivial, trivial⟩, fun _ => ?_⟩
          refine ⟨⟨id, .inr id, trivial, abandoned_ok (.inl rfl), trivial, trivial⟩, fun _ => ?_⟩
          exact (Takes.release.bind fun _ => .ret) fetched

theorem takes_createTurn :
    Takes policy false none (createTurn policy preferred allowDraining n) fun _ => none := by
  refine (takes_acquireBackendForNewWork n).bind fun r => ?_
  cases r
  case error e => exact .ret
  case ok b =>
    refine .neutral trivial fun result => Takes.release.bind fun _ => ?_
    refine takes_maybeProbeAfterCallError.bind fun _ => ?_
    cases result
    case ok records => exact takes_recordAll records
    case notFound   => exact .ret
    case failed     => exact .ret

theorem takes_callBackend :
    Takes policy false none (callBackend policy preferred sought n) fun _ => none := by
  refine (takes_acquireBackend n).bind fun r => ?_
  cases r
  case error e => exact .ret
  case ok b =>
    refine .neutral trivial fun result => Takes.release.bind fun _ => ?_
    refine takes_maybeProbeAfterCallError.bind fun _ => ?_
    cases result
    case ok records => exact takes_recordAll records
    case failed     => exact .ret
    case notFound   =>
      cases sought
      case none        => exact .ret
      case some routed => exact takes_deleteRoute routed

theorem takes_pingBackend : Takes policy false none (pingBackend b n) fun _ => none := by
  refine (takes_acquireBackend n).bind fun r => ?_
  cases r
  case error e => exact .ret
  case ok b => exact .neutral trivial fun _ => .release

theorem takes_checkHealth : Takes policy true none (checkHealth policy b) fun _ => none := by
  refine (takes_refreshBackendRuntimeSession (.inr rfl)).bind fun r => ?_
  rcases r with _ | ⟨session, drainAt⟩
  case none => exact takes_replaceBackendAllowNever
  case some =>
    refine .neutral trivial fun now => ?_
    split
    case isTrue  => exact takes_replaceBackendAllowNever
    case isFalse =>
      refine .neutral trivial fun healthy => ?_
      cases healthy
      case false => exact takes_replaceBackendAllowNever
      case true  =>
        refine .neutral trivial fun startedAt => .neutral trivial fun now => ?_
        split
        case isTrue  => exact .neutral trivial fun _ => .ret
        case isFalse => exact .ret

theorem takes_checkHealths (bs : List Nat) :
    Takes policy true none (checkHealths policy bs) fun _ => none := by
  induction bs
  case nil => exact .ret
  case cons b bs hi => exact takes_checkHealth.bind fun _ => hi

theorem takes_healthLoop (k : Nat) : Takes policy true none (healthLoop policy n k) fun _ => none := by
  induction k
  case zero => exact takes_cutOff rfl
  case succ k hi =>
    refine .neutral trivial fun canceled => ?_
    cases canceled
    case true  => exact .neutral trivial fun _ => .ret
    case false =>
      refine (takes_ensureMinReady n).bind fun _ => .neutral trivial fun bs => ?_
      exact (takes_checkHealths bs).bind fun _ => hi

theorem keeps_close : (discipline policy).Keeps (fun _ => Phase.Done) close
    (.idle none false fetched) := by
  refine ⟨⟨id, .inr id, trivial, id, trivial, trivial⟩, fun r => ?_⟩
  cases r
  case none => exact ⟨rfl, rfl, rfl, rfl⟩
  case some =>
    refine ⟨⟨id, .inr id, trivial, id, trivial, trivial⟩, fun _ => ?_⟩
    refine ⟨⟨id, .inr id, trivial, id, trivial, trivial⟩, fun _ => ?_⟩
    exact ⟨⟨id, .inr id, trivial, id, rfl, trivial⟩, fun _ => ⟨rfl, rfl, rfl, rfl⟩⟩

theorem Takes.done (h : Takes policy health none p fun _ => none) :
    (discipline policy).Keeps (fun _ => Phase.Done) p (.idle none health fetched) := by
  refine (h fetched).mono fun _ φ hφ => ?_
  obtain ⟨fetched, rfl⟩ := hφ
  exact ⟨rfl, rfl, rfl, rfl⟩

end PoolProgram

open PoolProgram in
-- Every goroutine keeps the discipline from its start on and owes nothing in the end.
theorem keeps_body (g : Goroutine) :
    (discipline policy).Keeps (fun _ => Phase.Done) (body policy poolName n g) (Phase.start g) := by
  cases g
  case healthLoop => exact ((takes_healthLoop n).bind fun _ => .ret).done
  case createSession => exact (takes_createSession.bind fun _ => .ret).done
  case createTurn => exact takes_createTurn.done
  case callBackend => exact takes_callBackend.done
  case pingBackend => exact takes_pingBackend.done
  case close => exact keeps_close
  case probe =>
    refine Takes.done (.neutral trivial fun healthy => ?_)
    cases healthy
    case true  => exact .ret
    case false => exact takes_replaceBackendAllowNever
  case scaleOut =>
    refine keeps_startBackend.bind fun _ φ hφ => ?_
    subst hφ
    refine ⟨⟨.inl rfl, .inr id, trivial, id, trivial, trivial⟩, fun _ => ?_⟩
    exact Takes.done (.perform trivial)
  case drain =>
    refine (keeps_drainAndCloseBackend Drain.pending_ok).bind fun _ φ hφ => ?_
    obtain ⟨fetched, rfl⟩ := hφ
    exact Takes.done (.perform trivial)
  case replacement b =>
    refine (takes_ensureMinReady n _).bind fun _ φ hφ => ?_
    obtain ⟨fetched, rfl⟩ := hφ
    refine (keeps_drainAndCloseBackend Drain.none_ok).bind fun _ φ hφ => ?_
    obtain ⟨fetched, rfl⟩ := hφ
    exact Takes.done (.perform trivial)
  case proactive b =>
    refine keeps_startBackend.bind fun started φ hφ => ?_
    subst hφ
    refine ⟨⟨.inr (.inr ⟨_, _, rfl⟩), .inr id, trivial, id, trivial, trivial⟩, fun _ => ?_⟩
    cases started
    case none => exact Takes.done (.perform trivial)
    case some =>
      refine (keeps_drainAndCloseBackend Drain.none_ok).bind fun _ φ hφ => ?_
      obtain ⟨fetched, rfl⟩ := hφ
      exact Takes.done (.perform trivial)

end HostedAgents
