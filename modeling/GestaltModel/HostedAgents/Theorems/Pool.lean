import GestaltModel.HostedAgents.Programs

namespace HostedAgents

section Calls

variable (q : Call)

-- The calls that start, register or close something.
def Call.Registers : Call → Prop
  | launch => True
  | discard _ => True
  | closeProvider _ => True
  | startBackend .. => True
  | beginDrain _ => True
  | checkDrained .. => True
  | beginClose => True
  | endClose => True
  | _ => False

-- The calls that change how often a backend is held.
def Call.Holds : Call → Prop
  | acquireBackend .. => True
  | settleAcquire _ => True
  | preferBackend .. => True
  | releaseBackend _ => True
  | startBackend .. => True
  | _ => False

-- The calls that change the session of a backend or the reports of the providers.
def Call.Refreshes : Call → Prop
  | launch => True
  | getSession _ => True
  | recordRefresh .. => True
  | startBackend .. => True
  | _ => False

-- The calls that change the counter of the starts.
def Call.Counts : Call → Prop
  | acquireBackend .. => True
  | ensureMinReady => True
  | startProactiveReplacement _ => True
  | settle => True
  | settleAcquire _ => True
  | settleProactive .. => True
  | _ => False

-- The calls that change which backends the keys are on.
def Call.Claims : Call → Prop
  | checkDrained .. => True
  | endClose => True
  | claimCreateKeyBackend .. => True
  | deleteCreateKeyBackend _ => True
  | _ => False

-- The calls that change the routes of sessions, turns and interactions, or the live turns.
def Call.Routes : Call → Prop
  | checkDrained .. => True
  | endClose => True
  | recordSessionBackend .. => True
  | deleteSessionBackend _ => True
  | recordTurnBackend .. => True
  | recordTurn .. => True
  | deleteTurnBackend _ => True
  | recordInteraction .. => True
  | deleteInteractionBackend _ => True
  | _ => False

end Calls

-- What a call can do to a backend that exists.
structure Backend.Follows (q : Call) (x y : Backend) : Prop where
  registered : y.registered = x.registered := by rfl
  closing : x.closing → y.closing := by exact id
  closed : x.closed → y.closed := by exact id
  draining : x.draining → y.draining := by exact id
  drainAt : ∀ t, x.runtimeDrainAt = some t → ∃ t' ≤ t, y.runtimeDrainAt = some t' := by
    exact fun t h => ⟨t, le_rfl, h⟩
  flags : ¬q.Registers → y.closing = x.closing ∧ y.closed = x.closed := by
    first | exact fun h => absurd trivial h | exact fun _ => ⟨rfl, rfl⟩
  marked : (∀ b d, q ≠ .checkDrained b d) → y.closed = x.closed := by
    first | exact fun _ => rfl | exact fun h => absurd rfl (h _ _)
  active : ¬q.Holds → y.active = x.active := by
    first | exact fun _ => rfl | exact fun h => absurd trivial h
  session : ¬q.Refreshes → y.runtimeSession = x.runtimeSession ∧ y.stamp = x.stamp := by
    first | exact fun _ => ⟨rfl, rfl⟩ | exact fun h => absurd trivial h
  turns : ¬q.Routes → y.liveTurns = x.liveTurns := by
    first | exact fun _ => rfl | exact fun h => absurd trivial h
  since : (∀ b, q ≠ .beginDrain b) → y.closingSince = x.closingSince := by
    first | exact fun _ => rfl | exact fun h => absurd rfl (h _)
  expiry : (∀ b now, q ≠ .drainDeadline b now) → y.drainExpiry = x.drainExpiry := by
    first | exact fun _ => rfl | exact fun h => absurd rfl (h _ _)

namespace Pool

-- What a call can do to the pool, if it does not register a backend.
structure Follows (q : Call) (s s' : Pool) : Prop where
  heap : ∀ b, (s.heap b).Follows q (s'.heap b)
  now : s'.now = s.now := by rfl
  sublist : s'.backends.Sublist s.backends := by exact .refl _
  listed : (∀ b d, q ≠ .checkDrained b d) → q ≠ .endClose → s'.backends = s.backends := by
      first
      | exact fun _ _ => rfl
      | exact fun h => absurd rfl (h _ _)
      | exact fun _ h => absurd rfl h
  grown : s.launched ≤ s'.launched := by exact le_rfl
  places : ¬q.Registers → s'.backends = s.backends ∧ s'.closed = s.closed ∧
    s'.launched = s.launched ∧ s'.closes = s.closes := by
      first | exact fun h => absurd trivial h | exact fun _ => ⟨rfl, rfl, rfl, rfl⟩
  reports : ¬q.Refreshes → s'.reports = s.reports := by
      first | exact fun h => absurd trivial h | exact fun _ => rfl
  starting : ¬q.Counts → s'.starting = s.starting := by
      first | exact fun h => absurd trivial h | exact fun _ => rfl
  claims : ¬q.Claims → s'.createKeyBackends = s.createKeyBackends ∧
    s'.firstClaims = s.firstClaims := by
      first | exact fun h => absurd trivial h | exact fun _ => ⟨rfl, rfl⟩
  routes : ¬q.Routes → s'.sessionBackends = s.sessionBackends ∧
    s'.turnBackends = s.turnBackends ∧ s'.interactionBackends = s.interactionBackends := by
      first | exact fun h => absurd trivial h | exact fun _ => ⟨rfl, rfl, rfl⟩

variable {policy : LifecyclePolicy} {s s' : Pool} {b : Nat} {o : Outcome} {q : Call}

theorem modify_heap_self : (s.modify b f).heap b = f (s.heap b) :=
  Function.update_self ..

theorem modify_heap_of_ne (h : b' ≠ b) :
    (s.modify b f).heap b' = s.heap b' :=
  Function.update_of_ne h ..

theorem follows_update {heap : Nat → Backend} (h : (heap b).Follows q x) (b' : Nat) :
    (heap b').Follows q (Function.update heap b x b') := by
  by_cases hb : b' = b
  case pos =>
    rw [hb, Function.update_self]
    exact h
  case neg =>
    rw [Function.update_of_ne hb]
    exact { flags := fun _ => ⟨rfl, rfl⟩ }

theorem follows_hold (h : q.Holds) (b' : Nat) : (s.heap b').Follows q ((s.hold b).heap b') := by
  refine follows_update ?_ b'
  exact { active := fun hn => absurd h hn, flags := fun _ => ⟨rfl, rfl⟩ }

theorem earlier_le (h : (s.heap b).runtimeDrainAt = some t) (drainAt : Option Int) :
    ∃ t' ≤ t, earlier (s.heap b).runtimeDrainAt drainAt = some t' := by
  rw [h]
  cases drainAt
  case none => exact ⟨t, le_rfl, rfl⟩
  case some t' => exact ⟨min t t', min_le_left t t', rfl⟩

theorem exec_follows (h : ∀ b stamp inst, q ≠ .startBackend b stamp inst) :
    s.Follows q (exec policy q o s).1 := by
  have hr (b : Nat) : (s.heap b).Follows q (s.heap b) := { flags := fun _ => ⟨rfl, rfl⟩ }
  cases q
  case startBackend => exact absurd rfl (h _ _ _)
  case launch =>
    simp only [exec]
    cases o.inst
    case none => exact { heap := hr }
    case some => exact { heap := hr, grown := Nat.le_succ _ }
  case getSession =>
    simp only [exec, getSession]
    repeat' split
    all_goals exact { heap := hr }
  case acquireBackend preferred allowDraining =>
    simp only [exec, acquireBackend]
    repeat' split
    all_goals first | exact { heap := hr } | exact { heap := follows_hold trivial }
  case settleAcquire started =>
    simp only [exec, settleAcquire]
    repeat' split
    all_goals first | exact { heap := hr } | exact { heap := follows_hold trivial }
  case preferBackend =>
    simp only [exec, preferBackend]
    repeat' split
    all_goals first | exact { heap := hr } | exact { heap := follows_hold trivial }
  case releaseBackend => exact { heap := follows_update {} }
  case recordRefresh b stamp session drainAt =>
    simp only [exec, recordRefresh]
    split
    case isFalse => exact { heap := hr }
    case isTrue  => exact { heap := follows_update { drainAt := fun t ht => earlier_le ht drainAt } }
  case ensureMinReady =>
    simp only [exec, ensureMinReady]
    split <;> exact { heap := hr }
  case markBackendDraining =>
    simp only [exec, markBackendDraining]
    split
    case isTrue  => exact { heap := hr }
    case isFalse => exact { heap := follows_update { draining := fun _ => rfl } }
  case addLifecycleWork =>
    simp only [exec, addLifecycleWork]
    split <;> exact { heap := hr }
  case startProactiveReplacement b =>
    simp only [exec, startProactiveReplacement]
    split
    case isTrue  => exact { heap := hr }
    case isFalse => exact { heap := follows_update {} }
  case settleProactive b started =>
    simp only [exec, settleProactive]
    split
    case isFalse => exact { heap := hr }
    case isTrue  =>
      exact { heap := follows_update { draining := fun hd => Bool.or_eq_true_iff.mpr (.inl hd) } }
  case beginDrain b =>
    simp only [exec, beginDrain]
    split
    case isTrue  => exact { heap := hr }
    case isFalse =>
      exact { heap := follows_update { closing := fun _ => rfl, draining := fun _ => rfl } }
  case drainDeadline => exact { heap := follows_update {} }
  case checkDrained b deadline =>
    simp only [exec, checkDrained]
    split
    case isFalse => exact { heap := hr }
    case isTrue  =>
      exact { heap := follows_update { closed := fun _ => rfl }, sublist := List.erase_sublist }
  case beginClose =>
    simp only [exec, beginClose]
    split
    case isTrue  => exact { heap := hr }
    case isFalse =>
      refine { heap := fun b => ?_ }
      dsimp only
      split
      case isFalse => exact hr b
      case isTrue  => exact { draining := fun _ => rfl }
  case endClose => exact { heap := hr, sublist := List.nil_sublist _ }
  case claimCreateKeyBackend =>
    simp only [exec, claimCreateKeyBackend]
    repeat' split
    all_goals exact { heap := hr }
  case deleteCreateKeyBackend =>
    simp only [exec, deleteCreateKeyBackend]
    split <;> exact { heap := hr }
  case recordSessionBackend =>
    simp only [exec, recordSessionBackend]
    split <;> exact { heap := hr }
  case deleteSessionBackend =>
    simp only [exec, deleteSessionBackend]
    split <;> exact { heap := hr }
  case recordTurnBackend =>
    simp only [exec, recordTurnBackend]
    split <;> exact { heap := hr }
  case recordTurn =>
    simp only [exec, recordTurn]
    repeat' split
    all_goals first | exact { heap := hr } | exact { heap := follows_update {} }
  case deleteTurnBackend turn =>
    simp only [exec, deleteTurnBackend]
    split
    case isTrue  => exact { heap := hr }
    case isFalse =>
      refine { heap := fun b => ?_ }
      dsimp only
      split
      case isFalse => exact hr b
      case isTrue  => exact {}
  case recordInteraction =>
    simp only [exec, recordInteraction]
    split <;> exact { heap := hr }
  case deleteInteractionBackend =>
    simp only [exec, deleteInteractionBackend]
    split <;> exact { heap := hr }
  all_goals exact { heap := hr }

section Acquire

theorem available_of_accepts (h : s.backendAcceptsNewWorkLocked b) :
    s.backendAvailableLocked b true := by
  simp only [backendAcceptsNewWorkLocked, backendAvailableLocked, Bool.and_eq_true] at h ⊢
  exact ⟨⟨h.left.left.left.left, rfl⟩, h.left.left.right⟩

theorem mem_of_available (h : s.backendAvailableLocked b allowDraining) :
    b ∈ s.backends ∧ (s.heap b).closed = false := by
  simp only [backendAvailableLocked, Bool.and_eq_true, decide_eq_true_eq, Bool.not_eq_true'] at h
  exact ⟨h.right, h.left.left⟩

theorem available_of_available (h : s.backendAvailableLocked b allowDraining) :
    s.backendAvailableLocked b true := by
  have ⟨hm, hc⟩ := mem_of_available h
  simp [backendAvailableLocked, hm, hc]

theorem accepts_of_pick (h : s.pickReadyBackendLocked = some b) :
    s.backendAcceptsNewWorkLocked b := by
  have hm := List.mem_of_getElem? h
  split at hm
  · exact (List.mem_filter.mp (List.mem_filter.mp hm).left).right
  · exact (List.mem_filter.mp hm).right

-- A backend is acquired or the backends stay as they are.
inductive Acquires (s s' : Pool) (acquired : Option Nat) : Prop
  | held {b : Nat} (available : s.backendAvailableLocked b true) (eq : acquired = some b)
    (heap : s'.heap = (s.hold b).heap)
  | not (eq : acquired = none) (heap : s'.heap = s.heap)

def AcquireResult.backend : AcquireResult → Option Nat
  | acquired b _ => some b
  | _ => none

theorem acquireBackend_acquires :
    s.Acquires (s.acquireBackend policy preferred allowDraining).1
      (s.acquireBackend policy preferred allowDraining).2.backend := by
  simp only [acquireBackend]
  split
  case isTrue => exact .not rfl rfl
  case isFalse =>
    split
    case h_1 b =>
      split
      case isTrue h => exact .held (available_of_available h) rfl rfl
      case isFalse  => exact .not rfl rfl
    case h_2 =>
      split
      case h_1 b h =>
        have ha := available_of_accepts (accepts_of_pick h)
        split <;> exact .held ha rfl rfl
      case h_2 =>
        split <;> exact .not rfl rfl

theorem settleAcquire_acquires :
    s.Acquires (s.settleAcquire started).1
      (if (s.settleAcquire started).2 then started else none) := by
  simp only [settleAcquire]
  split
  case h_1 => exact .not rfl rfl
  case h_2 b =>
    split
    case isTrue h => exact .held (available_of_accepts h) rfl rfl
    case isFalse  => exact .not rfl rfl

theorem preferBackend_acquires :
    s.Acquires (s.preferBackend b allowDraining).1
      (if (s.preferBackend b allowDraining).2 = .acquired then some b else none) := by
  rw [preferBackend]
  split
  case isTrue => exact .not rfl rfl
  case isFalse =>
    split
    case isFalse  => exact .not rfl rfl
    case isTrue h =>
      refine .held ?_ rfl rfl
      simp only [Bool.or_eq_true, Bool.and_eq_true] at h
      rcases h with h | h
      case inl => exact available_of_accepts h
      case inr => exact h.left.left.right

end Acquire
end Pool
end HostedAgents
