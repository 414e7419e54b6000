import GestaltModel.HostedAgents.Theorems.Closing

namespace HostedAgents

open Goroutines Pool

def Within (backends : List Nat) (m : GoMap Nat) : Prop :=
  ∀ k b, m.lookup k = some b → b ∈ backends

namespace Within

variable {l l' : List Nat} {k : String} {b : Nat}

theorem mono (h : Within l m) (hl : l ⊆ l') : Within l' m :=
  fun k b hk => hl (h k b hk)

theorem insert (h : Within l m) (hb : b ∈ l) : Within l (m.insert k b) := by
  intro k' b' hk
  by_cases he : k' = k
  case pos =>
    rw [he, Finmap.lookup_insert] at hk
    exact Option.some.inj hk ▸ hb
  case neg => exact h k' b' (Finmap.lookup_insert_of_ne m he ▸ hk)

theorem erase (h : Within l m) : Within l (m.erase k) :=
  fun k' b' hk => h k' b' (GoMap.lookup_of_lookup_erase hk)

theorem eraseWhere (h : Within l m) : Within (l.erase b) (m.eraseWhere (· = b)) := by
  intro k' b' hk
  rw [GoMap.lookup_eraseWhere, Option.filter_eq_some_iff] at hk
  have hb : b' ≠ b := by simpa using hk.right
  exact (List.mem_erase_of_ne hb).mpr (h k' b' hk.left)

theorem empty : Within l ∅ := by
  intro k b hk
  rw [Finmap.lookup_empty] at hk
  contradiction

end Within

-- No route leads out of the pool, and the live turns of a backend are routed to it.
structure RoutesSound (s : Pool) : Prop where
  sessions : Within s.backends s.sessionBackends
  turns : Within s.backends s.turnBackends
  interactions : Within s.backends s.interactionBackends
  keys : Within s.backends s.createKeyBackends
  live : ∀ b ∈ s.backends, ∀ t ∈ (s.heap b).liveTurns, s.turnBackends.lookup t = some b

-- A turn that is recorded for the backend is not live on another one.
def TurnFree (s : Pool) (turn : String) (b : Nat) : Prop :=
  s.backendAvailableLocked b true → ∀ b' ∈ s.backends, b' ≠ b → turn ∉ (s.heap b').liveTurns

instance {s : Pool} {turn : String} {b : Nat} : Decidable (TurnFree s turn b) :=
  inferInstanceAs <| Decidable (_ → _)

-- A key is claimed for a backend in the pool, and no record takes a live turn from another one.
def Careful : Call → Outcome → Pool → Prop
  | .claimCreateKeyBackend key b, _, s =>
    key ≠ "" → s.createKeyBackends.lookup key = none → b ∈ s.backends
  | .recordTurnBackend turn b, _, s => TurnFree s (Text.trimSpace turn) b
  | .recordTurn turn _ b, _, s => TurnFree s (Text.trimSpace turn) b
  | .recordInteraction _ turn _ _ b, _, s => TurnFree s (Text.trimSpace turn) b
  | _, _, _ => True

instance {policy : LifecyclePolicy} {poolName : String} {n : Nat} {q : Call}
    {o : (system policy poolName n).Oracle} {s : Pool} : Decidable (Careful q o s) := by
  apply @Call.casesOn (fun q => Decidable (Careful q o s)) q <;> intros <;> unfold Careful <;>
    infer_instance

namespace RoutesSound

variable {policy : LifecyclePolicy} {s s' : Pool} {b : Nat}

variable (h : RoutesSound s)
include h

theorem frame (hr : ¬q.Routes) (hc : ¬q.Claims)
    (hs : ∀ b stamp inst, q ≠ .startBackend b stamp inst) : RoutesSound (Pool.exec policy q o s).1 := by
  have hf : s.Follows q (Pool.exec policy q o s).1 := exec_follows hs
  have hb : (Pool.exec policy q o s).1.backends = s.backends :=
    hf.listed (fun _ _ he => hr (he ▸ trivial)) (fun he => hr (he ▸ trivial))
  have ⟨h₁, h₂, h₃⟩ := hf.routes hr
  constructor
  case sessions => exact hb ▸ h₁ ▸ h.sessions
  case turns => exact hb ▸ h₂ ▸ h.turns
  case interactions => exact hb ▸ h₃ ▸ h.interactions
  case keys => exact hb ▸ (hf.claims hc).left ▸ h.keys
  case live =>
    intro b hm t ht
    rw [(hf.heap b).turns hr] at ht
    rw [h₂]
    exact h.live b (hb ▸ hm) t ht

theorem startBackend :
    RoutesSound (s.startBackend policy b stamp inst).1 := by
  rw [Pool.startBackend]
  split
  case isTrue => exact h
  case isFalse =>
    have hl : s.backends ⊆ s.backends ++ [b] := List.subset_append_left ..
    refine ⟨h.sessions.mono hl, h.turns.mono hl, h.interactions.mono hl, h.keys.mono hl, ?_⟩
    intro b' hm t ht
    by_cases hb : b' = b
    case pos =>
      dsimp only at ht
      rw [hb, Function.update_self] at ht
      exact absurd ht (Finset.notMem_empty t)
    case neg =>
      dsimp only at ht
      rw [Function.update_of_ne hb] at ht
      exact h.live b' (by simpa [hb] using hm) t ht

theorem checkDrained (hn : s.backends.Nodup) :
    RoutesSound (s.checkDrained b deadline).1 := by
  rw [Pool.checkDrained]
  split
  case isFalse => exact h
  case isTrue =>
    refine ⟨h.sessions.eraseWhere, h.turns.eraseWhere, h.interactions.eraseWhere, h.keys.eraseWhere, ?_⟩
    intro b' hm t ht
    have hm : b' ≠ b ∧ b' ∈ s.backends := hn.mem_erase_iff.mp hm
    simp only [removeBackendLocked] at ht ⊢
    rw [modify_heap_of_ne hm.left] at ht
    rw [GoMap.lookup_eraseWhere, Pool.modify, h.live b' hm.right t ht]
    simp [Option.filter, hm.left]

theorem claim (hb : key ≠ "" → s.createKeyBackends.lookup key = none → b ∈ s.backends) :
    RoutesSound (s.claimCreateKeyBackend key b).1 := by
  rw [claimCreateKeyBackend]
  split
  case isTrue => exact h
  case isFalse hk =>
    split
    case h_1    => exact h
    case h_2 hl => exact { h with keys := h.keys.insert (hb hk hl) }

theorem live_insert (ht : TurnFree s turn b) (hb : s.backendAvailableLocked b true) :
    ∀ b' ∈ s.backends, ∀ t ∈ (s.heap b').liveTurns,
      (s.turnBackends.insert turn b).lookup t = some b' := by
  intro b' hm t hl
  by_cases he : t = turn
  case neg =>
    rw [Finmap.lookup_insert_of_ne _ he]
    exact h.live b' hm t hl
  case pos =>
    rw [he, Finmap.lookup_insert]
    by_contra hn
    exact ht hb b' hm (fun hb => hn (by rw [hb])) (he ▸ hl)

theorem recordTurnBackend (ht : TurnFree s (Text.trimSpace turn) b) :
    RoutesSound (s.recordTurnBackend turn b) := by
  rw [Pool.recordTurnBackend]
  split
  case isFalse => exact h
  case isTrue hb =>
    exact { h with
      turns := h.turns.insert (mem_of_available hb.right).left
      live  := h.live_insert ht hb.right }

theorem recordTurn {live : Bool}
    (ht : TurnFree s (Text.trimSpace turn) b) : RoutesSound (s.recordTurn turn live b) := by
  rw [Pool.recordTurn]
  dsimp only
  generalize Text.trimSpace turn = turn at ht
  split
  case isTrue => exact h
  case isFalse hn =>
    have hb : s.backendAvailableLocked b true := by
      by_contra hb
      exact hn (.inr hb)
    have hm := (mem_of_available hb).left
    have hl := h.live_insert ht hb
    split
    case isTrue =>
      refine { h with turns := h.turns.insert hm, live := fun b' hm' t ht' => ?_ }
      dsimp only at ht' ⊢
      by_cases hb' : b' = b
      case neg =>
        rw [modify_heap_of_ne hb'] at ht'
        exact hl b' hm' t ht'
      case pos =>
        subst hb'
        rw [modify_heap_self] at ht'
        rcases Finset.mem_insert.mp ht' with rfl | ht'
        case inl => exact Finmap.lookup_insert ..
        case inr => exact hl b' hm' t ht'
    case isFalse =>
      -- The turn is not live on this backend any more, and on no other one.
      have hx : ∀ b' ∈ s.backends, ∀ t ∈ ((s.modify b fun backend =>
          { backend with liveTurns := backend.liveTurns.erase turn }).heap b').liveTurns,
          t ≠ turn ∧ t ∈ (s.heap b').liveTurns := by
        intro b' hm' t ht'
        by_cases hb' : b' = b
        case pos =>
          subst hb'
          rw [modify_heap_self] at ht'
          exact Finset.mem_erase.mp ht'
        case neg =>
          rw [modify_heap_of_ne hb'] at ht'
          exact ⟨fun he => ht hb b' hm' hb' (he ▸ ht'), ht'⟩
      split
      case isTrue =>
        refine { h with turns := h.turns.insert hm, live := fun b' hm' t ht' => ?_ }
        exact hl b' hm' t (hx b' hm' t ht').right
      case isFalse =>
        refine { h with turns := h.turns.erase, live := fun b' hm' t ht' => ?_ }
        obtain ⟨he, ht'⟩ := hx b' hm' t ht'
        dsimp only
        rw [Finmap.lookup_erase_ne he]
        exact h.live b' hm' t ht'

theorem deleteTurnBackend : RoutesSound (s.deleteTurnBackend turn) := by
  rw [Pool.deleteTurnBackend]
  dsimp only
  split
  case isTrue => exact h
  case isFalse =>
    refine { h with turns := h.turns.erase, live := fun b hm t ht => ?_ }
    have hm : b ∈ s.backends := hm
    simp only [hm, if_true] at ht
    obtain ⟨he, ht⟩ := Finset.mem_erase.mp ht
    dsimp only
    rw [Finmap.lookup_erase_ne he]
    exact h.live b hm t ht

theorem recordInteraction {id turn session : String} (ht : TurnFree s (Text.trimSpace turn) b) :
    RoutesSound (s.recordInteraction id turn session settled b) := by
  rw [Pool.recordInteraction]
  dsimp only
  split
  case isTrue => exact h
  case isFalse hn =>
    have hb : s.backendAvailableLocked b true := by
      by_contra hb
      exact hn (.inr hb)
    have hm := (mem_of_available hb).left
    refine ⟨?_, ?_, ?_, h.keys, ?_⟩
    case refine_1 =>
      dsimp only
      split
      case isTrue  => exact h.sessions.insert hm
      case isFalse => exact h.sessions
    case refine_2 =>
      dsimp only
      split
      case isTrue  => exact h.turns.insert hm
      case isFalse => exact h.turns
    case refine_3 =>
      dsimp only
      split
      case isTrue  => exact h.interactions.erase
      case isFalse => exact h.interactions.insert hm
    case refine_4 =>
      dsimp only
      split
      case isTrue  => exact h.live_insert ht hb
      case isFalse => exact h.live

theorem call (hn : s.backends.Nodup) (hg : Careful q o s) :
    RoutesSound (Pool.exec policy q o s).1 := by
  by_cases hq : q.Routes ∨ q.Claims ∨ ∃ b stamp inst, q = .startBackend b stamp inst
  case neg =>
    have ⟨hr, hq⟩ := not_or.mp hq
    have ⟨hc, hs⟩ := not_or.mp hq
    exact h.frame hr hc fun b stamp inst he => hs ⟨b, stamp, inst, he⟩
  case pos =>
    cases q
    case startBackend             => exact h.startBackend
    case checkDrained             => exact h.checkDrained hn
    case endClose                 => exact ⟨.empty, .empty, .empty, .empty, nofun⟩
    case claimCreateKeyBackend    => exact h.claim hg
    case recordTurnBackend        => exact h.recordTurnBackend hg
    case recordTurn               => exact h.recordTurn hg
    case deleteTurnBackend        => exact h.deleteTurnBackend
    case recordInteraction        => exact h.recordInteraction hg
    case deleteCreateKeyBackend   =>
      simp only [Pool.exec, deleteCreateKeyBackend]
      split
      case isTrue  => exact h
      case isFalse => exact { h with keys := h.keys.erase }
    case recordSessionBackend     =>
      simp only [Pool.exec, recordSessionBackend]
      split
      case isTrue hb => exact { h with sessions := h.sessions.insert (mem_of_available hb.right).left }
      case isFalse   => exact h
    case deleteSessionBackend     =>
      simp only [Pool.exec, deleteSessionBackend]
      split
      case isTrue  => exact h
      case isFalse => exact { h with sessions := h.sessions.erase }
    case deleteInteractionBackend =>
      simp only [Pool.exec, deleteInteractionBackend]
      split
      case isTrue  => exact h
      case isFalse => exact { h with interactions := h.interactions.erase }
    all_goals
      rcases hq with hq | hq | ⟨_, _, _, hq⟩
      · exact hq.elim
      · exact hq.elim
      · contradiction

theorem foldl_startInstance (instances : List (Nat × Instance)) :
    RoutesSound (instances.foldl (fun s i => s.startInstance policy i.1 i.2) s) := by
  induction instances generalizing s
  case nil => exact h
  case cons i instances hi =>
    refine hi (startBackend ?_)
    exact ⟨h.sessions, h.turns, h.interactions, h.keys, h.live⟩

omit h in
theorem initial (h : Initial policy poolName n c) :
    RoutesSound c.mem := by
  have hc (now : Int) (instances : List (Nat × Instance)) :
      RoutesSound (construct policy now instances) :=
    foldl_startInstance ⟨.empty, .empty, .empty, .empty, fun _ hb => absurd hb List.not_mem_nil⟩
      instances
  cases h
  case failed now instances _ => exact hc now instances
  case ready now instances _ =>
    have h := hc now instances
    exact ⟨h.sessions, h.turns, h.interactions, h.keys, h.live⟩

end RoutesSound

section Runs

variable {policy : LifecyclePolicy} {poolName : String} {n : Nat} {c c₀ : PoolConfig}

theorem routes_preserved : Preserved (system policy poolName n) Careful (discipline policy)
    Phase.start fun s M => Owned s M ∧ RoutesSound s where
  call _ h ho he hg := ⟨h.left.call ho he, h.right.call h.left.nodup hg⟩
  env a h           := by
    refine ⟨h.left.env a, ?_⟩
    obtain ⟨d, ha⟩ := a.apply_eq _
    change RoutesSound (a.apply _)
    rw [ha]
    exact ⟨h.right.sessions, h.right.turns, h.right.interactions, h.right.keys, h.right.live⟩

-- In a careful run all routes lead to open backends of the pool, and their live turns are routed to
-- them. So a create that meets a claimed key is sent to such a backend.
theorem routes_never_dangle (hi : Initial policy poolName n c₀)
    (hr : Reaches (system policy poolName n) Careful c₀ c) :
    (∀ k b, (c.mem.sessionBackends.lookup k = some b ∨ c.mem.turnBackends.lookup k = some b ∨
      c.mem.interactionBackends.lookup k = some b ∨ c.mem.createKeyBackends.lookup k = some b) →
      b ∈ c.mem.backends ∧ ¬(c.mem.heap b).closed) ∧
    (∀ b ∈ c.mem.backends, ∀ t ∈ (c.mem.heap b).liveTurns, c.mem.turnBackends.lookup t = some b) ∧
    ∀ key b, (c.mem.claimCreateKeyBackend key b).2 ≠ b →
      (c.mem.claimCreateKeyBackend key b).2 ∈ c.mem.backends ∧
      ¬(c.mem.heap (c.mem.claimCreateKeyBackend key b).2).closed := by
  obtain ⟨l, hl, hk, hc⟩ := hi.sound
  have hs : Sound (discipline policy) Phase.Done (fun s M => Owned s M ∧ RoutesSound s) c₀ :=
    ⟨l, hl, hk, hc.owned, .initial hi⟩
  obtain ⟨l, -, -, ho, h⟩ := hs.reaches routes_preserved keeps_body hr
  have hb {b : Nat} (hb : b ∈ c.mem.backends) := And.intro hb (ho.listed b hb).right
  refine ⟨fun k b hk => hb ?_, h.live, fun key b hn => ?_⟩
  case refine_1 =>
    rcases hk with hk | hk | hk | hk
    · exact h.sessions k b hk
    · exact h.turns k b hk
    · exact h.interactions k b hk
    · exact h.keys k b hk
  case refine_2 =>
    rw [claimCreateKeyBackend] at hn ⊢
    split at hn
    case isTrue => exact absurd rfl hn
    case isFalse hk =>
      rw [if_neg hk]
      split at hn
      case h_2          => exact absurd rfl hn
      case h_1 owner hl => exact hb (h.keys key owner hl)

end Runs

def keyedRequest : CreateRequest where
  subjectID := "user:u1"
  idempotencyKey := "k1"
  workspace := false

-- A create that nobody disturbs up to its claim.
theorem routes_never_dangle_demo : ∃ c, Reaches (system singlePolicy "claude" 2) Careful singlePool c ∧
    c.mem.createKeyBackends.lookup keyedRequest.createKey = some 0 ∧ 0 ∈ c.mem.backends := by
  have ⟨c, hr, hk⟩ := Config.exists_reaches_of_run (system singlePolicy "claude" 2) Careful singlePool
    (fun c => c.mem.createKeyBackends.lookup keyedRequest.createKey = some 0)
    [.env (.createSession keyedRequest), .call 0 {}, .call 0 {}, .call 0 {}, .call 0 {},
      .call 0 { session := some none }, .call 0 {}, .call 0 {}, .call 0 {}, .call 0 {}]
    (by decide +kernel)
  have h := (routes_never_dangle singlePool_initial hr).left _ _ (.inr (.inr (.inr hk)))
  exact ⟨c, hr, hk, h.left⟩

def pairPolicy : LifecyclePolicy :=
  { singlePolicy with minReadyInstances := 2, maxReadyInstances := 2 }

def pairPool : PoolConfig where
  mem := { construct pairPolicy 0 [(0, {}), (0, {})] with
    lifecycle := if pairPolicy.restartPolicy = .never then 0 else 1 }
  threads := if pairPolicy.restartPolicy = .never then []
    else [PoolProgram.body pairPolicy "claude" 2 .healthLoop]

theorem pairPool_initial : Initial pairPolicy "claude" 2 pairPool :=
  .ready rfl

-- While a create (thread 0) is about to claim its key, another call (thread 1) cannot refresh the
-- session of the backend. Its replacement (thread 2) waits until the drain timeout and removes the
-- backend. Then the create claims its key for it.
def claimAfterClose : List (Event (system singlePolicy "claude" 2)) :=
  [.env (.createSession keyedRequest), .call 0 {}, .call 0 {}, .call 0 {}, .call 0 {},
    .call 0 { session := some none }, .call 0 {}, .call 0 {}, .call 0 {},
    .env (.createTurn none false), .call 1 {}, .call 1 {}, .call 1 {}, .call 1 {}, .call 1 {},
    .call 1 {}, .call 2 {}, .call 2 { inst := some {} }, .call 2 {}, .call 2 {}, .call 2 {}, .call 2 {},
    .call 2 {}, .call 2 {}, .env (.tick 31000000000), .call 2 {}, .call 0 {}]

-- Two providers that share their store return the same live turn.
def turnOnBoth : List (Event (system pairPolicy "claude" 2)) :=
  [.env (.callBackend (some 0) none), .call 0 {}, .call 0 { result := .ok [.turn "t1" "s1" true] },
    .call 0 {}, .call 0 {}, .call 0 {},
    .env (.callBackend (some 1) none), .call 1 {}, .call 1 { result := .ok [.turn "t1" "s1" true] },
    .call 1 {}, .call 1 {}, .call 1 {}]

theorem routes_can_dangle :
    (∃ c, Reaches (system singlePolicy "claude" 2) always singlePool c ∧ c.mem.closed = false ∧
      c.mem.createKeyBackends.lookup keyedRequest.createKey = some 0 ∧ 0 ∉ c.mem.backends ∧
      (c.mem.heap 0).closed) ∧
    ∃ c, Reaches (system pairPolicy "claude" 2) always pairPool c ∧
      0 ∈ c.mem.backends ∧ "t1" ∈ (c.mem.heap 0).liveTurns ∧
      c.mem.turnBackends.lookup "t1" = some 1 :=
  ⟨Config.exists_reaches_of_run _ always singlePool _ claimAfterClose (by decide +kernel),
    Config.exists_reaches_of_run _ always pairPool _ turnOnBoth (by decide +kernel)⟩

end HostedAgents
