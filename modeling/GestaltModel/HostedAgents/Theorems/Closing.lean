import GestaltModel.HostedAgents.Theorems.Ownership

namespace HostedAgents

open Goroutines Pool
open Function (update_apply update_of_ne)

-- The active calls of a backend are counted right. Nobody has acquired a backend that does not exist.
structure Held (s : Pool) (M : Multiset Phase) : Prop where
  count : ∀ b, (s.heap b).active = tally Phase.holds b M
  absent : ∀ b, (s.heap b).registered = false → (s.heap b).active = 0 ∧ (s.heap b).closed = false

-- When the drain of a backend has begun, and what its deadline is.
def Drain.Timely (policy : LifecyclePolicy) (s : Pool) : Drain → Prop
  | started b => ∃ t ≤ s.now, (s.heap b).closingSince = some t
  | timed b now => ∃ t ≤ now, (s.heap b).closingSince = some t
  | waiting b d => ∃ t, (s.heap b).closingSince = some t ∧
    (t + policy.drainTimeout ≤ d ∨ ∃ e ≤ d, (s.heap b).drainExpiry = some e)
  | _ => True

def Timely (policy : LifecyclePolicy) (s : Pool) (M : Multiset Phase) : Prop :=
  ∀ φ ∈ M, φ.drain.Timely policy s

section Phases

theorem next_holds (hq : ¬q.Holds) (hf : q ≠ .forever) (r : q.Response) :
    ((discipline policy).next φ q r).holds = φ.holds := by
  cases q
  case forever => exact absurd rfl hf
  case acquireBackend => exact absurd trivial hq
  case settleAcquire => exact absurd trivial hq
  case preferBackend => exact absurd trivial hq
  case releaseBackend => exact absurd trivial hq
  all_goals rfl

theorem spawned_holds :
    ∀ φ ∈ startPhases Phase.start (spawns q r), φ.holds = none := by
  intro φ hφ
  obtain ⟨g, -, rfl⟩ := List.mem_map.mp (Multiset.mem_coe.mp hφ)
  cases g <;> rfl

end Phases

namespace Held

theorem congr (h : Held s (φ ::ₘ M)) (hφ : φ'.holds = φ.holds) (hN : ∀ φ ∈ N, φ.holds = none)
    (hf : ∀ b, (s'.heap b).registered = (s.heap b).registered ∧
      (s'.heap b).active = (s.heap b).active ∧
      ((s.heap b).registered = false → (s'.heap b).closed = (s.heap b).closed)) :
    Held s' (φ' ::ₘ (M + N)) := by
  constructor
  case count =>
    intro b
    rw [tally_cons_add hN, tally_cons_congr hφ, (hf b).right.left]
    exact h.count b
  case absent =>
    intro b hr
    rw [(hf b).left] at hr
    rw [(hf b).right.left, (hf b).right.right hr]
    exact h.absent b hr

theorem acquire (h : Held s (φ ::ₘ M)) (hw : Owned s (φ ::ₘ M))
    (hh : φ.holds = none) (hφ : φ'.holds = acquired) (hN : ∀ φ ∈ N, φ.holds = none)
    (ha : s.Acquires s' acquired) : Held s' (φ' ::ₘ (M + N)) := by
  cases ha
  case not he hs =>
    refine h.congr (by rw [hφ, he, hh]) hN fun b => ?_
    rw [hs]
    exact ⟨rfl, rfl, fun _ => rfl⟩
  case held b hb he hs =>
    have hr := (hw.listed b (mem_of_available hb).left).left
    constructor
    case count =>
      intro b'
      have hc := h.count b'
      rw [tally_cons_add hN, hs, Pool.hold]
      simp only [tally_cons, hh, hφ, he, Pool.modify, update_apply] at hc ⊢
      grind
    case absent =>
      intro b'
      have := h.absent b'
      simp only [hs, Pool.hold, Pool.modify, update_apply]
      grind

theorem release (h : Held s (φ ::ₘ M)) (hh : φ.holds = some b) (hφ : φ'.holds = none) :
    Held (s.releaseBackend b) (φ' ::ₘ (M + 0)) := by
  rw [add_zero]
  constructor
  case count =>
    intro b'
    have hc := h.count b'
    simp only [tally_cons, hh, hφ, Pool.releaseBackend, Pool.modify, update_apply] at hc ⊢
    grind
  case absent =>
    intro b'
    have := h.absent b'
    simp only [Pool.releaseBackend, Pool.modify, update_apply]
    grind

theorem startBackend (h : Held s (φ ::ₘ M))
    (hr : (s.heap b).registered = false) (hφ : φ'.holds = φ.holds) :
    Held (s.startBackend policy b stamp inst).1 (φ' ::ₘ (M + 0)) := by
  rw [add_zero, Pool.startBackend]
  have hc (b' : Nat) := h.count b'
  simp only [← tally_cons_congr (f := Phase.holds) hφ] at hc
  split
  case isTrue => exact ⟨hc, h.absent⟩
  case isFalse =>
    constructor
    case count =>
      intro b'
      rw [← hc]
      dsimp only
      by_cases hb : b' = b
      case pos =>
        rw [hb, Function.update_self]
        exact (h.absent b hr).left.symm
      case neg => rw [update_of_ne hb]
    case absent =>
      intro b'
      dsimp only
      by_cases hb : b' = b
      case pos =>
        rw [hb, Function.update_self]
        intro hn
        cases hn
      case neg =>
        rw [update_of_ne hb]
        exact h.absent b'

theorem frame (h : Held s (φ ::ₘ M)) (hw : Owned s (φ ::ₘ M)) (ho : (discipline policy).ok φ q)
    (hq : ¬q.Holds) (hf : q ≠ .forever) :
    After policy φ M q o s Held := by
  have hs : s.Follows q (Pool.exec policy q o s).1 :=
    exec_follows fun _ _ _ he => hq (he ▸ trivial)
  refine h.congr (next_holds hq hf _) spawned_holds fun b => ?_
  refine ⟨(hs.heap b).registered, (hs.heap b).active hq, fun hr => ?_⟩
  by_cases hd : ∃ b' d, q = .checkDrained b' d
  case neg => exact (hs.heap b).marked fun b' d he => hd ⟨b', d, he⟩
  case pos =>
    -- Only a backend that exists is drained.
    obtain ⟨b', d, rfl⟩ := hd
    have ht : φ.target = some b' := by rw [Phase.target, Drain.eq_waiting ho.right.left]; rfl
    have hr' := (hw.custody b').registered_of_target (tally_pos (Multiset.mem_cons_self φ M) ht)
    have hb : b ≠ b' := by
      rintro rfl
      exact absurd (hr.symm.trans hr') (by simp)
    simp only [Pool.exec, checkDrained]
    split
    case isFalse => rfl
    case isTrue  =>
      simp only [removeBackendLocked]
      rw [modify_heap_of_ne hb]

theorem call (h : Held s (φ ::ₘ M)) (hw : Owned s (φ ::ₘ M)) (ho : (discipline policy).ok φ q)
    (he : enabled q s) :
    After policy φ M q o s Held := by
  have hs := ho.left
  have hh := ho.right.right.left
  cases q
  case forever => exact he.elim
  case acquireBackend =>
    refine h.acquire hw hh ?_ spawned_holds acquireBackend_acquires
    simp only [discipline, Pool.exec]
    generalize (s.acquireBackend policy _ _).2 = r
    cases r <;> first | rfl | exact hh
  case settleAcquire started =>
    refine h.acquire hw hh ?_ spawned_holds settleAcquire_acquires
    simp only [discipline, Pool.exec]
    generalize (s.settleAcquire _).2 = r
    cases started <;> cases r <;> first | rfl | exact hh
  case preferBackend =>
    refine h.acquire hw hh ?_ spawned_holds preferBackend_acquires
    simp only [discipline, Pool.exec]
    generalize (s.preferBackend _ _).2 = r
    cases r <;> first | rfl | exact hh
  case releaseBackend b => exact h.release hh rfl
  case startBackend b stamp inst =>
    refine h.startBackend ((hw.custody b).unregistered ?_) rfl
    refine tally_pos (Multiset.mem_cons_self φ M) ?_
    rw [Phase.owns, Slot.eq_launched hs]
    rfl
  all_goals exact h.frame hw ho id (by simp)

theorem add_fresh_iff (hN : ∀ φ ∈ N, φ.Fresh) : Held s (M + N) ↔ Held s M := by
  have ht (b : Nat) : tally Phase.holds b (M + N) = tally Phase.holds b M := by
    rw [tally_add, tally_eq_zero fun φ hφ => (hN φ hφ).holds, Nat.add_zero]
  constructor
  case mp => exact fun h => ⟨fun b => (h.count b).trans (ht b), h.absent⟩
  case mpr => exact fun h => ⟨fun b => (h.count b).trans (ht b).symm, h.absent⟩

theorem env (h : Held s M) (a : Act) : Held (a.apply s) (M + startPhases Phase.start a.enters) := by
  obtain ⟨d, ha⟩ := a.apply_eq s
  rw [add_fresh_iff (entered_fresh a), ha]
  exact ⟨h.count, h.absent⟩

end Held

namespace Timely

variable {φ φ' : Phase}

theorem drain_congr {drain : Drain} (h : drain.Timely policy s) (hn : s.now ≤ s'.now)
    (hs : ∀ b, drain.target = some b → (s'.heap b).closingSince = (s.heap b).closingSince ∧
      (s'.heap b).drainExpiry = (s.heap b).drainExpiry) : drain.Timely policy s' := by
  cases drain
  case started b =>
    obtain ⟨t, ht, hb⟩ := h
    exact ⟨t, ht.trans hn, (hs b rfl).left.trans hb⟩
  case timed b now =>
    obtain ⟨t, ht, hb⟩ := h
    exact ⟨t, ht, (hs b rfl).left.trans hb⟩
  case waiting b d =>
    obtain ⟨t, hb, hd⟩ := h
    refine ⟨t, (hs b rfl).left.trans hb, ?_⟩
    rw [(hs b rfl).right]
    exact hd
  all_goals trivial

theorem of_fresh (h : φ.Fresh) : φ.drain.Timely policy s := by
  rw [h.drain]
  trivial

theorem spawned :
    ∀ φ ∈ startPhases Phase.start (spawns q r), φ.drain.Timely policy s := by
  intro φ hφ
  obtain ⟨g, -, rfl⟩ := List.mem_map.mp (Multiset.mem_coe.mp hφ)
  cases g <;> trivial

-- At most one goroutine drains a backend.
theorem target_ne (hw : Owned s (φ ::ₘ M)) (ht : φ.target = some b) (hψ : ψ ∈ M) :
    ψ.target ≠ some b := by
  intro hb
  have hp := tally_pos hψ hb
  have hc := hw.custody b
  have hr := hc.registered_of_target (tally_pos (Multiset.mem_cons_self φ M) ht)
  have hm := (hc.made hr).right.right.right.left
  rw [tally_cons_of_eq ht] at hm
  split at hm <;> omega

theorem target_ne_of_open (hw : Owned s M) (hb : (s.heap b).registered = false ∨
    (s.heap b).closing = false) (hψ : ψ ∈ M) : ψ.target ≠ some b := by
  intro ht
  have hp := tally_pos hψ ht
  have hc := hw.custody b
  have hr := hc.registered_of_target hp
  have hm := (hc.made hr).right.right.right.left
  rcases hb with hb | hb
  case inl => exact absurd (hb.symm.trans hr) nofun
  case inr =>
    rw [if_neg (by simp [hb])] at hm
    omega

-- The clocks of the backends that others drain are not touched.
theorem clocks (hw : Owned s (φ ::ₘ M)) (ho : (discipline policy).ok φ q) (hψ : ψ ∈ M)
    (hb : ψ.target = some b) :
    ((Pool.exec policy q o s).1.heap b).closingSince = (s.heap b).closingSince ∧
    ((Pool.exec policy q o s).1.heap b).drainExpiry = (s.heap b).drainExpiry := by
  by_cases hs : ∃ b' stamp inst, q = .startBackend b' stamp inst
  case pos =>
    obtain ⟨b', stamp, inst, rfl⟩ := hs
    have hn : b ≠ b' := by
      rintro rfl
      have hu : (s.heap b).registered = false := by
        refine (hw.custody b).unregistered (tally_pos (Multiset.mem_cons_self φ M) ?_)
        rw [Phase.owns, Slot.eq_launched ho.left]
        rfl
      exact target_ne_of_open hw (.inl hu) (Multiset.mem_cons_of_mem hψ) hb
    simp only [Pool.exec, Pool.startBackend]
    split
    case isTrue  => exact ⟨rfl, rfl⟩
    case isFalse =>
      dsimp only
      rw [update_of_ne hn]
      exact ⟨rfl, rfl⟩
  case neg =>
    have hf : (s.heap b).Follows q ((Pool.exec policy q o s).1.heap b) :=
      (exec_follows fun b' stamp inst he => hs ⟨b', stamp, inst, he⟩).heap b
    cases q
    case beginDrain b' =>
      refine ⟨?_, hf.expiry (by simp)⟩
      simp only [Pool.exec, beginDrain]
      split
      case isTrue     => rfl
      case isFalse hg =>
        have hn : b ≠ b' := by
          rintro rfl
          refine target_ne_of_open hw (.inr ?_) (Multiset.mem_cons_of_mem hψ) hb
          simpa using fun hc => hg (.inr (.inr hc))
        dsimp only
        rw [modify_heap_of_ne hn]
    case drainDeadline b' now =>
      refine ⟨hf.since (by simp), ?_⟩
      have hn : b ≠ b' := by
        rintro rfl
        refine target_ne hw ?_ hψ hb
        rw [Phase.target, Drain.eq_timed ho.right.left]
        rfl
      simp only [Pool.exec, drainDeadline]
      rw [modify_heap_of_ne hn]
    all_goals exact ⟨hf.since (by simp), hf.expiry (by simp)⟩

theorem exec_now : (Pool.exec policy q o s).1.now = s.now := by
  by_cases hs : ∃ b stamp inst, q = .startBackend b stamp inst
  case neg => exact (exec_follows fun b stamp inst he => hs ⟨b, stamp, inst, he⟩).now
  case pos =>
    obtain ⟨b, stamp, inst, rfl⟩ := hs
    simp only [Pool.exec, Pool.startBackend]
    split <;> rfl

theorem next (h : φ.drain.Timely policy s) (ho : (discipline policy).ok φ q) (he : enabled q s) :
    ((discipline policy).next φ q (Pool.exec policy q o s).2).drain.Timely policy
      (Pool.exec policy q o s).1 := by
  have hd := ho.right.left
  by_cases hq : q.Drains
  case neg =>
    have hn : φ.drain.next q (Pool.exec policy q o s).2 = φ.drain := by
      cases q <;> first | rfl | exact he.elim | exact absurd trivial hq
    have hf : φ.drain = .none := by
      generalize φ.drain = drain at hd
      cases drain
      case none    => rfl
      case waiting =>
        rcases hd with rfl | rfl
        case inl => exact absurd trivial hq
        case inr => exact he.elim
      all_goals
        cases hd
        exact absurd trivial hq
    change (φ.drain.next q _).Timely policy _
    rw [hn, hf]
    trivial
  case pos =>
    cases q <;> try exact hq.elim
    case closeProvider => trivial
    case beginDrain b =>
      simp only [discipline, Pool.exec, beginDrain]
      split
      case isTrue  => trivial
      case isFalse =>
        refine ⟨s.now, le_rfl, ?_⟩
        dsimp only
        rw [modify_heap_self]
    case drainClock b =>
      rw [Drain.eq_started hd] at h
      exact h
    case drainDeadline b now =>
      rw [Drain.eq_timed hd] at h
      obtain ⟨t, ht, hb⟩ := h
      simp only [discipline, Drain.next, Drain.Timely, Pool.exec, drainDeadline,
        modify_heap_self]
      refine ⟨t, hb, ?_⟩
      cases hx : (s.heap b).forceCloseAt
      case none   => exact .inl (by dsimp only; omega)
      case some e =>
        dsimp only
        split
        case isTrue  => exact .inr ⟨e, le_rfl, rfl⟩
        case isFalse => exact .inl (by omega)
    case checkDrained b d =>
      simp only [discipline, Pool.exec, checkDrained]
      split
      case isTrue  => trivial
      case isFalse => exact h

theorem call (h : Timely policy s (φ ::ₘ M)) (hw : Owned s (φ ::ₘ M))
    (ho : (discipline policy).ok φ q) (he : enabled q s) :
    After policy φ M q o s (Timely policy) := by
  refine forall_mem_next (next (h φ (Multiset.mem_cons_self φ M)) ho he) (fun ψ hψ => ?_) spawned
  refine drain_congr (h ψ (Multiset.mem_cons_of_mem hψ)) exec_now.ge fun b hb => ?_
  exact clocks hw ho hψ hb

theorem env (h : Timely policy s M) (a : Act) :
    Timely policy (a.apply s) (M + startPhases Phase.start a.enters) := by
  intro φ hφ
  rcases Multiset.mem_add.mp hφ with hφ | hφ
  case inr => exact of_fresh (entered_fresh a φ hφ)
  case inl =>
    obtain ⟨d, ha⟩ := a.apply_eq s
    rw [ha]
    exact drain_congr (h φ hφ) (Int.le_add_of_nonneg_right (Int.natCast_nonneg d)) fun _ _ => ⟨rfl, rfl⟩

end Timely

structure Closing (policy : LifecyclePolicy) (s : Pool) (M : Multiset Phase) : Prop where
  owned : Owned s M
  held : Held s M
  timely : Timely policy s M

section Runs

variable {policy : LifecyclePolicy} {poolName : String} {n : Nat} {c c' c₀ : PoolConfig}
variable {guard : Call → Outcome → Pool → Prop}

theorem Closing.call (h : Closing policy s (φ ::ₘ M))
    (ho : (discipline policy).ok φ q) (he : enabled q s) :
    After policy φ M q o s (Closing policy) :=
  ⟨h.owned.call ho he, h.held.call h.owned ho he, h.timely.call h.owned ho he⟩

theorem Closing.env (h : Closing policy s M) (a : Act) :
    Closing policy (a.apply s) (M + startPhases Phase.start a.enters) :=
  ⟨h.owned.env a, h.held.env a, h.timely.env a⟩

theorem closing_preserved :
    Preserved (system policy poolName n) guard (discipline policy) Phase.start (Closing policy) where
  call _ h ho he _ := h.call ho he
  env a h          := h.env a

structure Unused (s : Pool) : Prop where
  opened : s.closed = false
  backends : s.backends = List.range s.launched
  flags : ∀ b, ((s.heap b).registered ↔ b < s.launched) ∧ (s.heap b).closing = false ∧
    (s.heap b).closed = false ∧ (s.heap b).active = 0
  closes : ∀ b, s.closes b = 0

namespace Unused

theorem start (h : Unused s) (d : Nat) (inst : Instance) :
    Unused (s.startInstance policy d inst) := by
  rw [startInstance, Pool.startBackend, if_neg (by simp [launch, h.opened])]
  refine ⟨h.opened, ?_, fun b => ?_, h.closes⟩
  case refine_1 =>
    change s.backends ++ [s.launched] = List.range (s.launched + 1)
    rw [h.backends, List.range_succ]
  case refine_2 =>
    have := h.flags b
    simp only [launch, update_apply]
    split
    case isTrue hb  => exact ⟨by simp [newBackend, hb], rfl, rfl, rfl⟩
    case isFalse hb => exact ⟨this.left.trans (by omega), this.right⟩

theorem foldl_startInstance (h : Unused s) (instances : List (Nat × Instance)) :
    Unused (instances.foldl (fun s i => s.startInstance policy i.1 i.2) s) := by
  induction instances generalizing s
  case nil => exact h
  case cons i instances hi => exact hi (h.start i.1 i.2)

theorem construct (now : Int) (instances : List (Nat × Instance)) :
    Unused (construct policy now instances) :=
  foldl_startInstance ⟨rfl, rfl, fun _ => ⟨by simp, rfl, rfl, rfl⟩, fun _ => rfl⟩ instances

theorem owned (h : Unused s) : Owned s 0 where
  nodup := h.backends ▸ List.nodup_range
  listed b hb := by
    rw [h.backends, List.mem_range] at hb
    have := h.flags b
    simp [this, hb]
  custody b   := by
    have := h.flags b
    constructor
    case unmade =>
      intro hr
      have hb : ¬b < s.launched := by simp [← this.left, hr]
      simp [tally, hb, h.closes]
    case made =>
      intro hr
      simp [tally, this.left.mp hr, h.closes, this.right]
  awaited hs  := absurd (h.opened.symm.trans hs) nofun
  opened _ b  := by
    have := h.flags b
    simp [this, h.backends]
  shut := forall_mem_zero

theorem held (h : Unused s) : Held s 0 where
  count b    := (h.flags b).right.right.right
  absent b _ := ⟨(h.flags b).right.right.right, (h.flags b).right.right.left⟩

theorem closing (h : Unused s) (hg : ∀ b, .drain b ∉ gs) :
    Closing policy s (startPhases Phase.start gs) := by
  have hf : ∀ φ ∈ startPhases Phase.start gs, φ.Fresh := by
    intro φ hφ
    obtain ⟨g, hm, rfl⟩ := List.mem_map.mp (Multiset.mem_coe.mp hφ)
    exact Phase.start_fresh fun b he => hg b (he ▸ hm)
  rw [← zero_add (startPhases Phase.start gs)]
  refine ⟨(Owned.add_fresh_iff hf).mpr h.owned, (Held.add_fresh_iff hf).mpr h.held, fun φ hφ => ?_⟩
  rw [zero_add] at hφ
  exact Timely.of_fresh (hf φ hφ)

end Unused

theorem Initial.unused (h : Initial policy poolName n c) :
    Unused c.mem ∧ ∃ gs : List Goroutine, (∀ b, .drain b ∉ gs) ∧
      c.threads = gs.map (PoolProgram.body policy poolName n) := by
  cases h
  case failed now instances _ =>
    exact ⟨.construct now instances, [.close], by simp, rfl⟩
  case ready now instances _ =>
    have hu : Unused (construct policy now instances) := .construct now instances
    refine ⟨⟨hu.opened, hu.backends, hu.flags, hu.closes⟩, ?_⟩
    dsimp only
    split
    case isTrue  => exact ⟨[], by simp, rfl⟩
    case isFalse => exact ⟨[.healthLoop], by simp, rfl⟩

theorem Initial.sound (h : Initial policy poolName n c) :
    Sound (discipline policy) Phase.Done (Closing policy) c := by
  obtain ⟨hu, gs, hg, ht⟩ := h.unused
  obtain ⟨s, threads⟩ := c
  dsimp only at hu ht
  rw [ht]
  exact Sound.of_start (m := system policy poolName n) keeps_body (hu.closing hg)

theorem sound_of_reaches (hi : Initial policy poolName n c₀)
    (h : Reaches (system policy poolName n) guard c₀ c) :
    Sound (discipline policy) Phase.Done (Closing policy) c :=
  hi.sound.reaches closing_preserved keeps_body h

-- The time for the drain of the backend is over, or its session has expired.
def Overdue (policy : LifecyclePolicy) (s : Pool) (b : Nat) : Prop :=
  (∃ t, (s.heap b).closingSince = some t ∧ t + policy.drainTimeout < s.now) ∨
  ∃ e, (s.heap b).drainExpiry = some e ∧ e < s.now

-- The goroutine is done, or it is neither in a start nor in a drain.
def Settled : PoolProgram Unit → Prop
  | .ret _ => True
  | .call .forever _ => False
  | .call q _ => ¬q.Starts ∧ ¬q.Drains

theorem Settled.phase (h : Settled p) (hk : (discipline policy).Keeps (fun _ => Phase.Done) p φ) :
    φ.owns = none ∧ φ.closes = none ∧ φ.target = none ∧ φ.awaits = none := by
  have hp : φ.slot = .free ∧ φ.drain = .none := by
    cases p
    case ret => exact ⟨hk.left, hk.right.right.left⟩
    case call q k =>
      obtain ⟨⟨hs, hd, -⟩, -⟩ := hk
      have hq : ¬q.Starts ∧ ¬q.Drains ∧ q ≠ .forever := by
        cases q <;> first | exact h.elim | exact ⟨h.left, h.right, nofun⟩
      refine ⟨Slot.eq_free hs hq.left, ?_⟩
      generalize φ.drain = drain at hd
      cases drain
      case none    => rfl
      case waiting =>
        rcases hd with rfl | rfl
        case inl => exact absurd trivial hq.right.left
        case inr => exact absurd rfl hq.right.right
      all_goals
        cases hd
        exact absurd trivial hq.right.left
  rw [Phase.owns, Phase.closes, Phase.target, Phase.awaits, hp.left, hp.right]
  exact ⟨rfl, rfl, rfl, rfl⟩

theorem Owned.closes_eq_one (h : Owned s M) (hc : s.closed)
    (hM : ∀ φ ∈ M, φ.owns = none ∧ φ.closes = none ∧ φ.target = none ∧ φ.awaits = none)
    (hb : b < s.launched) : s.closes b = 1 := by
  have h₁ : tally Phase.owns b M = 0 := tally_eq_zero fun φ hφ => (hM φ hφ).left
  have h₂ : tally Phase.closes b M = 0 := tally_eq_zero fun φ hφ => (hM φ hφ).right.left
  have h₃ : tally Phase.target b M = 0 := tally_eq_zero fun φ hφ => (hM φ hφ).right.right.left
  have h₄ : tally Phase.awaits b M = 0 := tally_eq_zero fun φ hφ => (hM φ hφ).right.right.right
  cases hr : (s.heap b).registered
  case false =>
    have hu := ((h.custody b).unmade hr).left
    rwa [h₁, if_pos hb] at hu
  case true =>
    have ⟨_, _, hs, ht, _⟩ := (h.custody b).made hr
    have hg : (s.heap b).closing := by
      by_contra hg
      exact absurd h₄ (h.awaited hc b hr hg).ne'
    have hd : (s.heap b).closed := by
      by_contra hd
      rw [h₃, if_pos ⟨hg, hd⟩] at ht
      exact absurd ht nofun
    rwa [h₂, if_pos hd] at hs

theorem Owned.closes_le_one (h : Owned s M) (b : Nat) :
    s.closes b ≤ 1 := by
  cases hr : (s.heap b).registered
  case false =>
    have hu := ((h.custody b).unmade hr).left
    split at hu <;> omega
  case true =>
    have hs := ((h.custody b).made hr).right.right.left
    split at hs <;> omega

theorem Closing.marked (h : Closing policy s (φ ::ₘ M))
    (ho : (discipline policy).ok φ q) (hc : ¬(s.heap b).closed)
    (hc' : ((Pool.exec policy q o s).1.heap b).closed) :
    ((s.heap b).active = 0 ∧ (s.heap b).liveTurns = ∅) ∨ Overdue policy s b := by
  by_cases hq : ∃ b' d, q = .checkDrained b' d
  case pos =>
    obtain ⟨b', d, rfl⟩ := hq
    have hd := Drain.eq_waiting ho.right.left
    have ht := h.timely φ (Multiset.mem_cons_self φ M)
    rw [hd] at ht
    obtain ⟨t, hs, ht⟩ := ht
    simp only [Pool.exec, checkDrained] at hc'
    split at hc'
    case isFalse => exact absurd hc' hc
    case isTrue hx =>
      have hb : b = b' := by
        by_contra hb
        simp only [removeBackendLocked] at hc'
        rw [modify_heap_of_ne hb] at hc'
        exact hc hc'
      subst hb
      rcases hx with hx | hx
      case inl => exact .inl hx
      case inr =>
        rcases ht with ht | ⟨e, he, hs'⟩
        case inl => exact .inr (.inl ⟨t, hs, by omega⟩)
        case inr => exact .inr (.inr ⟨e, hs', by omega⟩)
  case neg =>
    refine absurd hc' ?_
    by_cases hs : ∃ b' stamp inst, q = .startBackend b' stamp inst
    case neg =>
      have hf : (s.heap b).Follows q ((Pool.exec policy q o s).1.heap b) :=
        (exec_follows fun b' stamp inst he => hs ⟨b', stamp, inst, he⟩).heap b
      rw [hf.marked fun b' d he => hq ⟨b', d, he⟩]
      exact hc
    case pos =>
      obtain ⟨b', stamp, inst, rfl⟩ := hs
      simp only [Pool.exec, Pool.startBackend]
      split
      case isTrue  => exact hc
      case isFalse =>
        simp only [update_apply]
        split
        case isTrue  => exact Bool.false_ne_true
        case isFalse => exact hc

theorem Closing.stays_closed (h : Closing policy s (φ ::ₘ M))
    (ho : (discipline policy).ok φ q) (hc : (s.heap b).closed) :
    ((Pool.exec policy q o s).1.heap b).closed ∧
      ((Pool.exec policy q o s).1.heap b).active ≤ (s.heap b).active := by
  have ha {s' : Pool} {acquired : Option Nat} (h : s.Acquires s' acquired) : s'.heap b = s.heap b := by
    cases h
    case not hs => rw [hs]
    case held b' hb _ hs =>
      have hn : b ≠ b' := by
        rintro rfl
        exact absurd ((mem_of_available hb).right.symm.trans hc) nofun
      rw [hs, Pool.hold, modify_heap_of_ne hn]
  by_cases hq : q.Holds
  case neg =>
    have hn : ∀ b stamp inst, q ≠ .startBackend b stamp inst := fun _ _ _ he => hq (he ▸ trivial)
    have hf : (s.heap b).Follows q ((Pool.exec policy q o s).1.heap b) := (exec_follows hn).heap b
    exact ⟨hf.closed hc, (hf.active hq).le⟩
  case pos =>
    cases q <;> try exact hq.elim
    case acquireBackend preferred allowDraining =>
      have he : (Pool.exec policy (.acquireBackend preferred allowDraining) o s).1.heap b = s.heap b :=
        ha acquireBackend_acquires
      rw [he]
      exact ⟨hc, le_rfl⟩
    case settleAcquire started =>
      have he : (Pool.exec policy (.settleAcquire started) o s).1.heap b = s.heap b :=
        ha settleAcquire_acquires
      rw [he]
      exact ⟨hc, le_rfl⟩
    case preferBackend b' allowDraining =>
      have he : (Pool.exec policy (.preferBackend b' allowDraining) o s).1.heap b = s.heap b :=
        ha preferBackend_acquires
      rw [he]
      exact ⟨hc, le_rfl⟩
    case releaseBackend b' =>
      simp only [Pool.exec, Pool.releaseBackend, Pool.modify, update_apply]
      split
      case isTrue he => exact he ▸ ⟨hc, Nat.sub_le _ _⟩
      case isFalse   => exact ⟨hc, le_rfl⟩
    case startBackend b' stamp inst =>
      have hr : (s.heap b').registered = false := by
        refine (h.owned.custody b').unregistered (tally_pos (Multiset.mem_cons_self φ M) ?_)
        rw [Phase.owns, Slot.eq_launched ho.left]
        rfl
      have hn : b ≠ b' := by
        rintro rfl
        exact absurd ((h.held.absent b hr).right.symm.trans hc) nofun
      simp only [Pool.exec, Pool.startBackend]
      split
      case isTrue  => exact ⟨hc, le_rfl⟩
      case isFalse =>
        dsimp only
        rw [update_of_ne hn]
        exact ⟨hc, le_rfl⟩

theorem act_heap (a : Act) : (a.apply s).heap = s.heap := by
  obtain ⟨d, hd⟩ := a.apply_eq s
  rw [hd]

-- Every provider is closed at most once, only when its backend is drained or overdue, and exactly
-- once when the pool is closed and no start or drain is left.
theorem closed_once_when_drained (hi : Initial policy poolName n c₀)
    (hr : Reaches (system policy poolName n) guard c₀ c) :
    (∀ b, c.mem.closes b ≤ 1) ∧
    (∀ c', Step (system policy poolName n) guard c c' → ∀ b,
      (¬(c.mem.heap b).closed → (c'.mem.heap b).closed →
        ((c.mem.heap b).active = 0 ∧ (c.mem.heap b).liveTurns = ∅) ∨ Overdue policy c.mem b) ∧
      ((c.mem.heap b).closed → (c'.mem.heap b).closed ∧
        (c'.mem.heap b).active ≤ (c.mem.heap b).active)) ∧
    Sound (discipline policy) Phase.Done
      (fun s M => ∀ b, (s.heap b).active = tally Phase.holds b M) c ∧
    (c.mem.closed → (∀ p ∈ c.threads, Settled p) → ∀ b < c.mem.launched, c.mem.closes b = 1) := by
  have hs := sound_of_reaches hi hr
  obtain ⟨l, hl, hk, hc⟩ := id hs
  refine ⟨hc.owned.closes_le_one, fun c' e b => ⟨fun h => ?_, fun h => ?_⟩, ?_, fun h hp b hb => ?_⟩
  case refine_1 =>
    refine hs.step_cases (P := fun s s' => (s'.heap b).closed → ((s.heap b).active = 0 ∧
      (s.heap b).liveTurns = ∅) ∨ Overdue policy s b) e ?_ ?_
    · exact fun o hc ho _ _ => hc.marked ho h
    · intro _ a _ ha
      have he := congrArg (fun heap => (heap b).closed) (act_heap (s := c.mem) a)
      exact absurd (he.symm.trans ha) h
  case refine_2 =>
    refine hs.step_cases (P := fun s s' => (s'.heap b).closed ∧
      (s'.heap b).active ≤ (s.heap b).active) e ?_ ?_
    · exact fun o hc ho _ _ => hc.stays_closed ho h
    · intro _ a _
      have he := congrArg (fun heap => heap b) (act_heap (s := c.mem) a)
      exact ⟨(congrArg Backend.closed he).trans h, (congrArg Backend.active he).le⟩
  case refine_3 => exact ⟨l, hl, hk, hc.held.count⟩
  case refine_4 =>
    refine hc.owned.closes_eq_one h (fun φ hφ => ?_) hb
    obtain ⟨t, ht, rfl⟩ := List.mem_map.mp (Multiset.mem_coe.mp hφ)
    exact (hp t.1 (hl ▸ List.mem_map_of_mem ht)).phase (hk t ht)

-- While the pool is open and nothing is started or drained, every instance is in it or closed.
theorem launched_kept_or_closed (hi : Initial policy poolName n c₀)
    (hr : Reaches (system policy poolName n) guard c₀ c) (ho : ¬c.mem.closed)
    (hp : ∀ p ∈ c.threads, Settled p) (hb : b < c.mem.launched) :
    c.mem.closes b = if b ∈ c.mem.backends then 0 else 1 := by
  obtain ⟨l, hl, hk, ⟨hw, -, -⟩⟩ := sound_of_reaches hi hr
  have hM : ∀ φ ∈ phases l, φ.owns = none ∧ φ.closes = none := by
    intro φ hφ
    obtain ⟨t, ht, rfl⟩ := List.mem_map.mp (Multiset.mem_coe.mp hφ)
    exact ((hp t.1 (hl ▸ List.mem_map_of_mem ht)).phase (hk t ht)).imp_right And.left
  by_cases hm : b ∈ c.mem.backends
  case pos =>
    obtain ⟨hg, hc⟩ := hw.listed b hm
    have hs := ((hw.custody b).made hg).right.right.left
    rw [if_neg hc] at hs
    rw [if_pos hm]
    exact Nat.eq_zero_of_add_eq_zero_right hs
  case neg =>
    rw [if_neg hm]
    cases hg : (c.mem.heap b).registered
    case false =>
      have hu := ((hw.custody b).unmade hg).left
      rwa [tally_eq_zero fun φ hφ => (hM φ hφ).left, if_pos hb] at hu
    case true =>
      have hs := ((hw.custody b).made hg).right.right.left
      have hc := not_imp_comm.mp (hw.opened ho b hg) hm
      rwa [tally_eq_zero fun φ hφ => (hM φ hφ).right, if_pos hc] at hs

end Runs

instance : DecidablePred Settled
  | .ret _ => inferInstanceAs <| Decidable True
  | .call q k => by
    revert k
    apply @Call.casesOn
      (fun q => (k : q.Response → PoolProgram Unit) → Decidable (Settled (.call q k))) q <;> intros <;> unfold Settled <;> infer_instance

def singlePolicy : LifecyclePolicy where
  minReadyInstances := 1
  maxReadyInstances := 1
  startupTimeout := 60 * Time.second
  healthCheckInterval := 10 * Time.second
  restartPolicy := .never
  drainTimeout := 30 * Time.second

def singlePool : PoolConfig where
  mem := { construct singlePolicy 0 [(0, {})] with
    lifecycle := if singlePolicy.restartPolicy = .never then 0 else 1 }
  threads := if singlePolicy.restartPolicy = .never then []
    else [PoolProgram.body singlePolicy "claude" 2 .healthLoop]

theorem singlePool_initial : Initial singlePolicy "claude" 2 singlePool :=
  .ready rfl

abbrev always : Call → Outcome → Pool → Prop :=
  fun _ _ _ => True

-- `Close` drains the one backend and waits for that.
theorem closed_once_when_drained_demo :
    ∃ c, Reaches (system singlePolicy "claude" 2) always singlePool c ∧ c.mem.closed ∧ c.mem.launched = 1 ∧ c.mem.closes 0 = 1 := by
  have ⟨c, hr, hc, hp, hl⟩ := Config.exists_reaches_of_run (system singlePolicy "claude" 2) always
    singlePool (fun c => c.mem.closed ∧ (∀ p ∈ c.threads, Settled p) ∧ c.mem.launched = 1)
    [.env .close, .call 0 {}, .call 1 {}, .call 1 {}, .call 1 {}, .call 1 {}, .call 1 {}, .call 1 {},
      .call 0 {}, .call 0 {}, .call 0 {}] (by decide +kernel)
  have h := (closed_once_when_drained singlePool_initial hr).right.right.right hc hp 0 (by omega)
  exact ⟨c, hr, hc, hl, h⟩

-- The runtime session of the first backend cannot be read, so that a new turn has it replaced: an
-- instance is launched and kept, and the first one is drained and closed.
theorem launched_kept_demo : ∃ c, Reaches (system singlePolicy "claude" 2) always singlePool c ∧
    ¬c.mem.closed ∧ c.mem.launched = 2 ∧ c.mem.closes 0 = 1 ∧ c.mem.closes 1 = 0 := by
  obtain ⟨c, hr, ho, hp, hl, hb⟩ := Config.exists_reaches_of_run (system singlePolicy "claude" 2) always
    singlePool
    (fun c => ¬c.mem.closed ∧ (∀ p ∈ c.threads, Settled p) ∧ c.mem.launched = 2 ∧ c.mem.backends = [1])
    [.env (.createTurn none false), .call 0 {}, .call 0 {}, .call 0 {}, .call 0 {}, .call 0 {},
      .call 0 {}, .call 0 {}, .call 0 { canceled := true }, .call 1 {}, .call 1 { inst := some {} },
      .call 1 {}, .call 1 {}, .call 1 {}, .call 1 {}, .call 1 {}, .call 1 {}, .call 1 {}, .call 1 {},
      .call 1 {}] (by decide +kernel)
  have h := fun b => launched_kept_or_closed (b := b) singlePool_initial hr ho hp
  rw [hl, hb] at h
  exact ⟨c, hr, ho, hl, h 0 (by decide), h 1 (by decide)⟩

end HostedAgents
