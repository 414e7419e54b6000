import GestaltModel.HostedAgents.Theorems.Reports

namespace HostedAgents

open Goroutines Pool Slot

-- Starts are counted, and what is ready or can get ready is within the limits.
structure Capacity (policy : LifecyclePolicy) (s : Pool) (M : Multiset Phase) : Prop where
  counted : s.starting = M.countP (·.slot ≠ .free)
  bounded : s.readyCount + M.countP (·.slot.Pending) ≤
    max policy.minReadyInstances policy.maxReadyInstances

namespace Pool

variable {policy : LifecyclePolicy} {s s' : Pool} {b : Nat} {q : Call}

theorem accepts_iff : s.backendAcceptsNewWorkLocked b ↔
    b ∈ s.backends ∧ ¬(s.heap b).closed ∧ ¬(s.heap b).draining ∧ ¬(s.heap b).closing ∧
    (∀ t, (s.heap b).runtimeDrainAt = some t → s.now < t) ∧
    ¬Incompatible (s.heap b).runtimeSession := by
  simp only [backendAcceptsNewWorkLocked, backendAvailableLocked, backendRuntimeDrainDueLocked,
    backendRuntimeSessionStaleLocked, Bool.and_eq_true, Bool.not_eq_true', Bool.or_eq_false_iff,
    Bool.false_or, decide_eq_true_eq, decide_eq_false_iff_not, Option.any_eq_false, not_le,
    Bool.not_eq_true]
  tauto

theorem Follows.accepts (h : s.Follows q s')
    (hi : Incompatible (s.heap b).runtimeSession → Incompatible (s'.heap b).runtimeSession)
    (ha : s'.backendAcceptsNewWorkLocked b) : s.backendAcceptsNewWorkLocked b := by
  obtain ⟨hm, hc, hd, hg, ht, hs⟩ := accepts_iff.mp ha
  have hb := h.heap b
  refine accepts_iff.mpr ⟨h.sublist.mem hm, mt hb.closed hc, mt hb.draining hd, mt hb.closing hg, ?_,
    mt hi hs⟩
  intro t he
  obtain ⟨t', hle, he'⟩ := hb.drainAt t he
  exact h.now ▸ (ht t' he').trans_le hle

theorem accepts_of_tick {d : Nat}
    (h : { s with now := s.now + d }.backendAcceptsNewWorkLocked b) :
    s.backendAcceptsNewWorkLocked b := by
  obtain ⟨hm, hc, hd, hg, ht, hs⟩ := accepts_iff.mp h
  refine accepts_iff.mpr ⟨hm, hc, hd, hg, fun t he => ?_, hs⟩
  have : s.now + d < t := ht t he
  omega

theorem readyCount_le (hs : s'.backends.Sublist s.backends)
    (ha : ∀ b ∈ s'.backends, s'.backendAcceptsNewWorkLocked b → s.backendAcceptsNewWorkLocked b) :
    s'.readyCount ≤ s.readyCount :=
  calc s'.backends.countP s'.backendAcceptsNewWorkLocked
    _ ≤ s'.backends.countP s.backendAcceptsNewWorkLocked := List.countP_mono_left ha
    _ ≤ s.backends.countP s.backendAcceptsNewWorkLocked  := hs.countP_le

theorem readyCount_startBackend (hn : b ∉ s.backends) (stamp : Nat) (inst : Instance) :
    (s.startBackend policy b stamp inst).1.readyCount ≤
      s.readyCount + if (s.startBackend policy b stamp inst).2 then 1 else 0 := by
  rw [startBackend]
  split
  case isTrue => exact Nat.le_add_right ..
  case isFalse =>
    rw [readyCount, List.countP_append]
    refine Nat.add_le_add (List.countP_mono_left fun b' hb' ha => ?_) (List.countP_le_length)
    have he : b' ≠ b := by
      rintro rfl
      exact hn hb'
    rw [accepts_iff] at ha ⊢
    dsimp only at ha
    rw [Function.update_of_ne he] at ha
    exact ⟨hb', ha.right⟩

def AcquireResult.reserves : AcquireResult → Bool
  | .start => true
  | .acquired _ true => true
  | _ => false

theorem canScaleOut_lt (h : s.canScaleOutLocked policy) :
    s.readyCount + s.starting < max policy.minReadyInstances policy.maxReadyInstances := by
  simp only [canScaleOutLocked, Bool.and_eq_true, decide_eq_true_eq] at h
  exact lt_max_of_lt_right h.right

theorem acquireBackend_reserves :
    (s.acquireBackend policy preferred allowDraining).1.starting =
      s.starting + (s.acquireBackend policy preferred allowDraining).2.reserves.toNat ∧
    ((s.acquireBackend policy preferred allowDraining).2.reserves →
      s.readyCount + s.starting < max policy.minReadyInstances policy.maxReadyInstances) := by
  simp only [acquireBackend]
  split
  case isTrue => exact ⟨rfl, by simp [AcquireResult.reserves]⟩
  case isFalse =>
    split
    case h_1 => split <;> exact ⟨rfl, by simp [AcquireResult.reserves]⟩
    case h_2 =>
      split
      case h_1 =>
        split
        case isTrue h => exact ⟨rfl, fun _ => canScaleOut_lt h.right⟩
        case isFalse  => exact ⟨rfl, by simp [AcquireResult.reserves]⟩
      case h_2 =>
        split
        case isTrue h => exact ⟨rfl, fun _ => canScaleOut_lt h⟩
        case isFalse  => exact ⟨rfl, by simp [AcquireResult.reserves]⟩

end Pool

namespace Capacity

variable {policy : LifecyclePolicy} {s s' : Pool} {M N : Multiset Phase} {φ φ' : Phase}

theorem pending_le : M.countP (·.slot.Pending) ≤ M.countP (·.slot ≠ .free) := by
  induction M using Multiset.induction
  case empty => exact le_rfl
  case cons φ M hi =>
    have hp : φ.slot.Pending → φ.slot ≠ .free := fun h he => by rwa [he] at h
    rw [Multiset.countP_cons, Multiset.countP_cons]
    split <;> split <;> first | omega | exact absurd (hp ‹_›) ‹_›

theorem move (h : Capacity policy s (φ ::ₘ M)) (hN : ∀ ψ ∈ N, ψ.slot = .free)
    (hr : s'.readyCount + (if φ'.slot.Pending then 1 else 0) ≤
      s.readyCount + if φ.slot.Pending then 1 else 0)
    (hs : s'.starting + (if φ.slot ≠ .free then 1 else 0) =
      s.starting + if φ'.slot ≠ .free then 1 else 0) : Capacity policy s' (φ' ::ₘ (M + N)) := by
  have h₁ : N.countP (·.slot ≠ .free) = 0 :=
    Multiset.countP_eq_zero.mpr fun ψ hψ => not_not.mpr (hN ψ hψ)
  have h₂ : N.countP (·.slot.Pending) = 0 :=
    Multiset.countP_eq_zero.mpr fun ψ hψ => hN ψ hψ ▸ id
  have ⟨hc, hb⟩ := h
  rw [Multiset.countP_cons] at hc hb
  constructor
  all_goals
    rw [Multiset.countP_cons, Multiset.countP_add]
    omega

-- A goroutine reserves a start, for itself or for another one.
theorem reserve (h : Capacity policy s (φ ::ₘ M)) (hf : φ.slot = .free)
    (hl : s.readyCount + s.starting < max policy.minReadyInstances policy.maxReadyInstances)
    (hr : s'.readyCount ≤ s.readyCount) (hs : s'.starting = s.starting + 1)
    (hN : (φ' ::ₘ N).countP (·.slot ≠ .free) = 1) :
    Capacity policy s' (φ' ::ₘ (M + N)) := by
  have hp := (pending_le (M := φ' ::ₘ N)).trans hN.le
  have hm := pending_le (M := M)
  have hc := h.counted
  rw [Multiset.countP_cons, if_neg (not_not.mpr hf)] at hc
  constructor
  all_goals
    rw [Multiset.countP_cons, Multiset.countP_add]
    rw [Multiset.countP_cons] at hN hp
    omega

theorem release (h : Capacity policy s (φ ::ₘ M)) (hs : φ.slot = .settling) (hf : φ'.slot = .free)
    (hr : s'.readyCount ≤ s.readyCount) (hc : s'.starting = s.starting - 1) :
    Capacity policy s' (φ' ::ₘ (M + 0)) := by
  have hp := h.counted
  rw [Multiset.countP_cons, hs] at hp
  refine h.move forall_mem_zero ?_ ?_
  case refine_1 =>
    rw [hs, hf]
    exact hr
  case refine_2 =>
    rw [hs, hf, hc, hp]
    exact Nat.sub_add_cancel (Nat.le_add_left ..)

-- The goroutines that a call starts have no start to do, unless one is reserved for them.
theorem spawned_free (hq : ¬q.Counts) :
    ∀ ψ ∈ startPhases Phase.start (spawns q r), ψ.slot = .free := by
  intro ψ hψ
  obtain ⟨g, hg, rfl⟩ := List.mem_map.mp (Multiset.mem_coe.mp hψ)
  cases q
  case acquireBackend => exact absurd trivial hq
  case startProactiveReplacement => exact absurd trivial hq
  case addLifecycleWork =>
    cases r
    case false => cases hg
    case true  => cases List.mem_singleton.mp hg; rfl
  case probe => cases List.mem_singleton.mp hg; rfl
  case beginClose =>
    cases r
    case none => cases hg
    case some =>
      obtain ⟨b, -, rfl⟩ := List.mem_map.mp hg
      rfl
  all_goals cases hg

theorem next_slot (ho : (discipline policy).ok φ q) (hq : ¬q.Counts)
    (hb : ∀ b stamp inst, q ≠ .startBackend b stamp inst) (r : q.Response) :
    (((discipline policy).next φ q r).slot.Pending → φ.slot.Pending) ∧
    (((discipline policy).next φ q r).slot = .free ↔ φ.slot = .free) := by
  replace ho := ho.left
  cases q
  case launch =>
    rw [eq_launching ho]
    cases r <;> exact ⟨fun _ => trivial, by simp [discipline, next]⟩
  case discard b =>
    rw [eq_discarding ho]
    exact ⟨by simp [discipline, next, Pending], by simp [discipline, next]⟩
  case forever =>
    rw [eq_free ho id]
    exact ⟨by simp [discipline, next, Pending], by simp [discipline, next]⟩
  case startBackend => exact absurd rfl (hb _ _ _)
  case acquireBackend => exact absurd trivial hq
  case ensureMinReady => exact absurd trivial hq
  case settle => exact absurd trivial hq
  case settleAcquire => exact absurd trivial hq
  case settleProactive => exact absurd trivial hq
  all_goals exact ⟨id, .rfl⟩

theorem call (h : Capacity policy s (φ ::ₘ M)) (hw : Owned s (φ ::ₘ M))
    (ho : (discipline policy).ok φ q) (hr : (∀ b stamp inst, q ≠ .startBackend b stamp inst) →
      (Pool.exec policy q o s).1.readyCount ≤ s.readyCount) :
    After policy φ M q o s (Capacity policy) := by
  by_cases hq : q.Counts
  case pos =>
    replace hr := hr fun _ _ _ he => by rwa [he] at hq
    have hs := ho.left
    cases q <;> try exact hq.elim
    case settle =>
      exact h.release (eq_settling hs trivial (by simp) (by simp) (by simp)) rfl hr rfl
    case settleAcquire started =>
      refine h.release (eq_settling hs trivial (by simp) (by simp) (by simp)) rfl hr ?_
      simp only [Pool.exec, settleAcquire]
      repeat' split
      all_goals rfl
    case settleProactive b started =>
      refine h.release (eq_settling hs trivial (by simp) (by simp) (by simp)) rfl hr ?_
      simp only [Pool.exec, settleProactive]
      split <;> rfl
    case ensureMinReady =>
      have hf := eq_free hs id
      simp only [After, Pool.exec, ensureMinReady] at hr ⊢
      split
      case isTrue     => exact h.move forall_mem_zero le_rfl rfl
      case isFalse hl =>
        have hl := lt_max_of_lt_left (c := policy.maxReadyInstances) (not_le.mp (not_or.mp hl).right)
        exact h.reserve hf hl le_rfl rfl rfl
    case startProactiveReplacement b =>
      have hf := eq_free hs id
      simp only [After, Pool.exec, startProactiveReplacement] at hr ⊢
      split
      case isTrue     => exact h.move forall_mem_zero le_rfl rfl
      case isFalse hl =>
        rw [if_neg hl] at hr
        have hl := canScaleOut_lt (not_not.mp (not_or.mp (not_or.mp (not_or.mp (not_or.mp
          (not_or.mp (not_or.mp hl).right).right).right).right).right).right)
        refine h.reserve hf hl hr rfl ?_
        rw [Multiset.countP_cons]
        exact congrArg (1 + ·) (if_neg (not_not.mpr hf))
    case acquireBackend preferred allowDraining =>
      have hf := eq_free hs id
      have hx := @acquireBackend_reserves policy s preferred allowDraining
      simp only [After, Pool.exec] at hr ⊢
      generalize s.acquireBackend policy preferred allowDraining = x at hr hx ⊢
      obtain ⟨s', r⟩ := x
      obtain ⟨hc, hl⟩ := hx
      have hk {φ' : Phase} (hn : r.reserves = false) (hφ : φ'.slot = φ.slot) :
          Capacity policy s' (φ' ::ₘ (M + 0)) := by
        refine h.move forall_mem_zero ?_ ?_
        · rw [hφ]
          exact Nat.add_le_add_right hr _
        · rw [hφ, hc, hn]
          rfl
      cases r
      case start => exact h.reserve hf (hl rfl) hr hc rfl
      case acquired b scaled =>
        cases scaled
        case false => exact hk rfl rfl
        case true  =>
          refine h.reserve hf (hl rfl) hr hc ?_
          rw [Multiset.countP_cons]
          exact congrArg (1 + ·) (if_neg (not_not.mpr hf))
      all_goals exact hk rfl rfl
  case neg =>
    by_cases hs : ∃ b stamp inst, q = .startBackend b stamp inst
    case pos =>
      obtain ⟨b, stamp, inst, rfl⟩ := hs
      have hs := eq_launched ho.left
      have hn : b ∉ s.backends := by
        intro hb
        have hu := (hw.custody b).unregistered (tally_pos (Multiset.mem_cons_self φ M)
          (by rw [Phase.owns, hs]; rfl))
        exact absurd (hu.symm.trans (hw.listed b hb).left) (by simp)
      have hc := @readyCount_startBackend policy s b hn stamp inst
      have he : (s.startBackend policy b stamp inst).1.starting = s.starting := by
        rw [startBackend]
        split <;> rfl
      simp only [After, Pool.exec]
      generalize s.startBackend policy b stamp inst = x at hc he ⊢
      obtain ⟨s', r⟩ := x
      refine h.move forall_mem_zero ?_ ?_
      case refine_1 =>
        rw [hs]
        cases r
        case true  => exact hc
        case false => exact hc.trans (Nat.le_succ _)
      case refine_2 =>
        rw [hs, he]
        cases r <;> rfl
    case neg =>
      have hb : ∀ b stamp inst, q ≠ .startBackend b stamp inst :=
        fun b stamp inst he => hs ⟨b, stamp, inst, he⟩
      have hf : s.Follows q (Pool.exec policy q o s).1 := exec_follows hb
      have hn := next_slot ho hq hb (Pool.exec policy q o s).2
      refine h.move (spawned_free hq) ?_ ?_
      case refine_1 =>
        refine Nat.add_le_add (hr hb) ?_
        split
        case isTrue hp => rw [if_pos (hn.left hp)]
        case isFalse   => exact Nat.zero_le _
      case refine_2 =>
        simp only [hf.starting hq, ne_eq, hn.right]

theorem env (h : Capacity policy s M) (a : Act) :
    Capacity policy (a.apply s) (M + startPhases Phase.start a.enters) := by
  have hN : ∀ ψ ∈ startPhases Phase.start a.enters, ψ.slot = .free := by
    intro ψ hψ
    obtain ⟨g, hg, rfl⟩ := List.mem_map.mp (Multiset.mem_coe.mp hψ)
    cases a
    case tick => cases hg
    all_goals
      cases List.mem_singleton.mp hg
      rfl
  have ⟨hb, hc⟩ := h
  obtain ⟨d, ha⟩ := a.apply_eq s
  have hr : (a.apply s).readyCount ≤ s.readyCount := by
    rw [ha]
    exact readyCount_le (.refl _) fun b _ => accepts_of_tick
  have h₁ : (startPhases Phase.start a.enters).countP (·.slot ≠ .free) = 0 :=
    Multiset.countP_eq_zero.mpr fun ψ hψ => not_not.mpr (hN ψ hψ)
  have h₂ : (startPhases Phase.start a.enters).countP (·.slot.Pending) = 0 :=
    Multiset.countP_eq_zero.mpr fun ψ hψ => hN ψ hψ ▸ id
  constructor
  all_goals rw [Multiset.countP_add]
  case counted =>
    rw [h₁, ha]
    exact hb
  case bounded => omega

end Capacity

-- A goroutine that is starting an instance: it has reserved the start and not yet given it back.
def InStart : PoolProgram Unit → Prop
  | .ret _ => False
  | .call q _ => q.Starts

instance : DecidablePred InStart
  | .ret _ => inferInstanceAs <| Decidable False
  | .call q _ => inferInstanceAs <| Decidable q.Starts

section Runs

variable {policy : LifecyclePolicy} {poolName : String} {n : Nat} {c₀ c : PoolConfig}

-- What holds in the runs in which the reports are recorded in order.
structure Ready (policy : LifecyclePolicy) (s : Pool) (M : Multiset Phase) : Prop where
  closing : Closing policy s M
  reported : Reported policy s M
  capacity : Capacity policy s M

namespace Ready

variable {s : Pool} {M : Multiset Phase} {φ : Phase} {q : Call} {o : Outcome} {b : Nat}

theorem accepts (h : Ready policy s (φ ::ₘ M)) (ho : (discipline policy).ok φ q)
    (hg : Orderly policy q o s) (hb : (s.heap b).registered)
    (ha : (Pool.exec policy q o s).1.backendAcceptsNewWorkLocked b) :
    s.backendAcceptsNewWorkLocked b := by
  have hi := h.reported.stays_incompatible h.closing.owned ho hg.right hb
  by_cases hs : ∃ b' stamp inst, q = .startBackend b' stamp inst
  case neg =>
    have hf : s.Follows q (Pool.exec policy q o s).1 :=
      exec_follows fun b' stamp inst he => hs ⟨b', stamp, inst, he⟩
    exact hf.accepts hi ha
  case pos =>
    obtain ⟨b', stamp, inst, rfl⟩ := hs
    have hn : b ≠ b' := by
      rintro rfl
      have hu := (h.closing.owned.custody b).unregistered (tally_pos (Multiset.mem_cons_self φ M)
        (by rw [Phase.owns, eq_launched ho.left]; rfl))
      exact absurd (hu.symm.trans hb) (by simp)
    simp only [Pool.exec, startBackend] at ha
    split at ha
    case isTrue  => exact ha
    case isFalse =>
      rw [accepts_iff] at ha ⊢
      dsimp only at ha
      rw [Function.update_of_ne hn] at ha
      exact ⟨(List.mem_append.mp ha.left).resolve_right (mt List.mem_singleton.mp hn), ha.right⟩

theorem call (h : Ready policy s (φ ::ₘ M)) (ho : (discipline policy).ok φ q)
    (he : enabled q s) (hg : Orderly policy q o s) :
    After policy φ M q o s (Ready policy) := by
  refine ⟨h.closing.call ho he, h.reported.call h.closing.owned ho hg.left,
    h.capacity.call h.closing.owned ho fun hs => ?_⟩
  have hf : s.Follows q (Pool.exec policy q o s).1 := exec_follows hs
  refine readyCount_le hf.sublist fun b hb ha => ?_
  exact h.accepts ho hg (h.closing.owned.listed b (hf.sublist.mem hb)).left ha

theorem env (h : Ready policy s M) (a : Act) :
    Ready policy (a.apply s) (M + startPhases Phase.start a.enters) :=
  ⟨h.closing.env a, h.reported.env a, h.capacity.env a⟩

theorem preserved : Preserved (system policy poolName n) (Orderly policy) (discipline policy)
    Phase.start (Ready policy) where
  call _ h ho he hg := h.call ho he hg
  env a h           := h.env a

end Ready

theorem foldl_startInstance_counts {s : Pool} (instances : List (Nat × Instance)) :
    (instances.foldl (fun s i => s.startInstance policy i.1 i.2) s).starting = s.starting ∧
    (instances.foldl (fun s i => s.startInstance policy i.1 i.2) s).launched =
      s.launched + instances.length := by
  induction instances generalizing s
  case nil => exact ⟨rfl, rfl⟩
  case cons i instances hi =>
    rw [List.foldl_cons, hi.left, hi.right, List.length_cons]
    simp only [startInstance, startBackend]
    split <;> exact ⟨rfl, by simp only [launch]; omega⟩

theorem Initial.goroutines (h : Initial policy poolName n c) :
    ∃ gs : List Goroutine, (gs = [] ∨ gs = [.healthLoop] ∨ gs = [.close]) ∧
      c.threads = gs.map (PoolProgram.body policy poolName n) := by
  cases h
  case failed => exact ⟨[.close], .inr (.inr rfl), rfl⟩
  case ready =>
    dsimp only
    split
    case isTrue  => exact ⟨[], .inl rfl, rfl⟩
    case isFalse => exact ⟨[.healthLoop], .inr (.inl rfl), rfl⟩

theorem Initial.counts (h : Initial policy poolName n c) :
    Reports c.mem ∧ c.mem.starting = 0 ∧ c.mem.launched ≤ policy.minReadyInstances := by
  cases h
  case failed now instances hi =>
    have ⟨hs, hl⟩ := @foldl_startInstance_counts policy { now } instances
    exact ⟨.construct now instances, hs, by rw [construct, hl]; simpa using hi.le⟩
  case ready now instances hi =>
    have ⟨hs, hl⟩ := @foldl_startInstance_counts policy { now } instances
    have hr : Reports (construct policy now instances) := .construct now instances
    refine ⟨⟨hr.known, hr.stays, hr.stamped⟩, hs, ?_⟩
    dsimp only
    rw [construct, hl]
    simpa using hi.le

theorem Initial.isReady (h : Initial policy poolName n c) :
    Sound (discipline policy) Phase.Done (Ready policy) c := by
  obtain ⟨hr, hs, hl⟩ := h.counts
  obtain ⟨gs, hg, ht⟩ := h.goroutines
  have hu := h.unused.left
  obtain ⟨s, threads⟩ := c
  dsimp only at hr hs hl hu ht
  have hd : ∀ b, .drain b ∉ gs := by
    intro b hb
    rcases hg with rfl | rfl | rfl <;> simp at hb
  have hc : s.readyCount ≤ policy.minReadyInstances := by
    refine List.countP_le_length.trans ?_
    rwa [hu.backends, List.length_range]
  rw [ht]
  refine Sound.of_start (m := system policy poolName n) keeps_body ⟨hu.closing hd, ⟨hr, ?_, ?_⟩, ?_, ?_⟩
  case refine_1 =>
    intro φ hφ
    obtain ⟨g, hm, rfl⟩ := List.mem_map.mp (Multiset.mem_coe.mp hφ)
    have he : g = .healthLoop ∨ g = .close := by
      rcases hg with rfl | rfl | rfl <;> simp at hm <;> simp [hm]
    rcases he with rfl | rfl <;> exact .of_idle rfl nofun
  case refine_2 =>
    rcases hg with rfl | rfl | rfl <;> decide
  case refine_3 =>
    rw [hs]
    rcases hg with rfl | rfl | rfl <;> rfl
  case refine_4 =>
    have hp : (startPhases Phase.start gs).countP (·.slot.Pending) = 0 := by
      rcases hg with rfl | rfl | rfl <;> rfl
    rw [hp]
    exact le_max_of_le_left hc

theorem InStart.iff_slot {p : PoolProgram Unit}
    (hk : (discipline policy).Keeps (fun _ => Phase.Done) p φ) : InStart p ↔ φ.slot ≠ .free := by
  cases p
  case ret a => exact ⟨nofun, fun hn => absurd hk.left hn⟩
  case call q k =>
    refine ⟨fun hs he => ?_, fun hn => ?_⟩
    · have ho := hk.left.left
      rw [he] at ho
      exact ho hs
    · by_contra hq
      exact hn (eq_free hk.left.left hq)

theorem countP_inStart {l : List (PoolProgram Unit × Phase)}
    (hk : ∀ t ∈ l, (discipline policy).Keeps (fun _ => Phase.Done) t.1 t.2) :
    (l.map Prod.fst).countP (InStart ·) = (phases l).countP (·.slot ≠ .free) := by
  rw [phases, Multiset.coe_countP, List.countP_map, List.countP_map]
  refine List.countP_congr fun t ht => ?_
  simpa using InStart.iff_slot (hk t ht)

-- The backend is in the pool or was in it, and does not accept work.
def Refuses (s : Pool) (b : Nat) : Prop :=
  (s.heap b).registered ∧ ¬s.backendAcceptsNewWorkLocked b

theorem refuses_of_step {c' : PoolConfig}
    (h : Sound (discipline policy) Phase.Done (Ready policy) c)
    (e : Step (system policy poolName n) (Orderly policy) c c') (hb : Refuses c.mem b) :
    Refuses c'.mem b := by
  refine h.step_cases (P := fun s s' => Refuses s b → Refuses s' b) e ?_ ?_ hb
  · intro φ M q o hr ho _ hg hb
    refine ⟨?_, fun ha => hb.right (hr.accepts ho hg hb.left ha)⟩
    by_cases hs : ∃ b' stamp inst, q = .startBackend b' stamp inst
    case neg =>
      have hf : c.mem.Follows q (Pool.exec policy q o c.mem).1 :=
        exec_follows fun b' stamp inst he => hs ⟨b', stamp, inst, he⟩
      exact (hf.heap b).registered.trans hb.left
    case pos =>
      obtain ⟨b', stamp, inst, rfl⟩ := hs
      change ((c.mem.startBackend policy b' stamp inst).1.heap b).registered
      rw [startBackend]
      split
      case isTrue  => exact hb.left
      case isFalse =>
        simp only [Function.update_apply]
        split
        case isTrue  => rfl
        case isFalse => exact hb.left
  · intro M a _ hb
    obtain ⟨d, ha⟩ := a.apply_eq c.mem
    change Refuses (a.apply c.mem) b
    rw [ha]
    exact ⟨hb.left, mt accepts_of_tick hb.right⟩

-- If reports are recorded in order, no more backends accept work than the limits allow, the counter
-- is the number of starts under way, and a backend that does not accept work never does again.
theorem capacity_bounded (hi : Initial policy poolName n c₀)
    (hr : Reaches (system policy poolName n) (Orderly policy) c₀ c) :
    c.mem.readyCount ≤ max policy.minReadyInstances policy.maxReadyInstances ∧
    c.mem.starting = c.threads.countP (InStart ·) ∧
    ∀ c', Reaches (system policy poolName n) (Orderly policy) c c' → ∀ b, Refuses c.mem b →
      Refuses c'.mem b := by
  have hs := hi.isReady.reaches Ready.preserved keeps_body hr
  obtain ⟨l, hl, hk, h⟩ := id hs
  refine ⟨(Nat.le_add_right ..).trans h.capacity.bounded, ?_, fun c' e b hb => ?_⟩
  case refine_1 => rw [h.capacity.counted, ← hl, countP_inStart hk]
  case refine_2 =>
    induction e
    case refl         => exact hb
    case tail e e' hi => exact refuses_of_step (hs.reaches Ready.preserved keeps_body e) e' hi

end Runs

instance {q : Call} {o : Outcome} {s : Pool} : Decidable (Stays q o s) := by
  apply @Call.casesOn (fun q => Decidable (Stays q o s)) q
    <;> intros <;> unfold Stays <;> infer_instance

instance {q : Call} {o : Outcome} {s : Pool} : Decidable (InOrder q o s) := by
  apply @Call.casesOn (fun q => Decidable (InOrder q o s)) q
    <;> intros <;> unfold InOrder <;> infer_instance

instance {policy : LifecyclePolicy} {poolName : String} {n : Nat} {q : Call}
    {o : (system policy poolName n).Oracle} {s : Pool} : Decidable (Stays q o s) :=
  inferInstanceAs <| Decidable (@Stays q (id o : Outcome) s)

instance {policy : LifecyclePolicy} {poolName : String} {n : Nat} {q : Call}
    {o : (system policy poolName n).Oracle} {s : Pool} : Decidable (Orderly policy q o s) :=
  inferInstanceAs <| Decidable (Stays q (id o : Outcome) s ∧
    (policy.restartPolicy = .never → InOrder q (id o : Outcome) s))

instance {s : Pool} {b : Nat} : Decidable (Refuses s b) :=
  inferInstanceAs <| Decidable (_ ∧ _)

-- The provider says that the image of the instance is not the expected one.
def staleSession : RuntimeSession where
  metadata := (∅ : GoMap String).insert "runtime.imageMatch" "false"

-- Two turns refresh the session of one backend. The second one gets a stale session and records it,
-- and a third turn starts another instance.
def staleRecorded : List (Event (system singlePolicy "claude" 2)) :=
  [.env (.createTurn none false), .call 0 {}, .call 0 {}, .call 0 {},
    .call 0 { session := some (some {}) },
    .env (.createTurn none false), .call 1 {}, .call 1 {}, .call 1 {},
    .call 1 { session := some (some staleSession) }, .call 1 {}, .call 1 {},
    .env (.createTurn none false), .call 2 {}, .call 2 { inst := some {} }, .call 2 {}, .call 2 {}]

theorem capacity_bounded_demo : ∃ c,
    Reaches (system singlePolicy "claude" 2) (Orderly singlePolicy) singlePool c ∧
    c.mem.backends = [0, 1] ∧ c.mem.readyCount ≤ 1 ∧ Refuses c.mem 0 := by
  have ⟨c, hr, hb, hs⟩ := Config.exists_reaches_of_run (system singlePolicy "claude" 2)
    (Orderly singlePolicy) singlePool (fun c => c.mem.backends = [0, 1] ∧ Refuses c.mem 0)
    staleRecorded (by decide +kernel)
  exact ⟨c, hr, hb, (capacity_bounded singlePool_initial hr).left, hs⟩

-- The first turn then overwrites the stale session with the older one.
theorem capacity_can_be_exceeded : ∃ c,
    Reaches (system singlePolicy "claude" 2) Stays singlePool c ∧ Refuses c.mem 0 ∧
    ∃ c', Reaches (system singlePolicy "claude" 2) Stays c c' ∧
      c'.mem.backendAcceptsNewWorkLocked 0 ∧ c'.mem.readyCount = 2 := by
  have ⟨c, hr, hs, he⟩ := Config.exists_reaches_of_run (system singlePolicy "claude" 2) Stays
    singlePool (fun c => Refuses c.mem 0 ∧
      ((c.run (system singlePolicy "claude" 2) Stays [.call 0 {}, .call 0 {}]).any fun c' =>
        c'.mem.backendAcceptsNewWorkLocked 0 ∧ c'.mem.readyCount = 2) = true)
    staleRecorded (by decide +kernel)
  exact ⟨c, hr, hs, Config.exists_reaches_of_run (system singlePolicy "claude" 2) Stays c _ _ he⟩

end HostedAgents
