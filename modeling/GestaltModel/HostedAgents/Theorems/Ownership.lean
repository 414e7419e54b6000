import GestaltModel.HostedAgents.Theorems.Phases
import GestaltModel.HostedAgents.Theorems.Pool

namespace HostedAgents

open Goroutines (startPhases tally tally_cons tally_add tally_cons_of_eq tally_pos
  tally_eq_zero tally_cons_add tally_cons_congr forall_mem_next forall_mem_zero)
open Phase (awaits closes target)
open Function (update_apply update_of_ne)
open Phase

variable {slot : Slot} {drain : Drain}

-- Who has to close a provider: the goroutine that started or drains it, or the pool.
structure Custody (s : Pool) (M : Multiset Phase) (b : Nat) : Prop where
  unmade : (s.heap b).registered = false →
    s.closes b + tally owns b M = (if b < s.launched then 1 else 0) ∧
    tally closes b M = 0 ∧ tally target b M = 0
  made : (s.heap b).registered = true →
    b < s.launched ∧ tally owns b M = 0 ∧
    s.closes b + tally closes b M = (if (s.heap b).closed then 1 else 0) ∧
    tally target b M = (if (s.heap b).closing ∧ ¬(s.heap b).closed then 1 else 0) ∧
    ((s.heap b).closed → (s.heap b).closing)

structure Owned (s : Pool) (M : Multiset Phase) : Prop where
  nodup : s.backends.Nodup
  listed : ∀ b ∈ s.backends, (s.heap b).registered ∧ ¬(s.heap b).closed
  custody : ∀ b, Custody s M b
  awaited : s.closed → ∀ b, (s.heap b).registered → ¬(s.heap b).closing →
    0 < tally awaits b M
  opened : ¬s.closed → ∀ b, (s.heap b).registered → ¬(s.heap b).closed → b ∈ s.backends
  shut : ∀ φ ∈ M, φ.shut → s.closed

-- What holds of the pool and of the phases after a call, and with it the goroutines that it starts.
abbrev After (policy : LifecyclePolicy) (φ : Phase) (M : Multiset Phase) (q : Call) (o : Outcome)
    (s : Pool) (inv : Pool → Multiset Phase → Prop) : Prop :=
  inv (Pool.exec policy q o s).1 ((discipline policy).next φ q (Pool.exec policy q o s).2 ::ₘ
    (M + startPhases Phase.start (spawns q (Pool.exec policy q o s).2)))

section Phases

variable {q : Call} {φ : Phase}

variable {b : Nat}

theorem Slot.eq_free (h : slot.Ok q) (hq : ¬q.Starts) : slot = .free := by
  cases slot
  case free => rfl
  case settling =>
    rcases h with rfl | ⟨_, rfl⟩ | ⟨_, _, rfl⟩ <;> exact absurd trivial hq
  all_goals
    cases h
    exact absurd trivial hq

theorem Slot.eq_settling (h : slot.Ok q) (hq : q.Starts) (h₁ : q ≠ .launch)
    (h₂ : ∀ b stamp inst, q ≠ .startBackend b stamp inst) (h₃ : ∀ b, q ≠ .discard b) :
    slot = .settling := by
  cases slot
  case settling => rfl
  case free => exact absurd hq h
  case launching => exact absurd h h₁
  case launched => exact absurd h (h₂ _ _ _)
  case discarding b => exact absurd h (h₃ b)

theorem Slot.eq_launching (h : slot.Ok .launch) : slot = .launching := by
  cases slot
  case launching => rfl
  case free => exact absurd trivial h
  case settling => rcases h with h | ⟨_, h⟩ | ⟨_, _, h⟩ <;> contradiction
  all_goals contradiction

theorem Slot.eq_launched
    (h : slot.Ok (.startBackend b stamp inst)) : slot = .launched b stamp inst := by
  cases slot
  case launched =>
    cases h
    rfl
  case free => exact absurd trivial h
  case settling => rcases h with h | ⟨_, h⟩ | ⟨_, _, h⟩ <;> contradiction
  all_goals contradiction

theorem Slot.eq_discarding (h : slot.Ok (.discard b)) :
    slot = .discarding b := by
  cases slot
  case discarding =>
    cases h
    rfl
  case free => exact absurd trivial h
  case settling => rcases h with h | ⟨_, h⟩ | ⟨_, _, h⟩ <;> contradiction
  all_goals contradiction

theorem Drain.eq_started (h : drain.Ok (.drainClock b)) :
    drain = .started b := by
  cases drain
  case started =>
    cases h
    rfl
  case none => rcases h with ⟨_, h⟩ | h <;> first | contradiction | exact absurd trivial h
  case waiting => rcases h with h | h <;> contradiction
  all_goals contradiction

theorem Drain.eq_timed (h : drain.Ok (.drainDeadline b now)) :
    drain = .timed b now := by
  cases drain
  case timed =>
    cases h
    rfl
  case none => rcases h with ⟨_, h⟩ | h <;> first | contradiction | exact absurd trivial h
  case waiting => rcases h with h | h <;> contradiction
  all_goals contradiction

theorem Drain.eq_waiting (h : drain.Ok (.checkDrained b deadline)) :
    drain = .waiting b deadline := by
  cases drain
  case waiting =>
    rcases h with h | h
    case inl =>
      cases h
      rfl
    case inr => contradiction
  case none => rcases h with ⟨_, h⟩ | h <;> first | contradiction | exact absurd trivial h
  all_goals contradiction

theorem Drain.eq_closing (h : drain.Ok (.closeProvider b)) :
    drain = .closing b := by
  cases drain
  case closing =>
    cases h
    rfl
  case none => rcases h with ⟨_, h⟩ | h <;> first | contradiction | exact absurd trivial h
  case waiting => rcases h with h | h <;> contradiction
  all_goals contradiction

theorem Drain.eq_none_or_pending (h : drain.Ok (.beginDrain b)) :
    drain = .none ∨ drain = .pending b := by
  cases drain
  case none => exact .inl rfl
  case pending =>
    cases h
    exact .inr rfl
  case waiting => rcases h with h | h <;> contradiction
  all_goals contradiction

-- What a call leaves as it is in the phase, if it does not start, register or close something.
structure Phase.Keeps (φ φ' : Phase) : Prop where
  owns : φ'.owns = φ.owns
  closes : φ'.closes = φ.closes
  target : φ'.target = φ.target
  awaits : φ'.awaits = φ.awaits
  shut : φ'.shut = φ.shut

theorem Phase.Keeps.of_drain (hd : φ.drain = drain) (ho : φ'.owns = φ.owns)
    (hc : φ'.closes = drain.closes) (ht : φ'.target = drain.target)
    (ha : φ'.awaits = drain.awaits) (hs : φ'.shut = φ.shut) : φ.Keeps φ' := by
  subst hd
  exact ⟨ho, hc, ht, ha, hs⟩

theorem next_keeps (h : (discipline policy).ok φ q) (hq : ¬q.Registers) (hf : q ≠ .forever)
    (r : q.Response) : φ.Keeps ((discipline policy).next φ q r) := by
  obtain ⟨hs, hd, -⟩ := h
  cases q
  case forever => exact absurd rfl hf
  case launch | discard | closeProvider | startBackend | beginDrain | checkDrained | beginClose |
      endClose => exact absurd trivial hq
  case acquireBackend | ensureMinReady =>
    refine { owns := ?_, closes := rfl, target := rfl, awaits := rfl, shut := rfl }
    simp only [discipline, owns, Slot.eq_free hs id]
    cases r <;> rfl
  case settle | settleAcquire | settleProactive =>
    refine { owns := ?_, closes := rfl, target := rfl, awaits := rfl, shut := rfl }
    rw [owns, owns, Slot.eq_settling hs trivial nofun nofun nofun]
    rfl
  case drainClock => exact .of_drain (Drain.eq_started hd) rfl rfl rfl rfl rfl
  case drainDeadline => exact .of_drain (Drain.eq_timed hd) rfl rfl rfl rfl rfl
  all_goals exact { owns := rfl, closes := rfl, target := rfl, awaits := rfl, shut := rfl }

-- New goroutines owe nothing but the drains that `Close` starts.
structure Phase.Fresh (φ : Phase) : Prop where
  owns : φ.owns = none
  drain : φ.drain = .none
  holds : φ.holds = none
  claim : φ.claim = .none
  shut : φ.shut = false

theorem Phase.start_fresh (h : ∀ b, g ≠ .drain b) : (Phase.start g).Fresh := by
  cases g
  case drain b => exact absurd rfl (h b)
  all_goals exact ⟨rfl, rfl, rfl, rfl, rfl⟩

theorem spawns_ne_drain (h : q ≠ .beginClose) :
    .drain b ∉ spawns q r := by
  intro hb
  cases q
  case beginClose => exact absurd rfl h
  case acquireBackend =>
    cases r
    case acquired b scaled => cases scaled <;> simp [spawns] at hb
    all_goals cases hb
  case addLifecycleWork => cases r <;> simp [spawns] at hb
  case startProactiveReplacement => cases r <;> simp [spawns] at hb
  case probe => simp [spawns] at hb
  all_goals cases hb

theorem spawned_fresh (h : q ≠ .beginClose) :
    ∀ φ ∈ startPhases Phase.start (spawns q r), φ.Fresh := by
  intro φ hφ
  obtain ⟨g, hg, rfl⟩ := List.mem_map.mp (Multiset.mem_coe.mp hφ)
  refine start_fresh fun b => ?_
  rintro rfl
  exact spawns_ne_drain h hg

end Phases

namespace Custody

theorem congr (h : Custody s M b) (hr : (s'.heap b).registered = (s.heap b).registered)
    (hg : (s'.heap b).closing = (s.heap b).closing) (hd : (s'.heap b).closed = (s.heap b).closed)
    (hl : s'.launched = s.launched) (hc : s'.closes b = s.closes b)
    (h₁ : tally owns b M' = tally owns b M)
    (h₂ : tally closes b M' = tally closes b M)
    (h₃ : tally target b M' = tally target b M) : Custody s' M' b := by
  constructor
  case unmade =>
    rw [hr, hl, hc, h₁, h₂, h₃]
    exact h.unmade
  case made =>
    rw [hr, hg, hd, hl, hc, h₁, h₂, h₃]
    exact h.made

theorem unregistered (h : Custody s M b) (ho : 0 < tally owns b M) :
    (s.heap b).registered = false := by
  cases hr : (s.heap b).registered
  case false => rfl
  case true => exact absurd (h.made hr).right.left ho.ne'

theorem registered_of_target (h : Custody s M b) (ht : 0 < tally target b M) :
    (s.heap b).registered = true := by
  cases hr : (s.heap b).registered
  case true => rfl
  case false => exact absurd (h.unmade hr).right.right ht.ne'

end Custody

namespace Owned

theorem awaits_drains {bs : List Nat} (hb : b ∈ bs) :
    0 < tally awaits b (startPhases Phase.start (bs.map Goroutine.drain)) := by
  refine tally_pos (φ := Phase.start (.drain b)) (Multiset.mem_coe.mpr ?_) rfl
  exact List.mem_map_of_mem (List.mem_map_of_mem hb)

theorem drains_owe_nothing (bs : List Nat) :
    ∀ φ ∈ startPhases Phase.start (bs.map Goroutine.drain),
      φ.owns = none ∧ φ.closes = none ∧ φ.target = none ∧ φ.shut = false := by
  intro φ hφ
  obtain ⟨g, hg, rfl⟩ := List.mem_map.mp (Multiset.mem_coe.mp hφ)
  obtain ⟨b, -, rfl⟩ := List.mem_map.mp hg
  exact ⟨rfl, rfl, rfl, rfl⟩

variable (h : Owned s (φ ::ₘ M))
include h

theorem congr (hk : φ.Keeps φ') (hN : ∀ φ ∈ N, φ.Fresh)
    (hb : s'.backends = s.backends) (hc : s'.closed = s.closed) (hl : s'.launched = s.launched)
    (hp : s'.closes = s.closes)
    (hf : ∀ b, (s'.heap b).registered = (s.heap b).registered ∧
      (s'.heap b).closing = (s.heap b).closing ∧ (s'.heap b).closed = (s.heap b).closed) :
    Owned s' (φ' ::ₘ (M + N)) := by
  have hd {f : Drain → Option Nat} (hf : f .none = none) : ∀ φ ∈ N, f φ.drain = none :=
    fun φ hφ => by rw [(hN φ hφ).drain, hf]
  constructor
  case nodup => exact hb ▸ h.nodup
  case listed =>
    intro b hm
    rw [(hf b).left, (hf b).right.right]
    exact h.listed b (hb ▸ hm)
  case custody =>
    intro b
    refine (h.custody b).congr (hf b).left (hf b).right.left (hf b).right.right hl (hp ▸ rfl) ?_ ?_ ?_
    · rw [tally_cons_add fun φ hφ => (hN φ hφ).owns, tally_cons_congr hk.owns]
    · rw [tally_cons_add (f := closes) (hd rfl), tally_cons_congr hk.closes]
    · rw [tally_cons_add (f := target) (hd rfl), tally_cons_congr hk.target]
  case awaited =>
    intro hs b
    rw [(hf b).left, (hf b).right.left, tally_cons_add (f := awaits) (hd rfl),
      tally_cons_congr hk.awaits]
    exact h.awaited (hc ▸ hs) b
  case opened =>
    intro hs b
    rw [(hf b).left, (hf b).right.right, hb]
    exact h.opened (hc ▸ hs) b
  case shut =>
    rw [hc]
    refine forall_mem_next ?_ (fun ψ hψ => h.shut ψ (Multiset.mem_cons_of_mem hψ)) fun ψ hψ => ?_
    · rw [hk.shut]
      exact h.shut φ (Multiset.mem_cons_self φ M)
    · rw [(hN ψ hψ).shut]
      exact nofun

theorem frame (ho : (discipline policy).ok φ q) (hq : ¬q.Registers)
    (hf : q ≠ .forever) :
    After policy φ M q o s Owned := by
  have hs : s.Follows q (Pool.exec policy q o s).1 :=
    Pool.exec_follows fun _ _ _ he => hq (he ▸ trivial)
  have ⟨hb, hc, hl, hp⟩ := hs.places hq
  have hn : q ≠ .beginClose := fun he => hq (he ▸ trivial)
  refine h.congr (next_keeps ho hq hf _) (spawned_fresh hn) hb hc hl hp ?_
  exact fun b => ⟨(hs.heap b).registered, (hs.heap b).flags hq⟩

theorem unchanged (hk : φ.Keeps φ') : Owned s (φ' ::ₘ (M + 0)) :=
  h.congr hk forall_mem_zero rfl rfl rfl rfl fun _ => ⟨rfl, rfl, rfl⟩

-- The invariant for a call that starts no goroutines, from what it does to each part.
theorem of_parts (hn : s'.backends.Nodup)
    (hl : ∀ b ∈ s'.backends, (s'.heap b).registered ∧ ¬(s'.heap b).closed)
    (hc : ∀ b, Custody s' (φ' ::ₘ M) b)
    (ha : s'.closed → ∀ b, (s'.heap b).registered → ¬(s'.heap b).closing →
      0 < tally awaits b (φ' ::ₘ M))
    (ho : ¬s'.closed → ∀ b, (s'.heap b).registered → ¬(s'.heap b).closed → b ∈ s'.backends)
    (hs : φ'.shut = φ.shut) (hp : s'.closed = s.closed) : Owned s' (φ' ::ₘ (M + 0)) := by
  rw [add_zero]
  refine ⟨hn, hl, hc, ha, ho, fun ψ hψ => ?_⟩
  rw [hp]
  rcases Multiset.mem_cons.mp hψ with rfl | hψ
  case inl =>
    rw [hs]
    exact h.shut φ (Multiset.mem_cons_self φ M)
  case inr => exact h.shut ψ (Multiset.mem_cons_of_mem hψ)

theorem awaited_congr (hw : φ'.awaits = φ.awaits) (hs : s.closed) (b : Nat)
    (hr : (s.heap b).registered) (hg : ¬(s.heap b).closing) : 0 < tally awaits b (φ' ::ₘ M) := by
  rw [tally_cons_congr hw]
  exact h.awaited hs b hr hg

theorem launch (hs : φ.slot = .launching) (inst : Option Instance) :
    Owned (s.launch inst).1 ((discipline policy).next φ .launch (s.launch inst).2 ::ₘ (M + 0)) := by
  have ho : φ.owns = none := by rw [owns, hs]; rfl
  cases inst
  case none =>
    exact h.unchanged ⟨ho.symm, rfl, rfl, rfl, rfl⟩
  case some inst =>
    refine h.of_parts h.nodup h.listed (fun b => ?_) (h.awaited_congr rfl) h.opened rfl rfl
    generalize hφ : (discipline policy).next φ .launch (s.launch (some inst)).2 = φ'
    have h₁ : φ'.owns = some s.launched := by rw [← hφ]; rfl
    have h₂ : φ'.closes = φ.closes := by rw [← hφ]; rfl
    have h₃ : φ'.target = φ.target := by rw [← hφ]; rfl
    have hu := (h.custody b).unmade
    have hm := (h.custody b).made
    simp only [tally_cons, ho] at hu hm
    constructor <;> simp only [tally_cons, h₁, h₂, h₃, Pool.launch]
    · grind
    · grind

theorem discard (hs : φ.slot = .discarding b) :
    Owned (s.closeProvider b) ((discipline policy).next φ (.discard b) () ::ₘ (M + 0)) := by
  refine h.of_parts h.nodup h.listed (fun b' => ?_) (h.awaited_congr rfl) h.opened rfl rfl
  generalize hφ : (discipline policy).next φ (.discard b) () = φ'
  have ho : φ.owns = some b := by rw [owns, hs]; rfl
  have h₁ : φ'.owns = none := by rw [← hφ]; rfl
  have h₂ : φ'.closes = φ.closes := by rw [← hφ]; rfl
  have h₃ : φ'.target = φ.target := by rw [← hφ]; rfl
  have hu := (h.custody b').unmade
  have hm := (h.custody b').made
  simp only [tally_cons, ho] at hu hm
  constructor <;> simp only [tally_cons, h₁, h₂, h₃, Pool.closeProvider, update_apply]
  · grind
  · grind

theorem closeProvider (hd : φ.drain = .closing b) :
    Owned (s.closeProvider b) ((discipline policy).next φ (.closeProvider b) () ::ₘ (M + 0)) := by
  have hw : φ.awaits = none := by rw [awaits, hd]; rfl
  refine h.of_parts h.nodup h.listed (fun b' => ?_) (h.awaited_congr hw.symm) h.opened rfl rfl
  generalize hφ : (discipline policy).next φ (.closeProvider b) () = φ'
  have ho : φ.closes = some b := by rw [closes, hd]; rfl
  have ht : φ.target = none := by rw [target, hd]; rfl
  have h₁ : φ'.owns = φ.owns := by rw [← hφ]; rfl
  have h₂ : φ'.closes = none := by rw [← hφ]; rfl
  have h₃ : φ'.target = none := by rw [← hφ]; rfl
  have hu := (h.custody b').unmade
  have hm := (h.custody b').made
  simp only [tally_cons, ho, ht] at hu hm
  constructor <;> simp only [tally_cons, h₁, h₂, h₃, Pool.closeProvider, update_apply]
  · grind
  · grind

theorem startBackend (hs : φ.slot = .launched b stamp inst) :
    Owned (s.startBackend policy b stamp inst).1 ((discipline policy).next φ
      (.startBackend b stamp inst) (s.startBackend policy b stamp inst).2 ::ₘ (M + 0)) := by
  have ho : φ.owns = some b := by rw [owns, hs]; rfl
  cases hp : s.closed
  case true =>
    have he : s.startBackend policy b stamp inst = (s, false) := by simp [Pool.startBackend, hp]
    rw [he]
    exact h.unchanged ⟨ho.symm, rfl, rfl, rfl, rfl⟩
  case false =>
    have hr : (s.heap b).registered = false :=
      (h.custody b).unregistered (tally_pos (Multiset.mem_cons_self φ M) ho)
    have hb : b ∉ s.backends := fun hb => absurd (h.listed b hb).left (by simp [hr])
    have he : s.startBackend policy b stamp inst =
        ({ s with heap := Function.update s.heap b (s.newBackend policy stamp inst),
                  backends := s.backends ++ [b] }, true) := by
      rw [Pool.startBackend, hp, if_neg Bool.false_ne_true]
    rw [he]
    refine h.of_parts ?_ ?_ (fun b' => ?_) ?_ ?_ rfl rfl
    case refine_1 => exact h.nodup.append (List.nodup_singleton b) (by simpa using hb)
    case refine_2 =>
      intro b' hb'
      dsimp only
      by_cases hn : b' = b
      case pos =>
        rw [hn, Function.update_self]
        exact ⟨rfl, Bool.false_ne_true⟩
      case neg =>
        rw [update_of_ne hn]
        exact h.listed b' (by simpa [hn] using hb')
    case refine_4 => exact fun hc => absurd (hp.symm.trans hc) nofun
    case refine_5 =>
      intro _ b'
      dsimp only
      by_cases hn : b' = b
      case pos => simp [hn]
      case neg =>
        rw [update_of_ne hn]
        intro hr' hc
        exact List.mem_append_left _ (h.opened (by simp [hp]) b' hr' hc)
    case refine_3 =>
      generalize hφ : (discipline policy).next φ (.startBackend b stamp inst) true = φ'
      have h₁ : φ'.owns = none := by rw [← hφ]; rfl
      have h₂ : φ'.closes = φ.closes := by rw [← hφ]; rfl
      have h₃ : φ'.target = φ.target := by rw [← hφ]; rfl
      have hu := (h.custody b').unmade
      have hm := (h.custody b').made
      simp only [tally_cons, ho] at hu hm
      constructor <;> simp only [tally_cons, h₁, h₂, h₃, update_apply, apply_ite,
        Pool.newBackend]
      · grind
      · grind

theorem beginDrain (hd : φ.drain = .none ∨ φ.drain = .pending b) :
    Owned (s.beginDrain b).1 ((discipline policy).next φ (.beginDrain b) (s.beginDrain b).2 ::ₘ
      (M + 0)) := by
  have ht : φ.target = none := by rcases hd with hd | hd <;> rw [target, hd] <;> rfl
  have hc : φ.closes = none := by rcases hd with hd | hd <;> rw [closes, hd] <;> rfl
  have hw : φ.awaits = none ∨ φ.awaits = some b := by
    rcases hd with hd | hd
    · exact .inl (by rw [awaits, hd]; rfl)
    · exact .inr (by rw [awaits, hd]; rfl)
  rw [Pool.beginDrain]
  split
  case isTrue hn =>
    refine h.of_parts h.nodup h.listed (fun b' => ?_) (fun hs b' hr hg => ?_) h.opened rfl rfl
    case refine_1 =>
      refine (h.custody b').congr rfl rfl rfl rfl rfl ?_ ?_ ?_
      · exact tally_cons_congr (f := owns) rfl
      · exact tally_cons_congr (f := closes) hc.symm
      · exact tally_cons_congr (f := target) ht.symm
    case refine_2 =>
      have ha := h.awaited hs b' hr hg
      have hm := ((h.custody b').made hr).right.right.right.right
      generalize hφ : (discipline policy).next φ (.beginDrain b) false = φ'
      have h₁ : φ'.awaits = none := by rw [← hφ]; rfl
      simp only [tally_cons, h₁] at ha ⊢
      grind
  case isFalse hn =>
    refine h.of_parts h.nodup (fun b' hb' => ?_) (fun b' => ?_) (fun hs b' hr hg => ?_)
      (fun hs b' => ?_) rfl rfl
    case refine_1 =>
      have hl := h.listed b' hb'
      simp only [Pool.modify, update_apply]
      grind
    case refine_2 =>
      generalize hφ : (discipline policy).next φ (.beginDrain b) true = φ'
      have h₁ : φ'.owns = φ.owns := by rw [← hφ]; rfl
      have h₂ : φ'.closes = none := by rw [← hφ]; rfl
      have h₃ : φ'.target = some b := by rw [← hφ]; rfl
      have hu := (h.custody b').unmade
      have hm := (h.custody b').made
      simp only [tally_cons, ht, hc] at hu hm
      constructor <;> simp only [tally_cons, h₁, h₂, h₃, Pool.modify, update_apply]
      · grind
      · grind
    case refine_3 =>
      generalize hφ : (discipline policy).next φ (.beginDrain b) true = φ'
      have h₁ : φ'.awaits = none := by rw [← hφ]; rfl
      have ha := h.awaited hs b'
      simp only [tally_cons, h₁, Pool.modify, update_apply] at ha hr hg ⊢
      grind
    case refine_4 =>
      have ha := h.opened hs b'
      simp only [Pool.modify, update_apply]
      grind

theorem checkDrained (hd : φ.drain = .waiting b deadline) :
    Owned (s.checkDrained b deadline).1 ((discipline policy).next φ (.checkDrained b deadline)
      (s.checkDrained b deadline).2 ::ₘ (M + 0)) := by
  have ht : φ.target = some b := by rw [target, hd]; rfl
  have hc : φ.closes = none := by rw [closes, hd]; rfl
  have hw : φ.awaits = none := by rw [awaits, hd]; rfl
  rw [Pool.checkDrained]
  split
  case isFalse =>
    exact h.unchanged ⟨rfl, rfl, rfl, rfl, rfl⟩
  case isTrue =>
    have hr := (h.custody b).registered_of_target (tally_pos (Multiset.mem_cons_self φ M) ht)
    refine h.of_parts (h.nodup.erase b) (fun b' hb' => ?_) (fun b' => ?_) (fun hs b' hr' hg => ?_)
      (fun hs b' => ?_) rfl rfl
    case refine_1 =>
      have hb' : b' ≠ b ∧ b' ∈ s.backends := h.nodup.mem_erase_iff.mp hb'
      have hl := h.listed b' hb'.right
      simpa only [Pool.removeBackendLocked, Pool.modify, update_of_ne hb'.left] using hl
    case refine_2 =>
      generalize hφ : (discipline policy).next φ (.checkDrained b deadline) true = φ'
      have h₁ : φ'.owns = φ.owns := by rw [← hφ]; rfl
      have h₂ : φ'.closes = some b := by rw [← hφ]; rfl
      have h₃ : φ'.target = none := by rw [← hφ]; rfl
      have hu := (h.custody b').unmade
      have hm := (h.custody b').made
      simp only [tally_cons, ht, hc] at hu hm
      constructor <;> simp only [tally_cons, h₁, h₂, h₃, Pool.removeBackendLocked, Pool.modify,
        update_apply]
      · grind
      · grind
    case refine_3 =>
      generalize hφ : (discipline policy).next φ (.checkDrained b deadline) true = φ'
      have h₁ : φ'.awaits = none := by rw [← hφ]; rfl
      have ha := h.awaited hs b'
      simp only [tally_cons, h₁, hw, Pool.removeBackendLocked, Pool.modify,
        update_apply] at ha hr' hg ⊢
      grind
    case refine_4 =>
      have ha := h.opened hs b'
      simp only [Pool.removeBackendLocked, Pool.modify, update_apply]
      intro hr' hc'
      have hn : b' ≠ b := by grind
      exact h.nodup.mem_erase_iff.mpr ⟨hn, by grind⟩

theorem endClose (hs : φ.shut = true) :
    Owned s.endClose ((discipline policy).next φ .endClose () ::ₘ (M + 0)) := by
  have hc : s.closed := h.shut φ (Multiset.mem_cons_self φ M) hs
  refine h.of_parts List.nodup_nil nofun (fun b' => ?_) (h.awaited_congr rfl)
    (fun ho => absurd hc ho) rfl rfl
  refine (h.custody b').congr rfl rfl rfl rfl rfl ?_ ?_ ?_
  · exact tally_cons_congr (f := owns) rfl
  · exact tally_cons_congr (f := closes) rfl
  · exact tally_cons_congr (f := target) rfl

theorem beginClose :
    Owned s.beginClose.1 ((discipline policy).next φ .beginClose s.beginClose.2 ::ₘ
      (M + startPhases Phase.start (spawns .beginClose s.beginClose.2))) := by
  cases hc : s.closed
  case true =>
    have he : s.beginClose = (s, none) := by simp [Pool.beginClose, hc]
    rw [he]
    exact h.unchanged ⟨rfl, rfl, rfl, rfl, rfl⟩
  case false =>
    -- The flags that the custody depends on stay as they are.
    have hf (b : Nat) : (s.beginClose.1.heap b).registered = (s.heap b).registered ∧
        (s.beginClose.1.heap b).closing = (s.heap b).closing ∧
        (s.beginClose.1.heap b).closed = (s.heap b).closed := by
      simp only [Pool.beginClose, hc, Bool.false_eq_true, if_false]
      split <;> exact ⟨rfl, rfl, rfl⟩
    have he : s.beginClose.2 = some s.backends := by simp [Pool.beginClose, hc]
    have hb : s.beginClose.1.backends = s.backends := by simp [Pool.beginClose, hc]
    have hp : s.beginClose.1.closed = true := by simp [Pool.beginClose, hc]
    have hl : s.beginClose.1.launched = s.launched := by simp [Pool.beginClose, hc]
    have hq : s.beginClose.1.closes = s.closes := by simp [Pool.beginClose, hc]
    rw [he]
    constructor
    case nodup  => exact hb ▸ h.nodup
    case listed =>
      intro b hm
      rw [(hf b).left, (hf b).right.right]
      exact h.listed b (hb ▸ hm)
    case custody =>
      intro b
      have hd := drains_owe_nothing s.backends
      refine (h.custody b).congr (hf b).left (hf b).right.left (hf b).right.right hl (hq ▸ rfl) ?_ ?_ ?_
      · exact (tally_cons_add fun φ hφ => (hd φ hφ).left).trans (tally_cons_congr rfl)
      · exact (tally_cons_add fun φ hφ => (hd φ hφ).right.left).trans (tally_cons_congr rfl)
      · exact (tally_cons_add fun φ hφ => (hd φ hφ).right.right.left).trans (tally_cons_congr rfl)
    case awaited =>
      intro _ b hr hg
      rw [(hf b).left] at hr
      rw [(hf b).right.left] at hg
      have hm := h.opened (by simp [hc]) b hr fun hd =>
        hg (((h.custody b).made hr).right.right.right.right hd)
      have := awaits_drains hm
      simp only [tally_cons, tally_add, spawns]
      omega
    case opened => exact fun ho => absurd hp ho
    case shut   => exact fun _ _ _ => hp

-- Every call that the discipline allows keeps the custody of all instances.
theorem call (ho : (discipline policy).ok φ q) (he : Pool.enabled q s) :
    After policy φ M q o s Owned := by
  have ⟨hs, hd, _, _, hu, _⟩ := ho
  cases q
  case forever => exact he.elim
  case launch => exact h.launch (Slot.eq_launching hs) o.inst
  case discard b => exact h.discard (Slot.eq_discarding hs)
  case closeProvider b => exact h.closeProvider (Drain.eq_closing hd)
  case startBackend => exact h.startBackend (Slot.eq_launched hs)
  case beginDrain b => exact h.beginDrain (Drain.eq_none_or_pending hd)
  case checkDrained => exact h.checkDrained (Drain.eq_waiting hd)
  case beginClose => exact h.beginClose
  case endClose => exact h.endClose hu
  all_goals exact h.frame ho id nofun

-- Goroutines that owe nothing do not matter.
omit h in
theorem add_fresh_iff (hN : ∀ φ ∈ N, φ.Fresh) : Owned s (M + N) ↔ Owned s M := by
  have ht {f : Phase → Option Nat} (hf : ∀ φ : Phase, φ.Fresh → f φ = none) (b : Nat) :
      tally f b (M + N) = tally f b M := by
    rw [tally_add, tally_eq_zero fun φ hφ => hf φ (hN φ hφ), Nat.add_zero]
  have h₁ := ht fun φ hφ => hφ.owns
  have h₂ := ht (f := closes) fun φ hφ => by rw [closes, hφ.drain]; rfl
  have h₃ := ht (f := target) fun φ hφ => by rw [target, hφ.drain]; rfl
  have h₄ := ht (f := awaits) fun φ hφ => by rw [awaits, hφ.drain]; rfl
  constructor
  case mp =>
    intro h
    refine ⟨h.nodup, h.listed, fun b => ?_, fun hs b hr hg => ?_, h.opened, fun φ hφ => ?_⟩
    case refine_1 => exact (h.custody b).congr rfl rfl rfl rfl rfl (h₁ b).symm (h₂ b).symm (h₃ b).symm
    case refine_2 => exact h₄ b ▸ h.awaited hs b hr hg
    case refine_3 => exact h.shut φ (Multiset.mem_add.mpr (.inl hφ))
  case mpr =>
    intro h
    refine ⟨h.nodup, h.listed, fun b => ?_, fun hs b hr hg => ?_, h.opened, fun φ hφ => ?_⟩
    case refine_1 => exact (h.custody b).congr rfl rfl rfl rfl rfl (h₁ b) (h₂ b) (h₃ b)
    case refine_2 => exact (h₄ b).symm ▸ h.awaited hs b hr hg
    case refine_3 =>
      rcases Multiset.mem_add.mp hφ with hφ | hφ
      case inl => exact h.shut φ hφ
      case inr =>
        rw [(hN φ hφ).shut]
        exact nofun

omit h in
theorem tick (h : Owned s M) (now : Int) : Owned { s with now } M :=
  ⟨h.nodup, h.listed, fun b => ⟨(h.custody b).unmade, (h.custody b).made⟩, h.awaited, h.opened, h.shut⟩

end Owned

theorem entered_fresh (a : Act) : ∀ φ ∈ startPhases Phase.start a.enters, φ.Fresh := by
  intro φ hφ
  obtain ⟨g, hg, rfl⟩ := List.mem_map.mp (Multiset.mem_coe.mp hφ)
  refine start_fresh fun b => ?_
  rintro rfl
  cases a <;> simp [Act.enters] at hg

theorem Act.apply_eq (a : Act) (s : Pool) : ∃ d : Nat, a.apply s = { s with now := s.now + d } := by
  cases a
  case tick d => exact ⟨d, rfl⟩
  all_goals exact ⟨0, by simp [apply]⟩

theorem Owned.env (h : Owned s M) (a : Act) :
    Owned (a.apply s) (M + startPhases Phase.start a.enters) := by
  obtain ⟨d, ha⟩ := a.apply_eq s
  rw [add_fresh_iff (entered_fresh a), ha]
  exact h.tick _

end HostedAgents
