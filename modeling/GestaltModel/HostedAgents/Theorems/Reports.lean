import GestaltModel.HostedAgents.Theorems.Closing

namespace HostedAgents

open Goroutines Pool

-- A session that was reported as incompatible stays so.
def Stays : Call → Outcome → Pool → Prop
  | .getSession b, o, s => ∀ session ∈ o.session, ∀ r ∈ s.reports, r.1 = b → Incompatible r.2 →
    Incompatible session
  | _, _, _ => True

-- The reports about a backend are recorded in the order in which they were given.
def InOrder : Call → Outcome → Pool → Prop
  | .recordRefresh b stamp _ _, _, s => (s.heap b).stamp ≤ stamp
  | _, _, _ => True

-- Only with the policy to never restart several goroutines refresh the sessions.
def Orderly (policy : LifecyclePolicy) (q : Call) (o : Outcome) (s : Pool) : Prop :=
  Stays q o s ∧ (policy.restartPolicy = .never → InOrder q o s)

-- The sessions of the backends are among the reports of the providers.
structure Reports (s : Pool) : Prop where
  known : ∀ r ∈ s.reports, r.1 < s.launched
  stays : s.reports.Pairwise fun r r' => r'.1 = r.1 → Incompatible r.2 → Incompatible r'.2
  stamped : ∀ b, (s.heap b).registered →
    s.reports[(s.heap b).stamp]? = some (b, (s.heap b).runtimeSession)

-- Unless the policy is to never restart, the reports it has are newer than the recorded ones.
structure Phase.Reported (policy : LifecyclePolicy) (s : Pool) (φ : Phase) : Prop where
  launched : ∀ b stamp inst, φ.slot = .launched b stamp inst →
    s.reports[stamp]? = some (b, inst.runtimeSession)
  fetched : ∀ b stamp session, φ.fetched = some (b, stamp, session) →
    s.reports[stamp]? = some (b, session) ∧ (s.heap b).registered ∧
    (policy.restartPolicy ≠ .never → φ.health ∧ (s.heap b).stamp ≤ stamp)

structure Reported (policy : LifecyclePolicy) (s : Pool) (M : Multiset Phase) : Prop where
  reports : Reports s
  phases : ∀ φ ∈ M, φ.Reported policy s
  health : M.countP (·.health) ≤ 1

section Phases

theorem next_launched (hq : q ≠ .launch)
    (h : ((discipline policy).next φ q r).slot = .launched b stamp inst) :
    φ.slot = .launched b stamp inst := by
  cases q
  case launch => exact absurd rfl hq
  case acquireBackend => cases r <;> first | exact h | contradiction
  case ensureMinReady => cases r <;> first | exact h | contradiction
  case startBackend => cases r <;> contradiction
  all_goals first | exact h | contradiction

theorem next_fetched (h₁ : ∀ b, q ≠ .getSession b)
    (h₂ : ∀ b stamp session drainAt, q ≠ .recordRefresh b stamp session drainAt) :
    ((discipline policy).next φ q r).fetched = φ.fetched := by
  cases q
  case getSession b => exact absurd rfl (h₁ b)
  case recordRefresh => exact absurd rfl (h₂ _ _ _ _)
  all_goals rfl

theorem spawned_idle :
    ∀ φ ∈ startPhases Phase.start (spawns q r), φ.fetched = none ∧ φ.health = false ∧
      ∀ b stamp inst, φ.slot ≠ .launched b stamp inst := by
  intro φ hφ
  obtain ⟨g, hg, rfl⟩ := List.mem_map.mp (Multiset.mem_coe.mp hφ)
  have hn : g ≠ .healthLoop := by
    rintro rfl
    cases q
    case acquireBackend =>
      cases r
      case acquired b scaled => cases scaled <;> simp [spawns] at hg
      all_goals cases hg
    case addLifecycleWork => cases r <;> simp [spawns] at hg
    case startProactiveReplacement => cases r <;> simp [spawns] at hg
    case probe => simp [spawns] at hg
    case beginClose => cases r <;> simp [spawns] at hg
    all_goals cases hg
  cases g
  case healthLoop => exact absurd rfl hn
  all_goals exact ⟨rfl, rfl, by simp [Phase.start]⟩

theorem entered_idle (a : Act) :
    ∀ φ ∈ startPhases Phase.start a.enters, φ.fetched = none ∧ φ.health = false ∧
      ∀ b stamp inst, φ.slot ≠ .launched b stamp inst := by
  intro φ hφ
  obtain ⟨g, hg, rfl⟩ := List.mem_map.mp (Multiset.mem_coe.mp hφ)
  cases a
  case tick => cases hg
  all_goals
    cases List.mem_singleton.mp hg
    exact ⟨rfl, rfl, nofun⟩

end Phases

theorem Phase.Reported.of_idle {φ : Phase}
    (hf : φ.fetched = none) (hs : ∀ b stamp inst, φ.slot ≠ .launched b stamp inst) :
    φ.Reported policy s where
  launched b stamp inst h   := absurd h (hs b stamp inst)
  fetched _ _ _ h           := absurd (hf.symm.trans h) nofun

theorem getElem?_of_isPrefix {α : Type} {l l' : List α} {i : Nat} {a : α} (h : l <+: l')
    (ha : l[i]? = some a) : l'[i]? = some a := by
  obtain ⟨hi, rfl⟩ := List.getElem?_eq_some_iff.mp ha
  exact List.prefix_iff_getElem?.mp h i hi

theorem Phase.Reported.mono {s s' : Pool} {φ : Phase}
    (h : φ.Reported policy s) (hr : s.reports <+: s'.reports)
    (hb : ∀ b stamp session, φ.fetched = some (b, stamp, session) → (s.heap b).registered →
      (s'.heap b).registered ∧
        (policy.restartPolicy ≠ .never → (s'.heap b).stamp = (s.heap b).stamp)) :
    φ.Reported policy s' where
  launched b stamp inst hs  := getElem?_of_isPrefix hr (h.launched b stamp inst hs)
  fetched b stamp session hs := by
    have ⟨h₁, h₂, h₃⟩ := h.fetched b stamp session hs
    have ⟨h₄, h₅⟩ := hb b stamp session hs h₂
    refine ⟨getElem?_of_isPrefix hr h₁, h₄, fun hp => ⟨(h₃ hp).left, ?_⟩⟩
    rw [h₅ hp]
    exact (h₃ hp).right

namespace Reports

theorem stamp_lt (h : Reports s) (hb : (s.heap b).registered) :
    (s.heap b).stamp < s.reports.length :=
  (List.getElem?_eq_some_iff.mp (h.stamped b hb)).choose

-- A report that is not older than the recorded one is incompatible if that one is.
theorem incompatible (h : Reports s) (hb : (s.heap b).registered)
    (hs : s.reports[stamp]? = some (b, session)) (hle : (s.heap b).stamp ≤ stamp)
    (hi : Incompatible (s.heap b).runtimeSession) : Incompatible session := by
  have hb := h.stamped b hb
  rcases hle.eq_or_lt with he | hlt
  case inl =>
    rw [he, hs] at hb
    cases hb
    exact hi
  case inr =>
    obtain ⟨h₁, h₂⟩ := List.getElem?_eq_some_iff.mp hb
    obtain ⟨h₃, h₄⟩ := List.getElem?_eq_some_iff.mp hs
    have := List.pairwise_iff_getElem.mp h.stays _ _ h₁ h₃ hlt
    rw [h₂, h₄] at this
    exact this rfl hi

-- Another report, which does not contradict the earlier ones.
theorem report (h : Reports s) (hl : s.launched ≤ s'.launched) (hb : b < s'.launched)
    (hr : s'.reports = s.reports ++ [(b, session)])
    (hs : ∀ r ∈ s.reports, r.1 = b → Incompatible r.2 → Incompatible session)
    (hh : ∀ b, (s'.heap b).registered →
      s'.reports[(s'.heap b).stamp]? = some (b, (s'.heap b).runtimeSession)) : Reports s' := by
  refine ⟨fun r hm => ?_, ?_, hh⟩
  case refine_1 =>
    rw [hr] at hm
    rcases List.mem_append.mp hm with hm | hm
    case inl => exact (h.known r hm).trans_le hl
    case inr =>
      rw [List.mem_singleton.mp hm]
      exact hb
  case refine_2 =>
    rw [hr]
    refine List.pairwise_append.mpr ⟨h.stays, List.pairwise_singleton .., ?_⟩
    intro r hm r' hm' he hi
    rw [List.mem_singleton.mp hm'] at he ⊢
    exact hs r hm he.symm hi

theorem unknown (h : Reports s) : ∀ r ∈ s.reports, r.1 = s.launched → Incompatible r.2 →
    Incompatible session :=
  fun r hm he => absurd he (h.known r hm).ne

theorem startInstance (h : Reports s) (d : Nat) (inst : Instance) :
    Reports (s.startInstance policy d inst) := by
  have hr : s.reports <+: s.reports ++ [(s.launched, inst.runtimeSession)] := List.prefix_append ..
  have hb {b : Nat} (hb : (s.heap b).registered) := getElem?_of_isPrefix hr (h.stamped b hb)
  have hl : s.launched ≤ s.launched + 1 := Nat.le_succ _
  have hn : s.launched < s.launched + 1 := Nat.lt_succ_self _
  rw [Pool.startInstance, Pool.startBackend]
  split
  case isTrue => exact h.report hl hn rfl h.unknown fun b => hb
  case isFalse =>
    refine h.report hl hn rfl h.unknown fun b hb' => ?_
    simp only [launch, Function.update_apply] at hb' ⊢
    split at hb'
    case isTrue he =>
      rw [if_pos he, he]
      exact List.getElem?_concat_length ..
    case isFalse he =>
      rw [if_neg he]
      exact hb hb'

theorem construct (now : Int) (instances : List (Nat × Instance)) :
    Reports (construct policy now instances) := by
  have hf {s : Pool} (h : Reports s) :
      Reports (instances.foldl (fun s i => s.startInstance policy i.1 i.2) s) := by
    induction instances generalizing s
    case nil => exact h
    case cons i instances hi => exact hi (h.startInstance i.1 i.2)
  exact hf ⟨nofun, .nil, nofun⟩

end Reports

namespace Reported

variable (h : Reported policy s (φ ::ₘ M))
include h

theorem assemble (hr : Reports s') (hφ : φ'.Reported policy s')
    (hM : ∀ ψ ∈ M, ψ.Reported policy s')
    (hN : ∀ ψ ∈ N, ψ.fetched = none ∧ ψ.health = false ∧ ∀ b stamp inst, ψ.slot ≠ .launched b stamp inst)
    (hh : φ'.health = φ.health) : Reported policy s' (φ' ::ₘ (M + N)) := by
  refine ⟨hr, forall_mem_next hφ hM fun ψ hψ => .of_idle (hN ψ hψ).left (hN ψ hψ).right.right, ?_⟩
  have hn : N.countP (·.health) = 0 := by
    rw [Multiset.countP_eq_zero]
    intro ψ hψ
    simp [(hN ψ hψ).right.left]
  have := h.health
  simp only [Multiset.countP_cons, Multiset.countP_add, hn, hh] at this ⊢
  omega

theorem health_unique (hφ : φ.health) (hψ : ψ ∈ M) :
    ψ.health = false := by
  by_contra hn
  have hp : 0 < M.countP (·.health) := Multiset.countP_pos.mpr ⟨ψ, hψ, by simpa using hn⟩
  have := h.health
  simp only [Multiset.countP_cons, hφ, if_true] at this
  omega

theorem frame (hq : ¬q.Refreshes) :
    After policy φ M q o s (Reported policy) := by
  have hs : ∀ b stamp inst, q ≠ .startBackend b stamp inst := fun _ _ _ he => hq (he ▸ trivial)
  have hf : s.Follows q (Pool.exec policy q o s).1 := exec_follows hs
  have hr := hf.reports hq
  have hb {b : Nat} (hb : (s.heap b).registered) : ((Pool.exec policy q o s).1.heap b).registered ∧
      (policy.restartPolicy ≠ .never →
        ((Pool.exec policy q o s).1.heap b).stamp = (s.heap b).stamp) :=
    ⟨(hf.heap b).registered.trans hb, fun _ => ((hf.heap b).session hq).right⟩
  have hp {ψ : Phase} (hψ : ψ.Reported policy s) : ψ.Reported policy (Pool.exec policy q o s).1 :=
    hψ.mono (hr ▸ List.prefix_rfl) fun _ _ _ _ => hb
  refine h.assemble ⟨?_, ?_, ?_⟩ ⟨?_, ?_⟩ (fun ψ hψ => hp (h.phases ψ (Multiset.mem_cons_of_mem hψ)))
    spawned_idle rfl
  · intro r hm
    rw [hr] at hm
    exact (h.reports.known r hm).trans_le hf.grown
  · rw [hr]
    exact h.reports.stays
  · intro b hb
    rw [(hf.heap b).registered] at hb
    rw [hr, ((hf.heap b).session hq).left, ((hf.heap b).session hq).right]
    exact h.reports.stamped b hb
  · intro b stamp inst hl
    have hn : q ≠ .launch := fun he => hq (he ▸ trivial)
    exact (hp (h.phases φ (Multiset.mem_cons_self φ M))).launched b stamp inst (next_launched hn hl)
  · intro b stamp session hl
    have hg : ∀ b, q ≠ .getSession b := fun _ he => hq (he ▸ trivial)
    have hr : ∀ b stamp session at', q ≠ .recordRefresh b stamp session at' :=
      fun _ _ _ _ he => hq (he ▸ trivial)
    rw [next_fetched hg hr] at hl
    exact (hp (h.phases φ (Multiset.mem_cons_self φ M))).fetched b stamp session hl

theorem launch (inst : Option Instance) :
    Reported policy (s.launch inst).1
      ((discipline policy).next φ .launch (s.launch inst).2 ::ₘ (M + 0)) := by
  have hφ := h.phases φ (Multiset.mem_cons_self φ M)
  cases inst
  case none =>
    refine h.assemble h.reports ⟨nofun, hφ.fetched⟩
      (fun ψ hψ => h.phases ψ (Multiset.mem_cons_of_mem hψ)) forall_mem_zero rfl
  case some inst =>
    have hr : s.reports <+: (s.launch (some inst)).1.reports := List.prefix_append ..
    have hm {ψ : Phase} (hψ : ψ.Reported policy s) : ψ.Reported policy (s.launch (some inst)).1 :=
      hψ.mono hr fun _ _ _ _ hb => ⟨hb, fun _ => rfl⟩
    refine h.assemble ?_ ⟨fun b stamp inst' hs => ?_, (hm hφ).fetched⟩
      (fun ψ hψ => hm (h.phases ψ (Multiset.mem_cons_of_mem hψ))) forall_mem_zero rfl
    case refine_1 =>
      exact h.reports.report (Nat.le_succ _) (Nat.lt_succ_self _) rfl h.reports.unknown
        fun b hb => getElem?_of_isPrefix hr (h.reports.stamped b hb)
    case refine_2 =>
      cases hs
      exact List.getElem?_concat_length ..

theorem getSession (hg : Stays (.getSession b) o s)
    (hp : policy.restartPolicy = .never ∨ φ.health) :
    Reported policy (s.getSession b o.session).1
      ((discipline policy).next φ (.getSession b) (s.getSession b o.session).2 ::ₘ (M + 0)) := by
  have hφ := h.phases φ (Multiset.mem_cons_self φ M)
  have hn : Reported policy s ((discipline policy).next φ (.getSession b) none ::ₘ (M + 0)) :=
    h.assemble h.reports ⟨hφ.launched, hφ.fetched⟩
      (fun ψ hψ => h.phases ψ (Multiset.mem_cons_of_mem hψ)) forall_mem_zero rfl
  cases hs : o.session
  case none => exact hn
  case some session =>
    rw [Pool.getSession]
    split
    case isFalse   => exact hn
    case isTrue hb =>
      have hr : s.reports <+: s.reports ++ [(b, session)] := List.prefix_append ..
      have hm {ψ : Phase} (hψ : ψ.Reported policy s) :
          ψ.Reported policy { s with reports := s.reports ++ [(b, session)] } :=
        hψ.mono hr fun _ _ _ _ hb => ⟨hb, fun _ => rfl⟩
      refine h.assemble ?_ ⟨(hm hφ).launched, fun b' stamp session' hf => ?_⟩
        (fun ψ hψ => hm (h.phases ψ (Multiset.mem_cons_of_mem hψ))) forall_mem_zero rfl
      case refine_1 =>
        have hk := h.reports.known _ (List.mem_of_getElem? (h.reports.stamped b hb))
        exact h.reports.report le_rfl hk rfl (hg session hs)
          fun b hb => getElem?_of_isPrefix hr (h.reports.stamped b hb)
      case refine_2 =>
        cases hf
        refine ⟨List.getElem?_concat_length .., hb, fun hn => ⟨hp.resolve_left hn, ?_⟩⟩
        exact (h.reports.stamp_lt hb).le

theorem recordRefresh (hf : φ.fetched = some (b, stamp, session))
    (hφ : φ'.slot = φ.slot ∧ φ'.fetched = none ∧ φ'.health = φ.health) :
    Reported policy (s.recordRefresh b stamp session drainAt).1 (φ' ::ₘ (M + 0)) := by
  have hl := h.phases φ (Multiset.mem_cons_self φ M)
  have hφ' {s' : Pool} (he : s'.reports = s.reports) : φ'.Reported policy s' := by
    refine ⟨fun b stamp inst hs => ?_, fun b stamp session hs => ?_⟩
    · rw [he]
      exact hl.launched b stamp inst (hφ.left ▸ hs)
    · exact absurd (hφ.right.left.symm.trans hs) (by simp)
  rw [Pool.recordRefresh]
  split
  case isFalse =>
    exact h.assemble h.reports (hφ' rfl) (fun ψ hψ => h.phases ψ (Multiset.mem_cons_of_mem hψ))
      forall_mem_zero hφ.right.right
  case isTrue =>
    obtain ⟨hr, hb, hp⟩ := hl.fetched b stamp session hf
    refine h.assemble ⟨h.reports.known, h.reports.stays, fun b' hb' => ?_⟩ (hφ' rfl)
      (fun ψ hψ => ?_) forall_mem_zero hφ.right.right
    case refine_1 =>
      dsimp only at hb' ⊢
      by_cases he : b' = b
      case pos =>
        rw [he, modify_heap_self]
        exact hr
      case neg =>
        rw [modify_heap_of_ne he] at hb' ⊢
        exact h.reports.stamped b' hb'
    case refine_2 =>
      have hψ' := h.phases ψ (Multiset.mem_cons_of_mem hψ)
      refine hψ'.mono List.prefix_rfl fun b' stamp' session' hs hb' => ?_
      dsimp only
      by_cases he : b' = b
      case neg =>
        rw [modify_heap_of_ne he]
        exact ⟨hb', fun _ => rfl⟩
      case pos =>
        subst he
        rw [modify_heap_self]
        refine ⟨hb', fun hn => ?_⟩
        -- Both would be the health loop.
        have h₁ := h.health_unique (hp hn).left hψ
        have h₂ := ((hψ'.fetched b' stamp' session' hs).right.right hn).left
        exact absurd (h₁.symm.trans h₂) (by simp)

theorem startBackend (hs : φ.slot = .launched b stamp inst) (hr : (s.heap b).registered = false)
    (hφ : (∀ b stamp inst, φ'.slot ≠ .launched b stamp inst) ∧ φ'.fetched = φ.fetched ∧
      φ'.health = φ.health) :
    Reported policy (s.startBackend policy b stamp inst).1 (φ' ::ₘ (M + 0)) := by
  have hl := h.phases φ (Multiset.mem_cons_self φ M)
  have hm {ψ : Phase} (hψ : ψ.Reported policy s) :
      ψ.Reported policy (s.startBackend policy b stamp inst).1 := by
    rw [Pool.startBackend]
    split
    case isTrue => exact hψ
    case isFalse =>
      refine hψ.mono List.prefix_rfl fun b' stamp' session' _ hb' => ?_
      have hn : b' ≠ b := by
        rintro rfl
        exact absurd (hr.symm.trans hb') (by simp)
      dsimp only
      rw [Function.update_of_ne hn]
      exact ⟨hb', fun _ => rfl⟩
  refine h.assemble ?_ ⟨fun b stamp inst he => absurd he (hφ.left b stamp inst), ?_⟩
    (fun ψ hψ => hm (h.phases ψ (Multiset.mem_cons_of_mem hψ))) forall_mem_zero hφ.right.right
  case refine_1 =>
    rw [Pool.startBackend]
    split
    case isTrue  => exact h.reports
    case isFalse =>
      refine ⟨h.reports.known, h.reports.stays, fun b' hb' => ?_⟩
      dsimp only at hb' ⊢
      by_cases he : b' = b
      case pos =>
        rw [he, Function.update_self]
        exact hl.launched b stamp inst hs
      case neg =>
        rw [Function.update_of_ne he] at hb' ⊢
        exact h.reports.stamped b' hb'
  case refine_2 =>
    intro b' stamp' session' hf
    have := (hm hl).fetched b' stamp' session' (hφ.right.left ▸ hf)
    rwa [hφ.right.right]

theorem call (hw : Owned s (φ ::ₘ M))
    (ho : (discipline policy).ok φ q) (hg : Stays q o s) :
    After policy φ M q o s (Reported policy) := by
  by_cases hq : q.Refreshes
  case neg => exact h.frame hq
  case pos =>
    have hf := ho.right.right.right.right.right
    cases q <;> try exact hq.elim
    case launch        => exact h.launch o.inst
    case getSession b  => exact h.getSession hg hf
    case recordRefresh => exact h.recordRefresh hf ⟨rfl, rfl, rfl⟩
    case startBackend b stamp inst =>
      have hs := Slot.eq_launched ho.left
      refine h.startBackend hs ?_ ⟨?_, rfl, rfl⟩
      · refine (hw.custody b).unregistered (tally_pos (Multiset.mem_cons_self φ M) ?_)
        rw [Phase.owns, hs]
        rfl
      · intro b' stamp' inst'
        simp only [discipline, Pool.exec]
        generalize (s.startBackend policy b stamp inst).2 = r
        cases r <;> simp [Slot.next]

theorem stays_incompatible (hw : Owned s (φ ::ₘ M))
    (ho : (discipline policy).ok φ q) (hg : policy.restartPolicy = .never → InOrder q o s)
    (hb : (s.heap b).registered) (hi : Incompatible (s.heap b).runtimeSession) :
    Incompatible ((Pool.exec policy q o s).1.heap b).runtimeSession := by
  by_cases hq : q.Refreshes
  case neg =>
    have hs : ∀ b stamp inst, q ≠ .startBackend b stamp inst := fun _ _ _ he => hq (he ▸ trivial)
    have hf : (s.heap b).Follows q ((Pool.exec policy q o s).1.heap b) := (exec_follows hs).heap b
    rw [(hf.session hq).left]
    exact hi
  case pos =>
    have hf := ho.right.right.right.right.right
    cases q <;> try exact hq.elim
    case launch =>
      have he : (s.launch o.inst).1.heap = s.heap := by
        cases o.inst <;> rfl
      change Incompatible ((s.launch o.inst).1.heap b).runtimeSession
      rw [he]
      exact hi
    case getSession b' =>
      simp only [Pool.exec, Pool.getSession]
      repeat' split
      all_goals exact hi
    case recordRefresh b' stamp session drainAt =>
      have hs := (h.phases φ (Multiset.mem_cons_self φ M)).fetched b' stamp session hf
      have hle : (s.heap b').stamp ≤ stamp := by
        by_cases hp : policy.restartPolicy = .never
        case pos => exact hg hp
        case neg => exact (hs.right.right hp).right
      simp only [Pool.exec, Pool.recordRefresh]
      split
      case isFalse => exact hi
      case isTrue  =>
        by_cases he : b = b'
        case neg =>
          rw [modify_heap_of_ne he]
          exact hi
        case pos =>
          subst he
          rw [modify_heap_self]
          exact h.reports.incompatible hb hs.left hle hi
    case startBackend b' stamp inst =>
      have hn : b ≠ b' := by
        rintro rfl
        have hr := (hw.custody b).unregistered (tally_pos (Multiset.mem_cons_self φ M)
          (by rw [Phase.owns, Slot.eq_launched ho.left]; rfl))
        exact absurd (hr.symm.trans hb) (by simp)
      simp only [Pool.exec, Pool.startBackend]
      split
      case isTrue  => exact hi
      case isFalse =>
        dsimp only
        rw [Function.update_of_ne hn]
        exact hi

omit h in
theorem env (h : Reported policy s M) (a : Act) :
    Reported policy (a.apply s) (M + startPhases Phase.start a.enters) := by
  obtain ⟨d, ha⟩ := a.apply_eq s
  rw [ha]
  refine ⟨⟨h.reports.known, h.reports.stays, h.reports.stamped⟩, fun φ hφ => ?_, ?_⟩
  case refine_1 =>
    rcases Multiset.mem_add.mp hφ with hφ | hφ
    case inl => exact ⟨(h.phases φ hφ).launched, (h.phases φ hφ).fetched⟩
    case inr => exact .of_idle (entered_idle a φ hφ).left (entered_idle a φ hφ).right.right
  case refine_2 =>
    have hn : (startPhases Phase.start a.enters).countP (·.health) = 0 := by
      rw [Multiset.countP_eq_zero]
      intro ψ hψ
      simp [(entered_idle a ψ hψ).right.left]
    rw [Multiset.countP_add, hn]
    exact h.health

end Reported
end HostedAgents
