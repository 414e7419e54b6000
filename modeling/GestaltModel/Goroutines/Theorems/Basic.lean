import GestaltModel.Goroutines.Basic

namespace Goroutines

open Interleaving (Program)

variable {G C : Type} {R : C → Type} {S Φ α β : Type}

namespace Discipline.Keeps

variable {d : Discipline C R Φ} {post : α → Φ → Prop} {φ : Φ}

theorem mono (h : d.Keeps post p φ) (hp : ∀ a φ, post a φ → post' a φ) : d.Keeps post' p φ := by
  induction p generalizing φ
  case ret a => exact hp a φ h
  case call q k hi => exact ⟨h.left, fun r => hi r (h.right r)⟩

theorem bind {post : β → Φ → Prop} (h : d.Keeps mid p φ) (hf : ∀ a φ, mid a φ → d.Keeps post (f a) φ) :
    d.Keeps post (p >>= f) φ := by
  induction p generalizing φ
  case ret a => exact hf a φ h
  case call q k hi => exact ⟨h.left, fun r => hi r (h.right r)⟩

end Discipline.Keeps

section Tally

variable [DecidableEq ι] {f : Φ → Option ι} {i : ι} {M N : Multiset Φ} {φ φ' : Φ}

theorem tally_cons : tally f i (φ ::ₘ M) = tally f i M + if f φ = some i then 1 else 0 :=
  Multiset.countP_cons ..

theorem tally_add : tally f i (M + N) = tally f i M + tally f i N :=
  Multiset.countP_add ..

theorem tally_cons_of_eq (h : f φ = some i) : tally f i (φ ::ₘ M) = tally f i M + 1 := by
  rw [tally_cons, if_pos h]

theorem tally_eq_zero (h : ∀ φ ∈ M, f φ = none) : tally f i M = 0 := by
  rw [tally, Multiset.countP_eq_zero]
  intro φ hφ
  rw [h φ hφ]
  exact nofun

theorem tally_pos (h : φ ∈ M) (hf : f φ = some i) : 0 < tally f i M :=
  Multiset.countP_pos.mpr ⟨φ, h, hf⟩

theorem tally_cons_add (hN : ∀ φ ∈ N, f φ = none) :
    tally f i (φ ::ₘ (M + N)) = tally f i (φ ::ₘ M) := by
  rw [tally_cons, tally_cons, tally_add, tally_eq_zero hN, Nat.add_zero]

theorem tally_cons_congr (h : f φ' = f φ) : tally f i (φ' ::ₘ M) = tally f i (φ ::ₘ M) := by
  rw [tally_cons, tally_cons, h]

end Tally

-- What holds of each phase after a call, which starts goroutines in the phases `N`.
theorem forall_mem_next {p : Φ → Prop} {M N : Multiset Φ} (hφ : p φ) (hM : ∀ ψ ∈ M, p ψ)
    (hN : ∀ ψ ∈ N, p ψ) : ∀ ψ ∈ φ ::ₘ (M + N), p ψ := by
  intro ψ hψ
  rcases Multiset.mem_cons.mp hψ with rfl | hψ
  case inl => exact hφ
  case inr => exact (Multiset.mem_add.mp hψ).elim (hM ψ) (hN ψ)

theorem forall_mem_zero {p : Φ → Prop} : ∀ φ ∈ (0 : Multiset Φ), p φ :=
  fun φ hφ => absurd hφ (Multiset.notMem_zero φ)

section Schedules

variable {m : System G C R S} {guard : C → m.Oracle → S → Prop} {c c' : Config C R S}
variable [∀ q s, Decidable (m.enabled q s)] [∀ q o s, Decidable (guard q o s)]

theorem Config.step_of_fire (h : c.fire m guard e = some c') : Step m guard c c' := by
  cases e
  case env a =>
    cases h
    exact .env a
  case call i o =>
    simp only [Config.fire] at h
    split at h
    case h_2 => contradiction
    case h_1 q k hi =>
      split at h
      case isFalse => contradiction
      case isTrue hg =>
        cases h
        obtain ⟨hl, hi⟩ := List.getElem?_eq_some_iff.mp hi
        have hs : c.threads = c.threads.take i ++ .call q k :: c.threads.drop (i + 1) := by
          rw [← hi, List.getElem_cons_drop, List.take_append_drop]
        have hstep : Step m guard ⟨c.mem, c.threads.take i ++ .call q k :: c.threads.drop (i + 1)⟩ _ :=
          .call o hg.left hg.right
        rwa [← hs] at hstep

theorem Config.reaches_of_run (h : c.run m guard es = some c') :
    Reaches m guard c c' := by
  induction es generalizing c
  case nil =>
    cases h
    exact .refl
  case cons e es hi =>
    obtain ⟨c₁, h₁, h₂⟩ := Option.bind_eq_some_iff.mp h
    exact .head (step_of_fire h₁) (hi h₂)

variable (m guard) in
theorem Config.exists_reaches_of_run (c : Config C R S) (P : Config C R S → Prop) [DecidablePred P]
    (es : List (Event m)) (h : (c.run m guard es).any (P ·)) : ∃ c', Reaches m guard c c' ∧ P c' := by
  cases hr : c.run m guard es
  case none => simp [hr] at h
  case some c' => exact ⟨c', reaches_of_run hr, by simpa [hr] using h⟩

end Schedules

namespace Sound

variable {m : System G C R S} {guard : C → m.Oracle → S → Prop} {d : Discipline C R Φ}
variable {done : Φ → Prop} {start : G → Φ} {inv : S → Multiset Φ → Prop} {c c' : Config C R S}

theorem phases_middle {φ : Φ} :
    phases (l₁ ++ (p, φ) :: l₂) = φ ::ₘ phases (l₁ ++ l₂) := by
  simp only [phases, List.map_append, List.map_cons, Multiset.cons_coe, Multiset.coe_eq_coe]
  exact List.perm_middle

theorem of_start (hb : ∀ g, d.Keeps (fun _ => done) (m.body g) (start g))
    (hi : inv s (startPhases start gs)) : Sound d done inv ⟨s, gs.map m.body⟩ := by
  refine ⟨gs.map fun g => (m.body g, start g), ?_, fun t ht => ?_, ?_⟩
  case refine_1 => simp [Function.comp_def]
  case refine_3 => simpa [phases, startPhases, Function.comp_def] using hi
  case refine_2 =>
    obtain ⟨g, -, rfl⟩ := List.mem_map.mp ht
    exact hb g

theorem spawn (hb : ∀ g, d.Keeps (fun _ => done) (m.body g) (start g))
    (hk : ∀ t ∈ l, d.Keeps (fun _ => done) t.1 t.2) (hi : inv s (phases l + startPhases start gs)) :
    Sound d done inv ⟨s, l.map Prod.fst ++ gs.map m.body⟩ := by
  refine ⟨l ++ gs.map fun g => (m.body g, start g), ?_, fun t ht => ?_, ?_⟩
  case refine_1 => simp [Function.comp_def]
  case refine_3 => simpa [phases, startPhases, Function.comp_def] using hi
  case refine_2 =>
    rcases List.mem_append.mp ht with ht | ht
    case inl => exact hk t ht
    case inr =>
      obtain ⟨g, -, rfl⟩ := List.mem_map.mp ht
      exact hb g

-- A call is made by a thread in some phase, which allows it. The others keep their phases.
theorem call_cases (h : Sound d done inv ⟨s, l₁ ++ .call q k :: l₂⟩) :
    ∃ (φ : Φ) (t₁ t₂ : List (Program C R Unit × Φ)), t₁.map Prod.fst = l₁ ∧ t₂.map Prod.fst = l₂ ∧
      (∀ t ∈ t₁ ++ t₂, d.Keeps (fun _ => done) t.1 t.2) ∧ d.ok φ q ∧
      (∀ r, d.Keeps (fun _ => done) (k r) (d.next φ q r)) ∧
      inv s (φ ::ₘ phases (t₁ ++ t₂)) := by
  obtain ⟨l, hl, hk, hi⟩ := h
  obtain ⟨t₁, t, rfl, h₁, ht⟩ := List.map_eq_append_iff.mp hl
  obtain ⟨⟨p, φ⟩, t₂, rfl, rfl, h₂⟩ := List.map_eq_cons_iff.mp ht
  have hp := hk (.call q k, φ) (by simp)
  refine ⟨φ, t₁, t₂, h₁, h₂, fun t ht => hk t ?_, hp.left, hp.right, ?_⟩
  case refine_1 =>
    rcases List.mem_append.mp ht with ht | ht
    case inl => exact List.mem_append_left _ ht
    case inr => exact List.mem_append_right _ (List.mem_cons_of_mem _ ht)
  case refine_2 => rwa [phases_middle] at hi

theorem step (hp : Preserved m guard d start inv)
    (hb : ∀ g, d.Keeps (fun _ => done) (m.body g) (start g)) (h : Sound d done inv c)
    (e : Step m guard c c') : Sound d done inv c' := by
  cases e
  case env s l a =>
    obtain ⟨l', rfl, hk, hi⟩ := h
    exact spawn hb hk (hp.env a hi)
  case call s l₁ l₂ q k o he hg =>
    obtain ⟨φ, t₁, t₂, rfl, rfl, hk, ho, hn, hi⟩ := h.call_cases
    have hs := hp.call o hi ho he hg
    have hl : t₁.map Prod.fst ++ k (m.exec q o s).2 :: t₂.map Prod.fst =
        (t₁ ++ (k (m.exec q o s).2, d.next φ q (m.exec q o s).2) :: t₂).map Prod.fst := by simp
    rw [hl]
    refine spawn hb (fun t ht => ?_) ?_
    case refine_1 =>
      rcases List.mem_append.mp ht with ht | ht
      case inl => exact hk t (List.mem_append_left _ ht)
      case inr =>
        rcases List.mem_cons.mp ht with rfl | ht
        case inl => exact hn _
        case inr => exact hk t (List.mem_append_right _ ht)
    case refine_2 => rwa [phases_middle, Multiset.cons_add]

theorem reaches (hp : Preserved m guard d start inv)
    (hb : ∀ g, d.Keeps (fun _ => done) (m.body g) (start g)) (h : Sound d done inv c)
    (e : Reaches m guard c c') : Sound d done inv c' := by
  induction e
  case refl => exact h
  case tail _ e hi => exact hi.step hp hb e

-- What the invariant says about the memory before a step, and about the phase of the caller, is
-- available for a property of the step.
theorem step_cases {P : S → S → Prop} (h : Sound d done inv c) (e : Step m guard c c')
    (call : ∀ {φ M q} o, inv c.mem (φ ::ₘ M) → d.ok φ q → m.enabled q c.mem → guard q o c.mem →
      P c.mem (m.exec q o c.mem).1)
    (env : ∀ {M} a, inv c.mem M → P c.mem (m.act a c.mem)) : P c.mem c'.mem := by
  cases e
  case env s l a =>
    obtain ⟨l', rfl, hk, hi⟩ := h
    exact env a hi
  case call s l₁ l₂ q k o he hg =>
    obtain ⟨φ, t₁, t₂, -, -, -, ho, -, hi⟩ := h.call_cases
    exact call o hi ho he hg

end Sound
end Goroutines
