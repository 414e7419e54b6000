import GestaltModel.Interleaving.Program
import Mathlib.Logic.Relation

namespace Interleaving.Program

variable {C : Type} {R : C → Type} {α β γ ε S : Type}

-- A program that runs alone and is cut off: what it still had to do, and the memory it has left.
inductive Runs (handle : (c : C) → S → S × R c) :
    Program C R α → S → Program C R α → S → Prop
  | stop {p s} : Runs handle p s p s
  | call {c k s p' s'} : Runs handle (k (handle c s).2) (handle c s).1 p' s' →
    Runs handle (.call c k) s p' s'

def advance (handle : (c : C) → S → S × R c) : Nat → Program C R α → S → Program C R α × S
  | 0, p, s => (p, s)
  | _ + 1, ret a, s => (ret a, s)
  | n + 1, call c k, s => advance handle n (k (handle c s).2) (handle c s).1

namespace Runs

variable {handle : (c : C) → S → S × R c} {p q : Program C R α} {s s' s'' : S}

theorem trans (h : Runs handle p s q s') (h' : Runs handle q s' r s'') :
    Runs handle p s r s'' := by
  induction h
  case stop => exact h'
  case call _ hi => exact .call (hi h')

theorem to_end (p : Program C R α) (s : S) :
    Runs handle p s (.ret (p.eval handle s).2) (p.eval handle s).1 := by
  induction p generalizing s
  case ret a => exact .stop
  case call c k hi => exact .call (hi _ _)

theorem of_ret (h : Runs handle (.ret a) s q s') : q = .ret a ∧ s' = s := by
  cases h
  exact ⟨rfl, rfl⟩

theorem only (h : Runs handle p s q s') (hp : Only P p) : Only P q := by
  induction h
  case stop => exact hp
  case call _ hi =>
    cases hp
    case call _ hk => exact hi (hk _)

-- A sequence of programs is cut off in one of them.
theorem bind_cases {r : Program C R β} (h : Runs handle (p >>= f) s r s') :
    (∃ q, Runs handle p s q s' ∧ r = (q >>= f)) ∨
    Runs handle (f (p.eval handle s).2) (p.eval handle s).1 r s' := by
  induction p generalizing s
  case ret a => exact .inr h
  case call c k hi =>
    cases h
    case stop   => exact .inl ⟨_, .stop, rfl⟩
    case call h =>
      rcases hi _ h with ⟨q, hq, rfl⟩ | h
      case inl => exact .inl ⟨q, .call hq, rfl⟩
      case inr => exact .inr h

end Runs

-- One run after the other, each of which is cut off somewhere.
def Restarts (handle : (c : C) → S → S × R c) (p : β → Program C R α) : S → S → Prop :=
  Relation.ReflTransGen fun s s' => ∃ i q, Runs handle (p i) s q s'

-- What holds wherever a run can be cut off holds after any number of such runs.
theorem Restarts.invariant {I : S → Prop} (h : Restarts handle p s s')
    (hr : ∀ {i s q s'}, I s → Runs handle (p i) s q s' → I s') (hs : I s) : I s' := by
  induction h
  case refl => exact hs
  case tail s₁ s₂ _ hc hi =>
    obtain ⟨i, q, hq⟩ := hc
    exact hr hi hq

-- However often the program is cut off and started again, a run that is not cut off succeeds, and
-- `E` holds when it ends.
def Converges (handle : (c : C) → S → S × R c) (p : Program C R (Except ε Unit)) (s : S)
    (E : S → Prop) : Prop :=
  ∀ s', Restarts handle (fun _ : Unit => p) s s' → ∃ e, p.eval handle s' = (e, .ok ()) ∧ E e

-- Calls in `P` that start in related memories have the same responses and end in related memories.
def Simulates (handle : (c : C) → S → S × R c) (P : C → Prop) (r : S → S → Prop) : Prop :=
  ∀ c, P c → ∀ s t, r s t → (handle c t).2 = (handle c s).2 ∧ r (handle c s).1 (handle c t).1

namespace Simulates

variable {handle : (c : C) → S → S × R c} {P : C → Prop} {r : S → S → Prop}
  {p q : Program C R α} {s t t' : S}

theorem eval (h : Simulates handle P r) (hp : Only P p) (hst : r s t) :
    (p.eval handle t).2 = (p.eval handle s).2 ∧ r (p.eval handle s).1 (p.eval handle t).1 := by
  induction hp generalizing s t
  case ret => exact ⟨rfl, hst⟩
  case call c k hc _ hi =>
    obtain ⟨he, hs⟩ := h c hc s t hst
    rw [eval_call, eval_call, he]
    exact hi _ hs

theorem runs (h : Simulates handle P r) (hp : Only P p) (hst : r s t)
    (hr : Runs handle p t q t') : ∃ s', Runs handle p s q s' ∧ r s' t' := by
  induction hr generalizing s
  case stop => exact ⟨s, .stop, hst⟩
  case call c k t p' t' _ hi =>
    cases hp
    case call hc hk =>
      obtain ⟨he, hs⟩ := h c hc s t hst
      obtain ⟨s', hr, hs'⟩ := hi (hk _) hs
      rw [he] at hr
      exact ⟨s', .call hr, hs'⟩

theorem restarts (h : Simulates handle P r) (hp : Only P p) (hst : r s t)
    (hr : Restarts handle (fun _ : Unit => p) t t') :
    ∃ s', Restarts handle (fun _ : Unit => p) s s' ∧ r s' t' := by
  refine hr.invariant (I := fun t' => ∃ s', Restarts handle (fun _ : Unit => p) s s' ∧ r s' t')
    (fun {i t₁ q t₂} ht hq => ?_) ⟨s, .refl, hst⟩
  obtain ⟨s₁, hs, hr⟩ := ht
  obtain ⟨s₂, hq, hr⟩ := h.runs hp hr hq
  exact ⟨s₂, hs.tail ⟨i, q, hq⟩, hr⟩

end Simulates

theorem Runs.invariant {handle : (c : C) → S → S × R c} {P : C → Prop} {I : S → Prop}
    {p q : Program C R α} (h : Runs handle p s q s') (hp : Only P p)
    (hI : ∀ c s, P c → I s → I (handle c s).1) (hs : I s) : I s' := by
  induction h
  case stop => exact hs
  case call hi =>
    cases hp
    case call hc hk => exact hi (hk _) (hI _ _ hc hs)

namespace Converges

variable {handle : (c : C) → S → S × R c} {p : Program C R (Except ε Unit)} {s s' t : S}
  {E E' : S → Prop}

theorem mono (h : Converges handle p s E) (hE : ∀ e, E e → E' e) : Converges handle p s E' := by
  intro s' hs
  obtain ⟨e, he, hx⟩ := h s' hs
  exact ⟨e, he, hE e hx⟩

theorem of_runs (h : Converges handle p s E) (hr : Runs handle p s q s') :
    Converges handle p s' E :=
  fun s'' hs => h s'' (.head ⟨(), q, hr⟩ hs)

theorem congr (h : Converges handle p s E) (hr : Simulates handle P r) (hp : Only P p) (hst : r s t)
    (hE : ∀ e e', r e e' → E e → E e') : Converges handle p t E := by
  intro t' ht
  obtain ⟨s', hs, hst'⟩ := hr.restarts hp hst ht
  obtain ⟨e, he, hx⟩ := h s' hs
  have ht' := hr.eval hp hst'
  rw [he] at ht'
  exact ⟨_, Prod.ext rfl ht'.left, hE e _ ht'.right hx⟩

-- A call in front whose response is always the same, and which changes nothing.
theorem call {k : R c → Program C R (Except ε Unit)} (h : Converges handle (k r) s E)
    (hc : ∀ s', Restarts handle (fun _ : Unit => k r) s s' → handle c s' = (s', r)) :
    Converges handle (.call c k) s E := by
  intro s' hs
  have hk : Restarts handle (fun _ : Unit => k r) s s' := by
    refine hs.invariant (fun {_ s₁ q s₂} hs₁ hq => ?_) .refl
    cases hq
    case stop => exact hs₁
    case call hq =>
      rw [hc s₁ hs₁] at hq
      exact hs₁.tail ⟨(), q, hq⟩
  rw [eval_call, hc s' hk]
  exact h s' hk

end Converges

-- Parts that can fail, where the second one is left out if the first one does.
def andThen (p q : Program C R (Except ε Unit)) : Program C R (Except ε Unit) := do
  match ← p with
  | .error e => return .error e
  | .ok () => q

def each (f : α → Program C R (Except ε Unit)) : List α → Program C R (Except ε Unit)
  | [] => return .ok ()
  | a :: l => andThen (f a) (each f l)

section Steps

variable {ε : Type} {handle : (c : C) → S → S × R c} {p q r : Program C R (Except ε Unit)}
  {s s' e : S} {f : α → Program C R (Except ε Unit)} {l l₁ l₂ : List α}

theorem bind_bind {p : Program C R α} {f : α → Program C R β} {g : β → Program C R γ} :
    ((p >>= f) >>= g) = (p >>= fun a => f a >>= g) := by
  induction p
  case ret => rfl
  case call c k hi => exact congrArg (Program.call c) (funext fun r => hi r)

theorem andThen_assoc : andThen (andThen p q) r = andThen p (andThen q r) := by
  refine bind_bind.trans (congrArg (p >>= ·) (funext fun a => ?_))
  cases a <;> rfl

theorem andThen_ok : andThen p (.ret (.ok ())) = p := by
  induction p
  case ret a => cases a <;> rfl
  case call c k hi => exact congrArg (Program.call c) (funext fun r => hi r)

theorem each_append : each f (l₁ ++ l₂) = andThen (each f l₁) (each f l₂) := by
  induction l₁
  case nil => rfl
  case cons a l hi => rw [List.cons_append, each, each, hi, andThen_assoc]

theorem each_map {g : β → α} {l : List β} : each f (l.map g) = each (fun b => f (g b)) l := by
  induction l
  case nil => rfl
  case cons b l hi => rw [List.map_cons, each, each, hi]

theorem Only.andThen {P : C → Prop} (hp : Only P p) (hq : Only P q) : Only P (andThen p q) :=
  .bind_ok hp (fun _ => .ret _) fun _ => hq

theorem Only.each {P : C → Prop} (hf : ∀ a ∈ l, Only P (f a)) : Only P (each f l) := by
  induction l
  case nil => exact .ret _
  case cons a l hi =>
    obtain ⟨ha, hl⟩ := List.forall_mem_cons.mp hf
    exact ha.andThen (hi hl)

theorem eval_andThen (h : p.eval handle s = (s', .ok ())) :
    (andThen p q).eval handle s = q.eval handle s' := by
  rw [andThen, eval_bind, h]

theorem eval_andThen_eq_ok :
    (andThen p q).eval handle s = (e, .ok ()) ↔
      ∃ s', p.eval handle s = (s', .ok ()) ∧ q.eval handle s' = (e, .ok ()) := by
  constructor
  case mpr =>
    rintro ⟨s', hp, hq⟩
    rwa [eval_andThen hp]
  case mp =>
    intro h
    cases hp : p.eval handle s
    case mk s' result =>
      cases result
      case ok    => exact ⟨s', rfl, (eval_andThen hp).symm.trans h⟩
      case error =>
        rw [andThen, eval_bind, hp] at h
        cases (Prod.mk.inj h).right

theorem eval_each_append :
    (each f (l₁ ++ l₂)).eval handle s = (e, .ok ()) ↔ ∃ s',
      (each f l₁).eval handle s = (s', .ok ()) ∧ (each f l₂).eval handle s' = (e, .ok ()) := by
  rw [each_append, eval_andThen_eq_ok]

theorem runs_andThen (h : Runs handle (andThen p q) s r s') :
    (∃ p', Runs handle p s p' s') ∨
    ∃ s₁ q', p.eval handle s = (s₁, .ok ()) ∧ Runs handle q s₁ q' s' := by
  rcases h.bind_cases with ⟨p', hp, -⟩ | h
  case inl => exact .inl ⟨p', hp⟩
  case inr =>
    cases hp : p.eval handle s
    case mk s₁ result =>
      rw [hp] at h
      cases result
      case ok    => exact .inr ⟨s₁, r, rfl, h⟩
      case error =>
        have he : Runs handle p s _ _ := Runs.to_end p s
        rw [hp] at he
        exact .inl ⟨_, h.of_ret.right ▸ he⟩

-- A program that makes at most one change, and none if it fails.
structure Atomic (handle : (c : C) → S → S × R c) (p : Program C R (Except ε Unit)) : Prop where
  failed : ∀ {s s' e}, p.eval handle s = (s', .error e) → s' = s
  runs : ∀ {s q s'}, Runs handle p s q s' → s' = s ∨ s' = (p.eval handle s).1

theorem Atomic.ret : Atomic handle (Program.ret result : Program C R (Except ε Unit)) where
  failed h := (Prod.mk.inj h).left.symm
  runs h   := .inl h.of_ret.right

theorem Atomic.call {k : R c → Except ε Unit}
    (h : ∀ s, (∃ e, k (handle c s).2 = .error e) → (handle c s).1 = s) :
    Atomic handle (Program.call c fun r => .ret (k r)) where
  failed {s s' e} he := by
    obtain ⟨rfl, hk⟩ := Prod.mk.inj he
    exact h s ⟨e, hk⟩
  runs {s q s'} hr := by
    cases hr
    case stop    => exact .inl rfl
    case call hr => exact .inr hr.of_ret.right

-- A loop is cut off between two of its rounds.
theorem runs_each (hf : ∀ a, Atomic handle (f a)) (h : Runs handle (each f l) s q s') :
    ∃ l₁ l₂, l = l₁ ++ l₂ ∧ (each f l₁).eval handle s = (s', .ok ()) := by
  induction l generalizing s q
  case nil => exact ⟨[], [], rfl, congrArg (·, _) h.of_ret.right.symm⟩
  case cons a l hi =>
    have hn : ∃ l₁ l₂, a :: l = l₁ ++ l₂ ∧ (each f l₁).eval handle s = (s, .ok ()) :=
      ⟨[], a :: l, rfl, rfl⟩
    rcases runs_andThen h with ⟨p', hp⟩ | ⟨s₁, q', hp, hq⟩
    case inl =>
      rcases (hf a).runs hp with rfl | he
      case inl => exact hn
      case inr =>
        cases hr : (f a).eval handle s
        case mk s₁ result =>
          rw [hr] at he
          subst he
          cases result
          case error => exact (hf a).failed hr ▸ hn
          case ok    => exact ⟨[a], l, rfl, eval_andThen hr⟩
    case inr =>
      obtain ⟨l₁, l₂, rfl, he⟩ := hi hq
      exact ⟨a :: l₁, l₂, rfl, (eval_andThen hp).trans he⟩

-- Each round of the loop changes nothing when it is repeated after later ones.
def Settled (handle : (c : C) → S → S × R c) (f : α → Program C R (Except ε Unit)) (l : List α)
    (s : S) : Prop :=
  ∀ l₁ a l₂ l₃ s', l = l₁ ++ a :: l₂ ++ l₃ →
    (each f (l₁ ++ a :: l₂)).eval handle s = (s', .ok ()) → (f a).eval handle s' = (s', .ok ())

theorem eval_each_self (h : ∀ a ∈ l, (f a).eval handle s = (s, .ok ())) :
    (each f l).eval handle s = (s, .ok ()) := by
  induction l
  case nil => rfl
  case cons a l hi =>
    rw [each, eval_andThen (h a List.mem_cons_self)]
    exact hi fun b hb => h b (List.mem_cons_of_mem a hb)

theorem Settled.eval_self (h : Settled handle f l s) (hl : l = l₁ ++ l₂)
    (he : (each f l₁).eval handle s = (s', .ok ())) (hm : m <+: l₁) :
    (each f m).eval handle s' = (s', .ok ()) := by
  refine eval_each_self fun a ha => ?_
  obtain ⟨u, v, rfl⟩ := List.append_of_mem (hm.subset ha)
  exact h u a v l₂ s' hl he

-- Wherever the loop is cut off, also several times, some of its rounds are done.
theorem Settled.converges (hf : ∀ a, Atomic handle (f a)) (h : Settled handle f l s)
    (he : (each f l).eval handle s = (e, .ok ())) : Converges handle (each f l) s (· = e) := by
  intro s' hs
  have hd : ∃ l₁ l₂, l = l₁ ++ l₂ ∧ (each f l₁).eval handle s = (s', .ok ()) := by
    refine hs.invariant (I := fun s' => ∃ l₁ l₂, l = l₁ ++ l₂ ∧
      (each f l₁).eval handle s = (s', .ok ())) (fun {_ s₁ q s₂} hd hq => ?_) ⟨[], l, rfl, rfl⟩
    obtain ⟨l₁, l₂, hl, hd⟩ := hd
    obtain ⟨m₁, m₂, hm, hq⟩ := runs_each hf hq
    rcases List.append_eq_append_iff.mp (hl.symm.trans hm) with ⟨u, rfl, rfl⟩ | ⟨u, rfl, rfl⟩
    case inl =>
      rw [each_append, eval_andThen (h.eval_self hl hd List.prefix_rfl)] at hq
      exact ⟨l₁ ++ u, m₂, hm, eval_each_append.mpr ⟨s₁, hd, hq⟩⟩
    case inr =>
      have hq' := h.eval_self hl hd (List.prefix_append m₁ u)
      obtain ⟨rfl, -⟩ := Prod.mk.inj (hq'.symm.trans hq)
      exact ⟨m₁ ++ u, l₂, hl, hd⟩
  obtain ⟨l₁, l₂, hl, hd⟩ := hd
  rw [hl, eval_each_append] at he
  obtain ⟨s₁, hd', he⟩ := he
  obtain ⟨rfl, -⟩ := Prod.mk.inj (hd.symm.trans hd')
  rw [hl, each_append, eval_andThen (h.eval_self hl hd List.prefix_rfl), he]
  exact ⟨e, rfl, rfl⟩

end Steps

end Interleaving.Program
