import GestaltModel.Interleaving.Execution

namespace Interleaving

variable {ι C : Type} {R : C → Type} {α β S : Type}

-- Client `i` can run a program to its end while others interfere. Before each call the memory may
-- have moved along `rely`. The call keeps the invariant and stays within `guar`, and the result
-- satisfies `post` whatever comes after it.
def Safe (m : Semantics ι C R S) (guard : ι → C → S → Prop) (inv : S → Prop) (i : ι)
    (rely guar : S → S → Prop) (post : α → S → Prop) : Program C R α → S → Prop
  | .ret a, s => ∀ s', rely s s' → inv s' → post a s'
  | .call q k, s => ∀ s', rely s s' → inv s' → guard i q s' → ∀ o,
    inv (m.exec i q o s').1 ∧ guar s' (m.exec i q o s').1 ∧
    Safe m guard inv i rely guar post (k (m.exec i q o s').2) (m.exec i q o s').1

namespace Safe

variable {m : Semantics ι C R S} {guard : ι → C → S → Prop} {inv : S → Prop} {i : ι}
variable {rely guar : S → S → Prop} {post : α → S → Prop} {p : Program C R α} {s s' : S}

theorem done : Safe m guard inv i rely guar (fun _ _ => True) (.ret a) s :=
  fun _ _ _ => trivial

theorem stable (trans : ∀ {a b c}, rely a b → rely b c → rely a c)
    (h : Safe m guard inv i rely guar post p s) (hr : rely s s') :
    Safe m guard inv i rely guar post p s' := by
  cases p
  case ret a => exact fun t ht => h t (trans hr ht)
  case call q k => exact fun t ht => h t (trans hr ht)

-- It suffices to consider the memories where the program is continued.
theorem of_stable (refl : ∀ a, rely a a)
    (h : ∀ s', rely s s' → inv s' → Safe m guard inv i rely guar post p s') :
    Safe m guard inv i rely guar post p s := by
  cases p
  case ret a => exact fun t ht hi => h t ht hi t (refl t) hi
  case call q k => exact fun t ht hi => h t ht hi t (refl t) hi

theorem mono (h : Safe m guard inv i rely guar post p s)
    (hp : ∀ a s, inv s → post a s → post' a s) : Safe m guard inv i rely guar post' p s := by
  induction p generalizing s
  case ret a => exact fun t ht hi => hp _ _ hi (h t ht hi)
  case call q k hk =>
    intro t ht hi hg o
    have ⟨h₁, h₂, h₃⟩ := h t ht hi hg o
    exact ⟨h₁, h₂, hk _ h₃⟩

-- A program that is safe stays safe if fewer calls are allowed.
theorem restrict (h : Safe m guard inv i rely guar post p s)
    (hg : ∀ q s, guard' i q s → guard i q s) : Safe m guard' inv i rely guar post p s := by
  induction p generalizing s
  case ret a => exact h
  case call q k hk =>
    intro t ht hi ha o
    obtain ⟨h₁, h₂, h₃⟩ := h t ht hi (hg q t ha) o
    exact ⟨h₁, h₂, hk _ h₃⟩

theorem bind {post : β → S → Prop} (refl : ∀ a, rely a a) (h : Safe m guard inv i rely guar mid p s)
    (hf : ∀ a s, inv s → mid a s → Safe m guard inv i rely guar post (f a) s) :
    Safe m guard inv i rely guar post (p >>= f) s := by
  induction p generalizing s
  case ret a => exact of_stable refl fun t ht hi => hf a t hi (h t ht hi)
  case call q k hk =>
    intro t ht hi hg o
    have ⟨h₁, h₂, h₃⟩ := h t ht hi hg o
    exact ⟨h₁, h₂, hk _ h₃⟩

theorem bind_ok {p : Program C R (Except ε α)} {post : β → S → Prop} (refl : ∀ a, rely a a)
    (h : Safe m guard inv i rely guar mid p s)
    (failed : ∀ e s, Safe m guard inv i rely guar post (f (.error e)) s)
    (hf : ∀ a s, inv s → mid (.ok a) s → Safe m guard inv i rely guar post (f (.ok a)) s) :
    Safe m guard inv i rely guar post (p >>= f) s := by
  refine bind refl h fun r s hi hm => ?_
  cases r
  case error e => exact failed e s
  case ok a => exact hf a s hi hm

-- A fact that neither the others nor the client itself can invalidate holds in the end.
theorem frame {F : S → Prop} (hr : ∀ {s s'}, F s → rely s s' → inv s' → F s')
    (hg : ∀ {s s'}, F s → guar s s' → inv s' → F s')
    (h : Safe m guard inv i rely guar post p s) (hF : F s) :
    Safe m guard inv i rely guar (fun a s => post a s ∧ F s) p s := by
  induction p generalizing s
  case ret a => exact fun t ht hi => ⟨h t ht hi, hr hF ht hi⟩
  case call q k hi =>
    intro t ht hit hgt o
    have ⟨h₁, h₂, h₃⟩ := h t ht hit hgt o
    exact ⟨h₁, h₂, hi _ h₃ (hg (hr hF ht hit) h₂ h₁)⟩

-- A fact that neither the others nor any of the calls of a program can invalidate holds in the end.
theorem keep {F : S → Prop} (hr : ∀ {s s'}, F s → rely s s' → inv s' → F s')
    (h : ∀ q s, P q → inv s → F s → guard i q s → ∀ o,
      inv (m.exec i q o s).1 ∧ guar s (m.exec i q o s).1 ∧ F (m.exec i q o s).1)
    (hp : p.Only P) (hF : F s) : Safe m guard inv i rely guar (fun _ s => F s) p s := by
  induction hp generalizing s
  case ret => exact fun _ ht hi => hr hF ht hi
  case call hc _ hk =>
    intro t ht hi hg o
    obtain ⟨h₁, h₂, h₃⟩ := h _ t hc hi (hr hF ht hi) hg o
    exact ⟨h₁, h₂, hk _ h₃⟩

-- A program is safe if each of the calls that it can make is safe by itself.
theorem of_only (h : ∀ q s, P q → inv s → guard i q s → ∀ o,
      inv (m.exec i q o s).1 ∧ guar s (m.exec i q o s).1)
    (hp : p.Only P) : Safe m guard inv i rely guar (fun _ _ => True) p s := by
  refine keep (fun _ _ _ => trivial) (fun q s hq hi _ hg o => ?_) hp trivial
  exact ⟨(h q s hq hi hg o).left, (h q s hq hi hg o).right, trivial⟩

end Safe

-- When the clients' proofs compose: what one client guarantees, and what the environment does, is
-- covered by what the others rely on.
structure Compatible (m : Semantics ι C R S) (inv : S → Prop) (rely guar : ι → S → S → Prop) :
    Prop where
  refl : ∀ i s, rely i s s
  trans : ∀ i {s₁ s₂ s₃}, rely i s₁ s₂ → rely i s₂ s₃ → rely i s₁ s₃
  interfere : ∀ {i j s s'}, i ≠ j → inv s → inv s' → guar i s s' → rely j s s'
  env_inv : ∀ a {s}, inv s → inv (m.act a s)
  env_rely : ∀ a i {s}, inv s → rely i s (m.act a s)

-- Every client of a configuration is safe and the invariant holds.
structure Sound (m : Semantics ι C R S) (guard : ι → C → S → Prop) (inv : S → Prop)
    (rely guar : ι → S → S → Prop) (post : ι → α → S → Prop) (c : Config ι C R α S) : Prop where
  holds : inv c.mem
  safe : ∀ i, Safe m guard inv i (rely i) (guar i) (post i) (c.prog i) c.mem

namespace Sound

variable {m : Semantics ι C R S} {guard : ι → C → S → Prop} {inv : S → Prop}
variable {rely guar : ι → S → S → Prop} {post : ι → α → S → Prop} {c c' : Config ι C R α S}
variable [DecidableEq ι]

theorem step (comp : Compatible m inv rely guar) (h : Sound m guard inv rely guar post c)
    (e : Step m guard c c') : Sound m guard inv rely guar post c' := by
  cases e
  case call i q k o hp hg =>
    have hs := h.safe i
    rw [hp] at hs
    have ⟨h₁, h₂, h₃⟩ := hs _ (comp.refl i _) h.holds hg o
    refine ⟨h₁, fun j => ?_⟩
    by_cases hj : j = i
    case pos =>
      subst hj
      simpa using h₃
    case neg =>
      rw [Config.resume_prog_of_ne hj]
      have hr := comp.interfere (Ne.symm hj) h.holds h₁ h₂
      exact (h.safe j).stable (comp.trans j) hr
  case env a =>
    exact ⟨comp.env_inv a h.holds, fun j => (h.safe j).stable (comp.trans j) (comp.env_rely a j h.holds)⟩

theorem reaches (comp : Compatible m inv rely guar) (h : Sound m guard inv rely guar post c)
    (e : Reaches m guard c c') : Sound m guard inv rely guar post c' := by
  induction e
  case refl => exact h
  case tail _ e₂ hi => exact hi.step comp e₂

omit [DecidableEq ι] in
theorem restrict (h : Sound m guard inv rely guar post c)
    (hg : ∀ i q s, guard' i q s → guard i q s) : Sound m guard' inv rely guar post c where
  holds := h.holds
  safe i := (h.safe i).restrict (hg i)

-- More can be shown about a single client in the middle of an execution.
theorem focus (h : Sound m guard inv rely guar post c)
    (hi : Safe m guard inv i (rely i) (guar i) post' (c.prog i) c.mem) :
    Sound m guard inv rely guar (fun j a s => j = i → post' a s) c where
  holds := h.holds
  safe j := by
    by_cases hj : j = i
    case pos =>
      subst hj
      exact hi.mono fun _ _ _ hp _ => hp
    case neg => exact (h.safe j).mono fun _ _ _ _ hj' => absurd hj' hj

omit [DecidableEq ι] in
theorem result (comp : Compatible m inv rely guar) (h : Sound m guard inv rely guar post c)
    {i a} (hr : c.prog i = .ret a) : post i a c.mem := by
  have hs := h.safe i
  rw [hr] at hs
  exact hs _ (comp.refl i _) h.holds

-- A preorder that contains all guarantees and the environment holds along an execution.
theorem related (comp : Compatible m inv rely guar) (h : Sound m guard inv rely guar post c)
    {rel : S → S → Prop} (refl : ∀ s, rel s s) (trans : ∀ {a b c}, rel a b → rel b c → rel a c)
    (hg : ∀ {i s s'}, inv s → inv s' → guar i s s' → rel s s')
    (ha : ∀ a {s}, inv s → rel s (m.act a s)) (e : Reaches m guard c c') : rel c.mem c'.mem := by
  induction e
  case refl => exact refl _
  case tail c₂ c₃ e₁ e₂ hi =>
    refine trans hi ?_
    have hs := h.reaches comp e₁
    cases e₂
    case env a => exact ha a hs.holds
    case call i q k o hp ha =>
      have hi' := hs.safe i
      rw [hp] at hi'
      have ⟨h₁, h₂, _⟩ := hi' _ (comp.refl i _) hs.holds ha o
      exact hg hs.holds h₁ h₂

end Sound
end Interleaving
