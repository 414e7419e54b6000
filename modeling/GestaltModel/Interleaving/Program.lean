import Mathlib.Tactic.Common

namespace Interleaving

-- What one sequential client of a shared memory still has to do: it has a result, or makes a call
-- `c` and continues with the response. Other clients interleave only at calls.
inductive Program (C : Type) (R : C → Type) (α : Type)
  | ret (a : α)
  | call (c : C) (k : R c → Program C R α)

namespace Program

variable {C : Type} {R : C → Type} {α β : Type}

def bind : Program C R α → (α → Program C R β) → Program C R β
  | ret a, f => f a
  | call c k, f => call c fun r => (k r).bind f

instance : Monad (Program C R) where
  pure := ret
  bind := bind

def perform (c : C) : Program C R (R c) :=
  call c ret

def result? : Program C R α → Option α
  | ret a => some a
  | call _ _ => none

theorem eq_ret_of_result? {p : Program C R α} (h : p.result? = some a) : p = .ret a := by
  cases p
  case ret => exact congrArg ret (Option.some.inj h)
  case call => contradiction

@[simp]
theorem pure_eq (a : α) : (pure a : Program C R α) = ret a :=
  rfl

@[simp]
theorem ret_bind (a : α) (f : α → Program C R β) : (ret a >>= f) = f a :=
  rfl

@[simp]
theorem bind_ret (a : α) (f : α → Program C R β) : (ret a).bind f = f a :=
  rfl

@[simp]
theorem call_bind (c : C) (k : R c → Program C R α) (f : α → Program C R β) :
    (call c k >>= f) = call c fun r => k r >>= f :=
  rfl

@[simp]
theorem perform_bind (c : C) (f : R c → Program C R β) : (perform c >>= f) = call c f :=
  rfl

-- A program that runs alone, where `handle` says what each call does to the memory.
def eval {S : Type} (handle : (c : C) → S → S × R c) : Program C R α → S → S × α
  | ret a, s => (s, a)
  | call c k, s => (k (handle c s).2).eval handle (handle c s).1

section Eval

variable {S : Type} {handle : (c : C) → S → S × R c} {s : S}

@[simp]
theorem eval_ret (a : α) : (ret a : Program C R α).eval handle s = (s, a) :=
  rfl

@[simp]
theorem eval_call (c : C) (k : R c → Program C R α) :
    (call c k).eval handle s = (k (handle c s).2).eval handle (handle c s).1 :=
  rfl

@[simp]
theorem eval_perform (c : C) : (perform c).eval handle s = handle c s :=
  rfl

theorem eval_bind (p : Program C R α) (f : α → Program C R β) :
    (p >>= f).eval handle s = (f (p.eval handle s).2).eval handle (p.eval handle s).1 := by
  induction p generalizing s
  case ret a => rfl
  case call c k ih => exact ih _

theorem eval_invariant {I : S → Prop} (h : ∀ c s, I s → I (handle c s).1) (p : Program C R α)
    (hs : I s) : I (p.eval handle s).1 := by
  induction p generalizing s
  case ret a => exact hs
  case call c k ih => exact ih _ (h c s hs)

end Eval

-- The calls are answered by the memories of a sequence, one after the other, and change none.
def observe {S : Type} (answer : (c : C) → S → R c) : Program C R α → (Nat → S) → α
  | ret a, _ => a
  | call c k, states => (k (answer c (states 0))).observe answer fun n => states (n + 1)

section Observe

@[simp]
theorem observe_ret (a : α) : (ret a : Program C R α).observe answer states = a :=
  rfl

@[simp]
theorem observe_call (c : C) (k : R c → Program C R α) :
    (call c k).observe answer states =
      (k (answer c (states 0))).observe answer fun n => states (n + 1) :=
  rfl

end Observe

-- All calls that a program can ever make satisfy `P`.
inductive Only (P : C → Prop) : Program C R α → Prop
  | ret (a) : Only P (.ret a)
  | call {c k} : P c → (∀ r, Only P (k r)) → Only P (.call c k)

theorem Only.bind {f : α → Program C R β} (hp : Only P p)
    (hf : ∀ a, Only P (f a)) : Only P (p >>= f) := by
  induction hp
  case ret a => exact hf a
  case call hc _ hi => exact .call hc hi

theorem Only.bind_ok
    {f : Except ε α → Program C R β} (hp : Only P p) (he : ∀ e, Only P (f (.error e)))
    (hf : ∀ a, Only P (f (.ok a))) : Only P (p >>= f) := by
  refine hp.bind fun r => ?_
  cases r
  case error => exact he _
  case ok => exact hf _

-- The last call of a program, the response to it and the result of the program satisfy `P`.
inductive Last (P : (c : C) → R c → α → Prop) : Program C R α → Prop
  | ret (a) : Last P (.ret a)
  | call {c k} : (∀ r a, k r = .ret a → P c r a) → (∀ r, Last P (k r)) → Last P (.call c k)

theorem Last.map {f : α → β}
    (h : Last (fun c r a => P c r (f a)) p) : Last P (p >>= fun a => .ret (f a)) := by
  induction h
  case ret a => exact .ret (f a)
  case call c k hP _ ih =>
    refine .call (fun r b hb => ?_) ih
    cases hk : k r
    case ret a =>
      rw [hk] at hb
      cases hb
      exact hP r a hk
    case call =>
      rw [hk] at hb
      contradiction

end Program
end Interleaving
