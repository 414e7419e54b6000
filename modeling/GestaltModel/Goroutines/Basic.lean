import GestaltModel.Interleaving.Program
import Mathlib.Data.Multiset.AddSub
import Mathlib.Data.Multiset.Count
import Mathlib.Logic.Relation

namespace Goroutines

open Interleaving (Program)

-- Goroutines `G` share a memory `S`. The calls `C` are atomic, the `Oracle` resolves what the
-- memory does not determine, and a call waits until it is `enabled`. Its response says which
-- goroutines it starts. The `Act`s are moves of the environment, which can start goroutines too.
structure System (G C : Type) (R : C → Type) (S : Type) where
  Oracle : Type
  Act : Type
  enabled : C → S → Prop
  exec : (q : C) → Oracle → S → S × R q
  spawns : (q : C) → R q → List G
  act : Act → S → S
  enters : Act → List G
  body : G → Program C R Unit

structure Config (C : Type) (R : C → Type) (S : Type) where
  mem : S
  threads : List (Program C R Unit)

variable {G C : Type} {R : C → Type} {S Φ α β : Type}

-- The `guard` restricts which calls may happen in which memory and with which outcome.
inductive Step (m : System G C R S) (guard : C → m.Oracle → S → Prop) :
    Config C R S → Config C R S → Prop
  | call {s l₁ l₂ q k} (o : m.Oracle) (enabled : m.enabled q s) (allowed : guard q o s) :
    Step m guard ⟨s, l₁ ++ .call q k :: l₂⟩
      ⟨(m.exec q o s).1, l₁ ++ k (m.exec q o s).2 :: l₂ ++
        (m.spawns q (m.exec q o s).2).map m.body⟩
  | env {s l} (a : m.Act) : Step m guard ⟨s, l⟩ ⟨m.act a s, l ++ (m.enters a).map m.body⟩

def Reaches (m : System G C R S) (guard : C → m.Oracle → S → Prop) :
    Config C R S → Config C R S → Prop :=
  Relation.ReflTransGen (Step m guard)

section Schedules

-- One scheduled event: the thread at a position makes its call, or the environment moves.
inductive Event (m : System G C R S)
  | call (i : Nat) (o : m.Oracle)
  | env (a : m.Act)

variable (m : System G C R S) (guard : C → m.Oracle → S → Prop)
variable [∀ q s, Decidable (m.enabled q s)] [∀ q o s, Decidable (guard q o s)]

def Config.fire (c : Config C R S) : Event m → Option (Config C R S)
  | .env a => some ⟨m.act a c.mem, c.threads ++ (m.enters a).map m.body⟩
  | .call i o =>
    match c.threads[i]? with
    | some (.call q k) =>
      if m.enabled q c.mem ∧ guard q o c.mem then
        some ⟨(m.exec q o c.mem).1, c.threads.take i ++ k (m.exec q o c.mem).2 ::
          c.threads.drop (i + 1) ++ (m.spawns q (m.exec q o c.mem).2).map m.body⟩
      else
        none
    | _ => none

def Config.run (c : Config C R S) : List (Event m) → Option (Config C R S)
  | [] => some c
  | e :: es => (c.fire m guard e).bind (·.run es)

end Schedules

-- Each goroutine is in a phase, which says what it has still to do for the others. The phase
-- restricts its next call, and the response gives the phase after it.
structure Discipline (C : Type) (R : C → Type) (Φ : Type) where
  ok : Φ → C → Prop
  next : Φ → (q : C) → R q → Φ

-- A program keeps the discipline from the given phase on, and ends in a phase that satisfies `post`.
def Discipline.Keeps (d : Discipline C R Φ) (post : α → Φ → Prop) : Program C R α → Φ → Prop
  | .ret a, φ => post a φ
  | .call q k, φ => d.ok φ q ∧ ∀ r, d.Keeps post (k r) (d.next φ q r)

def phases (l : List (Program C R Unit × Φ)) : Multiset Φ :=
  (l.map Prod.snd : List Φ)

-- The phases in which new goroutines come, where `start` says this for each one.
def startPhases (start : G → Φ) (gs : List G) : Multiset Φ :=
  (gs.map start : List Φ)

-- How many goroutines have `i` as the value of `f`.
def tally {ι : Type} [DecidableEq ι] (f : Φ → Option ι) (i : ι) (M : Multiset Φ) : Nat :=
  M.countP fun φ => f φ = some i

-- Phases for all threads that keep the discipline, and satisfy the invariant with the memory.
def Sound (d : Discipline C R Φ) (done : Φ → Prop) (inv : S → Multiset Φ → Prop)
    (c : Config C R S) : Prop :=
  ∃ l : List (Program C R Unit × Φ), l.map Prod.fst = c.threads ∧
    (∀ t ∈ l, d.Keeps (fun _ => done) t.1 t.2) ∧ inv c.mem (phases l)

-- Calls that the discipline allows and moves of the environment keep the invariant.
structure Preserved (m : System G C R S) (guard : C → m.Oracle → S → Prop) (d : Discipline C R Φ)
    (start : G → Φ) (inv : S → Multiset Φ → Prop) : Prop where
  call : ∀ {s φ M q} (o : m.Oracle), inv s (φ ::ₘ M) → d.ok φ q → m.enabled q s → guard q o s →
    inv (m.exec q o s).1
      (d.next φ q (m.exec q o s).2 ::ₘ (M + startPhases start (m.spawns q (m.exec q o s).2)))
  env : ∀ {s M} (a : m.Act), inv s M → inv (m.act a s) (M + startPhases start (m.enters a))

end Goroutines
