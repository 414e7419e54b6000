import GestaltModel.Interleaving.Program
import Mathlib.Logic.Function.Basic
import Mathlib.Logic.Relation

namespace Interleaving

-- The meaning of the calls `C` on a shared memory `S`. The `Oracle` resolves what the memory does
-- not determine (whether a request gets lost, what a clock shows), and the `Act`s are the moves of
-- the environment.
structure Semantics (ι C : Type) (R : C → Type) (S : Type) where
  Oracle : Type
  Act : Type
  exec : ι → (c : C) → Oracle → S → S × R c
  act : Act → S → S

structure Config (ι C : Type) (R : C → Type) (α S : Type) where
  mem : S
  prog : ι → Program C R α

variable {ι C : Type} {R : C → Type} {α S : Type} [DecidableEq ι]

namespace Config

-- The configuration after client `i` has made its call `q` and the oracle said `o`.
def resume (m : Semantics ι C R S) (c : Config ι C R α S) (i : ι) (q : C)
    (k : R q → Program C R α) (o : m.Oracle) : Config ι C R α S where
  mem := (m.exec i q o c.mem).1
  prog := Function.update c.prog i (k (m.exec i q o c.mem).2)

def disturb (m : Semantics ι C R S) (c : Config ι C R α S) (a : m.Act) : Config ι C R α S :=
  { c with mem := m.act a c.mem }

@[simp]
theorem resume_mem {c : Config ι C R α S} {i q k o} :
    (c.resume m i q k o).mem = (m.exec i q o c.mem).1 :=
  rfl

@[simp]
theorem resume_prog_self {c : Config ι C R α S} {i q k o} :
    (c.resume m i q k o).prog i = k (m.exec i q o c.mem).2 := by
  simp [resume]

theorem resume_prog_of_ne {c : Config ι C R α S} {i j q k o} (h : j ≠ i) :
    (c.resume m i q k o).prog j = c.prog j := by
  simp [resume, h]

end Config

-- A step of an interleaved execution. The `guard` restricts which calls happen in which memory.
inductive Step (m : Semantics ι C R S) (guard : ι → C → S → Prop) :
    Config ι C R α S → Config ι C R α S → Prop
  | call {c : Config ι C R α S} {i q k} (o : m.Oracle) (h : c.prog i = .call q k)
    (allowed : guard i q c.mem) : Step m guard c (c.resume m i q k o)
  | env {c : Config ι C R α S} (a : m.Act) : Step m guard c (c.disturb m a)

-- Executions can stop after any step, so a client that is cut off between two calls is covered.
def Reaches (m : Semantics ι C R S) (guard : ι → C → S → Prop) :
    Config ι C R α S → Config ι C R α S → Prop :=
  Relation.ReflTransGen (Step m guard)

-- What the last calls of a client satisfy does not depend on how far it has come.
theorem Reaches.last {guard : ι → C → S → Prop} (h : Reaches m guard c c')
    (hl : (c.prog i).Last P) : (c'.prog i).Last P := by
  induction h
  case refl => exact hl
  case tail e ih =>
    cases e
    case env => exact ih
    case call j q k o hp _ =>
      by_cases hj : i = j
      case neg => rwa [Config.resume_prog_of_ne hj]
      case pos =>
        subst hj
        rw [hp] at ih
        cases ih
        case call h => simpa using h _

-- A client that returns with a step has made its last call.
theorem Step.last {guard : ι → C → S → Prop} (e : Step m guard c c')
    (hl : (c.prog i).Last P) (hn : (c.prog i).result? = none) (hr : c'.prog i = .ret a) :
    ∃ q o, guard i q c.mem ∧ c'.mem = (m.exec i q o c.mem).1 ∧ P q (m.exec i q o c.mem).2 a := by
  cases e
  case env =>
    rw [show c.prog i = .ret a from hr] at hn
    contradiction
  case call j q k o hp hg =>
    by_cases hj : i = j
    case neg =>
      rw [Config.resume_prog_of_ne hj] at hr
      rw [hr] at hn
      contradiction
    case pos =>
      subst hj
      rw [hp] at hl
      rw [Config.resume_prog_self] at hr
      cases hl
      case call hP _ => exact ⟨q, o, hg, rfl, hP _ a hr⟩

-- What holds in the end and cannot become true again has held before each call.
theorem Reaches.restrict {guard : ι → C → S → Prop} {P : S → Prop} (h : Reaches m guard c c')
    (back : ∀ {c₁ c₂ : Config ι C R α S}, Reaches m guard c c₁ → Step m guard c₁ c₂ →
      P c₂.mem → P c₁.mem)
    (hP : P c'.mem) : Reaches m (fun i q s => guard i q s ∧ P s) c c' := by
  induction h
  case refl => exact .refl
  case tail c₁ c₂ h e ih =>
    have hP₁ := back h e hP
    refine (ih hP₁).tail ?_
    cases e
    case env a         => exact .env a
    case call o hp hg  => exact .call o hp ⟨hg, hP₁⟩

def unguarded : ι → C → S → Prop :=
  fun _ _ _ => True

instance {i : ι} {q : C} {s : S} : Decidable (unguarded i q s) :=
  .isTrue trivial

inductive Event (m : Semantics ι C R S)
  | call (i : ι) (o : m.Oracle)
  | env (a : m.Act)

namespace Config

variable {m : Semantics ι C R S} {guard : ι → C → S → Prop} [∀ i q s, Decidable (guard i q s)]

-- Executes one scheduled event, if the scheduled client still has a call to make and may make it.
def fire (m : Semantics ι C R S) (guard : ι → C → S → Prop) [∀ i q s, Decidable (guard i q s)]
    (c : Config ι C R α S) : Event m → Option (Config ι C R α S)
  | .env a => some (c.disturb m a)
  | .call i o =>
    match c.prog i with
    | .ret _    => none
    | .call q k => if guard i q c.mem then some (c.resume m i q k o) else none

def run (m : Semantics ι C R S) (guard : ι → C → S → Prop) [∀ i q s, Decidable (guard i q s)]
    (c : Config ι C R α S) : List (Event m) → Option (Config ι C R α S)
  | [] => some c
  | e :: es => (c.fire m guard e).bind (·.run m guard es)

theorem step_of_fire (h : c.fire m guard e = some c') :
    Step m guard c c' := by
  cases e <;> simp only [fire] at h
  case env a =>
    cases h
    exact .env a
  case call i o =>
    split at h
    · contradiction
    · split at h
      · cases h
        exact .call o ‹_› ‹_›
      · contradiction

theorem reaches_of_run (h : c.run m guard es = some c') : Reaches m guard c c' := by
  induction es generalizing c <;> simp only [run] at h
  case nil =>
    cases h
    exact .refl
  case cons e es hi =>
    have ⟨_, h₁, h₂⟩ := Option.bind_eq_some_iff.mp h
    exact .head (step_of_fire h₁) (hi h₂)

theorem run_prog {c c' : Config ι C R α S}
    (hi : ∀ o, .call i o ∉ es) (h : c.run m guard es = some c') : c'.prog i = c.prog i := by
  induction es generalizing c <;> simp only [run] at h
  case nil =>
    cases h
    rfl
  case cons e es ih =>
    obtain ⟨c₁, h₁, h₂⟩ := Option.bind_eq_some_iff.mp h
    rw [ih (fun o ho => hi o (List.mem_cons_of_mem _ ho)) h₂]
    cases e <;> simp only [fire] at h₁
    case env a =>
      cases h₁
      rfl
    case call j o =>
      split at h₁
      · contradiction
      · split at h₁
        · cases h₁
          exact resume_prog_of_ne fun hj => hi o (hj ▸ List.mem_cons_self)
        · contradiction

-- What can be observed at the end of a scheduled execution can be reached.
theorem exists_reaches_of_run
    [DecidablePred P] (es : List (Event m)) (h : (c.run m guard es).any (P ·)) :
    ∃ c', Reaches m guard c c' ∧ P c' := by
  cases hr : c.run m guard es
  case none => simp [hr] at h
  case some c' => exact ⟨c', reaches_of_run hr, by simpa [hr] using h⟩

-- The same for an execution in two parts, where a client has not begun in the first one.
theorem exists_reaches_of_runs [DecidablePred P] [DecidablePred Q] (es₁ es₂ : List (Event m))
    (hi : ∀ o, .call i o ∉ es₁)
    (h : (c.run m guard es₁).any fun c₁ => P c₁ ∧ (c₁.run m guard es₂).any (Q ·)) :
    ∃ c₁ c₂, Reaches m guard c c₁ ∧ c₁.prog i = c.prog i ∧ P c₁ ∧ Reaches m guard c₁ c₂ ∧ Q c₂ := by
  cases hr : c.run m guard es₁
  case none => simp [hr] at h
  case some c₁ =>
    rw [hr, Option.any_some, decide_eq_true_iff] at h
    obtain ⟨c₂, h₂, hq⟩ := exists_reaches_of_run es₂ h.right
    exact ⟨c₁, c₂, reaches_of_run hr, run_prog hi hr, h.left, h₂, hq⟩

end Config
end Interleaving
