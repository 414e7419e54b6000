import GestaltModel.Primitives.GoMap

-- Lists that are divided into groups by a key. What has the empty key is a group of its own.
namespace Grouping

-- The members of a group in their order.
structure Cluster (α : Type u) where
  first : α
  rest : List α := []
  deriving DecidableEq, Repr

namespace Cluster

def members (g : Cluster α) : List α :=
  g.first :: g.rest

def add (g : Cluster α) (x : α) : Cluster α :=
  { g with rest := g.rest ++ [x] }

-- The member of a group to which no later one is preferred.
def best (better : α → α → Bool) (g : Cluster α) : α :=
  g.rest.foldl (fun b x => if better x b then x else b) g.first

end Cluster

-- The groups so far, and for each key the position of its group.
structure State (β : Type u) where
  groups : List β
  seen : GoMap Nat

-- A group can be any value that `start` makes of its first member and `add` updates for the others.
def step (key : α → String) (start : α → β) (add : β → α → β) (s : State β) (x : α) : State β :=
  if key x = "" then
    { s with groups := s.groups ++ [start x] }
  else
    match s.seen.lookup (key x) with
    | none => ⟨s.groups ++ [start x], s.seen.insert (key x) s.groups.length⟩
    | some i => { s with groups := s.groups.modify i (add · x) }

def group (key : α → String) (start : α → β) (add : β → α → β) (xs : List α) : List β :=
  (xs.foldl (step key start add) ⟨[], ∅⟩).groups

-- The groups as lists of their members.
def groups (key : α → String) (xs : List α) : List (Cluster α) :=
  group key (⟨·, []⟩) Cluster.add xs

def canonical (key : α → String) (better : α → α → Bool) (xs : List α) : List α :=
  (groups key xs).map (Cluster.best better)

-- Two elements belong to the same group.
def Same (key : α → String) (x y : α) : Prop :=
  x = y ∨ key x ≠ "" ∧ key x = key y

def choose (better : α → α → Bool) : List α → Option α
  | [] => none
  | x :: xs => some (Cluster.best better ⟨x, xs⟩)

end Grouping
