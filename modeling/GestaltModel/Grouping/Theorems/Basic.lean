import Mathlib.Data.List.Perm.Basic
import Mathlib.Data.List.Nodup
import Mathlib.Data.Prod.Lex
import Mathlib.Order.BooleanAlgebra.Defs
import GestaltModel.Grouping.Basic

namespace Grouping

-- Preferences that are chains of tests.
section Preferences

-- One level of a comparison that goes on when the two sides are equal.
theorem lex_step [LinearOrder A] [LinearOrder B] {x y : A} {r r' : B} [Decidable c]
    (hc : c ↔ x ≠ y) (hp : x ≠ y → (p = true ↔ x < y)) (hq : q = true ↔ r < r') :
    (if c then p else q) = true ↔ toLex (x, r) < toLex (y, r') := by
  rw [Prod.Lex.toLex_lt_toLex]
  by_cases h : x = y
  case pos => simp [hc, h, hq]
  case neg => simp [hc, h, hp h]

theorem not_eq_true_iff_lt : ∀ {x y : Bool}, x ≠ y → ((!x) = true ↔ x < y) := by
  decide

end Preferences

section Maps

variable {key : α → String} {start : α → β} {add : β → α → β}

-- What is computed from the groups at the end can be computed group by group on the way.
theorem group_map (f : β → γ)
    (hs : ∀ x, f (start x) = start' x) (ha : ∀ b x, f (add b x) = add' (f b) x) (xs : List α) :
    (group key start add xs).map f = group key start' add' xs := by
  have h : ∀ s : State β,
      (⟨(xs.foldl (step key start add) s).groups.map f,
        (xs.foldl (step key start add) s).seen⟩ : State γ) =
      xs.foldl (step key start' add') ⟨s.groups.map f, s.seen⟩ := by
    induction xs
    case nil => simp
    case cons x xs hi =>
      intro s
      rw [List.foldl_cons, List.foldl_cons, hi]
      congr 1
      simp only [step, List.length_map]
      split
      case isTrue  => simp [hs]
      case isFalse =>
        split
        case h_1 => simp [hs]
        case h_2 i _ =>
          rw [State.mk.injEq]
          refine ⟨?_, rfl⟩
          apply List.ext_getElem? ; intro j
          simp only [List.getElem?_map, List.getElem?_modify]
          cases s.groups[j]? <;> by_cases hij : i = j <;> simp [hij, ha]
  exact congrArg State.groups (h ⟨[], ∅⟩)

theorem group_of_map (f : γ → α) (xs : List γ) :
    group key start add (xs.map f) = group (key ∘ f) (start ∘ f) (fun b x => add b (f x)) xs := by
  rw [group, group, List.foldl_map]
  rfl

theorem canonical_eq_group (better : α → α → Bool) (xs : List α) :
    canonical key better xs = group key id (fun b x => if better x b then x else b) xs := by
  apply group_map
  case hs => exact fun _ => rfl
  case ha =>
    intro g x
    rw [Cluster.best, Cluster.add, List.foldl_append]
    rfl

theorem canonical_map (key : α → String) (better : α → α → Bool) (f : γ → α) (xs : List γ) :
    canonical key better (xs.map f) =
      (canonical (key ∘ f) (fun x y => better (f x) (f y)) xs).map f := by
  rw [canonical_eq_group, canonical_eq_group, group_of_map]
  symm
  apply group_map
  case hs => exact fun _ => rfl
  case ha =>
    intro b x
    split <;> rfl

end Maps

namespace Same

variable {key : α → String} {x y z : α}

theorem refl (key : α → String) (x : α) : Same key x x :=
  .inl rfl

theorem symm (h : Same key x y) : Same key y x := by
  rcases h with rfl | ⟨hne, hk⟩
  case inl => exact refl key _
  case inr => exact .inr ⟨hk ▸ hne, hk.symm⟩

theorem trans (h : Same key x y) (h' : Same key y z) : Same key x z := by
  rcases h with rfl | ⟨hne, hk⟩
  case inl => exact h'
  case inr =>
    rcases h' with rfl | ⟨_, hk'⟩
    case inl => exact .inr ⟨hne, hk⟩
    case inr => exact .inr ⟨hne, hk.trans hk'⟩

end Same

namespace Cluster

variable {R : Type v} [LinearOrder R] {rank : α → R} {better : α → α → Bool}

theorem first_mem (g : Cluster α) : g.first ∈ g.members :=
  List.mem_cons_self

theorem best_cons (better : α → α → Bool) (x y : α) (xs : List α) :
    best better ⟨x, y :: xs⟩ = best better ⟨if better y x then y else x, xs⟩ :=
  rfl

theorem best_mem (better : α → α → Bool) (g : Cluster α) : g.best better ∈ g.members := by
  have h : ∀ (xs : List α) (b : α), b ∈ g.members → xs ⊆ g.members →
      xs.foldl (fun b x => if better x b then x else b) b ∈ g.members := by
    intro xs
    induction xs
    case nil => exact fun _ hb _ => hb
    case cons x xs hi =>
      intro b hb hs
      rw [List.cons_subset] at hs
      rw [List.foldl_cons]
      split
      case isTrue  => exact hi x hs.left hs.right
      case isFalse => exact hi b hb hs.right
  exact h g.rest g.first g.first_mem (List.subset_cons_self _ _)

theorem best_le (hb : ∀ x y, better x y = true ↔ rank x < rank y) (g : Cluster α) :
    ∀ x ∈ g.members, rank (g.best better) ≤ rank x := by
  have h : ∀ (xs : List α) (b : α),
      ∀ x ∈ b :: xs, rank (xs.foldl (fun b x => if better x b then x else b) b) ≤ rank x := by
    intro xs
    induction xs
    case nil => simp
    case cons y ys hi =>
      intro b x hx
      rw [List.foldl_cons]
      -- The better one of the first two is below both of them.
      have hl : rank (if better y b then y else b) ≤ rank b ∧
          rank (if better y b then y else b) ≤ rank y := by
        split
        case isTrue  h => exact ⟨le_of_lt ((hb y b).mp h), le_refl _⟩
        case isFalse h => exact ⟨le_refl _, not_lt.mp (mt (hb y b).mpr h)⟩
      have hf := hi (if better y b then y else b) _ List.mem_cons_self
      simp only [List.mem_cons] at hx
      rcases hx with rfl | rfl | hx
      case inl     => exact hf.trans hl.left
      case inr.inl => exact hf.trans hl.right
      case inr.inr => exact hi _ x (List.mem_cons_of_mem _ hx)
  exact h g.rest g.first

end Cluster

-- What holds of the groups and their positions after the elements `xs`.
structure Grouped (key : α → String) (xs : List α) (s : State (Cluster α)) : Prop where
  members : (s.groups.flatMap Cluster.members).Perm xs
  keyed : ∀ g ∈ s.groups, ∀ x ∈ g.rest, key g.first ≠ "" ∧ key x = key g.first
  seen : ∀ k i, s.seen.lookup k = some i ↔
    k ≠ "" ∧ (s.groups[i]?).map (fun g => key g.first) = some k

namespace Grouped

variable {key : α → String} {xs : List α} {s : State (Cluster α)}

theorem initial : Grouped key [] ⟨[], ∅⟩ where
  members := .nil
  keyed := by simp
  seen := by simp

theorem perm_modify (x : α) (gs : List (Cluster α)) (hi : i < gs.length) :
    ((gs.modify i (·.add x)).flatMap Cluster.members).Perm (gs.flatMap Cluster.members ++ [x]) := by
  induction gs generalizing i
  case nil => contradiction
  case cons g gs ih =>
    cases i
    case zero =>
      simp only [List.modify_zero_cons, List.flatMap_cons, Cluster.members, Cluster.add,
        List.cons_append, List.append_assoc, List.nil_append]
      exact ((List.perm_append_singleton x _).symm.append_left _).cons _
    case succ i =>
      simp only [List.modify_succ_cons, List.flatMap_cons, List.append_assoc]
      exact (ih (Nat.lt_of_succ_lt_succ hi)).append_left _

theorem first_append (gs : List (Cluster α)) (x : α) (i : Nat) :
    ((gs ++ [⟨x, []⟩])[i]?).map (fun g => key g.first) =
      if i = gs.length then some (key x) else (gs[i]?).map (fun g => key g.first) := by
  rw [List.getElem?_append]
  split
  case isTrue h => rw [if_neg (Nat.ne_of_lt h)]
  case isFalse h =>
    split
    case isTrue he => simp [he]
    case isFalse he =>
      rw [List.getElem?_eq_none (by simp; omega), List.getElem?_eq_none (by omega)]

theorem lt_of_seen (h : Grouped key xs s) {k i} (hk : s.seen.lookup k = some i) :
    i < s.groups.length := by
  obtain ⟨g, hg, _⟩ := Option.map_eq_some_iff.mp ((h.seen k i).mp hk).right
  exact (List.getElem?_eq_some_iff.mp hg).fst

theorem append (h : Grouped key xs s) {seen : GoMap Nat} (hs : ∀ k i, seen.lookup k = some i ↔
      s.seen.lookup k = some i ∨ k ≠ "" ∧ k = key x ∧ i = s.groups.length) :
    Grouped key (xs ++ [x]) ⟨s.groups ++ [⟨x, []⟩], seen⟩ where
  members := by
    rw [List.flatMap_append]
    exact h.members.append_right [x]
  keyed := by
    intro g hg y hy
    simp only [List.mem_append, List.mem_singleton] at hg
    rcases hg with hg | rfl
    case inl => exact h.keyed g hg y hy
    case inr => simp at hy
  seen := by
    intro k i
    rw [hs, h.seen, first_append]
    by_cases hi : i = s.groups.length
    case pos =>
      rw [hi, List.getElem?_eq_none (le_refl _)]
      simp [eq_comm]
    case neg => simp [hi]

theorem modify (h : Grouped key xs s) (hk : s.seen.lookup (key x) = some i) :
    Grouped key (xs ++ [x]) { s with groups := s.groups.modify i (·.add x) } where
  members := (perm_modify x s.groups (h.lt_of_seen hk)).trans (h.members.append_right [x])
  keyed := by
    intro g hg y hy
    obtain ⟨j, hg⟩ := List.mem_iff_getElem?.mp hg
    rw [List.getElem?_modify] at hg
    obtain ⟨g', hg', rfl⟩ := Option.map_eq_some_iff.mp hg
    have hm := List.mem_iff_getElem?.mpr ⟨j, hg'⟩
    split at hy
    case isFalse hij => rw [if_neg hij]; exact h.keyed g' hm y hy
    case isTrue hij =>
      rw [if_pos hij]
      obtain ⟨hne, hx⟩ := (h.seen (key x) i).mp hk
      rw [hij, hg', Option.map_some, Option.some.injEq] at hx
      simp only [Cluster.add, List.mem_append, List.mem_singleton] at hy ⊢
      rcases hy with hy | rfl
      case inl => exact h.keyed g' hm y hy
      case inr => exact ⟨hx ▸ hne, hx.symm⟩
  seen := by
    intro k j
    rw [h.seen, List.getElem?_modify]
    cases s.groups[j]? <;> by_cases hij : i = j <;> simp [hij, Cluster.add]

theorem step (h : Grouped key xs s) (x : α) :
    Grouped key (xs ++ [x]) (Grouping.step key (⟨·, []⟩) Cluster.add s x) := by
  simp only [Grouping.step]
  split
  case isTrue hx =>
    apply h.append
    intro k i
    rw [hx]
    constructor
    case mp  => exact .inl
    case mpr =>
      rintro (h | ⟨hk, he, _⟩)
      case inl => exact h
      case inr => exact absurd he hk
  case isFalse hx =>
    split
    case h_1 hn =>
      apply h.append
      intro k i
      by_cases hk : k = key x
      case pos =>
        rw [hk, Finmap.lookup_insert, hn]
        simp [hx, eq_comm]
      case neg => simp [Finmap.lookup_insert_of_ne _ hk, hk]
    case h_2 i hk => exact h.modify hk

theorem run (key : α → String) (xs : List α) :
    Grouped key xs (xs.foldl (Grouping.step key (⟨·, []⟩) Cluster.add) ⟨[], ∅⟩) := by
  induction xs using List.reverseRecOn
  case nil => exact initial
  case append_singleton xs x hi =>
    rw [List.foldl_append]
    exact hi.step x

end Grouped

section Groups

variable {key : α → String} {xs ys : List α} {x y : α} {g g' : Cluster α}

theorem perm_groups (key : α → String) (xs : List α) :
    ((groups key xs).flatMap Cluster.members).Perm xs :=
  (Grouped.run key xs).members

theorem exists_group (key : α → String) (hx : x ∈ xs) : ∃ g ∈ groups key xs, x ∈ g.members :=
  List.mem_flatMap.mp ((perm_groups key xs).mem_iff.mpr hx)

theorem mem_of_mem_group (hg : g ∈ groups key xs) (hx : x ∈ g.members) : x ∈ xs :=
  (perm_groups key xs).mem_iff.mp (List.mem_flatMap.mpr ⟨g, hg, hx⟩)

theorem key_eq_first (hg : g ∈ groups key xs) (hx : x ∈ g.members) : key x = key g.first := by
  rcases List.mem_cons.mp hx with rfl | hr
  case inl => rfl
  case inr => exact ((Grouped.run key xs).keyed g hg x hr).right

theorem same_of_mem_group (hg : g ∈ groups key xs) (hx : x ∈ g.members) (hy : y ∈ g.members) :
    Same key x y := by
  have hk := (key_eq_first hg hx).trans (key_eq_first hg hy).symm
  by_cases hr : g.rest = []
  case pos =>
    simp only [Cluster.members, hr, List.mem_singleton] at hx hy
    exact .inl (hx.trans hy.symm)
  case neg =>
    obtain ⟨z, hz⟩ := List.exists_mem_of_ne_nil _ hr
    have hne := ((Grouped.run key xs).keyed g hg z hz).left
    exact .inr ⟨key_eq_first hg hx ▸ hne, hk⟩

theorem group_unique (hg : g ∈ groups key xs) (hg' : g' ∈ groups key xs)
    (hk : key g.first = key g'.first) (hne : key g.first ≠ "") : g = g' := by
  have h := (Grouped.run key xs).seen (key g.first)
  obtain ⟨i, hi⟩ := List.mem_iff_getElem?.mp hg
  obtain ⟨j, hj⟩ := List.mem_iff_getElem?.mp hg'
  have hl := (h i).mpr ⟨hne, Option.map_eq_some_iff.mpr ⟨g, hi, rfl⟩⟩
  have hl' := (h j).mpr ⟨hne, Option.map_eq_some_iff.mpr ⟨g', hj, hk.symm⟩⟩
  have hij : i = j := Option.some.inj (hl.symm.trans hl')
  rw [hij, hj] at hi
  exact (Option.some.inj hi).symm

theorem mem_group_of_same (hg : g ∈ groups key xs) (hx : x ∈ g.members) (hy : y ∈ xs)
    (h : Same key x y) : y ∈ g.members := by
  rcases h with rfl | ⟨hne, hk⟩
  case inl => exact hx
  case inr =>
    obtain ⟨g', hg', hy'⟩ := exists_group key hy
    have hf : key g.first = key g'.first := by
      rw [← key_eq_first hg hx, hk, key_eq_first hg' hy']
    rw [group_unique hg hg' hf (key_eq_first hg hx ▸ hne)]
    exact hy'

theorem canonical_eq_nil : canonical key better xs = [] ↔ xs = [] := by
  rw [canonical, List.map_eq_nil_iff]
  constructor
  case mp =>
    intro h
    have hp := perm_groups key xs
    rw [h] at hp
    exact hp.nil_eq.symm
  case mpr =>
    rintro rfl
    rfl

theorem nodup_canonical (key : α → String) (better : α → α → Bool) (h : xs.Nodup) :
    (canonical key better xs).Nodup := by
  have hd := (List.nodup_flatMap.mp ((perm_groups key xs).nodup_iff.mpr h)).right
  apply List.pairwise_map.mpr
  refine hd.imp ?_
  intro g g' hgg he
  exact hgg (g.best_mem better) (he ▸ g'.best_mem better)

end Groups

section Best

variable {R : Type v} [LinearOrder R] {rank : α → R} {better : α → α → Bool}
variable {xs ys : List α} {x y : α} (key : α → String)
variable (hb : ∀ x y, better x y = true ↔ rank x < rank y)

include hb

-- Every element has a canonical one in its group, to which it is not preferred.
theorem exists_canonical (hx : x ∈ xs) :
    ∃ y ∈ canonical key better xs, Same key x y ∧ rank y ≤ rank x := by
  obtain ⟨g, hg, hxg⟩ := exists_group key hx
  exact ⟨g.best better, List.mem_map_of_mem hg,
    same_of_mem_group hg hxg (g.best_mem better), g.best_le hb x hxg⟩

-- A property that passes to better elements holds of a canonical element when it holds of some.
theorem exists_canonical_of (xs : List α) {p : α → Prop} (hp : ∀ x y, rank y ≤ rank x → p x → p y) :
    (∃ x ∈ canonical key better xs, p x) ↔ ∃ x ∈ xs, p x := by
  constructor
  case mp =>
    rintro ⟨x, hx, hpx⟩
    obtain ⟨g, hg, rfl⟩ := List.mem_map.mp hx
    exact ⟨_, mem_of_mem_group hg (g.best_mem better), hpx⟩
  case mpr =>
    rintro ⟨x, hx, hpx⟩
    obtain ⟨y, hy, _, hle⟩ := exists_canonical key hb hx
    exact ⟨y, hy, hp x y hle hpx⟩

variable (hr : ∀ x ∈ xs, ∀ y ∈ xs, rank x = rank y → x = y)

include hr

variable {key} in
-- The canonical elements are those that are below all elements of their group.
theorem mem_canonical :
    x ∈ canonical key better xs ↔ x ∈ xs ∧ ∀ y ∈ xs, Same key x y → rank x ≤ rank y := by
  rw [canonical, List.mem_map]
  constructor
  case mp =>
    rintro ⟨g, hg, rfl⟩
    refine ⟨mem_of_mem_group hg (g.best_mem better), ?_⟩
    intro y hy hs
    exact g.best_le hb y (mem_group_of_same hg (g.best_mem better) hy hs)
  case mpr =>
    rintro ⟨hx, hl⟩
    obtain ⟨g, hg, hxg⟩ := exists_group key hx
    have hbg := g.best_mem better
    have hbx := mem_of_mem_group hg hbg
    have hle := hl _ hbx (same_of_mem_group hg hxg hbg)
    exact ⟨g, hg, hr _ hbx _ hx (le_antisymm (g.best_le hb x hxg) hle)⟩

theorem perm_canonical (hd : xs.Nodup) (hp : ys.Perm xs) :
    (canonical key better ys).Perm (canonical key better xs) := by
  have hr' : ∀ x ∈ ys, ∀ y ∈ ys, rank x = rank y → x = y :=
    fun x hx y hy => hr x (hp.mem_iff.mp hx) y (hp.mem_iff.mp hy)
  apply (List.perm_ext_iff_of_nodup (nodup_canonical key better (hp.nodup_iff.mpr hd))
    (nodup_canonical key better hd)).mpr
  intro x
  simp only [mem_canonical hb hr, mem_canonical hb hr', hp.mem_iff]

theorem choose_eq_some :
    choose better xs = some x ↔ x ∈ xs ∧ ∀ y ∈ xs, rank x ≤ rank y := by
  cases xs
  case nil => simp [choose]
  case cons x' xs =>
    have hm : Cluster.best better ⟨x', xs⟩ ∈ x' :: xs := Cluster.best_mem better ⟨x', xs⟩
    have hl : ∀ y ∈ x' :: xs, rank (Cluster.best better ⟨x', xs⟩) ≤ rank y :=
      Cluster.best_le hb ⟨x', xs⟩
    rw [choose, Option.some.injEq]
    constructor
    case mp =>
      rintro rfl
      exact ⟨hm, hl⟩
    case mpr =>
      rintro ⟨hx, h⟩
      exact hr _ hm _ hx (le_antisymm (hl x hx) (h _ hm))

theorem choose_perm (hp : ys.Perm xs) : choose better ys = choose better xs := by
  have hr' : ∀ x ∈ ys, ∀ y ∈ ys, rank x = rank y → x = y :=
    fun x hx y hy => hr x (hp.mem_iff.mp hx) y (hp.mem_iff.mp hy)
  ext x
  simp only [choose_eq_some hb hr, choose_eq_some hb hr', hp.mem_iff]

-- Two canonical elements have such a property when two elements of different groups have it.
theorem exists_canonical_pair {p : α → Prop} (hp : ∀ x y, rank y ≤ rank x → p x → p y) :
    (∃ x ∈ canonical key better xs, ∃ y ∈ canonical key better xs, x ≠ y ∧ p x ∧ p y) ↔
    ∃ x ∈ xs, ∃ y ∈ xs, ¬Same key x y ∧ p x ∧ p y := by
  constructor
  case mp =>
    rintro ⟨x, hx, y, hy, hne, hpx, hpy⟩
    obtain ⟨hx, hlx⟩ := (mem_canonical hb hr).mp hx
    obtain ⟨hy, hly⟩ := (mem_canonical hb hr).mp hy
    refine ⟨x, hx, y, hy, ?_, hpx, hpy⟩
    intro hs
    exact hne (hr x hx y hy (le_antisymm (hlx y hy hs) (hly x hx hs.symm)))
  case mpr =>
    rintro ⟨x, hx, y, hy, hs, hpx, hpy⟩
    obtain ⟨x', hx', hsx, hlx⟩ := exists_canonical key hb hx
    obtain ⟨y', hy', hsy, hly⟩ := exists_canonical key hb hy
    refine ⟨x', hx', y', hy', ?_, hp x x' hlx hpx, hp y y' hly hpy⟩
    rintro rfl
    exact hs (hsx.trans hsy.symm)

end Best

end Grouping
