import Mathlib.Data.Finset.Card
import Mathlib.Data.Nat.Find
import GestaltModel.Primitives.Text

-- Names with a number that are tried until one is found that is not taken.
namespace FreshNames

variable {α : Type} [DecidableEq α] {candidate : Nat → α}

theorem exists_free (hc : candidate.Injective) (taken : Finset α) (i : Nat) :
    ∃ k ≤ taken.card, candidate (i + k) ∉ taken := by
  by_contra! h
  have hs : (Finset.range (taken.card + 1)).image (candidate <| i + ·) ⊆ taken := by
    simpa [Finset.image_subset_iff, Nat.lt_succ_iff] using h
  have hl := Finset.card_le_card hs
  rw [Finset.card_image_of_injective _ (fun _ _ h => by simpa using hc h), Finset.card_range] at hl
  exact absurd hl (Nat.not_succ_le_self _)

-- The first number from `i` on whose candidate is free.
def firstFree (hc : candidate.Injective) (taken : Finset α) (i : Nat) : Nat :=
  i + Nat.find ((exists_free hc taken i).imp fun _ h => h.right)

theorem firstFree_notMem (hc : candidate.Injective) (taken : Finset α) (i : Nat) :
    candidate (firstFree hc taken i) ∉ taken :=
  Nat.find_spec ((exists_free hc taken i).imp fun _ h => h.right)

theorem firstFree_le (hc : candidate.Injective) (taken : Finset α) (i : Nat) :
    firstFree hc taken i ≤ i + taken.card := by
  obtain ⟨k, hk, hf⟩ := exists_free hc taken i
  exact Nat.add_le_add_left ((Nat.find_min' _ hf).trans hk) i

-- A text ends with the number that follows its last underscore.
theorem numbered_injective {i j : Nat}
    (h : s ++ "_" ++ toString i = s' ++ "_" ++ toString j) : i = j := by
  have hd (n : Nat) : '_' ∉ (toString n).toList := by
    intro hm
    rw [Nat.toString_eq_repr, Nat.toList_repr] at hm
    have := Nat.isDigit_of_mem_toDigits (by decide) (by decide) hm
    contradiction
  have hc := congrArg (Text.cutLast '_') h
  rw [show "_" = String.singleton '_' from rfl, Text.cutLast_append (hd i),
    Text.cutLast_append (hd j)] at hc
  have hr := congrArg String.toList (congrArg Prod.snd (Option.some.inj hc))
  simp only [Nat.toString_eq_repr, Nat.toList_repr] at hr
  rw [← Nat.ofDigitChars_toDigits (b := 10) (n := i) (by decide) (by decide), hr,
    Nat.ofDigitChars_toDigits (by decide) (by decide)]

section Runs

variable {f : σ → β → γ × σ} {name : γ → α} {taken : σ → Finset α}

-- What is made of a list, one element after the other.
def run (f : σ → β → γ × σ) (s : σ) : List β → List γ
  | [] => []
  | x :: xs => (f s x).1 :: run f (f s x).2 xs

-- Each name is a new one, and is taken from then on.
structure Allocates (f : σ → β → γ × σ) (name : γ → α) (taken : σ → Finset α) : Prop where
  fresh : ∀ s x, name (f s x).1 ∉ taken s
  takes : ∀ s x, taken (f s x).2 = insert (name (f s x).1) (taken s)

theorem run_map (h : ∀ s, ∀ x ∈ xs, g (f s x).1 = x) (s : σ) :
    (run f s xs).map g = xs := by
  induction xs generalizing s
  case nil => rfl
  case cons x xs hi =>
    rw [run, List.map_cons, h s x List.mem_cons_self, hi fun s y hy => h s y (.tail _ hy)]

namespace Allocates

theorem mem_run (h : Allocates f name taken) {xs : List β} (hc : c ∈ run f s xs) :
    ∃ s', ∃ x ∈ xs, c = (f s' x).1 ∧ taken s ⊆ taken s' ∧
      (taken s').card < (taken s).card + xs.length := by
  induction xs generalizing s
  case nil => simp [run] at hc
  case cons x xs hi =>
    obtain hc | hc := List.mem_cons.mp hc
    case inl => exact ⟨s, x, List.mem_cons_self, hc, subset_rfl, by simp⟩
    case inr =>
      obtain ⟨s', y, hy, he, hs, hl⟩ := hi hc
      rw [h.takes, Finset.card_insert_of_notMem (h.fresh s x)] at hl
      rw [h.takes] at hs
      refine ⟨s', y, .tail _ hy, he, (Finset.subset_insert ..).trans hs, ?_⟩
      rw [List.length_cons]
      omega

theorem nodup (h : Allocates f name taken) (xs : List β) (s : σ) :
    ((run f s xs).map name).Nodup := by
  induction xs generalizing s
  case nil => exact .nil
  case cons x xs hi =>
    refine List.nodup_cons.mpr ⟨?_, hi _⟩
    intro hm
    obtain ⟨c, hc, he⟩ := List.mem_map.mp hm
    obtain ⟨s', y, -, rfl, hs, -⟩ := h.mem_run hc
    apply h.fresh s' y
    rw [he]
    exact hs (h.takes s x ▸ Finset.mem_insert_self ..)

end Allocates

end Runs

end FreshNames
