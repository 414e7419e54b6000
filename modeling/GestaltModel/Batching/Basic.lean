import Mathlib.Data.List.Basic
import Mathlib.Data.List.Induction

-- Answers to a list of questions, some of which are sent on in batches.
namespace Batching

-- What is sent on, with the positions from which it comes.
def gather (f : α → Option γ) (xs : List α) : List (Nat × γ) :=
  xs.zipIdx.filterMap fun (x, i) => (f x).map (i, ·)

-- Puts values at the given positions.
def scatter (init : List β) (indexes : List Nat) (values : List β) : List β :=
  (indexes.zip values).foldl (fun acc (i, value) => acc.set i value) init

-- Pieces of at most `size` elements.
def chunks (size : Nat) (xs : List α) : List (List α) :=
  (List.range ((xs.length + size - 1) / size)).map fun n => (xs.drop (n * size)).take size

variable {α β γ : Type _} {f : α → Option γ} {g : α → γ → β} {d : α → β}

variable {xs : List α} {i size : Nat}

section Gather

theorem gather_concat :
    gather f (xs ++ [x]) = gather f xs ++ ((f x).map (xs.length, ·)).toList := by
  rw [gather, List.zipIdx_append, List.filterMap_append]
  cases h : f x <;> simp [gather, h]

theorem mem_gather :
    (i, y) ∈ gather f xs ↔ ∃ x, xs[i]? = some x ∧ f x = some y := by
  simp only [gather, List.mem_filterMap, Prod.exists, List.mem_zipIdx_iff_getElem?]
  constructor
  case mp =>
    rintro ⟨x, j, hx, hm⟩
    obtain ⟨y', hy, he⟩ := Option.map_eq_some_iff.mp hm
    obtain ⟨rfl, rfl⟩ := Prod.mk.inj he
    exact ⟨x, hx, hy⟩
  case mpr =>
    rintro ⟨x, hx, hy⟩
    exact ⟨x, i, hx, by simp [hy]⟩

theorem lt_length_of_mem_gather (h : (i, y) ∈ gather f xs) :
    i < xs.length := by
  obtain ⟨x, hx, -⟩ := mem_gather.mp h
  exact (List.getElem?_eq_some_iff.mp hx).choose

theorem map_snd_gather : (gather f xs).map Prod.snd = xs.filterMap f := by
  induction xs using List.reverseRecOn
  case nil => rfl
  case append_singleton xs x hi =>
    rw [gather_concat, List.map_append, hi, List.filterMap_append]
    cases h : f x <;> simp [h]

end Gather

section Scatter

theorem scatter_concat {v : β} (h : indexes.length = values.length) :
    scatter init (indexes ++ [i]) (values ++ [v]) = (scatter init indexes values).set i v := by
  rw [scatter, List.zip_append h, List.foldl_append]
  rfl

theorem scatter_append_singleton {b : β} (h : ∀ i ∈ indexes, i < init.length) :
    scatter (init ++ [b]) indexes values = scatter init indexes values ++ [b] := by
  induction indexes generalizing init values
  case nil => rfl
  case cons i indexes hi =>
    cases values
    case nil => rfl
    case cons v values =>
      have hl : i < init.length := h i List.mem_cons_self
      have hn : ∀ j ∈ indexes, j < (init.set i v).length := fun j hj => by
        rw [List.length_set]
        exact h j (List.mem_cons_of_mem _ hj)
      have hs : (init ++ [b]).set i v = init.set i v ++ [b] := List.set_append_left _ _ hl
      exact (congrArg (scatter · indexes values) hs).trans (hi hn)

-- When the positions are those from which the questions were sent on, every question gets its answer.
theorem scatter_gather (h : ∀ i x y, xs[i]? = some x → f x = some y → v (i, y) = g x y) :
    scatter (xs.map d) ((gather f xs).map Prod.fst) ((gather f xs).map v) =
      xs.map fun x => (f x).elim (d x) (g x) := by
  induction xs using List.reverseRecOn
  case nil => rfl
  case append_singleton xs x hi =>
    have hi := hi fun i x' y hx hy => h i x' y (by
      rw [List.getElem?_append_left (List.getElem?_eq_some_iff.mp hx).choose, hx]) hy
    have hb : ∀ i ∈ (gather f xs).map Prod.fst, i < (xs.map d).length := by
      intro i hm
      obtain ⟨⟨j, y⟩, hj, rfl⟩ := List.mem_map.mp hm
      simpa using lt_length_of_mem_gather hj
    rw [gather_concat, List.map_append, List.map_append, List.map_append]
    cases hy : f x
    case none => simp [hy, scatter_append_singleton hb, hi]
    case some y =>
      have hv : v (xs.length, y) = g x y := h _ _ _ (by simp) hy
      simp only [Option.map_some, Option.toList_some, List.map_cons, List.map_nil]
      rw [scatter_concat (by simp), scatter_append_singleton hb, hi, hv]
      simp [hy]

end Scatter

section Chunks

theorem flatten_pieces :
    ((List.range n).map fun k => (xs.drop (k * size)).take size).flatten = xs.take (n * size) := by
  induction n
  case zero => simp
  case succ n hi => simp [List.range_succ, hi, Nat.succ_mul, List.take_add]

theorem flatten_chunks (h : 0 < size) : (chunks size xs).flatten = xs := by
  have hl : xs.length ≤ (xs.length + size - 1) / size * size := by
    have := Nat.lt_div_mul_add h (a := xs.length + size - 1)
    omega
  rw [chunks, flatten_pieces, List.take_of_length_le hl]

theorem length_le_of_mem_chunks (h : piece ∈ chunks size xs) :
    piece.length ≤ size := by
  obtain ⟨n, -, rfl⟩ := List.mem_map.mp h
  exact List.length_take_le _ _

end Chunks

end Batching
