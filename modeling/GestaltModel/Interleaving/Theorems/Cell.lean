import Mathlib.Data.List.Nodup
import GestaltModel.Interleaving.Cell

namespace Interleaving.Cell

variable {ι β ε : Type}

-- How far client `i` has come when the clients in `order` are those that have written.
inductive Progress (wrap : ε → ε) (clients : ι → Option (Option β → Except ε β)) (order : List ι)
    (i : ι) : CellProgram β ε → Option β → Prop
  | idle {found} (hc : clients i = none) (hn : i ∉ order) :
    Progress wrap clients order i (.ret (.ok ())) found
  | waiting {f found} (hc : clients i = some f) (hn : i ∉ order) :
    Progress wrap clients order i (modify wrap f) found
  | writing {f found b} (hc : clients i = some f) (hn : i ∉ order) (hf : f found = .ok b) :
    Progress wrap clients order i (.call (.write b) .ret) found
  | done {found} (hm : i ∈ order) : Progress wrap clients order i (.ret (.ok ())) found
  | failed {e found} (hn : i ∉ order) : Progress wrap clients order i (.ret (.error e)) found

variable {wrap : ε → ε} {clients : ι → Option (Option β → Except ε β)} {initial found : Option β}
variable {order : List ι} {i j : ι} {p : CellProgram β ε}

theorem Progress.append (h : Progress wrap clients order j p found) (hj : j ≠ i) :
    Progress wrap clients (order ++ [i]) j p found := by
  have hn (h : j ∉ order) : j ∉ order ++ [i] := by simp [h, hj]
  cases h
  case idle hc h => exact .idle hc (hn h)
  case waiting hc h => exact .waiting hc (hn h)
  case writing hc h hf => exact .writing hc (hn h) hf
  case done h => exact .done (List.mem_append_left _ h)
  case failed h => exact .failed (hn h)

-- The cell is as if the clients in `order` had modified it one after the other.
structure Linearized (wrap : ε → ε) (clients : ι → Option (Option β → Except ε β))
    (initial : Option β) (order : List ι)
    (c : Config ι (Call β) (Response ε) (Except ε Unit) (Memory ι β)) : Prop where
  nodup : order.Nodup
  committed : Committed clients initial order c.mem.content
  progress : ∀ i, Progress wrap clients order i (c.prog i) (c.mem.found i)

namespace Linearized

variable {c c' : Config ι (Call β) (Response ε) (Except ε Unit) (Memory ι β)}

theorem start : Linearized wrap clients initial [] (config wrap clients initial) where
  nodup := .nil
  committed := .nil
  progress i := by
    simp only [config]
    cases hc : clients i
    case none => exact .idle hc List.not_mem_nil
    case some f => exact .waiting hc List.not_mem_nil

variable [DecidableEq ι]

theorem step (h : Linearized wrap clients initial order c)
    (e : Step (semantics ι β ε) unmoved c c') :
    ∃ order', Linearized wrap clients initial order' c' := by
  cases e
  case env a => exact a.elim
  case call i q k o hp allowed =>
    -- Only the step of a client that writes changes the order.
    have others {order'} (ho : order' = order ∨ order' = order ++ [i]) {j} (hj : j ≠ i) :
        Progress wrap clients order' j ((c.resume (semantics ι β ε) i q k o).prog j)
          ((c.resume (semantics ι β ε) i q k o).mem.found j) := by
      have hfound : (c.resume (semantics ι β ε) i q k o).mem.found j = c.mem.found j := by
        cases q <;> cases o <;> simp [exec, hj]
      rw [Config.resume_prog_of_ne hj, hfound]
      rcases ho with rfl | rfl
      · exact h.progress j
      · exact (h.progress j).append hj
    have hi := h.progress i
    rw [hp] at hi
    generalize hq : Program.call q k = p, hr : c.mem.found i = found at hi
    cases hi
    case idle   => contradiction
    case done   => contradiction
    case failed => contradiction
    case waiting f hc hn =>
      cases hq
      refine ⟨order, h.nodup, ?_, fun j => ?_⟩
      · cases o <;> exact h.committed
      · by_cases hj : j = i
        case neg => exact others (.inl rfl) hj
        case pos =>
          subst hj
          rw [Config.resume_prog_self]
          cases o
          case some e => exact .failed hn
          case none =>
            simp only [exec, Config.resume_mem, Function.update_self]
            split
            case h_1 e hf => exact .failed hn
            case h_2 b hf => exact .writing hc hn hf
    case writing f b hc hn hf =>
      cases hq
      cases o
      case some e =>
        refine ⟨order, h.nodup, h.committed, fun j => ?_⟩
        by_cases hj : j = i
        case neg => exact others (.inl rfl) hj
        case pos =>
          subst hj
          rw [Config.resume_prog_self]
          exact .failed hn
      case none =>
        have hu : c.mem.content = c.mem.found i := allowed
        refine ⟨order ++ [i], ?_, ?_, fun j => ?_⟩
        · exact h.nodup.append (List.nodup_singleton i) (by simpa using hn)
        · exact .snoc h.committed hc (hu ▸ hr ▸ hf)
        · by_cases hj : j = i
          case neg => exact others (.inr rfl) hj
          case pos =>
            subst hj
            rw [Config.resume_prog_self]
            exact .done (List.mem_append_right _ (List.mem_singleton_self j))

theorem reaches (e : Reaches (semantics ι β ε) unmoved (config wrap clients initial) c) :
    ∃ order, Linearized wrap clients initial order c := by
  induction e
  case refl => exact ⟨[], start⟩
  case tail e ih =>
    obtain ⟨order, h⟩ := ih
    exact h.step e

omit [DecidableEq ι] in
-- A client with something to do has written when it has returned without an error.
theorem mem_of_ok {f : Option β → Except ε β} (h : Linearized wrap clients initial order c)
    (hc : clients i = some f) (hr : c.prog i = .ret (.ok ())) : i ∈ order := by
  have hp := h.progress i
  rw [hr] at hp
  cases hp
  case idle hn _ => exact nomatch hc.symm.trans hn
  case done hm => exact hm

end Linearized
end Interleaving.Cell
