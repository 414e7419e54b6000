import GestaltModel.Interleaving.Execution

-- Clients that read a shared cell, compute its next content from what they have read, and overwrite it.
namespace Interleaving.Cell

inductive Call (β : Type)
  | read
  | write (b : β)

abbrev Response (ε : Type) : Call β → Type
  | .read => Except ε (Option β)
  | .write _ => Except ε Unit

-- The content of the cell, and what each client has read last.
structure Memory (ι β : Type) where
  content : Option β
  found : ι → Option β

section Semantics

variable {ι β ε : Type} [DecidableEq ι]

def exec (i : ι) : (c : Call β) → Option ε → Memory ι β → Memory ι β × Response ε c
  | .read, none, s => ({ s with found := Function.update s.found i s.content }, .ok s.content)
  | .write b, none, s => ({ s with content := some b }, .ok ())
  | .read, some e, s => (s, .error e)
  | .write _, some e, s => (s, .error e)

-- Any request can fail.
@[reducible]
def semantics (ι β ε : Type) [DecidableEq ι] :
    Semantics ι (Call β) (Response ε) (Memory ι β) where
  Oracle := Option ε
  Act := Empty
  exec i c o s := exec i c o s
  act a _      := a.elim

end Semantics

abbrev CellProgram (β ε : Type) := Program (Call β) (Response ε) (Except ε Unit)

-- Reads the cell and writes what `f` makes of it. An error that is not one of `f` can be wrapped.
def modify (wrap : ε → ε) (f : Option β → Except ε β) : CellProgram β ε :=
  .call .read fun
    | .error e => .ret (.error (wrap e))
    | .ok found =>
      match f found with
      | .error e => .ret (.error e)
      | .ok b    => .call (.write b) .ret

-- What a client does, where some have nothing to do.
def program (wrap : ε → ε) : Option (Option β → Except ε β) → CellProgram β ε
  | none => .ret (.ok ())
  | some f => modify wrap f

def config (wrap : ε → ε) (clients : ι → Option (Option β → Except ε β)) (initial : Option β) :
    Config ι (Call β) (Response ε) (Except ε Unit) (Memory ι β) where
  mem := { content := initial, found := fun _ => none }
  prog i := program wrap (clients i)

-- The guard of the executions where nobody overwrites what it has not read.
def unmoved (i : ι) : Call β → Memory ι β → Prop
  | .read, _ => True
  | .write _, s => s.content = s.found i

instance [DecidableEq β] {i : ι} {c : Call β} {s : Memory ι β} : Decidable (unmoved i c s) :=
  match c with
  | .read => .isTrue trivial
  | .write _ => inferInstanceAs <| Decidable (_ = _)

-- The content of the cell when the given clients have replaced it one after the other.
inductive Committed (clients : ι → Option (Option β → Except ε β)) (initial : Option β) :
    List ι → Option β → Prop
  | nil : Committed clients initial [] initial
  | snoc {order content i f b} : Committed clients initial order content → clients i = some f →
    f content = .ok b → Committed clients initial (order ++ [i]) (some b)

end Interleaving.Cell
