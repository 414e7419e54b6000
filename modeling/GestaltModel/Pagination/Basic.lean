import Mathlib.Data.List.Nodup
import Mathlib.Data.List.Infix

-- Listings in pages, where a page names the cursor that leads to the next page.
namespace Pagination

structure Page (α κ : Type) where
  items : List α
  next : Option κ
  deriving DecidableEq

-- What a client gets that follows the cursors for at most `n` pages, if every page can be fetched
-- and the last one is reached.
def follow (fetch : κ → Option (Page α κ)) : Nat → κ → Option (List α)
  | 0, _ => none
  | n + 1, c => do
    let page ← fetch c
    match page.next with
    | none      => return page.items
    | some next => return page.items ++ (← follow fetch n next)

-- Pages of a fixed list. A cursor says which items are left, namely those from some point on, and
-- is made from the last item of a page.
structure Listing (α κ : Type) where
  items : List α
  nodup : items.Nodup
  size : Nat
  size_pos : 0 < size
  cursor : α → κ
  left : κ → Option (α → Bool)
  mono : ∀ {c p}, left c = some p → items.Pairwise fun a b => p a → p b

variable (l : Listing α κ)

namespace Listing

def rest (c : κ) : Option (List α) :=
  (l.left c).map l.items.filter

def cut (rest : List α) : Page α κ :=
  if l.size < rest.length then
    ⟨rest.take l.size, rest[l.size - 1]?.map l.cursor⟩
  else
    ⟨rest, none⟩

def page (c : κ) : Option (Page α κ) :=
  (l.rest c).map l.cut

-- The cursor that is made before the position `i` leads to that position.
def Resumes (i : Nat) : Prop :=
  ∃ last ∈ l.items[i - 1]?, l.rest (l.cursor last) = some (l.items.drop i)

end Listing
end Pagination
