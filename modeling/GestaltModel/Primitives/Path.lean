import GestaltModel.Primitives.Text

-- Paths with slashes as the Go package `path` treats them.
namespace Path

-- A part of a path on the stack of those before it.
def push (rooted : Bool) (stack : List String) (part : String) : List String :=
  if part = "" ∨ part = "." then
    stack
  else if part ≠ ".." then
    part :: stack
  else match stack with
    | [] => if rooted then [] else [part]
    | top :: rest => if top = ".." then part :: stack else rest

-- The parts of a cleaned path, the last one first.
def stack (rooted : Bool) (parts : List String) : List String :=
  parts.foldl (push rooted) []

-- `path.Clean`. A path is rooted if there is nothing before its first slash.
def clean (path : String) : String :=
  match Text.split '/' path with
  | "" :: part :: parts => "/" ++ "/".intercalate (stack true (part :: parts)).reverse
  | parts =>
    if stack false parts = [] then "." else "/".intercalate (stack false parts).reverse

-- `path.Join`
def join (elems : List String) : String :=
  let elems := elems.dropWhile (· = "")
  if elems = [] then "" else clean ("/".intercalate elems)

theorem push_cases (below : List String) (part : String) :
    push rooted below part = below ∨ push rooted below part = below.tail ∨
      push rooted below part = part :: below := by
  fun_cases push
  all_goals simp_all

theorem mem_stack (h : c ∈ stack rooted parts) : c ∈ parts := by
  induction parts using List.reverseRecOn
  case nil => exact h
  case append_singleton parts part ih =>
    rw [stack, List.foldl_concat] at h
    rw [List.mem_append, List.mem_singleton]
    obtain he | he | he := @push_cases rooted (stack rooted parts) part
    case inl => exact .inl (ih (he ▸ h))
    case inr.inl => exact .inl (ih (List.mem_of_mem_tail (he ▸ h)))
    case inr.inr => exact (List.mem_cons.mp (he ▸ h)).symm.imp_left ih

-- Each part of the stack is pushed on the ones below it.
def Settled : List String → Prop
  | [] => True
  | part :: below => push false below part = part :: below ∧ Settled below

theorem Settled.push (h : Settled below) : Settled (push false below part) := by
  obtain he | he | he := push_cases below part
  case inl => rwa [he]
  case inr.inl =>
    rw [he]
    cases below
    case nil => trivial
    case cons => exact h.right
  case inr.inr => exact he ▸ ⟨he, h⟩

theorem settled_stack (parts : List String) : Settled (stack false parts) := by
  induction parts using List.reverseRecOn
  case nil => trivial
  case append_singleton ih =>
    rw [stack, List.foldl_concat]
    exact ih.push

-- A cleaned path is not changed by cleaning it again.
theorem Settled.stack_reverse (h : Settled below) : stack false below.reverse = below := by
  induction below
  case nil => rfl
  case cons part below ih =>
    rw [stack, List.reverse_cons, List.foldl_concat]
    exact (congrArg (Path.push false · part) (ih h.right)).trans h.left

theorem Settled.ne_empty (h : Settled below) (hm : part ∈ below) : part ≠ "" := by
  induction below
  case nil => cases hm
  case cons below ih =>
    cases hm
    case head => rintro rfl; simpa [Path.push] using h.left
    case tail hm => exact ih h.right hm

-- Only the parts at the bottom lead to a parent.
theorem Settled.bottom (h : Settled below) (hm : ".." ∈ below) : below.getLast? = some ".." := by
  induction below
  case nil => cases hm
  case cons part below ih =>
    cases below
    case nil => rw [List.mem_singleton.mp hm]; rfl
    case cons top rest =>
      rw [List.getLast?_cons_cons]
      refine ih h.right ((List.mem_cons.mp hm).elim ?_ id)
      rintro rfl
      by_contra hn
      have ht : top ≠ ".." := fun ht => hn (ht ▸ List.mem_cons_self)
      have hp : rest = ".." :: top :: rest := by simpa [Path.push, ht] using h.left
      have hl := congrArg List.length hp
      rw [List.length_cons, List.length_cons] at hl
      omega

theorem Settled.append (h : Settled below) (hp : ∀ part ∈ parts, part ∉ ["", ".", ".."]) :
    Settled (parts ++ below) := by
  induction parts
  case nil => exact h
  case cons part parts ih =>
    obtain ⟨hp, hps⟩ := List.forall_mem_cons.mp hp
    refine ⟨?_, ih hps⟩
    simp_all [Path.push]

theorem notMem_of_mem_splitOn {cs l : List Char} (h : l ∈ cs.splitOn sep) : sep ∉ l := by
  induction cs generalizing l
  case nil => rw [List.splitOn_nil, List.mem_singleton] at h; simp [h]
  case cons c cs ih =>
    rw [List.splitOn_cons_eq_if_modifyHead] at h
    obtain ⟨l', ls, hs⟩ := List.exists_cons_of_ne_nil (List.splitOn_ne_nil sep cs)
    rw [hs] at h ih
    rw [List.modifyHead_cons] at h
    grind

-- The parts of a cleaned path that is not rooted.
theorem clean_relative (h : ∀ part parts, Text.split '/' path ≠ "" :: part :: parts)
    (hd : clean path ≠ ".") :
    ∃ parts ≠ [], clean path = "/".intercalate parts ∧ Settled parts.reverse ∧
      ∀ part ∈ parts, '/' ∉ part.toList := by
  rw [clean] at hd ⊢
  split at hd
  case h_1 hp => exact absurd hp (h _ _)
  case h_2 =>
    rw [ne_eq, ite_eq_left_iff, not_forall] at hd
    obtain ⟨hn, -⟩ := hd
    refine ⟨_, List.reverse_ne_nil_iff.mpr hn, if_neg hn, ?_, fun part hm => ?_⟩
    · rw [List.reverse_reverse]
      exact settled_stack _
    · obtain ⟨l, hl, rfl⟩ := List.mem_map.mp (mem_stack (List.mem_reverse.mp hm))
      rw [String.toList_ofList]
      exact notMem_of_mem_splitOn hl

section Parts

variable {parts : List String} (hs : ∀ part ∈ parts, '/' ∉ part.toList) (hn : parts ≠ [])

include hs hn

theorem split_intercalate : Text.split '/' ("/".intercalate parts) = parts := by
  have hm : ∀ l ∈ parts.map String.toList, '/' ∉ l := by simpa using hs
  have hj := List.splitOn_intercalate '/' hm (List.map_eq_nil_iff.not.mpr hn)
  rw [Text.split, String.toList_intercalate]
  exact (congrArg _ hj).trans (by simp)

variable (h : Settled parts.reverse)

include h

theorem intercalate_ne_empty : "/".intercalate parts ≠ "" := by
  intro he
  have hp := split_intercalate hs hn
  rw [he] at hp
  have hm : "" ∈ parts.reverse := by simp [← hp, Text.split]
  exact h.ne_empty hm rfl

theorem clean_intercalate : clean ("/".intercalate parts) = "/".intercalate parts := by
  have hst := h.stack_reverse
  rw [List.reverse_reverse] at hst
  rw [clean, split_intercalate hs hn]
  split
  · exact absurd rfl (h.ne_empty (by simp))
  · simp [hst, hn]

end Parts
end Path
