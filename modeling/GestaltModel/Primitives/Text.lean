import Mathlib.Data.List.DropRight

-- Strings as the Go standard library treats them.
namespace Text

variable {s s' : String}

-- The characters that `unicode.IsSpace` reports.
def isSpace (c : Char) : Bool :=
  c.toNat ∈ [0x09, 0x0a, 0x0b, 0x0c, 0x0d, 0x20, 0x85, 0xa0, 0x1680, 0x2028, 0x2029, 0x202f, 0x205f,
    0x3000] || (0x2000 ≤ c.toNat && c.toNat ≤ 0x200a)

-- `strings.TrimSpace`
@[irreducible]
def trimSpace (s : String) : String :=
  .ofList <| (s.toList.dropWhile isSpace).rdropWhile isSpace

-- The verb `%q` of the package `fmt`, for text without control characters.
def quote (s : String) : String :=
  .ofList <| ['"'] ++ s.toList.flatMap (fun c => if c ∈ ['"', '\\'] then ['\\', c] else [c]) ++ ['"']

-- `strings.Split` for a separator of one character.
def split (sep : Char) (s : String) : List String :=
  (s.toList.splitOn sep).map .ofList

-- `strings.TrimRight` for a single character.
def trimRight (c : Char) (s : String) : String :=
  .ofList <| s.toList.rdropWhile (· == c)

-- `strings.Trim` for a single character.
def trim (c : Char) (s : String) : String :=
  .ofList <| (s.toList.dropWhile (· == c)).rdropWhile (· == c)

-- The text before and after the last separator, which `strings.LastIndex` finds.
def cutLast (sep : Char) (s : String) : Option (String × String) :=
  if sep ∈ s.toList then
    some (.ofList (s.toList.rdropWhile (· ≠ sep)).dropLast, .ofList (s.toList.rtakeWhile (· ≠ sep)))
  else
    none

-- `strings.Cut` for a separator of one character. There is nothing if it is not found.
def cut (sep : Char) (s : String) : Option (String × String) :=
  if sep ∈ s.toList then
    some (.ofList (s.toList.takeWhile (· ≠ sep)), .ofList (s.toList.dropWhile (· ≠ sep)).tail)
  else
    none

-- `strings.ToLower`, right where the lower case is ASCII: the ASCII letters, the capital I with a
-- dot and the Kelvin sign.
def toLower (s : String) : String :=
  .ofList <| s.toList.map fun c =>
    if c.toNat = 0x130 then 'i' else if c.toNat = 0x212a then 'k' else c.toLower

-- The alphabet of `base64.RawURLEncoding`
def base64Digit (n : Nat) : Char :=
  if n < 26 then .ofNat ('A'.toNat + n)
  else if n < 52 then .ofNat ('a'.toNat + (n - 26))
  else if n < 62 then .ofNat ('0'.toNat + (n - 52))
  else if n = 62 then '-'
  else '_'

-- `RawURLEncoding.EncodeToString`
def base64RawURL (bytes : List UInt8) : String :=
  .ofList (encode bytes)
where
  encode : List UInt8 → List Char
    | a :: b :: c :: rest =>
      let n := a.toNat * 65536 + b.toNat * 256 + c.toNat
      base64Digit (n / 262144) :: base64Digit (n / 4096 % 64) :: base64Digit (n / 64 % 64) ::
        base64Digit (n % 64) :: encode rest
    | [a, b]              =>
      let n := a.toNat * 65536 + b.toNat * 256
      [base64Digit (n / 262144), base64Digit (n / 4096 % 64), base64Digit (n / 64 % 64)]
    | [a]                 =>
      let n := a.toNat * 65536
      [base64Digit (n / 262144), base64Digit (n / 4096 % 64)]
    | []                  => []

def Trimmed (s : String) : Prop :=
  trimSpace s = s

instance : DecidablePred Trimmed :=
  fun s => inferInstanceAs <| Decidable (trimSpace s = s)

theorem dropWhile_eq_of_isPrefix {l l' : List α} (h : l' <+: l.dropWhile p) :
    l'.dropWhile p = l' := by
  cases l'
  case nil => rfl
  case cons a l' =>
    have ⟨r, hr⟩ := h
    have hn : l.dropWhile p ≠ [] := by simp [← hr]
    have ha := List.head_dropWhile_not p hn
    simp only [← hr, List.cons_append, List.head_cons] at ha
    simp [ha]

@[simp]
theorem trimSpace_trimSpace (s : String) : trimSpace (trimSpace s) = trimSpace s := by
  simp only [trimSpace, String.toList_ofList]
  rw [dropWhile_eq_of_isPrefix (List.rdropWhile_prefix ..), List.rdropWhile_idempotent]

theorem Trimmed.append (hc : c ∈ s.toList.head?) (hs : isSpace c = false)
    (h : Trimmed s') (hn : s' ≠ "") : Trimmed (s ++ s') := by
  obtain ⟨cs, rfl⟩ : ∃ cs, s = .ofList cs := ⟨_, String.ofList_toList.symm⟩
  have hne : s'.toList ≠ [] := by simpa using hn
  have hl : s'.toList.rdropWhile isSpace = s'.toList := by
    rw [Trimmed, trimSpace] at h
    have := congrArg String.toList h
    rw [String.toList_ofList] at this
    rw [← this, List.rdropWhile_idempotent]
  cases cs
  case nil => simp at hc
  case cons c' cs =>
    simp only [String.toList_ofList, List.head?_cons, Option.mem_some_iff] at hc
    rw [Trimmed, trimSpace, String.toList_append, String.toList_ofList, List.cons_append,
      List.dropWhile_cons_of_neg (by simp [hc, hs]), List.rdropWhile_eq_self_iff.mpr]
    · rw [← List.cons_append, String.ofList_append, String.ofList_toList]
    · intro _
      change ¬isSpace ((c' :: cs ++ s'.toList).getLast _) = true
      rw [List.getLast_append_of_ne_nil _ hne]
      exact List.rdropWhile_eq_self_iff.mp hl hne

theorem Trimmed.head (h : Trimmed s) (hn : s ≠ "") :
    ∃ c ∈ s.toList.head?, isSpace c = false := by
  have hl : s.toList.dropWhile isSpace = s.toList := by
    have := congrArg String.toList h
    rw [trimSpace, String.toList_ofList] at this
    rw [← this]
    exact dropWhile_eq_of_isPrefix (List.rdropWhile_prefix ..)
  cases hc : s.toList
  case nil => exact absurd hc (by simpa using hn)
  case cons c cs =>
    rw [hc] at hl
    exact ⟨c, rfl, by simpa using List.dropWhile_eq_self_iff.mp hl (Nat.succ_pos _)⟩

theorem Trimmed.join (h : Trimmed s) (hn : s ≠ "") (h' : Trimmed s')
    (hn' : s' ≠ "") : Trimmed (s ++ sep ++ s') := by
  obtain ⟨c, hc, hs⟩ := h.head hn
  refine Trimmed.append ?_ hs h' hn'
  rw [String.toList_append, List.head?_append]
  simp [Option.mem_def.mp hc]

theorem trimSpace_ne_empty (hc : c ∈ s.toList) (hs : isSpace c = false) :
    trimSpace s ≠ "" := by
  intro h
  have hr : (s.toList.dropWhile isSpace).rdropWhile isSpace = [] := by
    have := congrArg String.toList h
    rwa [trimSpace, String.toList_ofList] at this
  have hd : s.toList.dropWhile isSpace = [] := by
    by_contra hn
    have hh := List.rdropWhile_eq_nil_iff.mp hr _ (List.head_mem hn)
    rw [List.head_dropWhile_not isSpace hn] at hh
    contradiction
  have := List.dropWhile_eq_nil_iff.mp hd c hc
  rw [hs] at this
  contradiction

theorem cutLast_append (h : sep ∉ s'.toList) :
    cutLast sep (s ++ .singleton sep ++ s') = some (s, s') := by
  have hp : ∀ c ∈ s'.toList.reverse, decide (c ≠ sep) = true := fun c hc =>
    decide_eq_true fun he => h (he ▸ List.mem_reverse.mp hc)
  have he : (s ++ .singleton sep ++ s').toList.reverse =
      s'.toList.reverse ++ sep :: s.toList.reverse := by simp
  rw [cutLast, if_pos (by simp), List.rdropWhile, List.rtakeWhile, he,
    List.dropWhile_append_of_pos hp, List.takeWhile_append_of_pos hp]
  simp

theorem cut_append (h : sep ∉ s.toList) :
    cut sep (s ++ .singleton sep ++ s') = some (s, s') := by
  have he : (s ++ .singleton sep ++ s').toList = s.toList ++ sep :: s'.toList := by simp
  have hp : ∀ c ∈ s.toList, decide (c ≠ sep) = true := fun c hc =>
    decide_eq_true fun he => h (he ▸ hc)
  rw [cut, he, if_pos (by simp), List.takeWhile_append_of_pos hp, List.dropWhile_append_of_pos hp]
  simp

theorem cut_eq_some (h : cut sep s = some (before, after)) :
    sep ∉ before.toList ∧ s = before ++ .singleton sep ++ after := by
  rw [cut] at h
  split at h
  case isFalse => contradiction
  case isTrue hm =>
    obtain ⟨rfl, rfl⟩ := Prod.mk.inj (Option.some.inj h)
    constructor
    case left =>
      intro hc
      rw [String.toList_ofList] at hc
      simpa using List.mem_takeWhile_imp hc
    case right =>
      have hne : s.toList.dropWhile (· ≠ sep) ≠ [] := by
        intro he
        rw [List.dropWhile_eq_nil_iff] at he
        exact absurd rfl (of_decide_eq_true (he sep hm))
      have hhead : (s.toList.dropWhile (· ≠ sep)).head hne = sep := by
        simpa using List.head_dropWhile_not (fun c => decide (c ≠ sep)) hne
      have hl : s.toList.takeWhile (· ≠ sep) ++ s.toList.dropWhile (· ≠ sep) = s.toList :=
        List.takeWhile_append_dropWhile
      rw [← List.cons_head_tail hne, hhead] at hl
      refine String.toList_injective ?_
      simpa using hl.symm

theorem trimSpace_empty : trimSpace "" = "" := by
  decide +kernel

theorem trimSpace_trimmed (s : String) : Trimmed (trimSpace s) :=
  trimSpace_trimSpace s

end Text
