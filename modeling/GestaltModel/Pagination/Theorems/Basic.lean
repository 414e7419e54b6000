import GestaltModel.Pagination.Basic

namespace Pagination.Listing

variable {l : Listing α κ} {c : κ} {i n : Nat} {rest : List α}

theorem eq_of_suffix_of_head {l l₁ l₂ : List α} (hn : l.Nodup) (h₁ : l₁ <:+ l)
    (h₂ : l₂ <:+ l) (ha₁ : a ∈ l₁.head?) (ha₂ : a ∈ l₂.head?) : l₁ = l₂ := by
  wlog hs : l₁ <:+ l₂ generalizing l₁ l₂ with hw
  case inr =>
    have hs := (List.suffix_or_suffix_of_suffix h₁ h₂).resolve_left hs
    exact (hw h₂ h₁ ha₂ ha₁ hs).symm
  have ⟨t, ht⟩ := hs
  cases t
  case nil => exact ht
  case cons b t =>
    have hn := hn.sublist h₂.sublist
    rw [← ht] at ha₂ hn
    cases ha₂
    have hm := List.mem_append_right t (List.mem_of_mem_head? ha₁)
    exact absurd hm (List.nodup_cons.mp hn).left

theorem filter_suffix {l : List α} (h : l.Pairwise fun a b => p a → p b) :
    l.filter p <:+ l := by
  induction h
  case nil => exact List.suffix_rfl
  case cons a l ha _ hi =>
    rw [List.filter_cons]
    split
    case isTrue hp  => rw [List.filter_eq_self.mpr fun b hb => ha b hb hp]
    case isFalse hp => exact hi.trans (List.suffix_cons ..)

theorem suffix (hr : l.rest c = some rest) : rest <:+ l.items := by
  have ⟨_, hl, he⟩ := Option.map_eq_some_iff.mp hr
  exact he ▸ filter_suffix (l.mono hl)

theorem follow_of_length_le (hr : l.rest c = some rest) (hl : rest.length ≤ l.size) :
    follow l.page (n + 1) c = some rest := by
  simp [follow, page, cut, hr, Nat.not_lt.mpr hl]

theorem exists_last (hl : l.size < rest.length) : ∃ last, rest[l.size - 1]? = some last :=
  ⟨_, List.getElem?_eq_getElem (by omega)⟩

theorem follow_of_lt_length (hr : l.rest c = some rest) (hl : l.size < rest.length)
    (hm : rest[l.size - 1]? = some last) :
    follow l.page (n + 1) c = (follow l.page n (l.cursor last)).map (rest.take l.size ++ ·) := by
  have hp : l.page c = some ⟨rest.take l.size, some (l.cursor last)⟩ := by
    simp [page, cut, hr, hl, hm]
  rw [follow, hp]
  cases hf : follow l.page n (l.cursor last) <;> simp [hf]

-- The items begin with those that the cursor leaves. So it leads to the first one of them, and as
-- it stands for a suffix there is only one that does.
theorem rest_of_follow (hf : follow l.page n c = some (l.items.drop i)) :
    l.rest c = some (l.items.drop i) := by
  cases n
  case zero => exact nomatch hf
  case succ n =>
    cases hr : l.rest c
    case none => simp [follow, page, hr] at hf
    case some rest =>
      by_cases hl : rest.length ≤ l.size
      case pos => exact follow_of_length_le hr hl ▸ hf
      case neg =>
        have hl := Nat.lt_of_not_le hl
        have ⟨_, hm⟩ := exists_last hl
        rw [follow_of_lt_length hr hl hm] at hf
        have ⟨_, _, he⟩ := Option.map_eq_some_iff.mp hf
        have har : rest.head? = some rest[0] := List.head?_eq_getElem? .. ▸ List.getElem?_eq_getElem _
        have ha : (l.items.drop i).head? = some rest[0] := by
          rw [← he, List.head?_append, List.head?_take, if_neg l.size_pos.ne', har]
          rfl
        rw [eq_of_suffix_of_head l.nodup (suffix hr) (List.drop_suffix ..) har ha]

theorem follow_next (hr : l.rest c = some (l.items.drop i))
    (hl : i + l.size < l.items.length) (hm : l.items[i + l.size - 1]? = some last) :
    follow l.page (n + 1) c = some (l.items.drop i) ↔
    follow l.page n (l.cursor last) = some (l.items.drop (i + l.size)) := by
  have hs := l.size_pos
  have hm' : (l.items.drop i)[l.size - 1]? = some last := by
    rw [List.getElem?_drop, ← hm]
    congr 1
    omega
  rw [follow_of_lt_length hr (by rw [List.length_drop]; omega) hm', Option.map_eq_some_iff]
  have he := List.take_append_drop l.size (l.items.drop i)
  rw [List.drop_drop] at he
  constructor
  case mp =>
    intro ⟨more, hf, h⟩
    rw [hf, List.append_cancel_left (h.trans he.symm)]
  case mpr => exact fun hf => ⟨_, hf, he⟩

theorem resumes_of_follow (hr : l.rest c = some (l.items.drop i))
    (hf : follow l.page n c = some (l.items.drop i))
    (hk : i + (k + 1) * l.size < l.items.length) : l.Resumes (i + (k + 1) * l.size) := by
  induction n generalizing i c k
  case zero => exact nomatch hf
  case succ n hi =>
    rw [Nat.succ_mul] at hk ⊢
    have hl : i + l.size < l.items.length := by omega
    have ⟨last, hm⟩ : ∃ last, l.items[i + l.size - 1]? = some last :=
      ⟨_, List.getElem?_eq_getElem (by omega)⟩
    have hf := (follow_next hr hl hm).mp hf
    have hr := rest_of_follow hf
    cases k
    case zero   => exact (Nat.zero_mul l.size).symm ▸ (Nat.zero_add l.size).symm ▸ ⟨last, hm, hr⟩
    case succ k =>
      have := hi hr hf (by omega : i + l.size + (k + 1) * l.size < _)
      rwa [Nat.add_right_comm, Nat.add_assoc] at this

theorem follow_of_resumes (hr : l.rest c = some (l.items.drop i))
    (h : ∀ k, i + (k + 1) * l.size < l.items.length → l.Resumes (i + (k + 1) * l.size)) :
    ∃ n, follow l.page n c = some (l.items.drop i) := by
  -- By induction on the number of items that are left.
  induction hn : l.items.length - i using Nat.strong_induction_on generalizing i c
  case h left hi =>
    have hs := l.size_pos
    by_cases hl : i + l.size < l.items.length
    case neg => exact ⟨1, follow_of_length_le hr (by rw [List.length_drop]; omega)⟩
    case pos =>
      have ⟨last, hm, hr'⟩ := (Nat.one_mul l.size ▸ h 0) hl
      have ⟨n, hf⟩ := hi _ (by omega) hr' (fun k hk => ?_) rfl
      · exact ⟨n + 1, (follow_next hr hl hm).mpr hf⟩
      · have := h (k + 1)
        rw [Nat.succ_mul (k + 1), Nat.add_comm _ l.size, ← Nat.add_assoc] at this
        exact this hk

theorem follow_eq_items_iff (hr : l.rest c = some l.items) :
    (∃ n, follow l.page n c = some l.items) ↔
    ∀ k, (k + 1) * l.size < l.items.length → l.Resumes ((k + 1) * l.size) := by
  have hr : l.rest c = some (l.items.drop 0) := hr
  constructor
  case mp =>
    intro ⟨n, hf⟩ k hk
    have := resumes_of_follow hr hf (k := k)
    rw [Nat.zero_add] at this
    exact this hk
  case mpr =>
    intro h
    refine follow_of_resumes hr fun k hk => ?_
    rw [Nat.zero_add] at hk ⊢
    exact h k hk

theorem mem_of_follow {items : List α} (hf : follow l.page n c = some items)
    (ha : a ∈ items) : a ∈ l.items := by
  induction n generalizing c items
  case zero => exact nomatch hf
  case succ n hi =>
    cases hr : l.rest c
    case none => simp [follow, page, hr] at hf
    case some rest =>
      have hs := (suffix hr).subset
      by_cases hl : rest.length ≤ l.size
      case pos =>
        cases (follow_of_length_le hr hl).symm.trans hf
        exact hs ha
      case neg =>
        have ⟨_, hm⟩ := exists_last (Nat.lt_of_not_le hl)
        rw [follow_of_lt_length hr (Nat.lt_of_not_le hl) hm] at hf
        have ⟨_, hf, he⟩ := Option.map_eq_some_iff.mp hf
        rw [← he] at ha
        rcases List.mem_append.mp ha with ha | ha
        case inl => exact hs (List.mem_of_mem_take ha)
        case inr => exact hi hf ha

theorem filter_eq_drop_iff {l : List α}
    (hp : l.Pairwise fun a b => p a → p b) (hl : l[i]? = some last) (hn : l[i + 1]? = some next)
    (h : ¬p last) : l.filter p = l.drop (i + 1) ↔ p next := by
  have hlt := (List.getElem?_eq_some_iff.mp hn).choose
  have hd : l.drop (i + 1) = next :: l.drop (i + 2) := by
    rw [List.drop_eq_getElem_cons hlt, (List.getElem?_eq_some_iff.mp hn).choose_spec]
  have ht : l.take (i + 1) = l.take i ++ [last] := by
    rw [List.take_add_one, hl]
    rfl
  rw [← List.take_append_drop (i + 1) l, ht, List.append_assoc, List.pairwise_append] at hp
  have hnone : (l.take (i + 1)).filter p = [] := by
    rw [ht, List.filter_eq_nil_iff]
    intro a ha hpa
    rcases List.mem_append.mp ha with ha | ha
    case inl => exact h (hp.right.right a ha last List.mem_cons_self hpa)
    case inr => exact h (List.mem_singleton.mp ha ▸ hpa)
  have hf : l.filter p = (l.drop (i + 1)).filter p := by
    conv_lhs => rw [← List.take_append_drop (i + 1) l, List.filter_append, hnone, List.nil_append]
  rw [hf, List.filter_eq_self, hd]
  have hp := List.pairwise_cons.mp (hd ▸ (List.pairwise_append.mp hp.right.left).right.left)
  exact ⟨fun h => h next List.mem_cons_self,
    fun hn => List.forall_mem_cons.mpr ⟨hn, fun a ha => hp.left a ha hn⟩⟩

theorem resumes_iff (hl : l.items[i]? = some last)
    (hn : l.items[i + 1]? = some next) (h : ∀ p ∈ l.left (l.cursor last), ¬p last) :
    l.Resumes (i + 1) ↔ ∃ p ∈ l.left (l.cursor last), p next := by
  constructor
  case mp =>
    intro ⟨last', hl', hr⟩
    cases hl.symm.trans hl'
    have ⟨p, hp, hf⟩ := Option.map_eq_some_iff.mp hr
    exact ⟨p, hp, (filter_eq_drop_iff (l.mono hp) hl hn (h p hp)).mp hf⟩
  case mpr =>
    intro ⟨p, hp, hpn⟩
    refine ⟨last, hl, Option.map_eq_some_iff.mpr ⟨p, hp, ?_⟩⟩
    exact (filter_eq_drop_iff (l.mono hp) hl hn (h p hp)).mpr hpn

end Pagination.Listing
