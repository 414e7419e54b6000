import GestaltModel.ToolSchema.Names

namespace ToolSchema

open NameAllocator (allocate unique)

theorem isPropertyNameChar_digitChar (h : n < 16) :
    isPropertyNameChar n.digitChar = true := by
  revert n
  decide

theorem isPropertyNameChar_of_isDigit (h : c.isDigit = true) :
    isPropertyNameChar c = true := by
  simp only [Char.isDigit, Bool.and_eq_true, decide_eq_true_eq] at h
  simp only [isPropertyNameChar, decide_eq_true_eq]
  exact .inr (.inr (.inl h))

theorem writeRune_legal (h : b.all isPropertyNameChar) (r : Char) :
    (writeRune b r).all isPropertyNameChar := by
  simp only [writeRune, writeNamedSeparator]
  split_ifs <;> simp_all <;> decide

theorem written_legal (l : List Char) (h : b.all isPropertyNameChar) :
    (l.foldl writeRune b).all isPropertyNameChar := by
  induction l generalizing b
  case nil => exact h
  case cons r l hi => exact hi (writeRune_legal h r)

-- A name is cut off to make room for what is added to it.
theorem truncated_valid {name suffix : List Char} (hn : name.all isPropertyNameChar)
    (hs : suffix.all isPropertyNameChar) (hp : suffix ≠ [])
    (hl : suffix.length ≤ maxPropertyNameLength) :
    validPropertyName (.ofList (name.take (maxPropertyNameLength - suffix.length) ++ suffix)) := by
  have hp := List.length_pos_iff.mpr hp
  have ht : (name.take (maxPropertyNameLength - suffix.length)).all isPropertyNameChar := by
    rw [List.all_eq_true] at hn ⊢
    exact fun c hc => hn c (List.mem_of_mem_take hc)
  simp only [validPropertyName, String.toList_ofList, String.length_ofList, List.all_append, ht, hs,
    List.length_append, List.length_take, Bool.and_eq_true, decide_eq_true_eq]
  refine ⟨⟨⟨trivial, trivial⟩, ?_⟩, ?_⟩ <;> omega

theorem writtenName_legal (raw : String) :
    (writtenName raw).all isPropertyNameChar ∧ writtenName raw ≠ [] := by
  simp only [writtenName]
  split
  case isTrue => decide
  case isFalse hn => exact ⟨written_legal raw.toList rfl, hn⟩

theorem hashSuffix_legal (hash : UInt32) : (hashSuffix hash).all isPropertyNameChar := by
  simp [hashSuffix, isPropertyNameChar_digitChar, Nat.mod_lt, show isPropertyNameChar '_' from rfl]

theorem safePropertyName_valid (raw : String) : validPropertyName (safePropertyName raw) = true := by
  obtain ⟨hw, hp⟩ := writtenName_legal raw
  simp only [safePropertyName]
  split
  case isTrue hl =>
    have hp : 1 ≤ (writtenName raw).length := List.length_pos_iff.mpr hp
    simpa [validPropertyName, -List.all_eq_true, hw, hl] using hp
  case isFalse =>
    exact truncated_valid hw (hashSuffix_legal _) (by simp [hashSuffix]) (Nat.le_of_ble_eq_true rfl)

theorem candidate_valid (h : validPropertyName baseName = true)
    (hi : i < 10 ^ 63) : validPropertyName (candidate baseName i) = true := by
  have hd : (Nat.toDigits 10 i).length ≤ 63 :=
    (Nat.length_toDigits_le_iff (by decide) (by decide)).mpr hi
  have hc : candidate baseName i = .ofList (baseName.toList.take
      (maxPropertyNameLength - ('_' :: Nat.toDigits 10 i).length) ++ '_' :: Nat.toDigits 10 i) := by
    apply String.toList_injective
    simp [candidate, Nat.toString_eq_repr, Nat.toList_repr, ← String.length_toList]
  rw [hc]
  simp only [validPropertyName, Bool.and_eq_true] at h
  apply truncated_valid h.left.left
  case hs =>
    rw [List.all_cons, List.all_eq_true.mpr]
    case _ => decide
    case _ =>
      intro c hc
      exact isPropertyNameChar_of_isDigit (Nat.isDigit_of_mem_toDigits (by decide) (by decide) hc)
  case hp => simp
  case hl => exact Nat.succ_le_succ hd

theorem allocate_allocates :
    FreshNames.Allocates allocate (·.name) (·.used.keys) where
  fresh a raw := by
    simp only [allocate, unique]
    split
    case isTrue => exact FreshNames.firstFree_notMem (candidate_injective _) a.used.keys 2
    case isFalse => simpa [Finmap.mem_keys]
  takes a raw := by
    ext name
    simp [allocate, unique, Finmap.mem_keys]

theorem allocate_original (a : NameAllocator) (h : raw ≠ "") :
    (a.allocate raw).1.original = raw := by
  simp only [allocate, normalizePropertyName, NameMapping.original]
  split_ifs <;> simp_all

theorem allocate_valid {a : NameAllocator} (ha : a.used.keys.card < 2 ^ 63) :
    validPropertyName (a.allocate raw).1.name = true := by
  have hb : validPropertyName (normalizePropertyName raw).1 = true := by
    have h := safePropertyName_valid raw
    rw [normalizePropertyName]
    split
    case isTrue he => exact he ▸ h
    case isFalse => exact h
  simp only [allocate, unique]
  split
  case isTrue =>
    have hl := FreshNames.firstFree_le (candidate_injective (normalizePropertyName raw).1) a.used.keys 2
    exact candidate_valid hb (by omega)
  case isFalse => exact hb

-- The number of names is that of the entries of a Go map, which is an `int`.
theorem property_names_unique_legal_reversible {raws : List String} (hn : ∀ raw ∈ raws, raw ≠ "")
    (hl : raws.length < 2 ^ 63) :
    ((allocateAll raws).map (·.name)).Nodup ∧
    (∀ m ∈ allocateAll raws, validPropertyName m.name = true) ∧
    (allocateAll raws).map (·.original) = raws := by
  refine ⟨allocate_allocates.nodup raws _, ?_, ?_⟩
  case refine_1 =>
    intro m hm
    obtain ⟨a, raw, -, rfl, -, hc⟩ := allocate_allocates.mem_run hm
    exact allocate_valid (hc.trans (by simpa [newNameAllocator] using hl))
  case refine_2 => exact FreshNames.run_map (fun a raw hr => allocate_original a (hn raw hr)) _

theorem property_names_of_colliding :
    let raws := ["a[b]", "a_b", "a.$b", "a_b_2"]
    (∀ raw ∈ raws, raw ≠ "") ∧ ((allocateAll raws).map (·.name)).Nodup ∧
    (allocateAll raws).map (·.original) = raws := by
  intro raws
  have hn : ∀ raw ∈ raws, raw ≠ "" := by decide
  have h := property_names_unique_legal_reversible hn (by decide)
  exact ⟨hn, h.left, h.right.right⟩

end ToolSchema
