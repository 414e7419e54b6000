import GestaltModel.Bucket.Basic

namespace Bucket

variable {κ β : Type} {b b₁ b₂ b₃ : Bucket κ β} {k j : κ} {o : StoredObject β}
variable {data : β} {sha256 : String}

theorem generation_eq_zero : b.generation k = 0 ↔ b.objects k = none := by
  cases h : b.objects k
  case none => simp [generation, h]
  case some => simp [generation, h, Nat.ne_of_gt (b.bounded h).left]

theorem generation_of_objects (h : b.objects k = some o) : b.generation k = o.generation := by
  simp [generation, h]

theorem generation_le_latest : b.generation k ≤ b.latest := by
  cases h : b.objects k
  case none => simp [generation, h]
  case some => simp [generation, h, (b.bounded h).right]

section Store

variable [DecidableEq κ]

@[simp]
theorem store_objects_self :
    (b.store k data sha256).objects k = some { generation := b.latest + 1, data, sha256 } := by
  simp [store]

theorem store_objects_of_ne (h : j ≠ k) : (b.store k data sha256).objects j = b.objects j := by
  simp [store, h]

@[simp]
theorem data?_store_self : (b.store k data sha256).data? k = some data := by
  simp [data?]

theorem data?_store_of_ne (h : j ≠ k) : (b.store k data sha256).data? j = b.data? j := by
  simp [data?, store_objects_of_ne h]

theorem create_eq_some (h : b.create k data sha256 = some b₁) :
    b.objects k = none ∧ b₁ = b.store k data sha256 := by
  simp only [create] at h
  split at h
  · contradiction
  · simp_all

theorem replace_eq_some {g : Nat} (h : b.replace k data g = some b₁) :
    b.generation k = g ∧ b₁ = b.store k data "" := by
  simp only [replace] at h
  split at h
  · simp_all
  · contradiction

end Store

-- The store can have moved from `b₁` to `b₂`: an object that still has an old generation was not
-- written in the meantime.
structure Later (b₁ b₂ : Bucket κ β) : Prop where
  latest_le : b₁.latest ≤ b₂.latest
  unchanged : ∀ {k o}, b₂.objects k = some o → o.generation ≤ b₁.latest → b₁.objects k = some o

namespace Later

theorem refl (b : Bucket κ β) : Later b b where
  latest_le := Nat.le_refl _
  unchanged h _ := h

theorem trans (h₁ : Later b₁ b₂) (h₂ : Later b₂ b₃) : Later b₁ b₃ where
  latest_le := Nat.le_trans h₁.latest_le h₂.latest_le
  unchanged h hg := h₁.unchanged (h₂.unchanged h (Nat.le_trans hg h₁.latest_le)) hg

theorem store [DecidableEq κ] (b : Bucket κ β) (k : κ) (data : β) (sha256 : String) :
    Later b (b.store k data sha256) where
  latest_le := Nat.le_succ _
  unchanged {j o} h hg := by
    by_cases hj : j = k
    case pos =>
      subst hj
      simp only [store_objects_self, Option.some.injEq] at h
      simp only [← h] at hg
      exact absurd hg (Nat.not_succ_le_self _)
    case neg => exact store_objects_of_ne hj ▸ h

theorem deleteAll (b : Bucket κ β) (p : κ → Bool) : Later b (b.deleteAll p) where
  latest_le := Nat.le_refl _
  unchanged h _ := by
    simp only [Bucket.deleteAll] at h
    split at h
    · contradiction
    · exact h

-- The heart of a compare-and-swap: if the object still has the generation observed in `b₁`, it
-- holds what was fetched in between.
theorem objects_eq (h₁ : Later b₁ b₂) (h₂ : Later b₂ b₃) (h₀ : b₁.generation k ≠ 0)
    (h : b₃.generation k = b₁.generation k) : b₂.objects k = b₃.objects k := by
  cases ho : b₃.objects k
  case none =>
    rw [generation_eq_zero.mpr ho] at h
    exact absurd h.symm h₀
  case some o =>
    rw [generation_of_objects ho] at h
    exact h₂.unchanged ho (h ▸ Nat.le_trans generation_le_latest h₁.latest_le)

end Later
end Bucket
