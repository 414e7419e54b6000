import GestaltModel.AppRegistry.CatalogCas
import GestaltModel.AppRegistry.Validation

namespace AppRegistry

open Except (bind_eq_ok_iff)

section CatalogUpdate

variable {decode : Option β → Except Failure τ} {mutate : τ → Except Failure (τ × Bool)}
variable {encode : τ → Except Failure β} {existing : Option β}

theorem catalogUpdate_eq_some :
    catalogUpdate decode mutate encode existing = .ok (some data) ↔
    ∃ t t', decode existing = .ok t ∧ mutate t = .ok (t', true) ∧ encode t' = .ok data := by
  simp only [catalogUpdate, bind_eq_ok_iff, Prod.exists]
  constructor
  case mp =>
    intro ⟨t, h₁, t', changed, h₂, h₃⟩
    cases changed
    case false => cases h₃
    case true =>
      have ⟨_, h₄, h₅⟩ := bind_eq_ok_iff.mp h₃
      cases h₅
      exact ⟨t, t', h₁, h₂, h₄⟩
  case mpr =>
    intro ⟨t, t', h₁, h₂, h₃⟩
    exact ⟨t, h₁, t', true, h₂, bind_eq_ok_iff.mpr ⟨_, h₃, rfl⟩⟩

theorem catalogUpdate_eq_none :
    catalogUpdate decode mutate encode existing = .ok none ↔
    ∃ t t', decode existing = .ok t ∧ mutate t = .ok (t', false) := by
  simp only [catalogUpdate, bind_eq_ok_iff, Prod.exists]
  constructor
  case mp =>
    intro ⟨t, h₁, t', changed, h₂, h₃⟩
    cases changed
    case false => exact ⟨t, t', h₁, h₂⟩
    case true =>
      have ⟨_, _, h₅⟩ := bind_eq_ok_iff.mp h₃
      cases h₅
  case mpr =>
    intro ⟨t, t', h₁, h₂⟩
    exact ⟨t, h₁, t', false, h₂, rfl⟩

end CatalogUpdate

section Decode

theorem decodeEntry_eq_ok (h : decodeEntry d = .ok entry) :
    d = .entry entry := by
  cases d <;> simp only [decodeEntry, reduceCtorEq] at h
  case entry =>
    have ⟨_, _, h⟩ := bind_eq_ok_iff.mp h
    cases h
    rfl

theorem decodeIndexOrEmpty_eq_ok (h : decodeIndexOrEmpty d = .ok index) (appName : String) :
    index.versions appName = listedVersions d appName := by
  match d with
  | none =>
    cases h
    rfl
  | some d =>
    cases d <;> simp only [decodeIndexOrEmpty, decodeIndex, reduceCtorEq] at h
    case index =>
      have ⟨_, _, h⟩ := bind_eq_ok_iff.mp h
      cases h
      rfl

theorem decodeRetentionIndexOrEmpty_eq_ok (h : decodeRetentionIndexOrEmpty d = .ok index) :
    index.versions = retentionVersions d := by
  match d with
  | none =>
    cases h
    rfl
  | some d =>
    cases d <;> simp only [decodeRetentionIndexOrEmpty, decodeRetentionIndex, reduceCtorEq] at h
    case retention =>
      have ⟨_, _, h⟩ := bind_eq_ok_iff.mp h
      cases h
      rfl

end Decode

theorem EntriesEqualIgnoringPublishedAt.artifacts_eq
    (h : EntriesEqualIgnoringPublishedAt e₁ e₂) : e₁.artifacts = e₂.artifacts := by
  have hn (e : Entry) : (normalizeEntryPublicationKindForEquality e).artifacts = e.artifacts := by
    simp only [normalizeEntryPublicationKindForEquality]
    split <;> rfl
  rw [← hn e₁, ← hn e₂]
  have h := congrArg Entry.artifacts h
  exact h

section Upsert

theorem applyAppIndexAppMetadata_versions (app : AppVersions) (name description : String) :
    (applyAppIndexAppMetadata app name description).1.versions = app.versions :=
  rfl

theorem Index.versions_insert (index : Index) (appName a : String) (app : AppVersions) :
    Index.versions { index with apps := index.apps.insert appName app } a =
      if a = appName then app.versions else index.versions a := by
  by_cases h : a = appName
  case pos =>
    subst h
    simp [Index.versions]
  case neg => simp [Index.versions, h, Finmap.lookup_insert_of_ne]

theorem Index.versions_getD (index : Index) (appName : String) :
    ((index.apps.lookup appName).getD {}).versions = index.versions appName := by
  cases h : index.apps.lookup appName <;> simp [Index.versions, h]

theorem upsertAppIndex_cases
    (h : upsertAppIndex index entry path name description = .ok (index', changed)) :
    (∃ row, (index.versions (Text.trimSpace entry.app)).lookup entry.version = some row ∧
      ∀ a, index'.versions a = index.versions a) ∨
    ((index.versions (Text.trimSpace entry.app)).lookup entry.version = none ∧
      ∀ a, index'.versions a = if a = Text.trimSpace entry.app then
        (index.versions a).insert entry.version (indexVersionFromEntry entry path)
      else
        index.versions a) := by
  simp only [upsertAppIndex, Index.versions_getD] at h
  split at h
  case h_1 row hrow =>
    refine .inl ⟨row, hrow, fun a => ?_⟩
    have ⟨_, _, h⟩ := bind_eq_ok_iff.mp h
    split at h
    · cases h
    · split at h
      · cases h
        rfl
      · have ⟨_, _, h⟩ := bind_eq_ok_iff.mp h
        cases h
        rw [Index.versions_insert, applyAppIndexAppMetadata_versions, Index.versions_getD]
        split
        case isTrue ha  => rw [ha]
        case isFalse    => rfl
  case h_2 hrow =>
    refine .inr ⟨hrow, fun a => ?_⟩
    have ⟨_, _, h⟩ := bind_eq_ok_iff.mp h
    cases h
    rw [Index.versions_insert]
    split
    case isTrue ha =>
      subst ha
      rw [applyAppIndexAppMetadata_versions, Index.versions_getD]
    case isFalse => rfl

theorem upsertAppIndex_lookup
    (h : upsertAppIndex index entry path name description = .ok (index', changed))
    (appName v : String) :
    (index'.versions appName).lookup v =
      if appName = Text.trimSpace entry.app ∧ v = entry.version then
        some (((index.versions appName).lookup v).getD (indexVersionFromEntry entry path))
      else
        (index.versions appName).lookup v := by
  rcases upsertAppIndex_cases h with ⟨row, hrow, h⟩ | ⟨hrow, h⟩ <;> rw [h]
  case inl =>
    split
    case isTrue ha =>
      obtain ⟨rfl, rfl⟩ := ha
      simp [hrow]
    case isFalse => rfl
  case inr =>
    by_cases ha : appName = Text.trimSpace entry.app
    case neg => simp [ha]
    case pos =>
      subst ha
      by_cases hv : v = entry.version
      case pos =>
        subst hv
        simp [hrow]
      case neg => simp [hv, Finmap.lookup_insert_of_ne]

theorem upsertAppIndex_mem_of_unchanged
    (h : upsertAppIndex index entry path name description = .ok (index', false)) :
    entry.version ∈ index.versions (Text.trimSpace entry.app) := by
  simp only [upsertAppIndex, Index.versions_getD] at h
  split at h
  case h_1 hrow => exact Finmap.mem_of_lookup_eq_some hrow
  case h_2 =>
    obtain ⟨_, _, h⟩ := bind_eq_ok_iff.mp h
    cases h

theorem upsertAppIndex_valid
    (h : upsertAppIndex index entry path name description = .ok (index', true)) :
    validateIndex index' = .ok () := by
  simp only [upsertAppIndex] at h
  split at h
  case h_1 =>
    obtain ⟨_, _, h⟩ := bind_eq_ok_iff.mp h
    split at h
    · cases h
    · split at h
      · cases h
      · obtain ⟨_, hv, h⟩ := bind_eq_ok_iff.mp h
        cases h
        exact hv
  case h_2 =>
    obtain ⟨_, hv, h⟩ := bind_eq_ok_iff.mp h
    cases h
    exact hv

end Upsert

section Retention

theorem upsertPublishedRetention_lookup_of_ne (h : v ≠ Text.trimSpace version) :
    (upsertPublishedRetention index version publishedAt policy).1.versions.lookup v =
      index.versions.lookup v := by
  simp only [upsertPublishedRetention]
  split
  case h_1 =>
    split
    · rfl
    · simp [Finmap.lookup_insert_of_ne _ h]
  case h_2 => simp [Finmap.lookup_insert_of_ne _ h]

theorem upsertPublishedRetention_mem :
    Text.trimSpace version ∈ (upsertPublishedRetention index version publishedAt policy).1.versions := by
  simp only [upsertPublishedRetention]
  split
  case h_1 h =>
    split
    · exact Finmap.mem_of_lookup_eq_some h
    · simp
  case h_2 => simp

theorem upsertPublishedRetention_unchanged
    (h : (upsertPublishedRetention index version publishedAt policy).2 = false) :
    (upsertPublishedRetention index version publishedAt policy).1 = index := by
  simp only [upsertPublishedRetention] at h ⊢
  split at h
  case h_1 hrow =>
    split at h
    · simp_all
    · cases h
  case h_2 => cases h

theorem upsertPublishedRetention_mem_of_mem (h : v ∈ index.versions) :
    v ∈ (upsertPublishedRetention index version publishedAt policy).1.versions := by
  by_cases hv : v = Text.trimSpace version
  case pos => exact hv ▸ upsertPublishedRetention_mem
  case neg =>
    rw [← Finmap.lookup_isSome] at h ⊢
    rwa [upsertPublishedRetention_lookup_of_ne hv]

end Retention
end AppRegistry
