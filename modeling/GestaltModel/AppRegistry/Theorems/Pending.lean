import GestaltModel.AppRegistry.Pending
import GestaltModel.AppRegistry.Theorems.Store

namespace AppRegistry

open Interleaving
open Text (trimSpace)
open Except (bind_eq_ok_iff context_eq_ok)
open Bucket (data? data?_store_of_ne data?_store_self)
open StoreCall (answer)

variable {existing : Option PendingFile}

namespace PendingCatalogs

variable {published : Index} {now : Int} {appName except version v : String}
variable {c : PendingCatalogs}

structure OfApp (appName : String) (c : PendingCatalogs) : Prop where
  pending : c.pending.app = appName
  failed : c.failed.app = appName

-- The version is still pending, or it has been moved to the failed ones by a command that runs now.
def Accounted (now : Int) (v : String) (c : PendingCatalogs) : Prop :=
  v ∈ c.pending.pending ∨
  (c.failedChanged = true ∧ ∃ f, c.failed.failed.lookup v = some f ∧ f.failedAt = now)

theorem mem_removePending (h : v ≠ version) :
    v ∈ (c.removePending version).pending.pending ↔ v ∈ c.pending.pending := by
  simp [removePending, Finmap.mem_erase, h]

theorem lookup_putFailed_of_ne (h : v ≠ version) :
    (c.putFailed version entry).failed.failed.lookup v = c.failed.failed.lookup v :=
  Finmap.lookup_insert_of_ne _ h

section Prune

theorem OfApp.prunePendingVersion (h : OfApp appName c) :
    OfApp appName (c.prunePendingVersion published now except version) := by
  rw [PendingCatalogs.prunePendingVersion]
  split
  · exact h
  · split
    · exact h
    · split
      · exact ⟨h.pending, h.failed⟩
      · split
        · exact ⟨h.pending, h.failed⟩
        · exact h

theorem OfApp.pruneFailedVersion (h : OfApp appName c) :
    OfApp appName (c.pruneFailedVersion published now version) := by
  rw [PendingCatalogs.pruneFailedVersion]
  split
  · exact h
  · split
    · exact ⟨h.pending, h.failed⟩
    · exact h

theorem Accounted.prunePendingVersion (hp : ¬indexContainsVersion published c.pending.app v)
    (h : Accounted now v c) :
    Accounted now v (c.prunePendingVersion published now except version) := by
  rw [PendingCatalogs.prunePendingVersion]
  split
  case h_1 => exact h
  case h_2 entry _ =>
    by_cases hv : v = version
    case pos =>
      subst hv
      split
      · exact h
      · split
        · exact .inr ⟨rfl, _, Finmap.lookup_insert _, rfl⟩
        · exact h
    case neg =>
      split
      · exact h
      · split
        · exact h.imp (mem_removePending hv).mpr id
        · split
          · refine h.imp (mem_removePending hv).mpr fun ⟨_, f, hf, ht⟩ => ?_
            exact ⟨rfl, f, (lookup_putFailed_of_ne hv).trans hf, ht⟩
          · exact h

theorem Accounted.pruneFailedVersion (hp : ¬indexContainsVersion published c.failed.app v)
    (h : Accounted now v c) : Accounted now v (c.pruneFailedVersion published now version) := by
  rw [PendingCatalogs.pruneFailedVersion]
  split
  case h_1 => exact h
  case h_2 entry he =>
    split
    case isFalse => exact h
    case isTrue hold =>
      refine h.imp id fun ⟨_, f, hf, ht⟩ => ⟨rfl, f, ?_, ht⟩
      -- What has just failed is not old enough to be removed.
      have hv : v ≠ version := by
        rintro rfl
        obtain rfl : f = entry := Option.some.inj (hf.symm.trans he)
        refine hold.elim hp fun hr => ?_
        simp only [ht, sub_self, failedRetainFor] at hr
        omega
      exact (Finmap.lookup_erase_ne hv).trans hf

theorem OfApp.prunePendingIndex (h : OfApp appName c) :
    OfApp appName (c.prunePendingIndex published now except) :=
  List.foldlRecOn _ _ h fun _ h _ _ => h.prunePendingVersion

theorem OfApp.pruneFailedIndex (h : OfApp appName c) :
    OfApp appName (c.pruneFailedIndex published now) :=
  List.foldlRecOn _ _ h fun _ h _ _ => h.pruneFailedVersion

theorem Accounted.prunePendingIndex (ha : OfApp appName c)
    (hp : ¬indexContainsVersion published appName v) (h : Accounted now v c) :
    Accounted now v (c.prunePendingIndex published now except) := by
  refine (List.foldlRecOn (motive := fun c => OfApp appName c ∧ Accounted now v c) _ _ ⟨ha, h⟩ ?_).right
  rintro c ⟨ha, h⟩ version _
  exact ⟨ha.prunePendingVersion, h.prunePendingVersion (ha.pending ▸ hp)⟩

theorem Accounted.pruneFailedIndex (ha : OfApp appName c)
    (hp : ¬indexContainsVersion published appName v) (h : Accounted now v c) :
    Accounted now v (c.pruneFailedIndex published now) := by
  refine (List.foldlRecOn (motive := fun c => OfApp appName c ∧ Accounted now v c) _ _ ⟨ha, h⟩ ?_).right
  rintro c ⟨ha, h⟩ version _
  exact ⟨ha.pruneFailedVersion, h.pruneFailedVersion (ha.failed ▸ hp)⟩

end Prune

theorem OfApp.removeFailedVersion (h : OfApp appName c) :
    OfApp appName (c.removeFailedVersion version) := by
  rw [PendingCatalogs.removeFailedVersion]
  split
  · exact ⟨h.pending, h.failed⟩
  · exact h

theorem OfApp.removePendingVersion (h : OfApp appName c) :
    OfApp appName (c.removePendingVersion version).1 := by
  rw [PendingCatalogs.removePendingVersion]
  split
  · exact h
  · exact ⟨h.pending, h.failed⟩

theorem OfApp.recordFailedVersion {pending : PendingVersion}
    (h : OfApp appName c) : OfApp appName (c.recordFailedVersion pending now reason) := by
  rw [PendingCatalogs.recordFailedVersion]
  split
  · exact h
  · exact ⟨h.pending, h.failed⟩

theorem recordFailedVersion_of_not_mem {pending : PendingVersion}
    (h : trimSpace pending.version ∉ c.failed.failed) :
    (c.recordFailedVersion pending now reason).pendingChanged = c.pendingChanged ∧
    (c.recordFailedVersion pending now reason).failedChanged = true ∧
    trimSpace pending.version ∈ (c.recordFailedVersion pending now reason).failed.failed := by
  rw [PendingCatalogs.recordFailedVersion]
  simp only [if_neg h, true_and]
  exact ⟨rfl, Finmap.mem_insert.mpr (.inl rfl)⟩

theorem removeFailedVersion_pending : (c.removeFailedVersion version).pending = c.pending := by
  rw [PendingCatalogs.removeFailedVersion]
  split <;> rfl

theorem Accounted.removePendingVersion (hv : v ≠ trimSpace version) (h : Accounted now v c) :
    Accounted now v (c.removePendingVersion version).1 := by
  rw [PendingCatalogs.removePendingVersion]
  split
  · exact h
  · exact h.imp (mem_removePending hv).mpr id

theorem Accounted.upsertPendingVersion (h : Accounted now v c) :
    Accounted now v (c.upsertPendingVersion entry now) :=
  h.imp (fun hm => Finmap.mem_insert.mpr (.inr hm)) id

theorem Accounted.upserted (hv : v = trimSpace entry.version) :
    Accounted now v (c.upsertPendingVersion entry now) :=
  .inl (Finmap.mem_insert.mpr (.inl hv))

theorem OfApp.pruneForSet (h : OfApp appName c) :
    OfApp appName (c.pruneForSet published version now) :=
  h.removeFailedVersion.prunePendingIndex.pruneFailedIndex

theorem Accounted.pruneForSet (ha : OfApp appName c)
    (hp : ¬indexContainsVersion published appName v) (h : v ∈ c.pending.pending) :
    Accounted now v (c.pruneForSet published version now) := by
  have h₁ : Accounted now v (c.removeFailedVersion version) := by
    rw [Accounted, removeFailedVersion_pending]
    exact .inl h
  have ha₁ : OfApp appName (c.removeFailedVersion version) := ha.removeFailedVersion
  exact (h₁.prunePendingIndex ha₁ hp).pruneFailedIndex ha₁.prunePendingIndex hp

theorem OfApp.applyPendingSet (h : OfApp appName c) :
    OfApp appName (c.applyPendingSet published name entry now) := by
  have h : OfApp appName (c.pruneForSet published (trimSpace entry.version) now) := h.pruneForSet
  simp only [PendingCatalogs.applyPendingSet]
  split
  · exact h.removePendingVersion
  · split
    · exact ⟨h.removePendingVersion.pending, h.removePendingVersion.failed⟩
    · exact ⟨h.pending, h.failed⟩

theorem Accounted.applyPendingSet (ha : OfApp appName c)
    (hp : ¬indexContainsVersion published appName v) (h : v ∈ c.pending.pending) :
    Accounted now v (c.applyPendingSet published appName entry now) := by
  have h : Accounted now v (c.pruneForSet published (trimSpace entry.version) now) :=
    .pruneForSet ha hp h
  simp only [PendingCatalogs.applyPendingSet]
  split
  case isTrue hpub =>
    refine h.removePendingVersion fun hv => hp ?_
    rw [hv, Text.trimSpace_trimSpace]
    exact hpub
  case isFalse =>
    by_cases hv : v = trimSpace entry.version
    case pos => exact .upserted hv
    case neg =>
      have hv : v ≠ trimSpace (trimSpace entry.version) := by
        rwa [Text.trimSpace_trimSpace]
      split
      · exact (h.removePendingVersion hv).upsertPendingVersion
      · exact h.upsertPendingVersion

end PendingCatalogs

namespace PendingCommand

variable {published : Index} {now : Int} {appName version v : String} {c : PendingCatalogs}

theorem mutate_ofApp (command : PendingCommand) (h : c.OfApp appName) :
    (command.mutate published name c).OfApp appName := by
  cases command
  case set => exact h.applyPendingSet
  case clear => exact h.removePendingVersion
  case fail version now =>
    have h : (c.removePendingVersion version).1.OfApp appName := h.removePendingVersion
    simp only [mutate]
    split
    case h_1 he =>
      rw [he] at h
      exact h
    case h_2 he =>
      rw [he] at h
      exact h.recordFailedVersion

theorem mutate_fail (he : c.pending.pending.lookup (trimSpace version) = some entry)
    (hk : trimSpace entry.version = trimSpace version)
    (hf : trimSpace version ∉ c.failed.failed) :
    ((fail version now).mutate published appName c).pendingChanged = true ∧
    ((fail version now).mutate published appName c).failedChanged = true ∧
    trimSpace version ∈ ((fail version now).mutate published appName c).failed.failed := by
  have hr : c.removePendingVersion version =
      ({ c.removePending (trimSpace version) with pendingChanged := true }, some entry) := by
    simp only [PendingCatalogs.removePendingVersion, he]
  simp only [mutate, hr]
  rw [← hk] at hf ⊢
  exact PendingCatalogs.recordFailedVersion_of_not_mem hf

theorem mutate_set (ha : c.OfApp appName)
    (hp : ¬indexContainsVersion published appName v) (h : v ∈ c.pending.pending)
    (hn : v ∉ ((set entry now).mutate published appName c).pending.pending) :
    ((set entry now).mutate published appName c).failedChanged = true ∧
    v ∈ ((set entry now).mutate published appName c).failed.failed := by
  obtain ⟨hc, f, hf, _⟩ := (PendingCatalogs.Accounted.applyPendingSet ha hp h).resolve_left hn
  exact ⟨hc, Finmap.mem_of_lookup_eq_some hf⟩

end PendingCommand

namespace PendingRuns

section Decode

variable {appName : String} {pendingData failedData indexData : Option PendingFile}

-- What a command knows about the files when it has decoded them.
structure Decoded (appName : String) (pendingData failedData indexData : Option PendingFile)
    (c : PendingCatalogs) (published : Index) : Prop where
  pending : pendingVersions pendingData = c.pending.pending.keys
  failed : failedVersions failedData = c.failed.failed.keys
  published : publishedVersions appName indexData = (published.versions appName).keys
  keys : ∀ {v entry}, c.pending.pending.lookup v = some entry →
    trimSpace entry.version = v
  ofApp : c.OfApp appName

theorem decodePendingIndex_eq_ok (h : decodePendingIndex data = .ok index) :
    data = .pending index ∧ validatePendingIndex index = .ok () := by
  cases data <;> simp only [decodePendingIndex, reduceCtorEq] at h
  case pending =>
    obtain ⟨_, hv, h⟩ := bind_eq_ok_iff.mp h
    cases h
    exact ⟨rfl, hv⟩

theorem decodeFailedIndex_eq_ok
    (h : decodeFailedIndex data = .ok index) : data = .failed index := by
  cases data <;> simp only [decodeFailedIndex, reduceCtorEq] at h
  case failed =>
    obtain ⟨_, _, h⟩ := bind_eq_ok_iff.mp h
    cases h
    rfl

theorem decodePublishedIndex_eq_ok
    (h : decodePublishedIndex data = .ok index) : data = .index index := by
  cases data <;> simp only [decodePublishedIndex, reduceCtorEq] at h
  case index =>
    obtain ⟨_, _, h⟩ := bind_eq_ok_iff.mp h
    cases h
    rfl

theorem validatePendingIndex_keys
    (h : validatePendingIndex index = .ok ()) (he : index.pending.lookup v = some entry) :
    trimSpace entry.version = v := by
  obtain ⟨_, _, h⟩ := bind_eq_ok_iff.mp h
  obtain ⟨_, _, h⟩ := bind_eq_ok_iff.mp h
  have h := context_eq_ok.mp (GoMap.checkAll_eq_ok.mp h v entry he)
  obtain ⟨_, h, _⟩ := bind_eq_ok_iff.mp h
  obtain ⟨_, _, h⟩ := bind_eq_ok_iff.mp h
  obtain ⟨_, h, _⟩ := bind_eq_ok_iff.mp h
  exact (require_eq_ok.mp h).symm

theorem decodeCatalog_eq_ok (ht : Text.Trimmed appName)
    (hp : ∀ {index}, pendingData = some (.pending index) → index.app = appName)
    (hf : ∀ {index}, failedData = some (.failed index) → index.app = appName)
    (h : decodeCatalog appName pendingData failedData indexData = .ok (c, published)) :
    Decoded appName pendingData failedData indexData c published := by
  obtain ⟨pending, h₁, h⟩ := bind_eq_ok_iff.mp h
  obtain ⟨failed, h₂, h⟩ := bind_eq_ok_iff.mp h
  obtain ⟨_, h₃, h⟩ := bind_eq_ok_iff.mp h
  cases h
  have hpending : pendingVersions pendingData = pending.pending.keys ∧ pending.app = appName ∧
      ∀ {v entry}, pending.pending.lookup v = some entry → trimSpace entry.version = v := by
    cases pendingData
    case none =>
      cases h₁
      refine ⟨rfl, ht, fun he => ?_⟩
      rw [newEmptyPendingIndex, Finmap.lookup_empty] at he
      contradiction
    case some data =>
      obtain ⟨rfl, hv⟩ := decodePendingIndex_eq_ok (context_eq_ok.mp h₁)
      exact ⟨rfl, hp rfl, validatePendingIndex_keys hv⟩
  have hfailed : failedVersions failedData = failed.failed.keys ∧ failed.app = appName := by
    cases failedData
    case none =>
      cases h₂
      exact ⟨rfl, ht⟩
    case some data =>
      obtain rfl := decodeFailedIndex_eq_ok (context_eq_ok.mp h₂)
      exact ⟨rfl, hf rfl⟩
  have hpublished : publishedVersions appName indexData = (published.versions appName).keys := by
    cases indexData
    case none =>
      cases h₃
      rfl
    case some data =>
      obtain rfl := decodePublishedIndex_eq_ok (context_eq_ok.mp h₃)
      rfl
  exact ⟨hpending.1, hfailed.1, hpublished, hpending.2.2, ⟨hpending.2.1, hfailed.2⟩⟩

end Decode

variable {ι : Type} [DecidableEq ι] {commands : ι → PendingCommand} {root url : StorageURL}
variable {appName v : String} {i : ι} {index₀ : Option PendingFile}
variable {s s' s'' : State ι}

section Paths

theorem pendingURL_ne_failedURL : pendingURL root appName ≠ failedURL root appName := by
  simp [pendingURL, failedURL, storageURL, appPendingPath, appFailedPath]

theorem pendingURL_ne_indexURL : pendingURL root appName ≠ storageURL root (appIndexPath appName) := by
  simp [pendingURL, storageURL, appPendingPath, appIndexPath]

theorem failedURL_ne_indexURL : failedURL root appName ≠ storageURL root (appIndexPath appName) := by
  simp [failedURL, storageURL, appFailedPath, appIndexPath]

end Paths

-- The commands never write `index.json`, and no version is owed that is in `failed.json`.
structure Consistent (root : StorageURL) (appName : String) (index₀ : Option PendingFile)
    (s : State ι) : Prop where
  ofApp : OfApp root appName s.bucket
  index : s.bucket.data? (storageURL root (appIndexPath appName)) = index₀
  settled : ∀ j, Disjoint (s.record j) (failedVersions (s.bucket.data? (failedURL root appName)))

omit [DecidableEq ι] in
theorem Consistent.of_bucket_eq (h : Consistent root appName index₀ s) (hb : s'.bucket = s.bucket)
    (hs : ∀ j, Disjoint (s'.record j) (failedVersions (s.bucket.data? (failedURL root appName)))) :
    Consistent root appName index₀ s' where
  ofApp := hb ▸ h.ofApp
  index := hb ▸ h.index
  settled := hb ▸ hs

-- What the others do for command `i`: what it owes gets less, and they leave the version that a
-- `fail` command owes in `pending.json`.
structure Respects (commands : ι → PendingCommand) (root : StorageURL) (appName : String) (i : ι)
    (s s' : State ι) : Prop where
  later : s.bucket.Later s'.bucket
  owed : s'.record i ⊆ s.record i
  kept : ∀ {v}, v ∈ s'.record i → v ∈ failing (commands i) →
    v ∈ pendingVersions (s.bucket.data? (pendingURL root appName)) →
    v ∈ pendingVersions (s'.bucket.data? (pendingURL root appName))

namespace Respects

omit [DecidableEq ι] in
theorem refl (s : State ι) : Respects commands root appName i s s where
  later := .refl _
  owed := subset_rfl
  kept _ _ h := h

omit [DecidableEq ι] in
theorem trans (h₁ : Respects commands root appName i s s')
    (h₂ : Respects commands root appName i s' s'') : Respects commands root appName i s s'' where
  later := h₁.later.trans h₂.later
  owed := h₂.owed.trans h₁.owed
  kept ho hf hp := h₂.kept ho hf (h₁.kept (h₂.owed ho) hf hp)

omit [DecidableEq ι] in
theorem of_bucket_eq (hb : s'.bucket = s.bucket) (ho : s'.record i ⊆ s.record i) :
    Respects commands root appName i s s' where
  later := hb ▸ .refl _
  owed := ho
  kept _ _ h := hb ▸ h

end Respects

abbrev Guarantees (commands : ι → PendingCommand) (root : StorageURL) (appName : String) (i : ι)
    (s s' : State ι) : Prop :=
  ∀ j, j ≠ i → Respects commands root appName j s s'

theorem compatible : Compatible (semantics commands root appName) (Consistent root appName index₀)
    (Respects commands root appName) (Guarantees commands root appName) where
  refl _ _             := .refl _
  trans _              := .trans
  interfere hne _ _ h  := h _ hne.symm
  env_inv _ _ h        := h.of_bucket_eq rfl h.settled
  env_rely _ _ _ _     := .of_bucket_eq rfl subset_rfl

abbrev Runs (commands : ι → PendingCommand) (root : StorageURL) (appName : String)
    (index₀ : Option PendingFile) (i : ι) {α : Type}
    (post : α → State ι → Prop) (p : PendingProgram α)
    (s : State ι) : Prop :=
  Safe (semantics commands root appName) (Undisturbed commands root appName)
    (Consistent root appName index₀) i (Respects commands root appName i)
    (Guarantees commands root appName i) post p s

section Rules

variable {α : Type} {post : α → State ι → Prop}

def afterRead (commands : ι → PendingCommand) (root : StorageURL) (appName : String) (i : ι)
    (url : StorageURL) (existing : Option PendingFile) (s : State ι) :
    State ι :=
  match existing with
  | none => s
  | some data => { s with
      record := noteOwed commands root appName i (.readData url) (.ok data) s.bucket s.record }

def afterWrite (commands : ι → PendingCommand) (root : StorageURL) (appName : String) (i : ι)
    (url : StorageURL) (data : PendingFile) (g : Nat) (s : State ι) : State ι :=
  { s with
    bucket := s.bucket.store url data ""
    record := noteOwed commands root appName i (.writeCatalogObject url data g) (.ok ()) s.bucket
      s.record }

theorem exec_outage (h : s.outage = some e) (c : StoreCall PendingFile) (o : Unit) :
    (semantics commands root appName).exec i c o s = (s, c.fail e) := by
  cases s
  cases h
  cases c <;> rfl

theorem exec_arrived (h : s.outage = none) (c : StoreCall PendingFile) (o : Unit) :
    (semantics commands root appName).exec i c o s =
      ({ s with
          bucket := (c.answer s.bucket).1
          record := noteOwed commands root appName i c (c.answer s.bucket).2 s.bucket s.record },
        (c.answer s.bucket).2) := by
  cases s
  cases h
  rfl

theorem afterRead_of_ne (h : url ≠ pendingURL root appName) :
    afterRead commands root appName i url existing s = s := by
  cases existing
  case none => rfl
  case some => simp [afterRead, noteOwed, h]

theorem afterRead_bucket :
    (afterRead commands root appName i url existing s).bucket = s.bucket := by
  cases existing <;> rfl

theorem afterRead_record_of_ne (h : j ≠ i) :
    (afterRead commands root appName i url existing s).record j = s.record j := by
  cases existing
  case none => rfl
  case some =>
    simp only [afterRead, noteOwed]
    split
    · exact Function.update_of_ne h ..
    · rfl

theorem mem_afterRead :
    v ∈ (afterRead commands root appName i (pendingURL root appName) existing s).record i ↔
    v ∈ s.record i ∨ (v ∈ pendingVersions existing ∧ v ∈ failing (commands i) ∧
      v ∉ failedVersions (s.bucket.data? (failedURL root appName))) := by
  cases existing
  case none => simp [afterRead, pendingVersions]
  case some data => simp [afterRead, noteOwed, found, and_assoc]

theorem guarantees_afterRead :
    Guarantees commands root appName i s (afterRead commands root appName i url existing s) :=
  fun _ hj => .of_bucket_eq afterRead_bucket (afterRead_record_of_ne hj).subset

theorem Consistent.afterRead (h : Consistent root appName index₀ s) :
    Consistent root appName index₀
      (PendingRuns.afterRead commands root appName i url existing s) := by
  refine h.of_bucket_eq afterRead_bucket fun j => ?_
  by_cases hj : j = i
  case neg =>
    rw [afterRead_record_of_ne hj]
    exact h.settled j
  case pos =>
    subst hj
    by_cases hu : url = pendingURL root appName
    case neg =>
      rw [afterRead_of_ne hu]
      exact h.settled j
    case pos =>
      subst hu
      refine Finset.disjoint_left.mpr fun v hv => ?_
      rcases mem_afterRead.mp hv with hv | ⟨_, _, hv⟩
      case inl => exact Finset.disjoint_left.mp (h.settled j) hv
      case inr => exact hv

theorem readObject_safe
    (failed : ∀ s' e, Respects commands root appName i s s' → Consistent root appName index₀ s' →
      Runs commands root appName index₀ i post (f (.error e)) s')
    (found : ∀ s' g existing, Respects commands root appName i s s' →
      Consistent root appName index₀ s' → ReadAt url g existing s'.bucket →
      Runs commands root appName index₀ i post (f (.ok (g, existing)))
        (afterRead commands root appName i url existing s')) :
    Runs commands root appName index₀ i post (readObject url >>= f) s := by
  intro s₁ hr₁ hi₁ _ o₁
  cases ho₁ : s₁.outage
  case some e =>
    rw [exec_outage ho₁]
    exact ⟨hi₁, fun _ _ => .refl _, failed s₁ e hr₁ hi₁⟩
  case none =>
    rw [exec_arrived ho₁]
    refine ⟨hi₁, fun _ _ => .refl _, ?_⟩
    by_cases hg : s₁.bucket.generation url = 0
    case pos =>
      simp only [answer, hg]
      refine found s₁ 0 none hr₁ hi₁ ⟨?_, fun _ h => ?_⟩
      · simp [data?, Bucket.generation_eq_zero.mp hg]
      · simp [data?, Bucket.generation_eq_zero.mp h]
    case neg =>
      obtain ⟨n, hn⟩ := Nat.exists_eq_succ_of_ne_zero hg
      simp only [answer, hn]
      intro s₂ hr₂ hi₂ _ o₂
      have hr := hr₁.trans hr₂
      cases ho₂ : s₂.outage
      case some e =>
        rw [exec_outage ho₂]
        exact ⟨hi₂, fun _ _ => .refl _, failed s₂ e hr hi₂⟩
      case none =>
        cases hd : s₂.bucket.data? url
        case none =>
          have he : (semantics commands root appName).exec i (.readData url) o₂ s₂ =
              (s₂, .error (StoreCall.openFailed url)) := by
            rw [exec_arrived ho₂]
            simp [answer, hd, noteOwed]
          rw [he]
          exact ⟨hi₂, fun _ _ => .refl _, failed s₂ _ hr hi₂⟩
        case some data =>
          have he : (semantics commands root appName).exec i (.readData url) o₂ s₂ =
              (afterRead commands root appName i url (some data) s₂, .ok data) := by
            rw [exec_arrived ho₂]
            simp [answer, hd, afterRead]
          have hguar : Guarantees commands root appName i s₂
              (afterRead commands root appName i url (some data) s₂) := guarantees_afterRead
          have hinv : Consistent root appName index₀
              (afterRead commands root appName i url (some data) s₂) := hi₂.afterRead
          rw [he]
          refine ⟨hinv, hguar, ?_⟩
          refine found s₂ (n + 1) (some data) hr hi₂ ⟨hd, fun hl hg₃ => ?_⟩
          have := hr₂.later.objects_eq hl hg (hg₃.trans hn.symm)
          rw [← hd, data?, data?, this]

-- The rule for writes. The error of a write that does not arrive can look like a conflict.
theorem write_safe {k : Except Failure Unit → PendingProgram α}
    (failed : ∀ s' e, Respects commands root appName i s s' → Consistent root appName index₀ s' →
      Undisturbed commands root appName i (.writeCatalogObject url data g) s' →
      s'.outage = some e ∨ s'.bucket.generation url ≠ g →
      Runs commands root appName index₀ i post (k (.error e)) s')
    (written : ∀ s', Respects commands root appName i s s' → Consistent root appName index₀ s' →
      Undisturbed commands root appName i (.writeCatalogObject url data g) s' →
      s'.bucket.generation url = g →
      Consistent root appName index₀ (afterWrite commands root appName i url data g s') ∧
      Guarantees commands root appName i s' (afterWrite commands root appName i url data g s') ∧
      Runs commands root appName index₀ i post (k (.ok ()))
        (afterWrite commands root appName i url data g s')) :
    Runs commands root appName index₀ i post (.call (.writeCatalogObject url data g) k) s := by
  intro s₁ hr hi ha o
  cases ho : s₁.outage
  case some e =>
    rw [exec_outage ho]
    exact ⟨hi, fun _ _ => .refl _, failed s₁ e hr hi ha (.inl ho)⟩
  case none =>
    by_cases hg : s₁.bucket.generation url = g
    case pos =>
      have he : (semantics commands root appName).exec i (.writeCatalogObject url data g) o s₁ =
          (afterWrite commands root appName i url data g s₁, .ok ()) := by
        rw [exec_arrived ho]
        simp [answer, Bucket.replace, hg, afterWrite]
      rw [he]
      exact written s₁ hr hi ha hg
    case neg =>
      have he : (semantics commands root appName).exec i (.writeCatalogObject url data g) o s₁ =
          (s₁, .error (StoreCall.preconditionFailed url)) := by
        rw [exec_arrived ho]
        simp [answer, Bucket.replace, hg, noteOwed]
      rw [he]
      exact ⟨hi, fun _ _ => .refl _, failed s₁ _ hr hi ha (.inr hg)⟩

end Rules

-- What a command owes before an attempt is still pending.
def Held (commands : ι → PendingCommand) (root : StorageURL) (appName : String) (i : ι)
    (s : State ι) : Prop :=
  ∀ v ∈ s.record i, v ∈ failing (commands i) ∧
    v ∈ pendingVersions (s.bucket.data? (pendingURL root appName))

omit [DecidableEq ι] in
theorem Held.mono (h : Held commands root appName i s) (hr : Respects commands root appName i s s') :
    Held commands root appName i s' := by
  intro v hv
  obtain ⟨hf, hp⟩ := h v (hr.owed hv)
  exact ⟨hf, hr.kept hv hf hp⟩

-- What a command knows after it has loaded the catalogs.
structure Loaded (commands : ι → PendingCommand) (root : StorageURL) (appName : String)
    (index₀ : Option PendingFile) (i : ι) (load : LoadedCatalog) (s : State ι) :
    Prop where
  held : Held commands root appName i s
  seen : ∀ v ∈ s.record i, v ∈ load.catalogs.pending.pending ∧
    v ∉ load.catalogs.failed.failed
  current : ∀ {b}, s.bucket.Later b → b.generation (pendingURL root appName) = load.pendingGen →
    pendingVersions (b.data? (pendingURL root appName)) = load.catalogs.pending.pending.keys
  published : publishedVersions appName index₀ = (load.published.versions appName).keys
  keys : ∀ {v entry}, load.catalogs.pending.pending.lookup v = some entry →
    trimSpace entry.version = v
  ofApp : load.catalogs.OfApp appName
  trimmed : Text.Trimmed appName

theorem load_safe (h : Held commands root appName i s) :
    Runs commands root appName index₀ i
      (fun r s => ∀ load, r = .ok load → Loaded commands root appName index₀ i load s)
      (loadAppRegistryPendingCatalog (pendingURL root appName) (failedURL root appName)
        (storageURL root (appIndexPath appName)) appName) s := by
  refine readObject_safe (fun _ _ _ _ _ _ _ _ h => nomatch h) ?_
  intro s₁ pendingGen pendingData hr₁ hi₁ hread₁
  have h₁ := h.mono hr₁
  -- Everything that is owed from now on has been found in the file.
  have hfound : ∀ v ∈ (afterRead commands root appName i (pendingURL root appName) pendingData
      s₁).record i, v ∈ failing (commands i) ∧ v ∈ pendingVersions pendingData := by
    intro v hv
    rcases mem_afterRead.mp hv with hv | ⟨hp, hf, _⟩
    case inl => exact ⟨(h₁ v hv).left, hread₁.data ▸ (h₁ v hv).right⟩
    case inr => exact ⟨hf, hp⟩
  have h₁' : Held commands root appName i
      (afterRead commands root appName i (pendingURL root appName) pendingData s₁) := by
    intro v hv
    rw [afterRead_bucket, hread₁.data]
    exact hfound v hv
  refine readObject_safe (fun _ _ _ _ _ _ _ _ h => nomatch h) ?_
  intro s₂ failedGen failedData hr₂ hi₂ hread₂
  rw [afterRead_of_ne pendingURL_ne_failedURL.symm]
  refine readObject_safe (fun _ _ _ _ _ _ _ _ h => nomatch h) ?_
  intro s₃ _ indexData hr₃ hi₃ hread₃
  rw [afterRead_of_ne pendingURL_ne_indexURL.symm]
  dsimp only
  split
  case h_1 => exact fun _ _ _ _ h => nomatch h
  case h_2 catalogs published hd =>
    intro s₄ hr₄ _ load hload
    cases hload
    have hdec := decodeCatalog_eq_ok hi₁.ofApp.trimmed
      (fun hp => hi₁.ofApp.pending (hread₁.data.trans hp))
      (fun hf => hi₂.ofApp.failed (hread₂.data.trans hf)) hd
    have hr := (hr₂.trans hr₃).trans hr₄
    refine ⟨h₁'.mono hr, fun v hv => ⟨?_, fun hn => ?_⟩, fun hl hg => ?_, ?_, hdec.keys, hdec.ofApp,
      hi₁.ofApp.trimmed⟩
    · rw [← Finmap.mem_keys, ← hdec.pending]
      exact (hfound v (hr.owed hv)).right
    · rw [← Finmap.mem_keys, ← hdec.failed, ← hread₂.data] at hn
      exact Finset.disjoint_left.mp (hi₂.settled i) ((hr₃.trans hr₄).owed hv) hn
    · rw [← hdec.pending]
      have hlater := hr.later
      rw [afterRead_bucket] at hlater
      rw [hread₁.still (hlater.trans hl) hg]
    · rw [← hdec.published, ← hread₃.data, hi₃.index]

namespace Loaded

variable {load : LoadedCatalog}

omit [DecidableEq ι] in
theorem moved (h : Loaded commands root appName index₀ i load s) (hv : v ∈ s.record i) :
    ((commands i).mutate load.published appName load.catalogs).pendingChanged = true ∧
    ((commands i).mutate load.published appName load.catalogs).failedChanged = true ∧
    v ∈ ((commands i).mutate load.published appName load.catalogs).failed.failed := by
  obtain ⟨hf, _⟩ := h.held v hv
  obtain ⟨hp, hn⟩ := h.seen v hv
  cases hc : commands i <;> rw [hc] at hf
  case set => simp [failing] at hf
  case clear => simp [failing] at hf
  case fail version now =>
    obtain rfl : v = trimSpace version := Finset.mem_singleton.mp hf
    obtain ⟨entry, he⟩ := Finmap.mem_iff.mp hp
    exact PendingCommand.mutate_fail he (h.keys he) hn

omit [DecidableEq ι] in
theorem dropped_moved (h : Loaded commands root appName index₀ i load s)
    (hb : pendingVersions before = load.catalogs.pending.pending.keys)
    (hv : v ∈ dropped before index₀ appName
      (.pending ((commands i).mutate load.published appName load.catalogs).pending) (commands i)) :
    ((commands i).mutate load.published appName load.catalogs).failedChanged = true ∧
    v ∈ ((commands i).mutate load.published appName load.catalogs).failed.failed := by
  cases hc : commands i <;> rw [hc] at hv
  case clear => simp [dropped] at hv
  case fail => simp [dropped] at hv
  case set entry now =>
    rw [dropped, Finset.mem_sdiff, Finset.mem_sdiff, hb] at hv
    obtain ⟨⟨hp, hn⟩, hpub⟩ := hv
    rw [Finmap.mem_keys] at hp
    rw [pendingVersions, Finmap.mem_keys] at hn
    refine PendingCommand.mutate_set h.ofApp (fun hc => hpub ?_) hp hn
    obtain ⟨entry', he⟩ := Finmap.mem_iff.mp hp
    have ht : trimSpace v = v := h.keys he ▸ Text.trimSpace_trimSpace _
    rw [indexContainsVersion, ht, h.trimmed] at hc
    rw [h.published]
    exact Finmap.mem_keys.mpr hc

end Loaded

section PendingWrite

variable {load : LoadedCatalog} {g : Nat} {index : PendingIndex}

theorem mem_afterPendingWrite :
    v ∈ (afterWrite commands root appName i (pendingURL root appName) data g
      s).record i ↔
    v ∈ s.record i ∨ (v ∈ dropped (s.bucket.data? (pendingURL root appName))
        (s.bucket.data? (storageURL root (appIndexPath appName))) appName data (commands i) ∧
      v ∉ failedVersions (s.bucket.data? (failedURL root appName))) := by
  simp [afterWrite, noteOwed]

theorem afterPendingWrite_record_of_ne (h : j ≠ i) :
    (afterWrite commands root appName i (pendingURL root appName) data g s).record
      j = s.record j := by
  simp [afterWrite, noteOwed, h]

theorem Consistent.afterPendingWrite (h : Consistent root appName index₀ s)
    (ha : index.app = appName) :
    Consistent root appName index₀ (afterWrite commands root appName i
      (pendingURL root appName) (.pending index) g s) := by
  refine ⟨⟨h.ofApp.trimmed, fun hp => ?_, fun hf => h.ofApp.failed ?_⟩, ?_, fun j => ?_⟩
  · rw [afterWrite, data?_store_self] at hp
    cases hp
    exact ha
  · rwa [afterWrite, data?_store_of_ne pendingURL_ne_failedURL.symm] at hf
  · rw [afterWrite, data?_store_of_ne pendingURL_ne_indexURL.symm]
    exact h.index
  · have hd : (afterWrite commands root appName i (pendingURL root appName)
        (.pending index) g s).bucket.data? (failedURL root appName) =
        s.bucket.data? (failedURL root appName) :=
      data?_store_of_ne pendingURL_ne_failedURL.symm
    rw [hd]
    by_cases hj : j = i
    case neg =>
      rw [afterPendingWrite_record_of_ne hj]
      exact h.settled j
    case pos =>
      subst hj
      refine Finset.disjoint_left.mpr fun v hv => ?_
      rcases mem_afterPendingWrite.mp hv with hv | ⟨_, hv⟩
      case inl => exact Finset.disjoint_left.mp (h.settled j) hv
      case inr => exact hv

theorem guarantees_afterPendingWrite (ha : Undisturbed commands root appName i
      (.writeCatalogObject (pendingURL root appName) data g) s)
    (hg : s.bucket.generation (pendingURL root appName) = g) :
    Guarantees commands root appName i s (afterWrite commands root appName i
      (pendingURL root appName) data g s) := by
  intro j hj
  have hrec : (afterWrite commands root appName i (pendingURL root appName) data g
      s).record j = s.record j :=
    afterPendingWrite_record_of_ne hj
  refine ⟨.store .., hrec.subset, fun {v} hv hf hp => ?_⟩
  rw [afterWrite, data?_store_self]
  exact ha.right rfl hg j hj v (Finset.mem_inter.mpr ⟨hrec ▸ hv, hf⟩) hp

end PendingWrite

section FailedWrite

variable {g : Nat} {index : FailedIndex}

theorem afterFailedWrite_record (j : ι) :
    (afterWrite commands root appName i (failedURL root appName) (.failed index) g
      s).record j = s.record j \ index.failed.keys := by
  simp [afterWrite, noteOwed, pendingURL_ne_failedURL.symm, failedVersions]

theorem Consistent.afterFailedWrite (h : Consistent root appName index₀ s)
    (ha : index.app = appName) :
    Consistent root appName index₀ (afterWrite commands root appName i
      (failedURL root appName) (.failed index) g s) := by
  refine ⟨⟨h.ofApp.trimmed, fun hp => h.ofApp.pending ?_, fun hf => ?_⟩, ?_, fun j => ?_⟩
  · rwa [afterWrite, data?_store_of_ne pendingURL_ne_failedURL] at hp
  · rw [afterWrite, data?_store_self] at hf
    cases hf
    exact ha
  · rw [afterWrite, data?_store_of_ne failedURL_ne_indexURL.symm]
    exact h.index
  · rw [afterFailedWrite_record, afterWrite, data?_store_self]
    exact Finset.sdiff_disjoint

theorem guarantees_afterFailedWrite :
    Guarantees commands root appName i s (afterWrite commands root appName i
      (failedURL root appName) (.failed index) g s) := by
  refine fun j hj => ⟨.store .., ?_, fun _ _ hp => ?_⟩
  · rw [afterFailedWrite_record]
    exact Finset.sdiff_subset
  · rwa [afterWrite, data?_store_of_ne pendingURL_ne_failedURL]

end FailedWrite

section Attempts

-- A command that returns `nil` owes nothing.
abbrev Settles (i : ι) (r : Except Failure Unit) (s : State ι) : Prop :=
  r = .ok () → s.record i = ∅

theorem ret_error_safe :
    Runs commands root appName index₀ i (Settles i) (.ret (.error e)) s :=
  fun _ _ _ h => nomatch h

theorem ret_ok_safe (h : s.record i = ∅) :
    Runs commands root appName index₀ i (Settles i) (.ret (.ok ())) s :=
  fun _ hr _ _ => Finset.subset_empty.mp (h ▸ hr.owed)

variable {n g : Nat} {c : PendingCatalogs}

theorem retry_safe
    (retry : IsCatalogPreconditionFailed e → Runs commands root appName index₀ i (Settles i)
      (mutateAttempts root appName (commands i) n) s) :
    Runs commands root appName index₀ i (Settles i)
      (if IsCatalogPreconditionFailed e ∧ 0 < n then
        mutateAttempts root appName (commands i) n
      else
        return .error e) s := by
  split
  case isTrue hc => exact retry hc.left
  case isFalse => exact ret_error_safe

-- The second half of an attempt, where everything that is owed is about to be written.
theorem uploadFailed_safe
    (retry : ∀ s, Held commands root appName i s → Consistent root appName index₀ s →
      Runs commands root appName index₀ i (Settles i)
        (mutateAttempts root appName (commands i) n) s)
    (ha : c.OfApp appName)
    (h : ∀ v ∈ s.record i, c.failedChanged = true ∧ v ∈ c.failed.failed) :
    Runs commands root appName index₀ i (Settles i) (do
      match ← uploadChanged c.failedChanged (failedURL root appName) (.failed c.failed) g with
      | .error e =>
        if IsCatalogPreconditionFailed e ∧ 0 < n then
          mutateAttempts root appName (commands i) n
        else
          return .error e
      | .ok () => return .ok ()) s := by
  cases hc : c.failedChanged
  case false =>
    refine ret_ok_safe (Finset.eq_empty_of_forall_notMem fun v hv => ?_)
    have := (h v hv).left
    simp [hc] at this
  case true =>
    rw [uploadChanged, if_pos rfl, request_bind]
    refine write_safe (fun s₁ e hr hi hu hf => retry_safe fun hc => ?_) fun s₁ hr hi _ _ => ?_
    · -- An attempt that is repeated has nothing left to record.
      have hnone : s₁.record i = ∅ := by
        by_contra hne
        obtain ⟨hg, ho⟩ := hu.left rfl hne
        rcases hf with hf | hf
        case inl => exact ho e hf hc
        case inr => exact hf hg
      refine retry s₁ (fun v hv => ?_) hi
      rw [hnone] at hv
      contradiction
    · refine ⟨hi.afterFailedWrite ha.failed, guarantees_afterFailedWrite, ret_ok_safe ?_⟩
      rw [afterFailedWrite_record, Finset.sdiff_eq_empty_iff_subset]
      exact fun v hv => Finmap.mem_keys.mpr (h v (hr.owed hv)).right

theorem mutateAttempts_safe (h : Held commands root appName i s)
    (hi : Consistent root appName index₀ s) :
    Runs commands root appName index₀ i (Settles i)
      (mutateAttempts root appName (commands i) n) s := by
  induction n generalizing s
  case zero => exact ret_error_safe
  case succ n ih =>
    refine .bind .refl (load_safe h) fun r s₁ hi₁ hl => ?_
    cases r
    case error => exact ret_error_safe
    case ok load =>
      have hl := hl load rfl
      have ha : ((commands i).mutate load.published appName load.catalogs).OfApp appName :=
        (commands i).mutate_ofApp hl.ofApp
      have retry := fun s hs hi => ih (s := s) hs hi
      dsimp only
      cases hc : ((commands i).mutate load.published appName load.catalogs).pendingChanged
      case false =>
        refine uploadFailed_safe retry ha fun v hv => ?_
        have := (hl.moved hv).left
        simp [hc] at this
      case true =>
        rw [uploadChanged, if_pos rfl, request_bind]
        refine write_safe (fun s₂ e hr hi _ _ => ?_) fun s₂ hr hi hu hg => ?_
        · exact retry_safe fun _ => retry s₂ (hl.held.mono hr) hi
        · refine ⟨hi.afterPendingWrite ha.pending, guarantees_afterPendingWrite hu hg, ?_⟩
          refine uploadFailed_safe retry ha fun v hv => ?_
          rcases mem_afterPendingWrite.mp hv with hv | ⟨hv, _⟩
          case inl => exact (hl.moved (hr.owed hv)).right
          case inr =>
            rw [hi.index] at hv
            exact hl.dropped_moved (hl.current hr.later hg) hv

end Attempts

theorem sound (hb : OfApp root appName b) :
    Sound (semantics commands root appName) (Undisturbed commands root appName)
      (Consistent root appName (b.data? (storageURL root (appIndexPath appName))))
      (Respects commands root appName) (Guarantees commands root appName) Settles
      (config commands root appName b) := by
  have hi : Consistent root appName (b.data? (storageURL root (appIndexPath appName)))
      (config commands root appName b).mem :=
    ⟨hb, rfl, fun _ => Finset.disjoint_empty_left _⟩
  exact ⟨hi, fun i => mutateAttempts_safe (fun v hv => absurd hv (Finset.notMem_empty v)) hi⟩

-- Failed builds are recorded. A command that returns `nil` owes nothing to `failed.json`.
theorem failed_builds_recorded {b : Bucket StorageURL PendingFile} (hb : OfApp root appName b) {c}
    (h : Reaches (semantics commands root appName) (Undisturbed commands root appName)
      (config commands root appName b) c) (hr : c.prog i = .ret (.ok ())) :
    c.mem.record i = ∅ :=
  ((sound hb).reaches compatible h).result compatible hr rfl

def demoVersion (version : String) : PendingVersion where
  version := version
  sourceRef := "0123456789abcdef0123456789abcdef01234567"
  startedAt := 1
  updatedAt := 1
  phase := .publishing

def demoStore : Bucket StorageURL PendingFile :=
  (∅ : Bucket StorageURL PendingFile).store (pendingURL ["gs://registry"] "demo")
    (.pending {
      schemaVersion := 1
      app := "demo"
      pending := (Finmap.singleton "1.0.0" (demoVersion "1.0.0")).insert "2.0.0"
        (demoVersion "2.0.0") }) ""

def demoCommands : Bool → PendingCommand
  | false => .fail "1.0.0" 2
  | true => .fail "2.0.0" 2

theorem demo_ofApp : OfApp ["gs://registry"] "demo" demoStore where
  trimmed := by decide +kernel
  pending h := by
    cases h
    rfl
  failed h  := nomatch h

theorem ret_of_isOk {p : PendingProgram (Except Failure Unit)}
    (h : p.result?.any (·.isOk) = true) : p = .ret (.ok ()) := by
  cases p
  case call => contradiction
  case ret r =>
    cases r
    case error => contradiction
    case ok    => rfl

theorem failed_builds_recorded_demo : ∃ c,
    Reaches (semantics demoCommands ["gs://registry"] "demo")
      (Undisturbed demoCommands ["gs://registry"] "demo")
      (config demoCommands ["gs://registry"] "demo" demoStore) c ∧
    "1.0.0" ∈ failedVersions (c.mem.bucket.data? (failedURL ["gs://registry"] "demo")) ∧
    c.mem.record false = ∅ := by
  obtain ⟨c, hr, hok, hf⟩ : ∃ c, Reaches (semantics demoCommands ["gs://registry"] "demo")
      (Undisturbed demoCommands ["gs://registry"] "demo")
      (config demoCommands ["gs://registry"] "demo" demoStore) c ∧
      (c.prog false).result?.any (·.isOk) = true ∧
      "1.0.0" ∈ failedVersions (c.mem.bucket.data? (failedURL ["gs://registry"] "demo")) :=
    Config.exists_reaches_of_run (List.replicate 6 (.call false ())) (by decide +kernel)
  exact ⟨c, hr, hf, failed_builds_recorded demo_ofApp hr (ret_of_isOk hok)⟩

-- The second command writes `failed.json` between the two writes of the first one, which then
-- returns `nil` without having recorded its version.
theorem failed_build_lost : ∃ c,
    Reaches (semantics demoCommands ["gs://registry"] "demo") unguarded
      (config demoCommands ["gs://registry"] "demo" demoStore) c ∧
    (c.prog false).result?.any (·.isOk) = true ∧ c.mem.record false = {"1.0.0"} ∧
    "1.0.0" ∉ failedVersions (c.mem.bucket.data? (failedURL ["gs://registry"] "demo")) :=
  Config.exists_reaches_of_run (List.replicate 5 (.call false ()) ++
    List.replicate 6 (.call true ()) ++ List.replicate 6 (.call false ())) (by decide +kernel)

end PendingRuns
end AppRegistry
