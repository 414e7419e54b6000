import GestaltModel.AppRegistry.RetentionPrune
import GestaltModel.AppRegistry.Theorems.Writer

namespace AppRegistry

open Interleaving Publishing
open Publishing (Immutable demoPlan index_ne_retention)
open Text (Trimmed trimSpace)

section Remove

theorem removeIndexVersion_versions (index : Index) (appName version : String) :
    (removeIndexVersion index appName version).1.versions appName =
      (index.versions appName).erase version := by
  simp only [removeIndexVersion]
  split
  case h_1 h =>
    have he : index.versions appName = ∅ := by simp [Index.versions, h]
    rw [he, GoMap.erase_eq_self (Finmap.notMem_empty)]
  case h_2 app h =>
    have he : index.versions appName = app.versions := by simp [Index.versions, h]
    rw [he]
    split
    case isFalse hv => rw [he, GoMap.erase_eq_self hv]
    case isTrue =>
      split
      case isTrue hn => simp [Index.versions, hn]
      case isFalse   => simp [Index.versions]

theorem removeIndexVersion_changed
    (h : version ∈ index.versions appName) : (removeIndexVersion index appName version).2 := by
  simp only [removeIndexVersion]
  split
  case h_1 hn =>
    have he : index.versions appName = ∅ := by simp [Index.versions, hn]
    exact absurd (he ▸ h) Finmap.notMem_empty
  case h_2 app hs =>
    have h : version ∈ app.versions := by simpa [Index.versions, hs] using h
    rw [if_pos h]
    split <;> rfl

theorem removeRetentionVersion_versions (index : RetentionIndex) (version : String) :
    (removeRetentionVersion index version).1.versions =
      index.versions.erase (trimSpace version) := by
  simp only [removeRetentionVersion]
  split
  case isTrue => rfl
  case isFalse h => exact (GoMap.erase_eq_self h).symm

end Remove

-- Whether a version that has the given row in the retention catalog is deleted by a prune.
def Prunable (p : PruneInput) (v : String) (row : Option RetentionVersion) : Prop :=
  ∃ entry, row = some entry ∧ v ≠ trimSpace p.desiredVersion ∧ RetentionExpired entry p.now ∧
    ¬entry.everDeployed ∧ v ∉ p.deployedVersions

theorem pruneAction_eq_deleteUnused :
    pruneAction p index version entry = some ⟨v, .deleteUnused⟩ ↔
    version = v ∧ Prunable p v (some entry) := by
  simp only [pruneAction, Prunable]
  constructor
  case mp =>
    intro h
    split at h; · contradiction
    split at h; · contradiction
    split at h
    case isTrue h₁ h₂ h₃ =>
      cases h
      have h₃ := not_or.mp h₃
      exact ⟨rfl, entry, rfl, h₁, not_not.mp h₂, h₃.left, h₃.right⟩
    case isFalse => split at h <;> cases h
  case mpr =>
    intro ⟨hv, _, he, h₁, h₂, h₃, h₄⟩
    cases he
    subst hv
    simp [h₁, h₂, h₃, h₄]

theorem mem_evaluateRetentionPrune {p : PruneInput} {index : Index} {retention : RetentionIndex}
    {keys : List String} {v : String} (hk : ∀ k, k ∈ keys ↔ k ∈ retention.versions) :
    ⟨v, .deleteUnused⟩ ∈ evaluateRetentionPrune p index retention keys ↔
    Prunable p v (retention.versions.lookup v) := by
  simp only [evaluateRetentionPrune, List.mem_filterMap, Option.bind_eq_some_iff,
    pruneAction_eq_deleteUnused]
  constructor
  case mp =>
    intro ⟨_, _, entry, hl, hv, hp⟩
    rw [← hv, hl]
    exact hv ▸ hp
  case mpr =>
    intro hp
    have ⟨entry, hl, _⟩ := hp
    exact ⟨v, (hk v).mpr (Finmap.mem_of_lookup_eq_some hl), entry, hl, rfl, hl ▸ hp⟩

namespace Pruning

variable {root url : StorageURL} {κ : Type}
variable {p : PruneInput} {v : String} {s s' : Memory Document PruneRecord}
variable {b b₁ b₂ : Bucket StorageURL Document}

def row (root : StorageURL) (p : PruneInput) (v : String) (b : Bucket StorageURL Document) :
    Option IndexVersion :=
  (listedVersions (b.data? (storageURL root (appIndexPath p.appName))) p.appName).lookup v

def retained (root : StorageURL) (p : PruneInput) (v : String) (b : Bucket StorageURL Document) :
    Option RetentionVersion :=
  (retentionVersions (b.data? (storageURL root (appRetentionPath p.appName)))).lookup v

-- A version that nobody publishes is private to the prune: nobody else touches its rows.
structure Private (root : StorageURL) (p : PruneInput) (v : String)
    (s s' : Memory Document PruneRecord) : Prop where
  later : s.bucket.Later s'.bucket
  row : row root p v s'.bucket = row root p v s.bucket
  retained : retained root p v s'.bucket = retained root p v s.bucket
  record : s'.record = s.record

namespace Private

theorem refl (s : Memory Document PruneRecord) : Private root p v s s where
  later := .refl _
  row := rfl
  retained := rfl
  record := rfl

theorem trans (h₁ : Private root p v s₁ s₂)
    (h₂ : Private root p v s₂ s₃) : Private root p v s₁ s₃ where
  later := h₁.later.trans h₂.later
  row := h₂.row.trans h₁.row
  retained := h₂.retained.trans h₁.retained
  record := h₂.record.trans h₁.record

end Private

-- The prune relies on the privacy of the version, which the publishers guarantee. These only need
-- that generations are not reused.
def rely (root : StorageURL) (p : PruneInput) (v : String) :
    Option κ → Memory Document PruneRecord → Memory Document PruneRecord → Prop
  | none => Private root p v
  | some _ => fun s s' => s.bucket.Later s'.bucket

def guar (root : StorageURL) (p : PruneInput) (v : String) :
    Option κ → Memory Document PruneRecord → Memory Document PruneRecord → Prop
  | none => fun s s' => s.bucket.Later s'.bucket
  | some _ => Private root p v

theorem compatible : Compatible (storeSemantics (notePrune (κ := κ) root p.appName))
    (fun _ => True) (rely root p v) (guar root p v) where
  refl i s := by
    cases i
    case none => exact .refl s
    case some => exact .refl s.bucket
  trans i := by
    cases i
    case none => exact .trans
    case some => exact .trans
  interfere {i j s s'} hij _ _ h := by
    match i, j with
    | none, none => contradiction
    | none, some _ => exact h
    | some _, none => exact h
    | some _, some _ => exact h.later
  env_inv a  := a.elim
  env_rely a := a.elim

section Publisher

variable {plan : PublishManifest digest root} {k : κ} {w : Writer}

-- Publisher `k` keeps the version private.
abbrev KeepsPrivate (root : StorageURL) (p : PruneInput) (v : String) (k : κ)
    (prog : RegistryProgram α) (s : Memory Document PruneRecord) : Prop :=
  Safe (storeSemantics (notePrune root p.appName)) unguarded (fun _ => True) (some k)
    (fun s s' => s.bucket.Later s'.bucket) (Private root p v) (fun _ _ => True) prog s

theorem publisher (k : κ) : StoreClient (notePrune root p.appName) (some k)
    (fun s s' => s.bucket.Later s'.bucket) (Private root p v) where
  reads _ _ _ _ h := by cases h <;> rfl
  writes := { catalog := fun _ _ _ _ _ _ => rfl, immutable := fun _ _ _ _ _ _ => rfl }
  refl _          := .refl _
  trans := .trans
  later h         := h
  idle _          := .refl _

theorem immutableObjectMatchesExisting_readsOnly (object : PublishObject) :
    ReadsOnly (immutableObjectMatchesExisting object) := by
  rw [immutableObjectMatchesExisting, request_bind]
  refine .call (.describeObject _) fun r => ?_
  cases r
  case error => exact .ret _
  case ok described =>
    dsimp only
    split
    · exact .ret _
    · split
      · exact .ret _
      · split
        · refine .bind (readObject_readsOnly _) fun r => ?_
          cases r <;> exact .ret _
        · exact .ret _

theorem Private.store (hi : storageURL root (appIndexPath p.appName) ≠ url)
    (hr : storageURL root (appRetentionPath p.appName) ≠ url)
    (hb : s'.bucket = s.bucket.store url d sha256) (hrec : s'.record = s.record) :
    Private root p v s s' where
  later := hb ▸ .store ..
  row := by rw [Pruning.row, Pruning.row, hb, Bucket.data?_store_of_ne hi]
  retained := by rw [Pruning.retained, Pruning.retained, hb, Bucket.data?_store_of_ne hr]
  record := hrec

theorem uploadImmutableObjectIfNeeded_private (hu : Immutable root object.storageURL) :
    KeepsPrivate root p v k (uploadImmutableObjectIfNeeded object) s := by
  have hread := immutableObjectMatchesExisting_readsOnly object
  refine .bind (.refl <| ·.bucket) ((publisher k).readsOnly hread) fun r s₁ _ _ => ?_
  match r with
  | .error e => exact .done
  | .ok true => exact .done
  | .ok false =>
    dsimp only
    rw [request_bind]
    refine (publisher k).writeImmutableObject (fun s₂ e _ _ => ?_) (fun s₂ _ _ _ => ?_)
    · dsimp only
      split
      · refine .bind (.refl <| ·.bucket) ((publisher k).readsOnly hread) fun r _ _ _ => ?_
        match r with
        | .error e  => exact .done
        | .ok false => exact .done
        | .ok true  => exact .done
      · exact .done
    · exact ⟨trivial, .store hu.ne_index hu.ne_retention rfl rfl, .done⟩

theorem uploadArtifacts_private {done}
    (h : ∀ object ∈ objects, Immutable root object.storageURL) :
    KeepsPrivate root p v k (uploadArtifacts done objects) s := by
  induction objects generalizing done s
  case nil => exact .done
  case cons object objects hi =>
    have hu := h object List.mem_cons_self
    refine .bind_ok (.refl <| ·.bucket) (uploadImmutableObjectIfNeeded_private hu)
      (fun _ _ => .done) fun _ _ _ _ => ?_
    exact hi fun o ho => h o (List.mem_cons_of_mem _ ho)

theorem uploadRetention_private (hv : plan.appName = p.appName → plan.entry.version ≠ v) :
    KeepsPrivate root p v k (w.uploadRetention plan publishedAt) s := by
  rw [Writer.uploadRetention, retentionStorageURL_indexURL]
  refine (publisher k).compareAndSwapCatalog (P := fun _ => True) (fun _ _ _ => trivial) ?_
    (fun _ _ _ _ => .done) (fun _ _ _ _ => .done) trivial trivial
  intro s g data _ _ _ _ hu
  obtain ⟨index, index', hd, hm, he⟩ := catalogUpdate_eq_some.mp hu
  have hm : _ = index' := congrArg Prod.fst (Except.ok.inj hm)
  cases he
  refine ⟨trivial, ?_, .done⟩
  by_cases ha : plan.appName = p.appName
  case neg =>
    exact .store index_ne_retention (mt retentionURL_inj.mp (Ne.symm ha))
      rfl rfl
  case pos =>
    have hv := plan.version_eq ▸ hv ha
    refine ⟨.store .., ?_, ?_, rfl⟩
    · simp only [row, afterCatalogWrite]
      rw [Bucket.data?_store_of_ne index_ne_retention]
    · simp only [retained, afterCatalogWrite]
      rw [ha, Bucket.data?_store_self, ← ha, ← decodeRetentionIndexOrEmpty_eq_ok hd, ← hm]
      exact upsertPublishedRetention_lookup_of_ne hv.symm

theorem uploadIndex_private (he : entry = { plan.entry with publishedAt := t })
    (hv : plan.appName = p.appName → plan.entry.version ≠ v) :
    KeepsPrivate root p v k (w.uploadIndex plan entry) s := by
  refine (publisher k).compareAndSwapCatalog (P := fun _ => True) (fun _ _ _ => trivial) ?_
    (fun _ _ _ _ => .done) (fun _ _ _ _ => .done) trivial trivial
  intro s g data _ _ _ _ hu
  have ⟨index, index', hd, hm, hdata⟩ := catalogUpdate_eq_some.mp hu
  cases hdata
  refine ⟨trivial, ?_, .done⟩
  by_cases ha : plan.appName = p.appName
  case neg =>
    exact .store (mt indexURL_inj.mp (Ne.symm ha)) index_ne_retention.symm
      rfl rfl
  case pos =>
    have hv : v ≠ entry.version := he ▸ (hv ha).symm
    refine ⟨.store .., ?_, ?_, rfl⟩
    · simp only [row, afterCatalogWrite, PublishManifest.indexURL]
      rw [ha, Bucket.data?_store_self, ← ha]
      have hl := upsertAppIndex_lookup hm plan.appName v
      rwa [if_neg (hv ·.right), decodeIndexOrEmpty_eq_ok hd] at hl
    · simp only [retained, afterCatalogWrite, PublishManifest.indexURL]
      rw [Bucket.data?_store_of_ne index_ne_retention.symm]

theorem publish_private (hv : plan.appName = p.appName → plan.entry.version ≠ v) :
    KeepsPrivate root p v k (w.publish plan) s := by
  have refl (s : Memory Document PruneRecord) : s.bucket.Later s.bucket := .refl _
  have ha := artifactObjects_immutable plan
  refine .bind refl (uploadArtifacts_private ha) fun ⟨artifacts, failed⟩ _ _ _ => ?_
  cases failed
  case some => exact .done
  case none =>
    have hu := entryObject_immutable plan
    refine .bind_ok refl (uploadImmutableObjectIfNeeded_private hu) (fun _ _ => .done) ?_
    intro outcome _ _ _
    refine .bind_ok refl (publisher k).adoptStoredEntryPublishedAt_eq (fun _ _ => .done) ?_
    intro entry _ _ ht
    have ⟨t, ht⟩ := ht _ rfl
    refine .bind_ok refl (uploadRetention_private hv) (fun _ _ => .done) fun _ _ _ _ => ?_
    exact .bind_ok refl (uploadIndex_private ht hv) (fun _ _ => .done) fun _ _ _ _ => .done

end Publisher

section Prune

variable {w : String} {st : PruneState}

abbrev PruneSafe (κ : Type) (root : StorageURL) (p : PruneInput) (v : String)
    (post : α → Memory Document PruneRecord → Prop) (prog : RegistryProgram α)
    (s : Memory Document PruneRecord) : Prop :=
  Safe (storeSemantics (notePrune root p.appName)) unguarded (fun _ => True) (none : Option κ)
    (Private root p v) (fun s s' => s.bucket.Later s'.bucket) post prog s

theorem pruner : StoreReader (notePrune (κ := κ) root p.appName) none (Private root p v)
    (fun s s' => s.bucket.Later s'.bucket) where
  reads _ _ _ _ h := by cases h <;> rfl
  refl _          := .refl _
  trans := .trans
  later h         := h.later
  idle _          := .refl _

def Deleted (root : StorageURL) (p : PruneInput) (v : String) (s : Memory Document PruneRecord) :
    Prop :=
  storageURL root (appVersionEntryPath p.appName v) ∈ s.record.deleted

def Listed (root : StorageURL) (p : PruneInput) (v : String) (s : Memory Document PruneRecord) :
    Prop :=
  row root p v s.bucket ≠ none

-- Between attempts: a stranded version is not visited again, any other dangling one will be.
structure Between (root : StorageURL) (p : PruneInput) (v : String)
    (s : Memory Document PruneRecord) : Prop where
  stranded : Trimmed v → v ∈ s.record.stranded →
    Listed root p v s ∧ retained root p v s.bucket = none
  deleted : Deleted root p v s → v ∉ s.record.stranded → Listed root p v s →
    Prunable p v (retained root p v s.bucket)
  dry : p.dryRun → ¬Deleted root p v s

theorem Between.mono (h : Between root p v s) (hp : Private root p v s s') :
    Between root p v s' where
  stranded := by simpa only [Listed, hp.row, hp.retained, hp.record] using h.stranded
  deleted := by simpa only [Deleted, Listed, hp.row, hp.retained, hp.record] using h.deleted
  dry := by simpa only [Deleted, hp.record] using h.dry

section Delete

theorem Private.deleteAll (hi : f (storageURL root (appIndexPath p.appName)) = false)
    (hr : f (storageURL root (appRetentionPath p.appName)) = false)
    (hb : s'.bucket = s.bucket.deleteAll f) (hrec : s'.record = s.record) :
    Private root p v s s' where
  later := hb ▸ .deleteAll ..
  row := by simp [Pruning.row, hb, Bucket.data?, Bucket.deleteAll, hi]
  retained := by simp [Pruning.retained, hb, Bucket.data?, Bucket.deleteAll, hr]
  record := hrec

theorem exec_deletePrefix (κ : Type) (root : StorageURL) (p : PruneInput) (v w : String)
    (o : Option Failure) (s : Memory Document PruneRecord) :
    Private root p v s ((storeSemantics (notePrune (κ := κ) root p.appName)).exec none
      (.deletePrefix (storageURL root (appArtifactPrefix p.appName w))) o s).1 := by
  cases o
  case some => exact .refl s
  case none =>
    refine .deleteAll ?_ ?_ rfl rfl
    all_goals simp [StoreCall.Under, storageURL, appArtifactPrefix, appIndexPath, appRetentionPath,
      List.prefix_append_right_inj]

def afterDelete (root : StorageURL) (p : PruneInput) (w : String) (s : Memory Document PruneRecord) :
    Memory Document PruneRecord :=
  let url := storageURL root (appVersionEntryPath p.appName w)
  { bucket := s.bucket.deleteAll (· = url)
    record := { s.record with deleted := url :: s.record.deleted } }

theorem exec_deleteObject (κ : Type) (root : StorageURL) (p : PruneInput) (w : String)
    (o : Option Failure) (s : Memory Document PruneRecord) :
    (∃ e, (storeSemantics (notePrune (κ := κ) root p.appName)).exec none
      (.deleteObject (storageURL root (appVersionEntryPath p.appName w))) o s = (s, .error e)) ∨
    (storeSemantics (notePrune (κ := κ) root p.appName)).exec none
      (.deleteObject (storageURL root (appVersionEntryPath p.appName w))) o s =
      (afterDelete root p w s, .ok ()) := by
  cases o
  case some e => exact .inl ⟨e, rfl⟩
  case none => exact .inr rfl

theorem afterDelete_later : s.bucket.Later (afterDelete root p w s).bucket :=
  .deleteAll ..

@[simp]
theorem afterDelete_row : row root p v (afterDelete root p w s).bucket = row root p v s.bucket := by
  have hne : storageURL root (appIndexPath p.appName) ≠
      storageURL root (appVersionEntryPath p.appName w) :=
    Publishing.Immutable.ne_index ⟨_, _, .inl rfl⟩
  simp [row, afterDelete, Bucket.data?, Bucket.deleteAll, hne]

@[simp]
theorem afterDelete_retained :
    retained root p v (afterDelete root p w s).bucket = retained root p v s.bucket := by
  have hne : storageURL root (appRetentionPath p.appName) ≠
      storageURL root (appVersionEntryPath p.appName w) :=
    Publishing.Immutable.ne_retention ⟨_, _, .inl rfl⟩
  simp [retained, afterDelete, Bucket.data?, Bucket.deleteAll, hne]

theorem deleted_afterDelete :
    Deleted root p v (afterDelete root p w s) ↔ v = w ∨ Deleted root p v s := by
  simp [Deleted, afterDelete, storageURL, appVersionEntryPath]

theorem Between.afterDelete (h : Between root p v s) (hd : p.dryRun = false)
    (hv : v = w → Prunable p v (retained root p v s.bucket)) :
    Between root p v (afterDelete root p w s) where
  stranded ht hs := by simpa [Listed] using h.stranded ht hs
  deleted hdel hs hl := by
    rw [afterDelete_retained]
    rcases deleted_afterDelete.mp hdel with he | hdel
    case inl => exact hv he
    case inr => exact h.deleted hdel hs (by simpa [Listed] using hl)
  dry hdry := by simp [hd] at hdry

end Delete

-- The invariant of the attempts, and something that depends on the rows of the version.
def Assert (root : StorageURL) (p : PruneInput) (v : String)
    (G : Option IndexVersion → Option RetentionVersion → Prop) (s : Memory Document PruneRecord) :
    Prop :=
  Between root p v s ∧ G (row root p v s.bucket) (retained root p v s.bucket)

theorem Assert.mono (h : Assert root p v G s) (hp : Private root p v s s') :
    Assert root p v G s' :=
  ⟨h.left.mono hp, by rw [hp.row, hp.retained]; exact h.right⟩

theorem deletePrefix_safe (h : Assert root p v G s) :
    PruneSafe κ root p v (fun _ s => Assert root p v G s) (do
      return ignoreNotFound (← request
        (.deletePrefix (storageURL root (appArtifactPrefix p.appName w))))) s := by
  intro s₁ hr _ _ o
  have hp := exec_deletePrefix κ root p v w o s₁
  exact ⟨trivial, hp.later, fun _ hr₂ _ => ((h.mono hr).mono hp).mono hr₂⟩

theorem deletePruned_safe (hd : p.dryRun = false)
    (hv : action = ⟨v, .deleteUnused⟩ → ∀ l r, G l r → Prunable p v r) (h : Assert root p v G s) :
    PruneSafe κ root p v (fun _ s => Assert root p v G s) (deletePruned root p action) s := by
  match action with
  | ⟨w, .deleteArtifact⟩ => exact deletePrefix_safe h
  | ⟨w, .deleteUnused⟩ =>
    intro s₁ hr _ _ o
    have h := h.mono hr
    rcases exec_deleteObject κ root p w o s₁ with ⟨e, he⟩ | he <;> rw [he]
    case inl =>
      refine ⟨trivial, .refl _, ?_⟩
      simp only [Program.bind_ret]
      split
      · exact fun _ hr _ => h.mono hr
      · exact deletePrefix_safe h
    case inr =>
      have hb := h.left.afterDelete hd fun hw => hv (hw ▸ rfl) _ _ h.right
      refine ⟨trivial, afterDelete_later, deletePrefix_safe ⟨hb, ?_⟩⟩
      rw [afterDelete_row, afterDelete_retained]
      exact h.right

theorem freshRetentionEntryForPrune_safe (h : Assert root p v G s) :
    PruneSafe κ root p v
      (fun r s => Assert root p v G s ∧
        ∀ entry, r = .ok entry → w = v → entry = retained root p v s.bucket)
      (freshRetentionEntryForPrune (storageURL root (appRetentionPath p.appName)) w) s := by
  refine pruner.readObject (fun s₁ e hr _ => ?_) (fun s₁ g existing hr _ hread => ?_)
  · exact fun _ hr₂ _ => ⟨(h.mono hr).mono hr₂, nofun⟩
  · cases existing
    case none =>
      intro s₂ hr₂ _
      refine ⟨(h.mono hr).mono hr₂, fun entry he _ => ?_⟩
      cases he
      rw [hr₂.retained, retained, hread.data]
      rfl
    case some data =>
      dsimp only
      split
      case h_1 => exact fun _ hr₂ _ => ⟨(h.mono hr).mono hr₂, nofun⟩
      case h_2 retention hd =>
        intro s₂ hr₂ _
        refine ⟨(h.mono hr).mono hr₂, fun entry he hw => ?_⟩
        cases he
        have hd := decodeRetentionIndexOrEmpty_eq_ok (d := some data) (Except.context_eq_ok.mp hd)
        rw [hr₂.retained, retained, hread.data, ← hd, hw]

section Tracked

-- The catalogs and the remaining actions for the version, which was not visited so far or has been
-- removed from the catalogs.
structure Untouched (p : PruneInput) (v : String) (actions : List RetentionPruneAction)
    (st : PruneState) (l : Option IndexVersion) (r : Option RetentionVersion) : Prop where
  index : (st.index.versions p.appName).lookup v = l
  retention : st.retention.versions.lookup v = r ∨ st.retention.versions.lookup v = none
  planned : ⟨v, .deleteUnused⟩ ∈ actions ↔ Prunable p v r

structure Removed (p : PruneInput) (v : String) (st : PruneState) (l : Option IndexVersion)
    (r : Option RetentionVersion) : Prop where
  index : (st.index.versions p.appName).lookup v = none
  retention : st.retention.versions.lookup v = none ∨
    ¬Trimmed v ∧ st.retention.versions.lookup v = r
  prunable : Prunable p v r
  changed : l = none ∨ st.changed

def Tracked (p : PruneInput) (v : String) (actions : List RetentionPruneAction) (st : PruneState)
    (l : Option IndexVersion) (r : Option RetentionVersion) : Prop :=
  Untouched p v actions st l r ∨ Removed p v st l r

variable {r : Option RetentionVersion}

theorem Tracked.prunable (h : Tracked p v (action :: actions) st l r)
    (ha : action = ⟨v, .deleteUnused⟩) : Prunable p v r := by
  rcases h with h | h
  case inl => exact h.planned.mp (ha ▸ List.mem_cons_self)
  case inr => exact h.prunable

theorem Tracked.skip (h : Tracked p v (action :: actions) st l r)
    (ha : action ≠ ⟨v, .deleteUnused⟩) : Tracked p v actions st l r := by
  rcases h with h | h
  case inl =>
    refine .inl ⟨h.index, h.retention, ?_⟩
    rw [← h.planned, List.mem_cons, or_iff_right ha.symm]
  case inr => exact .inr h

def PruneState.apply (p : PruneInput) (st : PruneState) (action : RetentionPruneAction) :
    PruneState :=
  let applied := applyRetentionPruneAction st.index st.retention p.appName action
  ⟨applied.1, applied.2.1, st.changed || applied.2.2⟩

@[simp]
theorem PruneState.apply_index :
    (PruneState.apply p st ⟨w, .deleteUnused⟩).index.versions p.appName =
      (st.index.versions p.appName).erase w :=
  removeIndexVersion_versions ..

@[simp]
theorem PruneState.apply_retention :
    (PruneState.apply p st ⟨w, .deleteUnused⟩).retention.versions =
      st.retention.versions.erase (trimSpace w) :=
  removeRetentionVersion_versions ..

theorem PruneState.apply_changed (h : w ∈ st.index.versions p.appName ∨ st.changed) :
    (PruneState.apply p st ⟨w, .deleteUnused⟩).changed := by
  rcases h with h | h
  case inl =>
    have hc := removeIndexVersion_changed h
    simp [PruneState.apply, applyRetentionPruneAction, hc]
  case inr => simp [PruneState.apply, h]

-- Removing other versions can only remove the version from the retention catalog.
theorem lookup_erase_cases {m : GoMap RetentionVersion} :
    (m.erase k).lookup v = m.lookup v ∨ (m.erase k).lookup v = none := by
  by_cases hk : v = k
  case pos => exact .inr (hk ▸ Finmap.lookup_erase ..)
  case neg => exact .inl (Finmap.lookup_erase_ne hk)

theorem Untouched.remove (h : Untouched p v actions st l r) (hp : Prunable p v r) :
    Removed p v (PruneState.apply p st ⟨v, .deleteUnused⟩) l r where
  prunable := hp
  index := by simp
  changed := by
    by_cases hm : v ∈ st.index.versions p.appName
    case pos => exact .inr (PruneState.apply_changed (.inl hm))
    case neg => exact .inl (h.index ▸ Finmap.lookup_eq_none.mpr hm)
  retention := by
    rw [PruneState.apply_retention]
    by_cases ht : Trimmed v
    case pos =>
      rw [show trimSpace v = v from ht]
      exact .inl (Finmap.lookup_erase ..)
    case neg =>
      rw [Finmap.lookup_erase_ne (Ne.symm ht)]
      exact h.retention.symm.imp id (⟨ht, ·⟩)

theorem Untouched.keep (h : Untouched p v (⟨w, .deleteUnused⟩ :: actions) st l r) (hw : v ≠ w) :
    Untouched p v actions (PruneState.apply p st ⟨w, .deleteUnused⟩) l r where
  index := by rw [PruneState.apply_index, Finmap.lookup_erase_ne hw, h.index]
  retention := by
    rw [PruneState.apply_retention]
    rcases lookup_erase_cases with he | he <;> rw [he]
    case inl => exact h.retention
    case inr => exact .inr rfl
  planned := by
    rw [← h.planned, List.mem_cons, or_iff_right]
    exact fun h => hw (congrArg RetentionPruneAction.version h)

theorem Removed.keep (h : Removed p v st l r) :
    Removed p v (PruneState.apply p st ⟨w, .deleteUnused⟩) l r where
  prunable := h.prunable
  changed := h.changed.imp id fun h => PruneState.apply_changed (.inr h)
  index := by
    rw [PruneState.apply_index, Finmap.lookup_eq_none]
    exact fun hm => Finmap.lookup_eq_none.mp h.index (Finmap.mem_erase.mp hm).right
  retention := by
    rw [PruneState.apply_retention]
    rcases lookup_erase_cases with he | he <;> rw [he]
    case inl => exact h.retention
    case inr => exact .inl rfl

theorem Tracked.apply (h : Tracked p v (action :: actions) st l r) :
    Tracked p v actions (PruneState.apply p st action) l r := by
  match action with
  | ⟨w, .deleteArtifact⟩ =>
    have he : PruneState.apply p st ⟨w, .deleteArtifact⟩ = st := by
      simp [PruneState.apply, applyRetentionPruneAction]
    rw [he]
    exact h.skip nofun
  | ⟨w, .deleteUnused⟩ =>
    rcases h with h | h
    case inr => exact .inr h.keep
    case inl =>
      by_cases hw : v = w
      case neg => exact .inl (h.keep hw)
      case pos =>
        subst hw
        exact .inr (h.remove (h.planned.mp List.mem_cons_self))

end Tracked

theorem pruneActions_safe (hd : p.dryRun = false)
    (h : Assert root p v (Tracked p v actions st) s) :
    PruneSafe κ root p v
      (fun r s => ∀ st', r = .ok st' → Assert root p v (Tracked p v [] st') s)
      (pruneActions root p actions st) s := by
  have refl (s : Memory Document PruneRecord) : Private root p v s s := .refl s
  induction actions generalizing st s
  case nil =>
    intro s₁ hr _ st' he
    cases he
    exact h.mono hr
  case cons action actions hi =>
    rw [pruneActions]
    split
    case isTrue hdep =>
      refine hi ⟨h.left, h.right.skip fun ha => ?_⟩
      have ⟨_, _, _, _, _, hn⟩ := h.right.prunable ha
      have hv : action.version = v := congrArg (·.version) ha
      exact hn (hv ▸ hdep.left)
    case isFalse =>
      refine .bind refl (freshRetentionEntryForPrune_safe h) fun fresh s₁ _ ⟨h, hf⟩ => ?_
      match fresh with
      | .error e => exact fun _ _ _ => nofun
      | .ok none =>
        refine hi ⟨h.left, h.right.skip fun ha => ?_⟩
        have ⟨_, he, _⟩ := h.right.prunable ha
        exact nomatch (hf _ rfl (congrArg (·.version) ha)).trans he
      | .ok (some entry) =>
        dsimp only
        split
        case isTrue hs =>
          refine hi ⟨h.left, h.right.skip fun ha => ?_⟩
          have ⟨_, he, _, hexp, hever, _⟩ := h.right.prunable ha
          have he := (hf _ rfl (congrArg (·.version) ha)).trans he
          cases he
          refine hs ?_
          rw [ha]
          exact ⟨hever, hexp⟩
        case isFalse =>
          have hG : Assert root p v (fun l r => Tracked p v actions (PruneState.apply p st action) l r ∧
              (action = ⟨v, .deleteUnused⟩ → Prunable p v r)) s₁ :=
            ⟨h.left, h.right.apply, h.right.prunable⟩
          refine .bind refl (deletePruned_safe hd (fun ha _ _ h => h.right ha) hG) fun r s₂ _ h => ?_
          cases r
          case error => exact fun _ _ _ => nofun
          case ok    => exact hi ⟨h.left, h.right.left⟩

-- What the prune has achieved when it returns without an error.
structure Achieved (root : StorageURL) (p : PruneInput) (v : String)
    (s : Memory Document PruneRecord) : Prop where
  dangling : Deleted root p v s → Listed root p v s → v ∈ s.record.stranded
  stranded : Trimmed v → v ∈ s.record.stranded → Listed root p v s

theorem Achieved.mono (h : Achieved root p v s) (hp : Private root p v s s') :
    Achieved root p v s' where
  dangling := by simpa only [Deleted, Listed, hp.row, hp.record] using h.dangling
  stranded := by simpa only [Listed, hp.row, hp.record] using h.stranded

theorem Between.achieved (h : Between root p v s)
    (hn : Deleted root p v s → Prunable p v (retained root p v s.bucket) → ¬Listed root p v s) :
    Achieved root p v s where
  dangling hd hl := by_contra fun hs => hn hd (h.deleted hd hs hl) hl
  stranded ht hs := (h.stranded ht hs).left

theorem not_stranded_of_prunable (h : Between root p v s)
    (hp : Prunable p v (retained root p v s.bucket)) (ht : Trimmed v) :
    v ∉ s.record.stranded := by
  intro hs
  have ⟨_, he, _⟩ := hp
  exact nomatch (h.stranded ht hs).right.symm.trans he

section Write

def afterRetention (root : StorageURL) (p : PruneInput) (st : PruneState)
    (s : Memory Document PruneRecord) : Memory Document PruneRecord :=
  let url := storageURL root (appRetentionPath p.appName)
  { s with bucket := s.bucket.store url (.retention st.retention) "" }

def afterIndex (root : StorageURL) (p : PruneInput) (st : PruneState)
    (s : Memory Document PruneRecord) : Memory Document PruneRecord :=
  let url := storageURL root (appIndexPath p.appName)
  { s with bucket := s.bucket.store url (.index st.index) "" }

def afterRefusal (root : StorageURL) (p : PruneInput) (s : Memory Document PruneRecord) :
    Memory Document PruneRecord :=
  let listed :=
    (listedVersions (s.bucket.data? (storageURL root (appIndexPath p.appName))) p.appName).keys
  let stranded := listed.filter fun v =>
    storageURL root (appVersionEntryPath p.appName v) ∈ s.record.deleted
  { s with record := { s.record with stranded := s.record.stranded ∪ stranded } }

theorem exec_writeRetention (κ : Type) (root : StorageURL) (p : PruneInput) (st : PruneState)
    (g : Nat) (o : Option Failure) (s : Memory Document PruneRecord) :
    (∃ e, (storeSemantics (notePrune (κ := κ) root p.appName)).exec none (.writeCatalogObject
      (storageURL root (appRetentionPath p.appName)) (.retention st.retention) g) o s =
      (s, .error e)) ∨
    (storeSemantics (notePrune (κ := κ) root p.appName)).exec none (.writeCatalogObject
      (storageURL root (appRetentionPath p.appName)) (.retention st.retention) g) o s =
      (afterRetention root p st s, .ok ()) := by
  rcases StoreCall.writeCatalogObject_cases (storageURL root (appRetentionPath p.appName))
    (.retention st.retention) g o s.bucket with ⟨e, he⟩ | ⟨_, he⟩
  case inl => exact .inl ⟨e, by simp [he, notePrune, index_ne_retention.symm]⟩
  case inr => exact .inr (by simp [he, notePrune, afterRetention])

theorem exec_writeIndex (κ : Type) (root : StorageURL) (p : PruneInput) (st : PruneState)
    (g : Nat) (o : Option Failure) (s : Memory Document PruneRecord) :
    (∃ e, (storeSemantics (notePrune (κ := κ) root p.appName)).exec none (.writeCatalogObject
      (storageURL root (appIndexPath p.appName)) (.index st.index) g) o s =
      (afterRefusal root p s, .error e)) ∨
    (storeSemantics (notePrune (κ := κ) root p.appName)).exec none (.writeCatalogObject
      (storageURL root (appIndexPath p.appName)) (.index st.index) g) o s =
      (afterIndex root p st s, .ok ()) := by
  rcases StoreCall.writeCatalogObject_cases (storageURL root (appIndexPath p.appName))
    (.index st.index) g o s.bucket with ⟨e, he⟩ | ⟨_, he⟩
  case inl => exact .inl ⟨e, by simp [he, notePrune, afterRefusal]⟩
  case inr => exact .inr (by simp [he, notePrune, afterIndex])

@[simp]
theorem afterRetention_row :
    row root p v (afterRetention root p st s).bucket = row root p v s.bucket := by
  simp [row, afterRetention, Bucket.data?_store_of_ne index_ne_retention]

@[simp]
theorem afterRetention_retained :
    retained root p v (afterRetention root p st s).bucket =
      st.retention.versions.lookup v := by
  simp [retained, afterRetention, retentionVersions]

@[simp]
theorem afterIndex_row : row root p v (afterIndex root p st s).bucket =
    (st.index.versions p.appName).lookup v := by
  simp [row, afterIndex, listedVersions]

theorem mem_afterRefusal_stranded :
    v ∈ (afterRefusal root p s).record.stranded ↔
    v ∈ s.record.stranded ∨ Listed root p v s ∧ Deleted root p v s := by
  simp [afterRefusal, Listed, Deleted, row, Finmap.mem_keys, ← Finmap.lookup_isSome,
    Option.isSome_iff_ne_none]

-- What holds when the retention catalog is written and the index is not.
structure Halfway (root : StorageURL) (p : PruneInput) (v : String) (st : PruneState)
    (s : Memory Document PruneRecord) : Prop where
  index : (st.index.versions p.appName).lookup v = none ∧
      (Trimmed v → v ∉ s.record.stranded) ∨
    (st.index.versions p.appName).lookup v = row root p v s.bucket ∧
      (Deleted root p v s → Listed root p v s → v ∈ s.record.stranded)
  stranded : Trimmed v → v ∈ s.record.stranded → Listed root p v s
  retained : Trimmed v → v ∈ s.record.stranded ∨ Listed root p v s ∧ Deleted root p v s →
    retained root p v s.bucket = none

theorem Halfway.mono (h : Halfway root p v st s) (hp : Private root p v s s') :
    Halfway root p v st s' where
  index := by simpa only [Deleted, Listed, hp.row, hp.record] using h.index
  stranded := by simpa only [Listed, hp.row, hp.record] using h.stranded
  retained := by simpa only [Deleted, Listed, hp.row, hp.retained, hp.record] using h.retained

theorem Halfway.afterRetention (h : Assert root p v (Tracked p v [] st) s) :
    Halfway root p v st (afterRetention root p st s) where
  index := by
    rw [afterRetention_row]
    rcases h.right with hu | hr
    case inl =>
      have hn := mt hu.planned.mpr List.not_mem_nil
      have ha := h.left.achieved fun _ hp => absurd hp hn
      refine .inr ⟨hu.index, fun hd hl => ha.dangling hd ?_⟩
      rwa [Listed, afterRetention_row] at hl
    case inr =>
      have hs := not_stranded_of_prunable h.left hr.prunable
      exact .inl ⟨hr.index, hs⟩
  stranded ht hs := by simpa [Listed] using (h.left.stranded ht hs).left
  retained ht hs := by
    rw [afterRetention_retained]
    rcases h.right with hu | hr
    case inl =>
      have hn := mt hu.planned.mpr List.not_mem_nil
      have ha := h.left.achieved fun _ hp => absurd hp hn
      have hs : v ∈ s.record.stranded :=
        hs.elim id fun ⟨hl, hd⟩ => ha.dangling hd (by simpa [Listed] using hl)
      exact hu.retention.elim (·.trans (h.left.stranded ht hs).right) id
    case inr => exact hr.retention.elim id fun h => absurd ht h.left

theorem Halfway.afterRefusal (h : Halfway root p v st s) (hd : p.dryRun = false) :
    Between root p v (afterRefusal root p s) where
  stranded ht hs := by
    have hs := mem_afterRefusal_stranded.mp hs
    exact ⟨hs.elim (h.stranded ht) (·.left), h.retained ht hs⟩
  deleted hdel hs hl := by
    have hs' : v ∈ (Pruning.afterRefusal root p s).record.stranded :=
      mem_afterRefusal_stranded.mpr (.inr ⟨hl, hdel⟩)
    contradiction
  dry hdry := by simp [hd] at hdry

theorem Halfway.afterIndex (h : Halfway root p v st s) :
    Achieved root p v (afterIndex root p st s) where
  dangling hd hl := by
    rw [Listed, afterIndex_row] at hl
    rcases h.index with hi | hi
    case inl => exact absurd hi.left hl
    case inr => exact hi.right hd (by rwa [hi.left] at hl)
  stranded ht hs := by
    rw [Listed, afterIndex_row]
    rcases h.index with hi | hi
    case inl => exact absurd hs (hi.right ht)
    case inr => exact hi.left ▸ h.stranded ht hs

end Write

theorem mem_visited (order : GoMap.VisitOrder) (n : Nat) (m : GoMap RetentionVersion) (k : String) :
    k ∈ order.visit n m.sortedKeys ↔ k ∈ m := by
  rw [(order.perm n m.sortedKeys).mem_iff, GoMap.mem_sortedKeys]

theorem writePruned_safe {ig rg : Nat} (hd : p.dryRun = false)
    (h : Assert root p v (Tracked p v [] st) s) :
    PruneSafe κ root p v
      (fun r s => match r with
        | .ok () => Achieved root p v s
        | .error _ => Between root p v s)
      (writePruned root p st ig rg) s := by
  intro s₁ hr₁ _ _ o
  have h := h.mono hr₁
  rcases exec_writeRetention κ root p st rg o s₁ with ⟨e, he⟩ | he <;> rw [he]
  case inl => exact ⟨trivial, .refl _, fun _ hr _ => h.left.mono hr⟩
  case inr =>
    refine ⟨trivial, .store .., ?_⟩
    intro s₂ hr₂ _ _ o
    have h := (Halfway.afterRetention h).mono hr₂
    rcases exec_writeIndex κ root p st ig o s₂ with ⟨e, he⟩ | he <;> rw [he]
    case inl => exact ⟨trivial, .refl _, fun _ hr₃ _ => (h.afterRefusal hd).mono hr₃⟩
    case inr => exact ⟨trivial, .store .., fun _ hr₃ _ => h.afterIndex.mono hr₃⟩

-- By induction on the number of attempts that are left.
theorem attempts_safe (order : GoMap.VisitOrder) (n : Nat) (h : Between root p v s) :
    PruneSafe κ root p v (fun r s => r = .ok () → Achieved root p v s)
      (pruneAppRegistryRetention.go root p order n) s := by
  have refl (s : Memory Document PruneRecord) : Private root p v s s := .refl s
  induction n generalizing s
  case zero => exact fun _ _ _ => nofun
  case succ n hi =>
    rw [pruneAppRegistryRetention.go]
    refine pruner.readObject (fun _ _ _ _ => fun _ _ _ => nofun) fun s₁ ig indexData hr₁ _ hi₁ => ?_
    refine pruner.readObject (fun _ _ _ _ => fun _ _ _ => nofun) fun s₂ rg retData hr₂ _ hr₂' => ?_
    have h := (h.mono hr₁).mono hr₂
    dsimp only
    split; · exact fun _ _ _ => nofun
    case h_2 index hdi =>
    split; · exact fun _ _ _ => nofun
    case h_2 retention hdr =>
    have hdi := decodeIndexOrEmpty_eq_ok (Except.context_eq_ok.mp hdi) p.appName
    have hdr := decodeRetentionIndexOrEmpty_eq_ok (Except.context_eq_ok.mp hdr)
    have hrow : (index.versions p.appName).lookup v = row root p v s₂.bucket := by
      rw [hr₂.row, row, hi₁.data, hdi]
    have hret : retention.versions.lookup v = retained root p v s₂.bucket := by
      rw [retained, hr₂'.data, hdr]
    have hmem := @mem_evaluateRetentionPrune p index _ _ v
      (mem_visited order n retention.versions)
    rw [hret] at hmem
    split
    case isTrue hstop =>
      -- Nothing is visited, so the rows stay as they are.
      refine fun _ hr _ _ => Achieved.mono (h.achieved fun hd hp => ?_) hr
      rcases hstop with hdry | hnil
      case inl => exact absurd hd (h.dry hdry)
      case inr => exact absurd (hmem.mpr hp) (hnil ▸ List.not_mem_nil)
    case isFalse hgo =>
      have hd : p.dryRun = false := by simpa using (not_or.mp hgo).left
      have hu : Untouched p v _ ⟨index, retention, false⟩ _ _ := ⟨hrow, .inl hret, hmem⟩
      refine .bind refl (pruneActions_safe hd ⟨h, .inl hu⟩) fun r s₃ _ h => ?_
      cases r
      case error => exact fun _ _ _ => nofun
      case ok st =>
        have h := h st rfl
        dsimp only
        split
        case isTrue hc =>
          refine fun _ hr _ _ => (h.left.achieved fun _ hp hl => ?_).mono hr
          rcases h.right with hu | hr
          case inl => exact List.not_mem_nil (hu.planned.mpr hp)
          case inr => exact hr.changed.elim hl hc
        case isFalse =>
          refine .bind refl (writePruned_safe hd h) fun r s₄ _ h => ?_
          cases r
          case ok => exact fun _ hr _ _ => Achieved.mono h hr
          case error e =>
            dsimp only
            split
            · exact hi h
            · exact fun _ _ _ => nofun

end Prune

section Main

variable {order : GoMap.VisitOrder} {writers : κ → Writer} {plans : κ → PublishManifest digest root}

theorem sound (hv : ∀ k, (plans k).appName = p.appName → (plans k).entry.version ≠ v) :
    Sound (storeSemantics (notePrune root p.appName)) unguarded (fun _ => True) (rely root p v)
      (guar root p v)
      (fun i r s => match i with
        | none => r = .ok () → Achieved root p v s
        | some _ => True)
      (config p order writers plans b) where
  holds := trivial
  safe i := by
    cases i
    case none =>
      refine attempts_safe order appRegistryCatalogUpdateAttempts ⟨?_, ?_, ?_⟩
      all_goals simp [config, Deleted]
    case some k =>
      exact .bind (.refl <| ·.bucket) (publish_private (hv k)) fun _ _ _ _ => .done

theorem listed_iff : Listed root p v s ↔
    v ∈ listedVersions (s.bucket.data? (storageURL root (appIndexPath p.appName))) p.appName := by
  rw [Listed, row, ← Option.isSome_iff_ne_none, Finmap.lookup_isSome]

variable [DecidableEq κ]

-- If the prune returns without an error and nobody publishes the version, a deleted version is
-- still listed exactly if it got stranded.
theorem pruned_listed_iff_stranded
    {c : Config (Option κ) (StoreCall Document) StoreCall.Response (Except Failure Unit)
      (Memory Document PruneRecord)}
    (hv : ∀ k, (plans k).appName = p.appName → (plans k).entry.version ≠ v)
    (h : Reaches (storeSemantics (notePrune root p.appName)) unguarded
      (config p order writers plans b) c)
    (hret : c.prog none = .ret (.ok ()))
    (hdel : storageURL root (appVersionEntryPath p.appName v) ∈ c.mem.record.deleted) :
    (v ∈ listedVersions (c.mem.bucket.data? (storageURL root (appIndexPath p.appName)))
      p.appName → v ∈ c.mem.record.stranded) ∧
    (Trimmed v → v ∈ c.mem.record.stranded →
      v ∈ listedVersions (c.mem.bucket.data? (storageURL root (appIndexPath p.appName)))
        p.appName) := by
  have ha : Achieved root p v c.mem := ((sound hv).reaches compatible h).result compatible hret rfl
  simp only [← listed_iff]
  exact ⟨ha.dangling hdel, ha.stranded⟩

end Main

section Demo

def demoExpired : RetentionVersion where
  publishedAt := 1
  everDeployed := false
  expiresAt := some 2

def demoStore : Bucket StorageURL Document :=
  let row := demoRow
  let index : Index := ⟨1, Finmap.singleton "demo" ⟨"", "", Finmap.singleton "0.9.0" row⟩⟩
  let retention : RetentionIndex := ⟨1, Finmap.singleton "0.9.0" demoExpired⟩
  let root := ["gs://registry", "apps", "demo"]
  (∅ : Bucket StorageURL Document)
    |>.store (root ++ ["versions", "0.9.0.json"]) (.entry (demoEntry .gitHub)) ""
    |>.store (root ++ ["index.json"]) (.index index) ""
    |>.store (root ++ ["retention.json"]) (.retention retention) ""

def demoInput : PruneInput where
  appName := "demo"
  now := 3

-- The retention catalog is written before the prune starts, and the index before the prune's write.
def demoEvents :
    List (Event (storeSemantics (notePrune (κ := Unit) ["gs://registry"] "demo"))) :=
  List.replicate 7 (.call (some ()) none) ++ List.replicate 9 (.call none none) ++
  List.replicate 3 (.call (some ()) none) ++ List.replicate 5 (.call none none)

def demoConfig : Config (Option Unit) (StoreCall Document) StoreCall.Response
    (Except Failure Unit) (Memory Document PruneRecord) :=
  config demoInput default (fun _ => {}) (fun _ => demoPlan .gitHub) demoStore

theorem demo_prune_reaches :
    ∃ c, Reaches (storeSemantics (notePrune ["gs://registry"] "demo")) unguarded demoConfig c ∧
    (c.prog none).result? = some (.ok ()) ∧
    ["gs://registry", "apps", "demo", "versions", "0.9.0.json"] ∈ c.mem.record.deleted ∧
    "0.9.0" ∈ c.mem.record.stranded ∧
    "0.9.0" ∈ listedVersions
      (c.mem.bucket.data? ["gs://registry", "apps", "demo", "index.json"]) "demo" :=
  Config.exists_reaches_of_run demoEvents (by decide +kernel)

theorem demo_other_version :
    ∀ _ : Unit, (demoPlan .gitHub).appName = demoInput.appName →
      (demoPlan .gitHub).entry.version ≠ "0.9.0" :=
  fun _ _ => by decide

theorem pruned_listed_iff_stranded_demo :
    ∃ c, Reaches (storeSemantics (notePrune ["gs://registry"] "demo")) unguarded demoConfig c ∧
    c.prog none = .ret (.ok ()) ∧
    ("0.9.0" ∈ listedVersions
      (c.mem.bucket.data? ["gs://registry", "apps", "demo", "index.json"]) "demo" ↔
      "0.9.0" ∈ c.mem.record.stranded) := by
  have ⟨c, hr, hret, hdel, _⟩ := demo_prune_reaches
  have hret := Program.eq_ret_of_result? hret
  have ⟨h₁, h₂⟩ := pruned_listed_iff_stranded demo_other_version hr hret hdel
  exact ⟨c, hr, hret, h₁, h₂ (by decide +kernel)⟩

-- The retry after the refused write finds no retention row. It returns without an error and leaves
-- a row in the index whose entry is gone.
theorem prune_leaves_dangling_row :
    ∃ c, Reaches (storeSemantics (notePrune ["gs://registry"] "demo")) unguarded demoConfig c ∧
    c.prog none = .ret (.ok ()) ∧ (demoPlan .gitHub).entry.version ≠ "0.9.0" ∧
    ["gs://registry", "apps", "demo", "versions", "0.9.0.json"] ∈ c.mem.record.deleted ∧
    "0.9.0" ∈ listedVersions
      (c.mem.bucket.data? ["gs://registry", "apps", "demo", "index.json"]) "demo" := by
  have ⟨c, hr, hret, hdel, _, hl⟩ := demo_prune_reaches
  exact ⟨c, hr, Program.eq_ret_of_result? hret, by decide, hdel, hl⟩

end Demo
end Pruning
end AppRegistry
