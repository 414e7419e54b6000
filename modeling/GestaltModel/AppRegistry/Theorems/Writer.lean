import GestaltModel.AppRegistry.Writer
import GestaltModel.AppRegistry.Theorems.Catalog
import GestaltModel.AppRegistry.Theorems.CatalogCas

namespace AppRegistry

open Interleaving

namespace Publishing

-- The stored object is as good as the one that was to be uploaded.
def Matches (object : PublishObject) (b : Bucket StorageURL Document) : Prop :=
  ∃ o, b.objects object.storageURL = some o ∧ (o.sha256 = object.sha256 ∨
    ∃ e stored, object.document = .entry e ∧ o.data = .entry stored ∧
      EntriesEqualIgnoringPublishedAt e stored)

theorem entryFileEquivalent_eq_true
    (h : entryFileEquivalentIgnoringPublishedAt d existing = .ok true) :
    ∃ e stored, d = .entry e ∧ existing = some (.entry stored) ∧
      EntriesEqualIgnoringPublishedAt e stored := by
  have ⟨e, he, h⟩ := Except.bind_eq_ok_iff.mp h
  cases existing
  case none => cases h
  case some existing =>
    have ⟨stored, hs, h⟩ := Except.bind_eq_ok_iff.mp h
    have h := of_decide_eq_true (Except.ok.inj h)
    exact ⟨e, stored, decodeEntry_eq_ok (Except.context_eq_ok.mp he),
      congrArg some (decodeEntry_eq_ok (Except.context_eq_ok.mp hs)), h⟩

end Publishing

section Adopt

variable {rely guar : Memory Document γ → Memory Document γ → Prop}
variable {guard : ι → StoreCall Document → Memory Document γ → Prop}

theorem StoreReader.adoptStoredEntryPublishedAt (cl : StoreReader note i rely guar)
    {plan : PublishManifest digest root} {entryOutcome} {post}
    (uploaded : entryOutcome.outcome ≠ .skipped →
      Safe (storeSemantics note) guard inv i rely guar post (.ret (.ok plan.entry)) s)
    (absent : ∀ s', rely s s' → s'.bucket.objects plan.entryObject.storageURL = none →
      Safe (storeSemantics note) guard inv i rely guar post (.ret (.ok plan.entry)) s')
    (stored : ∀ s' e, rely s s' → inv s' →
      s'.bucket.data? plan.entryObject.storageURL = some (.entry e) →
      Safe (storeSemantics note) guard inv i rely guar post (.ret (.ok (if e.publishedAt = 0 then
        plan.entry else { plan.entry with publishedAt := e.publishedAt }))) s')
    (failed : ∀ s' e, Safe (storeSemantics note) guard inv i rely guar post (.ret (.error e)) s') :
    Safe (storeSemantics note) guard inv i rely guar post
      (Writer.adoptStoredEntryPublishedAt plan entryOutcome) s := by
  rw [Writer.adoptStoredEntryPublishedAt]
  split
  case isTrue hs => exact uploaded hs
  case isFalse =>
    rw [request_bind]
    refine cl.read (.describeObject _) fun s₁ o hr₁ _ => ?_
    cases o
    case some e => exact failed s₁ e
    case none =>
      dsimp only [StoreCall.exec, StoreCall.answer]
      split
      case isTrue hg => exact absent s₁ hr₁ (Bucket.generation_eq_zero.mp hg)
      case isFalse =>
        refine cl.readObject (fun s₂ e _ _ => failed s₂ e) ?_
        intro s₂ g existing hr₂ hi₂ hread
        cases existing
        case none => exact failed s₂ _
        case some document =>
          dsimp only
          split
          case h_1 => exact failed s₂ _
          case h_2 e he =>
            have hd := hread.data.trans (congrArg some (decodeEntry_eq_ok he))
            have h := stored s₂ e (cl.trans hr₁ hr₂) hi₂ hd
            split
            case isTrue hz  => rwa [if_pos hz] at h
            case isFalse hz => rwa [if_neg hz] at h

theorem StoreReader.adoptStoredEntryPublishedAt_eq (cl : StoreReader note i rely guar)
    {plan : PublishManifest digest root} {entryOutcome} :
    Safe (storeSemantics note) guard inv i rely guar
      (fun r _ => ∀ entry, r = .ok entry → ∃ t, entry = { plan.entry with publishedAt := t })
      (Writer.adoptStoredEntryPublishedAt plan entryOutcome) s := by
  refine cl.adoptStoredEntryPublishedAt ?_ ?_ ?_ ?_
  · exact fun _ _ _ _ _ h => ⟨_, (Except.ok.inj h).symm⟩
  · exact fun _ _ _ _ _ _ _ h => ⟨_, (Except.ok.inj h).symm⟩
  · intro _ e _ _ _ _ _ _ entry h
    rw [← Except.ok.inj h]
    split
    · exact ⟨_, rfl⟩
    · exact ⟨_, rfl⟩
  · exact fun _ _ _ _ _ _ h => nomatch h

end Adopt

section Upload

variable {inv : Memory Document γ → Prop}
variable {guard : ι → StoreCall Document → Memory Document γ → Prop}

theorem StoreReader.immutableObjectMatchesExisting (cl : StoreReader note i rely guar)
    (hk : ∀ {s s' : Memory Document γ} {o}, rely s s' →
      s.bucket.objects object.storageURL = some o → s'.bucket.objects object.storageURL = some o) :
    Safe (storeSemantics note) guard inv i rely guar
      (fun r s => r = .ok true → Publishing.Matches object s.bucket)
      (AppRegistry.immutableObjectMatchesExisting object) s := by
  rw [AppRegistry.immutableObjectMatchesExisting, request_bind]
  refine cl.read (.describeObject _) fun s₁ o _ _ => ?_
  cases o
  case some e => exact fun _ _ _ h => nomatch h
  case none =>
    dsimp only [StoreCall.exec, StoreCall.answer]
    split
    · exact fun _ _ _ h => nomatch h
    · split
      case isTrue hg hsha =>
        intro s₂ hr _ _
        have ⟨o, ho⟩ := Option.ne_none_iff_exists'.mp (mt Bucket.generation_eq_zero.mpr hg)
        refine ⟨o, hk hr ho, .inl ?_⟩
        simpa [ho] using hsha.right
      case isFalse =>
        split
        · refine cl.readObject (fun _ _ _ _ _ _ _ h => nomatch h) ?_
          intro s₂ g existing hr hi hread s₃ hr₃ _ he
          have ⟨e, stored, h₁, h₂, h₃⟩ := Publishing.entryFileEquivalent_eq_true he
          have ⟨o, ho, hd⟩ := Option.map_eq_some_iff.mp (hread.data.trans h₂)
          exact ⟨o, hk hr₃ ho, .inr ⟨e, stored, h₁, hd, h₃⟩⟩
        · exact fun _ _ _ h => nomatch h

-- The rule for uploads of immutable objects. The caller justifies that an absent one is created.
theorem StoreClient.uploadImmutableObjectIfNeeded (cl : StoreClient note i rely guar)
    (hk : ∀ {s s' : Memory Document γ} {o}, rely s s' →
      s.bucket.objects object.storageURL = some o → s'.bucket.objects object.storageURL = some o)
    (created : ∀ s, inv s → s.bucket.objects object.storageURL = none →
      inv (afterCreate note i object.storageURL object.document object.sha256 s) ∧
      guar s (afterCreate note i object.storageURL object.document object.sha256 s)) :
    Safe (storeSemantics note) guard inv i rely guar
      (fun r s => ∀ outcome, r = .ok outcome → Publishing.Matches object s.bucket ∧
        (outcome.outcome ≠ .skipped → s.bucket.data? object.storageURL = some object.document))
      (AppRegistry.uploadImmutableObjectIfNeeded object) s := by
  refine .bind cl.refl (cl.immutableObjectMatchesExisting hk) fun r s₁ _ hm => ?_
  have hskip : ∀ {s₂ s₃ : Memory Document γ}, rely s₂ s₃ → Publishing.Matches object s₂.bucket →
      ∀ outcome : ImmutableObjectOutcome,
        (.ok ⟨object.storageURL, .skipped⟩ : Except Failure ImmutableObjectOutcome) = .ok outcome →
        Publishing.Matches object s₃.bucket ∧ (outcome.outcome ≠ .skipped →
          s₃.bucket.data? object.storageURL = some object.document) := by
    rintro s₂ s₃ hr ⟨o, ho, hm⟩ outcome he
    cases he
    exact ⟨⟨o, hk hr ho, hm⟩, fun h => absurd rfl h⟩
  match r with
  | .error e => exact fun _ _ _ _ h => nomatch h
  | .ok true => exact fun _ hr _ => hskip hr (hm rfl)
  | .ok false =>
    dsimp only
    rw [request_bind]
    refine cl.writeImmutableObject (fun s₂ e _ _ => ?_) (fun s₂ _ hi hn => ?_)
    · dsimp only
      split
      · refine .bind cl.refl (cl.immutableObjectMatchesExisting hk) fun r s₃ _ hm => ?_
        match r with
        | .error e  => exact fun _ _ _ _ h => nomatch h
        | .ok false => exact fun _ _ _ _ h => nomatch h
        | .ok true  => exact fun _ hr _ => hskip hr (hm rfl)
      · exact fun _ _ _ _ h => nomatch h
    · refine ⟨(created s₂ hi hn).left, (created s₂ hi hn).right, ?_⟩
      intro s₃ hr _ outcome _
      have ho := hk hr Bucket.store_objects_self
      exact ⟨⟨_, ho, .inl rfl⟩, fun _ => by rw [Bucket.data?, ho]; rfl⟩

end Upload

namespace Publishing

variable {digest : Document → String} {root url : StorageURL} {ι : Type}

section Paths

theorem trimSuffix_append (root suffix : List String) : trimSuffix (root ++ suffix) suffix = root := by
  simp [trimSuffix]

@[simp]
theorem retentionStorageURL_indexURL (plan : PublishManifest digest root) :
    retentionStorageURL plan.indexURL plan.appName =
      storageURL root (appRetentionPath plan.appName) := by
  simp [retentionStorageURL, PublishManifest.indexURL, storageURL, trimSuffix_append]

theorem Immutable.ne_index (h : Immutable root url) :
    storageURL root (appIndexPath appName) ≠ url := by
  rcases h with ⟨_, _, rfl | ⟨_, rfl⟩⟩ <;>
    simp [storageURL, appIndexPath, appVersionEntryPath, appArtifactPrefix]

theorem Immutable.ne_retention (h : Immutable root url) :
    storageURL root (appRetentionPath appName) ≠ url := by
  rcases h with ⟨_, _, rfl | ⟨_, rfl⟩⟩ <;>
    simp [storageURL, appRetentionPath, appVersionEntryPath, appArtifactPrefix]

theorem index_ne_retention :
    storageURL root (appIndexPath appName) ≠ storageURL root (appRetentionPath a) := by
  simp [storageURL, appIndexPath, appRetentionPath]

theorem indexURL_inj :
    storageURL root (appIndexPath appName) = storageURL root (appIndexPath a) ↔ appName = a := by
  simp [storageURL, appIndexPath]

theorem retentionURL_inj :
    storageURL root (appRetentionPath appName) = storageURL root (appRetentionPath a) ↔
    appName = a := by
  simp [storageURL, appRetentionPath]

theorem entryObject_immutable (plan : PublishManifest digest root) :
    Immutable root plan.entryObject.storageURL :=
  ⟨_, _, .inl rfl⟩

theorem artifactObject_immutable (plan : PublishManifest digest root) (a : LocalPublishArtifact) :
    Immutable root (plan.artifactObject a).storageURL :=
  ⟨_, _, .inr ⟨_, rfl⟩⟩

end Paths

-- Publishers keep immutable objects, rows of an index and the versions of a retention catalog.
structure Grows (root : StorageURL) (b₁ b₂ : Bucket StorageURL Document) : Prop where
  later : b₁.Later b₂
  immutable : ∀ {url o}, Immutable root url → b₁.objects url = some o → b₂.objects url = some o
  rows : ∀ {appName a v row},
    (listedVersions (b₁.data? (storageURL root (appIndexPath appName))) a).lookup v = some row →
    (listedVersions (b₂.data? (storageURL root (appIndexPath appName))) a).lookup v = some row
  retention : ∀ {appName v},
    v ∈ retentionVersions (b₁.data? (storageURL root (appRetentionPath appName))) →
    v ∈ retentionVersions (b₂.data? (storageURL root (appRetentionPath appName)))

namespace Grows

theorem refl (b : Bucket StorageURL Document) : Grows root b b where
  later := .refl b
  immutable _ h := h
  rows h        := h
  retention h   := h

theorem trans (h₁ : Grows root b₁ b₂) (h₂ : Grows root b₂ b₃) : Grows root b₁ b₃ where
  later := h₁.later.trans h₂.later
  immutable hu h := h₂.immutable hu (h₁.immutable hu h)
  rows h         := h₂.rows (h₁.rows h)
  retention h    := h₂.retention (h₁.retention h)

theorem create (hu : Immutable root url) (hn : b.objects url = none) (d sha256) :
    Grows root b (b.store url d sha256) where
  later := .store ..
  immutable {url' o} _ h := by
    by_cases he : url' = url
    case pos => simp [he, hn] at h
    case neg => rwa [Bucket.store_objects_of_ne he]
  rows h      := by rwa [Bucket.data?_store_of_ne hu.ne_index]
  retention h := by rwa [Bucket.data?_store_of_ne hu.ne_retention]

theorem replaceRetention
    (h : ∀ v, v ∈ retentionVersions (b.data? (storageURL root (appRetentionPath appName))) →
      v ∈ index.versions) :
    Grows root b (b.store (storageURL root (appRetentionPath appName)) (.retention index) "") where
  later := .store ..
  immutable hu h := by rwa [Bucket.store_objects_of_ne hu.ne_retention.symm]
  rows h         := by rwa [Bucket.data?_store_of_ne index_ne_retention]
  retention {a v} hv := by
    by_cases ha : a = appName
    case pos =>
      subst ha
      simpa [retentionVersions] using h v hv
    case neg => rwa [Bucket.data?_store_of_ne (mt retentionURL_inj.mp ha)]

theorem replaceIndex (h : ∀ a v row,
      (listedVersions (b.data? (storageURL root (appIndexPath appName))) a).lookup v = some row →
      (index.versions a).lookup v = some row) :
    Grows root b (b.store (storageURL root (appIndexPath appName)) (.index index) "") where
  later := .store ..
  immutable hu h := by rwa [Bucket.store_objects_of_ne hu.ne_index.symm]
  rows {a _ _ _} hv := by
    by_cases ha : a = appName
    case pos =>
      subst ha
      simpa [listedVersions] using h _ _ _ hv
    case neg => rwa [Bucket.data?_store_of_ne (mt indexURL_inj.mp ha)]
  retention h := by rwa [Bucket.data?_store_of_ne index_ne_retention.symm]

theorem upsertIndex (h : ∀ a v, (index.versions a).lookup v =
      if a = appName ∧ v = version then
        some (((listedVersions (b.data? (storageURL root (appIndexPath appName))) a).lookup v).getD row)
      else
        (listedVersions (b.data? (storageURL root (appIndexPath appName))) a).lookup v) :
    Grows root b (b.store (storageURL root (appIndexPath appName)) (.index index) "") := by
  refine .replaceIndex fun a v row' hrow => ?_
  rw [h, hrow]
  split <;> rfl

end Grows

section Backed

variable {plan : PublishManifest digest root}

theorem recorded_immutable (plan : PublishManifest digest root)
    (h : plan.entry.artifacts.lookup target = some artifact) : Immutable root artifact.url := by
  have ⟨_, _, _, hu⟩ := plan.recorded h
  exact ⟨_, _, .inr ⟨_, hu⟩⟩

theorem Grows.data? (hg : Grows root b₁ b₂) (hu : Immutable root url) {d}
    (h : b₁.data? url = some d) : b₂.data? url = some d := by
  have ⟨o, ho, hd⟩ := Option.map_eq_some_iff.mp h
  simp [Bucket.data?, hg.immutable hu ho, hd]

theorem Backed.mono (h : Backed plan appName v row b₁) (hg : Grows root b₁ b₂) :
    Backed plan appName v row b₂ where
  app := h.app
  version := h.version
  metadata := h.metadata
  retention := hg.retention h.retention
  entry := by
    have ⟨stored, hs, he, ha⟩ := h.entry
    refine ⟨stored, hg.data? (h.metadata ▸ ⟨_, _, .inl rfl⟩) hs, he, fun target artifact ht => ?_⟩
    have ⟨o, ho, hd⟩ := ha target artifact ht
    have hu := recorded_immutable plan (he.artifacts_eq ▸ ht)
    exact ⟨o, hg.immutable hu ho, hd⟩

end Backed

structure Safety (plans : ι → PublishManifest digest root) (s : Memory Document (Listings ι)) :
    Prop where
  objects : ∀ {url o}, Immutable root url → s.bucket.objects url = some o →
    o.sha256 = digest o.data ∧ Planned plans o.data
  listed : ∀ {appName a v row},
    (listedVersions (s.bucket.data? (storageURL root (appIndexPath appName))) a).lookup v =
      some row →
    a = appName ∧ ∃ i, s.record appName v = some i ∧ Backed (plans i) appName v row s.bucket

namespace Safety

variable {plans : ι → PublishManifest digest root}

-- A step that adds no rows to an index only has to care about the immutable objects.
theorem grow (h : Safety plans s) (hg : Grows root s.bucket s'.bucket) (hr : s'.record = s.record)
    (ho : ∀ {url o}, Immutable root url → s'.bucket.objects url = some o →
      o.sha256 = digest o.data ∧ Planned plans o.data)
    (hl : ∀ {appName},
      s'.bucket.data? (storageURL root (appIndexPath appName)) =
      s.bucket.data? (storageURL root (appIndexPath appName))) : Safety plans s' where
  objects := ho
  listed hrow := by
    rw [hl] at hrow
    have ⟨ha, i, hi, hb⟩ := h.listed hrow
    exact ⟨ha, i, hr ▸ hi, hb.mono hg⟩

end Safety

section Clients

variable {plans : ι → PublishManifest digest root}

abbrev rely (root : StorageURL) (s s' : Memory Document (Listings ι)) : Prop :=
  Grows root s.bucket s'.bucket

theorem client (i : ι) : StoreClient (noteListing root) i (rely root) (rely root) where
  reads _ _ _ _ h := by cases h <;> rfl
  writes := { catalog := fun _ _ _ _ _ _ => rfl, immutable := fun _ _ _ _ _ _ => rfl }
  refl _          := .refl _
  trans := .trans
  later h         := h.later
  idle _          := .refl _

theorem compatible : Compatible (storeSemantics (noteListing root)) (Safety plans)
    (fun _ => rely root) (fun _ => rely root) where
  refl _ _          := .refl _
  trans _           := .trans
  interfere _ _ _ h := h
  env_inv a         := a.elim
  env_rely a        := a.elim

theorem Matches.mono (hu : Immutable root object.storageURL)
    (h : Matches object b₁) (hg : Grows root b₁ b₂) : Matches object b₂ := by
  have ⟨o, ho, hm⟩ := h
  exact ⟨o, hg.immutable hu ho, hm⟩

variable {guard : ι → StoreCall Document → Memory Document (Listings ι) → Prop}

theorem uploadImmutableObjectIfNeeded_safe (hu : Immutable root object.storageURL)
    (hd : object.sha256 = digest object.document ∧ Planned plans object.document) :
    Safe (storeSemantics (noteListing root)) guard (Safety plans) i (rely root) (rely root)
      (fun r s => ∀ outcome, r = .ok outcome → Matches object s.bucket)
      (uploadImmutableObjectIfNeeded object) s := by
  refine ((client i).uploadImmutableObjectIfNeeded (fun hr => hr.immutable hu) ?_).mono
    fun _ _ _ h outcome hr => (h outcome hr).left
  intro s hi hn
  have hg := Grows.create hu hn object.document object.sha256
  refine ⟨hi.grow hg rfl (fun {url o} hu' ho => ?_) ?_, hg⟩
  · by_cases he : url = object.storageURL
    case pos =>
      subst he
      simp only [afterCreate, Bucket.store_objects_self, Option.some.injEq] at ho
      exact ho ▸ hd
    case neg => exact hi.objects hu' (Bucket.store_objects_of_ne he ▸ ho)
  · exact Bucket.data?_store_of_ne hu.ne_index

-- What a growing store keeps can be carried across any part of a publication.
theorem framed {p : RegistryProgram α} {F : Bucket StorageURL Document → Prop}
    (hF : ∀ {b₁ b₂}, F b₁ → Grows root b₁ b₂ → F b₂)
    (h : Safe (storeSemantics (noteListing root)) guard (Safety plans) i (rely root) (rely root)
      post p s) (hs : F s.bucket) :
    Safe (storeSemantics (noteListing root)) guard (Safety plans) i (rely root) (rely root)
      (fun r s => post r s ∧ F s.bucket) p s :=
  h.frame (F := fun (s : Memory Document (Listings ι)) => F s.bucket) (fun h hr _ => hF h hr)
    (fun h hr _ => hF h hr) hs

theorem uploadArtifacts_safe {done} (h : ∀ object ∈ objects, Immutable root object.storageURL ∧
      object.sha256 = digest object.document ∧ Planned plans object.document) :
    Safe (storeSemantics (noteListing root)) guard (Safety plans) i (rely root) (rely root)
      (fun r s => r.2 = none → ∀ object ∈ objects, Matches object s.bucket)
      (uploadArtifacts done objects) s := by
  induction objects generalizing done s
  case nil => exact fun _ _ _ _ _ h => nomatch h
  case cons object objects hi =>
    have ⟨hu, hd⟩ := h object List.mem_cons_self
    refine .bind (.refl <| ·.bucket) (uploadImmutableObjectIfNeeded_safe hu hd) ?_
    intro r s₁ _ hm
    match r with
    | .error e    => exact fun _ _ _ h => nomatch h
    | .ok outcome =>
      have hos := fun o ho => h o (List.mem_cons_of_mem _ ho)
      refine (framed (.mono hu · ·) (hi hos) (hm _ rfl)).mono fun r s₂ _ hm hr o ho => ?_
      cases List.mem_cons.mp ho
      case inl he => exact he ▸ hm.right
      case inr ho => exact hm.left hr o ho

theorem afterRetentionWrite_record :
    (afterCatalogWrite (noteListing root) i (storageURL root (appRetentionPath appName)) d g
      s).record = s.record := by
  funext a v
  simp [afterCatalogWrite, noteListing, index_ne_retention.symm]

theorem uploadRetention_safe {w : Writer} {plan : PublishManifest digest root}
    (hi : Safety plans s) :
    Safe (storeSemantics (noteListing root)) guard (Safety plans) i (rely root) (rely root)
      (fun r s => ∀ outcome, r = .ok outcome → plan.entry.version ∈
        retentionVersions (s.bucket.data? (storageURL root (appRetentionPath plan.appName))))
      (w.uploadRetention plan publishedAt) s := by
  rw [Writer.uploadRetention, retentionStorageURL_indexURL]
  refine (client i).compareAndSwapCatalog (P := fun _ => True) ?_ ?_ ?_ ?_ trivial hi
  · exact fun _ _ _ => trivial
  · intro s g data _ hi _ _ hu
    obtain ⟨index, index', hd, hm, he⟩ := catalogUpdate_eq_some.mp hu
    have hv := decodeRetentionIndexOrEmpty_eq_ok hd
    have hm : _ = index' := congrArg Prod.fst (Except.ok.inj hm)
    cases he
    have hg : rely root s (afterCatalogWrite (noteListing root) i _ (.retention index') g s) :=
      .replaceRetention fun v h => hm ▸ upsertPublishedRetention_mem_of_mem (hv ▸ h)
    refine ⟨hi.grow hg afterRetentionWrite_record (fun hu' ho => ?_) ?_, hg, fun s₁ hr _ _ _ => ?_⟩
    · exact hi.objects hu' (Bucket.store_objects_of_ne hu'.ne_retention.symm ▸ ho)
    · exact Bucket.data?_store_of_ne index_ne_retention
    · refine hr.retention ?_
      rw [afterCatalogWrite, Bucket.data?_store_self, plan.version_eq]
      exact hm ▸ upsertPublishedRetention_mem
  · intro s _ hi hu s₁ hr _ _ _
    obtain ⟨index, index', hd, hm⟩ := catalogUpdate_eq_none.mp hu
    have hm := Except.ok.inj hm
    have hu := upsertPublishedRetention_unchanged (congrArg Prod.snd hm)
    refine hr.retention ?_
    rw [← decodeRetentionIndexOrEmpty_eq_ok hd, plan.version_eq, ← hu]
    exact upsertPublishedRetention_mem
  · exact fun _ _ _ _ _ _ _ _ h => by cases h

-- Before a publisher updates the index, everything that the new row refers to is in the store.
structure Ready (plan : PublishManifest digest root) (b : Bucket StorageURL Document) : Prop where
  artifacts : ∀ object ∈ plan.artifactObjects, Matches object b
  entry : Matches plan.entryObject b
  retention : plan.entry.version ∈
    retentionVersions (b.data? (storageURL root (appRetentionPath plan.appName)))

theorem artifactObjects_immutable (plan : PublishManifest digest root) :
    ∀ object ∈ plan.artifactObjects, Immutable root object.storageURL := by
  intro object ho
  have ⟨a, _, ha⟩ := List.mem_map.mp ho
  exact ha ▸ artifactObject_immutable plan a

theorem artifactObjects_planned (plans : ι → PublishManifest digest root) (i : ι) :
    ∀ object ∈ (plans i).artifactObjects, Immutable root object.storageURL ∧
      object.sha256 = digest object.document ∧ Planned plans object.document := by
  intro object ho
  have ⟨a, hm, ha⟩ := List.mem_map.mp ho
  exact ⟨artifactObjects_immutable (plans i) object ho, ha ▸ ⟨rfl, i, .inr ⟨a, hm, rfl⟩⟩⟩

theorem Ready.mono {plan : PublishManifest digest root} (h : Ready plan b₁)
    (hg : Grows root b₁ b₂) : Ready plan b₂ where
  artifacts o ho := (h.artifacts o ho).mono (artifactObjects_immutable plan o ho) hg
  entry := h.entry.mono (entryObject_immutable plan) hg
  retention := hg.retention h.retention

theorem Ready.backed (inj : Set.InjOn digest {d | Planned plans d})
    (hi : Safety plans s) (h : Ready (plans i) s.bucket)
    (hm : row.metadata = appVersionEntryPath (plans i).appName (plans i).version) :
    Backed (plans i) (plans i).appName (plans i).entry.version row s.bucket where
  app := rfl
  version := rfl
  metadata := hm
  retention := h.retention
  entry := by
    obtain ⟨o, ho, hmatch⟩ := h.entry
    -- An equal digest means an equal entry.
    obtain ⟨stored, hs, he⟩ : ∃ stored, o.data = .entry stored ∧
        EntriesEqualIgnoringPublishedAt (plans i).entry stored := by
      rcases hmatch with hsha | ⟨e, stored, h₁, h₂, h₃⟩
      case inl =>
        obtain ⟨hd, hp⟩ := hi.objects (entryObject_immutable (plans i)) ho
        exact ⟨(plans i).entry, inj hp ⟨i, .inl rfl⟩ (hd.symm.trans hsha), rfl⟩
      case inr =>
        cases h₁
        exact ⟨stored, h₂, h₃⟩
    refine ⟨stored, ?_, he, fun target artifact ht => ?_⟩
    · rw [hm, Bucket.data?]
      exact Option.map_eq_some_iff.mpr ⟨o, ho, hs⟩
    · obtain ⟨a, ha, hsha, hurl⟩ := (plans i).recorded (he.artifacts_eq ▸ ht)
      obtain ⟨o, ho, hmatch⟩ := h.artifacts _ (List.mem_map_of_mem ha)
      obtain ⟨hd, _⟩ := hi.objects (artifactObject_immutable (plans i) a) ho
      rcases hmatch with hm | ⟨_, _, h, _⟩
      case inl => exact ⟨o, hurl ▸ ho, hm.trans hsha.symm, hd.symm.trans (hm.trans hsha.symm)⟩
      case inr => cases h

section IndexWrite

theorem afterIndexWrite_record_of_mem
    (h : v ∈ listedVersions (s.bucket.data? (storageURL root (appIndexPath appName))) appName) :
    (afterCatalogWrite (noteListing root) i (storageURL root (appIndexPath a)) d g s).record
      appName v = s.record appName v := by
  simp only [afterCatalogWrite, noteListing]
  split
  case isTrue hn => exact absurd (hn.left ▸ h) hn.right.right
  case isFalse => rfl

theorem afterIndexWrite_record_of_not_mem (hd : v ∈ listedVersions (some d) appName)
    (h : v ∉ listedVersions (s.bucket.data? (storageURL root (appIndexPath appName))) appName) :
    (afterCatalogWrite (noteListing root) i (storageURL root (appIndexPath appName)) d g s).record
      appName v = some i := by
  simp [afterCatalogWrite, noteListing, hd, h]

theorem Safety.listed_of_old (hi : Safety plans s) (hg : rely root s
      (afterCatalogWrite (noteListing root) i (storageURL root (appIndexPath app')) d g s))
    (h : (listedVersions (s.bucket.data? (storageURL root (appIndexPath appName))) a).lookup v =
      some row) :
    a = appName ∧ ∃ j,
      (afterCatalogWrite (noteListing root) i (storageURL root (appIndexPath app')) d g s).record
        appName v = some j ∧
      Backed (plans j) appName v row (s.bucket.store (storageURL root (appIndexPath app')) d "") := by
  have ⟨ha, j, hj, hb⟩ := hi.listed h
  subst ha
  have hm := Finmap.mem_of_lookup_eq_some h
  exact ⟨rfl, j, (afterIndexWrite_record_of_mem hm).trans hj, hb.mono hg⟩

-- The write of an index that has the old rows and possibly one for the version of the publisher.
theorem Safety.afterIndexWrite (inj : Set.InjOn digest {d | Planned plans d}) (hi : Safety plans s)
    (hr : Ready (plans i) s.bucket)
    (hnew : new.metadata = appVersionEntryPath (plans i).appName (plans i).version)
    (hl : ∀ a v, (index'.versions a).lookup v =
      if a = (plans i).appName ∧ v = (plans i).entry.version then
        some (((listedVersions (s.bucket.data? (plans i).indexURL) a).lookup v).getD new)
      else
        (listedVersions (s.bucket.data? (plans i).indexURL) a).lookup v) :
    Safety plans (afterCatalogWrite (noteListing root) i (plans i).indexURL (.index index') g s) ∧
    rely root s (afterCatalogWrite (noteListing root) i (plans i).indexURL (.index index') g s) := by
  have hg : rely root s
      (afterCatalogWrite (noteListing root) i (plans i).indexURL (.index index') g s) :=
    .upsertIndex hl
  refine ⟨⟨fun hu ho => ?_, fun {appName a v row} h => ?_⟩, hg⟩
  case _ => exact hi.objects hu (Bucket.store_objects_of_ne hu.ne_index.symm ▸ ho)
  case _ =>
    by_cases happ : appName = (plans i).appName
    case neg =>
      have hne : storageURL root _ ≠ storageURL root _ := mt indexURL_inj.mp happ
      simp only [afterCatalogWrite, PublishManifest.indexURL, Bucket.data?_store_of_ne hne] at h
      exact hi.listed_of_old hg h
    case pos =>
      subst happ
      have h : (index'.versions a).lookup v = some row := by
        simpa [afterCatalogWrite, PublishManifest.indexURL, listedVersions] using h
      rw [hl] at h
      split at h
      case isFalse => exact hi.listed_of_old hg h
      case isTrue hav =>
        cases ho : (listedVersions (s.bucket.data? (plans i).indexURL) a).lookup v
        case some row' =>
          rw [ho] at h
          exact hi.listed_of_old hg (ho.trans h)
        case none =>
          obtain ⟨rfl, rfl⟩ := hav
          have hrow : new = row := by simpa [ho] using h
          have hm : (plans i).entry.version ∈
              listedVersions (some (.index index')) (plans i).appName := by
            rw [← Finmap.lookup_isSome, listedVersions, hl]
            simp
          refine ⟨rfl, i, afterIndexWrite_record_of_not_mem hm (Finmap.lookup_eq_none.mp ho), ?_⟩
          exact (hr.backed inj hi (hrow ▸ hnew)).mono hg

end IndexWrite

theorem uploadIndex_safe {w : Writer} (inj : Set.InjOn digest {d | Planned plans d})
    (he : entry = { (plans i).entry with publishedAt := t }) (hr : Ready (plans i) s.bucket)
    (hi : Safety plans s) :
    Safe (storeSemantics (noteListing root)) guard (Safety plans) i (rely root) (rely root)
      (fun _ _ => True) (w.uploadIndex (plans i) entry) s := by
  refine (client i).compareAndSwapCatalog (P := fun s => Ready (plans i) s.bucket)
    (fun h hr _ => h.mono hr) ?_ (fun _ _ _ _ => .done) (fun _ _ _ _ => .done) hr hi
  intro s g data hr hi _ _ hu
  have ⟨index, index', hd, hm, hdata⟩ := catalogUpdate_eq_some.mp hu
  cases hdata
  have happ : Text.trimSpace entry.app = (plans i).appName := by
    rw [he]
    exact (congrArg Text.trimSpace (plans i).app_eq).trans (plans i).app_trimmed
  have hl := upsertAppIndex_lookup hm
  simp only [happ, decodeIndexOrEmpty_eq_ok hd] at hl
  have ⟨h₁, h₂⟩ := Safety.afterIndexWrite (g := g) inj hi hr rfl (he ▸ hl)
  exact ⟨h₁, h₂, .done⟩

theorem publish_safe {w : Writer} (inj : Set.InjOn digest {d | Planned plans d}) :
    Safe (storeSemantics (noteListing root)) guard (Safety plans) i (rely root) (rely root)
      (fun _ _ => True) (w.publish (plans i)) s := by
  have refl (s : Memory Document (Listings ι)) : rely root s s := .refl _
  have him := artifactObjects_planned plans i
  refine .bind refl (uploadArtifacts_safe him) fun ⟨artifacts, failed⟩ s₁ _ ha => ?_
  cases failed
  case some => exact .done
  case none =>
    have hF {b₁ b₂} (h : ∀ o ∈ (plans i).artifactObjects, Matches o b₁) (hg : Grows root b₁ b₂) :
        ∀ o ∈ (plans i).artifactObjects, Matches o b₂ :=
      fun o ho => (h o ho).mono (him o ho).left hg
    have hu := entryObject_immutable (plans i)
    have hp : Planned plans (plans i).entryObject.document := ⟨i, .inl rfl⟩
    refine .bind_ok refl (framed hF (uploadImmutableObjectIfNeeded_safe hu ⟨rfl, hp⟩) (ha rfl))
      (fun _ _ => .done) fun outcome s₂ _ ⟨he, ha⟩ => ?_
    have he := he _ rfl
    refine .bind_ok refl (framed (.mono hu · ·)
      (framed hF (client i).adoptStoredEntryPublishedAt_eq ha) he) (fun _ _ => .done) ?_
    intro entry s₃ hi ⟨⟨ht, ha⟩, he⟩
    have ⟨t, ht⟩ := ht _ rfl
    refine .bind_ok refl (framed (.mono hu · ·) (framed hF (uploadRetention_safe hi) ha) he)
      (fun _ _ => .done) fun retention s₄ hi ⟨⟨hv, ha⟩, he⟩ => ?_
    exact .bind_ok refl (uploadIndex_safe inj ht ⟨ha, he, hv _ rfl⟩ hi) (fun _ _ => .done)
      fun _ _ _ _ => .done

end Clients

theorem Safety.initial :
    Safety plans { bucket := ∅, record := fun _ _ => none } where
  objects _ h := nomatch h
  listed h    := nomatch h

theorem sound {plans : ι → PublishManifest digest root} (writers : ι → Writer)
    (inj : Set.InjOn digest {d | Planned plans d}) :
    Sound (storeSemantics (noteListing root)) unguarded (Safety plans) (fun _ => rely root)
      (fun _ => rely root) (fun _ _ _ => True) (config writers plans) where
  holds := .initial
  safe _ := publish_safe inj

-- Each row of an index is backed by the store, and the immutable objects and rows stay the same.
theorem publish_safety [DecidableEq ι] {plans : ι → PublishManifest digest root}
    {writers : ι → Writer} (inj : Set.InjOn digest {d | Planned plans d}) {c c'}
    (h : Reaches (storeSemantics (noteListing root)) unguarded (config writers plans) c)
    (h' : Reaches (storeSemantics (noteListing root)) unguarded c c') :
    (∀ appName a v row,
      (listedVersions (c.mem.bucket.data? (storageURL root (appIndexPath appName))) a).lookup v =
        some row →
      a = appName ∧ ∃ i, c.mem.record appName v = some i ∧
        Backed (plans i) appName v row c.mem.bucket) ∧
    (∀ url o, Immutable root url →
      c.mem.bucket.objects url = some o → c'.mem.bucket.objects url = some o) ∧
    (∀ appName a v row,
      (listedVersions (c.mem.bucket.data? (storageURL root (appIndexPath appName))) a).lookup v =
        some row →
      (listedVersions (c'.mem.bucket.data? (storageURL root (appIndexPath appName))) a).lookup v =
        some row) := by
  have hs := (sound writers inj).reaches compatible h
  have hg : rely root c.mem c'.mem :=
    hs.related compatible (fun _ => .refl _) .trans (fun _ _ h => h) nofun h'
  exact ⟨fun _ _ _ _ => hs.holds.listed, fun _ _ => hg.immutable, fun _ _ _ _ => hg.rows⟩

def demoDigest : Document → String
  | .archive bytes => "archive " ++ bytes
  | .entry entry => "entry " ++ if entry.publicationKind = .unset then "" else "github"
  | _ => ""

def demoEntry (kind : PublicationKind) : Entry where
  schemaVersion := 1
  app := "demo"
  version := "1.0.0"
  sourceRef := "0123456789abcdef0123456789abcdef01234567"
  manifestPath := "apps/demo/manifest.yaml"
  repository := "github.com/acme/tools"
  publicationKind := kind
  artifacts := Finmap.singleton "linux/amd64" {
    url       := ["gs://registry", "apps", "demo", "artifacts", "1.0.0", "demo.tar.gz"]
    publicURL := "https://registry/apps/demo/artifacts/1.0.0/demo.tar.gz"
    sha256    := "archive bytes" }
  publishedAt := 1

def demoPlan (kind : PublicationKind) : PublishManifest demoDigest ["gs://registry"] where
  appName := "demo"
  displayName := "Demo"
  description := ""
  version := "1.0.0"
  entry := demoEntry kind
  artifacts := [⟨"demo.tar.gz", "bytes"⟩]
  app_trimmed := by decide +kernel
  app_eq := rfl
  version_eq := show "1.0.0" = _ by decide +kernel
  recorded {target artifact} h := by
    have ht := (Finmap.mem_singleton _ _ _).mp (Finmap.mem_of_lookup_eq_some h)
    subst ht
    have ha := Option.some.inj ((Finmap.lookup_singleton_eq).symm.trans h)
    exact ⟨_, List.mem_singleton_self _, ha ▸ rfl, ha ▸ rfl⟩

-- The first publisher leaves the publication kind open, and the second one says that it is `github`.
def demoPlans (second : Bool) : PublishManifest demoDigest ["gs://registry"] :=
  demoPlan (if second then .gitHub else .unset)

-- The first publisher uploads the artifact and the entry, and the second one does the rest.
def demoEvents : List (Event (storeSemantics (noteListing (ι := Bool) ["gs://registry"]))) :=
  List.replicate 4 (.call false none) ++ List.replicate 11 (.call true none)

def demoRow : IndexVersion :=
  indexVersionFromEntry (demoEntry .gitHub) (appVersionEntryPath "demo" "1.0.0")

theorem demo_reaches : ∃ c, Reaches (storeSemantics (noteListing ["gs://registry"])) unguarded
    (config (fun _ => {}) demoPlans) c ∧
    (listedVersions (c.mem.bucket.data? ["gs://registry", "apps", "demo", "index.json"])
      "demo").lookup "1.0.0" = some demoRow ∧
    c.mem.record "demo" "1.0.0" = some true ∧
    c.mem.bucket.data? (storageURL ["gs://registry"] demoRow.metadata) =
      some (.entry (demoEntry .unset)) :=
  Config.exists_reaches_of_run demoEvents (by decide +kernel)

theorem demo_injOn : Set.InjOn demoDigest {d | Planned demoPlans d} := by
  intro d₁ ⟨i, h₁⟩ d₂ ⟨j, h₂⟩ h
  have archive {k : Bool} {a} (ha : a ∈ (demoPlans k).artifacts) : a = ⟨"demo.tar.gz", "bytes"⟩ :=
    List.mem_singleton.mp ha
  rcases h₁ with rfl | ⟨a, ha, rfl⟩ <;> rcases h₂ with rfl | ⟨a', ha', rfl⟩
  case inl.inl =>
    revert i j
    decide +kernel
  case inl.inr =>
    rw [archive ha'] at h ⊢
    revert i
    decide +kernel
  case inr.inl =>
    rw [archive ha] at h ⊢
    revert j
    decide +kernel
  case inr.inr => rw [archive ha, archive ha']

theorem publish_safety_demo : ∃ c, Reaches (storeSemantics (noteListing ["gs://registry"])) unguarded
    (config (fun _ => {}) demoPlans) c ∧
    Backed (demoPlans true) "demo" "1.0.0" demoRow c.mem.bucket := by
  have ⟨c, hr, hl, hi, _⟩ := demo_reaches
  have ⟨_, j, hj, hb⟩ := (publish_safety demo_injOn hr .refl).left "demo" "demo" "1.0.0" demoRow hl
  have he : j = true := Option.some.inj (hj.symm.trans hi)
  exact ⟨c, hr, he ▸ hb⟩

-- The stored entry is not the one of the publisher that listed the version, even up to times.
theorem publish_kind_differs : ∃ c, Reaches (storeSemantics (noteListing ["gs://registry"]))
    unguarded (config (fun _ => {}) demoPlans) c ∧
    (listedVersions (c.mem.bucket.data? ["gs://registry", "apps", "demo", "index.json"])
      "demo").lookup "1.0.0" = some demoRow ∧
    c.mem.record "demo" "1.0.0" = some true ∧
    ∃ stored, c.mem.bucket.data? (storageURL ["gs://registry"] demoRow.metadata) =
      some (.entry stored) ∧
    { stored with publishedAt := 0, publishStartedAt := none } ≠
      { (demoPlans true).entry with publishedAt := 0, publishStartedAt := none } := by
  have ⟨c, hr, hl, hi, hd⟩ := demo_reaches
  exact ⟨c, hr, hl, hi, demoEntry .unset, hd, by decide +kernel⟩

end Publishing
end AppRegistry
