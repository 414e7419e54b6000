import GestaltModel.AppRegistry.PublishedLoad
import GestaltModel.AppRegistry.Theorems.Writer

namespace AppRegistry

open Interleaving Publishing
open Text (trimSpace)

namespace Republish

open Publishing (Grows Immutable)

variable {digest : Document → String} {root : StorageURL} {ι : Type}
variable {plans : ι → BuiltManifest digest root} {appName version : String}

theorem indexVersionFromEntry_adopted (path : List String)
    (he : { entry with publishedAt := 0, publishStartedAt := none } =
      { stored with publishedAt := 0, publishStartedAt := none })
    (hs : startedAt stored = startedAt entry) :
    indexVersionFromEntry { entry with publishedAt := stored.publishedAt } path =
      indexVersionFromEntry stored path := by
  cases entry
  cases stored
  simp only [Entry.mk.injEq] at he
  simp only [startedAt] at hs
  simp only [indexVersionFromEntry, hs, he]

section Paths

theorem entryURL_immutable : Immutable root (entryURL root appName version) :=
  ⟨_, _, .inl rfl⟩

theorem entryURL_ne_indexURL : entryURL root appName version ≠ indexURL root a :=
  entryURL_immutable.ne_index.symm

theorem artifactObject_ne_entryURL (plan : PublishManifest digest root) (a : LocalPublishArtifact) :
    (plan.artifactObject a).storageURL ≠ entryURL root appName version := by
  simp [PublishManifest.artifactObject, entryURL, storageURL, appArtifactPrefix, appVersionEntryPath]

namespace SameVersion

variable (hv : SameVersion plans appName version) (i : ι)
include hv i

theorem entryObject_storageURL :
    (plans i).entryObject.storageURL = entryURL root appName version := by
  simp [PublishManifest.entryObject, entryURL, hv.app, hv.version]

theorem indexURL_eq : (plans i).indexURL = indexURL root appName := by
  simp [PublishManifest.indexURL, indexURL, hv.app]

theorem entry_version : (plans i).entry.version = trimSpace version :=
  hv.version i ▸ (plans i).version_eq

theorem trimmed : trimSpace appName = appName := by
  rw [← hv.app i]
  exact (plans i).app_trimmed

end SameVersion
end Paths

variable {i : ι} {s s' : Memory Document Unit}

abbrev rely (root : StorageURL) (s s' : Memory Document Unit) : Prop :=
  Grows root s.bucket s'.bucket

theorem client (i : ι) : StoreClient noteNothing i (rely root) (rely root) where
  reads _ _ _ _ _ := rfl
  writes := { catalog := fun _ _ _ _ _ _ => rfl, immutable := fun _ _ _ _ _ _ => rfl }
  refl _          := .refl _
  trans := .trans
  later h         := h.later
  idle _          := .refl _

-- The stored entry is the one of some run, and the row of the version belongs to it.
structure Consistent (plans : ι → BuiltManifest digest root) (appName version : String)
    (s : Memory Document Unit) : Prop where
  entry : ∀ {o}, s.bucket.objects (entryURL root appName version) = some o →
    ∃ j, o.data = .entry (plans j).entry
  index : ∀ {row},
    (listedVersions (s.bucket.data? (indexURL root appName)) appName).lookup
      (trimSpace version) = some row →
    (∃ index, decodeIndexOrEmpty (s.bucket.data? (indexURL root appName)) = .ok index) ∧
    ∃ stored, s.bucket.data? (entryURL root appName version) = some (.entry stored) ∧
      row = indexVersionFromEntry stored (appVersionEntryPath appName version)

namespace Consistent

theorem initial (h : Unpublished root appName version b) :
    Consistent plans appName version { bucket := b, record := () } where
  entry ho   := by
    rw [h.entry] at ho
    contradiction
  index hrow := absurd (Finmap.mem_of_lookup_eq_some hrow) h.row

theorem stored (h : Consistent plans appName version s) {stored : Entry}
    (hs : s.bucket.data? (entryURL root appName version) = some (.entry stored)) :
    ∃ j, stored = (plans j).entry := by
  obtain ⟨o, ho, hd⟩ := Option.map_eq_some_iff.mp hs
  obtain ⟨j, hj⟩ := h.entry ho
  exact ⟨j, Document.entry.inj (hd.symm.trans hj)⟩

-- A step that leaves the index alone only has to care about the entry.
theorem grow (h : Consistent plans appName version s) (hg : rely root s s')
    (he : ∀ {o}, s'.bucket.objects (entryURL root appName version) = some o →
      ∃ j, o.data = .entry (plans j).entry)
    (hl : s'.bucket.data? (indexURL root appName) = s.bucket.data? (indexURL root appName)) :
    Consistent plans appName version s' where
  entry := he
  index hrow := by
    rw [hl] at hrow ⊢
    obtain ⟨hd, stored, hs, hr⟩ := h.index hrow
    exact ⟨hd, stored, hg.data? entryURL_immutable hs, hr⟩

theorem afterIndexWrite (h : Consistent plans appName version s) {index : Index}
    {stored : Entry} (hv : validateIndex index = .ok ()) (hl : ∀ a v, (index.versions a).lookup v =
      if a = appName ∧ v = trimSpace version then
        some (((listedVersions (s.bucket.data? (indexURL root appName)) a).lookup v).getD row)
      else
        (listedVersions (s.bucket.data? (indexURL root appName)) a).lookup v)
    (hs : s.bucket.data? (entryURL root appName version) = some (.entry stored))
    (hr : trimSpace version ∉ listedVersions (s.bucket.data? (indexURL root appName)) appName →
      row = indexVersionFromEntry stored (appVersionEntryPath appName version)) :
    Consistent plans appName version
      (afterCatalogWrite noteNothing i (indexURL root appName) (.index index) g s) ∧
    rely root s (afterCatalogWrite noteNothing i (indexURL root appName) (.index index) g s) := by
  have hg : rely root s
      (afterCatalogWrite noteNothing i (indexURL root appName) (.index index) g s) :=
    .upsertIndex hl
  refine ⟨⟨fun ho => ?_, fun {row'} hrow => ?_⟩, hg⟩
  case _ => exact h.entry (Bucket.store_objects_of_ne entryURL_ne_indexURL ▸ ho)
  case _ =>
    have hdata : (afterCatalogWrite noteNothing i (indexURL root appName) (.index index) g
        s).bucket.data? (indexURL root appName) = some (.index index) :=
      Bucket.data?_store_self
    have hdec : decodeIndexOrEmpty (some (.index index)) = .ok index := by
      simp [decodeIndexOrEmpty, decodeIndex, hv]
    rw [hdata] at hrow ⊢
    refine ⟨⟨index, hdec⟩, ?_⟩
    rw [listedVersions, hl, if_pos ⟨rfl, rfl⟩] at hrow
    cases ho : (listedVersions (s.bucket.data? (indexURL root appName)) appName).lookup
      (trimSpace version) <;> rw [ho] at hrow
    case some old =>
      obtain ⟨_, stored', hs', hr'⟩ := h.index ho
      exact ⟨stored', hg.data? entryURL_immutable hs', Option.some.inj hrow ▸ hr'⟩
    case none =>
      have hr := hr (Finmap.lookup_eq_none.mp ho)
      exact ⟨stored, hg.data? entryURL_immutable hs, Option.some.inj hrow ▸ hr⟩

end Consistent

theorem compatible : Compatible (storeSemantics noteNothing) (Consistent plans appName version)
    (fun _ : ι => rely root) (fun _ => rely root) where
  refl _ _          := .refl _
  trans _           := .trans
  interfere _ _ _ h := h
  env_inv a         := a.elim
  env_rely a        := a.elim

section Clients

abbrev Keeps (plans : ι → BuiltManifest digest root) (appName version : String) (i : ι)
    {α : Type} (post : α → Memory Document Unit → Prop) (p : RegistryProgram α)
    (s : Memory Document Unit) : Prop :=
  Safe (storeSemantics noteNothing) (StartsAgree plans) (Consistent plans appName version) i
    (rely root) (rely root) post p s

theorem uploadImmutableObjectIfNeeded_safe (hu : Immutable root object.storageURL)
    (hd : object.storageURL = entryURL root appName version →
      ∃ j, object.document = .entry (plans j).entry) :
    Keeps plans appName version i
      (fun r s => ∀ outcome, r = .ok outcome → Matches object s.bucket ∧
        (outcome.outcome ≠ .skipped → s.bucket.data? object.storageURL = some object.document))
      (uploadImmutableObjectIfNeeded object) s := by
  refine (client i).uploadImmutableObjectIfNeeded (fun hr => hr.immutable hu) fun s hi hn => ?_
  have hg := Grows.create hu hn object.document object.sha256
  refine ⟨hi.grow hg (fun {o} ho => ?_) (Bucket.data?_store_of_ne hu.ne_index), hg⟩
  by_cases he : object.storageURL = entryURL root appName version
  case pos =>
    rw [← he, afterCreate, Bucket.store_objects_self, Option.some.injEq] at ho
    exact ho ▸ hd he
  case neg => exact hi.entry (Bucket.store_objects_of_ne (Ne.symm he) ▸ ho)

theorem uploadArtifacts_safe {done} (h : ∀ object ∈ objects, Immutable root object.storageURL ∧
      object.storageURL ≠ entryURL root appName version) :
    Keeps plans appName version i (fun _ _ => True) (uploadArtifacts done objects) s := by
  induction objects generalizing done s
  case nil => exact .done
  case cons object objects hi =>
    obtain ⟨hu, hne⟩ := h object List.mem_cons_self
    refine .bind_ok (.refl <| ·.bucket)
      (uploadImmutableObjectIfNeeded_safe hu fun he => absurd he hne) (fun _ _ => .done) ?_
    exact fun _ _ _ _ => hi fun o ho => h o (List.mem_cons_of_mem _ ho)

theorem uploadRetention_safe {w : Writer} {plan : PublishManifest digest root}
    (hi : Consistent plans appName version s) :
    Keeps plans appName version i (fun _ _ => True) (w.uploadRetention plan publishedAt) s := by
  rw [Writer.uploadRetention, retentionStorageURL_indexURL]
  refine (client i).compareAndSwapCatalog (P := fun _ => True) (fun _ _ _ => trivial) ?_
    (fun _ _ _ _ => .done) (fun _ _ _ _ => .done) trivial hi
  intro s g data _ hi _ _ hu
  obtain ⟨index, index', hd, hm, he⟩ := catalogUpdate_eq_some.mp hu
  have hv := decodeRetentionIndexOrEmpty_eq_ok hd
  have hm : _ = index' := congrArg Prod.fst (Except.ok.inj hm)
  cases he
  have hg : rely root s (afterCatalogWrite noteNothing i
      (storageURL root (appRetentionPath plan.appName)) (.retention index') g s) :=
    .replaceRetention fun v h => hm ▸ upsertPublishedRetention_mem_of_mem (hv ▸ h)
  refine ⟨hi.grow hg (fun ho => ?_) ?_, hg, .done⟩
  · exact hi.entry (Bucket.store_objects_of_ne entryURL_immutable.ne_retention.symm ▸ ho)
  · exact Bucket.data?_store_of_ne index_ne_retention

variable (hv : SameVersion plans appName version)
include hv

theorem adoptStoredEntryPublishedAt_safe (hm : Matches (plans i).entryObject s.bucket)
    (hd : outcome.outcome ≠ .skipped →
      s.bucket.data? (plans i).entryObject.storageURL = some (.entry (plans i).entry)) :
    Keeps plans appName version i
      (fun r s => ∀ entry, r = .ok entry → ∃ stored,
        s.bucket.data? (entryURL root appName version) = some (.entry stored) ∧
        entry = { (plans i).entry with publishedAt := stored.publishedAt })
      (Writer.adoptStoredEntryPublishedAt (plans i).toPublishManifest outcome) s := by
  have hu : Immutable root (plans i).entryObject.storageURL := entryObject_immutable _
  rw [← hv.entryObject_storageURL i]
  refine (client i).adoptStoredEntryPublishedAt ?_ ?_ ?_ ?_
  · intro hs s₁ hr _ entry he
    cases he
    exact ⟨_, hr.data? hu (hd hs), rfl⟩
  · intro s₁ hr hn
    obtain ⟨o, ho, _⟩ := hm
    rw [hr.immutable hu ho] at hn
    contradiction
  · intro s₁ stored hr hi hs s₂ hr₂ _ entry he
    obtain ⟨j, hj⟩ := hi.stored (hv.entryObject_storageURL i ▸ hs)
    rw [if_neg (hj ▸ (plans j).published)] at he
    cases he
    exact ⟨stored, hr₂.data? hu hs, rfl⟩
  · intro _ _ _ _ _ _ he
    cases he

theorem uploadIndex_safe {w : Writer}
    (hs : s.bucket.data? (entryURL root appName version) = some (.entry stored))
    (he : entry = { (plans i).entry with publishedAt := stored.publishedAt })
    (hi : Consistent plans appName version s) :
    Keeps plans appName version i
      (fun r s => ∀ outcome, r = .ok outcome → trimSpace version ∈
        listedVersions (s.bucket.data? (indexURL root appName)) appName)
      (w.uploadIndex (plans i).toPublishManifest entry) s := by
  have happ : trimSpace entry.app = appName := by
    rw [he]
    exact (congrArg trimSpace ((plans i).app_eq.trans (hv.app i))).trans (hv.trimmed i)
  have hver : entry.version = trimSpace version := by
    rw [he]
    exact hv.entry_version i
  have keep {s s' : Memory Document Unit} (hr : rely root s s')
      (h : trimSpace version ∈
        listedVersions (s.bucket.data? (indexURL root appName)) appName) :
      trimSpace version ∈
        listedVersions (s'.bucket.data? (indexURL root appName)) appName := by
    obtain ⟨row, hrow⟩ := Finmap.mem_iff.mp h
    exact Finmap.mem_of_lookup_eq_some (hr.rows hrow)
  rw [Writer.uploadIndex, hv.indexURL_eq i]
  refine (client i).compareAndSwapCatalog
    (P := fun s => s.bucket.data? (entryURL root appName version) = some (.entry stored))
    (fun h hr _ => hr.data? entryURL_immutable h) ?_ ?_ ?_ hs hi
  · intro s g data hs hi hguard hgen hu
    obtain ⟨index, index', hd, hm, hdata⟩ := catalogUpdate_eq_some.mp hu
    cases hdata
    have hl := upsertAppIndex_lookup hm
    simp only [happ, hver, decodeIndexOrEmpty_eq_ok hd] at hl
    -- The run that adds the row has the times of the stored entry.
    have hrow (hn : trimSpace version ∉
        listedVersions (s.bucket.data? (indexURL root appName)) appName) :
        indexVersionFromEntry entry (appVersionEntryPath (plans i).appName (plans i).version) =
          indexVersionFromEntry stored (appVersionEntryPath appName version) := by
      obtain ⟨j, hj⟩ := hi.stored hs
      rw [hv.app i, hv.version i, he]
      refine indexVersionFromEntry_adopted _ (hj ▸ hv.entries i j) ?_
      refine hguard (hv.indexURL_eq i).symm hgen ?_ stored ?_
      · rwa [hv.app i, hv.entry_version i]
      · rw [hv.entryObject_storageURL i, hs]
        rfl
    obtain ⟨h₁, h₂⟩ := hi.afterIndexWrite (i := i) (g := g) (upsertAppIndex_valid hm) hl hs hrow
    refine ⟨h₁, h₂, fun s₁ hr _ _ _ => keep hr ?_⟩
    rw [afterCatalogWrite, Bucket.data?_store_self, ← Finmap.lookup_isSome, listedVersions, hl,
      if_pos ⟨rfl, rfl⟩]
    rfl
  · intro s _ _ hu s₁ hr _ _ _
    obtain ⟨index, index', hd, hm⟩ := catalogUpdate_eq_none.mp hu
    refine keep hr ?_
    rw [← decodeIndexOrEmpty_eq_ok hd, ← happ, ← hver]
    exact upsertAppIndex_mem_of_unchanged hm
  · intro _ _ _ _ _ _ _ _ h
    cases h

theorem publish_safe {w : Writer} :
    Keeps plans appName version i
      (fun r s => r.2 = none → trimSpace version ∈
        listedVersions (s.bucket.data? (indexURL root appName)) appName)
      (w.publish (plans i).toPublishManifest) s := by
  have refl (s : Memory Document Unit) : rely root s s := .refl _
  have hu : Immutable root (plans i).entryObject.storageURL := entryObject_immutable _
  refine .bind refl (uploadArtifacts_safe fun object ho => ?_) fun ⟨artifacts, failed⟩ s₁ _ _ => ?_
  · obtain ⟨a, _, rfl⟩ := List.mem_map.mp ho
    exact ⟨artifactObject_immutable _ a, artifactObject_ne_entryURL _ a⟩
  cases failed
  case some => exact fun _ _ _ h => nomatch h
  case none =>
    have failed {x : PublishResult} {e : Failure} {s : Memory Document Unit} :
        Keeps plans appName version i (fun r s => r.2 = none → trimSpace version ∈
          listedVersions (s.bucket.data? (indexURL root appName)) appName) (.ret (x, some e)) s :=
      fun _ _ _ h => nomatch h
    refine .bind_ok refl (uploadImmutableObjectIfNeeded_safe hu fun _ => ⟨i, rfl⟩)
      (fun _ _ => failed) fun outcome s₂ _ hm => ?_
    obtain ⟨hm, hd⟩ := hm _ rfl
    refine .bind_ok refl (adoptStoredEntryPublishedAt_safe hv hm hd) (fun _ _ => failed) ?_
    intro entry s₃ hi he
    obtain ⟨stored, hs, he⟩ := he _ rfl
    -- The stored entry is still there after the retention catalog has been updated.
    have keep {s s' : Memory Document Unit}
        (h : s.bucket.data? (entryURL root appName version) = some (.entry stored))
        (hr : rely root s s') (_ : Consistent plans appName version s') :=
      hr.data? entryURL_immutable h
    refine .bind_ok refl ((uploadRetention_safe hi).frame keep keep hs) (fun _ _ => failed) ?_
    intro retention s₄ hi hs
    refine .bind_ok refl (uploadIndex_safe hv hs.right he hi) (fun _ _ => failed) ?_
    intro index s₅ _ hm s₆ hr _ _
    obtain ⟨row, hrow⟩ := Finmap.mem_iff.mp (hm _ rfl)
    exact Finmap.mem_of_lookup_eq_some (hr.rows hrow)

theorem sound {b : Bucket StorageURL Document} (writers : ι → Writer)
    (hb : Unpublished root appName version b) :
    Sound (storeSemantics noteNothing) (StartsAgree plans) (Consistent plans appName version)
      (fun _ => rely root) (fun _ => rely root)
      (fun _ r s => r.2 = none → trimSpace version ∈
        listedVersions (s.bucket.data? (indexURL root appName)) appName)
      (config writers plans b) where
  holds := .initial hb
  safe _ := publish_safe hv

end Clients

section Load

-- A reader that is answered from two stores gets the bytes of the second one.
theorem observe_readObject (states : Nat → Bucket StorageURL Document)
    (f : Except Failure (Nat × Option Document) → RegistryProgram α)
    (h₀ : (states 0).data? url = some d₀) (h₁ : (states 1).data? url = some d) :
    ∃ g, (readObject url >>= f).observe reply states =
      (f (.ok (g, some d))).observe reply fun n => states (n + 2) := by
  obtain ⟨o, ho, _⟩ := Option.map_eq_some_iff.mp h₀
  have hg : (states 0).generation url ≠ 0 := by
    intro hz
    rw [Bucket.generation_eq_zero.mp hz] at ho
    contradiction
  obtain ⟨n, hn⟩ := Nat.exists_eq_succ_of_ne_zero hg
  refine ⟨n + 1, ?_⟩
  have hattrs : reply (.readAttrs url) (states 0) = .ok (n + 1) := congrArg Except.ok hn
  have hdata : reply (.readData url) (states 1) = .ok d := by
    simp [reply, StoreCall.answer, h₁]
  rw [readObject, request_bind, Program.call_bind, Program.observe_call, hattrs]
  refine (Program.observe_call (StoreCall.readData url) _).trans ?_
  rw [hdata]
  rfl

theorem load_eq_verified (ht : trimSpace appName = appName)
    (hrow : ∀ n, (listedVersions ((states n).data? (indexURL root appName)) appName).lookup
      (trimSpace version) = some row)
    (hdec : ∀ n, ∃ index, decodeIndexOrEmpty ((states n).data? (indexURL root appName)) = .ok index)
    (hs : ∀ n, (states n).data? (entryURL root appName version) = some (.entry stored))
    (hv : validateEntry stored = .ok ())
    (hr : row = indexVersionFromEntry stored (appVersionEntryPath appName version)) :
    load root appName version states = .ok { state := .verified, entry := some stored } := by
  have hindex (n : Nat) : ∃ d, (states n).data? (indexURL root appName) = some d := by
    cases h : (states n).data? (indexURL root appName)
    case some d => exact ⟨d, rfl⟩
    case none =>
      have := hrow n
      rw [h] at this
      cases this
  obtain ⟨d₀, h₀⟩ := hindex 0
  obtain ⟨d₁, h₁⟩ := hindex 1
  obtain ⟨index, hdec⟩ := hdec 1
  have hfound : index.row appName (trimSpace version) = some row := by
    rw [Index.row, decodeIndexOrEmpty_eq_ok hdec]
    exact hrow 1
  have hctx : (decodeIndexOrEmpty (some d₁)).context "decode index" = .ok index :=
    Except.context_eq_ok.mpr (h₁ ▸ hdec)
  have hentry : decodeEntry (.entry stored) = .ok stored := by
    simp [decodeEntry, hv]
  have hequal : indexVersionsEqual
      (indexVersionFromEntry stored (appVersionEntryPath appName version)) row = true :=
    decide_eq_true hr.symm
  have hpath : row.metadata = appVersionEntryPath appName version := hr ▸ rfl
  have hne : row.metadata ≠ [] := hpath ▸ List.cons_ne_nil _ _
  rw [load, loadPublishedState, ht]
  -- The first two requests read the index, and the others the entry.
  obtain ⟨_, hg⟩ := observe_readObject states _ h₀ h₁
  refine hg.trans ?_
  simp only [hctx, hfound, loadPublishedEntry, if_neg hne]
  rw [hpath]
  obtain ⟨_, hg⟩ := observe_readObject (fun n => states (n + 2)) _ (hs 2) (hs 3)
  refine hg.trans ?_
  simp only [hentry, hequal, if_true]
  rfl

end Load

-- Once a run has returned success, a reader finds the version verified, whenever it is answered.
theorem publish_then_load_verified [DecidableEq ι] {writers : ι → Writer}
    {b : Bucket StorageURL Document} (hv : SameVersion plans appName version)
    (hb : Unpublished root appName version b) {c}
    (h : Reaches (storeSemantics noteNothing) (StartsAgree plans) (config writers plans b) c)
    {result : PublishResult} (hr : c.prog i = .ret (result, none))
    (states : Nat → Config ι (StoreCall Document) StoreCall.Response (PublishResult × Option Failure)
      (Memory Document Unit))
    (h₀ : Reaches (storeSemantics noteNothing) (StartsAgree plans) c (states 0))
    (hs : ∀ n, Reaches (storeSemantics noteNothing) (StartsAgree plans) (states n) (states (n + 1))) :
    ∃ stored, load root appName version (fun n => (states n).mem.bucket) =
      .ok { state := .verified, entry := some stored } := by
  have sound := (sound hv writers hb).reaches compatible h
  have hlater (n : Nat) : Reaches (storeSemantics noteNothing) (StartsAgree plans) c (states n) := by
    induction n
    case zero => exact h₀
    case succ n hn => exact hn.trans (hs n)
  have hg (n : Nat) : rely root c.mem (states n).mem :=
    sound.related compatible (fun _ => .refl _) .trans (fun _ _ h => h) nofun (hlater n)
  have hi (n : Nat) := (sound.reaches compatible (hlater n)).holds
  obtain ⟨row, hrow⟩ := Finmap.mem_iff.mp (sound.result compatible hr rfl)
  obtain ⟨_, stored, hstored, heq⟩ := sound.holds.index hrow
  obtain ⟨j, hj⟩ := sound.holds.stored hstored
  exact ⟨stored, load_eq_verified (hv.trimmed i) (fun n => (hg n).rows hrow)
    (fun n => ((hi n).index ((hg n).rows hrow)).left)
    (fun n => (hg n).data? entryURL_immutable hstored) (hj ▸ (plans j).valid) heq⟩

theorem validateEntry_times (entry : Entry) (publishedAt : Int) (publishStartedAt : Option Int) :
    validateEntry { entry with publishedAt, publishStartedAt } = validateEntry entry :=
  rfl

def demoEntry : Entry :=
  { Publishing.demoEntry .localPublish with sourceRef := "", repository := "" }

theorem demoEntry_valid : validateEntry demoEntry = .ok () := by
  have h : (validateEntry demoEntry).toOption.map id = some () := by decide +kernel
  obtain ⟨_, he, _⟩ := Except.eq_ok_of_toOption h
  exact he

def demoDigest : Document → String
  | .entry entry => "entry " ++ toString entry.publishedAt
  | document => Publishing.demoDigest document

def demoManifest (publishedAt : Int) (publishStartedAt : Option Int) (h : publishedAt ≠ 0) :
    BuiltManifest demoDigest ["gs://registry"] where
  appName := "demo"
  displayName := "Demo"
  description := ""
  version := "1.0.0"
  entry := { demoEntry with publishedAt, publishStartedAt }
  artifacts := [⟨"demo.tar.gz", "bytes"⟩]
  app_trimmed := (Publishing.demoPlan .localPublish).app_trimmed
  app_eq := rfl
  version_eq := (Publishing.demoPlan .localPublish).version_eq
  recorded := (Publishing.demoPlan .localPublish).recorded
  valid := (validateEntry_times ..).trans demoEntry_valid
  published := h

-- The first run knows the start of the publication. The second one is later, with the given start.
def demoManifests (started : Option Int) : Bool → BuiltManifest demoDigest ["gs://registry"]
  | false => demoManifest 2 (some 1) (by decide)
  | true => demoManifest 4 started (by decide)

theorem demo_sameVersion (started : Option Int) :
    SameVersion (demoManifests started) "demo" "1.0.0" where
  app := by rintro (_ | _) <;> rfl
  version := by rintro (_ | _) <;> rfl
  entries := by rintro (_ | _) (_ | _) <;> rfl

theorem demo_unpublished : Unpublished ["gs://registry"] "demo" "1.0.0" ∅ where
  entry := rfl
  row := Finmap.notMem_empty

-- The first run is cut off after it has uploaded the entry, and the second one does the rest.
def demoEvents : List (Event (storeSemantics (noteNothing (ι := Bool)))) :=
  List.replicate 4 (.call false none) ++ List.replicate 11 (.call true none)

theorem publish_then_load_verified_demo : ∃ c,
    Reaches (storeSemantics noteNothing) (StartsAgree (demoManifests (some 1)))
      (config (fun _ => {}) (demoManifests (some 1)) ∅) c ∧
    ∃ stored, load ["gs://registry"] "demo" "1.0.0" (fun _ => c.mem.bucket) =
      .ok { state := .verified, entry := some stored } := by
  obtain ⟨c, hr, hp⟩ : ∃ c, Reaches (storeSemantics noteNothing) (StartsAgree (demoManifests (some 1)))
      (config (fun _ => {}) (demoManifests (some 1)) ∅) c ∧
      ((c.prog true).result?.map (·.2)) = some none :=
    Config.exists_reaches_of_run demoEvents (by decide +kernel)
  obtain ⟨⟨result, failed⟩, hres, rfl⟩ := Option.map_eq_some_iff.mp hp
  have hret := Program.eq_ret_of_result? hres
  exact ⟨c, hr, publish_then_load_verified (demo_sameVersion _) demo_unpublished hr hret
    (fun _ => c) .refl fun _ => .refl⟩

-- The second run has lost the start of the publication. It succeeds, but the version is corrupt.
theorem lost_start_loads_corrupt : ∃ c,
    Reaches (storeSemantics noteNothing) unguarded
      (config (fun _ => {}) (demoManifests none) ∅) c ∧
    ((c.prog true).result?.map (·.2)) = some none ∧
    (load ["gs://registry"] "demo" "1.0.0" (fun _ => c.mem.bucket)).toOption.map (·.state) =
      some .corrupt :=
  Config.exists_reaches_of_run demoEvents (by decide +kernel)

end Republish
end AppRegistry
