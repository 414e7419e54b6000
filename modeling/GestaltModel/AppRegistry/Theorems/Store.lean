import GestaltModel.AppRegistry.Store
import GestaltModel.Bucket.Theorems.Later
import GestaltModel.Interleaving.Theorems.RelyGuarantee

namespace AppRegistry

open Interleaving

namespace StoreCall

variable {β : Type}

inductive IsRead : StoreCall β → Prop
  | describeObject (url) : IsRead (.describeObject url)
  | readAttrs (url)      : IsRead (.readAttrs url)
  | readData (url)       : IsRead (.readData url)

theorem IsRead.exec_bucket {c : StoreCall β} (h : c.IsRead) (o : Option Failure)
    (b : Bucket StorageURL β) : (c.exec o b).1 = b := by
  cases o
  case some => rfl
  case none =>
    cases h
    case describeObject => rfl
    case readAttrs      => rfl
    case readData =>
      simp only [exec, answer]
      split <;> rfl

theorem writeCatalogObject_cases (url : StorageURL) (data : β) (g : Nat) (o : Option Failure)
    (b : Bucket StorageURL β) :
    (∃ e, (writeCatalogObject url data g).exec o b = (b, .error e)) ∨
    (b.generation url = g ∧
      (writeCatalogObject url data g).exec o b = (b.store url data "", .ok ())) := by
  cases o
  case some f => exact .inl ⟨f, rfl⟩
  case none =>
    simp only [exec, answer]
    split
    case h_1 b' h =>
      have ⟨hg, hb⟩ := Bucket.replace_eq_some h
      exact .inr ⟨hg, by rw [hb]⟩
    case h_2 => exact .inl ⟨_, rfl⟩

theorem writeImmutableObject_cases (url : StorageURL) (data : β) (sha256 : String)
    (o : Option Failure) (b : Bucket StorageURL β) :
    (∃ e, (writeImmutableObject url data sha256).exec o b = (b, .error e)) ∨
    (b.objects url = none ∧
      (writeImmutableObject url data sha256).exec o b = (b.store url data sha256, .ok ())) := by
  cases o
  case some f => exact .inl ⟨f, rfl⟩
  case none =>
    simp only [exec, answer]
    split
    case h_1 b' h =>
      have ⟨hn, hb⟩ := Bucket.create_eq_some h
      exact .inr ⟨hn, by rw [hb]⟩
    case h_2 => exact .inl ⟨_, rfl⟩

end StoreCall

variable {ι β γ α δ : Type}

section Records

variable (note : ι → (c : StoreCall β) → c.Response → Bucket StorageURL β → γ → γ) (i : ι)

-- The record is not affected by client `i` reading.
def QuietReads : Prop :=
  ∀ (c : StoreCall β) (r b g), c.IsRead → note i c r b g = g

-- The record is not affected by client `i` failing to write.
structure QuietWrites : Prop where
  catalog : ∀ url data gen e b g, note i (.writeCatalogObject url data gen) (.error e) b g = g
  immutable : ∀ url data sha e b g, note i (.writeImmutableObject url data sha) (.error e) b g = g

def afterCatalogWrite (url : StorageURL) (data : β) (g : Nat) (s : Memory β γ) : Memory β γ where
  bucket := s.bucket.store url data ""
  record := note i (.writeCatalogObject url data g) (.ok ()) s.bucket s.record

def afterCreate (url : StorageURL) (data : β) (sha256 : String) (s : Memory β γ) : Memory β γ where
  bucket := s.bucket.store url data sha256
  record := note i (.writeImmutableObject url data sha256) (.ok ()) s.bucket s.record

-- The common side conditions for reasoning about the requests of a client `i` of the store.
structure StoreReader (rely guar : Memory β γ → Memory β γ → Prop) : Prop where
  reads : QuietReads note i
  refl : ∀ s, rely s s
  trans : ∀ {s₁ s₂ s₃}, rely s₁ s₂ → rely s₂ s₃ → rely s₁ s₃
  later : ∀ {s s'}, rely s s' → s.bucket.Later s'.bucket
  idle : ∀ s, guar s s

structure StoreClient (rely guar : Memory β γ → Memory β γ → Prop) : Prop
    extends StoreReader note i rely guar where
  writes : QuietWrites note i

end Records

section Rules

variable {note : ι → (c : StoreCall β) → c.Response → Bucket StorageURL β → γ → γ} {i : ι}

theorem QuietReads.exec_read (hq : QuietReads note i) (hc : c.IsRead) (o : Option Failure)
    (s : Memory β γ) : (storeSemantics note).exec i c o s = (s, (c.exec o s.bucket).2) := by
  simp only [hq _ _ _ _ hc, hc.exec_bucket o s.bucket]

theorem QuietWrites.exec_writeCatalogObject (hq : QuietWrites note i) (url : StorageURL) (data : β)
    (g : Nat) (o : Option Failure) (s : Memory β γ) :
    (∃ e, (storeSemantics note).exec i (.writeCatalogObject url data g) o s = (s, .error e)) ∨
    (s.bucket.generation url = g ∧
      (storeSemantics note).exec i (.writeCatalogObject url data g) o s =
        (afterCatalogWrite note i url data g s, .ok ())) := by
  rcases StoreCall.writeCatalogObject_cases url data g o s.bucket with ⟨e, he⟩ | ⟨hg, he⟩
  case inl => exact .inl ⟨e, by simp [he, hq.catalog]⟩
  case inr => exact .inr ⟨hg, by simp [he, afterCatalogWrite]⟩

theorem QuietWrites.exec_writeImmutableObject (hq : QuietWrites note i) (url : StorageURL) (data : β)
    (sha256 : String) (o : Option Failure) (s : Memory β γ) :
    (∃ e, (storeSemantics note).exec i (.writeImmutableObject url data sha256) o s =
      (s, .error e)) ∨
    (s.bucket.objects url = none ∧
      (storeSemantics note).exec i (.writeImmutableObject url data sha256) o s =
        (afterCreate note i url data sha256 s, .ok ())) := by
  rcases StoreCall.writeImmutableObject_cases url data sha256 o s.bucket with ⟨e, he⟩ | ⟨hn, he⟩
  case inl => exact .inl ⟨e, by simp [he, hq.immutable]⟩
  case inr => exact .inr ⟨hn, by simp [he, afterCreate]⟩

variable {rely guar : Memory β γ → Memory β γ → Prop} {inv : Memory β γ → Prop}
variable {guard : ι → StoreCall β → Memory β γ → Prop} {post : α → Memory β γ → Prop}
variable {s : Memory β γ} {url : StorageURL}

theorem StoreReader.read (cl : StoreReader note i rely guar) (hc : c.IsRead)
    {k : c.Response → StoreProgram β α} (h : ∀ s' o, rely s s' → inv s' →
      Safe (storeSemantics note) guard inv i rely guar post (k (c.exec o s'.bucket).2) s') :
    Safe (storeSemantics note) guard inv i rely guar post (.call c k) s := by
  intro s' hr hi _ o
  rw [cl.reads.exec_read hc o s']
  exact ⟨hi, cl.idle s', h s' o hr hi⟩

theorem StoreClient.writeCatalogObject_of_guard (cl : StoreClient note i rely guar)
    {k : Except Failure Unit → StoreProgram β α}
    (failed : ∀ s' e, rely s s' → inv s' →
      Safe (storeSemantics note) guard inv i rely guar post (k (.error e)) s')
    (written : ∀ s', rely s s' → inv s' → guard i (.writeCatalogObject url data g) s' →
      s'.bucket.generation url = g →
      inv (afterCatalogWrite note i url data g s') ∧
      guar s' (afterCatalogWrite note i url data g s') ∧
      Safe (storeSemantics note) guard inv i rely guar post (k (.ok ()))
        (afterCatalogWrite note i url data g s')) :
    Safe (storeSemantics note) guard inv i rely guar post
      (.call (.writeCatalogObject url data g) k) s := by
  intro s' hr hi ha o
  rcases cl.writes.exec_writeCatalogObject url data g o s' with ⟨e, he⟩ | ⟨hg, he⟩ <;> rw [he]
  case inl => exact ⟨hi, cl.idle s', failed s' e hr hi⟩
  case inr => exact written s' hr hi ha hg

theorem StoreClient.writeImmutableObject (cl : StoreClient note i rely guar)
    {k : Except Failure Unit → StoreProgram β α} (failed : ∀ s' e, rely s s' → inv s' →
      Safe (storeSemantics note) guard inv i rely guar post (k (.error e)) s')
    (written : ∀ s', rely s s' → inv s' → s'.bucket.objects url = none →
      inv (afterCreate note i url data sha256 s') ∧
      guar s' (afterCreate note i url data sha256 s') ∧
      Safe (storeSemantics note) guard inv i rely guar post (k (.ok ()))
        (afterCreate note i url data sha256 s')) :
    Safe (storeSemantics note) guard inv i rely guar post
      (.call (.writeImmutableObject url data sha256) k) s := by
  intro s' hr hi _ o
  rcases cl.writes.exec_writeImmutableObject url data sha256 o s' with ⟨e, he⟩ | ⟨hn, he⟩ <;> rw [he]
  case inl => exact ⟨hi, cl.idle s', failed s' e hr hi⟩
  case inr => exact written s' hr hi hn

-- What a client knows after reading an object: the bytes at the end of the read, which the object
-- holds as long as it has the generation.
structure ReadAt (url : StorageURL) (g : Nat) (existing : Option β) (b : Bucket StorageURL β) :
    Prop where
  data : b.data? url = existing
  still : ∀ {b'}, b.Later b' → b'.generation url = g → b'.data? url = existing

theorem StoreReader.readObject (cl : StoreReader note i rely guar)
    {f : Except Failure (Nat × Option β) → StoreProgram β α}
    (failed : ∀ s' e, rely s s' → inv s' →
      Safe (storeSemantics note) guard inv i rely guar post (f (.error e)) s')
    (found : ∀ s' g existing, rely s s' → inv s' → ReadAt url g existing s'.bucket →
      Safe (storeSemantics note) guard inv i rely guar post (f (.ok (g, existing))) s') :
    Safe (storeSemantics note) guard inv i rely guar post (AppRegistry.readObject url >>= f) s := by
  refine cl.read (.readAttrs url) fun s₁ o₁ hr₁ hi₁ => ?_
  cases o₁
  case some e => exact failed s₁ e hr₁ hi₁
  case none =>
    by_cases hg : s₁.bucket.generation url = 0
    case pos =>
      simp only [StoreCall.exec, StoreCall.answer, hg]
      refine found s₁ 0 none hr₁ hi₁ ⟨?_, fun _ h => ?_⟩
      · simp [Bucket.data?, Bucket.generation_eq_zero.mp hg]
      · simp [Bucket.data?, Bucket.generation_eq_zero.mp h]
    case neg =>
      obtain ⟨n, hn⟩ := Nat.exists_eq_succ_of_ne_zero hg
      simp only [StoreCall.exec, StoreCall.answer, hn]
      refine cl.read (.readData url) fun s₂ o₂ hr₂ hi₂ => ?_
      have hr := cl.trans hr₁ hr₂
      cases o₂
      case some e => exact failed s₂ e hr hi₂
      case none =>
        cases hd : s₂.bucket.data? url <;> simp only [StoreCall.exec, StoreCall.answer, hd]
        case none => exact failed s₂ _ hr hi₂
        case some data =>
          refine found s₂ (n + 1) _ hr hi₂ ⟨hd, fun hl hg₃ => ?_⟩
          have := (cl.later hr₂).objects_eq hl hg (hg₃.trans hn.symm)
          rw [← hd, Bucket.data?, Bucket.data?, this]

abbrev ReadsOnly (p : StoreProgram β α) : Prop :=
  p.Only StoreCall.IsRead

theorem readObject_readsOnly (url : StorageURL) : ReadsOnly (β := β) (AppRegistry.readObject url) := by
  refine .call (.readAttrs url) fun r => ?_
  match r with
  | .error e => exact .ret _
  | .ok 0 => exact .ret _
  | .ok (n + 1) =>
    refine .call (.readData url) fun r => ?_
    cases r <;> exact .ret _

theorem StoreReader.readsOnly (cl : StoreReader note i rely guar) (h : ReadsOnly p) :
    Safe (storeSemantics note) guard inv i rely guar (fun _ _ => True) p s := by
  refine .of_only (fun c s' hc hi _ o => ?_) h
  rw [cl.reads.exec_read hc o s']
  exact ⟨hi, cl.idle s'⟩

end Rules
end AppRegistry
