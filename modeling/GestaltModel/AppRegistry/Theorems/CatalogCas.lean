import GestaltModel.AppRegistry.CatalogCas
import GestaltModel.AppRegistry.Theorems.Store

namespace AppRegistry

open Interleaving

variable {ι β γ τ : Type}

namespace StoreClient

variable {note : ι → (c : StoreCall β) → c.Response → Bucket StorageURL β → γ → γ}
variable {i : ι} {rely guar : Memory β γ → Memory β γ → Prop} {inv : Memory β γ → Prop}
variable {guard : ι → StoreCall β → Memory β γ → Prop}
variable {post : Except Failure CatalogWriteOutcome → Memory β γ → Prop}
variable {s : Memory β γ} {url : StorageURL} {attempts : Int}
variable {decode : Option β → Except Failure τ} {mutate : τ → Except Failure (τ × Bool)}
variable {encode : τ → Except Failure β}

-- The rule for compare-and-swap loops. The caller knows `P` throughout, and justifies the write
-- only for the content at the moment of the write.
theorem compareAndSwapCatalog (cl : StoreClient note i rely guar) {P : Memory β γ → Prop}
    (keep : ∀ {s s'}, P s → rely s s' → inv s' → P s')
    (updated : ∀ s g data, P s → inv s → guard i (.writeCatalogObject url data g) s →
      s.bucket.generation url = g →
      catalogUpdate decode mutate encode (s.bucket.data? url) = .ok (some data) →
      inv (afterCatalogWrite note i url data g s) ∧
      guar s (afterCatalogWrite note i url data g s) ∧
      Safe (storeSemantics note) guard inv i rely guar post (.ret (.ok .updated))
        (afterCatalogWrite note i url data g s))
    (unchanged : ∀ s, P s → inv s →
      catalogUpdate decode mutate encode (s.bucket.data? url) = .ok none →
      Safe (storeSemantics note) guard inv i rely guar post (.ret (.ok .unchanged)) s)
    (failed : ∀ s e, P s → inv s →
      Safe (storeSemantics note) guard inv i rely guar post (.ret (.error e)) s)
    (hp : P s) (hi : inv s) :
    Safe (storeSemantics note) guard inv i rely guar post
      (AppRegistry.compareAndSwapCatalog url attempts decode mutate encode) s := by
  simp only [AppRegistry.compareAndSwapCatalog]
  generalize (if attempts ≤ 0 then defaultCatalogUpdateAttempts else attempts).toNat = n
  induction n generalizing s
  case zero => exact failed s _ hp hi
  case succ n hn =>
    refine cl.readObject (fun s' e hr hi => failed s' e (keep hp hr hi) hi) ?_
    intro s₁ g existing hr₁ hi₁ hread
    have hp₁ := keep hp hr₁ hi₁
    have hd := hread.data
    dsimp only
    split
    case h_1 e _ => exact failed s₁ e hp₁ hi₁
    case h_2 hu  => exact unchanged s₁ hp₁ hi₁ (hd ▸ hu)
    case h_3 data hu =>
      rw [request_bind]
      refine cl.writeCatalogObject_of_guard (fun s₂ e hr₂ hi₂ => ?_) (fun s₂ hr₂ hi₂ ha hg => ?_)
      · have hp₂ := keep hp₁ hr₂ hi₂
        dsimp only
        split
        · exact hn hp₂ hi₂
        · exact failed s₂ e hp₂ hi₂
      · -- The generation is the one that was read, so the bytes are those that were read, too.
        have hu := hread.still (cl.later hr₂) hg ▸ hu
        exact updated s₂ g data (keep hp₁ hr₂ hi₂) hi₂ ha hg hu

end StoreClient

namespace CatalogClient

theorem noteCommit_quietReads (i : ι) : QuietReads (noteCommit (β := β)) i := by
  intro c r b g h
  cases h <;> rfl

theorem noteCommit_quietWrites (i : ι) : QuietWrites (noteCommit (β := β)) i where
  catalog _ _ _ _ _ _   := rfl
  immutable _ _ _ _ _ _ := rfl

@[simp]
theorem content_snoc {commits : List (ι × β)} {i data} :
    content initial (commits ++ [(i, data)]) = some data := by
  simp [content]

-- The store content is always the last commit, and the commits are updates of one another.
structure Consistent (clients : ι → CatalogClient β) (url : StorageURL) (initial : Option β)
    (s : Memory β (List (ι × β))) : Prop where
  committed : Committed clients initial s.record
  stored : s.bucket.data? url = content initial s.record

section Consistent

variable {clients : ι → CatalogClient β} {url : StorageURL} {b : Bucket StorageURL β}

theorem later_compatible :
    Compatible (storeSemantics noteCommit) inv (fun (_ : ι) s s' => s.bucket.Later s'.bucket)
      (fun _ s s' => s.bucket.Later s'.bucket) where
  refl _ _          := .refl _
  trans _           := .trans
  interfere _ _ _ h := h
  env_inv a         := a.elim
  env_rely a        := a.elim

theorem later_client (i : ι) :
    StoreClient (β := β) noteCommit i (fun s s' => s.bucket.Later s'.bucket)
      (fun s s' => s.bucket.Later s'.bucket) where
  reads := noteCommit_quietReads i
  writes := noteCommit_quietWrites i
  refl _      := .refl _
  trans h₁ h₂ := h₁.trans h₂
  later h     := h
  idle _      := .refl _

theorem Consistent.sound : Sound (storeSemantics noteCommit) unguarded
    (Consistent clients url (b.data? url)) (fun _ s s' => s.bucket.Later s'.bucket)
    (fun _ s s' => s.bucket.Later s'.bucket) (fun _ _ _ => True) (config clients url b) where
  holds := ⟨.nil, rfl⟩
  safe i := by
    refine (later_client i).compareAndSwapCatalog (P := fun _ => True) ?_ ?_ ?_ ?_ trivial ?_
    · exact fun _ _ _ => trivial
    · intro s g data _ hi _ _ hu
      rw [hi.stored] at hu
      refine ⟨⟨.snoc hi.committed hu, ?_⟩, .store .., .done⟩
      simp [afterCatalogWrite, noteCommit, Bucket.data?]
    · exact fun _ _ _ _ => .done
    · exact fun _ _ _ _ => .done
    · exact ⟨.nil, rfl⟩

end Consistent

-- Programs that return `updated` directly after a commit, and under no other circumstance.
inductive EndsOnCommit : StoreProgram β (Except Failure CatalogWriteOutcome) → Prop
  | ret {r} : r ≠ .ok .updated → EndsOnCommit (.ret r)
  | read {c k} : c.IsRead → (∀ r, EndsOnCommit (k r)) → EndsOnCommit (.call c k)
  | write {url data g k} : k (.ok ()) = .ret (.ok .updated) →
    (∀ e, EndsOnCommit (k (.error e))) → EndsOnCommit (.call (.writeCatalogObject url data g) k)

theorem EndsOnCommit.bind (hp : ReadsOnly p)
    (hf : ∀ a, EndsOnCommit (f a)) : EndsOnCommit (p >>= f) := by
  induction hp
  case ret a => exact hf a
  case call hc _ hi => exact .read hc hi

theorem program_endsOnCommit (c : CatalogClient β) (url : StorageURL) :
    EndsOnCommit (c.program url) := by
  simp only [program, compareAndSwapCatalog]
  generalize (if c.attempts ≤ 0 then defaultCatalogUpdateAttempts else c.attempts).toNat = n
  induction n
  case zero => exact .ret nofun
  case succ n hn =>
    refine .bind (readObject_readsOnly url) fun r => ?_
    cases r
    case error => exact .ret nofun
    case ok r =>
      dsimp only
      split
      case h_1 => exact .ret nofun
      case h_2 => exact .ret nofun
      case h_3 =>
        rw [request_bind]
        refine .write rfl fun e => ?_
        dsimp only
        split
        · exact hn
        · exact .ret nofun

abbrev CatalogConfig (ι β : Type) :=
  Config ι (StoreCall β) StoreCall.Response (Except Failure CatalogWriteOutcome)
    (Memory β (List (ι × β)))

variable [DecidableEq ι]

def commitCount (i : ι) (commits : List (ι × β)) : Nat :=
  (commits.map Prod.fst).count i

@[simp]
theorem commitCount_snoc_self {commits : List (ι × β)} {data} :
    commitCount i (commits ++ [(i, data)]) = commitCount i commits + 1 := by
  simp [commitCount]

theorem commitCount_snoc_of_ne {commits : List (ι × β)} {data} (h : j ≠ i) :
    commitCount i (commits ++ [(j, data)]) = commitCount i commits := by
  simp [commitCount, h]

-- A client has either made its only commit and returned, or made no commit so far.
def Settled (i : ι) (p : StoreProgram β (Except Failure CatalogWriteOutcome))
    (commits : List (ι × β)) : Prop :=
  p = .ret (.ok .updated) ∧ commitCount i commits = 1 ∨
  EndsOnCommit p ∧ commitCount i commits = 0

variable {c c' : CatalogConfig ι β}

theorem Settled.resume {i q k} {o : Option Failure} {r : q.Response}
    (h : ∀ j, Settled j (c.prog j) c.mem.record)
    (he : (storeSemantics noteCommit).exec i q o c.mem = (s, r)) (self : Settled i (k r) s.record)
    (other : ∀ j ≠ i, commitCount j s.record = commitCount j c.mem.record) (j : ι) :
    Settled j ((c.resume (storeSemantics noteCommit) i q k o).prog j)
      (c.resume (storeSemantics noteCommit) i q k o).mem.record := by
  by_cases hj : j = i
  case pos =>
    subst hj
    rw [Config.resume_prog_self, Config.resume_mem, he]
    exact self
  case neg =>
    rw [Config.resume_prog_of_ne hj, Config.resume_mem, he, Settled, other j hj]
    exact h j

theorem Settled.step {guard} (h : ∀ i, Settled i (c.prog i) c.mem.record)
    (e : Step (storeSemantics noteCommit) guard c c') :
    ∀ i, Settled i (c'.prog i) c'.mem.record := by
  cases e
  case env a => exact a.elim
  case call i q k o hp _ =>
    -- Client `i` still has a call to make, so it has not committed.
    have ⟨hends, hcount⟩ : EndsOnCommit (.call q k) ∧ commitCount i c.mem.record = 0 := by
      rcases hp ▸ h i with ⟨hr, _⟩ | h
      · cases hr
      · exact h
    cases hends
    case read hread hk =>
      have he := (noteCommit_quietReads i).exec_read hread o c.mem
      exact Settled.resume h he (.inr ⟨hk _, hcount⟩) fun _ _ => rfl
    case write url data g _ hok herr _ =>
      rcases (noteCommit_quietWrites i).exec_writeCatalogObject url data g o c.mem with ⟨e, he⟩ | ⟨_, he⟩
      case inl => exact Settled.resume h he (.inr ⟨herr e, hcount⟩) fun _ _ => rfl
      case inr =>
        refine Settled.resume h he (.inl ⟨hok, ?_⟩) fun j hj => ?_
        · simp [afterCatalogWrite, noteCommit, hcount]
        · exact commitCount_snoc_of_ne (Ne.symm hj)

theorem Settled.reaches {guard} (h : ∀ i, Settled i (c.prog i) c.mem.record)
    (e : Reaches (storeSemantics noteCommit) guard c c') :
    ∀ i, Settled i (c'.prog i) c'.mem.record := by
  induction e
  case refl => exact h
  case tail _ e hi => exact Settled.step hi e

-- No update is lost: the commits are updates of one another, the last one is stored, and exactly
-- the clients that returned `updated` have committed, once each.
theorem no_lost_update {clients : ι → CatalogClient β} {url : StorageURL}
    {b : Bucket StorageURL β}
    (h : Reaches (storeSemantics noteCommit) unguarded (config clients url b) c) :
    Committed clients (b.data? url) c.mem.record ∧
    c.mem.bucket.data? url = content (b.data? url) c.mem.record ∧
    (∀ i, c.prog i = .ret (.ok .updated) → commitCount i c.mem.record = 1) ∧
    (∀ i, c.prog i ≠ .ret (.ok .updated) → commitCount i c.mem.record = 0) := by
  have hc := (Consistent.sound.reaches later_compatible h).holds
  have hs := Settled.reaches (fun i => .inr ⟨program_endsOnCommit (clients i) url, rfl⟩) h
  refine ⟨hc.committed, hc.stored, fun i hi => ?_, fun i hi => ?_⟩
  case _ =>
    rcases hi ▸ hs i with ⟨_, h⟩ | ⟨h, _⟩
    · exact h
    · cases h
      contradiction
  case _ =>
    rcases hs i with ⟨h, _⟩ | ⟨_, h⟩
    · exact absurd h hi
    · exact h

def increment : CatalogClient Nat where
  τ := Nat
  attempts := 2
  decode := fun n => .ok (n.getD 0)
  mutate := fun n => .ok (n + 1, true)
  encode := .ok

-- Both see no catalog. The write of `true` is refused, but succeeds on the second try.
def incrementEvents : List (Event (storeSemantics (ι := Bool) (noteCommit (β := Nat)))) :=
  [.call true none, .call false none, .call false none, .call true none, .call true none,
    .call true none, .call true none]

theorem no_lost_update_increment : ∃ c, Reaches (storeSemantics noteCommit) unguarded
    (config (fun _ : Bool => increment) ["gs://registry", "index.json"] ∅) c ∧
    c.mem.record = [(false, 1), (true, 2)] ∧
    Committed (fun _ : Bool => increment) none c.mem.record := by
  have ⟨c, hr, hc⟩ : ∃ c, Reaches (storeSemantics noteCommit) unguarded
      (config (fun _ : Bool => increment) ["gs://registry", "index.json"] ∅) c ∧
      c.mem.record = [(false, 1), (true, 2)] :=
    Config.exists_reaches_of_run incrementEvents (by decide +kernel)
  exact ⟨c, hr, hc, (no_lost_update hr).left⟩

end CatalogClient
end AppRegistry
