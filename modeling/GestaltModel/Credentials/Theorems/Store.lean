import GestaltModel.Credentials.Store
import GestaltModel.Interleaving.Theorems.RelyGuarantee
import GestaltModel.Primitives.Countable

namespace Credentials.Store

open Interleaving Text

theorem map_eq_ok {x : Except ε α} {b : β} (h : x.map f = .ok b) :
    ∃ a, x = .ok a ∧ f a = b := by
  cases x
  case error => contradiction
  case ok a => exact ⟨a, rfl, Except.ok.inj h⟩

section Keys

variable {p : Provider} {c c' existing : ExternalCredential}

theorem key_trimmed : Trimmed (p.key c) := by
  unfold Provider.key accountKeyForCredential accountKeyFromMetadataJSON
  split
  case isTrue => exact trimSpace_trimmed _
  case isFalse =>
    split
    case isTrue => exact trimSpace_empty
    case isFalse =>
      split
      case h_1 => exact trimSpace_empty
      case h_2 => exact trimSpace_trimmed _

theorem key_of_accountKey (ht : Trimmed c.accountKey) (hn : c.accountKey ≠ "") :
    p.key c = c.accountKey := by
  rw [Provider.key, accountKeyForCredential, ht, if_pos hn]

theorem key_eq_empty (h : p.key c = "") (ha : c'.accountKey = "")
    (hm : c'.metadataJSON = c.metadataJSON) : p.key c' = "" := by
  unfold Provider.key accountKeyForCredential at h ⊢
  split at h
  case isTrue hn => exact absurd h hn
  case isFalse =>
    rw [ha, hm, if_neg (by simp [trimSpace_empty])]
    exact h

theorem key_of_metadata (hj : p.toJson.Faithful) (ht : Trimmed k) (hn : k ≠ "")
    (h : setAccountKeyMetadata p.toJson raw k = .ok c.metadataJSON) (ha : c.accountKey = "") :
    p.key c = k := by
  obtain ⟨m, -, hm⟩ := Except.bind_eq_ok_iff.mp h
  rw [ht, if_neg hn] at hm
  have hk : (m.insert "account_key" k).keys ≠ ∅ := by
    intro he
    have : "account_key" ∈ (m.insert "account_key" k).keys :=
      Finmap.mem_keys.mpr (Finmap.mem_insert.mpr (.inl rfl))
    simp [he] at this
  rw [marshalMetadataMap, if_neg hk] at hm
  have hm := Except.ok.inj hm
  rw [Provider.key, accountKeyForCredential, ha, if_neg (by simp [trimSpace_empty]),
    accountKeyFromMetadataJSON, ← hm, if_neg hj.ne_blank, hj.unmarshal_marshal]
  rw [Trimmed] at ht
  simpa using ht

theorem normalize_ok (hj : p.toJson.Faithful) (h : normalizeAccountKeyForStorage p c = .ok c') :
    p.key (p.kept c') = p.key c := by
  simp only [normalizeAccountKeyForStorage] at h
  by_cases hk : p.key c = ""
  case pos =>
    rw [if_pos hk] at h
    cases h
    simp only [hk]
    unfold Provider.kept
    split <;> exact key_eq_empty hk rfl rfl
  case neg =>
    rw [if_neg hk] at h
    by_cases hp : p.persistsAccountKey
    case pos =>
      have ha : c'.accountKey = p.key c := by
        rw [if_pos hp] at h
        split at h <;> cases h <;> rfl
      rw [Provider.kept, if_pos hp, key_of_accountKey (ha ▸ key_trimmed) (ha ▸ hk), ha]
    case neg =>
      rw [if_neg hp, persistMetadata] at h
      split at h
      case h_1 => contradiction
      case h_2 metadata hm =>
        cases h
        rw [Provider.kept, if_neg hp]
        exact key_of_metadata hj key_trimmed hk hm rfl

theorem persist_accountKey (h : persistMetadata p c k = .ok c') : c'.accountKey = c.accountKey := by
  unfold persistMetadata at h
  split at h
  case h_1 => contradiction
  case h_2 =>
    cases h
    rfl

theorem retain_key (h : retainKey p c existing expected = .ok c') :
    p.key c' = if p.key existing ≠ "" ∧ p.key c = "" then p.key existing else p.key c := by
  unfold retainKey at h
  split at h
  case isFalse hn =>
    cases h
    rw [if_neg hn]
  case isTrue hr =>
    rw [if_pos hr]
    split at h
    case isTrue => contradiction
    case isFalse =>
      have ha : c'.accountKey = p.key existing := by
        dsimp only at h
        split at h
        case isTrue =>
          cases h
          rfl
        case isFalse => exact persist_accountKey h
      rw [key_of_accountKey (ha ▸ key_trimmed) (ha ▸ hr.1), ha]

theorem key_kept_with :
    p.key (p.kept { c with id := name, createdAt := time }) = p.key (p.kept c) := by
  unfold Provider.kept
  split <;> rfl

theorem adopt_ok (hj : p.toJson.Faithful) (h : adopt p c existing expected = .ok c') :
    c'.id = existing.id ∧ (p.key existing = "" ∨ p.key (p.kept c') = p.key existing) := by
  simp only [adopt] at h
  cases h₁ : retainKey p c existing expected
  case error e =>
    rw [h₁] at h
    contradiction
  case ok c₁ =>
    rw [h₁] at h
    dsimp only at h
    rw [← retain_key h₁] at h
    split at h
    case isTrue => contradiction
    case isFalse hk =>
      obtain ⟨c₂, h₂, rfl⟩ := map_eq_ok h
      refine ⟨rfl, ?_⟩
      rw [key_kept_with, normalize_ok hj h₂]
      by_contra hn
      rw [not_or] at hn
      exact hk ⟨hn.1, Ne.symm hn.2⟩

end Keys

section Runs

variable {ι : Type} [DecidableEq ι] {p : Provider}

-- What is shown about executions with and without restriction at once.
def allowed (p : Provider) (restricted : Bool) (i : ι) (q : Call) (s : Memory ι) : Prop :=
  restricted = true → unmoved p i q s

-- Others do not touch what is kept about a run.
def Rely (i : ι) (s s' : Memory ι) : Prop :=
  s'.found i = s.found i ∧ s'.wrote i = s.wrote i

structure Guarantee (p : Provider) (restricted : Bool) (expected : String) (i : ι)
    (s s' : Memory ι) : Prop where
  others : ∀ j ≠ i, Rely j s s'
  keeps : restricted = true → KeepsAccount p s s'
  reconnect : expected ≠ "" → s'.record = s.record ∨
    ∃ stored, s.record = some stored ∧ stored.id = expected

-- A run that fails has changed nothing.
def Post (i : ι) (result : Except StoreError Unit) (s : Memory ι) : Prop :=
  ∀ e, result = .error e → s.wrote i = false

abbrev SafeRun (p : Provider) (restricted : Bool) (expected : String) (i : ι) :
    Run (Except StoreError Unit) → Memory ι → Prop :=
  Safe (semantics p ι) (allowed p restricted) (fun _ => True) i (Rely i)
    (Guarantee p restricted expected i) (Post i)

variable {restricted : Bool} {expected : String} {i : ι} {s s' : Memory ι}
  {candidate existing : ExternalCredential}

omit [DecidableEq ι] in
theorem Guarantee.of_record (hr : s'.record = s.record) (ho : ∀ j ≠ i, Rely j s s') :
    Guarantee p restricted expected i s s' where
  others := ho
  keeps _     := by
    intro old new ho hn _
    rw [hr, ho] at hn
    cases hn
    rfl
  reconnect _ := .inl hr

omit [DecidableEq ι] in
theorem Guarantee.refl : Guarantee p restricted expected i s s :=
  .of_record rfl fun _ _ => ⟨rfl, rfl⟩

theorem others_write : ∀ j ≠ i, Rely j s (s.write p i candidate) :=
  fun j hj => ⟨rfl, by simp [Memory.write, hj]⟩

theorem safe_error (hw : s.wrote i = false) :
    SafeRun p restricted expected i (.ret (.error e)) s := by
  intro s' hr _ _ _
  rw [hr.2, hw]

theorem safe_ok : SafeRun p restricted expected i (.ret (.ok ())) s := by
  intro s' _ _ e he
  contradiction

theorem guarantee_write (hf : s.found i = some existing)
    (hk : p.key existing = "" ∨ p.key (p.kept candidate) = p.key existing)
    (ha : restricted = true → p.recordKey s.record = p.recordKey (s.found i))
    (hr : expected ≠ "" → ∃ stored, s.record = some stored ∧ stored.id = expected) :
    Guarantee p restricted expected i s (s.write p i candidate) where
  others := others_write
  keeps h   := by
    intro old new ho hn hne
    cases hn
    have he : p.key old = p.key existing := by
      have := ha h
      rwa [hf, ho] at this
    rw [he] at hne ⊢
    exact hk.resolve_left hne
  reconnect h := .inr (hr h)

theorem exec_upsertIfID (p : Provider) (i : ι) (c : ExternalCredential) (id : String)
    (s : Memory ι) :
    (∃ e, exec p i (.upsertIfID c id) none s = (s, .error e)) ∨
    ∃ stored, s.record = some stored ∧ stored.id = id ∧ exec p i (.upsertIfID c id) none s =
      (s.write p i { c with id := stored.id, createdAt := stored.createdAt }, .ok ()) := by
  cases hs : s.record
  case none => exact .inl ⟨.notFound, by simp only [exec, hs]⟩
  case some stored =>
    by_cases hid : stored.id = id
    case pos => exact .inr ⟨stored, rfl, hid, by simp only [exec, hs, if_pos hid]⟩
    case neg => exact .inl ⟨.alreadyExists, by simp only [exec, hs, if_neg hid]⟩

theorem safe_upsert (hj : p.toJson.Faithful) (hf : s.found i = some existing)
    (hw : s.wrote i = false) :
    SafeRun p restricted expected i (upsertCredentialAtInstance p candidate existing expected) s := by
  unfold upsertCredentialAtInstance
  split
  case h_1 => exact safe_error hw
  case h_2 c hc =>
    obtain ⟨-, hk⟩ := adopt_ok hj hc
    by_cases he : expected = ""
    case pos =>
      subst he
      rw [if_neg (by simp)]
      intro t ht _ hg o
      have hf' := ht.1.trans hf
      have hw' := ht.2.trans hw
      cases o
      case some f => exact ⟨trivial, .refl, safe_error hw'⟩
      case none =>
        exact ⟨trivial, guarantee_write hf' hk (fun h => hg h) (fun h => absurd rfl h), safe_ok⟩
    case neg =>
      rw [if_pos he]
      by_cases hcond : p.conditional = true
      case neg =>
        rw [if_pos hcond]
        exact safe_error hw
      case pos =>
        rw [if_neg (by simpa using hcond)]
        intro t ht _ hg o
        have hf' := ht.1.trans hf
        have hw' := ht.2.trans hw
        cases o
        case some f => exact ⟨trivial, .refl, safe_error hw'⟩
        case none =>
          rcases exec_upsertIfID p i c expected t with ⟨e, hx⟩ | ⟨stored, hs, hid, hx⟩
          case inl =>
            rw [show (semantics p ι).exec i _ none t = _ from hx]
            refine ⟨trivial, .refl, ?_⟩
            cases e <;> exact safe_error hw'
          case inr =>
            rw [show (semantics p ι).exec i _ none t = _ from hx]
            exact ⟨trivial, guarantee_write hf' (key_kept_with ▸ hk) (fun h => hg h)
              (fun _ => ⟨stored, hs, hid⟩), safe_ok⟩

theorem safe_found (hj : p.toJson.Faithful) (hf : s.found i = some existing)
    (hw : s.wrote i = false) :
    SafeRun p restricted expected i (replaceFound p candidate existing expected) s := by
  unfold replaceFound
  split
  case isTrue => exact safe_error hw
  case isFalse => exact safe_upsert hj hf hw

theorem safe_get {k : Except ProviderError ExternalCredential → Run (Except StoreError Unit)}
    (hw : s.wrote i = false)
    (he : ∀ e t, t.wrote i = false → SafeRun p restricted expected i (k (.error e)) t)
    (ho : ∀ existing t, t.wrote i = false → t.found i = some existing →
      SafeRun p restricted expected i (k (.ok existing)) t) :
    SafeRun p restricted expected i (.call .get k) s := by
  intro t ht _ _ o
  have hw' := ht.2.trans hw
  cases o
  case some f => exact ⟨trivial, .refl, he _ _ hw'⟩
  case none =>
    refine ⟨trivial, .of_record rfl fun j hj => ⟨by simp [exec, hj], rfl⟩, ?_⟩
    cases hr : t.record
    case none =>
      simp only [exec, hr]
      exact he _ _ hw'
    case some existing =>
      simp only [exec, hr]
      exact ho existing _ hw' (by simp)

theorem safe_after_conflict (hj : p.toJson.Faithful) (hw : s.wrote i = false) :
    SafeRun p restricted expected i (replaceAfterConflict p candidate expected) s :=
  safe_get hw (fun _ _ hw => safe_error hw) fun _ _ hw hf => safe_found hj hf hw

theorem safe_create (hj : p.toJson.Faithful) (he : expected = "") (hw : s.wrote i = false) :
    SafeRun p restricted expected i (createCredential p candidate expected) s := by
  intro t ht _ _ o
  have hw' := ht.2.trans hw
  cases o
  case some f => exact ⟨trivial, .refl, safe_error hw'⟩
  case none =>
    cases hr : t.record
    case some stored =>
      simp only [exec, hr]
      exact ⟨trivial, .refl, safe_after_conflict hj hw'⟩
    case none =>
      simp only [exec, hr]
      refine ⟨trivial, ⟨others_write, fun _ old _ ho => ?_, fun h => absurd he h⟩, safe_ok⟩
      rw [hr] at ho
      contradiction

theorem safe_store (hj : p.toJson.Faithful) (hw : s.wrote i = false) :
    SafeRun p restricted (trimSpace expected) i (storeCredentialAtInstance p candidate expected)
      s := by
  refine safe_get hw (fun e t hw => ?_) fun existing t hw hf => safe_found hj hf hw
  cases e
  case notFound =>
    by_cases he : trimSpace expected = ""
    case neg =>
      simp only [ne_eq, he, not_false_eq_true, if_true]
      exact safe_error hw
    case pos =>
      simp only [ne_eq, he, not_true_eq_false, if_false]
      cases normalizeAccountKeyForStorage p candidate
      case error => exact safe_error hw
      case ok c  => exact safe_create hj rfl hw
  case alreadyExists => exact safe_error hw
  case other => exact safe_error hw

end Runs

section Executions

variable {ι : Type} [DecidableEq ι] {p : Provider} (runs : ι → Option Connect)
  (record : Option ExternalCredential)

-- The credential that a run has to reconnect, if any.
def expectedOf (i : ι) : String :=
  (runs i).elim "" fun run => trimSpace run.expectedCredentialID

theorem compatible (restricted : Bool) :
    Compatible (semantics p ι) (fun _ => True) Rely
      fun i => Guarantee p restricted (expectedOf runs i) i where
  refl _ _           := ⟨rfl, rfl⟩
  trans _ _ _ _ h h' := ⟨h'.1.trans h.1, h'.2.trans h.2⟩
  interfere hij _ _ h := h.others _ (Ne.symm hij)
  env_inv _ _ _      := trivial
  env_rely _ _ _ _   := ⟨rfl, rfl⟩

theorem sound (hj : p.toJson.Faithful) (restricted : Bool) :
    Sound (semantics p ι) (allowed p restricted) (fun _ => True) Rely
      (fun i => Guarantee p restricted (expectedOf runs i) i) Post (config p runs record) where
  holds := trivial
  safe i := by
    simp only [config, expectedOf]
    cases runs i
    case none => exact safe_ok
    case some r => exact safe_store hj rfl

omit [DecidableEq ι] in
theorem allowed_true (p : Provider) :
    allowed p true = (unmoved p : ι → Call → Memory ι → Prop) := by
  funext i q s
  simp [allowed]

omit [DecidableEq ι] in
theorem allowed_false (p : Provider) :
    allowed p false = (unguarded : ι → Call → Memory ι → Prop) := by
  funext i q s
  simp [allowed, unguarded]

theorem record_of_wrote {s : Memory ι}
    (h : (exec p i q o s).1.wrote i = false) : (exec p i q o s).1.record = s.record := by
  cases o
  case some => cases q <;> rfl
  case none =>
    cases q
    case get => rfl
    case create c =>
      cases hr : s.record <;> simp only [exec, hr] at h ⊢
      case none => simp [Memory.write] at h
    case upsert c => simp [exec, Memory.write] at h
    case upsertIfID c id =>
      rcases exec_upsertIfID p i c id s with ⟨e, hx⟩ | ⟨stored, -, -, hx⟩
      case inl => rw [hx]
      case inr =>
        rw [hx] at h
        simp [Memory.write] at h

theorem stored_accounts_kept (hj : p.toJson.Faithful) :
    (∀ c c', Reaches (semantics p ι) (unmoved p) (config p runs record) c →
      Step (semantics p ι) (unmoved p) c c' → KeepsAccount p c.mem c'.mem) ∧
    (∀ c i q k o, Reaches (semantics p ι) unguarded (config p runs record) c →
      c.prog i = .call q k → expectedOf runs i ≠ "" →
      (exec p i q o c.mem).1.record = c.mem.record ∨
        ∃ stored, c.mem.record = some stored ∧ stored.id = expectedOf runs i) ∧
    (∀ c i e, Reaches (semantics p ι) unguarded (config p runs record) c →
      c.prog i = .ret (.error e) → c.mem.wrote i = false) ∧
    ∀ i q o (s : Memory ι), (exec p i q o s).1.wrote i = false →
      (exec p i q o s).1.record = s.record := by
  refine ⟨?_, ?_, ?_, fun _ _ _ _ => record_of_wrote⟩
  case refine_1 =>
    intro c c' hr e
    rw [← allowed_true p] at hr e
    have hs := (sound runs record hj true).reaches (compatible runs true) hr
    cases e
    case env id =>
      intro old new ho hn _
      simp only [Config.disturb, ho] at hn
      cases (Option.filter_eq_some_iff.mp hn).1
      rfl
    case call i q k o hp hg =>
      have hi := hs.safe i
      rw [hp] at hi
      exact (hi _ ⟨rfl, rfl⟩ trivial hg o).2.1.keeps rfl
  case refine_2 =>
    intro c i q k o hr hp he
    rw [← allowed_false p] at hr
    have hs := (sound runs record hj false).reaches (compatible runs false) hr
    have hi := hs.safe i
    rw [hp] at hi
    exact (hi _ ⟨rfl, rfl⟩ trivial (by simp [allowed]) o).2.1.reconnect he
  case refine_3 =>
    intro c i e hr hp
    rw [← allowed_false p] at hr
    have hs := (sound runs record hj false).reaches (compatible runs false) hr
    exact hs.result (compatible runs false) hp e rfl

end Executions

section Example

open Classical in
-- An ideal encoding of maps.
noncomputable def exampleJson : Json where
  unmarshal s := if h : ∃ m, numeral (GoMap String) m = s then some h.choose else none
  marshal := numeral (GoMap String)

theorem exampleJson_faithful : exampleJson.Faithful where
  unmarshal_marshal := by
    intro m
    have h : ∃ m', numeral (GoMap String) m' = numeral (GoMap String) m := ⟨m, rfl⟩
    rw [exampleJson]
    dsimp only
    rw [dif_pos h, numeral_injective _ h.choose_spec]
  ne_blank := by
    intro m
    exact trimSpace_ne_empty (dash_mem_numeral _) (by decide +kernel)

noncomputable def exampleProvider : Provider :=
  { exampleJson with persistsAccountKey := true, conditional := true }

def exampleRecord : ExternalCredential where
  id := "1"
  qualifier := "default"

-- Two accounts are connected to an instance with an older credential that has no account key.
def exampleRuns (i : Fin 2) : Option Connect :=
  some {
    candidate := {
      id         := "new"
      qualifier  := "default"
      accountKey := if i = 0 then "a" else "b"
    }
    expectedCredentialID := ""
  }

theorem stored_accounts_kept_example :
    exampleJson.Faithful ∧ ∀ c c', Reaches (semantics exampleProvider (Fin 2))
      (unmoved exampleProvider) (config exampleProvider exampleRuns (some exampleRecord)) c →
      Step (semantics exampleProvider (Fin 2)) (unmoved exampleProvider) c c' →
      KeepsAccount exampleProvider c.mem c'.mem :=
  ⟨exampleJson_faithful,
    (stored_accounts_kept exampleRuns (some exampleRecord) exampleJson_faithful).1⟩

-- Both runs read the older credential before one of them writes.
theorem stored_account_overwritten :
    ∃ c c', Reaches (semantics exampleProvider (Fin 2)) unguarded
        (config exampleProvider exampleRuns (some exampleRecord)) c ∧
      Step (semantics exampleProvider (Fin 2)) unguarded c c' ∧
      c.mem.record.map exampleProvider.key = some "b" ∧
      c'.mem.record.map exampleProvider.key = some "a" := by
  have h : ∃ c, Reaches (semantics exampleProvider (Fin 2)) unguarded
        (config exampleProvider exampleRuns (some exampleRecord)) c ∧
      c.mem.record.map exampleProvider.key = some "b" ∧
      (c.fire (semantics exampleProvider (Fin 2)) unguarded (.call 0 none)).any
        fun c' => c'.mem.record.map exampleProvider.key = some "a" :=
    Config.exists_reaches_of_run [.call 0 none, .call 1 none, .call 1 none] (by decide +kernel)
  obtain ⟨c, hr, hc, hf⟩ := h
  cases hc' : c.fire (semantics exampleProvider (Fin 2)) unguarded (.call 0 none)
  case none =>
    rw [hc'] at hf
    contradiction
  case some c' =>
    rw [hc'] at hf
    exact ⟨c, c', hr, Config.step_of_fire hc', hc, of_decide_eq_true hf⟩

end Example

end Credentials.Store
