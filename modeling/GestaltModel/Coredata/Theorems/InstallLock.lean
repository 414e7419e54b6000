import GestaltModel.Coredata.InstallLock
import GestaltModel.Interleaving.Theorems.RelyGuarantee

namespace Coredata.AppVersionInstallLockService

open Interleaving ObjectStore
open Text (trimSpace)
open Function (Injective)

variable {ι : Type} {holders : ι → String} {i j : ι} {key id : String} {e : Int}
variable {s s' s₁ s₂ s₃ : LockMemory ι}

-- The record of the lock is there and belongs to holder `i`, until it expires.
def Secured (holders : ι → String) (i : ι) (key : String) (expiresAt : Int) (s : LockMemory ι) :
    Prop :=
  s.clock < expiresAt → ∃ lock, s.locks.lookup key = some lock ∧
    lock.holder = trimSpace (holders i) ∧ lock.expiresAt = expiresAt

def Inv (holders : ι → String) (s : LockMemory ι) : Prop :=
  ∀ i key e, s.granted i key = some e → Secured holders i key e s

-- Others do not touch the records of holder `i` before they expire.
structure Rely (holders : ι → String) (i : ι) (s s' : LockMemory ι) : Prop where
  clock : s.clock ≤ s'.clock
  granted : s'.granted i = s.granted i
  own : ∀ {key lock}, s.locks.lookup key = some lock →
    lock.holder = trimSpace (holders i) → s'.clock < lock.expiresAt →
    s'.locks.lookup key = some lock

-- Holder `i` does not touch the records of others before they expire.
structure Guar (holders : ι → String) (i : ι) (s s' : LockMemory ι) : Prop where
  clock : s'.clock = s.clock
  granted : ∀ {j}, j ≠ i → s'.granted j = s.granted j
  others : ∀ {key lock}, s.locks.lookup key = some lock →
    lock.holder ≠ trimSpace (holders i) → s.clock < lock.expiresAt →
    s'.locks.lookup key = some lock

theorem Rely.refl (i : ι) (s : LockMemory ι) : Rely holders i s s where
  clock := le_rfl
  granted := rfl
  own h _ _ := h

theorem Rely.trans (h₁ : Rely holders i s₁ s₂) (h₂ : Rely holders i s₂ s₃) :
    Rely holders i s₁ s₃ where
  clock := h₁.clock.trans h₂.clock
  granted := h₂.granted.trans h₁.granted
  own h ho he := h₂.own (h₁.own h ho (h₂.clock.trans_lt he)) ho he

theorem Guar.refl (i : ι) (s : LockMemory ι) : Guar holders i s s where
  clock := rfl
  granted _    := rfl
  others h _ _ := h

theorem Secured.mono (h : Secured holders i key e s) (hr : Rely holders i s s') :
    Secured holders i key e s' := by
  intro he
  have ⟨lock, hl, ho, hx⟩ := h (hr.clock.trans_lt he)
  exact ⟨lock, hr.own hl ho (hx ▸ he), ho, hx⟩

theorem compatible [DecidableEq ι] (inj : Injective (trimSpace ∘ holders)) :
    Compatible (lockSemantics ι) (Inv holders) (Rely holders) (Guar holders) where
  refl := .refl
  trans _ := .trans
  interfere {i j s s'} hij _ _ h := {
    clock := h.clock.ge
    granted := h.granted hij.symm
    own := fun hl ho he => by
      refine h.others hl (fun ho' => hij (inj ?_)) (h.clock ▸ he)
      exact ho'.symm.trans ho }
  env_inv d s h := by
    intro i key e hg he
    have he : s.clock + d < e := he
    exact h i key e hg (by omega)
  env_rely d i s _ := {
    clock := Int.le_add_of_nonneg_right (Int.natCast_nonneg d)
    granted := rfl
    own := fun hl _ _ => hl }

section Touch

variable {locks : ObjectStore AppVersionInstallLock}

theorem Disposable.ne (h : Disposable holders i id s)
    (inj : Injective (trimSpace ∘ holders)) (hi : Inv holders s)
    (hg : s.granted j key = some e) (he : s.clock < e) : key ≠ id := by
  intro hk
  subst hk
  have ⟨lock, hl, ho, hx⟩ := hi j key e hg he
  have ⟨ho', hn⟩ := h lock hl (hx ▸ he)
  have hj : j = i := inj (ho.symm.trans ho')
  exact nomatch (hj ▸ hg).symm.trans hn

theorem Disposable.inv (h : Disposable holders i id s)
    (inj : Injective (trimSpace ∘ holders)) (hi : Inv holders s)
    (hl : ∀ key ≠ id, locks.lookup key = s.locks.lookup key) :
    Inv holders { s with locks } := by
  intro j key e hg he
  have hne := h.ne inj hi hg he
  have hs := hi j key e hg he
  rwa [← hl key hne] at hs

theorem Disposable.guar (h : Disposable holders i id s)
    (hl : ∀ key ≠ id, locks.lookup key = s.locks.lookup key) :
    Guar holders i s { s with locks } where
  clock := rfl
  granted _ := rfl
  others {key lock} hk ho he := by
    rw [← hk]
    refine hl key fun hid => ho ?_
    subst hid
    exact (h lock hk he).left

theorem Disposable.of_absent (h : s.locks.lookup id = none) : Disposable holders i id s := by
  intro lock hl
  exact nomatch hl.symm.trans h

end Touch

section Programs

variable [DecidableEq ι] {post : α → LockMemory ι → Prop}

abbrev LockSafe (holders : ι → String) (i : ι) (post : α → LockMemory ι → Prop)
    (prog : LockProgram α) (s : LockMemory ι) : Prop :=
  Safe (lockSemantics ι) (disposing holders) (Inv holders) i (Rely holders i) (Guar holders i) post
    prog s

-- The rules for the single requests. In each of them the request can also fail, which has no effect.

theorem now_safe {k : Int → LockProgram α}
    (h : ∀ s', Rely holders i s s' → LockSafe holders i post (k s'.clock) s') :
    LockSafe holders i post (.call .now k) s :=
  fun s' hr hi _ _ => ⟨hi, .refl i s', h s' hr⟩

theorem getAll_safe {k : LockCall.getAll.Response → LockProgram α}
    (failed : ∀ s' f, Rely holders i s s' → LockSafe holders i post (k (.error f)) s')
    (found : ∀ s', Rely holders i s s' →
      LockSafe holders i post (k (.ok s'.locks.getAll)) s') :
    LockSafe holders i post (.call .getAll k) s := by
  intro s' hr hi _ o
  cases o
  case none => exact ⟨hi, .refl i s', found s' hr⟩
  case some f => exact ⟨hi, .refl i s', failed s' f hr⟩

theorem get_safe {k : (LockCall.get id).Response → LockProgram α}
    (failed : ∀ s' f, Rely holders i s s' → LockSafe holders i post (k (.error f)) s')
    (found : ∀ s' lock, Rely holders i s s' → s'.locks.lookup id = some lock →
      LockSafe holders i post (k (.ok lock)) s') :
    LockSafe holders i post (.call (.get id) k) s := by
  intro s' hr hi _ o
  refine ⟨?_, ?_, ?_⟩
  · cases o <;> exact hi
  · cases o <;> exact .refl i s'
  · cases o
    case some f => exact failed s' f hr
    case none =>
      simp only [LockCall.exec]
      cases hl : s'.locks.get id
      case error f => exact failed s' f hr
      case ok lock => exact found s' lock hr (get_eq_ok.mp hl)

variable (inj : Injective (trimSpace ∘ holders))
include inj

theorem add_safe {k : Except Failure Unit → LockProgram α}
    (failed : ∀ s' f, Rely holders i s s' → LockSafe holders i post (k (.error f)) s')
    (added : ∀ s', Rely holders i s s' →
      LockSafe holders i post (k (.ok ())) { s' with locks := s'.locks.put lock }) :
    LockSafe holders i post (.call (.add lock) k) s := by
  intro s' hr hi _ o
  cases o
  case some f => exact ⟨hi, .refl i s', failed s' f hr⟩
  case none =>
    simp only [LockCall.exec]
    cases ha : s'.locks.add lock
    case error f => exact ⟨hi, .refl i s', failed s' f hr⟩
    case ok locks =>
      have ⟨hn, he⟩ := add_eq_ok.mp ha
      subst he
      have hd : Disposable holders i lock.id s' := .of_absent hn
      have hl : ∀ key ≠ lock.id, (s'.locks.put lock).lookup key = s'.locks.lookup key :=
        fun _ h => lookup_put_of_ne h
      exact ⟨hd.inv inj hi hl, hd.guar hl, added s' hr⟩

theorem put_safe {k : Except Failure Unit → LockProgram α}
    (failed : ∀ s' f, Rely holders i s s' → LockSafe holders i post (k (.error f)) s')
    (written : ∀ s', Rely holders i s s' →
      LockSafe holders i post (k (.ok ())) { s' with locks := s'.locks.put lock }) :
    LockSafe holders i post (.call (.put lock) k) s := by
  intro s' hr hi hd o
  have hl : ∀ key ≠ lock.id, (s'.locks.put lock).lookup key = s'.locks.lookup key :=
    fun _ h => lookup_put_of_ne h
  cases o
  case some f => exact ⟨hi, .refl i s', failed s' f hr⟩
  case none => exact ⟨Disposable.inv hd inj hi hl, Disposable.guar hd hl, written s' hr⟩

theorem delete_safe {k : Except Failure Unit → LockProgram α}
    (failed : ∀ s' f, Rely holders i s s' → LockSafe holders i post (k (.error f)) s')
    (deleted : ∀ s', Rely holders i s s' →
      LockSafe holders i post (k (.ok ())) { s' with locks := s'.locks.erase id }) :
    LockSafe holders i post (.call (.delete id) k) s := by
  intro s' hr hi hd o
  cases o
  case some f => exact ⟨hi, .refl i s', failed s' f hr⟩
  case none =>
    simp only [LockCall.exec]
    cases ha : s'.locks.delete id
    case error f => exact ⟨hi, .refl i s', failed s' f hr⟩
    case ok locks =>
      have ⟨_, he⟩ := delete_eq_ok.mp ha
      subst he
      have hl : ∀ key ≠ id, (s'.locks.erase id).lookup key = s'.locks.lookup key :=
        fun _ h => lookup_erase_of_ne h
      exact ⟨Disposable.inv hd inj hi hl, Disposable.guar hd hl, deleted s' hr⟩

theorem tryAddLock_safe (ho : lock.holder = trimSpace (holders i)) :
    LockSafe holders i (fun r s => r = .ok () → Secured holders i lock.id lock.expiresAt s)
      (tryAddLock lock) s := by
  rw [tryAddLock, request_bind]
  refine add_safe inj (fun s' f _ => ?_) (fun s' _ s'' hr _ _ => ?_)
  · dsimp only
    split <;> exact fun _ _ _ => nofun
  · exact Secured.mono (fun _ => ⟨lock, lookup_put_self, ho, rfl⟩) hr

theorem putLock_safe (ho : lock.holder = trimSpace (holders i)) :
    LockSafe holders i (fun r s => r = .ok () → Secured holders i lock.id lock.expiresAt s)
      (putLock lock) s := by
  rw [putLock, request_bind]
  refine put_safe inj (fun s' f _ => fun _ _ _ => nofun) (fun s' _ s'' hr _ _ => ?_)
  exact Secured.mono (fun _ => ⟨lock, lookup_put_self, ho, rfl⟩) hr

-- By induction on the records left. One of the holder that is still in the list was not deleted.
theorem checkAppLocks_safe (hn : (recs.map Record.id).Nodup)
    (h : ∀ lock ∈ recs, lock.holder = trimSpace (holders i) →
      Secured holders i lock.id lock.expiresAt s) :
    LockSafe holders i (fun r s => ∀ e, r = .ok (some e) → Secured holders i key e s)
      (checkAppLocks key app (trimSpace (holders i)) now recs) s := by
  induction recs generalizing s
  case nil => exact fun _ _ _ => nofun
  case cons current recs hi =>
    have ⟨hid, hn⟩ := List.nodup_cons.mp hn
    have htail (lock) (hm : lock ∈ recs) := h lock (List.mem_cons_of_mem _ hm)
    rw [checkAppLocks]
    split; · exact hi hn htail
    split
    · split
      case isTrue ho =>
        intro s' hr _ e he
        cases he
        rw [← ho.left]
        exact (h current List.mem_cons_self ho.right).mono hr
      case isFalse => exact fun _ _ _ => nofun
    · rw [request_bind]
      refine delete_safe inj (fun s' f hr => ?_) (fun s' hr => ?_)
      · simp only [deleteError]
        split
        case h_1 => exact fun _ _ _ => nofun
        case h_2 => exact hi hn fun lock hm ho => (htail lock hm ho).mono hr
      · refine hi hn fun lock hm ho he => ?_
        have hne : lock.id ≠ current.id := fun hk => hid (List.mem_map.mpr ⟨_, hm, hk⟩)
        have ⟨lock', hl, h'⟩ := (htail lock hm ho).mono hr he
        exact ⟨lock', (lookup_erase_of_ne hne).trans hl, h'⟩

theorem clearStaleAndCheckAppLocks_safe :
    LockSafe holders i (fun r s => ∀ e, r = .ok (some e) → Secured holders i key e s)
      (clearStaleAndCheckAppLocks key app (trimSpace (holders i)) now) s := by
  rw [clearStaleAndCheckAppLocks, request_bind]
  refine getAll_safe (fun _ _ _ => fun _ _ _ => nofun) fun s' _ => ?_
  refine checkAppLocks_safe inj nodup_getAll fun lock hm ho _ => ?_
  exact ⟨lock, mem_getAll.mp hm, ho, rfl⟩

theorem acquireDeleted_safe (ho : lock.holder = trimSpace (holders i)) :
    LockSafe holders i (fun r s => ∀ e, r = .ok e → Secured holders i lock.id e s)
      (acquireDeleted lock) s := by
  refine .bind (.refl i) (tryAddLock_safe inj ho) fun r s _ h => ?_
  cases r
  case ok =>
    intro s' hr _ e he
    cases he
    exact (h rfl).mono hr
  case error =>
    dsimp only
    split <;> exact fun _ _ _ => nofun

theorem acquireExisting_safe (ho : lock.holder = trimSpace (holders i)) :
    LockSafe holders i (fun r s => ∀ e, r = .ok e → Secured holders i lock.id e s)
      (acquireExisting now lock) s := by
  have refl := @Rely.refl _ holders i
  have map {r : Except Failure Unit} {s : LockMemory ι}
      (h : r = .ok () → Secured holders i lock.id lock.expiresAt s) :
      ∀ e, (r.map fun () => lock.expiresAt) = .ok e → Secured holders i lock.id e s := by
    intro e he
    cases r <;> cases he
    exact h rfl
  rw [acquireExisting, request_bind]
  refine get_safe (fun s' f _ => ?_) (fun s' current hr hl => ?_)
  case refine_1 =>
    dsimp only
    split
    · exact .bind refl (tryAddLock_safe inj ho) fun r s _ h s' hr _ => map fun hr' => (h hr').mono hr
    · exact fun _ _ _ => nofun
  case refine_2 =>
    dsimp only
    split
    case isTrue hown =>
      split
      · intro s'' hr _ e he
        cases he
        exact Secured.mono (fun _ => ⟨current, hl, hown.trans ho, rfl⟩) hr
      · exact .bind refl (putLock_safe inj ho) fun r s _ h s' hr _ => map fun hr' => (h hr').mono hr
    case isFalse =>
      split; · exact fun _ _ _ => nofun
      rw [request_bind]
      refine delete_safe inj (fun s' f hr => ?_) (fun s' hr => ?_)
      · simp only [deleteError]
        split
        case h_1 => exact fun _ _ _ => nofun
        case h_2 => exact acquireDeleted_safe inj ho
      · exact acquireDeleted_safe inj ho

theorem acquire_safe :
    LockSafe holders i
      (fun r s => ∀ e, r = .ok e → Secured holders i (appVersionInstallLockKey app) e s)
      (acquire app version (holders i) ttl) s := by
  have refl := @Rely.refl _ holders i
  have hkey : appVersionInstallLockKey (trimSpace app) = appVersionInstallLockKey app :=
    Text.trimSpace_trimSpace app
  rw [acquire]
  split; · exact fun _ _ _ => nofun
  split; · exact fun _ _ _ => nofun
  rw [request_bind, hkey]
  refine now_safe fun s₁ _ => ?_
  refine .bind refl (clearStaleAndCheckAppLocks_safe inj) fun r s₂ _ h => ?_
  match r with
  | .error e => exact fun _ _ _ => nofun
  | .ok (some e) =>
    intro s₃ hr _ e' he
    cases he
    exact (h e rfl).mono hr
  | .ok none =>
    refine .bind refl (tryAddLock_safe inj rfl) fun r s₃ _ h => ?_
    cases r
    case ok =>
      intro s₄ hr _ e he
      cases he
      exact (h rfl).mono hr
    case error =>
      dsimp only
      split
      · exact fun _ _ _ => nofun
      · exact acquireExisting_safe inj rfl

theorem release_safe :
    LockSafe holders i (fun _ _ => True) (release app version (holders i)) s := by
  rw [release]
  split; · exact fun _ _ _ => trivial
  rw [request_bind]
  refine get_safe (fun s₁ f _ => ?_) (fun s₁ existing _ _ => ?_)
  · dsimp only
    split <;> exact fun _ _ _ => trivial
  · dsimp only
    split; · exact fun _ _ _ => trivial
    rw [request_bind]
    exact delete_safe inj (fun _ _ _ => fun _ _ _ => trivial) (fun _ _ => fun _ _ _ => trivial)

omit inj in
theorem grant_guar : Guar holders i s (LockCall.grant s i key x) where
  clock := rfl
  granted hj   := by simp [LockCall.grant, hj]
  others h _ _ := h

omit inj in
theorem grant_inv (hi : Inv holders s) (hx : ∀ e, x = some e → Secured holders i key e s) :
    Inv holders (LockCall.grant s i key x) := by
  intro j k e hg
  simp only [LockCall.grant] at hg
  split at hg
  case isTrue hj =>
    rw [hj.left, hj.right]
    exact hx e hg
  case isFalse => exact hi j k e hg

theorem program_safe (operations : List Operation) :
    LockSafe holders i (fun _ _ => True) (program (holders i) operations) s := by
  have refl := @Rely.refl _ holders i
  induction operations generalizing s
  case nil => exact fun _ _ _ => trivial
  case cons operation operations hi =>
    cases operation
    case acquire app version ttl =>
      rw [program]
      refine .bind refl (acquire_safe inj) fun r s₁ _ h => ?_
      cases r
      case error => exact hi
      case ok e =>
        intro s₂ hr hinv _ _
        refine ⟨grant_inv hinv fun e' he => ?_, grant_guar, hi⟩
        cases he
        exact (h e rfl).mono hr
    case release app version =>
      rw [program, request_bind]
      intro s₁ _ hinv _ _
      exact ⟨grant_inv hinv nofun, grant_guar, .bind refl (release_safe inj) fun _ _ _ _ => hi⟩

end Programs

section Main

variable {operations : ι → List Operation} {clock : Int}
variable {locks : ObjectStore AppVersionInstallLock}

theorem Inv.exclusive (inj : Injective (trimSpace ∘ holders)) (h : Inv holders s)
    (hi : Holding s i key) (hj : Holding s j key) : i = j := by
  have ⟨e₁, hg₁, he₁⟩ := hi
  have ⟨e₂, hg₂, he₂⟩ := hj
  have ⟨l₁, hl₁, ho₁, _⟩ := h i key e₁ hg₁ he₁
  have ⟨l₂, hl₂, ho₂, _⟩ := h j key e₂ hg₂ he₂
  have hl : l₁ = l₂ := Option.some.inj (hl₁.symm.trans hl₂)
  exact inj (ho₁.symm.trans (hl ▸ ho₂))

variable [DecidableEq ι]

-- No two holders hold the lock of an app, as long as what is deleted or replaced is disposable.
theorem mutual_exclusion {c : Config ι LockCall LockCall.Response Unit (LockMemory ι)}
    (inj : Injective (trimSpace ∘ holders))
    (h : Reaches (lockSemantics ι) (disposing holders) (config holders operations clock locks) c)
    (hij : i ≠ j) : ¬(Holding c.mem i key ∧ Holding c.mem j key) := by
  intro ⟨hi, hj⟩
  have hs : Sound (lockSemantics ι) (disposing holders) (Inv holders) (Rely holders) (Guar holders)
      (fun _ _ _ => True) (config holders operations clock locks) :=
    ⟨nofun, fun i => program_safe inj (operations i)⟩
  exact hij ((hs.reaches (compatible inj) h).holds.exclusive inj hi hj)

end Main

section Demo

def demoHolders (second : Bool) : String :=
  if second then "second" else "first"

def demoConfig : Config Bool LockCall LockCall.Response Unit (LockMemory Bool) :=
  config demoHolders (fun _ => [.acquire "demo" "1.0.0" 0]) (5 * Time.second)
    (ObjectStore.put ∅ ⟨"demo", "demo", "1.0.0", "crashed", 0, 1⟩)

-- The second holder acquires the lock, it expires, and the first holder acquires it.
def demoHandover : List (Event (lockSemantics Bool)) :=
  List.replicate 5 (.call true none) ++ [.env 960000000000] ++ List.replicate 5 (.call false none)

theorem mutual_exclusion_handover :
    ∃ c, Reaches (lockSemantics Bool) (disposing demoHolders) demoConfig c ∧
    Holding c.mem false "demo" ∧ (c.mem.granted true "demo").isSome ∧
    ¬Holding c.mem true "demo" := by
  have ⟨c, hr, hf, ht⟩ : ∃ c, Reaches (lockSemantics Bool) (disposing demoHolders) demoConfig c ∧
      Holding c.mem false "demo" ∧ (c.mem.granted true "demo").isSome :=
    Config.exists_reaches_of_run demoHandover (by decide +kernel)
  have inj : Injective (trimSpace ∘ demoHolders) := by decide +kernel
  exact ⟨c, hr, hf, ht, fun h => mutual_exclusion inj hr (by decide) ⟨hf, h⟩⟩

-- Both find the stale record. The first one is slow and deletes what the second has added.
def demoLate : List (Event (lockSemantics Bool)) :=
  List.replicate 2 (.call false none) ++ List.replicate 5 (.call true none) ++
  List.replicate 3 (.call false none)

theorem late_delete_breaks_exclusion : ∃ c, Reaches (lockSemantics Bool) unguarded demoConfig c ∧
    Holding c.mem false "demo" ∧ Holding c.mem true "demo" :=
  Config.exists_reaches_of_run demoLate (by decide +kernel)

end Demo
end Coredata.AppVersionInstallLockService
