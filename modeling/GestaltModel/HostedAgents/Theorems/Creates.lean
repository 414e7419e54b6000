import GestaltModel.HostedAgents.Theorems.Routes

namespace HostedAgents

open Goroutines

-- No preparation of a workspace under the key fails.
def Prepared (key : String) : Call → Outcome → Pool → Prop
  | .prepareWorkspace req _ _, o, _ => req.createKey = key → o.prepared
  | _, _, _ => True

-- The backend first claimed keeps the key while in the pool, and the creates of the key are on it.
structure KeyKept (key : String) (s : Pool) (M : Multiset Phase) : Prop where
  owner : ∀ f, s.firstClaims.lookup key = some f → f ∈ s.backends →
    s.createKeyBackends.lookup key = some f
  known : ∀ b, s.createKeyBackends.lookup key = some b → ∃ f, s.firstClaims.lookup key = some f
  made : ∀ f, s.firstClaims.lookup key = some f → (s.heap f).registered
  creating : ∀ φ ∈ M, ∀ b, φ.claim = .creating key b →
    ∃ f, s.firstClaims.lookup key = some f ∧ (f ∈ s.backends → b = f)
  kept : ∀ φ ∈ M, φ.claim ≠ .abandoning key

-- The calls after which a goroutine has another claim.
def Call.ChangesClaim : Call → Prop
  | claimCreateKeyBackend .. => True
  | prepareWorkspace .. => True
  | createSession .. => True
  | deleteCreateKeyBackend _ => True
  | _ => False

section Phases

variable {policy : LifecyclePolicy} {q : Call} {φ : Phase}

theorem next_claim_eq (hq : ¬q.ChangesClaim) (hf : q ≠ .forever) (r : q.Response) :
    ((discipline policy).next φ q r).claim = φ.claim := by
  cases q
  case forever => exact absurd rfl hf
  case claimCreateKeyBackend => exact absurd trivial hq
  case prepareWorkspace => exact absurd trivial hq
  case createSession => exact absurd trivial hq
  case deleteCreateKeyBackend => exact absurd trivial hq
  all_goals rfl

theorem start_claim : ∀ φ ∈ startPhases Phase.start gs, φ.claim = .none := by
  intro φ hφ
  obtain ⟨g, -, rfl⟩ := List.mem_map.mp (Multiset.mem_coe.mp hφ)
  cases g <;> rfl

theorem Claim.eq_abandoning {claim : Claim} (hk : key ≠ "")
    (h : claim.Ok (.deleteCreateKeyBackend key)) : claim = .abandoning key := by
  cases claim
  case none => exact absurd hk h
  case creating => rcases h with ⟨_, _, h, _⟩ | ⟨_, h, _⟩ <;> contradiction
  case abandoning =>
    rcases h with ⟨_, _, _, h, _⟩ | h
    case inl => contradiction
    case inr =>
      cases h
      rfl

theorem Claim.eq_creating {claim : Claim} (hk : req.createKey ≠ "")
    (h : claim.Ok (.createSession req b)) : claim = .creating req.createKey b := by
  cases claim
  case none => exact absurd hk h
  case abandoning => rcases h with ⟨_, _, _, h, _⟩ | h <;> contradiction
  case creating =>
    rcases h with ⟨_, _, h, _⟩ | ⟨_, h, he⟩
    case inl => contradiction
    case inr =>
      cases h
      rw [he]

theorem Claim.eq_abandoning_of_remove {claim : Claim} (hk : req.createKey ≠ "")
    (h : claim.Ok (.removeWorkspace req b ref)) : claim = .abandoning req.createKey := by
  cases claim
  case none => exact absurd hk h
  case creating => rcases h with ⟨_, _, h, _⟩ | ⟨_, h, _⟩ <;> contradiction
  case abandoning =>
    rcases h with ⟨_, _, _, h, he⟩ | h
    case inr => contradiction
    case inl =>
      cases h
      rw [he]

end Phases

namespace KeyKept

variable {policy : LifecyclePolicy} {key : String}
variable {φ φ' : Phase} {q : Call} {b : Nat}

variable (h : KeyKept key s (φ ::ₘ M))
include h

theorem of_claims (hN : ∀ φ ∈ N, φ.claim = .none)
    (howner : ∀ f, s'.firstClaims.lookup key = some f → f ∈ s'.backends →
      s'.createKeyBackends.lookup key = some f)
    (hknown : ∀ b, s'.createKeyBackends.lookup key = some b → ∃ f, s'.firstClaims.lookup key = some f)
    (hmade : ∀ f, s'.firstClaims.lookup key = some f → (s'.heap f).registered)
    (hothers : ∀ f, s.firstClaims.lookup key = some f → s'.firstClaims.lookup key = some f ∧
      (f ∈ s'.backends → f ∈ s.backends))
    (hcreating : ∀ b, φ'.claim = .creating key b →
      ∃ f, s'.firstClaims.lookup key = some f ∧ (f ∈ s'.backends → b = f))
    (hkept : φ'.claim ≠ .abandoning key) : KeyKept key s' (φ' ::ₘ (M + N)) := by
  refine ⟨howner, hknown, hmade, forall_mem_next hcreating (fun ψ hψ b hb => ?_) fun ψ hψ b hb => ?_,
    forall_mem_next hkept (fun ψ hψ => h.kept ψ (Multiset.mem_cons_of_mem hψ)) fun ψ hψ he => ?_⟩
  case refine_1 =>
    have ⟨f, hf, he⟩ := h.creating ψ (Multiset.mem_cons_of_mem hψ) b hb
    have ⟨hf', hm⟩ := hothers f hf
    exact ⟨f, hf', fun hb => he (hm hb)⟩
  case refine_2 => exact absurd ((hN ψ hψ).symm.trans hb) nofun
  case refine_3 => exact absurd ((hN ψ hψ).symm.trans he) nofun

theorem congr (hN : ∀ φ ∈ N, φ.claim = .none)
    (hc : s'.firstClaims.lookup key = s.firstClaims.lookup key ∧
      s'.createKeyBackends.lookup key = s.createKeyBackends.lookup key)
    (hb : s'.backends = s.backends) (hr : ∀ b, (s.heap b).registered → (s'.heap b).registered)
    (hcreating : ∀ b, φ'.claim = .creating key b → φ.claim = .creating key b)
    (hkept : φ'.claim ≠ .abandoning key) : KeyKept key s' (φ' ::ₘ (M + N)) := by
  refine h.of_claims hN ?_ ?_ ?_ ?_ ?_ hkept
  · rw [hc.left, hc.right, hb]
    exact h.owner
  · rw [hc.left, hc.right]
    exact h.known
  · rw [hc.left]
    exact fun f hf => hr f (h.made f hf)
  · rw [hc.left, hb]
    exact fun f hf => ⟨hf, id⟩
  · rw [hc.left, hb]
    exact fun b hb => h.creating φ (Multiset.mem_cons_self φ M) b (hcreating b hb)

theorem startBackend (hr : (s.heap b).registered = false) (hφ : φ'.claim = φ.claim) :
    KeyKept key (s.startBackend policy b stamp inst).1 (φ' ::ₘ (M + 0)) := by
  have hk : φ'.claim ≠ .abandoning key := hφ ▸ h.kept φ (Multiset.mem_cons_self φ M)
  rw [Pool.startBackend]
  split
  case isTrue => exact h.congr forall_mem_zero ⟨rfl, rfl⟩ rfl (fun _ => id) (fun b hb => hφ ▸ hb) hk
  case isFalse =>
    -- The first backend of the key is not the new one.
    have hm {f : Nat} (hf : s.firstClaims.lookup key = some f) (hb : f ∈ s.backends ++ [b]) :
        f ∈ s.backends := by
      rcases List.mem_append.mp hb with hb | hb
      case inl => exact hb
      case inr => exact absurd ((List.mem_singleton.mp hb ▸ hr).symm.trans (h.made f hf)) (by simp)
    refine h.of_claims forall_mem_zero ?_ h.known ?_ ?_ ?_ hk
    · exact fun f hf hb => h.owner f hf (hm hf hb)
    · intro f hf
      dsimp only
      by_cases he : f = b
      case pos =>
        rw [he, Function.update_self]
        rfl
      case neg =>
        rw [Function.update_of_ne he]
        exact h.made f hf
    · exact fun f hf => ⟨hf, hm hf⟩
    · intro b' hb'
      obtain ⟨f, hf, he⟩ := h.creating φ (Multiset.mem_cons_self φ M) b' (hφ ▸ hb')
      exact ⟨f, hf, fun hb => he (hm hf hb)⟩

theorem checkDrained (hn : s.backends.Nodup)
    (hφ : φ'.claim = φ.claim) : KeyKept key (s.checkDrained b deadline).1 (φ' ::ₘ (M + 0)) := by
  have hk : φ'.claim ≠ .abandoning key := hφ ▸ h.kept φ (Multiset.mem_cons_self φ M)
  rw [Pool.checkDrained]
  split
  case isFalse => exact h.congr forall_mem_zero ⟨rfl, rfl⟩ rfl (fun _ => id) (fun b hb => hφ ▸ hb) hk
  case isTrue =>
    have hm {f : Nat} (hb : f ∈ s.backends.erase b) : f ≠ b ∧ f ∈ s.backends :=
      hn.mem_erase_iff.mp hb
    refine h.of_claims forall_mem_zero ?_ ?_ ?_ ?_ ?_ hk
    · intro f hf hb
      obtain ⟨hne, hb⟩ := hm hb
      simp only [Pool.removeBackendLocked, Pool.modify]
      rw [GoMap.lookup_eraseWhere, h.owner f hf hb]
      simp [Option.filter, hne]
    · intro b' hb'
      simp only [Pool.removeBackendLocked, Pool.modify] at hb'
      rw [GoMap.lookup_eraseWhere, Option.filter_eq_some_iff] at hb'
      exact h.known b' hb'.left
    · intro f hf
      simp only [Pool.removeBackendLocked, Pool.modify, Function.update_apply]
      split
      case isTrue he => exact he ▸ h.made f hf
      case isFalse   => exact h.made f hf
    · exact fun f hf => ⟨hf, fun hb => (hm hb).right⟩
    · intro b' hb'
      obtain ⟨f, hf, he⟩ := h.creating φ (Multiset.mem_cons_self φ M) b' (hφ ▸ hb')
      exact ⟨f, hf, fun hb => he (hm hb).right⟩

theorem endClose (hφ : φ'.claim = φ.claim) :
    KeyKept key s.endClose (φ' ::ₘ (M + 0)) := by
  refine h.of_claims forall_mem_zero (fun _ _ hb => absurd hb List.not_mem_nil) ?_ h.made ?_ ?_ ?_
  · intro b hb
    exact absurd hb (by simp [Pool.endClose])
  · exact fun f hf => ⟨hf, fun hb => absurd hb List.not_mem_nil⟩
  · intro b hb
    have ⟨f, hf, _⟩ := h.creating φ (Multiset.mem_cons_self φ M) b (hφ ▸ hb)
    exact ⟨f, hf, fun hb => absurd hb List.not_mem_nil⟩
  · exact hφ ▸ h.kept φ (Multiset.mem_cons_self φ M)

theorem claim (hr : (s.heap b).registered)
    (hφ : φ'.claim = if key' ≠ "" ∧ (s.claimCreateKeyBackend key' b).2 = b then .creating key' b
      else .none) : KeyKept key (s.claimCreateKeyBackend key' b).1 (φ' ::ₘ (M + 0)) := by
  have hk : φ'.claim ≠ .abandoning key := by
    rw [hφ]
    split <;> simp
  by_cases hn : key' ≠ key ∨ key' = ""
  case pos =>
    -- The claim is one of another key.
    have hl : (s.claimCreateKeyBackend key' b).1.firstClaims.lookup key = s.firstClaims.lookup key ∧
        (s.claimCreateKeyBackend key' b).1.createKeyBackends.lookup key =
          s.createKeyBackends.lookup key := by
      rw [Pool.claimCreateKeyBackend]
      split
      case isTrue => exact ⟨rfl, rfl⟩
      case isFalse he =>
        have hne : key ≠ key' := fun h => (hn.resolve_right he) h.symm
        split
        case h_1 => exact ⟨rfl, rfl⟩
        case h_2 =>
          refine ⟨?_, Finmap.lookup_insert_of_ne _ hne⟩
          dsimp only
          split
          case isTrue  => rfl
          case isFalse => exact Finmap.lookup_insert_of_ne _ hne
    have hs : (s.claimCreateKeyBackend key' b).1.backends = s.backends ∧
        (s.claimCreateKeyBackend key' b).1.heap = s.heap := by
      rw [Pool.claimCreateKeyBackend]
      repeat' split
      all_goals exact ⟨rfl, rfl⟩
    refine h.congr forall_mem_zero hl hs.left (fun b => hs.right ▸ id) (fun b' hb' => ?_) hk
    rw [hφ] at hb'
    split at hb'
    case isFalse => contradiction
    case isTrue hc =>
      cases hb'
      exact absurd rfl (hn.resolve_right hc.left)
  case neg =>
    obtain ⟨he, hne⟩ := not_or.mp hn
    have he : key' = key := not_not.mp he
    subst he
    rw [Pool.claimCreateKeyBackend, if_neg hne] at hφ ⊢
    split at hφ
    case h_1 owner ho =>
      refine h.of_claims forall_mem_zero h.owner h.known h.made (fun f hf => ⟨hf, id⟩)
        (fun b' hb' => ?_) hk
      obtain ⟨f, hf⟩ := h.known owner ho
      refine ⟨f, hf, fun hm => ?_⟩
      rw [hφ] at hb'
      split at hb'
      case isFalse => contradiction
      case isTrue hc =>
        cases hb'
        exact hc.right.symm.trans (Option.some.inj (ho.symm.trans (h.owner f hf hm)))
    case h_2 ho =>
      have hφ : φ'.claim = .creating key' b := by simpa [hne] using hφ
      -- If there was an owner before, it has left the pool.
      by_cases hm : key' ∈ s.firstClaims
      case pos =>
        rw [if_pos hm]
        obtain ⟨f, hf⟩ := Finmap.mem_iff.mp hm
        have hgone : f ∉ s.backends := fun hb => absurd (ho.symm.trans (h.owner f hf hb)) (by simp)
        refine h.of_claims forall_mem_zero ?_ ?_ h.made (fun f hf => ⟨hf, id⟩) ?_ hk
        · intro f' hf' hb
          exact absurd (Option.some.inj (hf'.symm.trans hf) ▸ hb) hgone
        · exact fun _ _ => ⟨f, hf⟩
        · exact fun _ _ => ⟨f, hf, fun hb => absurd hb hgone⟩
      case neg =>
        rw [if_neg hm]
        have hnone : s.firstClaims.lookup key' = none := Finmap.lookup_eq_none.mpr hm
        refine h.of_claims forall_mem_zero ?_ ?_ ?_ ?_ ?_ hk
        · intro f hf _
          rw [Finmap.lookup_insert] at hf
          cases hf
          exact Finmap.lookup_insert ..
        · exact fun _ _ => ⟨b, Finmap.lookup_insert ..⟩
        · intro f hf
          rw [Finmap.lookup_insert] at hf
          cases hf
          exact hr
        · exact fun f hf => absurd (hnone.symm.trans hf) (by simp)
        · intro b' hb'
          cases hφ.symm.trans hb'
          exact ⟨b, Finmap.lookup_insert .., fun _ => rfl⟩

theorem deleteKey (ho : φ.claim.Ok (.deleteCreateKeyBackend key')) (hφ : φ'.claim = .none) :
    KeyKept key (s.deleteCreateKeyBackend key') (φ' ::ₘ (M + 0)) := by
  have hk : φ'.claim ≠ .abandoning key := hφ ▸ nofun
  have hc : ∀ b, φ'.claim = .creating key b → φ.claim = .creating key b :=
    fun b hb => absurd (hφ.symm.trans hb) nofun
  rw [Pool.deleteCreateKeyBackend]
  split
  case isTrue => exact h.congr forall_mem_zero ⟨rfl, rfl⟩ rfl (fun _ => id) hc hk
  case isFalse hn =>
    have hne : key ≠ key' := by
      rintro rfl
      exact h.kept φ (Multiset.mem_cons_self φ M) (Claim.eq_abandoning hn ho)
    exact h.congr forall_mem_zero ⟨rfl, Finmap.lookup_erase_ne hne⟩ rfl (fun _ => id) hc hk

theorem frame (hc : ¬q.Claims) (hq : ¬q.ChangesClaim)
    (hf : q ≠ .forever) (hs : ∀ b stamp inst, q ≠ .startBackend b stamp inst) :
    After policy φ M q o s (KeyKept key) := by
  have he : s.Follows q (Pool.exec policy q o s).1 := Pool.exec_follows hs
  have hb : (Pool.exec policy q o s).1.backends = s.backends :=
    he.listed (fun _ _ he => hc (he ▸ trivial)) (fun he => hc (he ▸ trivial))
  have hn : ((discipline policy).next φ q (Pool.exec policy q o s).2).claim = φ.claim :=
    next_claim_eq hq hf _
  have ⟨h₁, h₂⟩ := he.claims hc
  refine h.congr start_claim ⟨by rw [h₂], by rw [h₁]⟩ hb (fun b hb => ?_) (fun b hb => ?_) ?_
  · rw [(he.heap b).registered]
    exact hb
  · rwa [hn] at hb
  · rw [hn]
    exact h.kept φ (Multiset.mem_cons_self φ M)

theorem call (hc : Closing policy s (φ ::ₘ M))
    (ho : (discipline policy).ok φ q) (he : Pool.enabled q s) (hg : Prepared key q o s)
    (hk : key ≠ "") :
    After policy φ M q o s (KeyKept key) := by
  have hφ := Multiset.mem_cons_self φ M
  by_cases hs : ∃ b stamp inst, q = .startBackend b stamp inst
  case pos =>
    obtain ⟨b, stamp, inst, rfl⟩ := hs
    refine h.startBackend ((hc.owned.custody b).unregistered (tally_pos hφ ?_)) rfl
    rw [Phase.owns, Slot.eq_launched ho.left]
    rfl
  case neg =>
    by_cases hq : q.Claims ∨ q.ChangesClaim ∨ q = .forever
    case neg =>
      obtain ⟨h₁, hq⟩ := not_or.mp hq
      obtain ⟨h₂, h₃⟩ := not_or.mp hq
      exact h.frame h₁ h₂ h₃ fun b stamp inst he => hs ⟨b, stamp, inst, he⟩
    case pos =>
      cases q
      case forever                     => exact he.elim
      case checkDrained                => exact h.checkDrained hc.owned.nodup rfl
      case endClose                    => exact h.endClose rfl
      case deleteCreateKeyBackend key' => exact h.deleteKey ho.right.right.right.left rfl
      case claimCreateKeyBackend key' b =>
        refine h.claim ?_ rfl
        -- The backend is held, so it exists.
        have hh : φ.holds = some b := ho.right.right.left
        have hp := tally_pos (f := Phase.holds) hφ hh
        rw [← hc.held.count] at hp
        by_contra hr
        exact absurd (hc.held.absent b (by simpa using hr)).left hp.ne'
      case createSession req b         =>
        exact h.congr start_claim ⟨rfl, rfl⟩ rfl (fun _ => id) (by simp [discipline, Claim.next])
          (by simp [discipline, Claim.next])
      case prepareWorkspace req b ref  =>
        have hn : ((discipline policy).next φ (.prepareWorkspace req b ref) o.prepared).claim =
            if req.createKey ≠ "" ∧ o.prepared = false then .abandoning req.createKey else φ.claim := rfl
        refine h.congr start_claim ⟨rfl, rfl⟩ rfl (fun _ => id) (fun b' hb' => ?_) ?_
        · simp only [Pool.exec, hn] at hb'
          split at hb'
          case isTrue  => contradiction
          case isFalse => exact hb'
        · simp only [Pool.exec, hn]
          split
          case isFalse   => exact h.kept φ hφ
          case isTrue hf =>
            intro he
            cases he
            exact absurd (hf.right.symm.trans (hg rfl)) (by simp)
      all_goals
        rcases hq with hq | hq | hq
        · exact hq.elim
        · exact hq.elim
        · contradiction

omit h in
theorem env (h : KeyKept key s M) (a : Act) :
    KeyKept key (a.apply s) (M + startPhases Phase.start a.enters) := by
  obtain ⟨d, ha⟩ := a.apply_eq s
  rw [ha]
  refine ⟨h.owner, h.known, h.made, fun φ hφ b hb => ?_, fun φ hφ => ?_⟩
  case refine_1 =>
    rcases Multiset.mem_add.mp hφ with hφ | hφ
    case inl => exact h.creating φ hφ b hb
    case inr => exact absurd ((start_claim φ hφ).symm.trans hb) nofun
  case refine_2 =>
    rcases Multiset.mem_add.mp hφ with hφ | hφ
    case inl => exact h.kept φ hφ
    case inr => exact fun hb => absurd ((start_claim φ hφ).symm.trans hb) nofun

end KeyKept

section Runs

variable {policy : LifecyclePolicy} {poolName key : String} {n : Nat} {c c₀ : PoolConfig}

theorem foldl_startInstance_claims {s : Pool} (instances : List (Nat × Instance)) :
    (instances.foldl (fun s i => s.startInstance policy i.1 i.2) s).firstClaims = s.firstClaims ∧
    (instances.foldl (fun s i => s.startInstance policy i.1 i.2) s).createKeyBackends =
      s.createKeyBackends := by
  induction instances generalizing s
  case nil => exact ⟨rfl, rfl⟩
  case cons i instances hi =>
    rw [List.foldl_cons, hi.left, hi.right]
    simp only [Pool.startInstance, Pool.startBackend]
    split <;> exact ⟨rfl, rfl⟩

theorem Initial.unclaimed (h : Initial policy poolName n c) :
    c.mem.firstClaims = ∅ ∧ c.mem.createKeyBackends = ∅ := by
  cases h <;> exact foldl_startInstance_claims _

theorem Initial.keyKept (h : Initial policy poolName n c) :
    Sound (discipline policy) Phase.Done (fun s M => Closing policy s M ∧ KeyKept key s M) c := by
  obtain ⟨hu, gs, hg, ht⟩ := h.unused
  have ⟨h₁, h₂⟩ := h.unclaimed
  obtain ⟨s, threads⟩ := c
  dsimp only at hu ht h₁ h₂
  rw [ht]
  refine Sound.of_start (m := system policy poolName n) keeps_body ⟨hu.closing hg, ?_⟩
  constructor
  case owner => exact fun f hf => absurd hf (by simp [h₁])
  case known => exact fun b hb => absurd hb (by simp [h₂])
  case made => exact fun f hf => absurd hf (by simp [h₁])
  case creating => exact fun φ hφ b hb => absurd ((start_claim φ hφ).symm.trans hb) nofun
  case kept => exact fun φ hφ hb => absurd ((start_claim φ hφ).symm.trans hb) nofun

theorem keyKept_preserved (hk : key ≠ "") : Preserved (system policy poolName n) (Prepared key)
    (discipline policy) Phase.start fun s M => Closing policy s M ∧ KeyKept key s M where
  call _ h ho he hg := ⟨h.left.call ho he, h.right.call h.left ho he hg hk⟩
  env a h           := ⟨h.left.env a, h.right.env a⟩

-- If no preparation under the key fails, all its sessions are created on the backend claimed first
-- while this is in the pool, and no workspace is removed.
theorem keyed_creates_stay (hk : key ≠ "") (hi : Initial policy poolName n c₀)
    (hr : Reaches (system policy poolName n) (Prepared key) c₀ c) :
    (∀ req b k, .call (.createSession req b) k ∈ c.threads → req.createKey = key →
      ∀ f, c.mem.firstClaims.lookup key = some f → f ∈ c.mem.backends → b = f) ∧
    ∀ req b ref k, .call (.removeWorkspace req b ref) k ∈ c.threads → req.createKey ≠ key := by
  obtain ⟨l, hl, hd, -, h⟩ := hi.keyKept.reaches (keyKept_preserved hk) keeps_body hr
  -- The phase of a goroutine that is at a call.
  have ht {q : Call} {k : q.Response → PoolProgram Unit} (hm : .call q k ∈ c.threads) :
      ∃ φ ∈ phases l, φ.claim.Ok q := by
    rw [← hl] at hm
    obtain ⟨⟨p, φ⟩, hp, rfl⟩ := List.mem_map.mp hm
    exact ⟨φ, Multiset.mem_coe.mpr (List.mem_map_of_mem hp), (hd _ hp).left.right.right.right.left⟩
  refine ⟨fun req b k hm he f hf hb => ?_, fun req b ref k hm he => ?_⟩
  case refine_1 =>
    obtain ⟨φ, hφ, ho⟩ := ht hm
    have ⟨f', hf', hb'⟩ := h.creating φ hφ b (he ▸ Claim.eq_creating (he ▸ hk) ho)
    cases hf.symm.trans hf'
    exact hb' hb
  case refine_2 =>
    obtain ⟨φ, hφ, ho⟩ := ht hm
    exact h.kept φ hφ (he ▸ Claim.eq_abandoning_of_remove (he ▸ hk) ho)

end Runs

instance {policy : LifecyclePolicy} {poolName key : String} {n : Nat} {q : Call}
    {o : (system policy poolName n).Oracle} {s : Pool} : Decidable (Prepared key q o s) := by
  apply @Call.casesOn (fun q => Decidable (Prepared key q o s)) q <;> intros <;> unfold Prepared <;>
    infer_instance

def workspaceRequest : CreateRequest :=
  { keyedRequest with workspace := true }

-- Whether a goroutine is about to create a session on the backend, or to remove a workspace from it.
def CreatesOn (req : CreateRequest) (b : Nat) : PoolProgram Unit → Prop
  | .call (.createSession req' b') _ => req' = req ∧ b' = b
  | _ => False

def RemovesFrom (req : CreateRequest) (b : Nat) : PoolProgram Unit → Prop
  | .call (.removeWorkspace req' b' _) _ => req' = req ∧ b' = b
  | _ => False

instance {req : CreateRequest} {b : Nat} : DecidablePred (CreatesOn req b)
  | .ret _ => inferInstanceAs <| Decidable False
  | .call q k => by
    revert k
    apply @Call.casesOn
      (fun q => (k : q.Response → PoolProgram Unit) → Decidable (CreatesOn req b (.call q k))) q <;> intros <;> unfold CreatesOn <;> infer_instance

instance {req : CreateRequest} {b : Nat} : DecidablePred (RemovesFrom req b)
  | .ret _ => inferInstanceAs <| Decidable False
  | .call q k => by
    revert k
    apply @Call.casesOn
      (fun q => (k : q.Response → PoolProgram Unit) → Decidable (RemovesFrom req b (.call q k))) q <;> intros <;> unfold RemovesFrom <;> infer_instance

theorem CreatesOn.eq_call (h : CreatesOn req b p) : ∃ k, p = .call (.createSession req b) k := by
  cases p
  case ret => exact h.elim
  case call q k =>
    cases q
    case createSession =>
      obtain ⟨rfl, rfl⟩ := h
      exact ⟨k, rfl⟩
    all_goals exact h.elim

-- What the threads do up to the call of the provider, which prepares the workspace before.
def firstCreate : List (Event (system pairPolicy "claude" 2)) :=
  [.env (.createSession workspaceRequest), .call 0 {}, .call 0 {}, .call 0 {}, .call 0 {},
    .call 0 { session := some none }, .call 0 {}, .call 0 {}, .call 0 {}, .call 0 {}, .call 0 {}]

theorem keyed_creates_stay_demo : ∃ c,
    Reaches (system pairPolicy "claude" 2) (Prepared workspaceRequest.createKey) pairPool c ∧
    (∃ p ∈ c.threads, CreatesOn workspaceRequest 0 p) ∧
    c.mem.firstClaims.lookup workspaceRequest.createKey = some 0 := by
  have ⟨c, hr, ⟨p, hp, hc⟩, f, hf, hb⟩ := Config.exists_reaches_of_run (system pairPolicy "claude" 2)
    (Prepared workspaceRequest.createKey) pairPool
    (fun c => (∃ p ∈ c.threads, CreatesOn workspaceRequest 0 p) ∧ ∃ f ∈ c.mem.backends,
      c.mem.firstClaims.lookup workspaceRequest.createKey = some f) firstCreate (by decide +kernel)
  obtain ⟨k, rfl⟩ := hc.eq_call
  have h := (keyed_creates_stay (by decide +kernel) pairPool_initial hr).left _ _ _ hp rfl f hb hf
  exact ⟨c, hr, ⟨_, hp, hc⟩, h ▸ hb⟩

-- The first create gets its session. For the second one the preparation of the workspace fails.
def secondCreate : List (Event (system pairPolicy "claude" 2)) :=
  firstCreate ++ [.call 0 { result := .ok [.session "s1" false] }, .call 0 {}, .call 0 {},
    .env (.createSession workspaceRequest), .call 1 {}, .call 1 {}, .call 1 {}, .call 1 {},
    .call 1 { session := some none }, .call 1 {}, .call 1 {}, .call 1 {}, .call 1 {},
    .call 1 { prepared := false }]

def thirdCreate : List (Event (system pairPolicy "claude" 2)) :=
  secondCreate ++ [.call 1 {}, .call 1 {}, .call 1 {},
    .env (.createSession workspaceRequest), .call 2 {}, .call 2 {}, .call 2 {}, .call 2 {},
    .call 2 { session := some none }, .call 2 {}, .call 2 {}, .call 2 {}, .call 2 {}, .call 2 {}]

-- The second create removes the workspace of the first one's session, and the third one creates its
-- session on another backend although the first is there.
theorem keyed_creates_can_stray :
    (∃ c, Reaches (system pairPolicy "claude" 2) always pairPool c ∧
      c.mem.sessionBackends.lookup "s1" = some 0 ∧
      ∃ p ∈ c.threads, RemovesFrom workspaceRequest 0 p) ∧
    ∃ c, Reaches (system pairPolicy "claude" 2) always pairPool c ∧
      c.mem.firstClaims.lookup workspaceRequest.createKey = some 0 ∧ 0 ∈ c.mem.backends ∧
      ∃ p ∈ c.threads, CreatesOn workspaceRequest 1 p :=
  ⟨Config.exists_reaches_of_run _ always pairPool _ secondCreate (by decide +kernel),
    Config.exists_reaches_of_run _ always pairPool _ thirdCreate (by decide +kernel)⟩

end HostedAgents
