import GestaltModel.Credentials.Selection
import GestaltModel.Grouping.Theorems.Basic

namespace Credentials

open Grouping CredentialAccountCandidate
open Text (trimSpace)

theorem prefer_iff (c d : CredentialAccountCandidate) (preferred : String) :
    preferCredentialAccountCandidate c d preferred = true ↔ c.rank preferred < d.rank preferred := by
  simp only [preferCredentialAccountCandidate, rank]
  apply lex_step Iff.rfl not_eq_true_iff_lt
  apply lex_step (not_congr Bool.not_inj_iff).symm (fun h => by rw [← not_eq_true_iff_lt h]; simp)
  apply lex_step Iff.rfl (fun h => by rw [← not_eq_true_iff_lt h]; simp)
  apply lex_step Iff.rfl (fun _ => by simp)
  apply lex_step Iff.rfl (fun _ => by simp)
  simp

-- What is at least as good as a usable candidate is usable, and preferred when this one is.
theorem CredentialAccountCandidate.of_rank_le {c d : CredentialAccountCandidate}
    (h : d.rank preferred ≤ c.rank preferred) (hc : c.needsReconnect = false) :
    d.needsReconnect = false ∧
    (trimSpace preferred ≠ "" ∧ trimSpace c.qualifier = trimSpace preferred →
      trimSpace preferred ≠ "" ∧ trimSpace d.qualifier = trimSpace preferred) := by
  simp only [rank, Prod.Lex.toLex_le_toLex, hc] at h
  have hd : d.needsReconnect = false := h.elim (fun h => absurd h (by simp)) And.left
  refine ⟨hd, ?_⟩
  intro hp
  rw [hd, decide_eq_true hp] at h
  by_contra hn
  rw [decide_eq_false hn] at h
  simp only [Bool.not_true, Bool.not_false, lt_self_iff_false, false_or, true_and,
    Bool.true_eq_false, false_and, or_false] at h
  exact absurd h (by decide)

section Candidates

variable {candidates : List CredentialAccountCandidate} (preferred : String)

theorem rank_injOn (h : DistinctCandidates candidates) :
    ∀ c ∈ candidates, ∀ d ∈ candidates, c.rank preferred = d.rank preferred → c = d := by
  intro c hc d hd he
  apply List.inj_on_of_nodup_map h hc hd
  simp only [rank, toLex_inj, Prod.mk.injEq] at he ⊢
  exact he.right.right.right.right

theorem prefer_isStrictTotalOrder (h : DistinctCandidates candidates) :
    IsStrictTotalOrder { c // c ∈ candidates }
      fun c d => preferCredentialAccountCandidate c d preferred = true where
  trichotomous := by
    intro c d hcd hdc
    rw [prefer_iff, not_lt] at hcd hdc
    exact Subtype.ext (rank_injOn preferred h c c.2 d d.2 (le_antisymm hdc hcd))
  irrefl := by
    intro c
    rw [prefer_iff]
    exact lt_irrefl _
  trans := by
    intro a b c
    simp only [prefer_iff]
    exact lt_trans

theorem indices_eq_canonical (candidates : List CredentialAccountCandidate) :
    (groupCredentialAccountCandidateIndices candidates preferred).map candidates.get =
      canonical (fun c => trimSpace c.accountKey)
        (fun c d => preferCredentialAccountCandidate c d preferred) candidates := by
  have h := canonical_map (fun c => trimSpace c.accountKey)
    (fun c d => preferCredentialAccountCandidate c d preferred) candidates.get
    (List.finRange candidates.length)
  rw [List.map_get_finRange] at h
  exact h.symm

theorem indices_perm (h : DistinctCandidates candidates) {permuted}
    (hp : permuted.Perm candidates) :
    ((groupCredentialAccountCandidateIndices permuted preferred).map permuted.get).Perm
      ((groupCredentialAccountCandidateIndices candidates preferred).map candidates.get) := by
  rw [indices_eq_canonical, indices_eq_canonical]
  exact perm_canonical _ (fun c d => prefer_iff c d preferred) (rank_injOn preferred h)
    (List.Nodup.of_map _ h) hp

end Candidates

section Credentials

variable (unmarshal : String → Option (GoMap String)) (preferred : String) (now : Int)
variable {credentials permuted : List ExternalCredential}

theorem trimSpace_accountKey (c : ExternalCredential) :
    trimSpace (accountKeyForCredential unmarshal c) = accountKeyForCredential unmarshal c := by
  simp only [accountKeyForCredential, accountKeyFromMetadataJSON]
  split
  case isTrue => exact Text.trimSpace_trimSpace _
  case isFalse =>
    split
    case isTrue => exact Text.trimSpace_empty
    case isFalse =>
      split
      case h_1 => exact Text.trimSpace_empty
      case h_2 => exact Text.trimSpace_trimSpace _

def ExternalCredential.rank (c : ExternalCredential) : Rank :=
  (credentialAccountCandidate unmarshal c now).rank preferred

-- The comparison of `GroupCredentialAccounts` and `ChooseCredential`.
def better (c d : ExternalCredential) : Bool :=
  preferCredential unmarshal c (some d) preferred now

theorem better_iff (c d : ExternalCredential) :
    better unmarshal preferred now c d = true ↔
      c.rank unmarshal preferred now < d.rank unmarshal preferred now :=
  prefer_iff _ _ preferred

theorem distinct_candidates (h : Distinct credentials) :
    DistinctCandidates (credentials.map (credentialAccountCandidate unmarshal · now)) := by
  rw [DistinctCandidates, List.map_map]
  exact h

theorem credential_rank_injOn (h : Distinct credentials) :
    ∀ c ∈ credentials, ∀ d ∈ credentials,
      c.rank unmarshal preferred now = d.rank unmarshal preferred now → c = d := by
  intro c hc d hd he
  apply List.inj_on_of_nodup_map h hc hd
  simp only [ExternalCredential.rank, rank, toLex_inj,
    Prod.mk.injEq] at he ⊢
  exact he.right.right.right.right

theorem accounts_eq_canonical (credentials : List ExternalCredential) :
    groupCredentialAccounts unmarshal credentials preferred now =
      canonical (accountKeyForCredential unmarshal) (better unmarshal preferred now)
        credentials :=
  (canonical_eq_group _ _).symm

theorem choose_eq (credentials : List ExternalCredential) :
    chooseCredential unmarshal credentials preferred now =
      choose (better unmarshal preferred now) credentials := by
  have h : ∀ (credentials : List ExternalCredential) (c : ExternalCredential),
      credentials.foldl (fun chosen credential =>
        if preferCredential unmarshal credential chosen preferred now then some credential
        else chosen) (some c) =
      some (Grouping.Cluster.best (better unmarshal preferred now) ⟨c, credentials⟩) := by
    intro credentials
    induction credentials
    case nil => exact fun _ => rfl
    case cons d credentials hi =>
      intro c
      rw [List.foldl_cons, Grouping.Cluster.best_cons]
      by_cases hb : better unmarshal preferred now d c = true
      case pos =>
        rw [if_pos hb]
        exact (congrArg (List.foldl _ · _) (if_pos hb)).trans (hi d)
      case neg =>
        rw [if_neg hb]
        exact (congrArg (List.foldl _ · _) (if_neg hb)).trans (hi c)
  cases credentials
  case nil => rfl
  case cons => exact h _ _

theorem groupCredentialAccounts_perm (h : Distinct credentials) (hp : permuted.Perm credentials) :
    (groupCredentialAccounts unmarshal permuted preferred now).Perm
      (groupCredentialAccounts unmarshal credentials preferred now) := by
  rw [accounts_eq_canonical, accounts_eq_canonical]
  exact perm_canonical _ (better_iff unmarshal preferred now)
    (credential_rank_injOn unmarshal preferred now h) (List.Nodup.of_map _ h) hp

theorem chooseCredential_perm (h : Distinct credentials) (hp : permuted.Perm credentials) :
    chooseCredential unmarshal permuted preferred now =
      chooseCredential unmarshal credentials preferred now := by
  rw [choose_eq, choose_eq]
  exact choose_perm (better_iff unmarshal preferred now)
    (credential_rank_injOn unmarshal preferred now h) hp

theorem indices_eq_accounts (credentials : List ExternalCredential) :
    let candidates := credentials.map (credentialAccountCandidate unmarshal · now)
    (groupCredentialAccountCandidateIndices candidates preferred).map candidates.get =
      (groupCredentialAccounts unmarshal credentials preferred now).map
        (credentialAccountCandidate unmarshal · now) := by
  intro candidates
  rw [indices_eq_canonical, canonical_map, accounts_eq_canonical]
  have hk : (fun c => trimSpace c.accountKey) ∘ (credentialAccountCandidate unmarshal · now) =
      accountKeyForCredential unmarshal :=
    funext (trimSpace_accountKey unmarshal)
  rw [hk]
  rfl

theorem perm_eq_or_two_le {xs ys : List α} (h : ys.Perm xs) :
    ys = xs ∨ 2 ≤ ys.length ∧ 2 ≤ xs.length := by
  rcases xs with _ | ⟨x, _ | ⟨x', xs⟩⟩
  case nil => exact .inl h.eq_nil
  case cons.nil => exact .inl (List.perm_singleton.mp h)
  case cons.cons => exact .inr ⟨by simp [h.length_eq], by simp⟩

theorem chooseAccountInstance_perm (hp : accounts'.Perm accounts) :
    chooseAccountInstance accounts' preferred now = chooseAccountInstance accounts preferred now := by
  have ha : ∀ p : ExternalCredential → Bool, accounts'.any p = accounts.any p := by
    intro p
    rw [Bool.eq_iff_iff, List.any_eq_true, List.any_eq_true]
    simp only [hp.mem_iff]
  simp only [chooseAccountInstance, ha]
  split
  case isTrue => rfl
  case isFalse =>
    have hf := hp.filter (!credentialNeedsReconnect · now)
    generalize accounts'.filter (!credentialNeedsReconnect · now) = usable' at hf ⊢
    generalize accounts.filter (!credentialNeedsReconnect · now) = usable at hf ⊢
    rcases perm_eq_or_two_le hf with rfl | ⟨hu', hu⟩
    case inr =>
      rcases usable' with _ | ⟨_, _ | _⟩ <;> rcases usable with _ | ⟨_, _ | _⟩ <;> simp at hu hu' ⊢
    case inl =>
      rcases perm_eq_or_two_le hp with rfl | ⟨hl', hl⟩
      case inl => rfl
      case inr =>
        rcases usable' with _ | ⟨_, _ | _⟩ <;> rcases accounts' with _ | ⟨_, _ | _⟩ <;>
          rcases accounts with _ | ⟨_, _ | _⟩ <;> simp at hl hl' ⊢

theorem usable_of_le {c d : ExternalCredential}
    (h : d.rank unmarshal preferred now ≤ c.rank unmarshal preferred now) (hu : c.Usable now) :
    d.Usable now :=
  (of_rank_le h hu).left

theorem preferred_of_le {c d : ExternalCredential}
    (h : d.rank unmarshal preferred now ≤ c.rank unmarshal preferred now)
    (hc : c.Usable now ∧ c.Preferred preferred) : d.Usable now ∧ d.Preferred preferred :=
  ⟨usable_of_le unmarshal preferred now h hc.left,
    (of_rank_le h hc.left).right hc.right⟩

theorem chooseCredential_preferred (hd : Distinct credentials)
    (hc : c ∈ credentials) (hp : c.Usable now ∧ c.Preferred preferred) :
    ∃ d ∈ credentials, chooseCredential unmarshal credentials preferred now = some d ∧
      d.Usable now ∧ d.Preferred preferred := by
  have hn : chooseCredential unmarshal credentials preferred now ≠ none := by
    rw [choose_eq]
    cases credentials
    case nil => contradiction
    case cons => simp [choose]
  obtain ⟨d, hch⟩ := Option.ne_none_iff_exists'.mp hn
  have hch' := hch
  rw [choose_eq, choose_eq_some (better_iff unmarshal preferred now)
    (credential_rank_injOn unmarshal preferred now hd)] at hch'
  exact ⟨d, hch'.left, hch, preferred_of_le unmarshal preferred now (hch'.right c hc) hp⟩

theorem exists_preferred_account (credentials : List ExternalCredential) :
    (∃ c ∈ groupCredentialAccounts unmarshal credentials preferred now,
      c.Usable now ∧ c.Preferred preferred) ↔
    ∃ c ∈ credentials, c.Usable now ∧ c.Preferred preferred := by
  rw [accounts_eq_canonical]
  exact exists_canonical_of _ (better_iff unmarshal preferred now) credentials
    fun c d => preferred_of_le unmarshal preferred now

theorem any_preferred_iff (accounts : List ExternalCredential) :
    (trimSpace preferred ≠ "" ∧ accounts.any fun credential =>
      trimSpace credential.qualifier = trimSpace preferred ∧
        !credentialNeedsReconnect credential now) ↔
    ∃ c ∈ accounts, c.Usable now ∧ c.Preferred preferred := by
  simp only [List.any_eq_true, decide_eq_true_eq, Bool.not_eq_true', ExternalCredential.Usable,
    ExternalCredential.Preferred]
  constructor
  case mp =>
    rintro ⟨hp, c, hc, hq, hu⟩
    exact ⟨c, hc, hu, hp, hq⟩
  case mpr =>
    rintro ⟨c, hc, hu, hp, hq⟩
    exact ⟨hp, c, hc, hq, hu⟩

theorem chooseAccountInstance_preferred (h : ∃ c ∈ accounts, c.Usable now ∧ c.Preferred preferred) :
    chooseAccountInstance accounts preferred now = some (trimSpace preferred) :=
  if_pos ((any_preferred_iff preferred now accounts).mpr h)

theorem chooseAccountInstance_eq_none (hd : accounts.Nodup) :
    chooseAccountInstance accounts preferred now = none ↔
    (¬∃ c ∈ accounts, c.Usable now ∧ c.Preferred preferred) ∧
    (accounts = [] ∨
      (∃ c ∈ accounts, ∃ d ∈ accounts, c ≠ d ∧ c.Usable now ∧ d.Usable now) ∨
      (¬∃ c ∈ accounts, c.Usable now) ∧ ∃ c ∈ accounts, ∃ d ∈ accounts, c ≠ d) := by
  by_cases hp : ∃ c ∈ accounts, c.Usable now ∧ c.Preferred preferred
  case pos => simp [chooseAccountInstance_preferred preferred now hp, hp]
  case neg =>
    have hu : ∀ c, c ∈ accounts.filter (!credentialNeedsReconnect · now) ↔
        c ∈ accounts ∧ c.Usable now := by
      simp [ExternalCredential.Usable]
    have hdu := hd.filter (!credentialNeedsReconnect · now)
    simp only [chooseAccountInstance, any_preferred_iff, hp, if_false, not_false_eq_true, true_and]
    generalize accounts.filter (!credentialNeedsReconnect · now) = usable at hu hdu ⊢
    rcases usable with _ | ⟨c, _ | ⟨d, usable⟩⟩
    case nil =>
      have hn : ¬∃ c ∈ accounts, c.Usable now := by
        rintro ⟨c, hc⟩
        exact absurd ((hu c).mpr hc) List.not_mem_nil
      rcases accounts with _ | ⟨c, _ | ⟨d, accounts⟩⟩
      case nil       => simp
      case cons.nil  => simp
      case cons.cons =>
        have hcd : c ≠ d := by
          rintro rfl
          simp at hd
        simp only [true_iff]
        exact .inr (.inr ⟨hn, c, by simp, d, by simp, hcd⟩)
    case cons.nil =>
      obtain ⟨hc, hcu⟩ := (hu c).mp (by simp)
      simp only [reduceCtorEq, false_iff]
      rintro (rfl | ⟨x, hx, y, hy, hxy, hxu, hyu⟩ | ⟨hn, _⟩)
      case inl => contradiction
      case inr.inl =>
        have hxc := List.mem_singleton.mp ((hu x).mpr ⟨hx, hxu⟩)
        have hyc := List.mem_singleton.mp ((hu y).mpr ⟨hy, hyu⟩)
        exact hxy (hxc.trans hyc.symm)
      case inr.inr => exact hn ⟨c, hc, hcu⟩
    case cons.cons =>
      have hcd : c ≠ d := by
        rintro rfl
        simp at hdu
      obtain ⟨hc, hcu⟩ := (hu c).mp (by simp)
      obtain ⟨hd', hdu'⟩ := (hu d).mp (by simp)
      simp only [true_iff]
      exact .inr (.inl ⟨c, hc, d, hd', hcd, hcu, hdu'⟩)

theorem chooseCredentialInstance_eq_none (hd : Distinct credentials) :
    chooseCredentialInstance unmarshal credentials preferred now = none ↔
    (¬∃ c ∈ credentials, c.Usable now ∧ c.Preferred preferred) ∧
    (credentials = [] ∨
      (∃ c ∈ credentials, ∃ d ∈ credentials,
        ¬c.SameAccount unmarshal d ∧ c.Usable now ∧ d.Usable now) ∨
      (¬∃ c ∈ credentials, c.Usable now) ∧
        ∃ c ∈ credentials, ∃ d ∈ credentials, ¬c.SameAccount unmarshal d) := by
  have hb := better_iff unmarshal preferred now
  have hr := credential_rank_injOn unmarshal preferred now hd
  have hnd : (groupCredentialAccounts unmarshal credentials preferred now).Nodup := by
    rw [accounts_eq_canonical]
    exact nodup_canonical _ _ (List.Nodup.of_map _ hd)
  have hpair := exists_canonical_pair (accountKeyForCredential unmarshal) hb hr
    (p := fun _ => True) fun _ _ _ _ => trivial
  have hupair := exists_canonical_pair (accountKeyForCredential unmarshal) hb hr
    fun _ _ => usable_of_le unmarshal preferred now
  have husable := exists_canonical_of (accountKeyForCredential unmarshal) hb credentials
    fun _ _ => usable_of_le unmarshal preferred now
  simp only [and_true] at hpair
  rw [chooseCredentialInstance, chooseAccountInstance_eq_none preferred now hnd,
    exists_preferred_account, accounts_eq_canonical, canonical_eq_nil, hupair, husable, hpair]
  rfl

-- The choices do not depend on the order of the credentials, and use one order of preference.
theorem selection_order_independent (preferred : String) (now : Int) :
    (∀ candidates : List CredentialAccountCandidate, DistinctCandidates candidates →
      (IsStrictTotalOrder { c // c ∈ candidates }
        fun c d => preferCredentialAccountCandidate c d preferred = true) ∧
      ∀ permuted : List CredentialAccountCandidate, permuted.Perm candidates →
        ((groupCredentialAccountCandidateIndices permuted preferred).map permuted.get).Perm
          ((groupCredentialAccountCandidateIndices candidates preferred).map candidates.get)) ∧
    ∀ credentials : List ExternalCredential, Distinct credentials →
      (∀ permuted : List ExternalCredential, permuted.Perm credentials →
        chooseCredential unmarshal permuted preferred now =
          chooseCredential unmarshal credentials preferred now ∧
        chooseCredentialInstance unmarshal permuted preferred now =
          chooseCredentialInstance unmarshal credentials preferred now ∧
        (groupCredentialAccounts unmarshal permuted preferred now).Perm
          (groupCredentialAccounts unmarshal credentials preferred now)) ∧
      (let candidates := credentials.map (credentialAccountCandidate unmarshal · now)
      DistinctCandidates candidates ∧
      (groupCredentialAccountCandidateIndices candidates preferred).map candidates.get =
        (groupCredentialAccounts unmarshal credentials preferred now).map
          (credentialAccountCandidate unmarshal · now)) ∧
      (∀ c ∈ credentials, c.Usable now → c.Preferred preferred →
        chooseCredentialInstance unmarshal credentials preferred now =
          some (trimSpace preferred) ∧
        ∃ d ∈ credentials, chooseCredential unmarshal credentials preferred now = some d ∧
          d.Usable now ∧ d.Preferred preferred) ∧
      (chooseCredentialInstance unmarshal credentials preferred now = none ↔
        (¬∃ c ∈ credentials, c.Usable now ∧ c.Preferred preferred) ∧
        (credentials = [] ∨
          (∃ c ∈ credentials, ∃ d ∈ credentials,
            ¬c.SameAccount unmarshal d ∧ c.Usable now ∧ d.Usable now) ∨
          (¬∃ c ∈ credentials, c.Usable now) ∧
            ∃ c ∈ credentials, ∃ d ∈ credentials, ¬c.SameAccount unmarshal d)) := by
  refine ⟨fun candidates hd => ⟨prefer_isStrictTotalOrder preferred hd, ?_⟩, ?_⟩
  case refine_1 => exact fun permuted hp => indices_perm preferred hd hp
  case refine_2 =>
    intro credentials hd
    refine ⟨?_, ⟨distinct_candidates unmarshal now hd, indices_eq_accounts unmarshal preferred now _⟩,
      ?_, chooseCredentialInstance_eq_none unmarshal preferred now hd⟩
    case refine_1 =>
      intro permuted hp
      have ha := groupCredentialAccounts_perm unmarshal preferred now hd hp
      exact ⟨chooseCredential_perm unmarshal preferred now hd hp,
        chooseAccountInstance_perm preferred now ha, ha⟩
    case refine_2 =>
      intro c hc hu hp
      have ha := (exists_preferred_account unmarshal preferred now credentials).mpr ⟨c, hc, hu, hp⟩
      exact ⟨chooseAccountInstance_preferred preferred now ha,
        chooseCredential_preferred unmarshal preferred now hd hc ⟨hu, hp⟩⟩

end Credentials

-- Two credentials of an account, the older one to be connected again, and one without a key.
theorem selection_order_independent_demo :
    let unmarshal : String → Option (GoMap String) := fun _ => none
    let work : ExternalCredential :=
      { id := "c1", qualifier := "work", accountKey := "acme:7", createdAt := 5 }
    let home : ExternalCredential :=
      { id := "c2", qualifier := "home", accountKey := "acme:7", createdAt := 3,
        grant := some ⟨some 4, 1⟩ }
    let other : ExternalCredential := { id := "c3", qualifier := "other", createdAt := 1 }
    Distinct [home, other, work] ∧ DistinctCandidates [credentialAccountCandidate unmarshal other 9] ∧
    chooseCredentialInstance unmarshal [work, home, other] "work" 9 =
      chooseCredentialInstance unmarshal [home, other, work] "work" 9 ∧
    chooseCredentialInstance unmarshal [home, other, work] "work" 9 = some (trimSpace "work") ∧
    chooseCredentialInstance unmarshal [home, other, work] "" 9 = none := by
  intro unmarshal work home other
  have hd : Distinct [home, other, work] := by
    simp only [Distinct]
    decide
  have h := (selection_order_independent unmarshal "work" 9).right [home, other, work] hd
  have hn := (selection_order_independent unmarshal "" 9).right [home, other, work] hd
  refine ⟨hd, List.nodup_singleton _, ?_, ?_, ?_⟩
  case refine_1 => exact (h.left [work, home, other] (by decide)).right.left
  case refine_2 => exact (h.right.right.left work (by simp) rfl ⟨by decide +kernel, rfl⟩).left
  case refine_3 =>
    apply hn.right.right.right.mpr
    refine ⟨?_, .inr (.inl ⟨work, by simp, other, by simp, ?_, rfl, rfl⟩)⟩
    case refine_1 =>
      rintro ⟨c, _, _, hp, _⟩
      exact hp Text.trimSpace_empty
    case refine_2 =>
      rintro (h | ⟨_, h⟩)
      case inl => exact absurd h (by decide)
      case inr => exact absurd h (by decide +kernel)

end Credentials
