import Mathlib.Data.Prod.Lex
import GestaltModel.AppRegistry.InstallValidator

namespace AppRegistry

open InstallValidator (desired)
open Text (Trimmed isSpace trimSpace)
open Except (bind_eq_ok_iff eq_ok_of_toOption)
open Finmap (lookup_insert lookup_insert_of_ne mem_of_lookup_eq_some singleton)
open LocalPoller

variable {s : String}

section Names

theorem isSegmentStart_toNat (h : isSegmentStart c) :
    48 ≤ c.toNat ∧ c.toNat ≤ 57 ∨ 97 ≤ c.toNat ∧ c.toNat ≤ 122 := by
  simp only [isSegmentStart, isDigit, Bool.or_eq_true, Bool.and_eq_true, decide_eq_true_eq] at h
  simpa [Char.le_def, UInt32.le_iff_toNat_le] using h

theorem isSegment_char (h : isSegment s) (hc : c ∈ s.toList) :
    isSpace c = false ∧ c ≠ '/' := by
  rw [isSegment, Bool.and_eq_true, List.all_eq_true] at h
  have hs := h.right c hc
  rw [Bool.or_eq_true, decide_eq_true_eq] at hs
  rcases hs with hs | hs
  case inr =>
    simp only [List.mem_cons, List.not_mem_nil, or_false] at hs
    rcases hs with rfl | rfl | rfl <;> decide
  case inl =>
    have hn := isSegmentStart_toNat hs
    refine ⟨?_, fun he => ?_⟩
    case refine_1 =>
      simp [isSpace]
      omega
    case refine_2 =>
      rw [he] at hn
      exact absurd hn (by decide)

theorem trimmed_of_isSegment (h : isSegment s) : Trimmed s := by
  have hs : ∀ c ∈ s.toList, ¬isSpace c := by
    intro c hc
    rw [(isSegment_char h hc).left]
    exact Bool.false_ne_true
  rw [Trimmed, trimSpace, List.dropWhile_eq_self_iff.mpr, List.rdropWhile_eq_self_iff.mpr]
  case _ => exact String.ofList_toList
  case _ => exact fun hn => hs _ (List.getLast_mem hn)
  case _ => exact fun hn => hs _ (List.getElem_mem _)

theorem ne_empty_of_isSegment (h : isSegment s) : s ≠ "" := by
  rintro rfl
  exact absurd h (by decide)

theorem parse_of_isSegment (h : isSegment s) :
    Source.parse s ≠ .ok src := by
  have hs : Text.split '/' s = [s] := by
    rw [Text.split, List.splitOn_eq_singleton fun hc => (isSegment_char h hc).right rfl]
    rw [List.map_singleton, String.ofList_toList]
  rw [Source.parse, hs]
  intro hp
  obtain ⟨_, -, hp⟩ := bind_eq_ok_iff.mp hp
  contradiction

theorem names_of_isSegment (h : isSegment s) : Names s s := by
  have ht := trimmed_of_isSegment h
  rw [Names, requirementAppName, ht, if_neg (ne_empty_of_isSegment h)]
  split
  case h_1 app _ hp =>
    obtain ⟨src, hs, -⟩ := bind_eq_ok_iff.mp hp
    rw [ht] at hs
    exact absurd hs (parse_of_isSegment h)
  case h_2 =>
    refine bind_eq_ok_iff.mpr ⟨(), ?_, rfl⟩
    rw [Except.context_eq_ok, validateRepositoryName, ht, require_eq_ok]
    exact h

theorem isSegment_of_parse
    (h : Source.parse raw = .ok src) (hs : seg ∈ src.path) : isSegment seg := by
  obtain ⟨_, -, h⟩ := bind_eq_ok_iff.mp h
  split at h
  case h_2 => contradiction
  case h_1 host owner repo p path _ =>
    obtain ⟨_, -, h⟩ := bind_eq_ok_iff.mp h
    split at h
    case h_1 => contradiction
    case h_2 hn =>
      cases h
      have hm : seg ∈ owner :: repo :: p :: path := by simp_all
      simpa using List.find?_eq_none.mp hn seg hm

theorem Names.isSegment (h : Names app key) : isSegment app := by
  rw [Names, requirementAppName] at h
  split at h
  case isTrue => contradiction
  case isFalse =>
    split at h
    case h_1 hp =>
      cases h
      obtain ⟨src, hs, hp⟩ := bind_eq_ok_iff.mp hp
      split at hp
      case h_2 => contradiction
      case h_1 path =>
        cases hp
        exact isSegment_of_parse hs (by simp [path])
    case h_2 =>
      obtain ⟨_, hv, h⟩ := bind_eq_ok_iff.mp h
      cases h
      rw [Except.context_eq_ok, validateRepositoryName, require_eq_ok] at hv
      rwa [Text.trimSpace_trimSpace] at hv

-- Where only one key names the app, its requirement is the one that the reverse check reads.
theorem requirementForApp_of_unique
    (hu : ∀ {k₁ k₂}, k₁ ∈ requires → k₂ ∈ requires → Names app k₁ → Names app k₂ → k₁ = k₂)
    (hl : requires.lookup key = some requirement) (hn : Names app key) :
    requirementForApp order requires app = some requirement := by
  have hs := hn.isSegment
  have hk := mem_of_lookup_eq_some hl
  rw [requirementForApp, trimmed_of_isSegment hs, if_neg (ne_empty_of_isSegment hs)]
  split
  case h_1 r he =>
    have : app = key := hu (mem_of_lookup_eq_some he) hk (names_of_isSegment hs) hn
    rw [← hl, ← this, he]
  case h_2 =>
    have hm {k : String} : k ∈ order.visit 0 requires.sortedKeys ↔ k ∈ requires :=
      ((order.perm 0 _).mem_iff).trans GoMap.mem_sortedKeys
    cases hf : (order.visit 0 requires.sortedKeys).find? (Names app ·)
    case none =>
      have := List.find?_eq_none.mp hf key (hm.mpr hk)
      rw [decide_eq_true_eq] at this
      contradiction
    case some k =>
      have hn' : Names app k := by simpa using List.find?_some hf
      rw [hu (hm.mp (List.mem_of_find?_eq_some hf)) hk hn' hn]
      exact hl

end Names

namespace LocalPoller

-- The order of `LatestKnownInstallation`: the later time, and then the larger version.
def rank (installation : KnownInstallation) : Int ×ₗ String :=
  toLex (installation.updatedAt, trimSpace installation.version)

theorem laterInstallation_eq (i j : KnownInstallation) :
    laterInstallation i j = if rank i < rank j then j else i := by
  rw [laterInstallation]
  refine if_congr ?_ rfl rfl
  rw [Prod.Lex.lt_iff]
  simp only [rank, ofLex_toLex, eq_comm]

theorem foldl_laterInstallation (first : KnownInstallation) (rest : List KnownInstallation) :
    rest.foldl laterInstallation first ∈ first :: rest ∧
    ∀ j ∈ first :: rest, rank j ≤ rank (rest.foldl laterInstallation first) := by
  induction rest generalizing first
  case nil => simp
  case cons i rest hi =>
    obtain ⟨hm, hr⟩ := hi (laterInstallation first i)
    rw [List.foldl_cons]
    have hl : rank first ≤ rank (laterInstallation first i) ∧
        rank i ≤ rank (laterInstallation first i) := by
      rw [laterInstallation_eq]
      split
      case isTrue h  => exact ⟨h.le, le_rfl⟩
      case isFalse h => exact ⟨le_rfl, not_lt.mp h⟩
    have hs := hr _ List.mem_cons_self
    constructor
    case left =>
      rcases List.mem_cons.mp hm with hm | hm
      case inr => exact List.mem_cons_of_mem _ (List.mem_cons_of_mem _ hm)
      case inl =>
        rw [hm, laterInstallation]
        split <;> simp
    case right =>
      intro j hj
      rcases List.mem_cons.mp hj with rfl | hj
      case inl => exact hl.left.trans hs
      case inr =>
        rcases List.mem_cons.mp hj with rfl | hj
        case inl => exact hl.right.trans hs
        case inr => exact hr j (List.mem_cons_of_mem _ hj)

theorem latestKnownInstallation_spec (h : latestKnownInstallation installations = some i) :
    i ∈ installations ∧ ∀ j ∈ installations, rank j ≤ rank i := by
  cases installations
  case nil => contradiction
  case cons first rest =>
    cases h
    exact foldl_laterInstallation first rest

end LocalPoller

namespace KnownVersions

variable {known : KnownVersions} {request : InstallRequest} {app version : String}

-- The installations are found under their trimmed names.
structure Keyed (known : KnownVersions) : Prop where
  app : ∀ {a w i}, (known.versions a).lookup w = some i →
    i.appName = a ∧ Trimmed a ∧ a ≠ ""
  version : ∀ {a w i}, (known.versions a).lookup w = some i →
    i.version = w ∧ Trimmed w ∧ w ≠ ""

theorem mem_toList :
    i ∈ known.toList ↔ ∃ a w, (known.versions a).lookup w = some i := by
  simp only [toList, List.mem_flatMap, List.mem_filterMap, GoMap.mem_sortedKeys]
  constructor
  case mp =>
    rintro ⟨a, -, w, -, h⟩
    exact ⟨a, w, h⟩
  case mpr =>
    rintro ⟨a, w, h⟩
    refine ⟨a, ?_, w, mem_of_lookup_eq_some h, h⟩
    by_contra hn
    rw [versions, Finmap.lookup_eq_none.mpr hn] at h
    contradiction

theorem versions_insert_self :
    KnownVersions.versions (known.insert app m) app = m := by
  rw [versions, lookup_insert]
  rfl

theorem versions_insert_of_ne (h : a ≠ app) :
    KnownVersions.versions (known.insert app m) a = known.versions a := by
  rw [versions, lookup_insert_of_ne _ h]
  rfl

theorem lookup_record_of_ne (h : ¬(app = (installationFromChangeRequest request).appName ∧
      version = (installationFromChangeRequest request).version)) :
    ((known.record request).versions app).lookup version =
      (known.versions app).lookup version := by
  simp only [record]
  split
  case isTrue => rfl
  case isFalse =>
    split
    case isFalse => rfl
    case isTrue =>
      by_cases ha : app = (installationFromChangeRequest request).appName
      case neg => rw [versions_insert_of_ne ha]
      case pos =>
        rw [← ha, versions_insert_self, lookup_insert_of_ne _ fun hv => h ⟨ha, hv⟩]

theorem lookup_record_self (known : KnownVersions)
    (ha : (installationFromChangeRequest request).appName = app)
    (hv : (installationFromChangeRequest request).version = version) (hna : app ≠ "")
    (hnv : version ≠ "") :
    ∃ i, ((known.record request).versions app).lookup version = some i ∧
      (i = installationFromChangeRequest request ∨ (known.versions app).lookup version = some i) ∧
      ∀ j, j = installationFromChangeRequest request ∨
        (known.versions app).lookup version = some j → j.updatedAt ≤ i.updatedAt := by
  subst ha hv
  simp only [record, if_neg (not_or.mpr ⟨hna, hnv⟩)]
  split
  case isTrue h =>
    refine ⟨installationFromChangeRequest request,
      by rw [versions_insert_self, lookup_insert], .inl rfl, ?_⟩
    rintro j (rfl | hj)
    case inl => exact le_rfl
    case inr =>
      rw [hj, Option.all_some, decide_eq_true_eq] at h
      exact h.le
  case isFalse h =>
    cases hl : (known.versions _).lookup (installationFromChangeRequest request).version
    case none   => simp [hl] at h
    case some i =>
      refine ⟨i, rfl, .inr rfl, ?_⟩
      rintro j (rfl | hj)
      case inl => simpa [hl] using h
      case inr =>
        cases hj
        exact le_rfl

theorem Keyed.record (h : known.Keyed) : (known.record request).Keyed := by
  have hk {a w i} (hl : ((known.record request).versions a).lookup w = some i) :
      (i.appName = a ∧ Trimmed a ∧ a ≠ "") ∧ i.version = w ∧ Trimmed w ∧ w ≠ "" := by
    by_cases he : a = (installationFromChangeRequest request).appName ∧
      w = (installationFromChangeRequest request).version
    case neg =>
      rw [lookup_record_of_ne he] at hl
      exact ⟨h.app hl, h.version hl⟩
    case pos =>
      by_cases hn : a = "" ∨ w = ""
      case pos =>
        simp only [KnownVersions.record, he.left ▸ he.right ▸ hn, if_true] at hl
        exact ⟨h.app hl, h.version hl⟩
      case neg =>
        rw [not_or] at hn
        obtain ⟨j, hj, ho, -⟩ :=
          lookup_record_self known he.left.symm he.right.symm hn.left hn.right
        cases hl.symm.trans hj
        rcases ho with rfl | ho
        case inr => exact ⟨h.app ho, h.version ho⟩
        case inl =>
          refine ⟨⟨he.left.symm, ?_, hn.left⟩, he.right.symm, ?_, hn.right⟩
          case refine_1 => exact he.left ▸ Text.trimSpace_trimmed _
          case refine_2 => exact he.right ▸ Text.trimSpace_trimmed _
  exact ⟨fun hl => (hk hl).left, fun hl => (hk hl).right⟩

end KnownVersions

section Desired

theorem lookup_foldl_insert {f : String → Option V} {apps : List String} {m : GoMap V} :
    (apps.foldl (fun m a => (f a).elim m (m.insert a)) m).lookup app =
      if app ∈ apps then (f app).or (m.lookup app) else m.lookup app := by
  induction apps generalizing m
  case nil => rfl
  case cons a apps hi =>
    rw [List.foldl_cons, hi]
    by_cases ha : app = a
    case neg =>
      have he : ((f a).elim m (m.insert a)).lookup app = m.lookup app := by
        cases f a
        case none   => rfl
        case some v => exact lookup_insert_of_ne _ ha
      simp [ha, he]
    case pos =>
      subst ha
      cases hf : f app <;> simp

theorem lookup_indexKnownInstallations (hn : app ≠ "") :
    (indexKnownInstallations installations).lookup app = latestInstallation installations app := by
  rw [indexKnownInstallations, lookup_foldl_insert]
  split
  case isTrue => simp
  case isFalse h =>
    have he : installations.filter (trimSpace ·.appName = app) = [] := by
      rw [List.filter_eq_nil_iff]
      intro i hi ht
      refine h (List.mem_filter.mpr ⟨List.mem_map.mpr ⟨i, hi, of_decide_eq_true ht⟩, ?_⟩)
      exact decide_eq_true hn
    rw [latestInstallation, he]
    rfl

-- What the change requests record for a version of an app.
def recorded (requests : List InstallRequest) (app version : String) : Option KnownInstallation :=
  (KnownVersions.versions (requests.foldl KnownVersions.record ∅) app).lookup version

theorem keyed_of_requests {requests : List InstallRequest} :
    KnownVersions.Keyed (requests.foldl KnownVersions.record ∅) := by
  refine List.foldlRecOn requests _ (motive := KnownVersions.Keyed) ?_ fun _ h _ _ => h.record
  constructor <;> exact fun h => by cases h

variable {requests : List InstallRequest} {app version : String} {i j : KnownInstallation}

theorem recorded_app (h : recorded requests app version = some i) :
    i.appName = app ∧ Trimmed app ∧ app ≠ "" :=
  keyed_of_requests.app h

theorem recorded_version (h : recorded requests app version = some i) :
    i.version = version ∧ Trimmed version ∧ version ≠ "" :=
  keyed_of_requests.version h

abbrev versionsOf (requests : List InstallRequest) (app : String) : List KnownInstallation :=
  (knownVersionsFromRequests requests).filter (trimSpace ·.appName = app)

theorem mem_versions :
    i ∈ versionsOf requests app ↔
      ∃ w, recorded requests app w = some i := by
  rw [List.mem_filter, knownVersionsFromRequests, KnownVersions.mem_toList, decide_eq_true_eq]
  constructor
  case mp =>
    rintro ⟨⟨a, w, h⟩, ht⟩
    obtain ⟨he, htr, -⟩ := keyed_of_requests.app h
    rw [he, htr] at ht
    exact ⟨w, ht ▸ h⟩
  case mpr =>
    rintro ⟨w, h⟩
    obtain ⟨he, htr, -⟩ := recorded_app h
    exact ⟨⟨app, w, h⟩, by rw [he, htr]⟩

theorem recorded_ext (h₁ : recorded requests app w₁ = some i)
    (h₂ : recorded requests app w₂ = some j)
    (h : trimSpace i.version = trimSpace j.version) : i = j := by
  obtain ⟨hv₁, ht₁, -⟩ := recorded_version h₁
  obtain ⟨hv₂, ht₂, -⟩ := recorded_version h₂
  rw [hv₁, hv₂, ht₁, ht₂] at h
  subst h
  exact Option.some.inj (h₁.symm.trans h₂)

theorem latestInstallation_eq :
    latestInstallation (knownVersionsFromRequests requests) app =
      latestKnownInstallation (versionsOf requests app) := by
  rw [latestInstallation, latestKnownVersion]
  cases hl : latestKnownInstallation (versionsOf requests app)
  case none => rfl
  case some k =>
    have hm := (latestKnownInstallation_spec hl).left
    obtain ⟨w, hw⟩ := mem_versions.mp hm
    obtain ⟨hv, ht, hn⟩ := recorded_version hw
    have hne : trimSpace k.version ≠ "" := by rwa [hv, ht]
    simp only [if_neg hne]
    -- The loop stops at the installation itself: no other one has its version.
    cases hf : (versionsOf requests app).find? (trimSpace ·.version = trimSpace k.version)
    case none   => simpa using List.find?_eq_none.mp hf k hm
    case some i =>
      obtain ⟨w', hw'⟩ := mem_versions.mp (List.mem_of_find?_eq_some hf)
      exact congrArg _ (recorded_ext hw' hw (by simpa using List.find?_some hf))

theorem desired_eq :
    desired requests app =
      latestKnownInstallation (versionsOf requests app) := by
  by_cases ha : app = ""
  case neg =>
    rw [← latestInstallation_eq]
    exact lookup_indexKnownInstallations ha
  case pos =>
    have he : versionsOf requests app = [] := by
      refine List.eq_nil_iff_forall_not_mem.mpr fun i hi => ?_
      obtain ⟨w, hw⟩ := mem_versions.mp hi
      exact (recorded_app hw).right.right ha
    rw [he, desired, indexKnownInstallations, lookup_foldl_insert,
      if_neg (by simp [ha])]
    rfl

theorem desired_eq_some_iff :
    desired requests app = some i ↔
      (∃ w, recorded requests app w = some i) ∧
      ∀ w j, recorded requests app w = some j → rank j ≤ rank i := by
  rw [desired_eq]
  constructor
  case mp =>
    intro h
    obtain ⟨hm, hr⟩ := latestKnownInstallation_spec h
    exact ⟨mem_versions.mp hm, fun w j hj => hr j (mem_versions.mpr ⟨w, hj⟩)⟩
  case mpr =>
    rintro ⟨⟨w, hw⟩, hr⟩
    cases hl : latestKnownInstallation (versionsOf requests app)
    case none =>
      have hi := mem_versions.mpr ⟨w, hw⟩
      cases hf : versionsOf requests app
      case nil  => rw [hf] at hi; contradiction
      case cons => rw [hf] at hl; contradiction
    case some k =>
      obtain ⟨hm, hk⟩ := latestKnownInstallation_spec hl
      obtain ⟨w', hw'⟩ := mem_versions.mp hm
      have he := le_antisymm (hr w' k hw') (hk i (mem_versions.mpr ⟨w, hw⟩))
      exact congrArg some (recorded_ext hw' hw (congrArg (fun p => (ofLex p).2) he))

theorem exists_desired (h : recorded requests app w = some i) :
    ∃ k, desired requests app = some k := by
  have hi := mem_versions.mpr ⟨w, h⟩
  rw [desired_eq]
  cases hf : versionsOf requests app
  case nil => rw [hf] at hi; contradiction
  case cons => exact ⟨_, rfl⟩

variable {request : InstallRequest}

theorem recorded_append_of_ne (h : ¬(app = (installationFromChangeRequest request).appName ∧
      version = (installationFromChangeRequest request).version)) :
    recorded (requests ++ [request]) app version = recorded requests app version := by
  rw [recorded, List.foldl_concat]
  exact KnownVersions.lookup_record_of_ne h

theorem recorded_append_self (requests : List InstallRequest) (request : InstallRequest)
    (ha : (installationFromChangeRequest request).appName = app)
    (hv : (installationFromChangeRequest request).version = version) (hna : app ≠ "")
    (hnv : version ≠ "") :
    ∃ i, recorded (requests ++ [request]) app version = some i ∧
      (i = installationFromChangeRequest request ∨ recorded requests app version = some i) ∧
      ∀ j, j = installationFromChangeRequest request ∨ recorded requests app version = some j →
        j.updatedAt ≤ i.updatedAt := by
  rw [recorded, List.foldl_concat]
  exact KnownVersions.lookup_record_self _ ha hv hna hnv

theorem desired_append_of_ne (h : app ≠ (installationFromChangeRequest request).appName) :
    desired (requests ++ [request]) app = desired requests app := by
  refine Option.ext fun i => ?_
  have hr {w : String} : recorded (requests ++ [request]) app w = recorded requests app w :=
    recorded_append_of_ne fun he => h he.left
  simp only [desired_eq_some_iff, hr]

theorem desired_append_self (ha : (installationFromChangeRequest request).appName = app)
    (h : desired (requests ++ [request]) app = some i) :
    i.version = (installationFromChangeRequest request).version ∨
    desired requests app = some i := by
  obtain ⟨⟨w, hw⟩, hr⟩ := desired_eq_some_iff.mp h
  by_cases hv : w = (installationFromChangeRequest request).version
  case pos => exact .inl ((recorded_version hw).left.trans hv)
  case neg =>
    refine .inr (desired_eq_some_iff.mpr ⟨⟨w, ?_⟩, ?_⟩)
    case refine_1 => rwa [recorded_append_of_ne fun he => hv he.right] at hw
    case refine_2 =>
      intro w' j hj
      by_cases hv' : w' = (installationFromChangeRequest request).version
      case neg =>
        refine hr w' j ?_
        rwa [recorded_append_of_ne fun he => hv' he.right]
      case pos =>
        obtain ⟨k, hk, -, hle⟩ := recorded_append_self requests request ha hv'.symm
          (recorded_app hj).right.right (recorded_version hj).right.right
        refine le_trans ?_ (hr w' k hk)
        rw [rank, rank, (recorded_version hj).left,
          (recorded_version hk).left]
        exact Prod.Lex.toLex_mono (Prod.mk_le_mk.mpr ⟨hle j (.inr hj), le_rfl⟩)

end Desired

variable (aliased : Bool)

namespace InstallValidator

variable {v : InstallValidator} {P : ValidateInput → Prop} {requests : List InstallRequest}
  {input : ValidateInput} {timestamp : Int}

variable {app : String} {i : KnownInstallation} {order : String → GoMap.VisitOrder}

section Candidates

theorem Candidate.installation (h : v.Candidate input) (timestamp : Int) :
    installationFromChangeRequest (input.request timestamp) =
      { appName := input.app, version := input.version, registry := input.registry,
        updatedAt := Time.truncate Time.millisecond timestamp } := by
  rw [installationFromChangeRequest, ValidateInput.request, h.app.left, h.version.left,
    h.registry.left]

-- A version of an app has one candidate: the config gives the registry, and that one the entry.
theorem Candidate.ext (h : v.Candidate input) (h' : v.Candidate input')
    (ha : input'.app = input.app) (hv : input'.version = input.version) : input' = input := by
  obtain ⟨source, hs, hr⟩ := h.configured
  obtain ⟨source', hs', hr'⟩ := h'.configured
  have he := h.entry
  have he' := h'.entry
  rw [ha, hs] at hs'
  cases hs'
  have hre : input'.registry = input.registry := hr'.symm.trans hr
  rw [ha, hv, hre, he] at he'
  cases input
  cases input'
  cases ha
  cases hv
  cases hre
  cases he'
  rfl

structure RecordOf (v : InstallValidator) (i : KnownInstallation) (input : ValidateInput) : Prop where
  candidate : v.Candidate input
  app : i.appName = input.app
  version : i.version = input.version
  registry : i.registry = input.registry

theorem RecordOf.entry (h : v.RecordOf i input) :
    v.fetchPublishedEntry i.registry i.appName i.version = .ok input.entry := by
  rw [h.app, h.version, h.registry]
  exact h.candidate.entry

theorem Run.record (h : v.Run P requests)
    (hi : recorded requests app version = some i) : ∃ input, v.RecordOf i input ∧ P input := by
  induction h
  case start => cases hi
  case accept requests input order timestamp _ hc hp _ ih =>
    have hr := hc.installation timestamp
    by_cases he : app = input.app ∧ version = input.version
    case neg =>
      rw [recorded_append_of_ne (by rwa [hr])] at hi
      exact ih hi
    case pos =>
      obtain ⟨rfl, rfl⟩ := he
      obtain ⟨j, hj, ho, -⟩ := recorded_append_self requests (input.request timestamp)
        (by rw [hr]) (by rw [hr]) hc.app.right hc.version.right
      cases hi.symm.trans hj
      rcases ho with rfl | ho
      case inr => exact ih ho
      case inl =>
        rw [hr]
        exact ⟨input, ⟨hc, rfl, rfl, rfl⟩, hp⟩

theorem Run.desired (h : v.Run P requests) (hi : desired requests app = some i) :
    ∃ input, v.RecordOf i input ∧ P input ∧ input.app = app := by
  obtain ⟨⟨w, hw⟩, -⟩ := desired_eq_some_iff.mp hi
  obtain ⟨input, hr, hp⟩ := h.record hw
  exact ⟨input, hr, hp, hr.app.symm.trans (recorded_app hw).left⟩

theorem Candidate.desired_append (h : v.Candidate input)
    (hi : desired (requests ++ [input.request timestamp]) input.app = some i) :
    i.version = input.version ∨ desired requests input.app = some i := by
  have hr := h.installation timestamp
  have hd := desired_append_self (by rw [hr]) hi
  rwa [hr] at hd

theorem Candidate.exists_desired (h : v.Candidate input) :
    ∃ i, desired (requests ++ [input.request timestamp]) input.app = some i := by
  have hr := h.installation timestamp
  obtain ⟨i, hi, -⟩ := recorded_append_self requests (input.request timestamp)
    (by rw [hr]) (by rw [hr]) h.app.right h.version.right
  exact AppRegistry.exists_desired hi

theorem Candidate.desired_append_of_ne (h : v.Candidate input) (hn : app ≠ input.app) :
    desired (requests ++ [input.request timestamp]) app =
      desired requests app := by
  refine AppRegistry.desired_append_of_ne ?_
  rwa [h.installation]

end Candidates

section Checks

theorem validateRequiredOperations_eq_ok :
    v.validateRequiredOperations required published subject r₁ r₂ = .ok () ↔
      ∀ op hash, required.lookup op = some hash → trimSpace op ≠ "" →
        ∃ contract, published.lookup (trimSpace op) = some contract ∧
          (trimSpace hash = "" ∨ v.inputSchemaHash contract.inputSchema = trimSpace hash) := by
  rw [validateRequiredOperations, GoMap.checkAll_eq_ok]
  refine forall_congr' fun op => forall_congr' fun hash => imp_congr_right fun _ => ?_
  rw [validateRequiredOperation]
  by_cases ho : trimSpace op = ""
  case pos => simp [ho]
  case neg =>
    simp only [ne_eq, ho, not_false_eq_true, true_imp_iff]
    cases published.lookup (trimSpace op)
    case none     => simp
    case some con => simp

theorem RegistryManaged.not_pinned (h : v.RegistryManaged) :
    v.configPinnedDependency app = false := by
  rw [configPinnedDependency]
  cases hs : v.source app
  case none => rfl
  case some source => exact if_pos (h app source hs)

theorem Candidate.configuredForRuntime (h : v.Candidate input) :
    v.configuredForRuntime input.app := by
  obtain ⟨source, hs, -⟩ := h.configured
  rw [InstallValidator.configuredForRuntime, hs]
  exact Bool.or_true _

theorem met_of_validateDeclaredDependency (hm : v.RegistryManaged) (hr : v.Run P requests)
    (h : v.validateDeclaredDependency
      (indexKnownInstallations (knownVersionsFromRequests requests)) key requirement = .ok ()) :
    v.Met requests key requirement := by
  rw [validateDeclaredDependency] at h
  split at h
  case h_1 => contradiction
  case h_2 dep hd =>
    simp only [hm.not_pinned, Bool.false_eq_true, if_false] at h
    split at h
    case h_1 => contradiction
    case h_2 i hi =>
      obtain ⟨input, hrec, -, ha⟩ := hr.desired hi
      have he := hrec.entry
      rw [hrec.app, ha] at he
      have ht : trimSpace i.version = i.version := hrec.version ▸ hrec.candidate.version.left
      obtain ⟨_, hv, h⟩ := bind_eq_ok_iff.mp h
      rw [ensure_eq_ok, ht] at hv
      refine ⟨dep, i, input.entry, hd, hi, he, hv, ?_⟩
      split at h
      case isTrue ho =>
        rw [ho]
        exact fun op hash hl => by cases hl
      case isFalse =>
        rw [ht, he] at h
        exact validateRequiredOperations_eq_ok.mp h

theorem satisfied_of_validateReverseDependent (hc : v.Candidate input) (hr : v.RecordOf i dependent)
    (hu : v.Unambiguous dependent) (hn : dependent.app ≠ input.app)
    (hl : dependent.entry.requires.lookup key = some requirement) (hk : Names input.app key)
    (h : v.validateReverseDependent order input dependent.app i = .ok ()) :
    v.Satisfied requirement input.version input.entry := by
  have he := hr.entry
  rw [hr.app] at he
  have ha : trimSpace input.app = input.app := hc.app.left
  have hw : trimSpace input.version = input.version := hc.version.left
  simp only [validateReverseDependent, ha, hw, if_neg hn, he, hr.candidate.configuredForRuntime,
    not_true_eq_false, if_false, requirementForApp_of_unique hu.keys hl hk] at h
  obtain ⟨_, hv, ho⟩ := bind_eq_ok_iff.mp h
  exact ⟨ensure_eq_ok.mp hv, validateRequiredOperations_eq_ok.mp ho⟩

end Checks

theorem Met.append (h : v.Met requests key requirement)
    (hc : v.Candidate input) (hr : v.Run P (requests ++ [input.request timestamp]))
    (hs : ∀ i, desired (requests ++ [input.request timestamp]) input.app = some i →
      i.version = input.version → Names input.app key →
      v.Satisfied requirement input.version input.entry) :
    v.Met (requests ++ [input.request timestamp]) key requirement := by
  obtain ⟨dep, i, entry, hn, hi, he, ho⟩ := h
  by_cases hd : dep = input.app
  case neg => exact ⟨dep, i, entry, hn, (hc.desired_append_of_ne hd).trans hi, he, ho⟩
  case pos =>
    subst hd
    obtain ⟨j, hj⟩ := hc.exists_desired
    rcases hc.desired_append hj with hv | hold
    case inr =>
      cases hi.symm.trans hold
      exact ⟨_, i, entry, hn, hj, he, ho⟩
    case inl =>
      obtain ⟨input', hrec, -, ha⟩ := hr.desired hj
      cases hc.ext hrec.candidate ha (hrec.version.symm.trans hv)
      refine ⟨_, j, input.entry, hn, hj, hrec.app ▸ hrec.entry, ?_⟩
      rw [hv]
      exact hs j hj hv hn

theorem validate_eq_ok (h : v.validate order requests input = .ok ()) :
    (∀ key requirement, input.entry.requires.lookup key = some requirement →
      v.validateDeclaredDependency (indexKnownInstallations (knownVersionsFromRequests requests))
        key requirement = .ok ()) ∧
    ∀ app i, desired requests app = some i →
      v.validateReverseDependent order input app i = .ok () := by
  rw [validate] at h
  split at h
  case h_1 => contradiction
  case h_2 =>
    obtain ⟨_, -, h⟩ := bind_eq_ok_iff.mp h
    obtain ⟨_, hd, hr⟩ := bind_eq_ok_iff.mp h
    exact ⟨GoMap.checkAll_eq_ok.mp hd, GoMap.checkAll_eq_ok.mp hr⟩

theorem Consistent.accept (h : v.Consistent requests) (hm : v.RegistryManaged)
    (hr : v.Run v.Unambiguous requests) (hc : v.Candidate input) (hu : v.Unambiguous input)
    (hv : v.validate order requests input = .ok ()) :
    v.Consistent (requests ++ [input.request timestamp]) := by
  have hr' : v.Run v.Unambiguous (requests ++ [input.request timestamp]) :=
    hr.accept timestamp hc hu hv
  obtain ⟨hdeclared, hreverse⟩ := validate_eq_ok hv
  intro app i hi
  obtain ⟨new, hrec, hnew, rfl⟩ := hr'.desired hi
  refine ⟨new.entry, hrec.app ▸ hrec.entry, fun key requirement hl => ?_⟩
  by_cases ha : new.app = input.app
  case neg =>
    -- Another app: its version was the desired one before, and the reverse check has seen it.
    rw [hc.desired_append_of_ne ha] at hi
    obtain ⟨entry, he, hmet⟩ := h _ i hi
    have hen := hrec.entry
    rw [hrec.app, he] at hen
    cases hen
    refine (hmet key requirement hl).append hc hr' fun _ _ _ hn => ?_
    exact satisfied_of_validateReverseDependent hc hrec hnew ha hl hn (hreverse _ i hi)
  case pos =>
    rw [ha] at hi
    by_cases hw : i.version = input.version
    case pos =>
      -- The candidate itself: its declared dependencies were checked, and its own app is left.
      cases hc.ext hrec.candidate ha (hrec.version.symm.trans hw)
      have hmet := met_of_validateDeclaredDependency hm hr (hdeclared key requirement hl)
      exact hmet.append hc hr' fun _ _ _ hn => hu.self hl hn
    case neg =>
      -- The version before stays the desired one.
      obtain ⟨entry, he, hmet⟩ := h _ i ((hc.desired_append hi).resolve_left hw)
      have hen := hrec.entry
      rw [hrec.app, ha, he] at hen
      cases hen
      refine (hmet key requirement hl).append hc hr' fun j hj hv _ => ?_
      cases hi.symm.trans hj
      exact absurd hv hw

-- If all candidates are unambiguous, every requirement of a desired version is satisfied by the
-- desired version of the app it names.
theorem admitted_fleet_consistent (hm : v.RegistryManaged) (h : v.Run v.Unambiguous requests) :
    v.Consistent requests := by
  induction h
  case start => exact fun app i hi => by cases hi
  case accept hr hc hu hv hi => exact hi.accept hm hr hc hu hv

variable (app version : String)

section Demo

def demoSemver : Semver where
  Version := Nat
  Constraint := Nat → Bool
  newVersion := fun
    | "1.0.0" => some 1
    | "2.0.0" => some 2
    | _       => none
  newConstraint := fun
    | ">=1.0.0" => some (1 ≤ ·)
    | "<2.0.0"  => some (· < 2)
    | _         => none
  check := fun c v => c v
  lessThan := fun v w => v < w
  prerelease := fun _ => ""
  release := fun v => toString v ++ ".0.0"

def demoEntry (requires : GoMap AppRequirement) : Entry where
  schemaVersion := 1
  app := app
  version := version
  manifestPath := "manifest.yaml"
  artifacts := singleton "linux/amd64" ⟨["gs://registry"], "https://registry/a", "ab"⟩
  interface := singleton "read" ⟨"", ""⟩
  requires := requires
  publishedAt := 1

-- `app` has one key for `base`, or also its address with the bound on the other side.
def demoRequires (app : String) : GoMap AppRequirement :=
  if app ≠ "app" then
    ∅
  else
    let requires := singleton "base" ⟨">=1.0.0", singleton "read" ""⟩
    if aliased then requires.insert "github.com/acme/fleet/apps/base" ⟨"<2.0.0", ∅⟩ else requires

def demoValidator : InstallValidator where
  semver := demoSemver
  sha256 := id
  fetch := fun _ app version => .ok (demoEntry app version (demoRequires aliased app))
  configApps := some (singleton "base" ⟨"main", "", false⟩ |>.insert "app" ⟨"main", "", false⟩)
  running := "dev"
  platform := "linux/amd64"

def demoInput : ValidateInput where
  registry := "main"
  app := app
  version := version
  entry := demoEntry app version (demoRequires aliased app)

def demoRequests : List InstallRequest :=
  [(demoInput aliased "base" "1.0.0").request 1000000,
    (demoInput aliased "app" "1.0.0").request 2000000,
    (demoInput aliased "base" "2.0.0").request 3000000]

theorem demo_evaluated :
    (∀ s ∈ ["base", "app", "1.0.0", "2.0.0", "main"], Trimmed s ∧ s ≠ "") ∧
    (∀ aliased, ∀ app ∈ ["base", "app"],
      (demoValidator aliased).source app = some ⟨"main", "", false⟩ ∧
      ∀ version ∈ ["1.0.0", "2.0.0"],
        ((demoValidator aliased).fetchPublishedEntry "main" app version).toOption.map id =
          some (demoInput aliased app version).entry) ∧
    (∀ aliased, ∀ step ∈ [(0, "base", "1.0.0"), (1, "app", "1.0.0"), (2, "base", "2.0.0")],
      ((demoValidator aliased).validate (fun _ => default) ((demoRequests aliased).take step.1)
        (demoInput aliased step.2.1 step.2.2)).toOption.map id = some ()) ∧
    (∀ aliased, (desired (demoRequests aliased) "base").map (·.version) = some "2.0.0" ∧
      (desired (demoRequests aliased) "app").map (·.version) = some "1.0.0") ∧
    ¬Names "app" "base" ∧ Names "base" "github.com/acme/fleet/apps/base" := by
  decide +kernel

theorem demo_managed : (demoValidator aliased).RegistryManaged := by
  intro app source h
  have hr : source.registry = "main" := by
    simp only [InstallValidator.source, demoValidator, Option.bind_some] at h
    by_cases ha : app = "app"
    case pos =>
      rw [ha, lookup_insert] at h
      cases h
      rfl
    case neg =>
      rw [lookup_insert_of_ne _ ha] at h
      have hb := (Finmap.mem_singleton _ _ _).mp (mem_of_lookup_eq_some h)
      rw [hb, Finmap.lookup_singleton_eq] at h
      cases h
      rfl
  obtain ⟨ht, hn⟩ := demo_evaluated.left "main" (by decide)
  rw [ProviderSource.IsRegistry, hr, ht]
  exact hn

theorem demo_candidate (h : app ∈ ["base", "app"] ∧ version ∈ ["1.0.0", "2.0.0"]) :
    (demoValidator aliased).Candidate (demoInput aliased app version) := by
  obtain ⟨ht, hd, -⟩ := demo_evaluated
  obtain ⟨hs, he⟩ := hd aliased app h.left
  obtain ⟨_, he, rfl⟩ := eq_ok_of_toOption (he version h.right)
  constructor
  case app => exact ht app (by grind)
  case version => exact ht version (by grind)
  case registry => exact ht "main" (by decide)
  case configured => exact ⟨_, hs, (ht "main" (by decide)).left⟩
  case entry => exact he

theorem demo_run (hp : ∀ app version, P (demoInput aliased app version)) :
    (demoValidator aliased).Run P (demoRequests aliased) := by
  have hv := demo_evaluated.right.right.left
  obtain ⟨_, h₁, -⟩ := eq_ok_of_toOption (hv aliased (0, "base", "1.0.0") (by decide))
  obtain ⟨_, h₂, -⟩ := eq_ok_of_toOption (hv aliased (1, "app", "1.0.0") (by decide))
  obtain ⟨_, h₃, -⟩ := eq_ok_of_toOption (hv aliased (2, "base", "2.0.0") (by decide))
  have hr₁ := Run.start.accept 1000000 (demo_candidate aliased "base" "1.0.0" (by decide)) (hp _ _) h₁
  have hr₂ := hr₁.accept 2000000 (demo_candidate aliased "app" "1.0.0" (by decide)) (hp _ _) h₂
  exact hr₂.accept 3000000 (demo_candidate aliased "base" "2.0.0" (by decide)) (hp _ _) h₃

theorem demo_unambiguous : (demoValidator false).Unambiguous (demoInput false app version) := by
  have hk {key : String} (h : key ∈ demoRequires false app) : key = "base" ∧ app = "app" := by
    rw [demoRequires] at h
    split at h
    case isTrue => exact absurd h Finmap.notMem_empty
    case isFalse ha => exact ⟨(Finmap.mem_singleton _ _ _).mp h, not_not.mp ha⟩
  constructor
  case keys =>
    intro _ k₁ k₂ h₁ h₂ _ _
    rw [(hk h₁).left, (hk h₂).left]
  case self =>
    intro key _ hl hn
    obtain ⟨rfl, rfl⟩ := hk (mem_of_lookup_eq_some hl)
    exact absurd hn demo_evaluated.right.right.right.right.left

theorem admitted_fleet_consistent_demo :
    (demoValidator false).RegistryManaged ∧
    (demoValidator false).Run (demoValidator false).Unambiguous (demoRequests false) ∧
    (desired (demoRequests false) "base").map (·.version) = some "2.0.0" ∧
    (desired (demoRequests false) "app").map (·.version) = some "1.0.0" ∧
    (demoValidator false).Consistent (demoRequests false) :=
  have hm := demo_managed false
  have hr := demo_run false demo_unambiguous
  have hd := demo_evaluated.right.right.right.left false
  ⟨hm, hr, hd.left, hd.right, admitted_fleet_consistent hm hr⟩

-- The reverse check reads the key `base` only, and the upgrade breaks the other requirement.
theorem aliased_requirement_broken :
    (demoValidator true).RegistryManaged ∧
    (demoValidator true).Run (fun _ => True) (demoRequests true) ∧
    ¬(demoValidator true).Consistent (demoRequests true) := by
  have hr : (demoValidator true).Run (fun _ => True) (demoRequests true) :=
    demo_run true fun _ _ => trivial
  refine ⟨demo_managed _, hr, fun h => ?_⟩
  have hc := demo_candidate true "app" "1.0.0" (by decide)
  obtain ⟨-, -, -, hd, -, hbase⟩ := demo_evaluated
  obtain ⟨hb, ha⟩ := hd true
  obtain ⟨i, hi, hv⟩ := Option.map_eq_some_iff.mp ha
  obtain ⟨j, hj, hw⟩ := Option.map_eq_some_iff.mp hb
  obtain ⟨input, hrec, -, happ⟩ := hr.desired hi
  cases hc.ext hrec.candidate happ (hrec.version.symm.trans hv)
  obtain ⟨entry, he, hmet⟩ := h "app" i hi
  have hen := hrec.entry
  rw [hrec.app] at hen
  cases he.symm.trans hen
  obtain ⟨dep, k, _, hn, hk, -, hs⟩ := hmet "github.com/acme/fleet/apps/base" ⟨"<2.0.0", ∅⟩
    (by decide +kernel)
  cases hbase.symm.trans hn
  cases hj.symm.trans hk
  have hsat := hs.version
  rw [hw] at hsat
  exact absurd hsat (by decide +kernel)

end Demo
end InstallValidator
end AppRegistry
