import GestaltModel.AppRegistry.PublishPaths

namespace AppRegistry

open Text (split trimSpace)

variable {pathPrefix : String} {segments : List String}

-- A prefix without slashes around it is not rooted.
theorem trimPathPrefix_relative :
    split '/' (trimPathPrefix pathPrefix) ≠ "" :: part :: parts := by
  have hd : (trimPathPrefix pathPrefix).toList.dropWhile (· == '/') =
      (trimPathPrefix pathPrefix).toList := by
    rw [trimPathPrefix, Text.trim, String.toList_ofList]
    exact Text.dropWhile_eq_of_isPrefix (List.rdropWhile_prefix ..)
  rw [split]
  cases hc : (trimPathPrefix pathPrefix).toList
  case nil => simp
  case cons c cs =>
    rw [hc] at hd
    have hn : c ≠ '/' := by simpa using List.dropWhile_eq_self_iff.mp hd (Nat.succ_pos _)
    rw [List.splitOn_cons_eq_if_modifyHead]
    cases cs.splitOn '/' <;> simp [hn]

theorem registryPathSegment_ok (h : registryPathSegment s = .ok s') :
    s' = trimSpace s ∧ s' ∉ ["", ".", ".."] ∧ '/' ∉ s'.toList := by
  simp only [registryPathSegment] at h
  split_ifs at h
  cases h
  simp_all

theorem mapM_registryPathSegment_ok (h : segments.mapM registryPathSegment = .ok parts) :
    parts = segments.map trimSpace ∧
      ∀ part ∈ parts, part ∉ ["", ".", ".."] ∧ '/' ∉ part.toList := by
  induction segments generalizing parts
  case nil => cases h; simp
  case cons s segments ih =>
    rw [List.mapM_cons] at h
    obtain ⟨part, hp, h⟩ := Except.bind_eq_ok_iff.mp h
    obtain ⟨parts, hps, h⟩ := Except.bind_eq_ok_iff.mp h
    cases h
    obtain ⟨rfl, hp⟩ := registryPathSegment_ok hp
    obtain ⟨rfl, hps⟩ := ih hps
    exact ⟨rfl, List.forall_mem_cons.mpr ⟨hp, hps⟩⟩

theorem joinRegistryObjectPath_ok (h : joinRegistryObjectPath pathPrefix segments = .ok path) :
    ¬(cleanPathPrefix pathPrefix = "." ∨ "../".toList <+: (cleanPathPrefix pathPrefix).toList) ∧
    path = Path.join (cleanPathPrefix pathPrefix :: segments.map trimSpace) ∧
    ∀ segment ∈ segments.map trimSpace, segment ∉ ["", ".", ".."] ∧ '/' ∉ segment.toList := by
  rw [joinRegistryObjectPath] at h
  split at h
  case isTrue => cases h
  split at h
  case isTrue => cases h
  case isFalse hc =>
    obtain ⟨_, hm, h⟩ := Except.bind_eq_ok_iff.mp h
    dsimp only at h
    split at h
    case isTrue => cases h
    obtain ⟨rfl, hs⟩ := mapM_registryPathSegment_ok hm
    exact ⟨hc, (Except.ok.inj h).symm, hs⟩

-- The parts of an accepted path are those of the cleaned prefix followed by the segments.
structure JoinedParts (cleanPrefix path : String) (parts segments : List String) : Prop where
  ne_nil : parts ≠ []
  base : cleanPrefix = "/".intercalate parts
  joined : path = "/".intercalate (parts ++ segments)
  slash : ∀ part ∈ parts ++ segments, '/' ∉ part.toList
  ne_empty : ∀ part ∈ parts ++ segments, part ≠ ""
  ne_parent : cleanPrefix ≠ ".." → ".." ∉ parts ++ segments

theorem exists_joinedParts (h : joinRegistryObjectPath pathPrefix segments = .ok path) :
    ∃ parts, JoinedParts (cleanPathPrefix pathPrefix) path parts (segments.map trimSpace) := by
  obtain ⟨hc, hp, hs⟩ := joinRegistryObjectPath_ok h
  have hrel (part parts) := @trimPathPrefix_relative pathPrefix part parts
  obtain ⟨parts, hn, he, hset, hsl⟩ := Path.clean_relative hrel fun he => hc (.inl he)
  rw [← cleanPathPrefix] at he
  generalize segments.map trimSpace = segments at *
  have hset' : Path.Settled (parts ++ segments).reverse := by
    rw [List.reverse_append]
    exact hset.append fun part hm => (hs part (List.mem_reverse.mp hm)).left
  have hsl' := List.forall_mem_append.mpr ⟨hsl, fun segment hm => (hs segment hm).right⟩
  have hj : "/".intercalate ("/".intercalate parts :: segments) =
      "/".intercalate (parts ++ segments) := by
    cases segments
    case nil => simp
    case cons => rw [String.intercalate_append_of_ne_nil hn (List.cons_ne_nil _ _),
      String.intercalate_cons_cons]
  refine ⟨parts, hn, he, ?_, hsl', fun _ hm => hset'.ne_empty (List.mem_reverse.mpr hm), ?_⟩
  · have hne := Path.intercalate_ne_empty hsl hn hset
    rw [hp, he, Path.join, List.dropWhile_cons_of_neg (by simpa using hne),
      if_neg (List.cons_ne_nil _ _), hj, Path.clean_intercalate hsl' (by simp [hn]) hset']
  · intro hne hm
    obtain hm | hm := List.mem_append.mp hm
    case inr => exact (hs _ hm).left (by simp)
    case inl =>
      have hb := hset.bottom (List.mem_reverse.mpr hm)
      rw [List.getLast?_reverse] at hb
      obtain ⟨rest, rfl⟩ := List.head?_eq_some_iff.mp hb
      cases rest
      case nil => exact hne (by simpa using he)
      case cons part rest =>
        refine hc (.inr ?_)
        rw [he, String.intercalate_cons_cons, String.toList_append, String.toList_append]
        exact List.prefix_append ..

namespace JoinedParts

variable (h : JoinedParts cleanPrefix path parts segments)

include h

theorem split_base : split '/' cleanPrefix = parts := by
  rw [h.base, Path.split_intercalate (List.forall_mem_append.mp h.slash).left h.ne_nil]

theorem split_joined : split '/' path = parts ++ segments := by
  rw [h.joined, Path.split_intercalate h.slash (by simp [h.ne_nil])]

end JoinedParts

-- A path lies under its prefix, and tells the segments that it was joined from.
theorem registry_path_under_prefix (h : joinRegistryObjectPath pathPrefix segments = .ok path) :
    (segments = [] → path = cleanPathPrefix pathPrefix) ∧
    (segments ≠ [] → ∃ rest, path = cleanPathPrefix pathPrefix ++ "/" ++ rest) ∧
    "" ∉ split '/' path ∧
    (cleanPathPrefix pathPrefix ≠ ".." → ".." ∉ split '/' path) ∧
    ∀ segments', joinRegistryObjectPath pathPrefix segments' = .ok path →
      segments'.map trimSpace = segments.map trimSpace := by
  obtain ⟨parts, hp⟩ := exists_joinedParts h
  rw [hp.split_joined]
  refine ⟨?_, ?_, fun hm => hp.ne_empty _ hm rfl, hp.ne_parent, ?_⟩
  · rintro rfl
    rw [hp.joined, hp.base, List.map_nil, List.append_nil]
  · intro hn
    refine ⟨"/".intercalate (segments.map trimSpace), ?_⟩
    rw [hp.joined, hp.base, String.intercalate_append_of_ne_nil hp.ne_nil (by simpa using hn)]
  · intro segments' h'
    obtain ⟨parts', hp'⟩ := exists_joinedParts h'
    obtain rfl := hp'.split_base.symm.trans hp.split_base
    exact List.append_cancel_left (hp'.split_joined.symm.trans hp.split_joined)

-- Without segments the path is the prefix itself.
theorem registry_path_is_prefix :
    joinRegistryObjectPath "apps" [] = .ok "apps" ∧ cleanPathPrefix "apps" = "apps" := by
  decide +kernel

theorem registry_path_of_staging :
    joinRegistryObjectPath "/apps//mail/" ["1.0.0", " linux "] = .ok "apps/mail/1.0.0/linux" ∧
    ".." ∉ split '/' "apps/mail/1.0.0/linux" := by
  have h : joinRegistryObjectPath "/apps//mail/" ["1.0.0", " linux "] =
    .ok "apps/mail/1.0.0/linux" := by decide +kernel
  obtain ⟨-, -, -, hp, -⟩ := registry_path_under_prefix h
  exact ⟨h, hp (by decide +kernel)⟩

end AppRegistry
