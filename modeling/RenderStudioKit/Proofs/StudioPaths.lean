import RenderStudioKit.Model.WorkspacePath

/-!
# Where a studio path leads

A layer is saved where `resolveImpl` says, opened where `openAsset` finds it, and any other file is
taken from where `resolve` says. The three places of a path are one file, except that a layer whose
path has two slashes is opened outside the workspace.
-/

namespace RenderStudioKit.Proofs
open PosixPath

section

variable {resolver : RenderStudioResolver} {r : String}

/-- The extension for which `resolve` leaves the path to `openAsset`. -/
def HasLayerExtension (path : String) : Prop := ".usd".toList <:+: extension path.toList

instance (path : String) : Decidable (HasLayerExtension path) :=
  inferInstanceAs (Decidable (_ <:+: _))

/-- Saving, opening and resolving a path reach the file of the workspace. -/
structure ReachesFile (resolver : RenderStudioResolver) (uriParse : String → Option UriUri)
    (path : String) (file : List Char) : Prop where
  saved : ∃ location, resolver.resolveImpl path = some location ∧ SameFile location file
  opened : HasLayerExtension path → ∃ resolved location, resolver.resolve path = some resolved ∧
    resolver.openAsset uriParse resolved = .ok (.file location) ∧ SameFile location file
  resolved : ¬ HasLayerExtension path → ∃ location, resolver.resolve path = some location ∧
    SameFile location file

/-- The path goes up from the root through all its directories. -/
def LeavesRoot (root : List Char) (r : String) : Prop :=
  (normalNames root).length ≤ (detour (names r.toList)).up

lemma sameFile_of_names {path other : List Char} (hpath : isAbsolute path = true)
    (hother : isAbsolute other = true) (h : names path = names other) : SameFile path other :=
  ⟨hpath, hother, by rw [normalNames, normalNames, h]⟩

lemma names_separator_cons (path : List Char) : names ('/' :: path) = names path := by
  rw [← List.nil_append ('/' :: path), names_append_separator, names_nil, List.nil_append]

lemma sameFile_slash_iff (hroot : isAbsolute resolver.rootPath = true)
    (hr : isAbsolute r.toList = false) :
    SameFile ('/' :: r.toList) (append resolver.rootPath r.toList) ↔
      LeavesRoot resolver.rootPath r := by
  have habsolute : isAbsolute ('/' :: r.toList) = true := rfl
  have hnormal : normalNames (append resolver.rootPath r.toList) =
      (detour (names r.toList)).target (normalNames resolver.rootPath) := by
    rw [normalNames, names_append, hr, if_neg (by simp), walk_append, ← normalNames,
      walk_eq_target]
  rw [SameFile, hnormal, normalNames, names_separator_cons, walk_eq_target, LeavesRoot,
    ← List.drop_eq_nil_iff]
  simp only [habsolute, isAbsolute_append hroot, true_and, Detour.target, List.drop_nil,
    List.append_cancel_left_eq]
  exact eq_comm

section

variable {path : String} {rest : List Char} (hpath : path.toList = "studio:/".toList ++ rest)

include hpath

lemma startsWith_studio : startsWith path "studio:/" = true := by
  rw [startsWith, hpath, List.isPrefixOf_iff_prefix]
  exact List.prefix_append _ _

lemma startsWith_others :
    startsWith path "gpuopen:/" = false ∧ startsWith path "storage:/" = false := by
  rw [startsWith, startsWith, hpath]
  exact ⟨rfl, rfl⟩

lemma drop_studio : path.toList.drop "studio:/".length = rest := by
  rw [hpath]
  exact List.drop_left' rfl

lemma resolveImpl_studio {c : Char} {copy : List Char} (hrest : rest = c :: copy) :
    resolver.resolveImpl path =
      some (append resolver.rootPath (if c = '/' then copy else c :: copy)) := by
  rw [RenderStudioResolver.resolveImpl, drop_studio hpath, hrest]

lemma resolve_layer (hlayer : HasLayerExtension path) :
    resolver.resolve path = some path.toList := by
  obtain ⟨hgpuopen, hstorage⟩ := startsWith_others hpath
  rw [HasLayerExtension] at hlayer
  rw [RenderStudioResolver.resolve, hgpuopen, hstorage, if_neg (by simp), if_neg (by simp),
    if_pos hlayer]

lemma resolve_other (hother : ¬ HasLayerExtension path) :
    resolver.resolve path = some (resolver.rootPath ++ '/' :: rest) := by
  obtain ⟨hgpuopen, hstorage⟩ := startsWith_others hpath
  have hfirst : replaceFirst "studio:".toList resolver.rootPath ("studio:/".toList ++ rest) =
      some (resolver.rootPath ++ '/' :: rest) := rfl
  rw [HasLayerExtension] at hother
  rw [RenderStudioResolver.resolve, hgpuopen, hstorage, if_neg (by simp), if_neg (by simp),
    if_neg hother, hpath, hfirst]

lemma openAsset_studio (uriParse : String → Option UriUri) :
    resolver.openAsset uriParse path.toList = .ok (.file (append resolver.rootPath rest)) := by
  rw [RenderStudioResolver.openAsset, String.ofList_toList, if_pos (startsWith_studio hpath),
    drop_studio hpath]

end

lemma sameFile_behind_slashes (hroot : isAbsolute resolver.rootPath = true)
    (hr : isAbsolute r.toList = false) {slashes : List Char} (hslashes : slashes = [] ∨ slashes = ['/']) :
    SameFile (resolver.rootPath ++ '/' :: (slashes ++ r.toList))
      (append resolver.rootPath r.toList) := by
  have habsolute : isAbsolute (resolver.rootPath ++ '/' :: (slashes ++ r.toList)) = true := by
    cases hchars : resolver.rootPath with
    | nil => rfl
    | cons c root =>
      rw [hchars] at hroot
      exact hroot
  refine sameFile_of_names habsolute (isAbsolute_append hroot _) ?_
  rw [names_append_separator, names_append, hr, if_neg (by simp)]
  obtain rfl | rfl := hslashes
  · rfl
  · rw [List.singleton_append, names_separator_cons]

lemma reachesFile_iff {uriParse : String → Option UriUri} {path : String} {slashes : List Char}
    (hroot : isAbsolute resolver.rootPath = true) (hr : r ≠ "")
    (hrelative : isAbsolute r.toList = false) (hslashes : slashes = [] ∨ slashes = ['/'])
    (hpath : path.toList = "studio:/".toList ++ (slashes ++ r.toList)) :
    ReachesFile resolver uriParse path (append resolver.rootPath r.toList) ↔
      (HasLayerExtension path → SameFile (append resolver.rootPath (slashes ++ r.toList))
        (append resolver.rootPath r.toList)) := by
  have hsaved : resolver.resolveImpl path = some (append resolver.rootPath r.toList) := by
    obtain ⟨c, copy, hchars⟩ : ∃ c copy, r.toList = c :: copy :=
      List.exists_cons_of_ne_nil (String.toList_eq_nil_iff.not.2 hr)
    have hc : c ≠ '/' := by simpa [hchars, isAbsolute] using hrelative
    obtain rfl | rfl := hslashes
    · rw [resolveImpl_studio hpath hchars, if_neg hc, hchars]
    · rw [resolveImpl_studio hpath (List.singleton_append), if_pos rfl]
  refine ⟨fun h hlayer => ?_, fun h => ⟨?_, fun hlayer => ?_, fun hother => ?_⟩⟩
  · obtain ⟨resolved, location, hresolved, hopened, hsame⟩ := h.opened hlayer
    rw [resolve_layer hpath hlayer, Option.some_inj] at hresolved
    rw [← hresolved, openAsset_studio hpath uriParse] at hopened
    cases hopened
    exact hsame
  · have hfile := isAbsolute_append hroot r.toList
    exact ⟨_, hsaved, hfile, hfile, rfl⟩
  · exact ⟨_, _, resolve_layer hpath hlayer, openAsset_studio hpath uriParse, h hlayer⟩
  · exact ⟨_, resolve_other hpath hother, sameFile_behind_slashes hroot hrelative hslashes⟩

end

/-- A studio path of a file of the workspace leads there, wherever it is converted, exactly if it
has one slash, is not the path of a layer, or goes up through the whole root. -/
theorem studio_path_reaches_file_iff (resolver : RenderStudioResolver)
    (uriParse : String → Option UriUri) (r path : String)
    (hroot : isAbsolute resolver.rootPath = true) (hr : r ≠ "")
    (hrelative : isAbsolute r.toList = false)
    (hpath : path = "studio:/" ++ r ∨ path = "studio://" ++ r) :
    ReachesFile resolver uriParse path (append resolver.rootPath r.toList) ↔
      path = "studio:/" ++ r ∨ ¬ HasLayerExtension path ∨ LeavesRoot resolver.rootPath r := by
  obtain rfl | rfl := hpath
  · have hone : ("studio:/" ++ r).toList = "studio:/".toList ++ ([] ++ r.toList) :=
      String.toList_append
    have hfile := isAbsolute_append hroot r.toList
    exact iff_of_true ((reachesFile_iff hroot hr hrelative (.inl rfl) hone).2
      fun _ => ⟨hfile, hfile, rfl⟩) (.inl rfl)
  · have htwo : ("studio://" ++ r).toList = "studio:/".toList ++ (['/'] ++ r.toList) :=
      String.toList_append
    have hne : "studio://" ++ r ≠ "studio:/" ++ r := by
      intro h
      have hlength := congrArg String.length h
      rw [String.length_append, String.length_append] at hlength
      exact absurd (Nat.add_right_cancel hlength) (by decide)
    rw [reachesFile_iff hroot hr hrelative (.inr rfl) htwo, or_iff_right hne, ← imp_iff_not_or]
    exact imp_congr_right fun _ => sameFile_slash_iff hroot hrelative

/-- The statement for a layer that is written with one slash. -/
theorem studio_path_reaches_layer :
    isAbsolute ['/', 'w'] = true ∧ "a.usda" ≠ "" ∧ isAbsolute "a.usda".toList = false ∧
      ("studio:/a.usda" = "studio:/" ++ "a.usda" ∨ "studio:/a.usda" = "studio://" ++ "a.usda") ∧
      (ReachesFile ⟨['/', 'w'], []⟩ (fun _ => none) "studio:/a.usda"
          (append ['/', 'w'] "a.usda".toList) ↔
        "studio:/a.usda" = "studio:/" ++ "a.usda" ∨ ¬ HasLayerExtension "studio:/a.usda" ∨
          LeavesRoot ['/', 'w'] "a.usda") :=
  ⟨by decide, by decide, by decide, .inl (by decide),
    studio_path_reaches_file_iff ⟨['/', 'w'], []⟩ (fun _ => none) "a.usda" "studio:/a.usda"
      (by decide) (by decide) (by decide) (.inl (by decide))⟩

/-- A layer with two slashes is saved in the workspace and opened in the root directory. -/
theorem studio_path_opened_elsewhere :
    let resolver : RenderStudioResolver := ⟨"/workspace".toList, []⟩
    HasLayerExtension "studio://a.usda" ∧
      resolver.resolveImpl "studio://a.usda" = some "/workspace/a.usda".toList ∧
      resolver.resolve "studio://a.usda" = some "studio://a.usda".toList ∧
      resolver.openAsset (fun _ => none) "studio://a.usda".toList =
        .ok (.file "/a.usda".toList) ∧
      ¬ SameFile "/a.usda".toList "/workspace/a.usda".toList := by
  refine ⟨by decide, by decide, by decide, ?_, by decide⟩
  rfl

end RenderStudioKit.Proofs
