import RenderStudioKit.Lib.Codec
import RenderStudioKit.Lib.NormalPath
import RenderStudioKit.Proofs.StudioPaths

/-!
# References between assets

A reference inside an asset becomes an identifier, which is resolved and opened. References that are
followed in this way from layer to layer lead where they lead on the disk, as long as they stay in the
workspace. A reference inside a cached asset leads into the directory that the asset is opened from.
-/

namespace RenderStudioKit.Proofs.References
open PosixPath

/-- What USD documents of its functions: a normal path is that of `os.path.normpath`, paths are
joined by a separator and made normal, and a suffix begins behind the last delimiter. -/
structure Documented (tf : TfPaths) : Prop where
  normPath : ∀ path, isAbsolute path = false → tf.normPath path = normalForm path
  stringCatPaths : ∀ front suffix, front ≠ [] → isAbsolute front = false →
    tf.stringCatPaths front suffix = normalForm (front ++ '/' :: suffix)
  stringGetBeforeSuffix : ∀ text, '/' ∈ text → tf.stringGetBeforeSuffix text '/' = directory text

/-- A text that an asset refers to another one by, without a scheme. -/
structure IsReference (reference : String) : Prop where
  ne : reference ≠ ""
  noScheme : RenderStudioResolver.isRenderStudioPath reference = false
  slashes : '\\' ∉ reference.toList

/-- The names of a file of the workspace behind its root, innermost first. -/
structure InWorkspace (file : List Name) : Prop where
  ne_nil : file ≠ []
  plain : ∀ name ∈ file, IsPlain name
  slashes : ∀ name ∈ file, '\\' ∉ name

def studioScheme : Name := "studio:".toList

def schemes : List Name := [studioScheme, "gpuopen:".toList, "storage:".toList]

/-- The studio path of a file of the workspace, with one slash. -/
def identifier (file : List Name) : String := .ofList (joined (studioScheme :: file.reverse))

def IsLayer (file : List Name) : Prop := HasLayerExtension (identifier file)

instance (file : List Name) : Decidable (IsLayer file) :=
  inferInstanceAs (Decidable (HasLayerExtension _))

/-- Where a reference leads on the disk: from the directory of the file along the names. -/
def onDisk (file : List Name) (reference : String) : List Name :=
  walk file.tail (names reference.toList)

/-- The same from a layer of the workspace, if the reference does not leave it. -/
def beside (file : List Name) (reference : String) : Option (List Name) :=
  if IsLayer file ∧ (detour (names reference.toList)).up ≤ file.tail.length ∧
      onDisk file reference ≠ [] then
    some (onDisk file reference)
  else none

variable (resolver : RenderStudioResolver) (tf : TfPaths) (uriParse : String → Option UriUri)

/-- The identifier of a reference inside the layer of an identifier. -/
def follow (layer reference : String) : Option String := do
  let anchor ← resolver.resolve layer
  (RenderStudioResolver.createIdentifier tf uriParse reference anchor).toOption

/-- The identifier is resolved and opened as a file of the disk. -/
def OpensFile (identifier : String) (location : List Char) : Prop :=
  ∃ resolved, resolver.resolve identifier = some resolved ∧
    resolver.openAsset uriParse resolved = .ok (.file location)

variable {resolver tf uriParse} {file : List Name} {reference : String}

lemma toList_identifier (file : List Name) :
    (identifier file).toList = joined (studioScheme :: file.reverse) := String.toList_ofList

lemma identifier_eq (h : InWorkspace file) :
    (identifier file).toList = "studio:/".toList ++ joined file.reverse := by
  obtain ⟨name, l, hl⟩ := List.exists_cons_of_ne_nil (List.reverse_ne_nil_iff.2 h.ne_nil)
  rw [toList_identifier, hl]
  rfl

lemma isRenderStudioPath_identifier (h : InWorkspace file) :
    RenderStudioResolver.isRenderStudioPath (identifier file) = true := by
  rw [RenderStudioResolver.isRenderStudioPath, startsWith_studio (identifier_eq h)]
  rfl

lemma names_of_plain {l : List Name} (h : ∀ name ∈ l, IsPlain name) :
    ∀ name ∈ l, name ≠ [] ∧ '/' ∉ name := fun name hname =>
  ⟨(h name hname).ne_nil, (h name hname).separator⟩

lemma plain_scheme : ∀ scheme ∈ schemes, IsPlain scheme := by
  intro scheme hscheme
  simp only [schemes, List.mem_cons, List.not_mem_nil, or_false] at hscheme
  rcases hscheme with rfl | rfl | rfl
  all_goals exact ⟨by decide, by decide, by decide, by decide⟩

lemma plain_reverse_cons {scheme : Name} (hscheme : scheme ∈ schemes) {l : List Name}
    (h : ∀ name ∈ l, IsPlain name) : ∀ name ∈ scheme :: l.reverse, IsPlain name := by
  intro name hname
  rcases List.mem_cons.1 hname with rfl | hname
  · exact plain_scheme name hscheme
  · exact h name (List.mem_reverse.1 hname)

lemma studioScheme_mem : studioScheme ∈ schemes := List.mem_cons_self

lemma names_of_isRenderStudioPath {path : String}
    (h : RenderStudioResolver.isRenderStudioPath path = true) :
    ∃ scheme ∈ schemes, scheme ∈ names path.toList := by
  have hfirst {scheme : Name} (hscheme : IsPlain scheme) {rest : List Char}
      (hpath : path.toList = scheme ++ '/' :: rest) : scheme ∈ names path.toList := by
    rw [hpath, names_append_separator, names_plain hscheme]
    simp
  simp only [RenderStudioResolver.isRenderStudioPath, startsWith, Bool.or_eq_true,
    List.isPrefixOf_iff_prefix] at h
  rcases h with (⟨rest, hrest⟩ | ⟨rest, hrest⟩) | ⟨rest, hrest⟩
  · exact ⟨studioScheme, studioScheme_mem, hfirst (plain_scheme _ studioScheme_mem) hrest.symm⟩
  · exact ⟨"gpuopen:".toList, by simp [schemes],
      hfirst (plain_scheme _ (by simp [schemes])) hrest.symm⟩
  · exact ⟨"storage:".toList, by simp [schemes],
      hfirst (plain_scheme _ (by simp [schemes])) hrest.symm⟩

lemma normalForm_scheme {path : List Char} {scheme : Name} {l down : List Name}
    (hscheme : IsPlain scheme) (hnames : names path = scheme :: l) (hl : detour l = ⟨0, down⟩) :
    normalForm path = joined (scheme :: down.reverse) := by
  have hdetour : detour (names path) = ⟨0, down ++ [scheme]⟩ := by
    rw [hnames, ← List.singleton_append, detour_append, hl,
      detour_plain (by simpa using hscheme)]
    rfl
  rw [normalForm_of_names hdetour, List.reverse_append, List.reverse_singleton,
    List.singleton_append]

lemma createIdentifier_spelled (htf : Documented tf) {path r : String} {anchor : List Char}
    (hpath : path = "studio:/" ++ r ∨ path = "studio://" ++ r)
    (hfile : detour (names r.toList) = ⟨0, file⟩) :
    RenderStudioResolver.createIdentifier tf uriParse path anchor = .ok (identifier file) := by
  obtain ⟨slashes, hslashes, htext⟩ : ∃ slashes : List Char, (slashes = [] ∨ slashes = ['/']) ∧
      path.toList = "studio:/".toList ++ (slashes ++ r.toList) := by
    rcases hpath with rfl | rfl
    · exact ⟨[], .inl rfl, String.toList_append⟩
    · exact ⟨['/'], .inr rfl, String.toList_append⟩
  have hne : path ≠ "" := by
    rintro rfl
    simp at htext
  have hrelative : isAbsolute path.toList = false := by
    rw [htext]
    rfl
  have hnames : names path.toList = studioScheme :: names r.toList := by
    have hsplit : path.toList = studioScheme ++ '/' :: (slashes ++ r.toList) := htext
    rw [hsplit, names_append_separator, names_plain (plain_scheme _ studioScheme_mem)]
    rcases hslashes with rfl | rfl
    · rfl
    · rw [List.singleton_append, List.singleton_append, names_separator_cons]
  have hstudio : RenderStudioResolver.isRenderStudioPath path = true := by
    rw [RenderStudioResolver.isRenderStudioPath, startsWith_studio htext]
    rfl
  have hnormal : tf.normPath path.toList = joined (studioScheme :: file.reverse) := by
    rw [htf.normPath _ hrelative,
      normalForm_scheme (plain_scheme _ studioScheme_mem) hnames hfile]
  rw [RenderStudioResolver.createIdentifier, if_neg hne, hnormal, if_pos hstudio, ite_self,
    identifier]

lemma openAsset_local {resolved : List Char} (h : isAbsolute resolved = true) :
    resolver.openAsset uriParse resolved = .ok (.file resolved) := by
  have hscheme (scheme : String) (hs : scheme.toList.head? ≠ some '/')
      (hne : scheme.toList ≠ []) : startsWith (.ofList resolved) scheme = false := by
    rw [startsWith, String.toList_ofList]
    apply Bool.eq_false_iff.2
    intro hprefix
    obtain ⟨rest, rfl⟩ := List.isPrefixOf_iff_prefix.1 hprefix
    rw [isAbsolute, decide_eq_true_iff, List.head?_append_of_ne_nil _ hne] at h
    exact hs h
  rw [RenderStudioResolver.openAsset]
  simp only [hscheme "studio:/" (by decide) (by decide),
    hscheme "gpuopen:/" (by decide) (by decide),
    hscheme "storage:/" (by decide) (by decide), Bool.false_eq_true, if_false]

variable (uriParse) in
lemma opensFile_identifier (hroot : isAbsolute resolver.rootPath = true) (h : InWorkspace file) :
    ∃ location, OpensFile resolver uriParse (identifier file) location ∧
      isAbsolute location = true ∧
      normalNames location = file ++ normalNames resolver.rootPath := by
  have hpath := identifier_eq h
  have hplain := names_of_plain (fun name hname => h.plain name (List.mem_reverse.1 hname))
  have hrelative : isAbsolute (joined file.reverse) = false := isAbsolute_joined hplain
  have hnames : names (joined file.reverse) = file.reverse :=
    names_joined (List.reverse_ne_nil_iff.2 h.ne_nil) hplain
  have hwalk : walk (normalNames resolver.rootPath) file.reverse =
      file ++ normalNames resolver.rootPath := by
    rw [walk_plain (fun name hname => h.plain name (List.mem_reverse.1 hname)),
      List.reverse_reverse]
  by_cases hlayer : IsLayer file
  · refine ⟨_, ⟨_, resolve_layer hpath hlayer, openAsset_studio hpath uriParse⟩,
      isAbsolute_append hroot _, ?_⟩
    rw [normalNames, names_append, hrelative, if_neg (by simp), walk_append, ← normalNames, hnames,
      hwalk]
  · have habsolute : isAbsolute (resolver.rootPath ++ '/' :: joined file.reverse) = true := by
      cases hchars : resolver.rootPath with
      | nil => rfl
      | cons c root =>
        rw [hchars] at hroot
        exact hroot
    refine ⟨_, ⟨_, resolve_other hpath hlayer, openAsset_local habsolute⟩, habsolute, ?_⟩
    rw [normalNames, names_append_separator, walk_append, ← normalNames, hnames, hwalk]

lemma map_forwardSlash {text : List Char} (h : '\\' ∉ text) : text.map forwardSlash = text := by
  have hkeep : ∀ c ∈ text, forwardSlash c = id c := fun c hc => if_neg (by rintro rfl; exact h hc)
  rw [List.map_congr_left hkeep, List.map_id]

lemma createIdentifier_anchored (htf : Documented tf) {anchor : String} {path : List Char}
    (hanchor : anchor.toList ≠ []) (hne : reference ≠ "")
    (hscheme : RenderStudioResolver.isRenderStudioPath reference = false)
    (h : RenderStudioResolver.anchorRelativePathForStudioProtocol tf uriParse anchor reference =
      .ok (normalForm path)) :
    RenderStudioResolver.createIdentifier tf uriParse reference anchor.toList =
      .ok (.ofList (normalForm path)) := by
  rw [RenderStudioResolver.createIdentifier, if_neg hne, if_neg hanchor, hscheme,
    if_neg (by simp), String.ofList_toList, h]
  exact congrArg (fun text => Except.ok (String.ofList text))
    (by rw [htf.normPath _ (isAbsolute_normalForm _), normalForm_normalForm])

/-- What the identifier of a reference inside a layer is made of. -/
lemma follow_layer (htf : Documented tf) (h : InWorkspace file) (hlayer : IsLayer file)
    (hreference : IsReference reference) :
    follow resolver tf uriParse (identifier file) reference =
      some (.ofList (normalForm
        (joined (studioScheme :: file.tail.reverse) ++ '/' :: reference.toList))) := by
  have hanchor : (identifier file).toList ≠ [] := by
    rw [identifier_eq h]
    simp
  have hslash : (identifier file).toList.map forwardSlash = (identifier file).toList := by
    apply map_forwardSlash
    intro hc
    rw [toList_identifier, joined, List.mem_append] at hc
    rcases hc with hc | hc
    · exact absurd hc (by decide)
    · obtain ⟨name, hname, hc⟩ := List.mem_flatMap.1 hc
      rcases List.mem_cons.1 hc with hc | hc
      · exact absurd hc (by decide)
      · exact h.slashes name (List.mem_reverse.1 hname) hc
  obtain ⟨name, directories, rfl⟩ := List.exists_cons_of_ne_nil h.ne_nil
  have hbefore : tf.stringGetBeforeSuffix (identifier (name :: directories)).toList '/' =
      joined (studioScheme :: directories.reverse) := by
    rw [htf.stringGetBeforeSuffix _ (by rw [identifier_eq h]; simp), toList_identifier,
      List.reverse_cons, directory_joined (h.plain name List.mem_cons_self)]
  have hplain := plain_reverse_cons studioScheme_mem
    fun name' hname' => h.plain name' (List.mem_cons_of_mem name hname')
  have hfront : joined (studioScheme :: directories.reverse) ≠ [] := by
    simp [joined, studioScheme]
  have hanchored : RenderStudioResolver.anchorRelativePathForStudioProtocol tf uriParse
      (identifier (name :: directories)) reference = .ok (normalForm
        (joined (studioScheme :: directories.reverse) ++ '/' :: reference.toList)) := by
    rw [RenderStudioResolver.anchorRelativePathForStudioProtocol, isRenderStudioPath_identifier h,
      if_neg (by simp), startsWith_studio (identifier_eq h), if_pos rfl, hslash, hbefore,
      htf.stringCatPaths _ _ hfront (isAbsolute_joined (names_of_plain hplain))]
    exact congrArg Except.ok (by rw [htf.normPath _ (isAbsolute_normalForm _),
      normalForm_normalForm])
  rw [follow, resolve_layer (identifier_eq h) hlayer, Option.bind_eq_bind, Option.bind_some,
    createIdentifier_anchored htf hanchor hreference.ne hreference.noScheme hanchored]
  rfl

lemma names_anchored (hplain : ∀ name ∈ file.tail, IsPlain name) (reference : String) :
    names (joined (studioScheme :: file.tail.reverse) ++ '/' :: reference.toList) =
      studioScheme :: (file.tail.reverse ++ names reference.toList) := by
  rw [names_append_separator, names_joined (List.cons_ne_nil _ _)
    (names_of_plain (plain_reverse_cons studioScheme_mem hplain)), List.cons_append]

variable (resolver uriParse) in
/-- One step: a reference that stays in the workspace has the identifier of the file that it leads to
on the disk. -/
lemma follow_beside (htf : Documented tf) (h : InWorkspace file) (hreference : IsReference reference)
    {file' : List Name} (hbeside : beside file reference = some file') :
    follow resolver tf uriParse (identifier file) reference = some (identifier file') ∧
      InWorkspace file' ∧
      onDisk (file ++ normalNames resolver.rootPath) reference =
        file' ++ normalNames resolver.rootPath := by
  unfold beside at hbeside
  split at hbeside
  case isFalse => cases hbeside
  case isTrue hstays =>
    obtain ⟨hlayer, hup, hne⟩ := hstays
    obtain rfl := Option.some_inj.1 hbeside
    have htail : ∀ name ∈ file.tail, IsPlain name :=
      fun name hname => h.plain name (List.mem_of_mem_tail hname)
    have htarget : onDisk file reference =
        (detour (names reference.toList)).target file.tail := walk_eq_target _ _
    have hdetour : detour (file.tail.reverse ++ names reference.toList) =
        ⟨0, onDisk file reference⟩ := by
      rw [detour_append, detour_plain fun name hname => htail name (List.mem_reverse.1 hname),
        List.reverse_reverse, Detour.andThen_of_le hup, htarget]
    refine ⟨?_, ⟨hne, ?_, ?_⟩, ?_⟩
    · rw [follow_layer htf h hlayer hreference, normalForm_scheme
        (plain_scheme _ studioScheme_mem) (names_anchored htail reference) hdetour, identifier]
    · intro name hname
      rw [htarget, Detour.target, List.mem_append] at hname
      rcases hname with hname | hname
      · exact plain_of_mem_down hname
      · exact htail name (List.mem_of_mem_drop hname)
    · intro name hname
      rw [htarget, Detour.target, List.mem_append] at hname
      rcases hname with hname | hname
      · intro hslash
        have hmem := (List.mem_filter.1 (of_mem_down hname).1).1
        exact hreference.slashes ((Uri.of_mem_splitOn hmem).2 _ hslash)
      · exact h.slashes name (List.mem_of_mem_tail (List.mem_of_mem_drop hname))
    · rw [htarget, onDisk, List.tail_append_of_ne_nil h.ne_nil, walk_eq_target, Detour.target,
        Detour.target, List.drop_append_of_le_length hup, List.append_assoc]

variable (resolver uriParse) in
lemma foldlM_follow (htf : Documented tf) {references : List String} {file' : List Name}
    (h : InWorkspace file) (hreferences : ∀ reference ∈ references, IsReference reference)
    (hstays : references.foldlM beside file = some file') :
    references.foldlM (follow resolver tf uriParse) (identifier file) = some (identifier file') ∧
      InWorkspace file' ∧
      references.foldl onDisk (file ++ normalNames resolver.rootPath) =
        file' ++ normalNames resolver.rootPath := by
  induction references generalizing file with
  | nil =>
    obtain rfl := Option.some_inj.1 hstays
    exact ⟨rfl, h, rfl⟩
  | cons reference references ih =>
    rw [List.foldlM_cons] at hstays
    obtain ⟨next, hnext, hrest⟩ := Option.bind_eq_some_iff.1 hstays
    obtain ⟨hfollow, hinside, hdisk⟩ :=
      follow_beside resolver uriParse htf h (hreferences reference List.mem_cons_self) hnext
    rw [List.foldlM_cons, hfollow, Option.bind_eq_bind, Option.bind_some, List.foldl_cons, hdisk]
    exact ih hinside (fun r hr => hreferences r (List.mem_cons_of_mem _ hr)) hrest

/-- A reference out of the workspace, none of whose names is a scheme, has no studio path. -/
lemma follow_out (htf : Documented tf) (h : InWorkspace file) (hlayer : IsLayer file)
    (hreference : IsReference reference)
    (hnames : ∀ scheme ∈ schemes, scheme ∉ names reference.toList)
    (hout : beside file reference = none) :
    ∃ path, follow resolver tf uriParse (identifier file) reference = some path ∧
      RenderStudioResolver.isRenderStudioPath path = false := by
  refine ⟨_, follow_layer htf h hlayer hreference, ?_⟩
  have htail : ∀ name ∈ file.tail, IsPlain name :=
    fun name hname => h.plain name (List.mem_of_mem_tail hname)
  set path := joined (studioScheme :: file.tail.reverse) ++ '/' :: reference.toList with hpath
  have hdetour : detour (names path) =
      (⟨0, file.tail ++ [studioScheme]⟩ : Detour).andThen (detour (names reference.toList)) := by
    rw [hpath, names_anchored htail, ← List.cons_append, detour_append,
      detour_plain (plain_reverse_cons studioScheme_mem htail), List.reverse_cons,
      List.reverse_reverse]
  by_cases hup : (detour (names reference.toList)).up ≤ file.tail.length
  · -- the reference leads to the root of the workspace, whose name is the scheme alone
    have hnil : onDisk file reference = [] := by
      by_contra hne
      rw [beside, if_pos ⟨hlayer, hup, hne⟩] at hout
      cases hout
    have hroot : detour (names path) = ⟨0, [studioScheme]⟩ := by
      rw [hdetour, Detour.andThen_of_le (by rw [List.length_append]; omega), Detour.target,
        List.drop_append_of_le_length hup, ← List.append_assoc, ← Detour.target, ← walk_eq_target,
        ← onDisk, hnil, List.nil_append]
    rw [normalForm_of_names hroot]
    decide
  · -- the normal form consists of names that lead up and of names of the reference
    have hdrop : (file.tail ++ [studioScheme]).drop (detour (names reference.toList)).up = [] := by
      apply List.drop_eq_nil_iff.2
      rw [List.length_append, List.length_singleton]
      omega
    have hdown : (detour (names path)).down = (detour (names reference.toList)).down := by
      rw [hdetour, Detour.andThen, hdrop, List.append_nil]
    apply Bool.eq_false_iff.2
    intro hstudio
    obtain ⟨scheme, hscheme, hmem⟩ := names_of_isRenderStudioPath hstudio
    have hplain := plain_scheme scheme hscheme
    rw [String.toList_ofList] at hmem
    by_cases hnil : (detour (names path)).toNames = []
    · rw [normalForm, hnil] at hmem
      exact hplain.ne_dot (List.mem_singleton.1 hmem)
    · rw [normalForm, names_joined hnil fun _ => of_mem_toNames, Detour.toNames, List.mem_append,
        List.mem_reverse, hdown] at hmem
      rcases hmem with hmem | hmem
      · exact hplain.ne_dotdot (List.eq_of_mem_replicate hmem)
      · exact hnames scheme hscheme (of_mem_down hmem).1

/-- A layer of the workspace has one identifier, however its path is spelled and whatever the anchor.
References that are followed from there, each inside the layer that the one before leads to, open the
file that they lead to on the disk, as long as none leaves the workspace; a reference that leaves it
has no studio path any more. -/
theorem references_followed_on_disk {tf : TfPaths} (htf : Documented tf)
    (resolver : RenderStudioResolver) (hroot : isAbsolute resolver.rootPath = true)
    (uriParse : String → Option UriUri) (path r : String)
    (hpath : path = "studio:/" ++ r ∨ path = "studio://" ++ r) (anchor : List Char)
    (file : List Name) (hfile : detour (names r.toList) = ⟨0, file⟩) (hne : file ≠ [])
    (hslashes : '\\' ∉ r.toList) (references : List String)
    (hreferences : ∀ reference ∈ references, IsReference reference) (file' : List Name)
    (hstays : references.foldlM beside file = some file') :
    ∃ first last location,
      RenderStudioResolver.createIdentifier tf uriParse path anchor = .ok first ∧
      references.foldlM (follow resolver tf uriParse) first = some last ∧
      OpensFile resolver uriParse last location ∧ isAbsolute location = true ∧
      normalNames location =
        references.foldl onDisk (walk (normalNames resolver.rootPath) (names r.toList)) ∧
      ∀ reference, IsReference reference → (∀ scheme ∈ schemes, scheme ∉ names reference.toList) →
        IsLayer file' → beside file' reference = none →
        ∃ out, follow resolver tf uriParse last reference = some out ∧
          RenderStudioResolver.isRenderStudioPath out = false := by
  have hinside : InWorkspace file := by
    refine ⟨hne, fun name hname => ?_, fun name hname hslash => ?_⟩
    · have hdown : name ∈ (detour (names r.toList)).down := by
        rw [hfile]
        exact hname
      exact plain_of_mem_down hdown
    · have hmem : name ∈ names r.toList := by
        apply (of_mem_down _).1
        rw [hfile]
        exact hname
      exact hslashes ((Uri.of_mem_splitOn (List.mem_filter.1 hmem).1).2 _ hslash)
  have hstart : walk (normalNames resolver.rootPath) (names r.toList) =
      file ++ normalNames resolver.rootPath := by
    rw [walk_eq_target, hfile, Detour.target, List.drop_zero]
  obtain ⟨hrun, hlast, hdisk⟩ := foldlM_follow resolver uriParse htf hinside hreferences hstays
  obtain ⟨location, hopens, habsolute, hlocation⟩ :=
    opensFile_identifier uriParse hroot hlast
  refine ⟨_, _, location, createIdentifier_spelled htf hpath hfile, hrun, hopens, habsolute, ?_, ?_⟩
  · rw [hlocation, hstart, hdisk]
  · exact fun reference hreference hnames hlayer hout =>
      follow_out htf hlast hlayer hreference hnames hout

/-- Functions that do what is documented. -/
def posixPaths : TfPaths where
  isRelativePath path := !isAbsolute path
  normPath := normalForm
  stringCatPaths front suffix := normalForm (front ++ '/' :: suffix)
  stringGetBeforeSuffix text _ := directory text

lemma documented_posixPaths : Documented posixPaths :=
  ⟨fun _ _ => rfl, fun _ _ _ _ => rfl, fun _ _ => rfl⟩

/-- The statement for a texture of a layer that another layer refers to. -/
theorem references_followed_on_disk_texture :
    ∃ first last location,
      RenderStudioResolver.createIdentifier posixPaths (fun _ => none) "studio://a/s.usda" [] =
        .ok first ∧
      ["../b/t.usda", "x.png"].foldlM (follow ⟨['/', 'w'], []⟩ posixPaths fun _ => none) first =
        some last ∧
      OpensFile ⟨['/', 'w'], []⟩ (fun _ => none) last location ∧ isAbsolute location = true ∧
      normalNames location =
        ["../b/t.usda", "x.png"].foldl onDisk
          (walk (normalNames ['/', 'w']) (names "a/s.usda".toList)) := by
  obtain ⟨first, last, location, hfirst, hlast, hopens, habsolute, hlocation, -⟩ :=
    references_followed_on_disk documented_posixPaths ⟨['/', 'w'], []⟩ (by decide) (fun _ => none)
      "studio://a/s.usda" "a/s.usda" (.inr (by decide)) [] ["s.usda".toList, "a".toList]
      (by decide) (by decide) (by decide) ["../b/t.usda", "x.png"]
      (by
        intro reference hreference
        simp only [List.mem_cons, List.not_mem_nil, or_false] at hreference
        rcases hreference with rfl | rfl
        · exact ⟨by decide, by decide, by decide⟩
        · exact ⟨by decide, by decide, by decide⟩)
      ["x.png".toList, "b".toList] (by decide)
  exact ⟨first, last, location, hfirst, hlast, hopens, habsolute, hlocation⟩

variable (resolver uriParse) in
/-- The anchor of a cached asset, the directory that the asset is opened from and the name of this
directory in its folder of the cache. The scheme that is parsed is that of the text. -/
inductive OpensCached (anchor : String) (location name : List Char) : Prop where
  | gpuOpen (uuid : String) (hname : uuid.toList = name)
      (hopened : resolver.openAsset uriParse anchor.toList = .ok (.gpuOpen uuid location))
      (hscheme : ∀ uri, uriParse (cString anchor) = some uri → uri.scheme = "gpuopen")
  | localStorage (light : String) (hname : light.toList = name)
      (hopened : resolver.openAsset uriParse anchor.toList = .ok (.localStorage light location))
      (hrelative : isAbsolute name = false) (hslashes : '\\' ∉ name)

lemma openAsset_gpuOpen {anchor uuid : String} {location : List Char}
    (h : resolver.openAsset uriParse anchor.toList = .ok (.gpuOpen uuid location)) :
    startsWith anchor "studio:/" = false ∧ startsWith anchor "gpuopen:/" = true ∧
      ∃ url, Url.parse uriParse anchor = .ok url ∧
        uuid.toList = url.mPath.toList.filter (· ≠ '/') ∧
        location = append (append resolver.assetsCachePath "Materials".toList) uuid.toList := by
  rw [RenderStudioResolver.openAsset, String.ofList_toList] at h
  cases hstudio : startsWith anchor "studio:/" with
  | true =>
    rw [hstudio, if_pos rfl] at h
    cases h
  | false =>
    rw [hstudio, if_neg (by simp)] at h
    cases hgpuopen : startsWith anchor "gpuopen:/" with
    | true =>
      rw [hgpuopen, if_pos rfl] at h
      obtain ⟨url, hurl, hok⟩ := Codec.bind_eq_ok.1 h
      cases hok
      exact ⟨rfl, rfl, url, hurl, String.toList_ofList,
        congrArg (append _) String.toList_ofList.symm⟩
    | false =>
      rw [hgpuopen, if_neg (by simp)] at h
      split at h
      · cases h
      · cases h

lemma openAsset_localStorage {anchor light : String} {location : List Char}
    (h : resolver.openAsset uriParse anchor.toList = .ok (.localStorage light location)) :
    startsWith anchor "studio:/" = false ∧ startsWith anchor "gpuopen:/" = false ∧
      startsWith anchor "storage:/" = true ∧
      light.toList = anchor.toList.drop "storage:/".length ∧
      location = append (append resolver.assetsCachePath "Storage".toList) light.toList := by
  rw [RenderStudioResolver.openAsset, String.ofList_toList] at h
  cases hstudio : startsWith anchor "studio:/" with
  | true =>
    rw [hstudio, if_pos rfl] at h
    cases h
  | false =>
    rw [hstudio, if_neg (by simp)] at h
    cases hgpuopen : startsWith anchor "gpuopen:/" with
    | true =>
      rw [hgpuopen, if_pos rfl] at h
      obtain ⟨url, -, hok⟩ := Codec.bind_eq_ok.1 h
      cases hok
    | false =>
      rw [hgpuopen, if_neg (by simp)] at h
      cases hstorage : startsWith anchor "storage:/" with
      | true =>
        rw [hstorage, if_pos rfl] at h
        cases h
        exact ⟨rfl, rfl, rfl, String.toList_ofList,
          congrArg (append _) String.toList_ofList.symm⟩
      | false =>
        rw [hstorage, if_neg (by simp)] at h
        cases h

/-- The folder of the cache for the assets of a scheme. -/
inductive IsFolder : Name → String → Prop where
  | materials : IsFolder "gpuopen:".toList "Materials"
  | storage : IsFolder "storage:".toList "Storage"

/-- What a reference inside a cached asset is joined with. -/
lemma anchor_cached (htf : Documented tf) {anchor : String} {location name : List Char}
    (h : OpensCached resolver uriParse anchor location name) (reference : String) :
    ∃ scheme folder front, IsFolder scheme folder ∧ names front = scheme :: names name ∧
      location = append (append resolver.assetsCachePath folder.toList) name ∧
      isAbsolute name = false ∧ anchor.toList ≠ [] ∧
      RenderStudioResolver.anchorRelativePathForStudioProtocol tf uriParse anchor reference =
        .ok (normalForm (front ++ '/' :: reference.toList)) := by
  cases h with
  | gpuOpen uuid hname hopened hscheme =>
    subst hname
    obtain ⟨hstudio, hgpuopen, url, hurl, huuid, hlocation⟩ := openAsset_gpuOpen hopened
    have hprotocol : url.mProtocol = "gpuopen" := by
      unfold Url.parse at hurl
      cases huri : uriParse (cString anchor) with
      | none =>
        rw [huri] at hurl
        cases hurl
      | some uri =>
        rw [huri] at hurl
        obtain ⟨port, -, hok⟩ := Codec.bind_eq_ok.1 hurl
        cases hok
        exact hscheme uri huri
    have hanchor : anchor.toList ≠ [] := by
      intro hnil
      rw [startsWith, hnil] at hgpuopen
      exact absurd hgpuopen (by decide)
    have hseparator : '/' ∉ uuid.toList := by
      rw [huuid]
      intro hmem
      simpa using (List.mem_filter.1 hmem).2
    have hrelative : isAbsolute uuid.toList = false := by
      apply decide_eq_false
      exact fun hhead => hseparator (List.mem_of_head? hhead)
    refine ⟨_, _, "gpuopen:/".toList ++ uuid.toList, .materials, ?_, hlocation, hrelative, hanchor, ?_⟩
    · have hsplit : "gpuopen:/".toList ++ uuid.toList = "gpuopen:".toList ++ '/' :: uuid.toList :=
        rfl
      rw [hsplit, names_append_separator, names_plain (plain_scheme _ (by simp [schemes]))]
      rfl
    · rw [RenderStudioResolver.anchorRelativePathForStudioProtocol,
        RenderStudioResolver.isRenderStudioPath, hstudio, hgpuopen, if_neg (by simp),
        if_neg (by simp), if_pos rfl, hurl]
      exact congrArg Except.ok (by
        rw [hprotocol, ← huuid, htf.stringCatPaths _ _ (by simp) rfl,
          htf.normPath _ (isAbsolute_normalForm _), normalForm_normalForm]
        rfl)
  | localStorage light hname hopened hrelative hslashes =>
    subst hname
    obtain ⟨hstudio, hgpuopen, hstorage, hlight, hlocation⟩ := openAsset_localStorage hopened
    obtain ⟨rest, hrest⟩ := List.isPrefixOf_iff_prefix.1 hstorage
    have hanchor : anchor.toList = "storage:/".toList ++ light.toList := by
      rw [hlight, ← hrest]
      exact congrArg ("storage:/".toList ++ ·) (List.drop_left' rfl).symm
    have hslash : anchor.toList.map forwardSlash = anchor.toList := by
      apply map_forwardSlash
      rw [hanchor, List.mem_append, not_or]
      exact ⟨by decide, hslashes⟩
    refine ⟨_, _, anchor.toList, .storage, ?_, hlocation, hrelative, ?_, ?_⟩
    · have hsplit : anchor.toList = "storage:".toList ++ '/' :: light.toList := hanchor
      rw [hsplit, names_append_separator, names_plain (plain_scheme _ (by simp [schemes]))]
      rfl
    · rw [hanchor]
      simp
    · have hfront : isAbsolute anchor.toList = false := by
        rw [hanchor]
        rfl
      rw [RenderStudioResolver.anchorRelativePathForStudioProtocol,
        RenderStudioResolver.isRenderStudioPath, hstudio, hgpuopen, hstorage, if_neg (by simp),
        if_neg (by simp), if_neg (by simp), if_pos rfl, hslash]
      exact congrArg Except.ok (by
        rw [htf.stringCatPaths _ _ (by rw [hanchor]; simp) hfront,
          htf.normPath _ (isAbsolute_normalForm _), normalForm_normalForm])

/-- A path with two names behind the scheme is a file of the cache. -/
lemma resolve_cached {scheme : Name} {folder : String} (hfolder : IsFolder scheme folder)
    {down : List Name} (hplain : ∀ name ∈ down, IsPlain name) (hdown : 2 ≤ down.length) :
    resolver.resolve (.ofList (joined (scheme :: down.reverse))) =
      some (down.reverse.foldl append (append resolver.assetsCachePath folder.toList)) := by
  have hnil : down.reverse ≠ [] := by
    intro hnil
    rw [List.reverse_eq_nil_iff.1 hnil] at hdown
    exact absurd hdown (by decide)
  obtain ⟨name, l, hl⟩ := List.exists_cons_of_ne_nil hnil
  have hscheme : scheme ∈ schemes := by
    cases hfolder with
    | materials => simp [schemes]
    | storage => simp [schemes]
  have hcached : resolver.resolveCached folder (.ofList (joined (scheme :: down.reverse))) =
      down.reverse.foldl append (append resolver.assetsCachePath folder.toList) := by
    have hnames : names (joined (scheme :: down.reverse)) = scheme :: down.reverse :=
      names_joined (List.cons_ne_nil _ _) (names_of_plain (plain_reverse_cons hscheme hplain))
    rw [RenderStudioResolver.resolveCached, String.toList_ofList, hnames, if_pos, List.tail_cons]
    rw [List.length_cons, List.length_reverse]
    omega
  have hstarts (search : String) :
      startsWith (.ofList (joined (scheme :: down.reverse))) search =
        search.toList.isPrefixOf (scheme ++ '/' :: (name ++ l.flatMap ('/' :: ·))) := by
    rw [hl]
    exact congrArg (search.toList.isPrefixOf ·) String.toList_ofList
  rw [RenderStudioResolver.resolve, hstarts, hstarts]
  cases hfolder with
  | materials =>
    rw [if_pos (by rfl), hcached]
  | storage =>
    rw [if_neg (by simp [List.isPrefixOf]), if_pos (by rfl), hcached]

/-- A reference inside a cached asset opens the file that it leads to from the directory the asset is
opened from, if it stays in the directories of the cached assets. -/
theorem cached_references_lead_beside {tf : TfPaths} (htf : Documented tf)
    (resolver : RenderStudioResolver) (hcache : isAbsolute resolver.assetsCachePath = true)
    (uriParse : String → Option UriUri) (anchor : String) (location name : List Char)
    (hopened : OpensCached resolver uriParse anchor location name) (reference : String)
    (hne : reference ≠ "") (hscheme : RenderStudioResolver.isRenderStudioPath reference = false)
    (down : List Name) (hstays : detour (names name ++ names reference.toList) = ⟨0, down⟩)
    (hdown : 2 ≤ down.length) :
    ∃ path file, RenderStudioResolver.createIdentifier tf uriParse reference anchor.toList =
        .ok path ∧
      OpensFile resolver uriParse path file ∧
      SameFile file (location ++ '/' :: reference.toList) := by
  obtain ⟨scheme, folder, front, hfolder, hfront, hlocation, hrelative, hanchor, hanchored⟩ :=
    anchor_cached htf hopened reference
  have hplain : ∀ name ∈ down, IsPlain name := by
    intro name' hname'
    have hmem : name' ∈ (detour (names (name ++ '/' :: reference.toList))).down := by
      rw [names_append_separator, hstays]
      exact hname'
    exact plain_of_mem_down hmem
  have hnames : names (front ++ '/' :: reference.toList) =
      scheme :: (names name ++ names reference.toList) := by
    rw [names_append_separator, hfront, List.cons_append]
  have hmem : scheme ∈ schemes := by
    cases hfolder with
    | materials => simp [schemes]
    | storage => simp [schemes]
  have hfile : isAbsolute (down.reverse.foldl append
      (append resolver.assetsCachePath folder.toList)) = true :=
    isAbsolute_foldl_append _ (isAbsolute_append hcache _)
  have habsolute : isAbsolute (location ++ '/' :: reference.toList) = true := by
    have hdirectory : isAbsolute location = true := by
      rw [hlocation]
      exact isAbsolute_append (isAbsolute_append hcache _) _
    cases hchars : location with
    | nil => rfl
    | cons c rest =>
      rw [hchars] at hdirectory
      exact hdirectory
  refine ⟨_, _, createIdentifier_anchored htf hanchor hne hscheme hanchored,
    ⟨_, ?_, openAsset_local hfile⟩, hfile, habsolute, ?_⟩
  · rw [normalForm_scheme (plain_scheme scheme hmem) hnames hstays, resolve_cached hfolder hplain hdown]
  · -- both walk through the folder of the cache and then along the names behind it
    rw [normalNames, normalNames, names_foldl_append fun name' hname' =>
        hplain name' (List.mem_reverse.1 hname'), names_append_separator, hlocation,
      names_append _ name, hrelative, if_neg (by simp), List.append_assoc, walk_append,
      walk_append, walk_plain fun name' hname' => hplain name' (List.mem_reverse.1 hname'),
      walk_eq_target _ (names name ++ names reference.toList), hstays, Detour.target,
      List.drop_zero, List.reverse_reverse]

/-- The statement for a texture of a material whose address has a title. -/
theorem cached_references_lead_beside_texture :
    ∃ path file, RenderStudioResolver.createIdentifier posixPaths
        (fun _ => some ⟨"gpuopen", "", "", ["m1"], "title=Wood"⟩) "textures/x.png"
        "gpuopen:/m1?title=Wood".toList = .ok path ∧
      OpensFile ⟨['/', 'w'], ['/', 'c']⟩
        (fun _ => some ⟨"gpuopen", "", "", ["m1"], "title=Wood"⟩) path file ∧
      SameFile file ("/c/Materials/m1".toList ++ '/' :: "textures/x.png".toList) :=
  cached_references_lead_beside documented_posixPaths ⟨['/', 'w'], ['/', 'c']⟩ (by decide)
    (fun _ => some ⟨"gpuopen", "", "", ["m1"], "title=Wood"⟩) "gpuopen:/m1?title=Wood"
    "/c/Materials/m1".toList "m1".toList
    (.gpuOpen "m1" rfl rfl fun uri huri => by rw [← Option.some_inj.1 huri])
    "textures/x.png" (by decide) (by decide) ["x.png".toList, "textures".toList, "m1".toList]
    (by decide) (by decide)

end RenderStudioKit.Proofs.References
