import RenderStudioKit.Lib.NormalPath
import RenderStudioKit.Model.WorkspacePath

/-!
# Local paths and workspace paths

The resolver compares paths as they are written. What its answer is worth is decided by the elements
behind the common beginning of root and path: by how far they lead up out of it and by the names they
come down by.
-/

namespace RenderStudioKit.Proofs
open PosixPath

section

variable {root path : List Char}

/-- The directory that the common beginning of the path and the root leads to. -/
def commonDirectory (root path : List Char) : List Name :=
  walk [] (commonPrefix (elements path) (elements root))

/-- Behind the common beginning, the root goes up as far as down and the path does not begin by
going up. -/
def WrittenBehind (root path : List Char) : Prop :=
  (detour (behind path root)).down.length = (detour (behind path root)).up ∧
    (behind root path).head? ≠ some dotdot

/-- The names that lead to the root from where the rest of the path has gone up to, for a root whose
rest does not lead up. -/
def wayHome (root path : List Char) : List Name :=
  (detour (behind path root)).down ++
    (commonDirectory root path).take (detour (behind root path)).up

/-- Roots and paths that the resolver reads right. -/
inductive ReadRight (root path : List Char) : Prop where
  /-- The rest of the root leads nowhere, and that of the path stays below it and has no backslash. -/
  | below (hroot : detour (behind path root) = ⟨0, []⟩) (hstays : (detour (behind root path)).up = 0)
      (hslash : ∀ name ∈ behind root path, '\\' ∉ name)
  /-- The rest of the root leads down or that of the path begins by going up, and the path comes down by
  another name than the first one on the way home. -/
  | apart (hroot : (detour (behind path root)).up = 0)
      (hout : (detour (behind path root)).down ≠ [] ∨ (behind root path).head? = some dotdot)
      (hway : wayHome root path ≠ [])
      (hfirst : (detour (behind root path)).down.getLast? ≠ (wayHome root path).getLast?)

/-- Roots and paths that it reads wrong. -/
inductive Misread (root path : List Char) : Prop where
  /-- The path seems to be below the root, but leads up out of it and does not come home. -/
  | leaves (hroot : detour (behind path root) = ⟨0, []⟩)
      (hfirst : (behind root path).head? ≠ some dotdot)
      (haway : ¬ wayHome root path <:+ (detour (behind root path)).down)
  /-- The path seems to be elsewhere, but comes home. -/
  | enters (hroot : (detour (behind path root)).up = 0)
      (hout : (detour (behind path root)).down ≠ [] ∨ (behind root path).head? = some dotdot)
      (hhome : wayHome root path <:+ (detour (behind root path)).down)
  /-- The rest of the root leads up and as far down by other names than those of the path. -/
  | strays (hroot : (detour (behind path root)).down.length = (detour (behind path root)).up)
      (hstays : (detour (behind root path)).up = 0)
      (haway : ¬ (detour (behind path root)).down <:+ (detour (behind root path)).down ++
        (commonDirectory root path).take (detour (behind path root)).up)
  /-- The path stays below the root, and a name it comes down by has a backslash. -/
  | backslash {name : Name} (hroot : detour (behind path root) = ⟨0, []⟩)
      (hstays : (detour (behind root path)).up = 0) (hname : name ∈ (detour (behind root path)).down)
      (hslash : '\\' ∈ name)

/-- No name is one of the two that lead nowhere or up. -/
def PlainNames (path : List Char) : Prop := ∀ name ∈ names path, name ≠ dot ∧ name ≠ dotdot

lemma normalNames_path (root path : List Char) :
    normalNames path = (detour (behind root path)).target (commonDirectory root path) := by
  have hpath := commonPrefix_append_drop (elements path) (elements root)
  rw [normalNames, ← walk_elements, ← hpath, walk_append, walk_eq_target, behind, commonDirectory]

lemma normalNames_root (root path : List Char) :
    normalNames root = (detour (behind path root)).target (commonDirectory root path) := by
  rw [normalNames_path path root, commonDirectory, commonPrefix_comm, ← commonDirectory]

lemma inside_iff_target : Inside root path ↔
    (detour (behind path root)).target (commonDirectory root path) <:+
      (detour (behind root path)).target (commonDirectory root path) := by
  rw [Inside, normalNames_path root path, normalNames_root root path]

lemma writtenBehind_iff_excess : WrittenBehind root path ↔
    excess (behind path root) = 0 ∧ (behind root path).head? ≠ some dotdot := by
  have hexcess := excess_eq (behind path root)
  refine and_congr_left' ?_
  omega

lemma isUnresolvable_iff {resolver : RenderStudioResolver} {path : String}
    (hroot : isAbsolute resolver.rootPath = true) (hpath : isAbsolute path.toList = true)
    (hscheme : ¬ "://".toList <:+: path.toList) :
    resolver.isUnresolvable path = true ↔ WrittenBehind resolver.rootPath path.toList := by
  rw [writtenBehind_iff_excess, ← lexicallyRelative_leads_down_iff hpath hroot,
    RenderStudioResolver.isUnresolvable, if_neg hscheme, decide_eq_true_iff]

lemma splitOn_map_forwardSlash {name : Name} (h : '/' ∉ name) :
    (name.map forwardSlash).splitOn '/' = name.splitOn '\\' := by
  induction name with
  | nil => rfl
  | cons c name ih =>
    obtain ⟨hc, hname⟩ := not_or.1 (List.mem_cons.not.1 h)
    rw [List.map_cons, List.splitOn_cons_eq_if_modifyHead, List.splitOn_cons_eq_if_modifyHead,
      ih hname]
    by_cases hslash : c = '\\'
    · rw [hslash]
      rfl
    · have hkeep : forwardSlash c = c := if_neg hslash
      rw [hkeep, if_neg (by simpa using Ne.symm hc), if_neg (by simpa using hslash)]

/-- The text of the relative form of a path that is written behind the root. -/
lemma relative_text (hroot : isAbsolute root = true) (hpath : isAbsolute path = true)
    (h : WrittenBehind root path) (directory : List Name) :
    let text := (lexicallyRelative path root).map forwardSlash
    (isAbsolute text = true ↔ (behind root path).flatten.head? = some '\\') ∧
      walk directory (text.splitOn '/') =
        walk directory ((behind root path).flatMap (·.splitOn '\\')) := by
  intro text
  have htext : text = _ := congrArg (List.map forwardSlash)
    (lexicallyRelative_of_excess hpath hroot (writtenBehind_iff_excess.1 h).1)
  cases hbehind : behind root path with
  | nil =>
    rw [hbehind] at htext
    rw [htext]
    exact ⟨by decide, rfl⟩
  | cons name l =>
    rw [hbehind] at htext
    cases name with
    | nil =>
      have hl : l = [] := by
        by_contra hl
        exact of_behind_eq [] hbehind hl rfl
      rw [htext, hl]
      exact ⟨by decide, rfl⟩
    | cons c name =>
      have hseparator : ∀ name' ∈ (c :: name) :: l, '/' ∉ name' :=
        fun name' hname' => separator_notMem_behind (hbehind ▸ hname')
      have hc : c ≠ '/' := fun hc => hseparator _ List.mem_cons_self (hc ▸ List.mem_cons_self)
      have hmap : text = (c :: name).map forwardSlash ++
          (l.map (List.map forwardSlash)).flatMap ('/' :: ·) := by
        rw [htext, List.map_append, List.map_flatMap, List.flatMap_map]
        rfl
      refine ⟨?_, ?_⟩
      · rw [hmap]
        simp only [isAbsolute, List.map_cons, List.cons_append, List.head?_cons, List.flatten_cons,
          decide_eq_true_eq, Option.some_inj, forwardSlash]
        split
        · simp_all
        · simp_all
      · rw [hmap, splitOn_flatMap, ← List.map_cons, List.flatMap_map]
        congr 1
        exact List.flatMap_congr fun name' hname' => splitOn_map_forwardSlash (hseparator name' hname')

lemma resolveImpl_unresolve {resolver : RenderStudioResolver} {path : String}
    (hroot : isAbsolute resolver.rootPath = true) (hpath : isAbsolute path.toList = true)
    (h : WrittenBehind resolver.rootPath path.toList) :
    ∃ resolved, resolver.resolveImpl (resolver.unresolve path) = some resolved ∧
      isAbsolute resolved = true ∧
      normalNames resolved =
        walk (if (behind resolver.rootPath path.toList).flatten.head? = some '\\' then []
            else (detour (behind path.toList resolver.rootPath)).target
              (commonDirectory resolver.rootPath path.toList))
          ((behind resolver.rootPath path.toList).flatMap (·.splitOn '\\')) := by
  set text := (lexicallyRelative path.toList resolver.rootPath).map forwardSlash with htext
  have hdrop : (resolver.unresolve path).toList.drop "studio:/".length = '/' :: text := by
    rw [RenderStudioResolver.unresolve, String.toList_append, ← htext]
    simp only [String.toList_ofList]
    rfl
  refine ⟨append resolver.rootPath text, ?_, isAbsolute_append hroot text, ?_⟩
  · rw [RenderStudioResolver.resolveImpl, hdrop]
    rfl
  · rw [normalNames, names_append]
    obtain ⟨habsolute, -⟩ := relative_text hroot hpath h []
    by_cases hfirst : isAbsolute text = true
    · rw [if_pos hfirst, if_pos (habsolute.1 hfirst), walk_names]
      exact (relative_text hroot hpath h _).2
    · rw [if_neg hfirst, if_neg (fun h => hfirst (habsolute.2 h)), walk_append, ← normalNames,
        walk_names, normalNames_root _ path.toList]
      exact (relative_text hroot hpath h _).2

lemma detour_of_plain {l : List Name} (h : ∀ name ∈ l, name ≠ dot ∧ name ≠ dotdot) :
    detour l = ⟨0, (l.filter (· ≠ [])).reverse⟩ := by
  suffices ∀ down, l.foldl Detour.step ⟨0, down⟩ = ⟨0, (l.filter (· ≠ [])).reverse ++ down⟩ by
    simpa [detour] using this []
  induction l with
  | nil => exact fun down => rfl
  | cons name l ih =>
    intro down
    obtain ⟨hdot, hdotdot⟩ := h name List.mem_cons_self
    have hl := ih fun name hname => h name (List.mem_cons_of_mem _ hname)
    rw [List.foldl_cons, Detour.step]
    by_cases hname : name = []
    · rw [if_pos (.inl hname), hl, List.filter_cons_of_neg (by simp [hname])]
    · rw [if_neg (not_or.2 ⟨hname, hdot⟩), if_neg hdotdot, hl,
        List.filter_cons_of_pos (by simpa using hname), List.reverse_cons, List.append_assoc,
        List.singleton_append]

lemma of_mem_behind {name : Name} (h : name ∈ behind root path) : name = [] ∨ name ∈ names path := by
  have hmem : name ∈ elements path := List.mem_of_mem_drop h
  obtain heq | heq := elements_eq path
  · exact .inr (heq ▸ hmem)
  · rw [heq, List.mem_append, List.mem_singleton] at hmem
    exact hmem.symm

lemma plain_behind (hplain : PlainNames path) :
    ∀ name ∈ behind root path, name ≠ dot ∧ name ≠ dotdot := by
  intro name hname
  obtain rfl | hname := of_mem_behind hname
  · exact ⟨by decide, by decide⟩
  · exact hplain name hname

lemma head?_behind {name : Name} {l : List Name}
    (h : (behind root path).filter (· ≠ []) = name :: l) : (behind root path).head? = some name := by
  cases hbehind : behind root path with
  | nil =>
    rw [hbehind] at h
    cases h
  | cons name' l' =>
    rw [hbehind] at h
    by_cases hname : name' = []
    · have hl' : l' = [] := by
        by_contra hl'
        exact of_behind_eq [] hbehind hl' hname
      rw [hname, hl'] at h
      cases h
    · rw [List.filter_cons_of_pos (by simpa using hname)] at h
      rw [List.head?_cons, (List.cons_eq_cons.1 h).1]

lemma backslash_notMem_behind (hslash : '\\' ∉ path) {name : Name} (hname : name ∈ behind root path) :
    '\\' ∉ name := by
  intro hc
  obtain rfl | hname := of_mem_behind hname
  · exact absurd hc List.not_mem_nil
  · exact hslash ((Uri.of_mem_splitOn (List.mem_filter.1 hname).1).2 _ hc)

lemma readRight_of_plain (hroot : PlainNames root) (hpath : PlainNames path) (hslash : '\\' ∉ path) :
    ReadRight root path := by
  have hx : detour (behind root path) = ⟨0, ((behind root path).filter (· ≠ [])).reverse⟩ :=
    detour_of_plain (plain_behind hpath)
  have hy : detour (behind path root) = ⟨0, ((behind path root).filter (· ≠ [])).reverse⟩ :=
    detour_of_plain (plain_behind hroot)
  cases hnames : (behind path root).filter (· ≠ []) with
  | nil =>
    refine .below ?_ ?_ fun name => backslash_notMem_behind hslash
    · rw [hy, hnames, List.reverse_nil]
    · rw [hx]
  | cons name l =>
    have hway : wayHome root path = (name :: l).reverse := by
      rw [wayHome, hx, hy, hnames, List.take_zero, List.append_nil]
    refine .apart ?_ (.inl ?_) ?_ ?_
    · rw [hy]
    · rw [hy, hnames]
      simp
    · rw [hway]
      simp
    · rw [hway, hx, List.getLast?_reverse, List.getLast?_reverse, List.head?_cons]
      intro hfirst
      obtain ⟨l', hl'⟩ := List.head?_eq_some_iff.1 hfirst
      have hheadX := head?_behind hl'
      have hheadY := head?_behind hnames
      rw [behind, commonPrefix_comm] at hheadY
      exact absurd hheadY (head?_drop_commonPrefix _ _ hheadX)

lemma not_head?_dotdot {l : List Name} (h : (detour l).up = 0) : l.head? ≠ some dotdot := by
  intro hhead
  obtain ⟨l', rfl⟩ := List.head?_eq_some_iff.1 hhead
  have hup : detour (dotdot :: l') = Detour.andThen ⟨1, []⟩ (detour l') := foldl_step ⟨1, []⟩ l'
  rw [hup] at h
  change 1 + (_ - _) = 0 at h
  omega

lemma inside_iff_wayHome (h : (detour (behind path root)).up = 0) :
    Inside root path ↔ wayHome root path <:+ (detour (behind root path)).down := by
  have hsplit := List.take_append_drop (detour (behind root path)).up (commonDirectory root path)
  rw [inside_iff_target, Detour.target, Detour.target, h, List.drop_zero, wayHome]
  conv_lhs => lhs; rw [← hsplit, ← List.append_assoc]
  exact List.suffix_append_self_iff

lemma not_writtenBehind (hroot : (detour (behind path root)).up = 0)
    (hout : (detour (behind path root)).down ≠ [] ∨ (behind root path).head? = some dotdot) :
    ¬ WrittenBehind root path := by
  rintro ⟨hlevel, hfirst⟩
  rw [hroot, List.length_eq_zero_iff] at hlevel
  exact hout.elim (fun h => h hlevel) hfirst

lemma walk_pieces_ne {l directory start : List Name} {name : Name}
    (hname : name ∈ (detour l).down) (hslash : '\\' ∈ name) (hstart : start = [] ∨ start = directory) :
    walk start (l.flatMap (·.splitOn '\\')) ≠ (detour l).down ++ directory := by
  intro heq
  set d := detour (l.flatMap (·.splitOn '\\')) with hd
  have hpieces : name ∉ d.down := by
    intro hmem
    obtain ⟨part, -, hpart⟩ := List.mem_flatMap.1 (of_mem_down hmem).1
    exact (Uri.of_mem_splitOn hpart).1 hslash
  rw [walk_eq_target, ← hd, Detour.target] at heq
  obtain rfl | rfl := hstart
  · rw [List.drop_nil, List.append_nil] at heq
    exact hpieces (heq ▸ List.mem_append_left _ hname)
  · -- as many names are gone up as are come down by again
    have hlength := congrArg List.length heq
    rw [List.length_append, List.length_append, List.length_drop] at hlength
    have hbegin : (detour l).down <+: d.down := by
      refine List.prefix_of_prefix_length_le (List.prefix_append _ start) ?_ (by omega)
      rw [← heq]
      exact List.prefix_append _ _
    exact hpieces (hbegin.subset hname)

end

/-- What the conversions promise for a path: the answer is the one about the normal forms, and what is
converted comes back as the same file. -/
def Exact (resolver : RenderStudioResolver) (path : String) : Prop :=
  (resolver.isUnresolvable path = true ↔ Inside resolver.rootPath path.toList) ∧
    (resolver.isUnresolvable path = true → ∃ resolved,
      resolver.resolveImpl (resolver.unresolve path) = some resolved ∧
      SameFile resolved path.toList)

section

variable {resolver : RenderStudioResolver} {path : String}

lemma exact_iff_not_inside (hroot : isAbsolute resolver.rootPath = true)
    (hpath : isAbsolute path.toList = true) (hscheme : ¬ "://".toList <:+: path.toList)
    (h : ¬ WrittenBehind resolver.rootPath path.toList) :
    Exact resolver path ↔ ¬ Inside resolver.rootPath path.toList := by
  rw [Exact, isUnresolvable_iff hroot hpath hscheme]
  simp [h]

lemma exact_of_below (hroot : isAbsolute resolver.rootPath = true)
    (hpath : isAbsolute path.toList = true) (hscheme : ¬ "://".toList <:+: path.toList)
    (hrest : detour (behind path.toList resolver.rootPath) = ⟨0, []⟩)
    (hstays : (detour (behind resolver.rootPath path.toList)).up = 0)
    (hslash : ∀ name ∈ behind resolver.rootPath path.toList, '\\' ∉ name) :
    Exact resolver path := by
  have hwritten : WrittenBehind resolver.rootPath path.toList :=
    ⟨by rw [hrest]; rfl, not_head?_dotdot hstays⟩
  have hinside : Inside resolver.rootPath path.toList := by
    rw [inside_iff_wayHome (by rw [hrest]), wayHome, hrest, hstays, List.take_zero, List.append_nil]
    exact List.nil_suffix
  refine ⟨iff_of_true ((isUnresolvable_iff hroot hpath hscheme).2 hwritten) hinside, fun _ => ?_⟩
  obtain ⟨resolved, hsome, habsolute, hnames⟩ := resolveImpl_unresolve hroot hpath hwritten
  have hfirst : (behind resolver.rootPath path.toList).flatten.head? ≠ some '\\' := by
    intro h
    obtain ⟨name, hname, hc⟩ := List.mem_flatten.1 (List.mem_of_head? h)
    exact hslash name hname hc
  have hpieces : (behind resolver.rootPath path.toList).flatMap (·.splitOn '\\') =
      behind resolver.rootPath path.toList := by
    rw [List.flatMap_congr fun name hname => List.splitOn_eq_singleton (hslash name hname),
      List.flatMap_singleton']
  refine ⟨resolved, hsome, habsolute, hpath, ?_⟩
  rw [hnames, if_neg hfirst, hpieces, walk_eq_target, hrest, normalNames_path resolver.rootPath]
  rfl

lemma not_exact_of_backslash (hroot : isAbsolute resolver.rootPath = true)
    (hpath : isAbsolute path.toList = true) (hscheme : ¬ "://".toList <:+: path.toList)
    {name : Name} (hrest : detour (behind path.toList resolver.rootPath) = ⟨0, []⟩)
    (hstays : (detour (behind resolver.rootPath path.toList)).up = 0)
    (hname : name ∈ (detour (behind resolver.rootPath path.toList)).down) (hslash : '\\' ∈ name) :
    ¬ Exact resolver path := by
  have hwritten : WrittenBehind resolver.rootPath path.toList :=
    ⟨by rw [hrest]; rfl, not_head?_dotdot hstays⟩
  rintro ⟨-, hback⟩
  obtain ⟨resolved, hsome, -, -, hsame⟩ :=
    hback ((isUnresolvable_iff hroot hpath hscheme).2 hwritten)
  obtain ⟨_, hsome', -, hnames⟩ := resolveImpl_unresolve hroot hpath hwritten
  obtain rfl := Option.some_inj.1 (hsome.symm.trans hsome')
  have htarget : (detour (behind resolver.rootPath path.toList)).target
      (commonDirectory resolver.rootPath path.toList) =
        (detour (behind resolver.rootPath path.toList)).down ++
          commonDirectory resolver.rootPath path.toList := by
    rw [Detour.target, hstays, List.drop_zero]
  rw [hnames, normalNames_path resolver.rootPath, hrest, htarget] at hsame
  refine walk_pieces_ne hname hslash ?_ hsame
  split_ifs
  · exact .inl rfl
  · exact .inr rfl

end

/-- The conversions between local and workspace paths are exact and reversible for roots and paths that
are read right, as they all are without `.`, `..` and backslashes, and for none that are misread. -/
theorem workspace_paths_exact_when (resolver : RenderStudioResolver) (path : String)
    (hroot : isAbsolute resolver.rootPath = true) (hpath : isAbsolute path.toList = true)
    (hscheme : ¬ "://".toList <:+: path.toList) :
    (ReadRight resolver.rootPath path.toList → Exact resolver path) ∧
      (Misread resolver.rootPath path.toList → ¬ Exact resolver path) ∧
      (PlainNames resolver.rootPath → PlainNames path.toList → '\\' ∉ path.toList →
        ReadRight resolver.rootPath path.toList) := by
  refine ⟨fun h => ?_, fun h => ?_, readRight_of_plain⟩
  · cases h with
    | below hrest hstays hslash => exact exact_of_below hroot hpath hscheme hrest hstays hslash
    | apart hrest hout hway hfirst =>
      rw [exact_iff_not_inside hroot hpath hscheme (not_writtenBehind hrest hout),
        inside_iff_wayHome hrest]
      intro hsuffix
      obtain ⟨front, hfront⟩ := hsuffix
      rw [← hfront, List.getLast?_append_of_ne_nil _ hway] at hfirst
      exact hfirst rfl
  · cases h with
    | leaves hrest hfirst haway =>
      have hwritten : WrittenBehind resolver.rootPath path.toList := ⟨by rw [hrest]; rfl, hfirst⟩
      rintro ⟨hanswer, -⟩
      rw [isUnresolvable_iff hroot hpath hscheme, inside_iff_wayHome (by rw [hrest])] at hanswer
      exact haway (hanswer.1 hwritten)
    | enters hrest hout hhome =>
      rw [exact_iff_not_inside hroot hpath hscheme (not_writtenBehind hrest hout), not_not,
        inside_iff_wayHome hrest]
      exact hhome
    | strays hlevel hstays haway =>
      have hwritten : WrittenBehind resolver.rootPath path.toList := ⟨hlevel, not_head?_dotdot hstays⟩
      rintro ⟨hanswer, -⟩
      have hinside := (hanswer.1 ((isUnresolvable_iff hroot hpath hscheme).2 hwritten))
      rw [inside_iff_target, Detour.target, Detour.target, hstays, List.drop_zero] at hinside
      refine haway (List.suffix_append_self_iff.1 (hinside.trans ?_))
      rw [List.append_assoc, List.take_append_drop]
    | backslash hrest hstays hname hslash =>
      exact not_exact_of_backslash hroot hpath hscheme hrest hstays hname hslash

/-- A file of a workspace, and a path that leaves it. -/
theorem workspace_paths_exact_file :
    Exact ⟨['/', 'r'], []⟩ "/r/a" ∧ Exact ⟨['/', 'r'], []⟩ "/s/../t" ∧
      ¬ Exact ⟨['/', 'r'], []⟩ "/r/a/../../etc" :=
  ⟨(workspace_paths_exact_when ⟨['/', 'r'], []⟩ "/r/a" (by decide) (by decide) (by decide)).1
      (.below (by decide) (by decide) (by decide)),
    (workspace_paths_exact_when ⟨['/', 'r'], []⟩ "/s/../t" (by decide) (by decide) (by decide)).1
      (.apart (by decide) (by decide) (by decide) (by decide)),
    (workspace_paths_exact_when ⟨['/', 'r'], []⟩ "/r/a/../../etc" (by decide) (by decide)
      (by decide)).2.1 (.leaves (by decide) (by decide) (by decide))⟩

/-- A path that leaves the workspace is taken for one inside it, one that is written through another
directory is not, and a backslash in a name is read as a separator. -/
theorem workspace_paths_inexact :
    let resolver : RenderStudioResolver := ⟨"/root".toList, []⟩
    (resolver.isUnresolvable "/root/a/../../etc" = true ∧
        ¬ Inside resolver.rootPath "/root/a/../../etc".toList) ∧
      (resolver.isUnresolvable "/x/../root/a" = false ∧
        Inside resolver.rootPath "/x/../root/a".toList) ∧
      resolver.isUnresolvable "/root/a\\b" = true ∧
      resolver.resolveImpl (resolver.unresolve "/root/a\\b") = some "/root/a/b".toList ∧
      ¬ SameFile "/root/a/b".toList "/root/a\\b".toList := by
  decide

end RenderStudioKit.Proofs
