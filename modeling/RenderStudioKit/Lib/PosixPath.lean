import Mathlib.Data.List.Infix
import Mathlib.Algebra.BigOperators.Group.List.Basic
import Mathlib.Tactic.Ring
import RenderStudioKit.Lib.Uri

/-!
# Pathnames

The lexical operations of `std::filesystem::path` on POSIX pathnames, which are lists of
characters. A walk follows file names from a directory; what a list of names does to any directory
is a detour: it goes up some directories and then down.
-/

namespace PosixPath

abbrev Name := List Char

def dot : Name := ['.']

def dotdot : Name := ['.', '.']

/-- The file names of a pathname; slashes in a row are one separator. -/
def names (path : List Char) : List Name := (path.splitOn '/').filter (· ≠ [])

def isAbsolute (path : List Char) : Bool := path.head? = some '/'

/-- What an iteration yields behind the root directory: the file names, and an empty one behind a
separator at the end. -/
def elements (path : List Char) : List Name :=
  if path.getLast? = some '/' ∧ names path ≠ [] then names path ++ [[]] else names path

/-- What an iteration yields; the root directory comes first. -/
def iteration (path : List Char) : List Name :=
  if isAbsolute path then ['/'] :: elements path else elements path

/-- `operator/` -/
def append (path other : List Char) : List Char :=
  if isAbsolute other then other
  else if path = [] ∨ path.getLast? = some '/' then path ++ other
  else path ++ '/' :: other

/-- The items before the first mismatch. -/
def commonPrefix {α : Type*} [DecidableEq α] : List α → List α → List α
  | a :: l, b :: l' => if a = b then a :: commonPrefix l l' else []
  | _, _ => []

/-- The file names that lead down less those that lead up. -/
def excess (l : List Name) : Int :=
  (l.map fun name => if name = dotdot then -1 else if name = [] ∨ name = dot then 0 else 1).sum

def lexicallyRelative (path base : List Char) : List Char :=
  if isAbsolute path ≠ isAbsolute base then []
  else
    let mismatch := (commonPrefix (iteration path) (iteration base)).length
    let a := (iteration path).drop mismatch
    let b := (iteration base).drop mismatch
    if a = [] ∧ b = [] then dot
    else if excess b < 0 then []
    else if excess b = 0 ∧ (a = [] ∨ a.head? = some []) then dot
    else (List.replicate (excess b).toNat dotdot ++ a).foldl append []

def filename (path : List Char) : Name := (elements path).getLast?.getD []

/-- The text from the last dot of the file name, if this dot is not its first character. -/
def extension (path : List Char) : List Char :=
  let name := filename path
  let stem := name.reverse.dropWhile (· ≠ '.')
  if name = dotdot ∨ stem.length ≤ 1 then [] else name.drop (stem.length - 1)

/-- The directory reached from a directory by a file name; its names stand innermost first. -/
def step (directory : List Name) (name : Name) : List Name :=
  if name = [] ∨ name = dot then directory
  else if name = dotdot then directory.tail
  else name :: directory

def walk (directory : List Name) (l : List Name) : List Name := l.foldl step directory

/-- The file names of the lexically normal form of an absolute path, innermost first. -/
def normalNames (path : List Char) : List Name := walk [] (names path)

/-- The lexically normal forms of two absolute paths name the same file. -/
def SameFile (path other : List Char) : Prop :=
  isAbsolute path = true ∧ isAbsolute other = true ∧ normalNames path = normalNames other

instance (path other : List Char) : Decidable (SameFile path other) :=
  inferInstanceAs (Decidable (_ ∧ _ ∧ _))

/-- The lexically normal form of `path` is that of `base` or lies inside it. -/
def Inside (base path : List Char) : Prop := normalNames base <:+ normalNames path

instance (base path : List Char) : Decidable (Inside base path) :=
  inferInstanceAs (Decidable (_ <:+ _))

@[simp] lemma names_nil : names [] = [] := by simp [names]

lemma names_append_separator (l l' : List Char) : names (l ++ '/' :: l') = names l ++ names l' := by
  rw [names, List.splitOn_append_cons_self, List.filter_append, names, names]

lemma names_of_separator_last {path : List Char} (h : path.getLast? = some '/') (l : List Char) :
    names (path ++ l) = names path ++ names l := by
  obtain ⟨front, rfl⟩ := List.getLast?_eq_some_iff.1 h
  rw [List.append_assoc, List.singleton_append, names_append_separator, names_append_separator,
    names_nil, List.append_nil]

lemma names_append (path other : List Char) :
    names (append path other) =
      if isAbsolute other then names other else names path ++ names other := by
  unfold append
  cases habsolute : isAbsolute other with
  | true => simp
  | false =>
    simp only [Bool.false_eq_true, if_false]
    by_cases hpath : path = [] ∨ path.getLast? = some '/'
    · rw [if_pos hpath]
      obtain rfl | hlast := hpath
      · rw [List.nil_append, names_nil, List.nil_append]
      · exact names_of_separator_last hlast other
    · rw [if_neg hpath, names_append_separator]

lemma isAbsolute_append {path : List Char} (h : isAbsolute path = true) (other : List Char) :
    isAbsolute (append path other) = true := by
  unfold append
  cases hother : isAbsolute other with
  | true => simpa using hother
  | false =>
    cases path with
    | nil => cases h
    | cons c path =>
      simp only [Bool.false_eq_true, if_false]
      split <;> exact h

lemma of_mem_names {path : List Char} {name : Name} (h : name ∈ names path) : name ≠ [] := by
  simpa using (List.mem_filter.1 h).2

lemma elements_eq (path : List Char) :
    elements path = names path ∨ elements path = names path ++ [[]] := by
  unfold elements
  split <;> simp

lemma filter_elements (path : List Char) : (elements path).filter (· ≠ []) = names path := by
  have hnames : (names path).filter (· ≠ []) = names path :=
    List.filter_eq_self.2 fun name hname => by simpa using of_mem_names hname
  obtain h | h := elements_eq path
  · rw [h, hnames]
  · rw [h, List.filter_append, hnames]
    simp

lemma separator_notMem_names {path : List Char} {name : Name} (h : name ∈ names path) :
    '/' ∉ name :=
  (Uri.of_mem_splitOn (List.mem_filter.1 h).1).1

lemma separator_notMem_elements {path : List Char} {name : Name} (h : name ∈ elements path) :
    '/' ∉ name := by
  obtain heq | heq := elements_eq path
  · exact separator_notMem_names (heq ▸ h)
  · rw [heq, List.mem_append, List.mem_singleton] at h
    obtain h | rfl := h
    · exact separator_notMem_names h
    · exact List.not_mem_nil

lemma of_elements_eq {path : List Char} {front back : List Name} {name : Name}
    (h : elements path = front ++ name :: back) (hback : back ≠ []) : name ≠ [] := by
  obtain heq | heq := elements_eq path
  · have hmem : name ∈ names path := by
      rw [← heq, h]
      simp
    exact of_mem_names hmem
  · obtain ⟨back, last, rfl⟩ := (List.eq_nil_or_concat back).resolve_left hback
    rw [heq, List.concat_eq_append, ← List.cons_append, ← List.append_assoc] at h
    have hnames : names path = front ++ name :: back := (List.append_inj' h rfl).1
    have hmem : name ∈ names path := by
      rw [hnames]
      simp
    exact of_mem_names hmem

lemma foldl_append_eq {l : List Name} (hl : ∀ name ∈ l, '/' ∉ name)
    (hinner : ∀ front name back, l = front ++ name :: back → back ≠ [] → name ≠ [])
    {path : List Char} (hpath : path ≠ []) (hlast : path.getLast? ≠ some '/') :
    l.foldl append path = path ++ l.flatMap ('/' :: ·) := by
  induction l generalizing path with
  | nil => simp
  | cons name l ih =>
    have hname : isAbsolute name = false := by
      cases name with
      | nil => rfl
      | cons c name =>
        have hc : c ≠ '/' := fun hc => hl _ List.mem_cons_self (hc ▸ List.mem_cons_self)
        simpa [isAbsolute] using hc
    have hstep : append path name = path ++ '/' :: name := by
      rw [append, hname, if_neg (by simp), if_neg (not_or.2 ⟨hpath, hlast⟩)]
    rw [List.foldl_cons, hstep, List.flatMap_cons]
    cases l with
    | nil => simp
    | cons name' l =>
      have hne : name ≠ [] := hinner [] name (name' :: l) rfl (List.cons_ne_nil _ _)
      have hend : (path ++ '/' :: name).getLast? ≠ some '/' := by
        rw [List.getLast?_append_of_ne_nil _ (List.cons_ne_nil _ _),
          List.getLast?_cons_of_ne_nil hne]
        exact fun h => hl name List.mem_cons_self (List.mem_of_getLast? h)
      rw [ih (fun name hname => hl name (List.mem_cons_of_mem _ hname))
        (fun front inner back h => hinner (name :: front) inner back (by rw [h]; rfl))
        (by simp) hend, List.append_assoc]

lemma splitOn_flatMap (name : Name) (l : List Name) :
    (name ++ l.flatMap ('/' :: ·)).splitOn '/' = (name :: l).flatMap (·.splitOn '/') := by
  induction l generalizing name with
  | nil => simp
  | cons name' l ih =>
    rw [List.flatMap_cons, List.cons_append, List.splitOn_append_cons_self, ih,
      List.flatMap_cons (x := name)]

@[simp] lemma step_nil (directory : List Name) : step directory [] = directory := if_pos (.inl rfl)

lemma walk_append (directory l l' : List Name) :
    walk directory (l ++ l') = walk (walk directory l) l' := by
  rw [walk, List.foldl_append, walk, walk]

lemma walk_filter (directory l : List Name) :
    walk directory (l.filter (· ≠ [])) = walk directory l := by
  induction l generalizing directory with
  | nil => rfl
  | cons name l ih =>
    by_cases hname : name = []
    · rw [List.filter_cons_of_neg (by simp [hname]), ih, hname]
      rfl
    · rw [List.filter_cons_of_pos (by simpa using hname), walk, List.foldl_cons]
      exact ih _

lemma walk_names (directory : List Name) (path : List Char) :
    walk directory (names path) = walk directory (path.splitOn '/') :=
  walk_filter directory _

lemma walk_elements (directory : List Name) (path : List Char) :
    walk directory (elements path) = walk directory (names path) := by
  rw [← walk_filter, filter_elements]

/-- Up some directories and then down; the names down stand innermost first. -/
structure Detour where
  up : ℕ
  down : List Name
deriving DecidableEq

namespace Detour

def step (detour : Detour) (name : Name) : Detour :=
  if name = [] ∨ name = dot then detour
  else if name = dotdot then
    match detour.down with
    | [] => { detour with up := detour.up + 1 }
    | _ :: down => { detour with down := down }
  else { detour with down := name :: detour.down }

/-- The directory that the detour leads to; the root directory is its own parent. -/
def target (detour : Detour) (directory : List Name) : List Name :=
  detour.down ++ directory.drop detour.up

end Detour

/-- What a list of names does to any directory. -/
def detour (l : List Name) : Detour := l.foldl Detour.step ⟨0, []⟩

lemma Detour.target_step (detour : Detour) (name : Name) (directory : List Name) :
    (detour.step name).target directory = PosixPath.step (detour.target directory) name := by
  unfold Detour.step PosixPath.step
  by_cases hstay : name = [] ∨ name = dot
  · rw [if_pos hstay, if_pos hstay]
  · rw [if_neg hstay, if_neg hstay]
    by_cases hup : name = dotdot
    · rw [if_pos hup, if_pos hup]
      cases hdown : detour.down with
      | nil =>
        simp only [Detour.target, hdown]
        rw [List.nil_append, List.nil_append, List.tail_drop]
      | cons head down => simp only [Detour.target, hdown, List.cons_append, List.tail_cons]
    · rw [if_neg hup, if_neg hup, Detour.target, Detour.target, List.cons_append]

/-- A walk from any directory is the detour of its names. -/
theorem walk_eq_target (directory l : List Name) : walk directory l = (detour l).target directory := by
  suffices ∀ d : Detour, walk (d.target directory) l = (l.foldl Detour.step d).target directory from
    this ⟨0, []⟩
  induction l with
  | nil => exact fun d => rfl
  | cons name l ih =>
    intro d
    rw [List.foldl_cons, ← ih, Detour.target_step]
    rfl

/-- The excess is how much deeper a detour ends. -/
theorem excess_eq (l : List Name) :
    excess l = ((detour l).down.length : Int) - (detour l).up := by
  suffices ∀ d : Detour, (d.down.length : Int) - d.up + excess l =
      ((l.foldl Detour.step d).down.length : Int) - (l.foldl Detour.step d).up by
    simpa [detour] using this ⟨0, []⟩
  induction l with
  | nil => exact fun d => add_zero _
  | cons name l ih =>
    intro d
    rw [List.foldl_cons, ← ih, excess, List.map_cons, List.sum_cons, ← excess]
    unfold Detour.step
    by_cases hstay : name = [] ∨ name = dot
    · have hne : name ≠ dotdot := by
        rintro rfl
        exact absurd hstay (by decide)
      rw [if_pos hstay, if_pos hstay, if_neg hne]
      ring
    · rw [if_neg hstay, if_neg hstay]
      by_cases hup : name = dotdot
      · rw [if_pos hup, if_pos hup]
        cases hdown : d.down with
        | nil =>
          push_cast
          ring
        | cons head down =>
          rw [List.length_cons]
          push_cast
          ring
      · rw [if_neg hup, if_neg hup, List.length_cons]
        push_cast
        ring

lemma commonPrefix_append_drop {α : Type*} [DecidableEq α] (l l' : List α) :
    commonPrefix l l' ++ l.drop (commonPrefix l l').length = l := by
  fun_induction commonPrefix l l' with
  | case1 a l l' ih => simpa using ih
  | case2 => rfl
  | case3 => rfl

lemma commonPrefix_comm {α : Type*} [DecidableEq α] (l l' : List α) :
    commonPrefix l l' = commonPrefix l' l := by
  fun_induction commonPrefix l l' with
  | case1 a l l' ih => rw [commonPrefix, if_pos rfl, ih]
  | case2 a l b l' hne => rw [commonPrefix, if_neg (Ne.symm hne)]
  | case3 l l' h =>
    cases l with
    | nil => cases l' <;> rfl
    | cons a l =>
      cases l' with
      | nil => rfl
      | cons b l' => exact absurd rfl (h a l b l' rfl)

lemma head?_drop_commonPrefix {α : Type*} [DecidableEq α] (l l' : List α) {a : α}
    (h : (l.drop (commonPrefix l l').length).head? = some a) :
    (l'.drop (commonPrefix l l').length).head? ≠ some a := by
  fun_induction commonPrefix l l' with
  | case1 b l l' ih => exact ih h
  | case2 b l c l' hne =>
    rintro h'
    simp only [List.length_nil, List.drop_zero, List.head?_cons, Option.some_inj] at h h'
    exact hne (h.trans h'.symm)
  | case3 l l' hends =>
    intro h'
    simp only [List.length_nil, List.drop_zero] at h h'
    cases l with
    | nil => cases h
    | cons b l =>
      cases l' with
      | nil => cases h'
      | cons c l' => exact hends b l c l' rfl rfl

/-- The elements of a path behind those it begins with as the base does. -/
def behind (base path : List Char) : List Name :=
  (elements path).drop (commonPrefix (elements path) (elements base)).length

lemma separator_notMem_behind {base path : List Char} {name : Name} (h : name ∈ behind base path) :
    '/' ∉ name :=
  separator_notMem_elements (List.mem_of_mem_drop h)

lemma of_behind_eq {base path : List Char} (front : List Name) {back : List Name} {name : Name}
    (h : behind base path = front ++ name :: back) (hback : back ≠ []) : name ≠ [] := by
  have helements := commonPrefix_append_drop (elements path) (elements base)
  rw [← behind, h, ← List.append_assoc] at helements
  exact of_elements_eq helements.symm hback

lemma iteration_of_isAbsolute {path : List Char} (h : isAbsolute path = true) :
    iteration path = ['/'] :: elements path := by
  rw [iteration, h, if_pos rfl]

lemma lexicallyRelative_of_isAbsolute {path base : List Char} (hpath : isAbsolute path = true)
    (hbase : isAbsolute base = true) :
    lexicallyRelative path base =
      if behind base path = [] ∧ behind path base = [] then dot
      else if excess (behind path base) < 0 then []
      else if excess (behind path base) = 0 ∧
          (behind base path = [] ∨ (behind base path).head? = some []) then dot
      else (List.replicate (excess (behind path base)).toNat dotdot ++ behind base path).foldl
        append [] := by
  rw [lexicallyRelative, hpath, hbase, if_neg (not_not.2 rfl), iteration_of_isAbsolute hpath,
    iteration_of_isAbsolute hbase, commonPrefix, if_pos rfl]
  simp only [List.length_cons, List.drop_succ_cons, behind,
    commonPrefix_comm (elements base) (elements path)]

lemma head?_iteration {name : Name} (hname : name ≠ []) (hseparator : '/' ∉ name) (l : List Name) :
    (iteration (name ++ l.flatMap ('/' :: ·))).head? = some name := by
  have hrelative : isAbsolute (name ++ l.flatMap ('/' :: ·)) = false := by
    cases name with
    | nil => exact absurd rfl hname
    | cons c name =>
      have hc : c ≠ '/' := fun hc => hseparator (hc ▸ List.mem_cons_self)
      simpa [isAbsolute] using hc
  have hnames : (names (name ++ l.flatMap ('/' :: ·))).head? = some name := by
    rw [names, splitOn_flatMap, List.flatMap_cons, List.splitOn_eq_singleton hseparator,
      List.singleton_append, List.filter_cons_of_pos (by simpa using hname), List.head?_cons]
  rw [iteration, hrelative, if_neg (by simp)]
  obtain h | h := elements_eq (name ++ l.flatMap ('/' :: ·))
  · rw [h, hnames]
  · rw [h, List.head?_append, hnames, Option.some_or]

/-- Names of a path that are appended to a first one. -/
lemma foldl_append_cons (base path : List Char) {front : List Name} {name : Name} {l : List Name}
    (hfront : ∀ name ∈ front, name = dotdot) (h : front ++ behind base path = name :: l)
    (hname : name ≠ []) :
    (name :: l).foldl append [] = name ++ l.flatMap ('/' :: ·) ∧ '/' ∉ name := by
  have hmem : ∀ name' ∈ name :: l, '/' ∉ name' := by
    intro name' hname'
    rw [← h, List.mem_append] at hname'
    obtain hname' | hname' := hname'
    · rw [hfront name' hname']
      decide
    · exact separator_notMem_behind hname'
  have hinner : ∀ front' inner back, name :: l = front' ++ inner :: back → back ≠ [] →
      inner ≠ [] := by
    intro front' inner back heq hback
    rw [← h] at heq
    obtain ⟨middle, rfl, hmiddle⟩ | ⟨middle, hmiddle, hrest⟩ := List.append_eq_append_iff.1 heq
    · exact of_behind_eq middle hmiddle hback
    · cases middle with
      | nil => exact of_behind_eq [] hrest.symm hback
      | cons inner' middle =>
        obtain ⟨rfl, -⟩ := List.cons_eq_cons.1 hrest
        rw [hfront inner (by rw [hmiddle]; simp)]
        decide
  have hseparator := hmem name List.mem_cons_self
  have hlast : name.getLast? ≠ some '/' := fun hlast => hseparator (List.mem_of_getLast? hlast)
  have hfirst : append [] name = name := by
    rw [append]
    split <;> simp
  refine ⟨?_, hseparator⟩
  rw [List.foldl_cons, hfirst]
  exact foldl_append_eq (fun name' hname' => hmem name' (List.mem_cons_of_mem _ hname'))
    (fun front' inner back heq => hinner (name :: front') inner back (by rw [heq]; rfl)) hname hlast

/-- When the relative form of a path is not empty and does not lead up first. -/
theorem lexicallyRelative_leads_down_iff {path base : List Char} (hpath : isAbsolute path = true)
    (hbase : isAbsolute base = true) :
    (lexicallyRelative path base ≠ [] ∧
        (iteration (lexicallyRelative path base)).head? ≠ some dotdot) ↔
      excess (behind path base) = 0 ∧ (behind base path).head? ≠ some dotdot := by
  have hdot : dot ≠ [] ∧ (iteration dot).head? ≠ some dotdot := by decide
  rw [lexicallyRelative_of_isAbsolute hpath hbase]
  by_cases hsame : behind base path = [] ∧ behind path base = []
  · rw [if_pos hsame, hsame.1, hsame.2]
    exact iff_of_true hdot ⟨rfl, nofun⟩
  rw [if_neg hsame]
  by_cases hneg : excess (behind path base) < 0
  · rw [if_pos hneg]
    exact iff_of_false (fun h => h.1 rfl) (fun h => by omega)
  rw [if_neg hneg]
  by_cases hhere : excess (behind path base) = 0 ∧
      (behind base path = [] ∨ (behind base path).head? = some [])
  · rw [if_pos hhere]
    refine iff_of_true hdot ⟨hhere.1, ?_⟩
    obtain h | h := hhere.2
    · rw [h]
      nofun
    · rw [h]
      decide
  rw [if_neg hhere]
  by_cases hlevel : excess (behind path base) = 0
  · rw [hlevel, Int.toNat_zero, List.replicate_zero, List.nil_append]
    cases hbehind : behind base path with
    | nil => exact absurd ⟨hlevel, .inl hbehind⟩ hhere
    | cons name l =>
      have hname : name ≠ [] := by
        rintro rfl
        exact hhere ⟨hlevel, .inr (by rw [hbehind, List.head?_cons])⟩
      obtain ⟨htext, hseparator⟩ := foldl_append_cons base path
        (fun _ hmem => absurd hmem List.not_mem_nil) (by rw [List.nil_append, hbehind]) hname
      rw [htext, head?_iteration hname hseparator, List.head?_cons]
      simp [hname]
  · obtain ⟨n, hn⟩ : ∃ n, (excess (behind path base)).toNat = n + 1 :=
      ⟨(excess (behind path base)).toNat - 1, by omega⟩
    obtain ⟨htext, hseparator⟩ := foldl_append_cons base path
      (fun name (hname : name ∈ List.replicate (n + 1) dotdot) => List.eq_of_mem_replicate hname)
      (by rw [List.replicate_succ, List.cons_append]) (by decide)
    rw [hn, List.replicate_succ, List.cons_append, htext,
      head?_iteration (by decide) hseparator]
    exact iff_of_false (fun h => h.2 rfl) (fun h => hlevel h.1)

/-- The relative form of a path that lies behind the base without leading up. -/
theorem lexicallyRelative_of_excess {path base : List Char} (hpath : isAbsolute path = true)
    (hbase : isAbsolute base = true) (hlevel : excess (behind path base) = 0) :
    lexicallyRelative path base =
      match behind base path with
      | [] => dot
      | [] :: _ => dot
      | name :: l => name ++ l.flatMap ('/' :: ·) := by
  rw [lexicallyRelative_of_isAbsolute hpath hbase, hlevel, if_neg (lt_irrefl 0), Int.toNat_zero,
    List.replicate_zero, List.nil_append]
  cases hbehind : behind base path with
  | nil => simp
  | cons name l =>
    rw [if_neg (by simp)]
    cases name with
    | nil => simp
    | cons c name =>
      obtain ⟨htext, -⟩ := foldl_append_cons base path
        (fun _ hmem => absurd hmem List.not_mem_nil) (by rw [List.nil_append, hbehind])
        (List.cons_ne_nil c name)
      rw [if_neg (by simp), htext]

end PosixPath
