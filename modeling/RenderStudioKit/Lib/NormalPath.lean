import RenderStudioKit.Lib.PosixPath

/-!
# Normal forms

The lexically normal form of a relative pathname leads up first and then down. It is the text of the
detour that the names of the path make, and it makes the same detour.
-/

namespace PosixPath

/-- A file name that leads down. -/
structure IsPlain (name : Name) : Prop where
  ne_nil : name ≠ []
  ne_dot : name ≠ dot
  ne_dotdot : name ≠ dotdot
  separator : '/' ∉ name

/-- The text of a relative path with these names; without any it is the directory itself. -/
def joined : List Name → List Char
  | [] => dot
  | name :: l => name ++ l.flatMap ('/' :: ·)

/-- The names that make a detour. -/
def Detour.toNames (d : Detour) : List Name := List.replicate d.up dotdot ++ d.down.reverse

def normalForm (path : List Char) : List Char := joined (detour (names path)).toNames

/-- The text before the last separator. -/
def directory (path : List Char) : List Char := (path.reverse.dropWhile (· ≠ '/')).tail.reverse

/-- One detour and then another. -/
def Detour.andThen (d e : Detour) : Detour :=
  ⟨d.up + (e.up - d.down.length), e.down ++ d.down.drop e.up⟩

lemma Detour.andThen_step (d e : Detour) (name : Name) :
    (d.andThen e).step name = d.andThen (e.step name) := by
  unfold Detour.step
  by_cases hstay : name = [] ∨ name = dot
  · rw [if_pos hstay, if_pos hstay]
  rw [if_neg hstay, if_neg hstay]
  by_cases hup : name = dotdot
  · rw [if_pos hup, if_pos hup]
    cases hdown : e.down with
    | cons first down => simp [Detour.andThen, hdown]
    | nil =>
      -- the second detour goes up where the first one has come down, or beyond its beginning
      cases hdrop : d.down.drop e.up with
      | nil =>
        have hlength : d.down.length ≤ e.up := List.drop_eq_nil_iff.1 hdrop
        have hmore : d.down.drop (e.up + 1) = [] := List.drop_eq_nil_iff.2 (by omega)
        simp only [Detour.andThen, hdown, hdrop, hmore, List.nil_append, Detour.mk.injEq, and_true]
        omega
      | cons first down =>
        have hlength : e.up < d.down.length := by
          apply Nat.lt_of_not_le
          intro hle
          rw [List.drop_eq_nil_iff.2 hle] at hdrop
          cases hdrop
        have hmore : d.down.drop (e.up + 1) = down := by
          rw [← List.tail_drop, hdrop, List.tail_cons]
        simp only [Detour.andThen, hdown, hdrop, hmore, List.nil_append, Detour.mk.injEq, and_true]
        omega
  · rw [if_neg hup, if_neg hup]
    rfl

/-- Further names make a second detour. -/
theorem foldl_step (d : Detour) (l : List Name) : l.foldl Detour.step d = d.andThen (detour l) := by
  induction l using List.reverseRecOn with
  | nil => simp [detour, Detour.andThen]
  | append_singleton l name ih =>
    rw [List.foldl_append, ih, List.foldl_cons, List.foldl_nil, Detour.andThen_step, detour, detour,
      List.foldl_append, List.foldl_cons, List.foldl_nil]

theorem detour_append (l l' : List Name) : detour (l ++ l') = (detour l).andThen (detour l') := by
  rw [detour, List.foldl_append, ← detour, foldl_step]

lemma Detour.andThen_of_le {d e : Detour} (h : e.up ≤ d.down.length) :
    d.andThen e = ⟨d.up, e.target d.down⟩ := by
  rw [Detour.andThen, Nat.sub_eq_zero_of_le h, Nat.add_zero, Detour.target]

lemma detour_plain {l : List Name} (h : ∀ name ∈ l, IsPlain name) : detour l = ⟨0, l.reverse⟩ := by
  induction l using List.reverseRecOn with
  | nil => rfl
  | append_singleton l name ih =>
    have hname := h name (by simp)
    rw [detour, List.foldl_append, ← detour, ih fun name hmem => h name (by simp [hmem]),
      List.foldl_cons, List.foldl_nil, Detour.step,
      if_neg (not_or.2 ⟨hname.ne_nil, hname.ne_dot⟩), if_neg hname.ne_dotdot, List.reverse_append,
      List.reverse_singleton, List.singleton_append]

lemma walk_plain {l : List Name} (h : ∀ name ∈ l, IsPlain name) (start : List Name) :
    walk start l = l.reverse ++ start := by
  rw [walk_eq_target, detour_plain h, Detour.target, List.drop_zero]

lemma detour_replicate (n : ℕ) : detour (List.replicate n dotdot) = ⟨n, []⟩ := by
  induction n with
  | zero => rfl
  | succ n ih =>
    rw [List.replicate_succ', detour, List.foldl_append, ← detour, ih]
    rfl

lemma of_mem_down {l : List Name} {name : Name} (hname : name ∈ (detour l).down) :
    name ∈ l ∧ name ≠ [] ∧ name ≠ dot ∧ name ≠ dotdot := by
  induction l using List.reverseRecOn with
  | nil => cases hname
  | append_singleton l last ih =>
    have hkeep (h : name ∈ (detour l).down) :
        name ∈ l ++ [last] ∧ name ≠ [] ∧ name ≠ dot ∧ name ≠ dotdot :=
      ⟨List.mem_append_left _ (ih h).1, (ih h).2⟩
    rw [detour, List.foldl_append, ← detour, List.foldl_cons, List.foldl_nil, Detour.step] at hname
    by_cases hstay : last = [] ∨ last = dot
    · rw [if_pos hstay] at hname
      exact hkeep hname
    rw [if_neg hstay] at hname
    by_cases hup : last = dotdot
    · rw [if_pos hup] at hname
      cases hdown : (detour l).down with
      | nil =>
        rw [hdown] at hname
        simp at hname
      | cons first down =>
        rw [hdown] at hname
        exact hkeep (hdown ▸ List.mem_cons_of_mem _ hname)
    · rw [if_neg hup] at hname
      rcases List.mem_cons.1 hname with rfl | h
      · exact ⟨by simp, (not_or.1 hstay).1, (not_or.1 hstay).2, hup⟩
      · exact hkeep h

lemma plain_of_mem_down {path : List Char} {name : Name}
    (hname : name ∈ (detour (names path)).down) : IsPlain name := by
  obtain ⟨hmem, hne, hdot, hdotdot⟩ := of_mem_down hname
  exact ⟨hne, hdot, hdotdot, separator_notMem_names hmem⟩

lemma names_joined {l : List Name} (hl : l ≠ []) (h : ∀ name ∈ l, name ≠ [] ∧ '/' ∉ name) :
    names (joined l) = l := by
  cases l with
  | nil => exact absurd rfl hl
  | cons name l =>
    have hsplit : (name :: l).flatMap (·.splitOn '/') = name :: l := by
      rw [List.flatMap_congr fun name hname => List.splitOn_eq_singleton (h name hname).2,
        List.flatMap_singleton']
    rw [joined, names, splitOn_flatMap, hsplit]
    exact List.filter_eq_self.2 fun name hname => by simpa using (h name hname).1

lemma isAbsolute_joined {l : List Name} (h : ∀ name ∈ l, name ≠ [] ∧ '/' ∉ name) :
    isAbsolute (joined l) = false := by
  cases l with
  | nil => rfl
  | cons name l =>
    obtain ⟨hne, hseparator⟩ := h name List.mem_cons_self
    cases name with
    | nil => exact absurd rfl hne
    | cons c name =>
      have hc : c ≠ '/' := fun hc => hseparator (hc ▸ List.mem_cons_self)
      simpa [joined, isAbsolute] using hc

lemma of_mem_toNames {path : List Char} {name : Name}
    (h : name ∈ (detour (names path)).toNames) : name ≠ [] ∧ '/' ∉ name := by
  rw [Detour.toNames, List.mem_append, List.mem_reverse] at h
  rcases h with h | h
  · rw [List.eq_of_mem_replicate h]
    decide
  · exact ⟨(plain_of_mem_down h).ne_nil, (plain_of_mem_down h).separator⟩

lemma isAbsolute_normalForm (path : List Char) : isAbsolute (normalForm path) = false :=
  isAbsolute_joined fun _ => of_mem_toNames

lemma detour_toNames {d : Detour} (h : ∀ name ∈ d.down, IsPlain name) : detour d.toNames = d := by
  rw [Detour.toNames, detour_append, detour_replicate,
    detour_plain fun name hname => h name (List.mem_reverse.1 hname), List.reverse_reverse]
  simp [Detour.andThen]

/-- The normal form makes the same detour as the path. -/
theorem detour_normalForm (path : List Char) :
    detour (names (normalForm path)) = detour (names path) := by
  have hdetour : detour (detour (names path)).toNames = detour (names path) :=
    detour_toNames fun _ => plain_of_mem_down
  by_cases hnil : (detour (names path)).toNames = []
  · rw [normalForm, hnil]
    rw [hnil] at hdetour
    exact hdetour
  · rw [normalForm, names_joined hnil fun _ => of_mem_toNames, hdetour]

/-- A normal form is its own. -/
@[simp] theorem normalForm_normalForm (path : List Char) :
    normalForm (normalForm path) = normalForm path := by
  rw [normalForm, detour_normalForm, ← normalForm]

lemma normalForm_of_names {path : List Char} {l : List Name} (h : detour (names path) = ⟨0, l⟩) :
    normalForm path = joined l.reverse := by
  rw [normalForm, h, Detour.toNames, List.replicate_zero, List.nil_append]

lemma names_plain {name : Name} (h : IsPlain name) : names name = [name] := by
  rw [names, List.splitOn_eq_singleton h.separator]
  simp [h.ne_nil]

lemma isAbsolute_plain {name : Name} (h : IsPlain name) : isAbsolute name = false := by
  have hjoined := isAbsolute_joined (l := [name]) (by simpa using ⟨h.ne_nil, h.separator⟩)
  simpa [joined] using hjoined

lemma names_foldl_append {l : List Name} (h : ∀ name ∈ l, IsPlain name) (path : List Char) :
    names (l.foldl append path) = names path ++ l := by
  induction l generalizing path with
  | nil => simp
  | cons name l ih =>
    have hname := h name List.mem_cons_self
    rw [List.foldl_cons, ih fun name hmem => h name (List.mem_cons_of_mem _ hmem), names_append,
      isAbsolute_plain hname, if_neg (by simp), names_plain hname, List.append_assoc,
      List.singleton_append]

lemma isAbsolute_foldl_append (l : List Name) {path : List Char} (h : isAbsolute path = true) :
    isAbsolute (l.foldl append path) = true := by
  induction l generalizing path with
  | nil => exact h
  | cons name l ih => exact ih (isAbsolute_append h name)

lemma directory_append_separator {rest : List Char} (h : '/' ∉ rest) (path : List Char) :
    directory (path ++ '/' :: rest) = path := by
  have hrest : ∀ c ∈ rest.reverse, decide (c ≠ '/') = true := by
    intro c hc
    apply decide_eq_true
    rintro rfl
    exact h (List.mem_reverse.1 hc)
  rw [directory, List.reverse_append, List.reverse_cons, List.append_assoc, List.singleton_append,
    List.dropWhile_append_of_pos hrest]
  simp

lemma directory_joined {first last : Name} {l : List Name} (h : IsPlain last) :
    directory (joined (first :: (l ++ [last]))) = joined (first :: l) := by
  rw [joined, List.flatMap_append, ← List.append_assoc, List.flatMap_singleton,
    directory_append_separator h.separator, joined]

end PosixPath
