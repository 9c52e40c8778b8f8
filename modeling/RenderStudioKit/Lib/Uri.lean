import Mathlib.Data.List.TakeWhile

/-!
# Splitting a URI

The components of a URI reference as RFC 3986 separates them: a scheme ends at the first colon, an
authority stands behind two slashes, a path ends at the first question mark or number sign and a
query at the first number sign. Texts are lists of characters.
-/

namespace Uri

/-- The text behind the scheme, the whole text if there is none. -/
def afterScheme (text : List Char) : List Char :=
  match text.dropWhile (· ∉ [':', '/', '?', '#']) with
  | ':' :: rest => if text.takeWhile (· ∉ [':', '/', '?', '#']) = [] then text else rest
  | _ => text

/-- The text behind the authority, if there is one. -/
def afterAuthority (text : List Char) : List Char :=
  match afterScheme text with
  | '/' :: '/' :: rest => rest.dropWhile (· ∉ ['/', '?', '#'])
  | rest => rest

def path (text : List Char) : List Char :=
  (afterAuthority text).takeWhile (· ∉ ['?', '#'])

/-- The query at the head of what follows a path, empty if there is none. -/
def queryBehind : List Char → List Char
  | '?' :: rest => rest.takeWhile (· ≠ '#')
  | _ => []

def query (text : List Char) : List Char :=
  queryBehind ((afterAuthority text).dropWhile (· ∉ ['?', '#']))

/-- The segments of a path; an absolute path has one behind each slash. -/
def segments : List Char → List (List Char)
  | [] => []
  | c :: path => if c = '/' then path.splitOn '/' else (c :: path).splitOn '/'

/-- A text of a scheme and an authority, to which a path can be appended. -/
structure IsOrigin (text : List Char) : Prop where
  split : ∃ scheme authority, text = scheme ++ ':' :: '/' :: '/' :: authority ∧ scheme ≠ [] ∧
    (∀ c ∈ scheme, c ∉ [':', '/', '?', '#']) ∧ ∀ c ∈ authority, c ∉ ['/', '?', '#']

variable {origin rest : List Char}

lemma takeWhile_append_stop {p : Char → Bool} {l rest : List Char} (hl : ∀ c ∈ l, p c = true)
    (hrest : ∀ c ∈ rest.head?, p c = false) : (l ++ rest).takeWhile p = l := by
  rw [List.takeWhile_append_of_pos hl]
  cases rest with
  | nil => simp
  | cons c rest => simp [hrest c rfl]

lemma dropWhile_append_stop {p : Char → Bool} {l rest : List Char} (hl : ∀ c ∈ l, p c = true)
    (hrest : ∀ c ∈ rest.head?, p c = false) : (l ++ rest).dropWhile p = rest := by
  rw [List.dropWhile_append_of_pos hl]
  cases rest with
  | nil => rfl
  | cons c rest => simp [hrest c rfl]

lemma afterAuthority_origin (h : IsOrigin origin) :
    afterAuthority (origin ++ '/' :: rest) = '/' :: rest := by
  obtain ⟨scheme, authority, rfl, hne, hscheme, hauthority⟩ := h.split
  have hpos : ∀ c ∈ scheme, decide (c ∉ [':', '/', '?', '#']) = true := by
    intro c hc
    simpa using hscheme c hc
  have htext : scheme ++ ':' :: '/' :: '/' :: authority ++ '/' :: rest =
      scheme ++ ':' :: '/' :: '/' :: (authority ++ '/' :: rest) := by simp
  have hbehind : afterScheme (scheme ++ ':' :: '/' :: '/' :: authority ++ '/' :: rest) =
      '/' :: '/' :: (authority ++ '/' :: rest) := by
    unfold afterScheme
    rw [htext, dropWhile_append_stop hpos (by simp), takeWhile_append_stop hpos (by simp)]
    exact if_neg hne
  unfold afterAuthority
  rw [hbehind]
  exact dropWhile_append_stop (fun c hc => by simpa using hauthority c hc) (by simp)

lemma flatMap_segments (path : List Char) :
    (segments ('/' :: path)).flatMap ('/' :: ·) = '/' :: path := by
  have hjoin : ∀ parts : List (List Char), parts ≠ [] →
      parts.flatMap ('/' :: ·) = '/' :: ['/'].intercalate parts := by
    intro parts hparts
    induction parts with
    | nil => exact absurd rfl hparts
    | cons part parts ih =>
      cases parts with
      | nil => simp
      | cons next parts =>
        rw [List.flatMap_cons, ih (List.cons_ne_nil _ _), List.intercalate_cons_cons]
        simp
  have hsegments : segments ('/' :: path) = path.splitOn '/' := by simp [segments]
  rw [hsegments, hjoin _ (List.splitOn_ne_nil _ _), List.intercalate_splitOn]

/-- A part between two separators has no separator, and its characters are those of the text. -/
lemma of_mem_splitOn {sep : Char} {text part : List Char} (h : part ∈ text.splitOn sep) :
    sep ∉ part ∧ ∀ c ∈ part, c ∈ text := by
  induction text generalizing part with
  | nil =>
    rw [List.splitOn_nil, List.mem_singleton] at h
    simp [h]
  | cons c text ih =>
    rw [List.splitOn_cons_eq_if_modifyHead] at h
    by_cases hc : c = sep
    · rw [if_pos (by simpa using hc), List.mem_cons] at h
      rcases h with rfl | h
      · simp
      · exact ⟨(ih h).1, fun c' hc' => List.mem_cons_of_mem c ((ih h).2 c' hc')⟩
    · rw [if_neg (by simpa using hc)] at h
      obtain ⟨first, parts, hparts⟩ := List.exists_cons_of_ne_nil (List.splitOn_ne_nil sep text)
      rw [hparts, List.modifyHead_cons, List.mem_cons] at h
      rcases h with rfl | h
      · have hfirst : first ∈ text.splitOn sep := by
          rw [hparts]
          exact List.mem_cons_self
        obtain ⟨hnot, hmem⟩ := ih hfirst
        refine ⟨?_, ?_⟩
        · rw [List.mem_cons, not_or]
          exact ⟨fun heq => hc heq.symm, hnot⟩
        · intro c' hc'
          rcases List.mem_cons.1 hc' with rfl | hc'
          · exact List.mem_cons_self
          · exact List.mem_cons_of_mem c (hmem c' hc')
      · have hpart : part ∈ text.splitOn sep := by
          rw [hparts]
          exact List.mem_cons_of_mem first h
        obtain ⟨hnot, hmem⟩ := ih hpart
        exact ⟨hnot, fun c' hc' => List.mem_cons_of_mem c (hmem c' hc')⟩

lemma afterAuthority_suffix (text : List Char) : afterAuthority text <:+ text := by
  have hscheme : afterScheme text <:+ text := by
    unfold afterScheme
    split
    · rename_i rest heq
      split_ifs
      · exact List.suffix_rfl
      · exact (List.suffix_cons ':' rest).trans (heq ▸ List.dropWhile_suffix _)
    · exact List.suffix_rfl
  refine List.IsSuffix.trans ?_ hscheme
  unfold afterAuthority
  split
  · rename_i rest heq
    rw [heq]
    exact (List.dropWhile_suffix _).trans ((List.suffix_cons '/' rest).trans (List.suffix_cons '/' _))
  · exact List.suffix_rfl

lemma of_mem_path {text : List Char} {c : Char} (h : c ∈ path text) : c ∈ text :=
  (afterAuthority_suffix text).subset ((List.takeWhile_sublist _).subset h)

lemma of_mem_query {text : List Char} {c : Char} (h : c ∈ query text) : c ∈ text ∧ '?' ∈ text := by
  have hbehind := (List.dropWhile_suffix (· ∉ ['?', '#'])).trans (afterAuthority_suffix text)
  unfold query queryBehind at h
  split at h
  · rename_i rest heq
    rw [heq] at hbehind
    have hrest := (List.takeWhile_sublist _).subset h
    exact ⟨hbehind.subset (List.mem_cons_of_mem '?' hrest), hbehind.subset List.mem_cons_self⟩
  · exact absurd h List.not_mem_nil

lemma of_mem_segments {path segment : List Char} (h : segment ∈ segments path) :
    ∀ c ∈ segment, c ∈ path := by
  unfold segments at h
  split at h
  · exact absurd h List.not_mem_nil
  · rename_i first path
    split_ifs at h
    · exact fun c hc => List.mem_cons_of_mem first ((of_mem_splitOn h).2 c hc)
    · exact (of_mem_splitOn h).2

end Uri
