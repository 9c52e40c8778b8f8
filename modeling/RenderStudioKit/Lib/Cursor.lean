import Mathlib.Order.Basic
import Mathlib.Data.List.Basic

/-!
# Reading a log with a cursor

Entries are appended to a log under growing keys. A reader keeps the greatest key it has seen and asks
for the entries beyond it; what it reads in this way is a contiguous part of the log.
-/

namespace Cursor

variable {E : Type*} (key : E → Nat)

/-- The keys grow. -/
def Ordered (log : List E) : Prop := log.Pairwise fun a b => key a < key b

/-- The entries beyond the cursor. -/
def unread (log : List E) (cursor : Nat) : List E := log.filter fun e => cursor < key e

/-- The entries after `first` up to the cursor. -/
def window (log : List E) (first cursor : Nat) : List E :=
  log.filter fun e => first < key e ∧ key e ≤ cursor

/-- The cursor after some entries were seen. -/
def advance (cursor : Nat) (entries : List E) : Nat :=
  entries.foldl (fun cursor e => max cursor (key e)) cursor

/-- The greatest key of the log. -/
def last (log : List E) : Nat := advance key 0 log

variable {key}

section Advance

lemma le_advance (cursor : Nat) (entries : List E) : cursor ≤ advance key cursor entries := by
  induction entries generalizing cursor with
  | nil => exact Nat.le_refl cursor
  | cons e entries ih => exact Nat.le_trans (Nat.le_max_left _ _) (ih _)

lemma key_le_advance (cursor : Nat) {entries : List E} {e : E} (h : e ∈ entries) :
    key e ≤ advance key cursor entries := by
  induction entries generalizing cursor with
  | nil => exact absurd h List.not_mem_nil
  | cons a entries ih =>
    rcases List.mem_cons.1 h with rfl | h
    · exact Nat.le_trans (Nat.le_max_right _ _) (le_advance _ entries)
    · exact ih _ h

lemma advance_le {cursor bound : Nat} {entries : List E} (hcursor : cursor ≤ bound)
    (h : ∀ e ∈ entries, key e ≤ bound) : advance key cursor entries ≤ bound := by
  induction entries generalizing cursor with
  | nil => exact hcursor
  | cons e entries ih =>
    refine ih (Nat.max_le.2 ⟨hcursor, h e List.mem_cons_self⟩) ?_
    exact fun e' he' => h e' (List.mem_cons_of_mem _ he')

lemma key_le_last {log : List E} {e : E} (h : e ∈ log) : key e ≤ last key log :=
  key_le_advance 0 h

lemma last_append (log : List E) (e : E) : last key (log ++ [e]) = max (last key log) (key e) := by
  simp [last, advance]

end Advance

section Window

variable {log : List E} {first cursor : Nat}

lemma mem_unread {e : E} : e ∈ unread key log cursor ↔ e ∈ log ∧ cursor < key e := by
  simp [unread]

lemma Ordered.sublist {entries : List E} (h : Ordered key log) (hsub : entries.Sublist log) :
    Ordered key entries :=
  List.Pairwise.sublist hsub h

lemma Ordered.append (h : Ordered key log) {e : E} (he : last key log < key e) :
    Ordered key (log ++ [e]) := by
  refine List.pairwise_append.2 ⟨h, List.pairwise_singleton _ e, fun a ha b hb => ?_⟩
  rw [List.mem_singleton.1 hb]
  exact Nat.lt_of_le_of_lt (key_le_last ha) he

/-- The log falls apart at the cursor. -/
lemma window_append_unread (h : Ordered key log) (hle : first ≤ cursor) :
    window key log first cursor ++ unread key log cursor = unread key log first := by
  induction log with
  | nil => rfl
  | cons e log ih =>
    have hrest := ih (List.Pairwise.of_cons h)
    by_cases hcursor : cursor < key e
    · -- all later entries are beyond the cursor as well
      have hbeyond : ∀ a ∈ log, cursor < key a := fun a ha =>
        Nat.lt_trans hcursor (List.rel_of_pairwise_cons h ha)
      have hnone : window key log first cursor = [] := by
        rw [window, List.filter_eq_nil_iff]
        intro a ha
        have hlt := hbeyond a ha
        simp only [decide_eq_true_eq]
        omega
      have hfirst : first < key e := Nat.lt_of_le_of_lt hle hcursor
      have hnot : ¬ key e ≤ cursor := Nat.not_le.2 hcursor
      rw [hnone, List.nil_append] at hrest
      simp only [window, unread, List.filter_cons, hcursor, hfirst, hnot, and_false, decide_false,
        decide_true, if_true, Bool.false_eq_true, if_false] at hnone hrest ⊢
      rw [hnone, List.nil_append, hrest]
    · have hle' : key e ≤ cursor := Nat.not_lt.1 hcursor
      by_cases hfirst : first < key e
      · simp only [window, unread, List.filter_cons, hcursor, hfirst, hle', and_self, decide_false,
          decide_true, if_true, Bool.false_eq_true, if_false, List.cons_append] at hrest ⊢
        rw [hrest]
      · simp only [window, unread, List.filter_cons, hcursor, hfirst, false_and, decide_false,
          Bool.false_eq_true, if_false] at hrest ⊢
        exact hrest

lemma window_last (hlast : ∀ e ∈ log, key e ≤ cursor) :
    window key log first cursor = unread key log first := by
  apply List.filter_congr
  intro e he
  simp [hlast e he]

lemma window_advance (h : Ordered key log) (hle : first ≤ cursor) :
    window key log first (advance key cursor (unread key log cursor)) =
      window key log first cursor ++ unread key log cursor := by
  rw [window_append_unread h hle]
  apply window_last
  intro e he
  by_cases hcursor : cursor < key e
  · exact key_le_advance cursor (mem_unread.2 ⟨he, hcursor⟩)
  · exact Nat.le_trans (Nat.not_lt.1 hcursor) (le_advance cursor _)

lemma advance_drop (h : Ordered key log) {dropped : Nat}
    (hsome : (unread key log cursor).drop dropped ≠ []) :
    advance key cursor ((unread key log cursor).drop dropped) =
      advance key cursor (unread key log cursor) := by
  set entries := unread key log cursor
  have hordered : Ordered key entries := h.sublist List.filter_sublist
  obtain ⟨newest, hnewest⟩ := List.exists_mem_of_ne_nil _ hsome
  have hsplit : (entries.take dropped ++ entries.drop dropped).Pairwise fun a b => key a < key b := by
    rw [List.take_append_drop]
    exact hordered
  apply Nat.le_antisymm
  · exact advance_le (le_advance _ _) fun e he =>
      key_le_advance _ (List.mem_of_mem_drop he)
  · refine advance_le (le_advance _ _) fun e he => ?_
    rw [← List.take_append_drop dropped entries] at he
    rcases List.mem_append.1 he with he | he
    · have hlt := (List.pairwise_append.1 hsplit).2.2 e he newest hnewest
      exact Nat.le_trans (Nat.le_of_lt hlt) (key_le_advance _ hnewest)
    · exact key_le_advance _ he

lemma sublist_advance (h : Ordered key log) (hle : first ≤ cursor) {entries : List E}
    (hsub : entries.Sublist (window key log first cursor)) (dropped : Nat) :
    (entries ++ (unread key log cursor).drop dropped).Sublist
      (window key log first (advance key cursor ((unread key log cursor).drop dropped))) := by
  by_cases hnone : (unread key log cursor).drop dropped = []
  · rw [hnone, List.append_nil]
    exact hsub
  · rw [advance_drop h hnone, window_advance h hle]
    exact hsub.append (List.drop_sublist _ _)

lemma window_log (hlog : cursor ≤ last key log) {e : E} (he : last key log < key e) :
    window key (log ++ [e]) first cursor = window key log first cursor := by
  have hnot : ¬ key e ≤ cursor := Nat.not_le.2 (Nat.lt_of_le_of_lt hlog he)
  simp [window, hnot]

lemma window_self : window key log cursor cursor = [] := by
  rw [window, List.filter_eq_nil_iff]
  intro e _
  simp only [decide_eq_true_eq]
  omega

end Window

end Cursor
