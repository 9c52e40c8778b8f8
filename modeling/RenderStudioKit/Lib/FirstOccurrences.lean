import Mathlib.Data.List.Basic
import Mathlib.Data.List.Nodup

/-!
# First occurrences

`List.eraseDups` keeps the first occurrence of every element. The order of the list that is left is
the order of these occurrences, and to put elements in front a second time changes nothing.
-/

namespace FirstOccurrences

variable {α : Type} [DecidableEq α]

lemma eraseDups_induction {motive : List α → Prop} (nil : motive [])
    (cons : ∀ a l, motive (l.filter fun b => !b == a) → motive (a :: l)) : ∀ l, motive l
  | [] => nil
  | a :: l => cons a l (eraseDups_induction nil cons (l.filter fun b => !b == a))
termination_by l => l.length
decreasing_by exact Nat.lt_succ_of_le (List.length_filter_le _ l)

lemma nodup_eraseDups (l : List α) : l.eraseDups.Nodup := by
  induction l using eraseDups_induction with
  | nil => exact List.nodup_nil
  | cons a l ih =>
    rw [List.eraseDups_cons, List.nodup_cons]
    exact ⟨by simp [List.mem_eraseDups], ih⟩

lemma idxOf_cons_lt_iff {l : List α} {a b c : α} :
    (c :: l).idxOf a < (c :: l).idxOf b ↔ c ≠ b ∧ (c = a ∨ l.idxOf a < l.idxOf b) := by
  by_cases hcb : c = b
  · simp [hcb]
  · by_cases hca : c = a
    · subst hca
      simp [List.idxOf_cons_ne _ hcb, hcb]
    · rw [List.idxOf_cons_ne _ hca, List.idxOf_cons_ne _ hcb]
      simp [hca, hcb]

lemma idxOf_filter_lt_iff {p : α → Bool} {l : List α} {a b : α} (ha : a ∈ l) (hb : b ∈ l)
    (hpa : p a = true) (hpb : p b = true) :
    (l.filter p).idxOf a < (l.filter p).idxOf b ↔ l.idxOf a < l.idxOf b := by
  induction l with
  | nil => exact absurd ha List.not_mem_nil
  | cons c l ih =>
    have hrest : c ≠ a → c ≠ b →
        ((l.filter p).idxOf a < (l.filter p).idxOf b ↔ l.idxOf a < l.idxOf b) := fun hca hcb =>
      ih ((List.mem_cons.1 ha).resolve_left hca.symm) ((List.mem_cons.1 hb).resolve_left hcb.symm)
    rw [idxOf_cons_lt_iff]
    by_cases hpc : p c = true
    · rw [List.filter_cons_of_pos hpc, idxOf_cons_lt_iff]
      exact and_congr_right fun hcb => or_congr_right' fun hca => hrest hca hcb
    · have hca : c ≠ a := fun h => hpc (h ▸ hpa)
      have hcb : c ≠ b := fun h => hpc (h ▸ hpb)
      rw [List.filter_cons_of_neg hpc, hrest hca hcb]
      simp [hca, hcb]

lemma idxOf_eraseDups_lt_iff {l : List α} {a b : α} (ha : a ∈ l) (hb : b ∈ l) :
    l.eraseDups.idxOf a < l.eraseDups.idxOf b ↔ l.idxOf a < l.idxOf b := by
  induction l using eraseDups_induction with
  | nil => exact absurd ha List.not_mem_nil
  | cons c l ih =>
    rw [List.eraseDups_cons, idxOf_cons_lt_iff, idxOf_cons_lt_iff]
    refine and_congr_right fun hcb => or_congr_right' fun hca => ?_
    have ha' : a ∈ l := (List.mem_cons.1 ha).resolve_left (Ne.symm hca)
    have hb' : b ∈ l := (List.mem_cons.1 hb).resolve_left hcb.symm
    have hpa : (!a == c) = true := by simp [Ne.symm hca]
    have hpb : (!b == c) = true := by simp [hcb.symm]
    rw [ih (List.mem_filter.2 ⟨ha', hpa⟩) (List.mem_filter.2 ⟨hb', hpb⟩)]
    exact idxOf_filter_lt_iff ha' hb' hpa hpb

lemma eraseDups_of_nodup {l : List α} (h : l.Nodup) : l.eraseDups = l := by
  induction l with
  | nil => rfl
  | cons a l ih =>
    obtain ⟨ha, hl⟩ := List.nodup_cons.1 h
    have hfilter : (l.filter fun b => !b == a) = l := by
      rw [List.filter_eq_self]
      intro b hb
      have hne : b ≠ a := fun heq => ha (heq ▸ hb)
      simp [hne]
    rw [List.eraseDups_cons, hfilter, ih hl]

lemma eraseDups_append_absorb (r l : List α) :
    (r ++ (r ++ l).eraseDups).eraseDups = (r ++ l).eraseDups := by
  have hrest : (r ++ l).eraseDups.removeAll r = (l.removeAll r).eraseDups := by
    rw [List.eraseDups_append, List.removeAll, List.filter_append]
    have hfront : r.eraseDups.filter (fun a => !r.elem a) = [] := by
      rw [List.filter_eq_nil_iff]
      intro a ha
      simp [List.mem_eraseDups.1 ha]
    have hback : (l.removeAll r).eraseDups.filter (fun a => !r.elem a) =
        (l.removeAll r).eraseDups := by
      rw [List.filter_eq_self]
      intro a ha
      have hmem := List.mem_eraseDups.1 ha
      rw [List.removeAll, List.mem_filter] at hmem
      exact hmem.2
    rw [hfront, hback, List.nil_append]
  rw [List.eraseDups_append, hrest, eraseDups_of_nodup (nodup_eraseDups _), List.eraseDups_append]

end FirstOccurrences
