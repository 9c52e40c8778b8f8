import Mathlib.Logic.Function.Iterate

/-!
# Update or append

A list of records is searched for the first one with a property: it is changed in place, or a new
record is appended if there is none. Two such steps one after another are one.
-/

namespace RenderStudioKit

variable {α : Type*}

/-- The first item with `p` is updated; if there is none, `created` is appended. -/
def upsert (p : α → Bool) (update : α → α) (created : α) : List α → List α
  | [] => [created]
  | a :: items => if p a then update a :: items else a :: upsert p update created items

variable {p : α → Bool} {update update' : α → α} {created created' : α}

lemma upsert_cons_pos {a : α} (ha : p a = true) (items : List α) :
    upsert p update created (a :: items) = update a :: items :=
  if_pos ha

lemma upsert_cons_neg {a : α} (ha : p a = false) (items : List α) :
    upsert p update created (a :: items) = a :: upsert p update created items :=
  if_neg (by simp [ha])

/-- The item that the second step finds is the one the first step has left. -/
theorem upsert_upsert (hupdate : ∀ a, p a = true → p (update a) = true)
    (hcreated : p created = true) (items : List α) :
    upsert p update' created' (upsert p update created items) =
      upsert p (update' ∘ update) (update' created) items := by
  induction items with
  | nil => exact upsert_cons_pos hcreated []
  | cons a items ih =>
    cases ha : p a with
    | true => rw [upsert_cons_pos ha, upsert_cons_pos (hupdate a ha), upsert_cons_pos ha,
        Function.comp_apply]
    | false => rw [upsert_cons_neg ha, upsert_cons_neg ha, upsert_cons_neg ha, ih]

/-- The first item with the property after a step. -/
theorem find?_upsert (hupdate : ∀ a, p a = true → p (update a) = true)
    (hcreated : p created = true) (items : List α) :
    (upsert p update created items).find? p =
      some (((items.find? p).map update).getD created) := by
  induction items with
  | nil => simp [upsert, hcreated]
  | cons a items ih =>
    cases ha : p a with
    | true => rw [upsert_cons_pos ha, List.find?_cons_of_pos (hupdate a ha),
        List.find?_cons_of_pos ha, Option.map_some, Option.getD_some]
    | false =>
      rw [upsert_cons_neg ha, List.find?_cons_of_neg (by simp [ha]),
        List.find?_cons_of_neg (by simp [ha]), ih]

/-- Repeated steps are one step with the repeated update. -/
theorem upsert_iterate (hupdate : ∀ a, p a = true → p (update a) = true)
    (hcreated : p created = true) (items : List α) (n : ℕ) :
    (upsert p update created)^[n + 1] items =
      upsert p update^[n + 1] (update^[n] created) items := by
  have hiterate : ∀ m a, p a = true → p (update^[m] a) = true :=
    fun m a ha => Function.Iterate.rec (fun a => p a = true) ha hupdate m
  induction n with
  | zero => rfl
  | succ n ih =>
    rw [Function.iterate_succ_apply', ih,
      upsert_upsert (hiterate (n + 1)) (hiterate n created hcreated),
      ← Function.iterate_succ' update (n + 1), ← Function.iterate_succ_apply' update n]

/-- What repeated steps leave where the updates have the property and the new record is the update
of a default: the repeated update of what was there or of the default. -/
theorem find?_upsert_iterate (hupdate : ∀ a, p (update a) = true) (d : α) (items : List α) (n : ℕ) :
    (((upsert p update (update d))^[n] items).find? p).getD d =
      update^[n] ((items.find? p).getD d) := by
  cases n with
  | zero => rfl
  | succ n =>
    have hiterate : ∀ a, p (update^[n + 1] a) = true := by
      intro a
      rw [Function.iterate_succ_apply']
      exact hupdate _
    rw [upsert_iterate (fun a _ => hupdate a) (hupdate d), ← Function.iterate_succ_apply,
      find?_upsert (fun a _ => hiterate a) (hiterate d), Option.getD_some]
    cases items.find? p <;> rfl

end RenderStudioKit
