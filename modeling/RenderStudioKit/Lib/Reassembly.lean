import Mathlib.Data.List.Induction
import Mathlib.Order.Bounds.Basic

/-!
# Numbered items received out of order

Items carry the numbers 1, 2, 3, … and arrive in any order and any number of times. A
receiver that applies them in the order of their numbers stops at the first gap: the
largest number up to which everything arrived.
-/

namespace Reassembly

variable {σ τ : Type*}

/-- Every number from 1 to `n` has arrived. -/
def Complete (arrived : Set Nat) (n : Nat) : Prop :=
  ∀ k, 1 ≤ k → k ≤ n → k ∈ arrived

lemma Complete.zero (arrived : Set Nat) : Complete arrived 0 :=
  fun _ hk hk' => absurd hk (by omega)

lemma Complete.succ {arrived : Set Nat} {n : Nat} (h : Complete arrived n)
    (hn : n + 1 ∈ arrived) : Complete arrived (n + 1) := by
  intro k hk hk'
  rcases Nat.lt_or_ge n k with hlt | hle
  · rwa [show k = n + 1 by omega]
  · exact h k hk hle

lemma Complete.mono {arrived arrived' : Set Nat} {n : Nat} (h : Complete arrived n)
    (hsub : arrived ⊆ arrived') : Complete arrived' n :=
  fun k hk hk' => hsub (h k hk hk')

/-- A receiver that took everything up to `n` and misses `n + 1` stopped at the largest
complete prefix. -/
theorem Complete.isGreatest {arrived : Set Nat} {n : Nat} (h : Complete arrived n)
    (hn : n + 1 ∉ arrived) : IsGreatest {n | Complete arrived n} n := by
  refine ⟨h, fun m hm => ?_⟩
  by_contra hlt
  exact hn (hm (n + 1) (by omega) (by omega))

/-- The items 1, …, `n` applied to `s` one after the other. -/
def upTo (apply : σ → τ → σ) (item : Nat → τ) (s : σ) : Nat → σ
  | 0 => s
  | n + 1 => apply (upTo apply item s n) (item (n + 1))

@[simp] lemma upTo_zero (apply : σ → τ → σ) (item : Nat → τ) (s : σ) :
    upTo apply item s 0 = s := rfl

@[simp] lemma upTo_succ (apply : σ → τ → σ) (item : Nat → τ) (s : σ) (n : Nat) :
    upTo apply item s (n + 1) = apply (upTo apply item s n) (item (n + 1)) := rfl

lemma upTo_eq_foldl (apply : σ → τ → σ) {item : Nat → τ} {items : List τ}
    (h : ∀ k, (hk : k < items.length) → item (k + 1) = items[k]) (s : σ) :
    upTo apply item s items.length = items.foldl apply s := by
  induction items using List.reverseRecOn with
  | nil => rfl
  | append_singleton items last ih =>
    have hlast : item (items.length + 1) = last := by
      rw [h items.length (by simp)]
      simp
    have hbefore : ∀ k, (hk : k < items.length) → item (k + 1) = items[k] := by
      intro k hk
      rw [h k (by simp; omega), List.getElem_append_left hk]
    rw [List.length_append, List.length_singleton, upTo_succ, ih hbefore, hlast,
      List.foldl_append]
    rfl

end Reassembly
