import Mathlib.Data.Set.Card
import Mathlib.Order.Bounds.Basic

/-!
# Lists in ascending order of a key

A list with ascending keys is a finite map from keys to its elements, and the keys around a point are
found by splitting it there.
-/

namespace SortedKeys

variable {α κ : Type*} [LinearOrder κ] (key : α → κ)

def Ascending (l : List α) : Prop := l.Pairwise fun a b => key a < key b

def keySet (l : List α) : Set κ := {k | ∃ a ∈ l, key a = k}

/-- Puts an element with key `k` in its place, or changes the one that is there. -/
def insertKey (k : κ) (fresh : α) (change : α → α) : List α → List α
  | [] => [fresh]
  | a :: l =>
    if k < key a then fresh :: a :: l
    else if key a < k then a :: insertKey k fresh change l
    else change a :: l

def removeKey (k : κ) : List α → List α
  | [] => []
  | a :: l =>
    if k < key a then a :: l
    else if key a < k then a :: removeKey k l
    else l

def seekKey (k : κ) : List α → Option α
  | [] => none
  | a :: l =>
    if key a < k then seekKey k l
    else if k < key a then none
    else some a

variable {key} {l : List α} {a : α} {k : κ}

lemma ascending_cons : Ascending key (a :: l) ↔ (∀ b ∈ l, key a < key b) ∧ Ascending key l :=
  List.pairwise_cons

lemma seekKey_eq_some_iff (h : Ascending key l) : seekKey key k l = some a ↔ a ∈ l ∧ key a = k := by
  induction l with
  | nil => simp [seekKey]
  | cons b l ih =>
    obtain ⟨hless, hl⟩ := ascending_cons.1 h
    rw [seekKey, List.mem_cons]
    rcases lt_trichotomy (key b) k with hbefore | rfl | hafter
    · rw [if_pos hbefore, ih hl]
      constructor
      · rintro ⟨hmem, hk⟩
        exact ⟨.inr hmem, hk⟩
      · rintro ⟨rfl | hmem, hk⟩
        · exact absurd hk hbefore.ne
        · exact ⟨hmem, hk⟩
    · rw [if_neg (lt_irrefl _), if_neg (lt_irrefl _), Option.some.injEq]
      constructor
      · rintro rfl
        exact ⟨.inl rfl, rfl⟩
      · rintro ⟨rfl | hmem, hk⟩
        · rfl
        · exact absurd hk (hless a hmem).ne'
    · rw [if_neg hafter.asymm, if_pos hafter]
      refine iff_of_false (by simp) ?_
      rintro ⟨rfl | hmem, hk⟩
      · exact absurd hk hafter.ne'
      · exact absurd hk (hafter.trans (hless a hmem)).ne'

lemma seekKey_isSome_iff (h : Ascending key l) : (seekKey key k l).isSome ↔ k ∈ keySet key l := by
  simp only [Option.isSome_iff_exists, seekKey_eq_some_iff h]
  rfl

lemma seekKey_eq_none (h : ∀ b ∈ l, k < key b) : seekKey key k l = none := by
  cases l with
  | nil => rfl
  | cons b l =>
    have hless := h b List.mem_cons_self
    rw [seekKey, if_neg hless.asymm, if_pos hless]

omit [LinearOrder κ] in
@[simp] lemma keySet_nil : keySet key [] = ∅ := by
  simp [keySet]

omit [LinearOrder κ] in
lemma keySet_cons : keySet key (a :: l) = insert (key a) (keySet key l) := by
  ext k
  simp [keySet, eq_comm]

lemma ncard_keySet (h : Ascending key l) : (keySet key l).ncard = l.length := by
  have hnodup : (l.map key).Nodup := by
    rw [List.nodup_iff_pairwise_ne, List.pairwise_map]
    exact h.imp fun hless => hless.ne
  have hset : keySet key l = ↑(l.map key).toFinset := by
    ext k
    simp [keySet]
  rw [hset, Set.ncard_coe_finset, List.toFinset_card_of_nodup hnodup, List.length_map]

section

variable {fresh : α} {change : α → α}

lemma mem_insertKey {b : α} (hmem : b ∈ insertKey key k fresh change l) :
    b = fresh ∨ ∃ a ∈ l, b = a ∨ key a = k ∧ b = change a := by
  induction l with
  | nil => exact .inl (List.mem_singleton.1 hmem)
  | cons a l ih =>
    rw [insertKey] at hmem
    split_ifs at hmem with hbefore hafter
    · refine (List.mem_cons.1 hmem).imp_right fun hmem => ?_
      exact ⟨b, hmem, .inl rfl⟩
    · rcases List.mem_cons.1 hmem with rfl | hmem
      · exact .inr ⟨b, List.mem_cons_self, .inl rfl⟩
      · refine (ih hmem).imp_right ?_
        rintro ⟨c, hc, hb⟩
        exact ⟨c, List.mem_cons_of_mem a hc, hb⟩
    · have hk : key a = k := le_antisymm (not_lt.1 hbefore) (not_lt.1 hafter)
      rcases List.mem_cons.1 hmem with rfl | hmem
      · exact .inr ⟨a, List.mem_cons_self, .inr ⟨hk, rfl⟩⟩
      · exact .inr ⟨b, List.mem_cons_of_mem a hmem, .inl rfl⟩

variable (hfresh : key fresh = k) (hchange : ∀ a, key a = k → key (change a) = k)

include hfresh hchange

lemma key_insertKey {b : α} (hmem : b ∈ insertKey key k fresh change l) :
    key b = k ∨ ∃ a ∈ l, key b = key a := by
  rcases mem_insertKey hmem with rfl | ⟨a, ha, rfl | ⟨hk, rfl⟩⟩
  · exact .inl hfresh
  · exact .inr ⟨b, ha, rfl⟩
  · exact .inl (hchange a hk)

lemma Ascending.insertKey (h : Ascending key l) : Ascending key (insertKey key k fresh change l) := by
  induction l with
  | nil => exact List.pairwise_singleton _ _
  | cons a l ih =>
    obtain ⟨hless, hl⟩ := ascending_cons.1 h
    rw [SortedKeys.insertKey]
    split_ifs with hbefore hafter
    · refine ascending_cons.2 ⟨fun b hb => ?_, h⟩
      rw [hfresh]
      rcases List.mem_cons.1 hb with rfl | hb
      · exact hbefore
      · exact hbefore.trans (hless b hb)
    · refine ascending_cons.2 ⟨fun b hb => ?_, ih hl⟩
      rcases key_insertKey hfresh hchange hb with hk | ⟨c, hc, hkey⟩
      · rwa [hk]
      · rw [hkey]
        exact hless c hc
    · have hk : key a = k := le_antisymm (not_lt.1 hbefore) (not_lt.1 hafter)
      refine ascending_cons.2 ⟨fun b hb => ?_, hl⟩
      rw [hchange a hk, ← hk]
      exact hless b hb

lemma seekKey_insertKey (k' : κ) : seekKey key k' (insertKey key k fresh change l) =
    if k' = k then some ((seekKey key k l).elim fresh change) else seekKey key k' l := by
  have hfirst : ∀ rest : List α, seekKey key k' (fresh :: rest) =
      if k < k' then seekKey key k' rest else if k' < k then none else some fresh := by
    intro rest
    rw [seekKey, hfresh]
  induction l with
  | nil =>
    rw [insertKey, hfirst]
    rcases lt_trichotomy k k' with hless | rfl | hless
    · simp [seekKey, hless, hless.ne']
    · simp [seekKey]
    · simp [seekKey, hless.asymm, hless, hless.ne]
  | cons a l ih =>
    rw [insertKey]
    rcases lt_trichotomy k (key a) with hbefore | hk | hafter
    · rw [if_pos hbefore, hfirst]
      rcases lt_trichotomy k k' with hless | rfl | hless
      · rw [if_pos hless, if_neg hless.ne']
      · simp [seekKey, hbefore, hbefore.asymm]
      · have hnone : seekKey key k' (a :: l) = none := by
          rw [seekKey, if_neg (hless.trans hbefore).asymm, if_pos (hless.trans hbefore)]
        rw [if_neg hless.asymm, if_pos hless, if_neg hless.ne, hnone]
    · rw [if_neg hk.not_lt, if_neg hk.not_gt, seekKey, hchange a hk.symm, seekKey, ← hk]
      by_cases hsame : k' = k
      · subst hsame
        simp [hk]
      · rw [if_neg hsame, seekKey, ← hk]
        rcases lt_or_gt_of_ne hsame with hless | hless
        · simp [hless, hless.asymm]
        · simp [hless]
    · rw [if_neg hafter.asymm, if_pos hafter, seekKey, ih]
      by_cases hsame : k' = k
      · subst hsame
        rw [if_pos hafter, if_pos rfl, if_pos rfl, seekKey, if_pos hafter]
      · rw [if_neg hsame, if_neg hsame, seekKey]

lemma keySet_insertKey (h : Ascending key l) :
    keySet key (insertKey key k fresh change l) = insert k (keySet key l) := by
  ext k'
  rw [← seekKey_isSome_iff (h.insertKey hfresh hchange), seekKey_insertKey hfresh hchange, Set.mem_insert_iff,
    ← seekKey_isSome_iff h]
  split_ifs with hk
  · simp [hk]
  · simp [hk]

end

lemma mem_of_mem_removeKey {b : α} (hmem : b ∈ removeKey key k l) : b ∈ l := by
  induction l with
  | nil => exact hmem
  | cons a l ih =>
    rw [removeKey] at hmem
    split_ifs at hmem
    · exact hmem
    · rcases List.mem_cons.1 hmem with rfl | hmem
      · exact List.mem_cons_self
      · exact List.mem_cons_of_mem a (ih hmem)
    · exact List.mem_cons_of_mem a hmem

lemma Ascending.removeKey (h : Ascending key l) : Ascending key (removeKey key k l) := by
  induction l with
  | nil => exact h
  | cons a l ih =>
    obtain ⟨hless, hl⟩ := ascending_cons.1 h
    rw [SortedKeys.removeKey]
    split_ifs
    · exact h
    · exact ascending_cons.2 ⟨fun b hb => hless b (mem_of_mem_removeKey hb), ih hl⟩
    · exact hl

lemma seekKey_removeKey (h : Ascending key l) (k' : κ) :
    seekKey key k' (removeKey key k l) = if k' = k then none else seekKey key k' l := by
  induction l with
  | nil => simp [removeKey, seekKey]
  | cons a l ih =>
    obtain ⟨hless, hl⟩ := ascending_cons.1 h
    rw [removeKey]
    rcases lt_trichotomy k (key a) with hbefore | rfl | hafter
    · rw [if_pos hbefore]
      by_cases hsame : k' = k
      · subst hsame
        rw [if_pos rfl, seekKey, if_neg hbefore.asymm, if_pos hbefore]
      · rw [if_neg hsame]
    · rw [if_neg (lt_irrefl _), if_neg (lt_irrefl _), seekKey]
      rcases lt_trichotomy k' (key a) with hsmall | rfl | hlarge
      · rw [if_neg hsmall.ne, if_neg hsmall.asymm, if_pos hsmall]
        exact seekKey_eq_none fun b hb => hsmall.trans (hless b hb)
      · rw [if_pos rfl]
        exact seekKey_eq_none hless
      · rw [if_neg hlarge.ne', if_pos hlarge]
    · rw [if_neg hafter.asymm, if_pos hafter, seekKey, ih hl, seekKey]
      by_cases hsame : k' = k
      · subst hsame
        rw [if_pos hafter, if_pos rfl, if_pos rfl]
      · rw [if_neg hsame, if_neg hsame]

/-- The members of a set that are nearest to a point, from below and from above; beyond an end of the
set it is this end. -/
structure Brackets (s : Set κ) (k lower upper : κ) : Prop where
  lower : IsGreatest {x ∈ s | x ≤ k} lower ∨ (∀ x ∈ s, k < x) ∧ IsLeast s lower
  upper : IsLeast {x ∈ s | k ≤ x} upper ∨ (∀ x ∈ s, x < k) ∧ IsGreatest s upper

lemma Brackets.unique {s : Set κ} {lower upper lower' upper' : κ} (h : Brackets s k lower upper)
    (h' : Brackets s k lower' upper') : lower = lower' ∧ upper = upper' := by
  constructor
  · rcases h.lower with hgreatest | ⟨hall, hleast⟩ <;> rcases h'.lower with hgreatest' | ⟨hall', hleast'⟩
    · exact hgreatest.unique hgreatest'
    · exact absurd (hall' _ hgreatest.1.1) (not_lt.2 hgreatest.1.2)
    · exact absurd (hall _ hgreatest'.1.1) (not_lt.2 hgreatest'.1.2)
    · exact hleast.unique hleast'
  · rcases h.upper with hleast | ⟨hall, hgreatest⟩ <;> rcases h'.upper with hleast' | ⟨hall', hgreatest'⟩
    · exact hleast.unique hleast'
    · exact absurd (hall' _ hleast.1.1) (not_lt.2 hleast.1.2)
    · exact absurd (hall _ hleast'.1.1) (not_lt.2 hleast'.1.2)
    · exact hgreatest.unique hgreatest'

lemma Brackets.of_isLeast {s : Set κ} {first : κ} (h : IsLeast s first) (hk : k ≤ first) :
    Brackets s k first first := by
  refine ⟨?_, .inl ⟨⟨h.1, hk⟩, fun x hx => h.2 hx.1⟩⟩
  rcases hk.lt_or_eq with hless | rfl
  · exact .inr ⟨fun x hx => hless.trans_le (h.2 hx), h⟩
  · exact .inl ⟨⟨h.1, le_rfl⟩, fun x hx => hx.2⟩

lemma Brackets.of_isGreatest {s : Set κ} {last : κ} (h : IsGreatest s last) (hk : last ≤ k) :
    Brackets s k last last := by
  refine ⟨.inl ⟨⟨h.1, hk⟩, fun x hx => h.2 hx.1⟩, ?_⟩
  rcases hk.lt_or_eq with hless | rfl
  · exact .inr ⟨fun x hx => (h.2 hx).trans_lt hless, h⟩
  · exact .inl ⟨⟨h.1, le_rfl⟩, fun x hx => hx.2⟩

lemma Brackets.of_mem {s : Set κ} (h : k ∈ s) : Brackets s k k k :=
  ⟨.inl ⟨⟨h, le_rfl⟩, fun _ hx => hx.2⟩, .inl ⟨⟨h, le_rfl⟩, fun _ hx => hx.2⟩⟩

section

variable {before after : List α} {b c : α}

lemma isLeast_first (h : Ascending key (a :: l)) : IsLeast (keySet key (a :: l)) (key a) := by
  refine ⟨⟨a, List.mem_cons_self, rfl⟩, ?_⟩
  rintro x ⟨b, hb, rfl⟩
  rcases List.mem_cons.1 hb with rfl | hb
  · exact le_rfl
  · exact ((ascending_cons.1 h).1 b hb).le

lemma isGreatest_last (h : Ascending key (before ++ [b])) :
    IsGreatest (keySet key (before ++ [b])) (key b) := by
  refine ⟨⟨b, by simp, rfl⟩, ?_⟩
  rintro x ⟨a, ha, rfl⟩
  rcases List.mem_append.1 ha with ha | ha
  · exact ((List.pairwise_append.1 h).2.2 a ha b (List.mem_singleton_self b)).le
  · rw [List.mem_singleton.1 ha]

lemma Brackets.of_split (h : Ascending key (before ++ b :: c :: after)) (hb : key b < k)
    (hc : k < key c) :
    Brackets (keySet key (before ++ b :: c :: after)) k (key b) (key c) := by
  have hbefore : Ascending key (before ++ [b]) := h.sublist (by simp)
  have hafter : Ascending key (c :: after) := h.sublist (by simp)
  have hsplit : ∀ x ∈ keySet key (before ++ b :: c :: after), x ∈ keySet key (before ++ [b]) ∨
      x ∈ keySet key (c :: after) := by
    rintro x ⟨a, ha, rfl⟩
    rcases List.mem_append.1 ha with ha | ha
    · exact .inl ⟨a, List.mem_append_left _ ha, rfl⟩
    · rcases List.mem_cons.1 ha with rfl | ha
      · exact .inl ⟨a, by simp, rfl⟩
      · exact .inr ⟨a, ha, rfl⟩
  have hlast := isGreatest_last hbefore
  have hfirst := isLeast_first hafter
  constructor
  · refine .inl ⟨⟨⟨b, by simp, rfl⟩, hb.le⟩, ?_⟩
    rintro x ⟨hx, hle⟩
    rcases hsplit x hx with hx | hx
    · exact hlast.2 hx
    · exact absurd hle (not_le.2 (hc.trans_le (hfirst.2 hx)))
  · refine .inl ⟨⟨⟨c, by simp, rfl⟩, hc.le⟩, ?_⟩
    rintro x ⟨hx, hle⟩
    rcases hsplit x hx with hx | hx
    · exact absurd hle (not_le.2 ((hlast.2 hx).trans_lt hb))
    · exact hfirst.2 hx

end

end SortedKeys
