import Mathlib.Data.List.AList

/-!
# Association lists with distinct keys

Additions to `AList` for tables that are enumerated in an unspecified order: a fold whose
steps each touch the slot of their own key only, bulk insertion, and mapping the values.
-/

namespace AList

variable {κ : Type*} {V W σ γ : Type*} [DecidableEq κ]

/-- A fold over a list of entries with distinct keys, seen at the slot `k` of its state:
if a step touches only the slot of its own key, the fold acts on slot `k` as the entry of
`k` does, once, wherever that entry stands. -/
theorem foldl_slot (slot : σ → κ → γ) (step : σ → κ → V → σ) (act : κ → V → γ → γ)
    (Inv : σ → Prop) (keep : ∀ s k v, Inv s → Inv (step s k v))
    (own : ∀ s k v, Inv s → slot (step s k v) k = act k v (slot s k))
    (others : ∀ s k v k', Inv s → k' ≠ k → slot (step s k v) k' = slot s k')
    (t : AList (fun _ : κ => V)) (s : σ) (hs : Inv s) (k : κ) :
    slot (t.entries.foldl (fun s e => step s e.1 e.2) s) k =
      (t.lookup k).elim (slot s k) fun v => act k v (slot s k) := by
  obtain ⟨entries, nodup⟩ := t
  change _ = (entries.dlookup k).elim _ _
  induction entries generalizing s with
  | nil => rfl
  | cons e entries ih =>
    obtain ⟨k₀, v₀⟩ := e
    obtain ⟨hnew, htail⟩ := List.nodupKeys_cons.1 nodup
    change slot (entries.foldl (fun s e => step s e.1 e.2) (step s k₀ v₀)) k = _
    rw [ih (step s k₀ v₀) (keep s k₀ v₀ hs) htail]
    by_cases hk : k = k₀
    · subst hk
      have hnone : entries.dlookup k = none := List.dlookup_eq_none.2 hnew
      rw [hnone, List.dlookup_cons_eq]
      exact own s k v₀ hs
    · rw [List.dlookup_cons_ne _ _ hk, others s k₀ v₀ k hs hk]

omit [DecidableEq κ] in
theorem foldl_entries_keep (step : σ → κ → V → σ) (Inv : σ → Prop)
    (keep : ∀ s k v, Inv s → Inv (step s k v)) (t : AList (fun _ : κ => V)) (s : σ)
    (hs : Inv s) : Inv (t.entries.foldl (fun s e => step s e.1 e.2) s) := by
  generalize t.entries = entries
  induction entries generalizing s with
  | nil => exact hs
  | cons e entries ih => exact ih _ (keep s e.1 e.2 hs)

/-- After a list of insertions a key has one of the values inserted for it, or what it had. -/
theorem lookup_foldl_insert (l : List (κ × V)) (m : AList (fun _ : κ => V)) (k : κ) :
    (∃ v, (k, v) ∈ l ∧ (l.foldl (fun m e => m.insert e.1 e.2) m).lookup k = some v) ∨
      (k ∉ l.map Prod.fst ∧
        (l.foldl (fun m e => m.insert e.1 e.2) m).lookup k = m.lookup k) := by
  induction l generalizing m with
  | nil => exact .inr ⟨List.not_mem_nil, rfl⟩
  | cons e l ih =>
    rw [List.foldl_cons]
    rcases ih (m.insert e.1 e.2) with ⟨v, hmem, hlookup⟩ | ⟨hnot, hlookup⟩
    · exact .inl ⟨v, List.mem_cons_of_mem e hmem, hlookup⟩
    · by_cases hk : k = e.1
      · subst hk
        exact .inl ⟨e.2, List.mem_cons_self, hlookup.trans (lookup_insert m)⟩
      · refine .inr ⟨?_, hlookup.trans (lookup_insert_ne hk)⟩
        rw [List.map_cons, List.mem_cons, not_or]
        exact ⟨hk, hnot⟩

/-- Grouping a list by a key: a group has the values of its key in the order of the list, and only
keys of the list get one. -/
theorem lookup_foldl_group (key : V → κ) (l : List V) (m : AList (fun _ : κ => List V)) (k : κ) :
    (l.foldl (fun m v => m.insert (key v) ((m.lookup (key v)).getD [] ++ [v])) m).lookup k =
      if l.filter (fun v => key v = k) = [] then m.lookup k
      else some ((m.lookup k).getD [] ++ l.filter (fun v => key v = k)) := by
  induction l generalizing m with
  | nil => simp
  | cons v l ih =>
    rw [List.foldl_cons, ih]
    by_cases hk : key v = k
    · have hfilter : (v :: l).filter (fun v => key v = k) = v :: l.filter (fun v => key v = k) :=
        List.filter_cons_of_pos (by simpa using hk)
      rw [hfilter, hk, lookup_insert, if_neg (List.cons_ne_nil _ _)]
      split_ifs with hempty
      · rw [hempty]
      · simp
    · have hfilter : (v :: l).filter (fun v => key v = k) = l.filter (fun v => key v = k) :=
        List.filter_cons_of_neg (by simpa using hk)
      rw [hfilter, lookup_insert_ne fun h => hk h.symm]

/-- The table with every value changed by a function of its key and value. -/
def mapVal (f : κ → V → W) (t : AList (fun _ : κ => V)) : AList (fun _ : κ => W) where
  entries := t.entries.map fun e => ⟨e.1, f e.1 e.2⟩
  nodupKeys := t.nodupKeys.map₂ f

@[simp] theorem lookup_mapVal (f : κ → V → W) (t : AList (fun _ : κ => V)) (k : κ) :
    (t.mapVal f).lookup k = (t.lookup k).map (f k) :=
  List.dlookup_map₂ k

theorem length_erase_lt {t : AList (fun _ : κ => V)} {k : κ} (h : k ∈ t) :
    (t.erase k).entries.length < t.entries.length := by
  have hkeys : (t.erase k).keys.length < t.keys.length := by
    rw [keys_erase, List.length_erase_of_mem (mem_keys.1 h)]
    exact Nat.pred_lt (by rw [← Nat.pos_iff_ne_zero]; exact List.length_pos_of_mem (mem_keys.1 h))
  simpa [keys, List.keys] using hkeys

end AList
