import Mathlib.Data.List.Basic

/-!
# Fallible codecs

Encoders and decoders are functions into `Except`. The rules below carry a property of
the codec of the items to the codec of a list of items.
-/

namespace Codec

variable {ε α β : Type}

@[simp] lemma ok_bind (a : α) (f : α → Except ε β) : (Except.ok a >>= f) = f a := rfl

@[simp] lemma error_bind (e : ε) (f : α → Except ε β) :
    ((Except.error e : Except ε α) >>= f) = .error e := rfl

@[simp] lemma map_ok (f : α → β) (a : α) : f <$> (Except.ok a : Except ε α) = .ok (f a) := rfl

@[simp] lemma map_error (f : α → β) (e : ε) :
    f <$> (Except.error e : Except ε α) = .error e := rfl

lemma bind_eq_ok {x : Except ε α} {f : α → Except ε β} {b : β} :
    (x >>= f) = .ok b ↔ ∃ a, x = .ok a ∧ f a = .ok b := by
  cases x <;> simp

lemma map_eq_ok {x : Except ε α} {f : α → β} {b : β} :
    f <$> x = .ok b ↔ ∃ a, x = .ok a ∧ f a = b := by
  cases x <;> simp

lemma mapM_map_ok {enc : α → β} {dec : β → Except ε α} {norm : α → α} {items : List α}
    (h : ∀ a ∈ items, dec (enc a) = .ok (norm a)) :
    (items.map enc).mapM dec = .ok (items.map norm) := by
  induction items with
  | nil => rfl
  | cons a items ih =>
    rw [List.map_cons, List.mapM_cons, h a List.mem_cons_self,
      ih fun b hb => h b (List.mem_cons_of_mem a hb)]
    rfl

lemma mapM_roundtrip {enc : α → Except ε β} {dec : β → Except ε α} {items : List α}
    (h : ∀ a ∈ items, ∃ b, enc a = .ok b ∧ dec b = .ok a) :
    ∃ encoded, items.mapM enc = .ok encoded ∧ encoded.mapM dec = .ok items := by
  induction items with
  | nil => exact ⟨[], rfl, rfl⟩
  | cons a items ih =>
    obtain ⟨b, henc, hdec⟩ := h a List.mem_cons_self
    obtain ⟨encoded, hencs, hdecs⟩ := ih fun c hc => h c (List.mem_cons_of_mem a hc)
    refine ⟨b :: encoded, ?_, ?_⟩
    · rw [List.mapM_cons, henc, hencs]
      rfl
    · rw [List.mapM_cons, hdec, hdecs]
      rfl

lemma mapM_ok {enc : α → Except ε β} {items : List α} (h : ∀ a ∈ items, ∃ b, enc a = .ok b) :
    ∃ encoded, items.mapM enc = .ok encoded := by
  induction items with
  | nil => exact ⟨[], rfl⟩
  | cons a items ih =>
    obtain ⟨b, hb⟩ := h a List.mem_cons_self
    obtain ⟨encoded, hencoded⟩ := ih fun c hc => h c (List.mem_cons_of_mem a hc)
    exact ⟨b :: encoded, by rw [List.mapM_cons, hb, hencoded]; rfl⟩

lemma ok_of_mapM_eq_ok {enc : α → Except ε β} {items : List α} {encoded : List β}
    (h : items.mapM enc = .ok encoded) {a : α} (ha : a ∈ items) : ∃ b, enc a = .ok b := by
  induction items generalizing encoded with
  | nil => exact absurd ha List.not_mem_nil
  | cons a' items ih =>
    rw [List.mapM_cons] at h
    obtain ⟨b, hb, h⟩ := bind_eq_ok.1 h
    obtain ⟨encoded', hencoded', -⟩ := bind_eq_ok.1 h
    rcases List.mem_cons.1 ha with rfl | hmem
    · exact ⟨b, hb⟩
    · exact ih hencoded' hmem

lemma foldlM_keep {step : α → β → Except ε α} {Inv : α → Prop} {items : List β}
    (keep : ∀ a, ∀ b ∈ items, ∀ a', Inv a → step a b = .ok a' → Inv a') {a a' : α}
    (ha : Inv a) (h : items.foldlM step a = .ok a') : Inv a' := by
  induction items generalizing a with
  | nil =>
    obtain rfl : a = a' := Except.ok.inj h
    exact ha
  | cons b items ih =>
    rw [List.foldlM_cons] at h
    obtain ⟨a₁, hstep, hrest⟩ := bind_eq_ok.1 h
    refine ih ?_ (keep a b List.mem_cons_self a₁ ha hstep) hrest
    exact fun a b hb => keep a b (List.mem_cons_of_mem _ hb)

lemma mem_of_mapM_eq_ok {dec : β → Except ε α} {encoded : List β} {items : List α}
    (h : encoded.mapM dec = .ok items) {a : α} (ha : a ∈ items) :
    ∃ b ∈ encoded, dec b = .ok a := by
  induction encoded generalizing items with
  | nil =>
    obtain rfl : [] = items := Except.ok.inj h
    exact absurd ha List.not_mem_nil
  | cons b encoded ih =>
    rw [List.mapM_cons] at h
    obtain ⟨a', ha', h⟩ := bind_eq_ok.1 h
    obtain ⟨items', hitems', h⟩ := bind_eq_ok.1 h
    obtain rfl : a' :: items' = items := Except.ok.inj h
    rcases List.mem_cons.1 ha with rfl | hmem
    · exact ⟨b, List.mem_cons_self, ha'⟩
    · obtain ⟨b', hb', hdec⟩ := ih hitems' hmem
      exact ⟨b', List.mem_cons_of_mem b hb', hdec⟩

end Codec
