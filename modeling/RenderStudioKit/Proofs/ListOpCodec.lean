import RenderStudioKit.Proofs.EventCodec

/-!
# List edits

The message of a list edit has the six lists but not the mode, which the decoder takes from the list
of explicit items. A reference is sent without its custom data.
-/

namespace RenderStudioKit.Proofs

open Codec

section

variable [Usd]

/-- What USD keeps of every list edit: in the explicit mode there are only explicit items, and
otherwise there are none. -/
structure IsListOp {T : Type} (op : SdfListOp T) : Prop where
  explicit : op.isExplicit = true → op.addedItems = [] ∧ op.prependedItems = [] ∧
    op.appendedItems = [] ∧ op.deletedItems = [] ∧ op.orderedItems = []
  edits : op.isExplicit = false → op.explicitItems = []

/-- An explicit list edit has explicit items. -/
def KeepsMode {T : Type} (op : SdfListOp T) : Prop :=
  op.isExplicit = true → op.explicitItems ≠ []

omit [Usd] in
lemma isListOp_cases {T : Type} {op : SdfListOp T} (h : IsListOp op) (hadded : op.addedItems = [])
    (hordered : op.orderedItems = []) :
    op = .createExplicit op.explicitItems ∨
      op = .create op.prependedItems op.appendedItems op.deletedItems := by
  obtain ⟨isExplicit, explicitItems, addedItems, prependedItems, appendedItems, deletedItems,
    orderedItems⟩ := op
  obtain rfl : addedItems = [] := hadded
  obtain rfl : orderedItems = [] := hordered
  cases isExplicit with
  | true =>
    obtain ⟨-, hprepended, happended, hdeleted, -⟩ := h.explicit rfl
    left
    simp only at hprepended happended hdeleted
    rw [hprepended, happended, hdeleted, SdfListOp.createExplicit]
  | false =>
    have hexplicit := h.edits rfl
    right
    simp only at hexplicit
    rw [hexplicit, SdfListOp.create]

section

variable {T : Type} {enc : T → Json} {dec : Json → Except Fault T} {norm : T → T}

lemma listOp_decoded (hdec : ∀ item, dec (enc item) = .ok (norm item)) (op : SdfListOp T) :
    SdfListOp.ofJson dec (op.toJson enc) = .ok
      (if op.explicitItems ≠ [] then .createExplicit (op.explicitItems.map norm)
      else .create (op.prependedItems.map norm) (op.appendedItems.map norm)
        (op.deletedItems.map norm)) := by
  have hitems : ∀ items, (Json.ofList enc items).toList dec = .ok (items.map norm) :=
    fun _ => toList_ofList_map fun item _ => hdec item
  simp only [SdfListOp.ofJson, SdfListOp.toJson, Json.valueAt, Json.asObject, Json.memberAt,
    List.lookup_cons, hitems, ok_bind, String.reduceBEq, ne_eq, List.map_eq_nil_iff]
  split_ifs <;> rfl

omit [Usd] in
lemma map_norm_eq_iff (norm : T → T) (items : List T) :
    items.map norm = items ↔ ∀ item ∈ items, norm item = item := by
  have h := List.map_inj_left (l := items) (f := norm) (g := id)
  rwa [List.map_id] at h

lemma listOp_restored_iff (hdec : ∀ item, dec (enc item) = .ok (norm item)) {op : SdfListOp T}
    (h : IsListOp op) (hadded : op.addedItems = []) (hordered : op.orderedItems = []) :
    SdfListOp.ofJson dec (op.toJson enc) = .ok op ↔
      KeepsMode op ∧ AllItems (fun item => norm item = item) op := by
  rw [listOp_decoded hdec, Except.ok.injEq]
  unfold KeepsMode AllItems
  rcases isListOp_cases h hadded hordered with hop | hop
  · rw [hop]
    by_cases hempty : op.explicitItems = []
    · simp [SdfListOp.createExplicit, SdfListOp.create, hempty]
    · simp [SdfListOp.createExplicit, hempty, map_norm_eq_iff]
  · rw [hop]
    simp only [SdfListOp.create, ne_eq, not_true, if_false, SdfListOp.mk.injEq, true_and, and_true,
      map_norm_eq_iff, Bool.false_eq_true, false_implies, List.not_mem_nil, false_or, or_imp,
      forall_and]

end

/-- The reference without its custom data. -/
def withoutCustomData (v : SdfReference VtValue) : SdfReference VtValue :=
  { v with customData := [] }

lemma reference_decoded (laws : UsdLaws) (v : SdfReference VtValue) :
    SdfReference.ofJson v.toJson = .ok (withoutCustomData v) :=
  reference_roundtrip laws (v := withoutCustomData v) rfl

lemma withoutCustomData_eq_iff (v : SdfReference VtValue) :
    withoutCustomData v = v ↔ v.customData = [] := by
  obtain ⟨assetPath, primPath, layerOffset, customData⟩ := v
  simp [withoutCustomData, eq_comm]

omit [Usd] in
lemma allItems_self {T : Type} (op : SdfListOp T) : AllItems (fun item => id item = item) op :=
  fun _ _ => rfl

/-- List edits of paths and tokens are restored exactly if they are not explicit and empty; list
edits of references exactly if, moreover, none of the references has custom data. -/
theorem listOp_codec_exact (laws : UsdLaws) :
    (∀ op : SdfListOp SdfPath, IsListOp op → op.addedItems = [] → op.orderedItems = [] →
      (SdfListOp.ofJson SdfPath.ofJson (op.toJson SdfPath.toJson) = .ok op ↔ KeepsMode op)) ∧
    (∀ op : SdfListOp TfToken, IsListOp op → op.addedItems = [] → op.orderedItems = [] →
      (SdfListOp.ofJson Json.toString (op.toJson .string) = .ok op ↔ KeepsMode op)) ∧
    ∀ op : SdfListOp (SdfReference VtValue), IsListOp op → op.addedItems = [] →
      op.orderedItems = [] →
      (SdfListOp.ofJson SdfReference.ofJson (op.toJson SdfReference.toJson) = .ok op ↔
        KeepsMode op ∧ AllItems (fun item => item.customData = []) op) := by
  have hpath : ∀ path, SdfPath.ofJson (SdfPath.toJson path) = .ok (id path) := path_roundtrip laws
  have htoken : ∀ token : TfToken, (Json.string token).toString = .ok (id token) := toString_string
  refine ⟨fun op h hadded hordered => ?_, fun op h hadded hordered => ?_,
    fun op h hadded hordered => ?_⟩
  · rw [listOp_restored_iff hpath h hadded hordered]
    exact and_iff_left (allItems_self op)
  · rw [listOp_restored_iff htoken h hadded hordered]
    exact and_iff_left (allItems_self op)
  · rw [listOp_restored_iff (reference_decoded laws) h hadded hordered]
    simp only [withoutCustomData_eq_iff]

end

section

attribute [local instance] Usd.sample

/-- A reference with the given custom data. -/
def referenceWith (customData : List (String × VtValue)) : SdfReference VtValue :=
  ⟨"a.usd", "/a", ⟨(0 : Int), (1 : Int)⟩, customData⟩

/-- A list edit of paths is restored, the one that clears a list of tokens is not, and of two
references the one with custom data is not. -/
theorem listOp_codec_exact_sample :
    let paths : SdfListOp SdfPath := .create ["/a"] ["/b", "/c"] ["/d"]
    let clear : SdfListOp TfToken := .createExplicit []
    let reference (customData : List (String × VtValue)) : SdfListOp (SdfReference VtValue) :=
      .createExplicit [referenceWith customData]
    SdfListOp.ofJson SdfPath.ofJson (paths.toJson SdfPath.toJson) = .ok paths ∧
      SdfListOp.ofJson Json.toString (clear.toJson .string) ≠ .ok clear ∧
      SdfListOp.ofJson SdfReference.ofJson ((reference []).toJson SdfReference.toJson) =
        .ok (reference []) ∧
      SdfListOp.ofJson SdfReference.ofJson
          ((reference [("key", .string "value")]).toJson SdfReference.toJson) ≠
        .ok (reference [("key", .string "value")]) := by
  intro paths clear reference
  have hexplicit {T : Type} (items : List T) : IsListOp (SdfListOp.createExplicit items) :=
    ⟨fun _ => ⟨rfl, rfl, rfl, rfl, rfl⟩, by simp [SdfListOp.createExplicit]⟩
  have hitems (item : SdfReference VtValue) : KeepsMode (.createExplicit [item]) :=
    fun _ => List.cons_ne_nil _ _
  obtain ⟨hpaths, htokens, hreferences⟩ := listOp_codec_exact sample_laws
  refine ⟨?_, ?_, ?_, ?_⟩
  · have hedit : IsListOp paths := ⟨by simp [paths, SdfListOp.create], fun _ => rfl⟩
    exact (hpaths paths hedit rfl rfl).2 (by simp [KeepsMode, paths, SdfListOp.create])
  · intro h
    exact (htokens clear (hexplicit []) rfl rfl).1 h rfl rfl
  · refine (hreferences (reference []) (hexplicit _) rfl rfl).2 ⟨hitems _, fun item hitem => ?_⟩
    simp only [reference, SdfListOp.createExplicit, List.mem_singleton, List.not_mem_nil, or_false]
      at hitem
    rw [hitem, referenceWith]
  · intro h
    have hdata := ((hreferences (reference _) (hexplicit _) rfl rfl).1 h).2
      (referenceWith [("key", .string "value")]) (.inl List.mem_cons_self)
    exact absurd hdata (List.cons_ne_nil _ _)

/-- The edit that clears a list arrives as one that changes nothing, and a prepended reference loses
its custom data. -/
theorem clearing_edit_lost :
    let clear : SdfListOp TfToken := .createExplicit []
    let reference : SdfListOp (SdfReference VtValue) :=
      .create [referenceWith [("key", .string "value")]] [] []
    SdfListOp.ofJson Json.toString (clear.toJson .string) = .ok (.create [] [] []) ∧
      (.create [] [] [] : SdfListOp TfToken).isExplicit ≠ clear.isExplicit ∧
      SdfListOp.ofJson SdfReference.ofJson (reference.toJson SdfReference.toJson) =
        .ok (.create [referenceWith []] [] []) ∧
      SdfListOp.create [referenceWith []] [] [] ≠ reference := by
  intro clear reference
  refine ⟨rfl, by decide, rfl, fun h => ?_⟩
  have hitems := congrArg (fun op => op.prependedItems.map (·.customData.length)) h
  exact absurd hitems (by decide)

end

end RenderStudioKit.Proofs
