import RenderStudioKit.Lib.FirstOccurrences
import RenderStudioKit.Proofs.Children
import RenderStudioKit.Proofs.RemoteRemoval

/-!
# The merged list of children

`ApplyDelta` merges the children of an unacknowledged path: the remote list comes first, the local
names that it does not have come behind it, and every name is listed once. Further lists only add
names, so the children do not depend on the order in which the lists arrive.
-/

namespace RenderStudioKit.Proofs

open FirstOccurrences

/-- `merged` has every name of the two lists once: those of `remote` first, in the order of their
first occurrence, then the remaining ones in the order of their first occurrence in `local'`. -/
structure OrderedUnion (remote local' merged : List TfToken) : Prop where
  nodup : merged.Nodup
  mem : ∀ name, name ∈ merged ↔ name ∈ remote ∨ name ∈ local'
  remoteOrder : ∀ a ∈ remote, ∀ b ∈ remote,
    (merged.idxOf a < merged.idxOf b ↔ remote.idxOf a < remote.idxOf b)
  remoteFirst : ∀ a ∈ remote, ∀ b ∈ local', b ∉ remote → merged.idxOf a < merged.idxOf b
  localOrder : ∀ a ∈ local', a ∉ remote → ∀ b ∈ local', b ∉ remote →
    (merged.idxOf a < merged.idxOf b ↔ local'.idxOf a < local'.idxOf b)

lemma deduplicate_eq (seen tokens : List TfToken) :
    deduplicate seen tokens = (tokens.removeAll seen).eraseDups := by
  induction tokens generalizing seen with
  | nil => rfl
  | cons token tokens ih =>
    unfold deduplicate
    by_cases hseen : token ∈ seen
    · have hrest : (token :: tokens).removeAll seen = tokens.removeAll seen := by
        simp [List.removeAll, hseen]
      rw [if_pos hseen, ih, hrest]
    · have hrest : (token :: tokens).removeAll seen = token :: tokens.removeAll seen := by
        simp [List.removeAll, hseen]
      have hfilter : (tokens.removeAll seen).filter (fun name => !name == token) =
          tokens.removeAll (token :: seen) := by
        rw [List.removeAll, List.removeAll, List.filter_filter]
        refine List.filter_congr fun name _ => ?_
        by_cases hname : name = token <;> simp [hname]
      rw [if_neg hseen, ih, hrest, List.eraseDups_cons, hfilter]

lemma deduplicate_nil (tokens : List TfToken) : deduplicate [] tokens = tokens.eraseDups := by
  rw [deduplicate_eq, List.removeAll_nil]

lemma orderedUnion (remote local' : List TfToken) :
    OrderedUnion remote local' (deduplicate [] (remote ++ local')) := by
  rw [deduplicate_nil]
  refine ⟨nodup_eraseDups _, fun name => ?_, fun a ha b hb => ?_, fun a ha b hb hnot => ?_,
    fun a ha ha' b hb hb' => ?_⟩
  · rw [List.mem_eraseDups, List.mem_append]
  · rw [idxOf_eraseDups_lt_iff (List.mem_append_left _ ha) (List.mem_append_left _ hb),
      List.idxOf_append_of_mem ha, List.idxOf_append_of_mem hb]
  · rw [idxOf_eraseDups_lt_iff (List.mem_append_left _ ha) (List.mem_append_right _ hb),
      List.idxOf_append_of_mem ha, List.idxOf_append_of_notMem hnot]
    exact Nat.lt_add_right _ (List.idxOf_lt_length_of_mem ha)
  · rw [idxOf_eraseDups_lt_iff (List.mem_append_right _ ha) (List.mem_append_right _ hb),
      List.idxOf_append_of_notMem ha', List.idxOf_append_of_notMem hb', Nat.add_lt_add_iff_left]

section

variable [Usd]

/-- The fields of a delta are stored at the path: it has a spec, or the delta creates one. -/
def TakesFields (s : UpdateState) (path : SdfPath) (specType : SdfSpecType) : Prop :=
  s.data.hasSpec path = true ∨ specType ≠ .unknown

/-- A list of children arrives. -/
def mergeChildren (path : SdfPath) (s : UpdateState) (delta : VtValue × SdfSpecType) :
    UpdateState :=
  applyDelta s path SdfChildrenKeys.primChildren delta.1 delta.2

/-- The names that a path has after the lists of `deltas` have arrived one after another. -/
def childrenAfter (path : SdfPath) (s : UpdateState) (deltas : List (VtValue × SdfSpecType)) :
    List TfToken :=
  childrenOf ((deltas.foldl (mergeChildren path) s).data.mData.lookup path)

lemma assignField_again (field : TfToken) (value : VtValue) (fields : List (TfToken × VtValue)) :
    assignField field value (assignField field value fields) = assignField field value fields := by
  rw [assignField_eq_self_iff, lookup_assignField, if_pos rfl]

lemma setAt_createAt_again {field : TfToken} {value : VtValue} (hvalue : value.isEmpty = false)
    (specType : SdfSpecType) (spec : Option SpecData) :
    setAt field value (createAt specType (setAt field value (createAt specType spec))) =
      setAt field value (createAt specType spec) := by
  have hcreated : createAt specType (setAt field value (createAt specType spec)) =
      setAt field value (createAt specType spec) := by
    cases hspec : createAt specType spec with
    | none =>
      have htype : specType = .unknown := by
        by_contra hne
        simpa [hspec] using createAt_known_isSome hne spec
      rw [htype, createAt_unknown]
    | some created =>
      by_cases hne : specType = .unknown
      · rw [hne, createAt_unknown]
      · have hknown : created.specType ≠ .unknown := by
          unfold createAt at hspec
          split_ifs at hspec with hmissing
          · rw [← Option.some.inj hspec]
            exact hne
          · subst hspec
            intro hunknown
            exact hmissing ⟨by simp [hunknown], hne⟩
        simp [setAt, createAt, hknown]
  rw [hcreated]
  cases createAt specType spec with
  | none => rfl
  | some created => simp [setAt, hvalue, assignField_again]

lemma isUnacknowledged_set {d : RenderStudioData} {path : SdfPath}
    (h : d.isUnacknowledged path = true) (edited : SdfPath) (field : TfToken) (value : VtValue) :
    (d.set edited field value).isUnacknowledged path = true := by
  have hassign := getOrCreateFieldValue_frame d edited field value
  have hbefore : (d.getOrCreateFieldValue edited field value).isUnacknowledged path = true :=
    (hassign.isUnacknowledged path).trans h
  unfold RenderStudioData.set RenderStudioData.setAbstract
  dsimp only
  split_ifs
  · exact ((erase_frame d edited field).isUnacknowledged path).trans h
  · exact hbefore
  · unfold RenderStudioData.getOrCreateFieldValueDelta
    split
    · exact hbefore
    · rw [RenderStudioData.isUnacknowledged, decide_eq_true_iff] at hbefore ⊢
      dsimp only
      split_ifs
      · exact hbefore
      · exact Finset.mem_insert_of_mem hbefore

section

variable {s : UpdateState} {path : SdfPath}
  (hunack : s.data.isUnacknowledged path = true) (value : VtValue) (specType : SdfSpecType)

include hunack

lemma mergeChildren_data :
    (mergeChildren path s (value, specType)).data =
      (ensureSpec s.data path specType).set path SdfChildrenKeys.primChildren
        (.tokenVector (deduplicate []
          (value.getTokenVector ++ childrenOf (s.data.mData.lookup path)))) := by
  have hskipped : skipped true path SdfChildrenKeys.primChildren = false := by simp [skipped]
  rw [mergeChildren, applyDelta_data, applyDeltaData]
  simp only [ensureSpec_isUnacknowledged, hunack, hskipped, removesSpec_primChildren,
    Bool.false_eq_true, if_false]
  rw [storedValue, if_pos ⟨rfl, rfl⟩, lookup_ensureSpec, fieldAt_createAt, childrenOf]

lemma lookup_mergeChildren :
    (mergeChildren path s (value, specType)).data.mData.lookup path =
      setAt SdfChildrenKeys.primChildren
        (.tokenVector (deduplicate []
          (value.getTokenVector ++ childrenOf (s.data.mData.lookup path))))
        (createAt specType (s.data.mData.lookup path)) := by
  rw [mergeChildren_data hunack, lookup_set, lookup_ensureSpec]

lemma lookup_mergeChildren_ne {other : SdfPath} (hother : other ≠ path) :
    (mergeChildren path s (value, specType)).data.mData.lookup other =
      s.data.mData.lookup other := by
  rw [mergeChildren_data hunack, lookup_set_ne _ _ _ hother, lookup_ensureSpec_ne _ _ hother]

lemma mergeChildren_unacknowledged :
    (mergeChildren path s (value, specType)).data.isUnacknowledged path = true := by
  rw [mergeChildren_data hunack]
  refine isUnacknowledged_set ?_ path _ _
  rw [ensureSpec_isUnacknowledged, hunack]

lemma mergeChildren_hasSpec_iff :
    (mergeChildren path s (value, specType)).data.hasSpec path = true ↔
      TakesFields s path specType := by
  rw [hasSpec_eq, lookup_mergeChildren hunack, setAt_isSome, TakesFields, hasSpec_eq]
  by_cases htype : specType = .unknown
  · simp [htype, createAt_unknown]
  · simp [htype, createAt_known_isSome]

variable {specType} (htakes : TakesFields s path specType)

include htakes

lemma stored_mergeChildren :
    (mergeChildren path s (value, specType)).data.getFieldValue path SdfChildrenKeys.primChildren =
      some (.tokenVector (deduplicate []
        (value.getTokenVector ++ childrenOf (s.data.mData.lookup path)))) := by
  have hspec := (mergeChildren_hasSpec_iff hunack value specType).2 htakes
  rw [hasSpec_eq, lookup_mergeChildren hunack, setAt_isSome] at hspec
  obtain ⟨spec, hspec⟩ := Option.isSome_iff_exists.1 hspec
  rw [getFieldValue_eq, lookup_mergeChildren hunack, fieldAt_setAt rfl, hspec]
  rfl

lemma childrenOf_mergeChildren :
    childrenOf ((mergeChildren path s (value, specType)).data.mData.lookup path) =
      deduplicate [] (value.getTokenVector ++ childrenOf (s.data.mData.lookup path)) := by
  rw [childrenOf, ← getFieldValue_eq, stored_mergeChildren hunack value htakes]
  rfl

lemma mergeChildren_again (other : SdfPath) :
    (mergeChildren path (mergeChildren path s (value, specType))
        (value, specType)).data.mData.lookup other =
      (mergeChildren path s (value, specType)).data.mData.lookup other := by
  have hunack' := mergeChildren_unacknowledged hunack value specType
  by_cases hother : other = path
  · subst hother
    rw [lookup_mergeChildren hunack', childrenOf_mergeChildren hunack value htakes, deduplicate_nil,
      deduplicate_nil, eraseDups_append_absorb, lookup_mergeChildren hunack, deduplicate_nil]
    exact setAt_createAt_again rfl specType _
  · exact lookup_mergeChildren_ne hunack' value specType hother

end

lemma mem_childrenAfter {s : UpdateState} {path : SdfPath}
    (hunack : s.data.isUnacknowledged path = true) {deltas : List (VtValue × SdfSpecType)}
    (htakes : ∀ delta ∈ deltas, TakesFields s path delta.2) (name : TfToken) :
    name ∈ childrenAfter path s deltas ↔
      name ∈ childrenOf (s.data.mData.lookup path) ∨
        ∃ delta ∈ deltas, name ∈ delta.1.getTokenVector := by
  induction deltas generalizing s with
  | nil => simp [childrenAfter]
  | cons delta deltas ih =>
    obtain ⟨value, specType⟩ := delta
    have hfirst : TakesFields s path specType := htakes _ List.mem_cons_self
    have hspec := (mergeChildren_hasSpec_iff hunack value specType).2 hfirst
    have hrest := ih (mergeChildren_unacknowledged hunack value specType)
      fun delta _ => .inl hspec
    rw [childrenAfter, List.foldl_cons, ← childrenAfter, hrest,
      childrenOf_mergeChildren hunack value hfirst, mem_deduplicate, List.mem_append]
    simp only [List.not_mem_nil, not_false_eq_true, and_true, List.mem_cons, exists_eq_or_imp]
    rw [or_assoc, or_left_comm]

/-- On an unacknowledged path a list of children is stored as the ordered union of what arrived and
what was there, and if the path has no spec and gets none, nothing is stored; the same list once
more changes nothing; and the names after any number of lists do not depend on their order. -/
theorem children_merge_union (s : UpdateState) (path : SdfPath)
    (hunack : s.data.isUnacknowledged path = true) :
    (∀ (value : VtValue) (specType : SdfSpecType),
      let s' := mergeChildren path s (value, specType)
      (¬TakesFields s path specType → s'.data.hasSpec path = false) ∧
        (TakesFields s path specType →
          (∃ merged, s'.data.getFieldValue path SdfChildrenKeys.primChildren =
              some (.tokenVector merged) ∧
            OrderedUnion value.getTokenVector (childrenOf (s.data.mData.lookup path)) merged) ∧
          ∀ other, (mergeChildren path s' (value, specType)).data.mData.lookup other =
            s'.data.mData.lookup other)) ∧
    ∀ deltas deltas' : List (VtValue × SdfSpecType), deltas.Perm deltas' →
      (∀ delta ∈ deltas, TakesFields s path delta.2) →
      ∀ name, name ∈ childrenAfter path s deltas ↔ name ∈ childrenAfter path s deltas' := by
  refine ⟨fun value specType => ⟨fun hno => ?_, fun htakes => ⟨⟨_, ?_, orderedUnion _ _⟩, ?_⟩⟩,
    fun deltas deltas' hperm htakes name => ?_⟩
  · have hspec := mt (mergeChildren_hasSpec_iff hunack value specType).1 hno
    exact Bool.not_eq_true _ ▸ hspec
  · exact stored_mergeChildren hunack value htakes
  · exact mergeChildren_again hunack value htakes
  · have htakes' : ∀ delta ∈ deltas', TakesFields s path delta.2 :=
      fun delta hdelta => htakes delta (hperm.mem_iff.2 hdelta)
    rw [mem_childrenAfter hunack htakes, mem_childrenAfter hunack htakes']
    simp only [hperm.mem_iff]

end

section

attribute [local instance] Usd.sample

/-- A prim with the children `x` and `y`, which this client edited. -/
def editedChildren : UpdateState where
  data :=
    { mData := AList.insert "/a"
        { specType := .prim, fields := [("primChildren", .tokenVector ["x", "y"])] } ∅
      mUnacknowledgedFields := {"/a"}
      mIsLoaded := true
      mIsProcessingRemoteUpdates := true }

theorem children_merge_union_sample :
    ∃ merged, (mergeChildren "/a" editedChildren
        (.tokenVector ["y", "z"], .prim)).data.getFieldValue "/a" SdfChildrenKeys.primChildren =
          some (.tokenVector merged) ∧
      OrderedUnion ["y", "z"] ["x", "y"] merged := by
  have hunack : editedChildren.data.isUnacknowledged "/a" = true := by decide
  have hmerge := (children_merge_union editedChildren "/a" hunack).1 (.tokenVector ["y", "z"]) .prim
  exact (hmerge.2 (.inr (by decide))).1

end

end RenderStudioKit.Proofs
