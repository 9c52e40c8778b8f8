import RenderStudioKit.Lib.AssocList
import RenderStudioKit.Model.Data

/-!
# Remote updates, one path at a time

Every update table is enumerated in an unspecified order. The results below say what one
table does to the spec of one path and to the membership of that path in the
unacknowledged set: `tableAt` and `stillUnacknowledged` mention the table through its
lookup at that path only, so the order of enumeration drops out of everything that
follows.
-/

namespace RenderStudioKit.Proofs

variable [Usd]

/-- The stored value of a field of one spec. -/
def fieldAt (spec : Option SpecData) (field : TfToken) : Option VtValue :=
  spec.bind fun spec => spec.fields.lookup field

/-- `CreateSpec` on a spec that `GetSpecType` does not find. -/
def createAt (specType : SdfSpecType) (spec : Option SpecData) : Option SpecData :=
  if (spec.map SpecData.specType).getD .unknown = .unknown ∧ specType ≠ .unknown then
    some { spec.getD {} with specType := specType }
  else spec

/-- `Set` on one spec. -/
def setAt (field : TfToken) (value : VtValue) (spec : Option SpecData) : Option SpecData :=
  spec.map fun spec => { spec with
    fields := if value.isEmpty then eraseField field spec.fields
      else assignField field value spec.fields }

/-- The value `ApplyDelta` stores: the merged list of children for an unacknowledged path,
the received value otherwise. -/
def storedValue (unacknowledged : Bool) (key : TfToken) (value : VtValue)
    (spec : Option SpecData) : VtValue :=
  if key = SdfChildrenKeys.primChildren ∧ unacknowledged then
    .tokenVector (deduplicate []
      (value.getTokenVector ++ ((fieldAt spec key).getD .empty).getTokenVector))
  else value

/-- The test that makes `ApplyDelta` ignore a field. -/
def skipped (unacknowledged : Bool) (path : SdfPath) (key : TfToken) : Bool :=
  unacknowledged && !requireForceApply path && decide (key ≠ SdfChildrenKeys.primChildren)

/-- `ApplyDelta` on the spec of its path. -/
def deltaAt (unacknowledged : Bool) (path : SdfPath) (key : TfToken) (value : VtValue)
    (specType : SdfSpecType) (spec : Option SpecData) : Option SpecData :=
  let spec := createAt specType spec
  if skipped unacknowledged path key then spec
  else if removesSpec key value then none
  else setAt key (storedValue unacknowledged key value spec) spec

/-- One entry of an update table on the spec of its path. -/
def entryAt (unacknowledged : Bool) (path : SdfPath) (delta : SpecData)
    (spec : Option SpecData) : Option SpecData :=
  delta.fields.foldl
    (fun spec f => deltaAt unacknowledged path f.1 f.2 delta.specType spec) spec

/-- One update table on the spec of one path. -/
def tableAt (unacknowledged : Bool) (deltas : HashTable) (path : SdfPath)
    (spec : Option SpecData) : Option SpecData :=
  match deltas.lookup path with
  | none => spec
  | some delta => entryAt unacknowledged path delta spec

/-- The table that changes one field. -/
def oneField (path : SdfPath) (specType : SdfSpecType) (key : TfToken) (value : VtValue) :
    HashTable :=
  AList.insert path { specType := specType, fields := [(key, value)] } ∅

/-- The table acknowledges the path: its entry there has no fields. -/
def Acknowledges (deltas : HashTable) (path : SdfPath) : Prop :=
  ∃ delta, deltas.lookup path = some delta ∧ delta.fields = []

/-- `d'` differs from `d` in `mData` at most. -/
structure OnlyData (d d' : RenderStudioData) : Prop where
  localDeltas : d'.mLocalDeltas = d.mLocalDeltas
  unacknowledged : d'.mUnacknowledgedFields = d.mUnacknowledgedFields
  sequence : d'.mLatestAppliedSequence = d.mLatestAppliedSequence
  queue : d'.mRemoteDeltasQueue = d.mRemoteDeltasQueue
  loaded : d'.mIsLoaded = d.mIsLoaded
  processing : d'.mIsProcessingRemoteUpdates = d.mIsProcessingRemoteUpdates

lemma OnlyData.refl (d : RenderStudioData) : OnlyData d d := ⟨rfl, rfl, rfl, rfl, rfl, rfl⟩

lemma OnlyData.trans {d d' d'' : RenderStudioData} (h : OnlyData d d') (h' : OnlyData d' d'') :
    OnlyData d d'' :=
  ⟨h'.1.trans h.1, h'.2.trans h.2, h'.3.trans h.3, h'.4.trans h.4, h'.5.trans h.5,
    h'.6.trans h.6⟩

lemma OnlyData.isUnacknowledged {d d' : RenderStudioData} (h : OnlyData d d') (path : SdfPath) :
    d'.isUnacknowledged path = d.isUnacknowledged path := by
  simp [RenderStudioData.isUnacknowledged, h.unacknowledged]

lemma getFieldValue_eq (d : RenderStudioData) (path : SdfPath) (field : TfToken) :
    d.getFieldValue path field = fieldAt (d.mData.lookup path) field := by
  unfold RenderStudioData.getFieldValue fieldAt
  cases d.mData.lookup path <;> rfl

lemma get_eq (d : RenderStudioData) (path : SdfPath) (field : TfToken) :
    d.get path field = (fieldAt (d.mData.lookup path) field).getD .empty := by
  rw [RenderStudioData.get, getFieldValue_eq]

lemma getSpecType_eq (d : RenderStudioData) (path : SdfPath) :
    d.getSpecType path = ((d.mData.lookup path).map SpecData.specType).getD .unknown := by
  unfold RenderStudioData.getSpecType
  cases d.mData.lookup path <;> rfl

lemma createSpec_frame (d : RenderStudioData) (path : SdfPath) (specType : SdfSpecType) :
    OnlyData d (d.createSpec path specType) := by
  unfold RenderStudioData.createSpec
  split <;> exact ⟨rfl, rfl, rfl, rfl, rfl, rfl⟩

lemma lookup_createSpec_ne (d : RenderStudioData) {path path' : SdfPath}
    (specType : SdfSpecType) (h : path' ≠ path) :
    (d.createSpec path specType).mData.lookup path' = d.mData.lookup path' := by
  unfold RenderStudioData.createSpec
  split
  · rfl
  · exact AList.lookup_insert_ne h

lemma lookup_createSpec (d : RenderStudioData) {path : SdfPath} (specType : SdfSpecType)
    (h : d.getSpecType path = .unknown) :
    (d.createSpec path specType).mData.lookup path =
      createAt specType (d.mData.lookup path) := by
  rw [getSpecType_eq] at h
  unfold RenderStudioData.createSpec createAt
  by_cases hs : specType = .unknown
  · simp [hs]
  · simp [hs, h]

lemma getOrCreateFieldValueDelta_mData (d : RenderStudioData) (path : SdfPath)
    (field : TfToken) (value : VtValue) :
    (d.getOrCreateFieldValueDelta path field value).mData = d.mData := by
  unfold RenderStudioData.getOrCreateFieldValueDelta
  split <;> rfl

lemma setAbstract_mData (d : RenderStudioData) (path : SdfPath) (field : TfToken)
    (value : VtValue) :
    (d.setAbstract path field value).mData = (d.getOrCreateFieldValue path field value).mData := by
  unfold RenderStudioData.setAbstract
  dsimp only
  split
  · rfl
  · rw [getOrCreateFieldValueDelta_mData]

lemma lookup_set_ne (d : RenderStudioData) {path path' : SdfPath} (field : TfToken)
    (value : VtValue) (h : path' ≠ path) :
    (d.set path field value).mData.lookup path' = d.mData.lookup path' := by
  unfold RenderStudioData.set
  split
  · unfold RenderStudioData.erase
    split
    · rfl
    · exact AList.lookup_insert_ne h
  · rw [setAbstract_mData]
    unfold RenderStudioData.getOrCreateFieldValue
    split
    · rfl
    · exact AList.lookup_insert_ne h

lemma lookup_set (d : RenderStudioData) (path : SdfPath) (field : TfToken) (value : VtValue) :
    (d.set path field value).mData.lookup path = setAt field value (d.mData.lookup path) := by
  unfold RenderStudioData.set setAt
  by_cases hv : value.isEmpty
  · unfold RenderStudioData.erase
    cases h : d.mData.lookup path <;> simp [hv, h]
  · rw [if_neg hv, setAbstract_mData]
    unfold RenderStudioData.getOrCreateFieldValue
    cases h : d.mData.lookup path <;> simp [hv, h]

lemma getOrCreateFieldValue_frame (d : RenderStudioData) (path : SdfPath) (field : TfToken)
    (value : VtValue) : OnlyData d (d.getOrCreateFieldValue path field value) := by
  unfold RenderStudioData.getOrCreateFieldValue
  split <;> exact ⟨rfl, rfl, rfl, rfl, rfl, rfl⟩

lemma erase_frame (d : RenderStudioData) (path : SdfPath) (field : TfToken) :
    OnlyData d (d.erase path field) := by
  unfold RenderStudioData.erase
  split <;> exact ⟨rfl, rfl, rfl, rfl, rfl, rfl⟩

lemma set_frame {d : RenderStudioData} (h : d.mIsProcessingRemoteUpdates = true)
    (path : SdfPath) (field : TfToken) (value : VtValue) :
    OnlyData d (d.set path field value) := by
  have hassign := getOrCreateFieldValue_frame d path field value
  unfold RenderStudioData.set RenderStudioData.setAbstract
  split
  · exact erase_frame d path field
  · simp only [hassign.processing, h, Bool.true_or, if_true]
    exact hassign

/-- The data after the first step of `ApplyDelta`. -/
def ensureSpec (d : RenderStudioData) (path : SdfPath) (specType : SdfSpecType) :
    RenderStudioData :=
  if d.getSpecType path = .unknown then d.createSpec path specType else d

lemma ensureSpec_frame (d : RenderStudioData) (path : SdfPath) (specType : SdfSpecType) :
    OnlyData d (ensureSpec d path specType) := by
  unfold ensureSpec
  split
  · exact createSpec_frame d path specType
  · exact .refl d

@[simp] lemma ensureSpec_isUnacknowledged (d : RenderStudioData) (path path' : SdfPath)
    (specType : SdfSpecType) :
    (ensureSpec d path specType).isUnacknowledged path' = d.isUnacknowledged path' :=
  (ensureSpec_frame d path specType).isUnacknowledged path'

lemma lookup_ensureSpec_ne (d : RenderStudioData) {path path' : SdfPath}
    (specType : SdfSpecType) (h : path' ≠ path) :
    (ensureSpec d path specType).mData.lookup path' = d.mData.lookup path' := by
  unfold ensureSpec
  split
  · exact lookup_createSpec_ne d specType h
  · rfl

lemma lookup_ensureSpec (d : RenderStudioData) (path : SdfPath) (specType : SdfSpecType) :
    (ensureSpec d path specType).mData.lookup path = createAt specType (d.mData.lookup path) := by
  unfold ensureSpec
  split_ifs with hs
  · exact lookup_createSpec d specType hs
  · rw [getSpecType_eq] at hs
    simp [createAt, hs]

/-- `ApplyDelta` without its notices. -/
def applyDeltaData (d : RenderStudioData) (path : SdfPath) (key : TfToken) (value : VtValue)
    (specType : SdfSpecType) : RenderStudioData :=
  let d := ensureSpec d path specType
  if skipped (d.isUnacknowledged path) path key then d
  else if removesSpec key value then
    (d.set path key (storedValue (d.isUnacknowledged path) key value
      (d.mData.lookup path))).eraseSpec path
  else d.set path key (storedValue (d.isUnacknowledged path) key value
    (d.mData.lookup path))

lemma createMissingSpec_data (s : UpdateState) (path : SdfPath) (spec : SdfSpecType) :
    (createMissingSpec s path spec).data = ensureSpec s.data path spec := by
  unfold createMissingSpec ensureSpec
  split <;> rfl

@[simp] lemma sendOwner_data (s : UpdateState) (path : SdfPath) (key : TfToken)
    (value : VtValue) : (sendOwner s path key value).data = s.data := by
  unfold sendOwner
  split <;> rfl

lemma storeField_data (s : UpdateState) (path : SdfPath) (key : TfToken) (value : VtValue) :
    (storeField s path key value).data = s.data.set path key
      (storedValue (s.data.isUnacknowledged path) key value
        (s.data.mData.lookup path)) := by
  unfold storeField storedValue
  simp only [RenderStudioData.isUnacknowledged, decide_eq_true_eq]
  by_cases hm : key = SdfChildrenKeys.primChildren ∧ path ∈ s.data.mUnacknowledgedFields
  · simp only [hm, and_self, if_true, get_eq]
  · simp only [hm, if_false]

@[simp] lemma noticeActivation_data (s : UpdateState) (path : SdfPath) (key : TfToken) :
    (noticeActivation s path key).data = s.data := by
  unfold noticeActivation
  split <;> rfl

lemma eraseRemovedSpec_data (s : UpdateState) (path : SdfPath) (key : TfToken)
    (value : VtValue) :
    (eraseRemovedSpec s path key value).data =
      if removesSpec key value then s.data.eraseSpec path else s.data := by
  unfold eraseRemovedSpec
  split <;> rfl

lemma skipped_iff (d : RenderStudioData) (path : SdfPath) (key : TfToken) :
    (¬(requireForceApply path = true) ∧
        ¬(key = SdfChildrenKeys.primChildren ∧ path ∈ d.mUnacknowledgedFields) ∧
        path ∈ d.mUnacknowledgedFields) ↔
      skipped (d.isUnacknowledged path) path key = true := by
  simp only [skipped, RenderStudioData.isUnacknowledged, Bool.and_eq_true, Bool.not_eq_true',
    decide_eq_true_eq, Bool.not_eq_true]
  tauto

lemma applyDelta_data (s : UpdateState) (path : SdfPath) (key : TfToken) (value : VtValue)
    (specType : SdfSpecType) :
    (applyDelta s path key value specType).data =
      applyDeltaData s.data path key value specType := by
  unfold applyDelta applyDeltaData
  simp only [skipped_iff, apply_ite UpdateState.data, eraseRemovedSpec_data,
    noticeActivation_data, storeField_data, sendOwner_data, createMissingSpec_data]

lemma applyDeltaData_frame {d : RenderStudioData} (h : d.mIsProcessingRemoteUpdates = true)
    (path : SdfPath) (key : TfToken) (value : VtValue) (specType : SdfSpecType) :
    OnlyData d (applyDeltaData d path key value specType) := by
  have hspec := ensureSpec_frame d path specType
  have hset : ∀ v, OnlyData d ((ensureSpec d path specType).set path key v) :=
    fun v => hspec.trans (set_frame (hspec.processing.trans h) path key v)
  unfold applyDeltaData
  dsimp only
  split_ifs
  · exact hspec
  · exact (hset _).trans ⟨rfl, rfl, rfl, rfl, rfl, rfl⟩
  · exact hset _

lemma lookup_applyDeltaData_ne (d : RenderStudioData) {path path' : SdfPath} (key : TfToken)
    (value : VtValue) (specType : SdfSpecType) (h : path' ≠ path) :
    (applyDeltaData d path key value specType).mData.lookup path' = d.mData.lookup path' := by
  have hset : ∀ v, ((ensureSpec d path specType).set path key v).mData.lookup path' =
      d.mData.lookup path' :=
    fun v => (lookup_set_ne _ key v h).trans (lookup_ensureSpec_ne d specType h)
  unfold applyDeltaData
  dsimp only
  split_ifs
  · exact lookup_ensureSpec_ne d specType h
  · exact (AList.lookup_erase_ne h).trans (hset _)
  · exact hset _

lemma lookup_applyDeltaData (d : RenderStudioData) (path : SdfPath) (key : TfToken)
    (value : VtValue) (specType : SdfSpecType) :
    (applyDeltaData d path key value specType).mData.lookup path =
      deltaAt (d.isUnacknowledged path) path key value specType
        (d.mData.lookup path) := by
  unfold applyDeltaData deltaAt
  simp only [ensureSpec_isUnacknowledged, lookup_ensureSpec]
  split_ifs
  · exact lookup_ensureSpec d path specType
  · exact AList.lookup_erase path _
  · rw [lookup_set, lookup_ensureSpec]

/-- One entry of an update table, without its notices. -/
def applyEntryData (d : RenderStudioData) (path : SdfPath) (delta : SpecData) :
    RenderStudioData :=
  if delta.fields = [] then { d with mUnacknowledgedFields := d.mUnacknowledgedFields.erase path }
  else delta.fields.foldl (fun d f => applyDeltaData d path f.1 f.2 delta.specType) d

/-- One update table, without its notices. -/
def applyTableData (d : RenderStudioData) (deltas : HashTable) : RenderStudioData :=
  deltas.entries.foldl (fun d delta => applyEntryData d delta.1 delta.2) d

lemma applyEntry_data (s : UpdateState) (path : SdfPath) (delta : SpecData) :
    (applyEntry s path delta).data = applyEntryData s.data path delta := by
  unfold applyEntry applyEntryData
  split
  · rfl
  · exact (List.foldl_hom UpdateState.data fun s f => (applyDelta_data s path f.1 f.2 _).symm).symm

lemma applyTable_data (s : UpdateState) (deltas : HashTable) :
    (applyTable s deltas).data = applyTableData s.data deltas :=
  (List.foldl_hom UpdateState.data fun s delta => (applyEntry_data s delta.1 delta.2).symm).symm

/-- What an update table can change about one path: its spec and whether it is still
unacknowledged. -/
def slotAt (d : RenderStudioData) (path : SdfPath) : Option SpecData × Bool :=
  (d.mData.lookup path, d.isUnacknowledged path)

/-- One entry on the slot of its path. -/
def entrySlot (path : SdfPath) (delta : SpecData) (slot : Option SpecData × Bool) :
    Option SpecData × Bool :=
  if delta.fields = [] then (slot.1, false)
  else (entryAt slot.2 path delta slot.1, slot.2)

/-- `d'` differs from `d` in `mData` and in the unacknowledged set at most. -/
structure OnlyUpdates (d d' : RenderStudioData) : Prop where
  localDeltas : d'.mLocalDeltas = d.mLocalDeltas
  sequence : d'.mLatestAppliedSequence = d.mLatestAppliedSequence
  queue : d'.mRemoteDeltasQueue = d.mRemoteDeltasQueue
  loaded : d'.mIsLoaded = d.mIsLoaded
  processing : d'.mIsProcessingRemoteUpdates = d.mIsProcessingRemoteUpdates

lemma OnlyUpdates.trans {d d' d'' : RenderStudioData} (h : OnlyUpdates d d')
    (h' : OnlyUpdates d' d'') : OnlyUpdates d d'' :=
  ⟨h'.1.trans h.1, h'.2.trans h.2, h'.3.trans h.3, h'.4.trans h.4, h'.5.trans h.5⟩

lemma foldl_applyDeltaData (path : SdfPath) (specType : SdfSpecType)
    (fields : List (TfToken × VtValue)) {d : RenderStudioData}
    (h : d.mIsProcessingRemoteUpdates = true) :
    let d' := fields.foldl (fun d f => applyDeltaData d path f.1 f.2 specType) d
    OnlyData d d' ∧
      (∀ path', path' ≠ path → d'.mData.lookup path' = d.mData.lookup path') ∧
      d'.mData.lookup path = entryAt (d.isUnacknowledged path) path
        { specType := specType, fields := fields } (d.mData.lookup path) := by
  dsimp only
  unfold entryAt
  induction fields generalizing d with
  | nil => exact ⟨.refl d, fun _ _ => rfl, rfl⟩
  | cons f fields ih =>
    have hframe := applyDeltaData_frame h path f.1 f.2 specType
    obtain ⟨ih₁, ih₂, ih₃⟩ := ih (hframe.processing.trans h)
    refine ⟨hframe.trans ih₁, fun path' hne => ?_, ?_⟩
    · rw [List.foldl_cons, ih₂ path' hne, lookup_applyDeltaData_ne _ _ _ _ hne]
    · rw [List.foldl_cons, ih₃]
      simp only [hframe.isUnacknowledged, lookup_applyDeltaData, List.foldl_cons]

lemma applyEntryData_frame {d : RenderStudioData} (h : d.mIsProcessingRemoteUpdates = true)
    (path : SdfPath) (delta : SpecData) : OnlyUpdates d (applyEntryData d path delta) := by
  unfold applyEntryData
  split
  · exact ⟨rfl, rfl, rfl, rfl, rfl⟩
  · have hframe := (foldl_applyDeltaData path delta.specType delta.fields h).1
    exact ⟨hframe.localDeltas, hframe.sequence, hframe.queue, hframe.loaded, hframe.processing⟩

lemma slotAt_applyEntryData_ne {d : RenderStudioData} (h : d.mIsProcessingRemoteUpdates = true)
    {path path' : SdfPath} (delta : SpecData) (hne : path' ≠ path) :
    slotAt (applyEntryData d path delta) path' = slotAt d path' := by
  unfold applyEntryData slotAt
  split
  · simp [RenderStudioData.isUnacknowledged, hne]
  · obtain ⟨hframe, hothers, -⟩ := foldl_applyDeltaData path delta.specType delta.fields h
    rw [hframe.isUnacknowledged, hothers path' hne]

lemma slotAt_applyEntryData {d : RenderStudioData} (h : d.mIsProcessingRemoteUpdates = true)
    (path : SdfPath) (delta : SpecData) :
    slotAt (applyEntryData d path delta) path = entrySlot path delta (slotAt d path) := by
  unfold applyEntryData slotAt entrySlot
  split
  · simp [RenderStudioData.isUnacknowledged]
  · obtain ⟨hframe, -, hown⟩ := foldl_applyDeltaData path delta.specType delta.fields h
    rw [hframe.isUnacknowledged, hown]

lemma applyTableData_frame {d : RenderStudioData} (h : d.mIsProcessingRemoteUpdates = true)
    (deltas : HashTable) : OnlyUpdates d (applyTableData d deltas) := by
  have hkeep := AList.foldl_entries_keep applyEntryData
    (fun d' => d'.mIsProcessingRemoteUpdates = true ∧ OnlyUpdates d d')
    (fun d' path delta hd' => by
      have hstep := applyEntryData_frame hd'.1 path delta
      exact ⟨hstep.processing.trans hd'.1, hd'.2.trans hstep⟩)
    deltas d ⟨h, rfl, rfl, rfl, rfl, rfl⟩
  exact hkeep.2

/-- One table acts on the slot of a path as its entry for that path does. -/
theorem slotAt_applyTableData {d : RenderStudioData} (h : d.mIsProcessingRemoteUpdates = true)
    (deltas : HashTable) (path : SdfPath) :
    slotAt (applyTableData d deltas) path =
      (deltas.lookup path).elim (slotAt d path) fun delta => entrySlot path delta (slotAt d path) :=
  AList.foldl_slot slotAt applyEntryData entrySlot
    (fun d => d.mIsProcessingRemoteUpdates = true)
    (fun _ path delta hd => (applyEntryData_frame hd path delta).processing.trans hd)
    (fun _ path delta hd => slotAt_applyEntryData hd path delta)
    (fun _ _ delta _ hd hne => slotAt_applyEntryData_ne hd delta hne)
    deltas d h path

/-- The spec of one path after a table. -/
theorem lookup_applyTableData {d : RenderStudioData} (h : d.mIsProcessingRemoteUpdates = true)
    (deltas : HashTable) (path : SdfPath) :
    (applyTableData d deltas).mData.lookup path =
      tableAt (d.isUnacknowledged path) deltas path (d.mData.lookup path) := by
  have hslot := congrArg Prod.fst (slotAt_applyTableData h deltas path)
  unfold tableAt
  cases hd : deltas.lookup path with
  | none => simpa [hd, slotAt] using hslot
  | some delta =>
    by_cases hempty : delta.fields = []
    · simpa [hd, slotAt, entrySlot, entryAt, hempty] using hslot
    · simpa [hd, slotAt, entrySlot, hempty] using hslot

/-- A table removes the acknowledged paths from the unacknowledged set and adds none. -/
theorem isUnacknowledged_applyTableData {d : RenderStudioData}
    (h : d.mIsProcessingRemoteUpdates = true) (deltas : HashTable) (path : SdfPath) :
    (applyTableData d deltas).isUnacknowledged path = true ↔
      d.isUnacknowledged path = true ∧ ¬Acknowledges deltas path := by
  have hslot := congrArg Prod.snd (slotAt_applyTableData h deltas path)
  unfold Acknowledges
  cases hd : deltas.lookup path with
  | none => simpa [hd, slotAt] using congrArg (· = true) hslot
  | some delta =>
    by_cases hempty : delta.fields = [] <;>
      simpa [hd, slotAt, entrySlot, hempty] using congrArg (· = true) hslot

/-- One round of the loop of `ProcessRemoteUpdates`, on the data alone. -/
def applyRound (d : RenderStudioData) (deltas : HashTable) : RenderStudioData :=
  { applyTableData { d with mIsProcessingRemoteUpdates := true } deltas with
    mLatestAppliedSequence := d.mLatestAppliedSequence + 1
    mRemoteDeltasQueue := d.mRemoteDeltasQueue.erase (d.mLatestAppliedSequence + 1)
    mIsProcessingRemoteUpdates := false }

section

variable (d : RenderStudioData) (deltas : HashTable)

@[simp] lemma applyRound_mLocalDeltas : (applyRound d deltas).mLocalDeltas = d.mLocalDeltas :=
  (applyTableData_frame (d := { d with mIsProcessingRemoteUpdates := true }) rfl deltas).localDeltas

@[simp] lemma applyRound_mIsLoaded : (applyRound d deltas).mIsLoaded = d.mIsLoaded :=
  (applyTableData_frame (d := { d with mIsProcessingRemoteUpdates := true }) rfl deltas).loaded

@[simp] lemma applyRound_mLatestAppliedSequence :
    (applyRound d deltas).mLatestAppliedSequence = d.mLatestAppliedSequence + 1 := rfl

@[simp] lemma applyRound_mRemoteDeltasQueue : (applyRound d deltas).mRemoteDeltasQueue =
    d.mRemoteDeltasQueue.erase (d.mLatestAppliedSequence + 1) := rfl

@[simp] lemma applyRound_mIsProcessingRemoteUpdates :
    (applyRound d deltas).mIsProcessingRemoteUpdates = false := rfl

/-- The spec of one path after a round. -/
theorem lookup_applyRound (path : SdfPath) :
    (applyRound d deltas).mData.lookup path =
      tableAt (d.isUnacknowledged path) deltas path (d.mData.lookup path) :=
  lookup_applyTableData (d := { d with mIsProcessingRemoteUpdates := true }) rfl deltas path

theorem isUnacknowledged_applyRound (path : SdfPath) :
    (applyRound d deltas).isUnacknowledged path = true ↔
      d.isUnacknowledged path = true ∧ ¬Acknowledges deltas path :=
  isUnacknowledged_applyTableData (d := { d with mIsProcessingRemoteUpdates := true }) rfl
    deltas path

end

lemma applyNext_data {s : UpdateState} (h : s.data.mIsProcessingRemoteUpdates = true)
    (deltas : HashTable) :
    (applyNext s deltas).data =
      { applyRound s.data deltas with mIsProcessingRemoteUpdates := true } := by
  have hself : ({ s.data with mIsProcessingRemoteUpdates := true } : RenderStudioData) = s.data :=
    RenderStudioData.ext rfl rfl rfl rfl rfl rfl h.symm
  have hframe := applyTableData_frame h deltas
  unfold applyNext applyRound
  simp only [applyTable_data, hself]
  exact RenderStudioData.ext rfl rfl rfl rfl (by simp only [hframe.queue]) rfl
    (hframe.processing.trans h)

lemma applyQueue_data_congr (rounds : Nat) {s s' : UpdateState} (h : s.data = s'.data) :
    (applyQueue rounds s).data = (applyQueue rounds s').data := by
  induction rounds generalizing s s' with
  | zero => exact h
  | succ rounds ih =>
    unfold applyQueue
    rw [← h]
    cases s.data.mRemoteDeltasQueue.lookup (s.data.mLatestAppliedSequence + 1) with
    | none => exact h
    | some deltas => exact ih (by simp only [applyNext, applyTable_data, h])

/-- With enough rounds their number does not matter. -/
lemma applyQueue_rounds (n m : Nat) {s : UpdateState}
    (hs : s.data.mIsProcessingRemoteUpdates = true)
    (hn : s.data.mRemoteDeltasQueue.entries.length ≤ n)
    (hm : s.data.mRemoteDeltasQueue.entries.length ≤ m) : applyQueue n s = applyQueue m s := by
  have hempty : ∀ (k : Nat) (s : UpdateState),
      s.data.mRemoteDeltasQueue.entries.length ≤ 0 → applyQueue k s = s := by
    intro k s h
    have hnil : s.data.mRemoteDeltasQueue = ∅ :=
      AList.ext (List.length_eq_zero_iff.1 (Nat.le_zero.1 h))
    cases k with
    | zero => rfl
    | succ k => simp [applyQueue, hnil]
  induction n generalizing m s with
  | zero => rw [hempty m s hn, hempty 0 s hn]
  | succ n ih =>
    cases m with
    | zero => rw [hempty (n + 1) s hm, hempty 0 s hm]
    | succ m =>
      unfold applyQueue
      cases hnext : s.data.mRemoteDeltasQueue.lookup (s.data.mLatestAppliedSequence + 1) with
      | none => rfl
      | some deltas =>
        have hmem : s.data.mLatestAppliedSequence + 1 ∈ s.data.mRemoteDeltasQueue :=
          AList.lookup_isSome.1 (by rw [hnext]; rfl)
        have hlen := AList.length_erase_lt hmem
        have hdata := applyNext_data hs deltas
        refine ih m ?_ ?_ ?_ <;> rw [hdata]
        · simp only [applyRound_mRemoteDeltasQueue]
          omega
        · simp only [applyRound_mRemoteDeltasQueue]
          omega

/-- A call that does not find the next number changes nothing. -/
theorem processRemoteUpdates_none {d : RenderStudioData}
    (hd : d.mIsProcessingRemoteUpdates = false)
    (h : d.mRemoteDeltasQueue.lookup (d.mLatestAppliedSequence + 1) = none) :
    d.processRemoteUpdates = d := by
  have hloop : ∀ n, applyQueue n { data := { d with mIsProcessingRemoteUpdates := true } } =
      { data := { d with mIsProcessingRemoteUpdates := true } } := by
    intro n
    cases n with
    | zero => rfl
    | succ n => simp [applyQueue, h]
  unfold RenderStudioData.processRemoteUpdates RenderStudioData.updateFromQueue
  rw [hloop, ← hd]

/-- A call that finds the next number applies its table and goes on. -/
theorem processRemoteUpdates_some {d : RenderStudioData} {deltas : HashTable}
    (h : d.mRemoteDeltasQueue.lookup (d.mLatestAppliedSequence + 1) = some deltas) :
    d.processRemoteUpdates = (applyRound d deltas).processRemoteUpdates := by
  have hmem : d.mLatestAppliedSequence + 1 ∈ d.mRemoteDeltasQueue :=
    AList.lookup_isSome.1 (by rw [h]; rfl)
  have hlen := AList.length_erase_lt hmem
  obtain ⟨n, hn⟩ : ∃ n, d.mRemoteDeltasQueue.entries.length = n + 1 :=
    ⟨d.mRemoteDeltasQueue.entries.length - 1, by omega⟩
  have hnext := applyNext_data
    (s := { data := { d with mIsProcessingRemoteUpdates := true } }) rfl deltas
  have hqueue := congrArg RenderStudioData.mRemoteDeltasQueue hnext
  have hloop : d.updateFromQueue.data = (applyRound d deltas).updateFromQueue.data := by
    unfold RenderStudioData.updateFromQueue
    rw [hn, applyQueue]
    simp only [h]
    rw [applyQueue_rounds n (applyRound d deltas).mRemoteDeltasQueue.entries.length
      (by rw [hnext]) (by rw [hqueue]; simp only [applyRound_mRemoteDeltasQueue]; omega)
      (by rw [hqueue]; rfl)]
    exact applyQueue_data_congr _ hnext
  unfold RenderStudioData.processRemoteUpdates
  rw [hloop]

/-- What every round preserves holds after `ProcessRemoteUpdates`, and the next number is
not queued any more. -/
theorem processRemoteUpdates_keep (Inv : RenderStudioData → Prop)
    (keep : ∀ d deltas, Inv d →
      d.mRemoteDeltasQueue.lookup (d.mLatestAppliedSequence + 1) = some deltas →
      Inv (applyRound d deltas))
    {d : RenderStudioData} (hd : d.mIsProcessingRemoteUpdates = false) (h : Inv d) :
    Inv d.processRemoteUpdates ∧ d.processRemoteUpdates.mRemoteDeltasQueue.lookup
      (d.processRemoteUpdates.mLatestAppliedSequence + 1) = none := by
  obtain ⟨n, hn⟩ : ∃ n, d.mRemoteDeltasQueue.entries.length = n := ⟨_, rfl⟩
  induction n using Nat.strong_induction_on generalizing d with
  | _ n ih =>
    cases hnext : d.mRemoteDeltasQueue.lookup (d.mLatestAppliedSequence + 1) with
    | none =>
      rw [processRemoteUpdates_none hd hnext]
      exact ⟨h, hnext⟩
    | some deltas =>
      rw [processRemoteUpdates_some hnext]
      have hlen := AList.length_erase_lt (AList.lookup_isSome.1 (by rw [hnext]; rfl))
      exact ih _ (hn ▸ hlen) rfl (keep d deltas h hnext) rfl

end RenderStudioKit.Proofs
