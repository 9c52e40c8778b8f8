import RenderStudioKit.Proofs.DataUpdates

/-!
# What a client holds about one path

Local edits, flushes and remote updates act on every path by itself. `PathState` is the
part of the layer data that belongs to one path: its spec, its entry in the local deltas
and its membership in the unacknowledged set. Each operation of the data is an operation
on the states of its paths.
-/

namespace RenderStudioKit.Proofs

variable [Usd]

@[ext]
structure PathState where
  spec : Option SpecData
  edit : Option SpecData
  unacknowledged : Bool

def pathState (d : RenderStudioData) (path : SdfPath) : PathState :=
  ⟨d.mData.lookup path, d.mLocalDeltas.lookup path, d.isUnacknowledged path⟩

lemma lookup_field_cons (key name : TfToken) (value : VtValue)
    (fields : List (TfToken × VtValue)) :
    ((name, value) :: fields).lookup key =
      if key = name then some value else fields.lookup key := by
  rw [List.lookup_cons]
  by_cases hkey : key = name
  · simp [hkey]
  · have hbeq : (key == name) = false := by simpa using hkey
    rw [hbeq, if_neg hkey]

lemma mem_of_lookup {fields : List (TfToken × VtValue)} {key : TfToken} {value : VtValue}
    (h : fields.lookup key = some value) : (key, value) ∈ fields := by
  obtain ⟨before, after, rfl, -⟩ := List.lookup_eq_some_iff.1 h
  simp

lemma lookup_assignField (field : TfToken) (value : VtValue)
    (fields : List (TfToken × VtValue)) (key : TfToken) :
    (assignField field value fields).lookup key =
      if key = field then some value else fields.lookup key := by
  induction fields with
  | nil => exact lookup_field_cons key field value []
  | cons f fields ih =>
    obtain ⟨name, old⟩ := f
    unfold assignField
    by_cases hname : name = field
    · by_cases hkey : key = field <;> simp [lookup_field_cons, hname, hkey]
    · simp only [hname, if_false, lookup_field_cons, ih]
      by_cases hkey : key = field
      · have hne : field ≠ name := fun h => hname h.symm
        simp [hkey, hne]
      · simp [hkey]

lemma assignField_eq_self_iff (field : TfToken) (value : VtValue)
    (fields : List (TfToken × VtValue)) :
    assignField field value fields = fields ↔ fields.lookup field = some value := by
  constructor
  · intro h
    have hlookup := lookup_assignField field value fields field
    rw [h, if_pos rfl] at hlookup
    exact hlookup
  · intro h
    induction fields with
    | nil => simp at h
    | cons f fields ih =>
      obtain ⟨name, old⟩ := f
      rw [lookup_field_cons] at h
      unfold assignField
      by_cases hname : name = field
      · rw [if_pos hname.symm, Option.some.injEq] at h
        simp [hname, h]
      · rw [if_neg fun heq => hname heq.symm] at h
        simp [hname, ih h]

lemma lookup_eraseField_ne {field key : TfToken} (hne : key ≠ field)
    (fields : List (TfToken × VtValue)) :
    (eraseField field fields).lookup key = fields.lookup key := by
  unfold eraseField
  induction fields with
  | nil => rfl
  | cons f fields ih =>
    obtain ⟨name, old⟩ := f
    by_cases hname : name = field
    · simp [hname, lookup_field_cons, hne]
    · simp [hname, lookup_field_cons, ih]

@[simp] lemma setAt_isSome (field : TfToken) (value : VtValue) (spec : Option SpecData) :
    (setAt field value spec).isSome = spec.isSome := by
  cases spec <;> rfl

lemma fieldAt_setAt_ne {field key : TfToken} (hne : field ≠ key) (value : VtValue)
    (spec : Option SpecData) : fieldAt (setAt key value spec) field = fieldAt spec field := by
  unfold fieldAt setAt
  cases spec with
  | none => rfl
  | some spec =>
    by_cases hempty : value.isEmpty
    · simp [hempty, lookup_eraseField_ne hne]
    · simp [hempty, lookup_assignField, hne]

lemma fieldAt_setAt {value : VtValue} (hvalue : value.isEmpty = false) (field : TfToken)
    (spec : Option SpecData) :
    fieldAt (setAt field value spec) field = spec.map fun _ => value := by
  unfold fieldAt setAt
  cases spec with
  | none => rfl
  | some spec => simp [hvalue, lookup_assignField]

lemma removesSpec_primChildren (value : VtValue) :
    removesSpec SdfChildrenKeys.primChildren value = false := by
  have hkey : SdfChildrenKeys.primChildren ≠ SdfFieldKeys.typeName := by decide
  cases value <;> simp [removesSpec, hkey]

lemma fieldAt_createAt (specType : SdfSpecType) (spec : Option SpecData) (field : TfToken) :
    fieldAt (createAt specType spec) field = fieldAt spec field := by
  unfold createAt
  split_ifs
  · cases spec <;> rfl
  · rfl

lemma fieldAt_entryAt_unacknowledged {path : SdfPath} (hforce : ¬requireForceApply path)
    {field : TfToken} (hfield : field ≠ SdfChildrenKeys.primChildren) (delta : SpecData)
    (spec : Option SpecData) :
    fieldAt (entryAt true path delta spec) field = fieldAt spec field := by
  unfold entryAt
  induction delta.fields generalizing spec with
  | nil => rfl
  | cons f fields ih =>
    rw [List.foldl_cons, ih]
    unfold deltaAt skipped
    by_cases hkey : f.1 = SdfChildrenKeys.primChildren
    · have hne : field ≠ f.1 := hkey ▸ hfield
      have hremove : removesSpec f.1 f.2 = false := hkey ▸ removesSpec_primChildren f.2
      simp only [hkey, ne_eq, not_true, decide_false, Bool.and_false, Bool.false_eq_true, if_false]
      rw [← hkey, hremove, if_neg Bool.false_ne_true, fieldAt_setAt_ne hne, fieldAt_createAt]
    · simp [hforce, hkey, fieldAt_createAt]

namespace PathState

/-- The entry of the local deltas that an edit extends: the pending one, or a fresh one of
the type of the spec. -/
def editBase (s : PathState) : Option SpecData :=
  s.edit.or (s.spec.map fun spec => { specType := spec.specType })

/-- `Set` with a value that is not empty. -/
def setField (field : TfToken) (value : VtValue) (s : PathState) : PathState where
  spec := s.spec.map fun spec => { spec with fields := assignField field value spec.fields }
  edit := s.editBase.map fun edit => { edit with fields := assignField field value edit.fields }
  unacknowledged := s.unacknowledged ||
    s.editBase.any fun edit => (edit.fields.lookup field).isNone

/-- `Set` on the path itself. -/
def set (field : TfToken) (value : VtValue) (s : PathState) : PathState :=
  if value.isEmpty then { s with spec := setAt field value s.spec } else s.setField field value

/-- `FetchLocalDeltas` -/
def flush (s : PathState) : PathState := { s with edit := none }

/-- One entry of a remote table; the table may have none for this path. -/
def receive (path : SdfPath) (s : PathState) : Option SpecData → PathState
  | none => s
  | some delta =>
    if delta.fields = [] then { s with unacknowledged := false }
    else { s with spec := entryAt s.unacknowledged path delta s.spec }

/-- The entries of several tables, one after the other. -/
def receiveAll (path : SdfPath) (s : PathState) (entries : List (Option SpecData)) : PathState :=
  entries.foldl (receive path) s

lemma set_keeps_unacknowledged (field : TfToken) (value : VtValue) {s : PathState}
    (hs : s.unacknowledged = true) : (s.set field value).unacknowledged = true := by
  unfold set
  split_ifs
  · exact hs
  · simp [setField, hs]

lemma set_first_edit (field : TfToken) (value : VtValue) {s : PathState} (hs : s.edit = none)
    (hedit : (s.set field value).edit.isSome) : (s.set field value).unacknowledged = true := by
  unfold set at hedit ⊢
  split_ifs at hedit ⊢ with hempty
  · simp [hs] at hedit
  · unfold setField editBase at hedit ⊢
    simp only [hs, Option.none_or, Option.isSome_map] at hedit ⊢
    obtain ⟨spec, hspec⟩ := Option.isSome_iff_exists.1 hedit
    simp [hspec]

@[simp] lemma receive_none (path : SdfPath) (s : PathState) : s.receive path none = s := rfl

@[simp] lemma receive_edit (path : SdfPath) (s : PathState) (entry : Option SpecData) :
    (s.receive path entry).edit = s.edit := by
  unfold receive
  split
  · rfl
  · split <;> rfl

lemma receive_spec (path : SdfPath) (s : PathState) (entry : Option SpecData) :
    (s.receive path entry).spec =
      (entry.elim (s.spec, s.unacknowledged) fun delta =>
        entrySlot path delta (s.spec, s.unacknowledged)).1 := by
  cases entry with
  | none => rfl
  | some delta =>
    unfold receive entrySlot
    by_cases hempty : delta.fields = [] <;> simp [hempty]

lemma receive_unacknowledged (path : SdfPath) (s : PathState) (entry : Option SpecData) :
    (s.receive path entry).unacknowledged =
      (entry.elim (s.spec, s.unacknowledged) fun delta =>
        entrySlot path delta (s.spec, s.unacknowledged)).2 := by
  cases entry with
  | none => rfl
  | some delta =>
    unfold receive entrySlot
    by_cases hempty : delta.fields = [] <;> simp [hempty]

@[simp] lemma receiveAll_edit (path : SdfPath) (s : PathState) (entries : List (Option SpecData)) :
    (s.receiveAll path entries).edit = s.edit := by
  unfold receiveAll
  induction entries generalizing s with
  | nil => rfl
  | cons entry entries ih => rw [List.foldl_cons, ih, receive_edit]

lemma receiveAll_unacknowledged (path : SdfPath) (s : PathState)
    (entries : List (Option SpecData)) :
    (s.receiveAll path entries).unacknowledged = true ↔
      s.unacknowledged = true ∧ ∀ delta, some delta ∈ entries → delta.fields ≠ [] := by
  unfold receiveAll
  induction entries generalizing s with
  | nil => simp
  | cons entry entries ih =>
    rw [List.foldl_cons, ih, receive_unacknowledged]
    cases entry with
    | none => simp
    | some delta =>
      by_cases hempty : delta.fields = []
      · simp [entrySlot, hempty]
      · simp [entrySlot, hempty]

lemma receiveAll_protected {path : SdfPath} (hforce : ¬requireForceApply path) {field : TfToken}
    (hfield : field ≠ SdfChildrenKeys.primChildren) {s : PathState}
    (hs : s.unacknowledged = true) (entries : List (Option SpecData))
    (hentries : ∀ delta, some delta ∈ entries → delta.fields ≠ []) :
    fieldAt (s.receiveAll path entries).spec field = fieldAt s.spec field := by
  unfold receiveAll
  induction entries generalizing s with
  | nil => rfl
  | cons entry entries ih =>
    have hnext := ih (s := s.receive path entry) ?_ fun delta hdelta =>
      hentries delta (List.mem_cons_of_mem entry hdelta)
    · rw [List.foldl_cons, hnext]
      cases entry with
      | none => rfl
      | some delta =>
        have hne := hentries delta List.mem_cons_self
        simp only [receive, hne, if_false, hs]
        exact fieldAt_entryAt_unacknowledged hforce hfield delta s.spec
    · have hone := receiveAll_unacknowledged path s [entry]
      refine hone.2 ⟨hs, fun delta hdelta => ?_⟩
      exact hentries delta (by simpa using Or.inl (List.mem_singleton.1 hdelta))

@[simp] lemma flush_spec (s : PathState) : s.flush.spec = s.spec := rfl

@[simp] lemma flush_edit (s : PathState) : s.flush.edit = none := rfl

@[simp] lemma flush_unacknowledged (s : PathState) :
    s.flush.unacknowledged = s.unacknowledged := rfl

end PathState

open PathState

lemma assignField_ne_nil (field : TfToken) (value : VtValue) (fields : List (TfToken × VtValue)) :
    assignField field value fields ≠ [] := by
  cases fields with
  | nil => simp [assignField]
  | cons f fields =>
    unfold assignField
    split <;> simp

lemma erase_locals (d : RenderStudioData) (path path' : SdfPath) (field : TfToken) :
    (d.erase path field).mLocalDeltas = d.mLocalDeltas ∧
      (d.erase path field).isUnacknowledged path' = d.isUnacknowledged path' :=
  ⟨(erase_frame d path field).localDeltas, (erase_frame d path field).isUnacknowledged path'⟩

lemma getOrCreateFieldValueDelta_pathState_ne (d : RenderStudioData) {path path' : SdfPath}
    (field : TfToken) (value : VtValue) (hne : path' ≠ path) :
    pathState (d.getOrCreateFieldValueDelta path field value) path' = pathState d path' := by
  unfold RenderStudioData.getOrCreateFieldValueDelta pathState
  split
  · rfl
  · simp only [AList.lookup_insert_ne hne, RenderStudioData.isUnacknowledged, PathState.mk.injEq,
      true_and]
    split <;> simp [hne]

lemma getOrCreateFieldValueDelta_pathState (d : RenderStudioData) (path : SdfPath)
    (field : TfToken) (value : VtValue) :
    pathState (d.getOrCreateFieldValueDelta path field value) path =
      { ((pathState d path).setField field value) with spec := d.mData.lookup path } := by
  unfold RenderStudioData.getOrCreateFieldValueDelta pathState setField editBase
  dsimp only
  cases hbase : (d.mLocalDeltas.lookup path).or
      ((d.mData.lookup path).map fun spec => { specType := spec.specType }) with
  | none =>
    have hnone : d.mLocalDeltas.lookup path = none := (Option.or_eq_none_iff.1 hbase).1
    simp [hnone]
  | some edit =>
    cases hfield : edit.fields.lookup field <;>
      simp [RenderStudioData.isUnacknowledged, hfield]

lemma set_pathState_ne (d : RenderStudioData) {path path' : SdfPath}
    (field : TfToken) (value : VtValue) (hne : path' ≠ path) :
    pathState (d.set path field value) path' = pathState d path' := by
  have hspec := lookup_set_ne d field value hne
  have hassign := getOrCreateFieldValue_frame d path field value
  have herase := erase_locals d path path' field
  have hrest : (d.set path field value).mLocalDeltas.lookup path' = d.mLocalDeltas.lookup path' ∧
      (d.set path field value).isUnacknowledged path' = d.isUnacknowledged path' := by
    unfold RenderStudioData.set RenderStudioData.setAbstract
    dsimp only
    split_ifs
    · exact ⟨by rw [herase.1], herase.2⟩
    · exact ⟨by rw [hassign.localDeltas], hassign.isUnacknowledged path'⟩
    · have hdelta := getOrCreateFieldValueDelta_pathState_ne
        (d.getOrCreateFieldValue path field value) field value hne
      refine ⟨(congrArg PathState.edit hdelta).trans ?_,
        (congrArg PathState.unacknowledged hdelta).trans (hassign.isUnacknowledged path')⟩
      simp only [pathState, hassign.localDeltas]
  exact PathState.ext hspec hrest.1 hrest.2

/-- A local `Set` on loaded data. -/
theorem set_pathState {d : RenderStudioData} (hidle : d.mIsProcessingRemoteUpdates = false)
    (hloaded : d.mIsLoaded = true) (path : SdfPath) (field : TfToken) (value : VtValue) :
    pathState (d.set path field value) path = (pathState d path).set field value := by
  have hspec := lookup_set d path field value
  by_cases hempty : value.isEmpty
  · have herase := erase_locals d path path field
    unfold PathState.set
    rw [if_pos hempty]
    refine PathState.ext hspec ?_ ?_
    · simp [pathState, RenderStudioData.set, hempty, herase.1]
    · simp [pathState, RenderStudioData.set, hempty, herase.2]
  · have hassign := getOrCreateFieldValue_frame d path field value
    have hset : d.set path field value =
        (d.getOrCreateFieldValue path field value).getOrCreateFieldValueDelta path field value := by
      simp [RenderStudioData.set, RenderStudioData.setAbstract, hempty, hassign.processing,
        hassign.loaded, hidle, hloaded]
    have hassigned : (d.getOrCreateFieldValue path field value).mData.lookup path =
        (d.mData.lookup path).map fun spec =>
          { spec with fields := assignField field value spec.fields } := by
      unfold RenderStudioData.getOrCreateFieldValue
      cases h : d.mData.lookup path <;> simp [h]
    have hbase : (pathState (d.getOrCreateFieldValue path field value) path).editBase =
        (pathState d path).editBase := by
      unfold editBase pathState
      simp only [hassign.localDeltas, hassigned, Option.map_map]
      rfl
    have hunack := hassign.isUnacknowledged path
    unfold PathState.set
    rw [if_neg hempty, hset, getOrCreateFieldValueDelta_pathState]
    unfold setField
    rw [hbase, hassigned]
    simp only [pathState, hunack]

lemma set_frame_loaded (d : RenderStudioData) (path : SdfPath) (field : TfToken)
    (value : VtValue) :
    (d.set path field value).mIsLoaded = d.mIsLoaded ∧
      (d.set path field value).mIsProcessingRemoteUpdates = d.mIsProcessingRemoteUpdates ∧
      (d.set path field value).mLatestAppliedSequence = d.mLatestAppliedSequence ∧
      (d.set path field value).mRemoteDeltasQueue = d.mRemoteDeltasQueue := by
  have hassign := getOrCreateFieldValue_frame d path field value
  have herase := erase_frame d path field
  unfold RenderStudioData.set RenderStudioData.setAbstract
  dsimp only
  split_ifs
  · exact ⟨herase.loaded, herase.processing, herase.sequence, herase.queue⟩
  · exact ⟨hassign.loaded, hassign.processing, hassign.sequence, hassign.queue⟩
  · unfold RenderStudioData.getOrCreateFieldValueDelta
    split <;> exact ⟨hassign.loaded, hassign.processing, hassign.sequence, hassign.queue⟩

theorem applyRound_pathState (d : RenderStudioData) (deltas : HashTable) (path : SdfPath) :
    pathState (applyRound d deltas) path = (pathState d path).receive path (deltas.lookup path) := by
  have hslot := slotAt_applyTableData (d := { d with mIsProcessingRemoteUpdates := true }) rfl
    deltas path
  have hspec := congrArg Prod.fst hslot
  have hunack := congrArg Prod.snd hslot
  have hedit : (pathState (applyRound d deltas) path).edit = (pathState d path).edit := by
    simp [pathState]
  refine PathState.ext ?_ (hedit.trans (receive_edit ..).symm) ?_
  · rw [receive_spec]
    exact hspec.trans (by cases deltas.lookup path <;> rfl)
  · rw [receive_unacknowledged]
    exact hunack.trans (by cases deltas.lookup path <;> rfl)

/-- `ProcessRemoteUpdates` over a queue that holds `tables` behind the last applied number, up to the
first gap. -/
theorem processRemoteUpdates_pathState (tables : List HashTable) {d : RenderStudioData}
    (hidle : d.mIsProcessingRemoteUpdates = false)
    (hqueue : ∀ k ≤ tables.length,
      d.mRemoteDeltasQueue.lookup (d.mLatestAppliedSequence + 1 + k) = tables[k]?) :
    d.processRemoteUpdates = tables.foldl applyRound d := by
  induction tables generalizing d with
  | nil => exact processRemoteUpdates_none hidle (by simpa using hqueue 0 (Nat.zero_le _))
  | cons deltas tables ih =>
    rw [processRemoteUpdates_some (by simpa using hqueue 0 (Nat.zero_le _)), List.foldl_cons]
    refine ih rfl fun k hk => ?_
    rw [applyRound_mRemoteDeltasQueue, applyRound_mLatestAppliedSequence,
      AList.lookup_erase_ne (by omega)]
    have hk := hqueue (k + 1) (Nat.succ_le_succ hk)
    rw [List.getElem?_cons_succ] at hk
    rwa [show d.mLatestAppliedSequence + 1 + 1 + k = d.mLatestAppliedSequence + 1 + (k + 1) by omega]

lemma foldl_applyRound_pathState (tables : List HashTable) (d : RenderStudioData)
    (path : SdfPath) :
    pathState (tables.foldl applyRound d) path =
      (pathState d path).receiveAll path (tables.map (·.lookup path)) := by
  unfold receiveAll
  induction tables generalizing d with
  | nil => rfl
  | cons deltas tables ih => rw [List.foldl_cons, ih, applyRound_pathState]; rfl

lemma foldl_applyRound_frame (tables : List HashTable) (d : RenderStudioData) :
    (tables.foldl applyRound d).mLocalDeltas = d.mLocalDeltas ∧
      (tables.foldl applyRound d).mIsLoaded = d.mIsLoaded ∧
      (tables.foldl applyRound d).mLatestAppliedSequence =
        d.mLatestAppliedSequence + tables.length ∧
      ∀ k, d.mLatestAppliedSequence + tables.length < k →
        (tables.foldl applyRound d).mRemoteDeltasQueue.lookup k =
          d.mRemoteDeltasQueue.lookup k := by
  induction tables generalizing d with
  | nil => exact ⟨rfl, rfl, rfl, fun _ _ => rfl⟩
  | cons deltas tables ih =>
    obtain ⟨hlocal, hloaded, hsequence, hqueue⟩ := ih (applyRound d deltas)
    simp only [applyRound_mLocalDeltas, applyRound_mIsLoaded, applyRound_mLatestAppliedSequence,
      applyRound_mRemoteDeltasQueue] at hlocal hloaded hsequence hqueue
    rw [List.foldl_cons, List.length_cons]
    refine ⟨hlocal, hloaded, by omega, fun k hk => ?_⟩
    rw [hqueue k (by omega), AList.lookup_erase_ne (by omega)]

end RenderStudioKit.Proofs
