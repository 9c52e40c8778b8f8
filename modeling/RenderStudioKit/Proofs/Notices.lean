import RenderStudioKit.Proofs.DataUpdates

/-!
# Notices about changed primitives

One call of `ProcessRemoteUpdates` collects notices while it applies the queued tables, field by
field, and sends one for each primitive. A `Visit` is one field on its way into `ApplyDelta`,
together with the data it finds there; the visits of a call say what happened during the call.
-/

namespace RenderStudioKit.Proofs

open RenderStudioNotice

section

variable [Usd]

/-- A field that is passed to `ApplyDelta`, and the data before. -/
structure Visit where
  before : RenderStudioData
  path : SdfPath
  key : TfToken
  specType : SdfSpecType

namespace Visit

/-- The primitive that owns the updated path. -/
def prim (v : Visit) : SdfPath := (PrimitiveChanged.of v.path false).changedPrim

/-- There is no spec to apply the field to. -/
def Missing (v : Visit) : Prop := v.before.getSpecType v.path = .unknown

/-- A spec is created at a primitive path. `CreateSpec` refuses an unknown type. -/
def Creates (v : Visit) : Prop :=
  v.Missing ∧ v.specType ≠ .unknown ∧ Usd.isPrimPath v.path = true

/-- No spec is created at the primitive path although there is none. -/
def Refused (v : Visit) : Prop :=
  v.Missing ∧ v.specType = .unknown ∧ Usd.isPrimPath v.path = true

/-- An active field is applied, not skipped. -/
def Activates (v : Visit) : Prop :=
  v.key = SdfFieldKeys.active ∧ skipped (v.before.isUnacknowledged v.path) v.path v.key = false

end Visit

/-- The fields of one delta. -/
def fieldVisits (path : SdfPath) (specType : SdfSpecType) :
    UpdateState → List (TfToken × VtValue) → List Visit
  | _, [] => []
  | s, f :: fields => ⟨s.data, path, f.1, specType⟩ ::
      fieldVisits path specType (applyDelta s path f.1 f.2 specType) fields

/-- The deltas of one table. -/
def entryVisits : UpdateState → List (Sigma fun _ : SdfPath => SpecData) → List Visit
  | _, [] => []
  | s, e :: entries => fieldVisits e.1 e.2.specType s e.2.fields ++
      entryVisits (applyEntry s e.1 e.2) entries

/-- The tables the loop over the queue applies. -/
def queueVisits : Nat → UpdateState → List Visit
  | 0, _ => []
  | rounds + 1, s =>
    match s.data.mRemoteDeltasQueue.lookup (s.data.mLatestAppliedSequence + 1) with
    | none => []
    | some deltas => entryVisits s deltas.entries ++ queueVisits rounds (applyNext s deltas)

/-- What one call of `ProcessRemoteUpdates` passes to `ApplyDelta`. -/
def visits (d : RenderStudioData) : List Visit :=
  queueVisits d.mRemoteDeltasQueue.entries.length
    { data := { d with mIsProcessingRemoteUpdates := true } }

/-- The call applies a delta of the path: its table is queued and so are all before it. -/
def Applies (d : RenderStudioData) (path : SdfPath) (delta : SpecData) : Prop :=
  ∃ k t, (∀ j < k, (d.mRemoteDeltasQueue.lookup (d.mLatestAppliedSequence + 1 + j)).isSome) ∧
    d.mRemoteDeltasQueue.lookup (d.mLatestAppliedSequence + 1 + k) = some t ∧
    t.lookup path = some delta

/-- A notice the code collects for a visit. -/
def Visit.Notes (v : Visit) (n : PrimitiveChanged) : Prop :=
  n = .of v.path true ∧ (v.Missing ∧ Usd.isPrimPath v.path = true ∨ v.Activates)

lemma mem_createMissingSpec_notices (s : UpdateState) (path : SdfPath) (spec : SdfSpecType)
    (n : PrimitiveChanged) :
    n ∈ (createMissingSpec s path spec).notices ↔ n ∈ s.notices ∨
      n = .of path true ∧ s.data.getSpecType path = .unknown ∧ Usd.isPrimPath path = true := by
  unfold createMissingSpec
  by_cases hmissing : s.data.getSpecType path = .unknown
  · by_cases hprim : Usd.isPrimPath path = true
    · simp [hmissing, hprim]
    · simp [hmissing, hprim]
  · simp [hmissing]

lemma sendOwner_notices (s : UpdateState) (path : SdfPath) (key : TfToken) (value : VtValue) :
    (sendOwner s path key value).notices = s.notices := by
  unfold sendOwner
  split <;> rfl

lemma storeField_notices (s : UpdateState) (path : SdfPath) (key : TfToken) (value : VtValue) :
    (storeField s path key value).notices = s.notices := by
  unfold storeField
  dsimp only
  split_ifs <;> rfl

lemma eraseRemovedSpec_notices (s : UpdateState) (path : SdfPath) (key : TfToken)
    (value : VtValue) : (eraseRemovedSpec s path key value).notices = s.notices := by
  unfold eraseRemovedSpec
  split_ifs <;> rfl

lemma mem_noticeActivation_notices (s : UpdateState) (path : SdfPath) (key : TfToken)
    (n : PrimitiveChanged) :
    n ∈ (noticeActivation s path key).notices ↔
      n ∈ s.notices ∨ n = .of path true ∧ key = SdfFieldKeys.active := by
  unfold noticeActivation
  by_cases hkey : key = SdfFieldKeys.active <;> simp [hkey]

lemma mem_applyDelta_notices (s : UpdateState) (path : SdfPath) (key : TfToken) (value : VtValue)
    (specType : SdfSpecType) (n : PrimitiveChanged) :
    n ∈ (applyDelta s path key value specType).notices ↔
      n ∈ s.notices ∨ Visit.Notes ⟨s.data, path, key, specType⟩ n := by
  have hunack : (createMissingSpec s path specType).data.isUnacknowledged path =
      s.data.isUnacknowledged path := by
    rw [createMissingSpec_data, ensureSpec_isUnacknowledged]
  have hcreate := mem_createMissingSpec_notices s path specType n
  unfold applyDelta Visit.Notes Visit.Missing Visit.Activates
  simp only [skipped_iff, sendOwner_data, hunack]
  cases hskip : skipped (s.data.isUnacknowledged path) path key with
  | true => simp [sendOwner_notices, hcreate]
  | false =>
    simp only [Bool.false_eq_true, if_false, eraseRemovedSpec_notices,
      mem_noticeActivation_notices, storeField_notices, sendOwner_notices, hcreate, and_true]
    tauto

lemma mem_foldl_applyDelta_notices (path : SdfPath) (specType : SdfSpecType)
    (fields : List (TfToken × VtValue)) (s : UpdateState) (n : PrimitiveChanged) :
    n ∈ (fields.foldl (fun s f => applyDelta s path f.1 f.2 specType) s).notices ↔
      n ∈ s.notices ∨ ∃ v ∈ fieldVisits path specType s fields, v.Notes n := by
  induction fields generalizing s with
  | nil => simp [fieldVisits]
  | cons f fields ih =>
    rw [List.foldl_cons, ih, mem_applyDelta_notices]
    simp only [fieldVisits, List.mem_cons, exists_eq_or_imp, or_assoc]

lemma fieldVisits_path {path : SdfPath} {specType : SdfSpecType}
    {fields : List (TfToken × VtValue)} {s : UpdateState} {v : Visit}
    (h : v ∈ fieldVisits path specType s fields) : v.path = path := by
  induction fields generalizing s with
  | nil => simp [fieldVisits] at h
  | cons f fields ih =>
    rcases List.mem_cons.1 h with rfl | h
    · rfl
    · exact ih h

lemma mem_applyEntry_notices (s : UpdateState) (path : SdfPath) (delta : SpecData)
    (n : PrimitiveChanged) :
    n ∈ (applyEntry s path delta).notices ↔ n ∈ s.notices ∨
      ∃ v ∈ fieldVisits path delta.specType s delta.fields, v.Notes n ∨ n = .of v.path false := by
  unfold applyEntry
  by_cases hempty : delta.fields = []
  · simp [hempty, fieldVisits]
  · rw [if_neg hempty]
    simp only [List.mem_append, List.mem_singleton, mem_foldl_applyDelta_notices]
    have hpath : n = .of path false ↔
        ∃ v ∈ fieldVisits path delta.specType s delta.fields, n = .of v.path false := by
      constructor
      · intro hn
        obtain ⟨f, fields, hfields⟩ := List.exists_cons_of_ne_nil hempty
        rw [hfields]
        exact ⟨_, List.mem_cons_self, hn⟩
      · rintro ⟨v, hv, hn⟩
        rwa [fieldVisits_path hv] at hn
    rw [hpath, or_assoc, ← exists_or]
    simp only [← and_or_left]

lemma mem_applyTable_notices (entries : List (Sigma fun _ : SdfPath => SpecData))
    (s : UpdateState) (n : PrimitiveChanged) :
    n ∈ (entries.foldl (fun s delta => applyEntry s delta.1 delta.2) s).notices ↔ n ∈ s.notices ∨
      ∃ v ∈ entryVisits s entries, v.Notes n ∨ n = .of v.path false := by
  induction entries generalizing s with
  | nil => simp [entryVisits]
  | cons e entries ih =>
    rw [List.foldl_cons, ih, mem_applyEntry_notices, or_assoc, ← exists_or]
    simp only [entryVisits, List.mem_append, or_and_right]

lemma mem_applyQueue_notices (rounds : Nat) (s : UpdateState) (n : PrimitiveChanged) :
    n ∈ (applyQueue rounds s).notices ↔ n ∈ s.notices ∨
      ∃ v ∈ queueVisits rounds s, v.Notes n ∨ n = .of v.path false := by
  induction rounds generalizing s with
  | zero => simp [applyQueue, queueVisits]
  | succ rounds ih =>
    unfold applyQueue queueVisits
    cases s.data.mRemoteDeltasQueue.lookup (s.data.mLatestAppliedSequence + 1) with
    | none => simp
    | some deltas =>
      have htable : n ∈ (applyNext s deltas).notices ↔ n ∈ s.notices ∨
          ∃ v ∈ entryVisits s deltas.entries, v.Notes n ∨ n = .of v.path false :=
        mem_applyTable_notices deltas.entries s n
      simp only [ih, htable, or_assoc, ← exists_or, List.mem_append, or_and_right]

/-- What a call collects. -/
theorem mem_updateFromQueue_notices (d : RenderStudioData) (n : PrimitiveChanged) :
    n ∈ d.updateFromQueue.notices ↔ ∃ v ∈ visits d, v.Notes n ∨ n = .of v.path false := by
  unfold RenderStudioData.updateFromQueue visits
  rw [mem_applyQueue_notices]
  simp

lemma fieldVisits_nonempty (path : SdfPath) (specType : SdfSpecType) (s : UpdateState)
    (fields : List (TfToken × VtValue)) :
    (∃ v, v ∈ fieldVisits path specType s fields) ↔ fields ≠ [] := by
  cases fields with
  | nil => simp [fieldVisits]
  | cons f fields => simp [fieldVisits]

lemma entryVisits_path (entries : List (Sigma fun _ : SdfPath => SpecData)) (s : UpdateState)
    (path : SdfPath) :
    (∃ v ∈ entryVisits s entries, v.path = path) ↔
      ∃ e ∈ entries, e.1 = path ∧ e.2.fields ≠ [] := by
  induction entries generalizing s with
  | nil => simp [entryVisits]
  | cons e entries ih =>
    have hfirst : (∃ v ∈ fieldVisits e.1 e.2.specType s e.2.fields, v.path = path) ↔
        e.1 = path ∧ e.2.fields ≠ [] := by
      rw [← fieldVisits_nonempty e.1 e.2.specType s]
      constructor
      · rintro ⟨v, hv, hpath⟩
        exact ⟨(fieldVisits_path hv).symm.trans hpath, v, hv⟩
      · rintro ⟨hpath, v, hv⟩
        exact ⟨v, hv, (fieldVisits_path hv).trans hpath⟩
    simp only [entryVisits, List.mem_append, or_and_right, exists_or, hfirst, ih, List.mem_cons,
      exists_eq_left]

lemma applies_next {d d' : RenderStudioData} {deltas : HashTable}
    (hnext : d.mRemoteDeltasQueue.lookup (d.mLatestAppliedSequence + 1) = some deltas)
    (hlatest : d'.mLatestAppliedSequence = d.mLatestAppliedSequence + 1)
    (hqueue : d'.mRemoteDeltasQueue = d.mRemoteDeltasQueue.erase (d.mLatestAppliedSequence + 1))
    (path : SdfPath) (delta : SpecData) :
    Applies d path delta ↔ deltas.lookup path = some delta ∨ Applies d' path delta := by
  have hlookup : ∀ j, d'.mRemoteDeltasQueue.lookup (d'.mLatestAppliedSequence + 1 + j) =
      d.mRemoteDeltasQueue.lookup (d.mLatestAppliedSequence + 1 + (j + 1)) := by
    intro j
    rw [hqueue, hlatest, AList.lookup_erase_ne (by omega)]
    congr 1
    omega
  unfold Applies
  simp only [hlookup]
  constructor
  · rintro ⟨k, t, hbefore, ht, hdelta⟩
    cases k with
    | zero =>
      rw [Nat.add_zero, hnext, Option.some.injEq] at ht
      exact .inl (ht ▸ hdelta)
    | succ k => exact .inr ⟨k, t, fun j hj => hbefore (j + 1) (by omega), ht, hdelta⟩
  · rintro (hdelta | ⟨k, t, hbefore, ht, hdelta⟩)
    · exact ⟨0, deltas, fun j hj => absurd hj (Nat.not_lt_zero j), hnext, hdelta⟩
    · refine ⟨k + 1, t, fun j hj => ?_, ht, hdelta⟩
      cases j with
      | zero => rw [Nat.add_zero, hnext]; rfl
      | succ j => exact hbefore j (by omega)

lemma queueVisits_path (rounds : Nat) {s : UpdateState}
    (hs : s.data.mIsProcessingRemoteUpdates = true)
    (hrounds : s.data.mRemoteDeltasQueue.entries.length ≤ rounds) (path : SdfPath) :
    (∃ v ∈ queueVisits rounds s, v.path = path) ↔
      ∃ delta, Applies s.data path delta ∧ delta.fields ≠ [] := by
  induction rounds generalizing s with
  | zero =>
    have hempty : s.data.mRemoteDeltasQueue = ∅ :=
      AList.ext (List.length_eq_zero_iff.1 (Nat.le_zero.1 hrounds))
    simp [queueVisits, Applies, hempty]
  | succ rounds ih =>
    unfold queueVisits
    cases hnext : s.data.mRemoteDeltasQueue.lookup (s.data.mLatestAppliedSequence + 1) with
    | none =>
      have hnone : ∀ delta, ¬Applies s.data path delta := by
        rintro delta ⟨k, t, hbefore, ht, -⟩
        cases k with
        | zero => simp [hnext] at ht
        | succ k => simpa [hnext] using hbefore 0 (Nat.succ_pos k)
      simp [hnone]
    | some deltas =>
      have hlen := AList.length_erase_lt (AList.lookup_isSome.1 (by rw [hnext]; rfl))
      have hdata := applyNext_data hs deltas
      have hbehind := ih (s := applyNext s deltas) (by rw [hdata])
        (by rw [hdata]; simp only [applyRound_mRemoteDeltasQueue]; omega)
      have htable : (∃ e ∈ deltas.entries, e.1 = path ∧ e.2.fields ≠ []) ↔
          ∃ delta, deltas.lookup path = some delta ∧ delta.fields ≠ [] := by
        constructor
        · rintro ⟨⟨path', delta⟩, he, rfl, hfields⟩
          exact ⟨delta, AList.mem_lookup_iff.2 he, hfields⟩
        · rintro ⟨delta, hlookup, hfields⟩
          exact ⟨⟨path, delta⟩, AList.mem_lookup_iff.1 hlookup, rfl, hfields⟩
      have happlies : ∀ delta, Applies s.data path delta ↔
          deltas.lookup path = some delta ∨ Applies (applyNext s deltas).data path delta :=
        applies_next hnext (by rw [hdata]; rfl) (by rw [hdata]; rfl) path
      simp only [List.mem_append, or_and_right, exists_or, entryVisits_path, htable, hbehind,
        happlies]

/-- A path is visited exactly if the call applies a delta with fields to it. -/
theorem visits_path (d : RenderStudioData) (path : SdfPath) :
    (∃ v ∈ visits d, v.path = path) ↔ ∃ delta, Applies d path delta ∧ delta.fields ≠ [] :=
  queueVisits_path d.mRemoteDeltasQueue.entries.length
    (s := { data := { d with mIsProcessingRemoteUpdates := true } }) rfl le_rfl path

/-- The notice that is sent for a group. -/
def chosen (group : List PrimitiveChanged) : Option PrimitiveChanged :=
  (group.find? (·.wasResynched)).or group.head?

/-- The valid notices by primitive. -/
def noticeGroups (notices : List PrimitiveChanged) :
    AList (fun _ : SdfPath => List PrimitiveChanged) :=
  (notices.filter (·.isValid)).foldl (fun groups notice =>
    groups.insert notice.changedPrim ((groups.lookup notice.changedPrim).getD [] ++ [notice])) ∅

lemma collapseNotices_eq (notices : List PrimitiveChanged) :
    collapseNotices notices = (noticeGroups notices).entries.filterMap fun e => chosen e.2 := rfl

lemma lookup_noticeGroups (notices : List PrimitiveChanged) (p : SdfPath) :
    (noticeGroups notices).lookup p =
      if (notices.filter (·.isValid)).filter (fun n => n.changedPrim = p) = [] then none
      else some ((notices.filter (·.isValid)).filter (fun n => n.changedPrim = p)) := by
  have hgroup := AList.lookup_foldl_group PrimitiveChanged.changedPrim
    (notices.filter (·.isValid)) ∅ p
  rw [AList.lookup_empty, Option.getD_none, List.nil_append] at hgroup
  exact hgroup

lemma mem_group {notices : List PrimitiveChanged}
    {e : Sigma fun _ : SdfPath => List PrimitiveChanged}
    (he : e ∈ (noticeGroups notices).entries) : e.2 ≠ [] ∧ ∀ n, n ∈ e.2 ↔
      n ∈ notices ∧ n.isValid = true ∧ n.changedPrim = e.1 := by
  have hsome : (noticeGroups notices).lookup e.1 = some e.2 := AList.mem_lookup_iff.2 he
  rw [lookup_noticeGroups] at hsome
  split_ifs at hsome with hempty
  rw [Option.some.injEq] at hsome
  rw [← hsome]
  refine ⟨hempty, fun n => ?_⟩
  simp only [List.mem_filter, decide_eq_true_eq, and_assoc]

lemma mem_noticeGroups (notices : List PrimitiveChanged) (p : SdfPath) :
    p ∈ (noticeGroups notices).keys ↔
      ∃ n ∈ notices, n.isValid = true ∧ n.changedPrim = p := by
  rw [← AList.mem_keys, ← AList.lookup_isSome, lookup_noticeGroups]
  split_ifs with hempty
  · simp only [Option.isSome_none, Bool.false_eq_true, false_iff]
    rintro ⟨n, hmem, hvalid, hprim⟩
    have hin : n ∈ (notices.filter (·.isValid)).filter (fun n => n.changedPrim = p) := by
      simp [hmem, hvalid, hprim]
    rw [hempty] at hin
    exact List.not_mem_nil hin
  · obtain ⟨n, hn⟩ := List.exists_mem_of_ne_nil _ hempty
    simp only [List.mem_filter, decide_eq_true_eq] at hn
    simp only [Option.isSome_some, true_iff]
    exact ⟨n, hn.1.1, hn.1.2, hn.2⟩

lemma chosen_of_group {group : List PrimitiveChanged} (h : group ≠ []) :
    ∃ n ∈ group, chosen group = some n ∧
      (n.wasResynched = true ↔ ∃ n' ∈ group, n'.wasResynched = true) := by
  unfold chosen
  cases hfind : group.find? (·.wasResynched) with
  | some n =>
    have hmem := List.mem_of_find?_eq_some hfind
    have hresync : n.wasResynched = true := List.find?_some hfind
    exact ⟨n, hmem, rfl, fun _ => ⟨n, hmem, hresync⟩, fun _ => hresync⟩
  | none =>
    have hnone := List.find?_eq_none.1 hfind
    obtain ⟨n, hn⟩ := Option.isSome_iff_exists.1 (List.isSome_head?.2 h)
    have hmem : n ∈ group := List.mem_of_mem_head? hn
    refine ⟨n, hmem, hn, fun hresync => ⟨n, hmem, hresync⟩, ?_⟩
    rintro ⟨n', hmem', hresync⟩
    exact absurd hresync (hnone n' hmem')

lemma chosen_of_mem {notices : List PrimitiveChanged}
    {e : Sigma fun _ : SdfPath => List PrimitiveChanged}
    (he : e ∈ (noticeGroups notices).entries) :
    ∃ n ∈ notices, chosen e.2 = some n ∧ n.isValid = true ∧ n.changedPrim = e.1 ∧
      (n.wasResynched = true ↔ ∃ n' ∈ notices, n'.isValid = true ∧
        n'.changedPrim = n.changedPrim ∧ n'.wasResynched = true) := by
  obtain ⟨hne, hmem⟩ := mem_group he
  obtain ⟨n, hn, hsome, hresync⟩ := chosen_of_group hne
  obtain ⟨hin, hvalid, hprim⟩ := (hmem n).1 hn
  refine ⟨n, hin, hsome, hvalid, hprim, hresync.trans ?_⟩
  simp only [hmem, hprim, and_assoc]

lemma collapseNotices_prims (notices : List PrimitiveChanged) :
    (collapseNotices notices).map (·.changedPrim) = (noticeGroups notices).keys := by
  have hchosen : ∀ e ∈ (noticeGroups notices).entries,
      ∃ n, chosen e.2 = some n ∧ n.changedPrim = e.1 := by
    intro e he
    obtain ⟨n, -, hsome, -, hprim, -⟩ := chosen_of_mem he
    exact ⟨n, hsome, hprim⟩
  rw [collapseNotices_eq]
  unfold AList.keys List.keys
  generalize (noticeGroups notices).entries = entries at hchosen
  induction entries with
  | nil => rfl
  | cons e entries ih =>
    obtain ⟨n, hsome, hprim⟩ := hchosen e List.mem_cons_self
    have hhead : (e :: entries).filterMap (fun e => chosen e.2) =
        n :: entries.filterMap (fun e => chosen e.2) := List.filterMap_cons_some hsome
    rw [hhead, List.map_cons, List.map_cons, hprim,
      ih fun e he => hchosen e (List.mem_cons_of_mem _ he)]

lemma mem_collapseNotices {notices : List PrimitiveChanged} {n : PrimitiveChanged}
    (hn : n ∈ collapseNotices notices) : n ∈ notices ∧ n.isValid = true ∧
      (n.wasResynched = true ↔ ∃ n' ∈ notices, n'.isValid = true ∧
        n'.changedPrim = n.changedPrim ∧ n'.wasResynched = true) := by
  rw [collapseNotices_eq, List.mem_filterMap] at hn
  obtain ⟨e, he, hsome⟩ := hn
  obtain ⟨n', hin, hsome', hvalid, -, hresync⟩ := chosen_of_mem he
  obtain rfl : n' = n := Option.some.inj (hsome'.symm.trans hsome)
  exact ⟨hin, hvalid, hresync⟩

/-- The call applies an update to a path that the primitive owns. -/
def UpdatedPrim (d : RenderStudioData) (p : SdfPath) : Prop :=
  ∃ path delta, Applies d path delta ∧ delta.fields ≠ [] ∧
    (PrimitiveChanged.of path false).isValid = true ∧ (PrimitiveChanged.of path false).changedPrim = p

/-- During the call a spec is created at a primitive path of `p`. -/
def Created (d : RenderStudioData) (p : SdfPath) : Prop :=
  ∃ v ∈ visits d, v.Creates ∧ v.prim = p

/-- During the call an active field is applied to a path of `p`. -/
def Activated (d : RenderStudioData) (p : SdfPath) : Prop :=
  ∃ v ∈ visits d, v.Activates ∧ v.prim = p

/-- The notices of a call are one for every valid primitive with an update, and a resync exactly if a
spec was created or the primitive activated. -/
structure NoticesExact (d : RenderStudioData) : Prop where
  once : (d.remoteUpdateNotices.1.map (·.changedPrim)).Nodup
  updated : ∀ p, p ∈ d.remoteUpdateNotices.1.map (·.changedPrim) ↔ UpdatedPrim d p
  resynched : ∀ n ∈ d.remoteUpdateNotices.1,
    (n.wasResynched = true ↔ Created d n.changedPrim ∨ Activated d n.changedPrim)

lemma collected_iff_updated (d : RenderStudioData) (p : SdfPath) :
    (∃ n ∈ d.updateFromQueue.notices, n.isValid = true ∧ n.changedPrim = p) ↔ UpdatedPrim d p := by
  simp only [mem_updateFromQueue_notices]
  constructor
  · rintro ⟨n, ⟨v, hv, hn⟩, hvalid, hprim⟩
    obtain ⟨delta, happlies, hfields⟩ := (visits_path d v.path).1 ⟨v, hv, rfl⟩
    refine ⟨v.path, delta, happlies, hfields, ?_⟩
    rcases hn with ⟨rfl, -⟩ | rfl <;> exact ⟨hvalid, hprim⟩
  · rintro ⟨path, delta, happlies, hfields, hvalid, hprim⟩
    obtain ⟨v, hv, rfl⟩ := (visits_path d path).2 ⟨delta, happlies, hfields⟩
    exact ⟨_, ⟨v, hv, .inr rfl⟩, hvalid, hprim⟩

lemma valid_of_prim {d : RenderStudioData} {n : PrimitiveChanged}
    (hn : n ∈ d.updateFromQueue.notices) (hvalid : n.isValid = true) {path : SdfPath}
    {resynched : Bool} (hprim : (PrimitiveChanged.of path resynched).changedPrim = n.changedPrim) :
    (PrimitiveChanged.of path resynched).isValid = true := by
  have hn' : n.isValid =
      (Usd.isPrimPath n.changedPrim && !Usd.isAbsoluteRootPath n.changedPrim) := by
    obtain ⟨v, -, ⟨rfl, -⟩ | rfl⟩ := (mem_updateFromQueue_notices d n).1 hn <;> rfl
  rw [hn', ← hprim] at hvalid
  exact hvalid

lemma resynched_iff {d : RenderStudioData} {n : PrimitiveChanged}
    (hn : n ∈ d.remoteUpdateNotices.1) :
    n.wasResynched = true ↔ Created d n.changedPrim ∨ Activated d n.changedPrim ∨
      ∃ v ∈ visits d, v.Refused ∧ v.prim = n.changedPrim := by
  obtain ⟨hin, hvalid, hresync⟩ := mem_collapseNotices hn
  rw [hresync]
  constructor
  · rintro ⟨n', hin', -, hprim, htrue⟩
    obtain ⟨v, hv, ⟨rfl, hreason⟩ | rfl⟩ := (mem_updateFromQueue_notices d n').1 hin'
    · rcases hreason with ⟨hmissing, hpath⟩ | hactive
      · by_cases htype : v.specType = .unknown
        · exact .inr (.inr ⟨v, hv, ⟨hmissing, htype, hpath⟩, hprim⟩)
        · exact .inl ⟨v, hv, ⟨hmissing, htype, hpath⟩, hprim⟩
      · exact .inr (.inl ⟨v, hv, hactive, hprim⟩)
    · exact absurd htrue Bool.false_ne_true
  · intro h
    obtain ⟨v, hv, hnotes, hprim⟩ : ∃ v ∈ visits d,
        v.Notes (.of v.path true) ∧ v.prim = n.changedPrim := by
      rcases h with ⟨v, hv, ⟨hmissing, -, hpath⟩, hprim⟩ | ⟨v, hv, hactive, hprim⟩ |
        ⟨v, hv, ⟨hmissing, -, hpath⟩, hprim⟩
      · exact ⟨v, hv, ⟨rfl, .inl ⟨hmissing, hpath⟩⟩, hprim⟩
      · exact ⟨v, hv, ⟨rfl, .inr hactive⟩, hprim⟩
      · exact ⟨v, hv, ⟨rfl, .inl ⟨hmissing, hpath⟩⟩, hprim⟩
    refine ⟨.of v.path true, ?_, valid_of_prim hin hvalid hprim, hprim, rfl⟩
    exact (mem_updateFromQueue_notices d _).2 ⟨v, hv, .inl hnotes⟩

/-- The notices of a call are exact if and only if every valid primitive at which `CreateSpec` refused
to create a spec also got one during the call, or was activated. -/
theorem notices_exact_iff (d : RenderStudioData) :
    NoticesExact d ↔ ∀ v ∈ visits d, v.Refused →
      (PrimitiveChanged.of v.path true).isValid = true → Created d v.prim ∨ Activated d v.prim := by
  have hprims : ∀ p, p ∈ d.remoteUpdateNotices.1.map (·.changedPrim) ↔ UpdatedPrim d p := by
    intro p
    rw [← collected_iff_updated, ← mem_noticeGroups, ← collapseNotices_prims]
    rfl
  constructor
  · intro h v hv hrefused hvalid
    have hcollected : v.prim ∈ d.remoteUpdateNotices.1.map (·.changedPrim) := by
      rw [hprims, ← collected_iff_updated]
      exact ⟨.of v.path false, (mem_updateFromQueue_notices d _).2 ⟨v, hv, .inr rfl⟩, hvalid, rfl⟩
    obtain ⟨n, hn, hprim⟩ := List.mem_map.1 hcollected
    rw [← hprim]
    exact (h.resynched n hn).1 ((resynched_iff hn).2 (.inr (.inr ⟨v, hv, hrefused, hprim.symm⟩)))
  · intro h
    refine ⟨?_, hprims, fun n hn => ?_⟩
    · change ((collapseNotices d.updateFromQueue.notices).map (·.changedPrim)).Nodup
      rw [collapseNotices_prims]
      exact AList.keys_nodup _
    · rw [resynched_iff hn]
      constructor
      · rintro (hcreated | hactivated | ⟨v, hv, hrefused, hprim⟩)
        · exact .inl hcreated
        · exact .inr hactivated
        · obtain ⟨hin, hvalid, -⟩ := mem_collapseNotices hn
          rw [← hprim]
          exact h v hv hrefused (valid_of_prim hin hvalid hprim)
      · rintro (hcreated | hactivated)
        · exact .inl hcreated
        · exact .inr (.inl hactivated)

end

section

attribute [local instance] Usd.sample

/-- A delta of unknown type for a prim that does not exist: no spec is created, and the notice is a
resync all the same. -/
theorem resync_without_spec :
    let deltas : HashTable := AList.insert "/a" { fields := [("kind", .token "group")] } ∅
    let d := RenderStudioData.accumulateRemoteUpdate { mIsLoaded := true } deltas 1
    d.processRemoteUpdates.hasSpec "/a" = false ∧
      d.remoteUpdateNotices.1.map (fun n => (n.changedPrim, n.wasResynched)) = [("/a", true)] ∧
      ¬NoticesExact d := by
  intro deltas d
  have hvisits : ∀ v ∈ visits d, v.specType = .unknown ∧ v.key = "kind" := by
    have heq : visits d = [⟨{ d with mIsProcessingRemoteUpdates := true }, "/a", "kind", .unknown⟩] :=
      rfl
    simp [heq]
  have hnotices : d.remoteUpdateNotices.1 = [⟨"/a", true, true⟩] := rfl
  refine ⟨by decide, by rw [hnotices]; rfl, fun h => ?_⟩
  have hresync := (h.resynched ⟨"/a", true, true⟩ (by simp [hnotices])).1 rfl
  rcases hresync with ⟨v, hv, hcreates, -⟩ | ⟨v, hv, hactivates, -⟩
  · exact hcreates.2.1 (hvisits v hv).1
  · have hkey := hactivates.1.symm.trans (hvisits v hv).2
    exact absurd hkey (by decide)

end

end RenderStudioKit.Proofs
