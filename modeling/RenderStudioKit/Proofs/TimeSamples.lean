import RenderStudioKit.Proofs.PathState
import RenderStudioKit.Proofs.RemoteOrder

/-!
# Time samples

`SetTimeSample` and `EraseTimeSample` edit the sample map of an attribute. Where the attribute has
the field already they write into it directly, and the edit is recorded only by `Set`. The results
compare them with a `Set` of the whole map.
-/

namespace RenderStudioKit.Proofs

open PathState

section

variable [Usd]

/-- The two states hold the same specs, local deltas and unacknowledged paths. -/
def SameEdits (d d' : RenderStudioData) : Prop :=
  (∀ path, d.mData.lookup path = d'.mData.lookup path) ∧
    (∀ path, d.mLocalDeltas.lookup path = d'.mLocalDeltas.lookup path) ∧
    d.mUnacknowledgedFields = d'.mUnacknowledgedFields

/-- The samples of an attribute, none if the field is absent or holds something else. -/
def samplesOf (d : RenderStudioData) (path : SdfPath) : SdfTimeSampleMap :=
  ((d.getFieldValue path SdfDataTokens.timeSamples).bind VtValue.getTimeSampleMap).getD []

/-- An edit of the path that sets the samples is waiting to be sent. -/
def PendingSamples (d : RenderStudioData) (path : SdfPath) (samples : SdfTimeSampleMap) : Prop :=
  ∃ edit, d.mLocalDeltas.lookup path = some edit ∧
    edit.fields.lookup SdfDataTokens.timeSamples = some (.timeSampleMap samples)

lemma sameEdits_iff (d d' : RenderStudioData) :
    SameEdits d d' ↔ ∀ path, pathState d path = pathState d' path := by
  unfold SameEdits pathState
  simp only [PathState.mk.injEq, forall_and]
  refine and_congr_right fun _ => and_congr_right fun _ => ?_
  constructor
  · intro h path
    simp [RenderStudioData.isUnacknowledged, h]
  · intro h
    ext path
    simpa [RenderStudioData.isUnacknowledged] using h path

lemma overwriteField_eq {field : TfToken} {fields : List (TfToken × VtValue)}
    (h : (fields.lookup field).isSome) (value : VtValue) :
    overwriteField field value fields = assignField field value fields := by
  induction fields with
  | nil => simp at h
  | cons f fields ih =>
    obtain ⟨name, old⟩ := f
    unfold overwriteField assignField
    by_cases hname : name = field
    · simp [hname]
    · rw [lookup_field_cons, if_neg fun heq => hname heq.symm] at h
      simp [hname, ih h]

lemma getMutableFieldValue_pathState_ne (d : RenderStudioData) {path path' : SdfPath}
    (field : TfToken) (value : VtValue) (hne : path' ≠ path) :
    pathState (d.getMutableFieldValue path field value) path' = pathState d path' := by
  unfold RenderStudioData.getMutableFieldValue pathState
  split
  · rfl
  · simp only [AList.lookup_insert_ne hne]
    rfl

lemma getMutableFieldValue_pathState {d : RenderStudioData} {path : SdfPath} {field : TfToken}
    (h : (d.getFieldValue path field).isSome) (value : VtValue) :
    pathState (d.getMutableFieldValue path field value) path =
      { ((pathState d path).setField field value) with
        edit := (pathState d path).edit
        unacknowledged := (pathState d path).unacknowledged } := by
  rw [getFieldValue_eq] at h
  unfold RenderStudioData.getMutableFieldValue pathState setField
  cases hspec : d.mData.lookup path with
  | none => simp [hspec, fieldAt] at h
  | some spec =>
    have hfield : (spec.fields.lookup field).isSome := by simpa [hspec, fieldAt] using h
    simp only [AList.lookup_insert, overwriteField_eq hfield, Option.map_some]
    rfl

/-- The write into a field that is there agrees with `Set` exactly if the edit it misses to record
is pending already. -/
theorem overwrite_agrees_iff {d : RenderStudioData} (hloaded : d.mIsLoaded = true)
    (hidle : d.mIsProcessingRemoteUpdates = false) {path : SdfPath}
    (h : (d.getFieldValue path SdfDataTokens.timeSamples).isSome) (samples : SdfTimeSampleMap) :
    SameEdits (d.getMutableFieldValue path SdfDataTokens.timeSamples (.timeSampleMap samples))
        (d.set path SdfDataTokens.timeSamples (.timeSampleMap samples)) ↔
      PendingSamples d path samples := by
  have hset := set_pathState hidle hloaded path SdfDataTokens.timeSamples (.timeSampleMap samples)
  rw [PathState.set, if_neg (by simp [VtValue.isEmpty])] at hset
  have hwrite := getMutableFieldValue_pathState h (.timeSampleMap samples)
  have hspec : (d.mData.lookup path).isSome := by
    rw [getFieldValue_eq] at h
    cases hlookup : d.mData.lookup path with
    | none => simp [hlookup, fieldAt] at h
    | some spec => rfl
  obtain ⟨spec, hspec⟩ := Option.isSome_iff_exists.1 hspec
  have hpath : pathState (d.getMutableFieldValue path SdfDataTokens.timeSamples
        (.timeSampleMap samples)) path =
      pathState (d.set path SdfDataTokens.timeSamples (.timeSampleMap samples)) path ↔
      PendingSamples d path samples := by
    rw [hset, hwrite]
    unfold setField editBase pathState PendingSamples
    simp only [PathState.mk.injEq, true_and, hspec]
    cases hedit : d.mLocalDeltas.lookup path with
    | none => simp
    | some edit =>
      have hself := assignField_eq_self_iff SdfDataTokens.timeSamples (.timeSampleMap samples)
        edit.fields
      simp only [Option.some_or, Option.map_some, Option.some.injEq, Option.any_some,
        exists_eq_left']
      constructor
      · rintro ⟨heq, -⟩
        exact hself.1 (congrArg SpecData.fields heq).symm
      · intro hpending
        simp [hself.2 hpending, hpending]
  rw [sameEdits_iff]
  constructor
  · intro hsame
    exact hpath.1 (hsame path)
  · intro hpending path'
    by_cases hne : path' = path
    · rw [hne]
      exact hpath.2 hpending
    · rw [getMutableFieldValue_pathState_ne d _ _ hne, set_pathState_ne d _ _ hne]

lemma SameEdits.refl (d : RenderStudioData) : SameEdits d d :=
  ⟨fun _ => rfl, fun _ => rfl, rfl⟩

variable (less : Usd.Double → Usd.Double → Bool)

/-- `SetTimeSample` agrees with a `Set` of the whole map if there was no field, and otherwise only
if an edit with exactly these samples is pending already. `EraseTimeSample` agrees if no sample is
left, and otherwise under the same condition. That `assign` and `erase` change a map from times to
values at the one time is `SampleQueries.valuesOf_assign` and `SampleQueries.valuesOf_erase`. -/
theorem timeSample_edits_agree_iff {d : RenderStudioData} (hloaded : d.mIsLoaded = true)
    (hidle : d.mIsProcessingRemoteUpdates = false) (path : SdfPath) (time : Usd.Double)
    {value : VtValue} (hvalue : value.isEmpty = false) :
    (SameEdits (d.setTimeSample less path time value)
        (d.set path SdfDataTokens.timeSamples
          (.timeSampleMap (SdfTimeSampleMap.assign less time value (samplesOf d path)))) ↔
      d.getFieldValue path SdfDataTokens.timeSamples = none ∨
        PendingSamples d path (SdfTimeSampleMap.assign less time value (samplesOf d path))) ∧
    ∀ samples, d.getFieldValue path SdfDataTokens.timeSamples = some (.timeSampleMap samples) →
      (SameEdits (d.eraseTimeSample less path time)
        (if SdfTimeSampleMap.erase less time samples = [] then
          d.erase path SdfDataTokens.timeSamples
        else d.set path SdfDataTokens.timeSamples
          (.timeSampleMap (SdfTimeSampleMap.erase less time samples))) ↔
      SdfTimeSampleMap.erase less time samples = [] ∨
        PendingSamples d path (SdfTimeSampleMap.erase less time samples)) := by
  constructor
  · unfold RenderStudioData.setTimeSample samplesOf
    rw [if_neg (by simp [hvalue])]
    cases hfield : d.getFieldValue path SdfDataTokens.timeSamples with
    | none => simp [SameEdits.refl]
    | some old =>
      have hsome : (d.getFieldValue path SdfDataTokens.timeSamples).isSome := by
        rw [hfield]
        rfl
      have hwrite := overwrite_agrees_iff hloaded hidle hsome
        (SdfTimeSampleMap.assign less time value
          (((some old).bind VtValue.getTimeSampleMap).getD []))
      simpa using hwrite
  · intro samples hfield
    unfold RenderStudioData.eraseTimeSample
    rw [hfield]
    by_cases hempty : SdfTimeSampleMap.erase less time samples = []
    · simp [VtValue.getTimeSampleMap, hempty, SameEdits.refl]
    · have hwrite := overwrite_agrees_iff hloaded hidle (by rw [hfield]; rfl)
        (SdfTimeSampleMap.erase less time samples)
      simpa [VtValue.getTimeSampleMap, hempty] using hwrite

end

section

attribute [local instance] Usd.sample

/-- A number of the sample instance. -/
def number (n : Int) : Usd.Double := n

/-- The order of the times of the sample instance. -/
def earlier (time time' : Int) : Bool := decide (time < time')

/-- A loaded layer with the attribute `/a.x`. -/
def animated (fields : List (TfToken × VtValue)) : RenderStudioData :=
  loaded (AList.insert "/a.x" { specType := .attribute, fields := fields } ∅)

/-- The value of a sample. -/
def sample (n : Int) : VtValue := .double (number n)

/-- The first sample of an attribute, and the removal of one of two samples. -/
theorem timeSample_edits_agree_first :
    let one := animated []
    let two := animated
      [("timeSamples", .timeSampleMap [(number 1, sample 5), (number 2, sample 6)])]
    SameEdits (one.setTimeSample earlier "/a.x" (number 1) (sample 5))
        (one.set "/a.x" SdfDataTokens.timeSamples (.timeSampleMap [(number 1, sample 5)])) ∧
      (SameEdits (two.eraseTimeSample earlier "/a.x" (number 1))
          (two.set "/a.x" SdfDataTokens.timeSamples (.timeSampleMap [(number 2, sample 6)])) ↔
        PendingSamples two "/a.x" [(number 2, sample 6)]) := by
  intro one two
  have hone := @timeSample_edits_agree_iff _ earlier one rfl rfl "/a.x" (number 1) (sample 5) rfl
  have htwo := @timeSample_edits_agree_iff _ earlier two rfl rfl "/a.x" (number 1) (sample 5) rfl
  have hleft : SdfTimeSampleMap.erase earlier (number 1) [(number 1, sample 5), (number 2, sample 6)] =
      [(number 2, sample 6)] := rfl
  have herased := htwo.2 [(number 1, sample 5), (number 2, sample 6)] rfl
  rw [hleft] at herased
  exact ⟨hone.1.2 (.inl rfl), by simpa using herased⟩

/-- A second sample and the removal of one of two samples change the data, but are not recorded: the
path has no local delta and is not unacknowledged. -/
theorem second_sample_not_recorded :
    let one := animated [("timeSamples", .timeSampleMap [(number 1, sample 5)])]
    let added := one.setTimeSample earlier "/a.x" (number 2) (sample 6)
    let set := one.set "/a.x" "timeSamples"
      (.timeSampleMap (SdfTimeSampleMap.assign earlier (number 2) (sample 6) (samplesOf one "/a.x")))
    let two := animated
      [("timeSamples", .timeSampleMap [(number 1, sample 5), (number 2, sample 6)])]
    let removed := two.eraseTimeSample earlier "/a.x" (number 1)
    (added.mLocalDeltas.lookup "/a.x").isNone = true ∧
      added.isUnacknowledged "/a.x" = false ∧
      (set.mLocalDeltas.lookup "/a.x").isSome = true ∧ ¬SameEdits added set ∧
      ¬SameEdits removed
        (two.set "/a.x" "timeSamples" (.timeSampleMap [(number 2, sample 6)])) := by
  intro one added set two removed
  refine ⟨by decide, by decide, by decide, fun h => ?_, fun h => ?_⟩
  · have hdelta := congrArg Option.isSome (h.2.1 "/a.x")
    exact absurd hdelta (by decide)
  · have hdelta := congrArg Option.isSome (h.2.1 "/a.x")
    exact absurd hdelta (by decide)

end

end RenderStudioKit.Proofs
