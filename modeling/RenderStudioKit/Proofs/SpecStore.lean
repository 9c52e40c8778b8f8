import RenderStudioKit.Proofs.DeltaLog
import RenderStudioKit.Proofs.RemoteRemoval
import RenderStudioKit.Proofs.TimeSamples

/-!
# The spec store

A layer stores the fields of a spec in a vector that is searched from the front. Without this vector
`mData` is a map from paths to a spec type and a map from fields to values, and every operation of
`RenderStudioData` acts on it as on that map. The samples of an attribute are still the list the code
keeps.
-/

namespace RenderStudioKit.Proofs

section

variable [Usd]

/-- A spec, seen from outside. -/
@[ext]
structure AbstractSpec where
  specType : SdfSpecType
  fields : TfToken → Option VtValue

/-- The specs of a layer, seen from outside. -/
abbrev SpecMap : Type := SdfPath → Option AbstractSpec

/-- The operations that change the specs. `setAbstract` is the `Set` that takes a
`SdfAbstractDataConstValue`. -/
inductive DataOperation where
  | createSpec (path : SdfPath) (specType : SdfSpecType)
  | eraseSpec (path : SdfPath)
  | moveSpec (oldPath newPath : SdfPath)
  | set (path : SdfPath) (field : TfToken) (value : VtValue)
  | setAbstract (path : SdfPath) (field : TfToken) (value : VtValue)
  | erase (path : SdfPath) (field : TfToken)
  | setTimeSample (path : SdfPath) (time : Usd.Double) (value : VtValue)
  | eraseTimeSample (path : SdfPath) (time : Usd.Double)

/-- The paths an operation names. -/
def DataOperation.paths : DataOperation → List SdfPath
  | .createSpec path _ => [path]
  | .eraseSpec path => [path]
  | .moveSpec oldPath newPath => [oldPath, newPath]
  | .set path _ _ => [path]
  | .setAbstract path _ _ => [path]
  | .erase path _ => [path]
  | .setTimeSample path _ _ => [path]
  | .eraseTimeSample path _ => [path]

/-- `less` is the order of the times. -/
def performOperation (less : Usd.Double → Usd.Double → Bool) (d : RenderStudioData) :
    DataOperation → RenderStudioData
  | .createSpec path specType => d.createSpec path specType
  | .eraseSpec path => d.eraseSpec path
  | .moveSpec oldPath newPath => d.moveSpec oldPath newPath
  | .set path field value => d.set path field value
  | .setAbstract path field value => d.setAbstract path field value
  | .erase path field => d.erase path field
  | .setTimeSample path time value => d.setTimeSample less path time value
  | .eraseTimeSample path time => d.eraseTimeSample less path time

namespace SpecMap

variable (m : SpecMap)

/-- The value of a field. -/
def field (path : SdfPath) (key : TfToken) : Option VtValue :=
  (m path).bind (·.fields key)

/-- The samples of a path, none if there is no field for them or it holds something else. -/
def samples (path : SdfPath) : Option SdfTimeSampleMap :=
  (m.field path SdfDataTokens.timeSamples).bind VtValue.getTimeSampleMap

/-- Gives a field a value, or removes it; a path without spec stays without. -/
def setField (path : SdfPath) (key : TfToken) (value : Option VtValue) : SpecMap :=
  Function.update m path ((m path).map fun spec =>
    { spec with fields := Function.update spec.fields key value })

/-- The spec keeps its fields if there is one. An unknown type is refused. -/
def createSpec (path : SdfPath) (specType : SdfSpecType) : SpecMap :=
  if specType = .unknown then m
  else Function.update m path (some ⟨specType, m.field path⟩)

/-- The spec moves if it exists and there is none at its target. -/
def moveSpec (oldPath newPath : SdfPath) : SpecMap :=
  match m oldPath, m newPath with
  | some spec, none => Function.update (Function.update m newPath (some spec)) oldPath none
  | _, _ => m

/-- A path that is left without samples loses the field. -/
def eraseSample (less : Usd.Double → Usd.Double → Bool) (path : SdfPath) (time : Usd.Double) :
    SpecMap :=
  match m.samples path with
  | none => m
  | some samples =>
    let left := SdfTimeSampleMap.erase less time samples
    m.setField path SdfDataTokens.timeSamples
      (if left.isEmpty then none else some (.timeSampleMap left))

def setSample (less : Usd.Double → Usd.Double → Bool) (path : SdfPath) (time : Usd.Double)
    (value : VtValue) : SpecMap :=
  m.setField path SdfDataTokens.timeSamples
    (some (.timeSampleMap (SdfTimeSampleMap.assign less time value ((m.samples path).getD []))))

/-- An empty value stands for no value. -/
def performOperation (less : Usd.Double → Usd.Double → Bool) : DataOperation → SpecMap
  | .createSpec path specType => m.createSpec path specType
  | .eraseSpec path => Function.update m path none
  | .moveSpec oldPath newPath => m.moveSpec oldPath newPath
  | .set path key value => m.setField path key (if value.isEmpty then none else some value)
  | .setAbstract path key value => m.setField path key (some value)
  | .erase path key => m.setField path key none
  | .setTimeSample path time value =>
    if value.isEmpty then m.eraseSample less path time else m.setSample less path time value
  | .eraseTimeSample path time => m.eraseSample less path time

end SpecMap

/-- What a spec of the store represents. -/
def abstractSpec (spec : SpecData) : AbstractSpec :=
  ⟨spec.specType, fun key => spec.fields.lookup key⟩

/-- What the store represents. -/
def represented (d : RenderStudioData) : SpecMap :=
  fun path => (d.mData.lookup path).map abstractSpec

section

variable {d d' : RenderStudioData} {path : SdfPath}

lemma represented_congr (h : d'.mData = d.mData) : represented d' = represented d := by
  unfold represented
  rw [h]

lemma represented_insert {spec : SpecData} (h : d'.mData = d.mData.insert path spec) :
    represented d' = Function.update (represented d) path (some (abstractSpec spec)) := by
  funext other
  unfold represented
  by_cases hother : other = path
  · subst hother
    rw [h, AList.lookup_insert, Function.update_self, Option.map_some]
  · rw [h, AList.lookup_insert_ne hother, Function.update_of_ne hother]

lemma represented_erase (h : d'.mData = d.mData.erase path) :
    represented d' = Function.update (represented d) path none := by
  funext other
  unfold represented
  by_cases hother : other = path
  · subst hother
    rw [h, AList.lookup_erase, Function.update_self, Option.map_none]
  · rw [h, AList.lookup_erase_ne hother, Function.update_of_ne hother]

lemma field_represented (d : RenderStudioData) (path : SdfPath) (key : TfToken) :
    (represented d).field path key = d.getFieldValue path key := by
  rw [getFieldValue_eq, SpecMap.field, represented, fieldAt]
  cases d.mData.lookup path <;> rfl

lemma samples_represented (d : RenderStudioData) (path : SdfPath) :
    (represented d).samples path =
      (d.getFieldValue path SdfDataTokens.timeSamples).bind VtValue.getTimeSampleMap := by
  rw [SpecMap.samples, field_represented]

lemma represented_setField {key : TfToken} {value : Option VtValue}
    (fields : SpecData → List (TfToken × VtValue))
    (hnone : d.mData.lookup path = none → d'.mData = d.mData)
    (hsome : ∀ spec, d.mData.lookup path = some spec →
      d'.mData = d.mData.insert path { spec with fields := fields spec })
    (hlookup : ∀ spec, d.mData.lookup path = some spec → ∀ name,
      (fields spec).lookup name = if name = key then value else spec.fields.lookup name) :
    represented d' = (represented d).setField path key value := by
  have hspec : represented d path = (d.mData.lookup path).map abstractSpec := rfl
  unfold SpecMap.setField
  rw [hspec]
  cases h : d.mData.lookup path with
  | none =>
    rw [represented_congr (hnone h), Option.map_none, Option.map_none, eq_comm,
      Function.update_eq_self_iff, hspec, h, Option.map_none]
  | some spec =>
    have hfields : abstractSpec { spec with fields := fields spec } =
        { abstractSpec spec with
          fields := Function.update (abstractSpec spec).fields key value } := by
      refine AbstractSpec.ext rfl (funext fun name => ?_)
      change (fields spec).lookup name =
        Function.update (fun name => spec.fields.lookup name) key value name
      rw [hlookup spec h, Function.update_apply]
    rw [represented_insert (hsome spec h), hfields, Option.map_some, Option.map_some]

end

section

variable {d : RenderStudioData} (h : ProperTable d.mData) (path : SdfPath)

include h

lemma represented_of_erase (field : TfToken) :
    represented (d.erase path field) = (represented d).setField path field none := by
  refine represented_setField (fun spec => eraseField field spec.fields)
    (fun hnone => ?_) (fun spec hspec => ?_) fun spec hspec name => ?_
  · rw [RenderStudioData.erase, hnone]
  · rw [RenderStudioData.erase, hspec]
  · by_cases hname : name = field
    · rw [if_pos hname, hname]
      exact lookup_eraseField (h path spec hspec).nodup
    · rw [if_neg hname]
      exact lookup_eraseField_ne hname spec.fields

omit h in
lemma represented_of_setAbstract (field : TfToken) (value : VtValue) :
    represented (d.setAbstract path field value) =
      (represented d).setField path field (some value) := by
  refine represented_setField (fun spec => assignField field value spec.fields)
    (fun hnone => ?_) (fun spec hspec => ?_) fun spec _ name => lookup_assignField field value _ name
  · rw [setAbstract_mData, RenderStudioData.getOrCreateFieldValue, hnone]
  · rw [setAbstract_mData, RenderStudioData.getOrCreateFieldValue, hspec]

lemma represented_of_set (field : TfToken) (value : VtValue) :
    represented (d.set path field value) =
      (represented d).setField path field (if value.isEmpty then none else some value) := by
  unfold RenderStudioData.set
  split_ifs
  · exact represented_of_erase h path field
  · exact represented_of_setAbstract path field value

omit h in
lemma represented_of_getMutableFieldValue {field : TfToken} {value : VtValue}
    (hfield : (d.getFieldValue path field).isSome) :
    represented (d.getMutableFieldValue path field value) =
      (represented d).setField path field (some value) := by
  refine represented_setField (fun spec => overwriteField field value spec.fields)
    (fun hnone => ?_) (fun spec hspec => ?_) fun spec hspec name => ?_
  · rw [RenderStudioData.getMutableFieldValue, hnone]
  · rw [RenderStudioData.getMutableFieldValue, hspec]
  · rw [RenderStudioData.getFieldValue, hspec] at hfield
    rw [overwriteField_eq hfield, lookup_assignField]

lemma represented_of_eraseTimeSample (less : Usd.Double → Usd.Double → Bool) (time : Usd.Double) :
    represented (d.eraseTimeSample less path time) = (represented d).eraseSample less path time := by
  unfold RenderStudioData.eraseTimeSample SpecMap.eraseSample
  rw [samples_represented]
  cases hsamples : (d.getFieldValue path SdfDataTokens.timeSamples).bind
      VtValue.getTimeSampleMap with
  | none => rfl
  | some samples =>
    have hfield : (d.getFieldValue path SdfDataTokens.timeSamples).isSome := by
      obtain ⟨value, hvalue, -⟩ := Option.bind_eq_some_iff.1 hsamples
      rw [hvalue]
      rfl
    dsimp only
    split_ifs
    · exact represented_of_erase h path _
    · exact represented_of_getMutableFieldValue path hfield

lemma represented_of_setTimeSample (less : Usd.Double → Usd.Double → Bool) (time : Usd.Double)
    (value : VtValue) : represented (d.setTimeSample less path time value) =
      if value.isEmpty then (represented d).eraseSample less path time
      else (represented d).setSample less path time value := by
  unfold RenderStudioData.setTimeSample SpecMap.setSample
  split_ifs
  · exact represented_of_eraseTimeSample h path less time
  · rw [samples_represented]
    cases hfield : d.getFieldValue path SdfDataTokens.timeSamples with
    | none => exact represented_of_set h path _ _
    | some old => exact represented_of_getMutableFieldValue path (by rw [hfield]; rfl)

omit h in
lemma represented_of_createSpec (specType : SdfSpecType) :
    represented (d.createSpec path specType) = (represented d).createSpec path specType := by
  unfold RenderStudioData.createSpec SpecMap.createSpec
  split_ifs
  · rfl
  · have hspec : abstractSpec { (d.mData.lookup path).getD {} with specType := specType } =
        ⟨specType, (represented d).field path⟩ := by
      refine AbstractSpec.ext rfl (funext fun key => ?_)
      change ((d.mData.lookup path).getD {}).fields.lookup key = (represented d).field path key
      rw [field_represented, getFieldValue_eq]
      cases d.mData.lookup path <;> rfl
    rw [← hspec]
    exact represented_insert rfl

omit h in
lemma represented_of_moveSpec (newPath : SdfPath) :
    represented (d.moveSpec path newPath) = (represented d).moveSpec path newPath := by
  have hold : represented d path = (d.mData.lookup path).map abstractSpec := rfl
  have hnew : represented d newPath = (d.mData.lookup newPath).map abstractSpec := rfl
  unfold RenderStudioData.moveSpec SpecMap.moveSpec
  rw [hold, hnew]
  cases hspec : d.mData.lookup path with
  | none => rfl
  | some spec =>
    cases htarget : d.mData.lookup newPath with
    | some target =>
      have hmem : newPath ∈ d.mData := AList.lookup_isSome.1 (by rw [htarget]; rfl)
      simp [hmem]
    | none =>
      have hmem : newPath ∉ d.mData := AList.lookup_eq_none.1 htarget
      have hinsert : represented { d with mData := d.mData.insert newPath spec } =
          Function.update (represented d) newPath (some (abstractSpec spec)) :=
        represented_insert rfl
      simp only [hmem, if_false, Option.map_some, Option.map_none]
      rw [← hinsert]
      exact represented_erase rfl

lemma represented_of_performOperation (less : Usd.Double → Usd.Double → Bool)
    (operation : DataOperation) : represented (performOperation less d operation) =
      (represented d).performOperation less operation := by
  cases operation with
  | createSpec path specType => exact represented_of_createSpec path specType
  | eraseSpec path => exact represented_erase rfl
  | moveSpec oldPath newPath => exact represented_of_moveSpec oldPath newPath
  | set path field value => exact represented_of_set h path field value
  | setAbstract path field value => exact represented_of_setAbstract path field value
  | erase path field => exact represented_of_erase h path field
  | setTimeSample path time value => exact represented_of_setTimeSample h path less time value
  | eraseTimeSample path time => exact represented_of_eraseTimeSample h path less time

lemma proper_getMutableFieldValue {field : TfToken} (value : VtValue)
    (hfield : (d.getFieldValue path field).isSome) :
    ProperTable (d.getMutableFieldValue path field value).mData := by
  unfold RenderStudioData.getMutableFieldValue
  cases hspec : d.mData.lookup path with
  | none => exact h
  | some spec =>
    have hproper := h path spec hspec
    rw [RenderStudioData.getFieldValue, hspec] at hfield
    refine h.insert ⟨hproper.typed, ?_⟩
    rw [overwriteField_eq hfield]
    exact (assignField_keys_nodup field value hproper.nodup).1

lemma proper_eraseTimeSample (less : Usd.Double → Usd.Double → Bool) (time : Usd.Double) :
    ProperTable (d.eraseTimeSample less path time).mData := by
  unfold RenderStudioData.eraseTimeSample
  cases hsamples : (d.getFieldValue path SdfDataTokens.timeSamples).bind
      VtValue.getTimeSampleMap with
  | none => exact h
  | some samples =>
    obtain ⟨value, hvalue, -⟩ := Option.bind_eq_some_iff.1 hsamples
    dsimp only
    split_ifs
    · exact h.erase path _
    · exact proper_getMutableFieldValue h path _ (by rw [hvalue]; rfl)

lemma proper_performOperation (less : Usd.Double → Usd.Double → Bool) (operation : DataOperation) :
    ProperTable (performOperation less d operation).mData := by
  cases operation with
  | createSpec path specType => exact h.createSpec path specType
  | eraseSpec path => exact h.remove path
  | moveSpec oldPath newPath =>
    change ProperTable (d.moveSpec oldPath newPath).mData
    unfold RenderStudioData.moveSpec
    cases hspec : d.mData.lookup oldPath with
    | none => exact h
    | some spec =>
      dsimp only
      split_ifs
      · exact h
      · exact (h.insert (h oldPath spec hspec)).remove oldPath
  | set path field value => exact h.set path field value
  | setAbstract path field value => exact h.setAbstract path field value
  | erase path field => exact h.erase path field
  | setTimeSample path time value =>
    change ProperTable (d.setTimeSample less path time value).mData
    unfold RenderStudioData.setTimeSample
    split_ifs
    · exact proper_eraseTimeSample h path less time
    · cases hfield : d.getFieldValue path SdfDataTokens.timeSamples with
      | none => exact h.set path _ _
      | some old => exact proper_getMutableFieldValue h path _ (by rw [hfield]; rfl)
  | eraseTimeSample path time => exact proper_eraseTimeSample h path less time

end

section

variable (d : RenderStudioData) {path other : SdfPath} (hother : other ≠ path)

include hother

lemma lookup_erase_of_ne (field : TfToken) :
    (d.erase path field).mData.lookup other = d.mData.lookup other := by
  unfold RenderStudioData.erase
  split
  · rfl
  · exact AList.lookup_insert_ne hother

lemma lookup_getMutableFieldValue_ne (field : TfToken) (value : VtValue) :
    (d.getMutableFieldValue path field value).mData.lookup other = d.mData.lookup other := by
  unfold RenderStudioData.getMutableFieldValue
  split
  · rfl
  · exact AList.lookup_insert_ne hother

lemma lookup_setAbstract_ne (field : TfToken) (value : VtValue) :
    (d.setAbstract path field value).mData.lookup other = d.mData.lookup other := by
  rw [setAbstract_mData]
  unfold RenderStudioData.getOrCreateFieldValue
  split
  · rfl
  · exact AList.lookup_insert_ne hother

lemma lookup_eraseTimeSample_ne (less : Usd.Double → Usd.Double → Bool) (time : Usd.Double) :
    (d.eraseTimeSample less path time).mData.lookup other = d.mData.lookup other := by
  unfold RenderStudioData.eraseTimeSample
  split
  · rfl
  · dsimp only
    split_ifs
    · exact lookup_erase_of_ne d hother _
    · exact lookup_getMutableFieldValue_ne d hother _ _

lemma lookup_setTimeSample_ne (less : Usd.Double → Usd.Double → Bool) (time : Usd.Double)
    (value : VtValue) :
    (d.setTimeSample less path time value).mData.lookup other = d.mData.lookup other := by
  unfold RenderStudioData.setTimeSample
  split_ifs
  · exact lookup_eraseTimeSample_ne d hother less time
  · dsimp only
    split
    · exact lookup_getMutableFieldValue_ne d hother _ _
    · exact lookup_set_ne d _ _ hother

end

lemma lookup_moveSpec_ne (d : RenderStudioData) {oldPath newPath other : SdfPath}
    (hold : other ≠ oldPath) (hnew : other ≠ newPath) :
    (d.moveSpec oldPath newPath).mData.lookup other = d.mData.lookup other := by
  unfold RenderStudioData.moveSpec
  split
  · rfl
  · split_ifs
    · rfl
    · exact (AList.lookup_erase_ne hold).trans (AList.lookup_insert_ne hnew)

lemma lookup_performOperation_ne (less : Usd.Double → Usd.Double → Bool) (d : RenderStudioData)
    (operation : DataOperation) {other : SdfPath} (hother : other ∉ operation.paths) :
    (performOperation less d operation).mData.lookup other = d.mData.lookup other := by
  cases operation with
  | createSpec path specType => exact lookup_createSpec_ne d specType (List.ne_of_not_mem_cons hother)
  | eraseSpec path => exact AList.lookup_erase_ne (List.ne_of_not_mem_cons hother)
  | moveSpec oldPath newPath =>
    have hnew := List.not_mem_of_not_mem_cons hother
    exact lookup_moveSpec_ne d (List.ne_of_not_mem_cons hother) (List.ne_of_not_mem_cons hnew)
  | set path field value => exact lookup_set_ne d field value (List.ne_of_not_mem_cons hother)
  | setAbstract path field value =>
    exact lookup_setAbstract_ne d (List.ne_of_not_mem_cons hother) field value
  | erase path field => exact lookup_erase_of_ne d (List.ne_of_not_mem_cons hother) field
  | setTimeSample path time value =>
    exact lookup_setTimeSample_ne d (List.ne_of_not_mem_cons hother) less time value
  | eraseTimeSample path time =>
    exact lookup_eraseTimeSample_ne d (List.ne_of_not_mem_cons hother) less time

lemma moveSpec_refused {d : RenderStudioData} {oldPath newPath : SdfPath}
    (h : d.hasSpec oldPath = false ∨ d.hasSpec newPath = true) :
    d.moveSpec oldPath newPath = d := by
  rw [hasSpec_eq, hasSpec_eq] at h
  unfold RenderStudioData.moveSpec
  rcases h with hmissing | htarget
  · rw [Option.isSome_eq_false_iff, Option.isNone_iff_eq_none] at hmissing
    rw [hmissing]
  · split
    · rfl
    · rw [if_pos (AList.lookup_isSome.1 htarget)]

end

end RenderStudioKit.Proofs
