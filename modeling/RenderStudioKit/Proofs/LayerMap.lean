import Mathlib.Data.Set.Finite.Basic
import RenderStudioKit.Proofs.SampleQueries

/-!
# The layer as a finite map

Seen from outside a layer is a finite map from paths to a spec type and a finite map from fields to
values, where time samples are a finite map from times to values. Every operation of `RenderStudioData`
acts on `mData` as on this map, and every query is answered from it.
-/

namespace RenderStudioKit.Proofs

open SampleQueries SortedKeys

section

variable [Usd] {κ : Type*} [LinearOrder κ]

/-- A value as a layer holds it: time samples by their times, anything else as it is. -/
inductive LayerValue (κ : Type*) where
  | samples (values : κ → Option VtValue)
  | plain (value : VtValue)

@[ext]
structure LayerSpec (κ : Type*) where
  specType : SdfSpecType
  fields : TfToken → Option (LayerValue κ)

/-- The specs of a layer. -/
abbrev LayerMap (κ : Type*) : Type _ := SdfPath → Option (LayerSpec κ)

/-- The values at times of time samples. -/
def LayerValue.values : LayerValue κ → Option (κ → Option VtValue)
  | .samples values => some values
  | .plain _ => none

namespace LayerMap

variable (m : LayerMap κ)

def specType (path : SdfPath) : SdfSpecType := ((m path).map LayerSpec.specType).getD .unknown

def field (path : SdfPath) (field : TfToken) : Option (LayerValue κ) :=
  (m path).bind (·.fields field)

/-- The samples of a path, none if there is no field for them or it holds something else. -/
def samples (path : SdfPath) : Option (κ → Option VtValue) :=
  (m.field path SdfDataTokens.timeSamples).bind LayerValue.values

/-- The value of a path at a time. -/
def sample (path : SdfPath) (k : κ) : Option VtValue := (m.samples path).bind fun values => values k

/-- The times of a path. -/
def times (path : SdfPath) : Set κ := {k | (m.sample path k).isSome}

/-- Gives a field a value, or removes it; a path without spec stays without. -/
def setField (path : SdfPath) (field : TfToken) (value : Option (LayerValue κ)) : LayerMap κ :=
  Function.update m path ((m path).map fun spec =>
    { spec with fields := Function.update spec.fields field value })

/-- The spec keeps its fields if there is one. An unknown type is refused. -/
def createSpec (path : SdfPath) (specType : SdfSpecType) : LayerMap κ :=
  if specType = .unknown then m
  else Function.update m path (some ⟨specType, m.field path⟩)

/-- The spec moves if it exists and there is none at its target. -/
def moveSpec (oldPath newPath : SdfPath) : LayerMap κ :=
  match m oldPath, m newPath with
  | some spec, none => Function.update (Function.update m newPath (some spec)) oldPath none
  | _, _ => m

open Classical in
/-- A path that is left without samples loses the field. -/
noncomputable def eraseSample (path : SdfPath) (k : κ) : LayerMap κ :=
  match m.samples path with
  | none => m
  | some values =>
    m.setField path SdfDataTokens.timeSamples
      (if Function.update values k none = fun _ => none then none
        else some (.samples (Function.update values k none)))

/-- The other samples stay; a field that holds something else is overwritten. -/
def setSample (path : SdfPath) (k : κ) (value : VtValue) : LayerMap κ :=
  m.setField path SdfDataTokens.timeSamples
    (some (.samples (Function.update ((m.samples path).getD fun _ => none) k (some value))))

/-- Finitely many paths have a spec, finitely many fields of each a value, and finitely many times a
sample. -/
structure IsFinite : Prop where
  specs : {path | (m path).isSome}.Finite
  fields : ∀ path, {field | (m.field path field).isSome}.Finite
  samples : ∀ path, (m.times path).Finite

end LayerMap

variable {less equal : Usd.Double → Usd.Double → Bool} {number : Usd.Double → Prop}
  {key : Usd.Double → κ} {time : Usd.Double}

def LayerValue.of (key : Usd.Double → κ) (value : VtValue) : LayerValue κ :=
  match value.getTimeSampleMap with
  | some map => .samples (valuesOf key (some (.timeSampleMap map)))
  | none => .plain value

/-- What an operation does to the map. An empty value stands for no value. -/
noncomputable def LayerMap.perform (m : LayerMap κ) (key : Usd.Double → κ) :
    DataOperation → LayerMap κ
  | .createSpec path specType => m.createSpec path specType
  | .eraseSpec path => Function.update m path none
  | .moveSpec oldPath newPath => m.moveSpec oldPath newPath
  | .set path field value =>
    m.setField path field (if value.isEmpty then none else some (.of key value))
  | .setAbstract path field value => m.setField path field (some (.of key value))
  | .erase path field => m.setField path field none
  | .setTimeSample path time value =>
    if value.isEmpty then m.eraseSample path (key time) else m.setSample path (key time) value
  | .eraseTimeSample path time => m.eraseSample path (key time)

def layerSpec (key : Usd.Double → κ) (spec : AbstractSpec) : LayerSpec κ :=
  ⟨spec.specType, fun field => (spec.fields field).map (.of key)⟩

def layerMap (key : Usd.Double → κ) (m : SpecMap) : LayerMap κ :=
  fun path => (m path).map (layerSpec key)

/-- What a layer stores. -/
def stored (key : Usd.Double → κ) (d : RenderStudioData) : LayerMap κ :=
  layerMap key (represented d)

section

variable {m : SpecMap} {path : SdfPath}

lemma LayerValue.values_of (value : VtValue) :
    (LayerValue.of key value).values =
      value.getTimeSampleMap.map fun samples => valuesOf key (some (.timeSampleMap samples)) := by
  unfold LayerValue.of
  cases value.getTimeSampleMap <;> rfl

lemma layerMap_field (m : SpecMap) (path : SdfPath) (field : TfToken) :
    (layerMap key m).field path field = (m.field path field).map (.of key) := by
  unfold LayerMap.field SpecMap.field layerMap
  cases m path <;> rfl

lemma layerMap_samples (m : SpecMap) (path : SdfPath) :
    (layerMap key m).samples path =
      (m.samples path).map fun samples => valuesOf key (some (.timeSampleMap samples)) := by
  unfold LayerMap.samples SpecMap.samples
  rw [layerMap_field]
  cases m.field path SdfDataTokens.timeSamples with
  | none => rfl
  | some value => exact LayerValue.values_of value

lemma layerMap_update (m : SpecMap) (path : SdfPath) (spec : Option AbstractSpec) :
    layerMap key (Function.update m path spec) =
      Function.update (layerMap key m) path (spec.map (layerSpec key)) := by
  funext other
  unfold layerMap
  by_cases hother : other = path
  · subst hother
    rw [Function.update_self, Function.update_self]
  · rw [Function.update_of_ne hother, Function.update_of_ne hother]

lemma layerMap_setField (m : SpecMap) (path : SdfPath) (field : TfToken) (value : Option VtValue) :
    layerMap key (m.setField path field value) =
      (layerMap key m).setField path field (value.map (.of key)) := by
  have hspec : ∀ spec : AbstractSpec,
      layerSpec key { spec with fields := Function.update spec.fields field value } =
        { layerSpec key spec with
          fields := Function.update (layerSpec key spec).fields field (value.map (.of key)) } := by
    intro spec
    refine LayerSpec.ext rfl (funext fun name => ?_)
    change (Function.update spec.fields field value name).map (LayerValue.of key) =
      Function.update (fun name => (spec.fields name).map (LayerValue.of key)) field _ name
    rw [Function.update_apply, Function.update_apply]
    split_ifs <;> rfl
  unfold SpecMap.setField LayerMap.setField
  rw [layerMap_update]
  congr 1
  unfold layerMap
  cases m path with
  | none => rfl
  | some spec => exact congrArg some (hspec spec)

lemma layerMap_createSpec (m : SpecMap) (path : SdfPath) (specType : SdfSpecType) :
    layerMap key (m.createSpec path specType) = (layerMap key m).createSpec path specType := by
  have hspec : layerSpec key ⟨specType, m.field path⟩ =
      ⟨specType, (layerMap key m).field path⟩ := by
    refine LayerSpec.ext rfl (funext fun field => ?_)
    exact (layerMap_field m path field).symm
  unfold SpecMap.createSpec LayerMap.createSpec
  split_ifs
  · rfl
  · rw [layerMap_update, Option.map_some, hspec]

lemma layerMap_moveSpec (m : SpecMap) (oldPath newPath : SdfPath) :
    layerMap key (m.moveSpec oldPath newPath) = (layerMap key m).moveSpec oldPath newPath := by
  have hold : layerMap key m oldPath = (m oldPath).map (layerSpec key) := rfl
  have hnew : layerMap key m newPath = (m newPath).map (layerSpec key) := rfl
  unfold SpecMap.moveSpec LayerMap.moveSpec
  rw [hold, hnew]
  cases m oldPath with
  | none => rfl
  | some spec =>
    cases m newPath with
    | some target => rfl
    | none =>
      dsimp only [Option.map_some, Option.map_none]
      rw [layerMap_update, layerMap_update]
      rfl

lemma valuesOf_eq_none_iff {samples : SdfTimeSampleMap} (h : OrderedSamples number key samples) :
    (valuesOf key (some (.timeSampleMap samples)) = fun _ => none) ↔ samples = [] := by
  constructor
  · intro hnone
    cases samples with
    | nil => rfl
    | cons first rest =>
      have hfirst := congrFun hnone (key first.1)
      have hseek : seekKey (fun s => key s.1) (key first.1) (first :: rest) = some first :=
        (seekKey_eq_some_iff h.1).2 ⟨List.mem_cons_self, rfl⟩
      rw [valuesOf_map] at hfirst
      dsimp only at hfirst
      rw [hseek] at hfirst
      cases hfirst
  · rintro rfl
    rfl

lemma layerMap_eraseSample (horder : OrdersTimes less equal number key)
    (h : OrderedMap number key m) (htime : number time) :
    layerMap key (m.eraseSample less path time) = (layerMap key m).eraseSample path (key time) := by
  unfold SpecMap.eraseSample LayerMap.eraseSample
  rw [layerMap_samples]
  cases hsamples : m.samples path with
  | none => rfl
  | some samples =>
    have hordered := h.samples hsamples
    have herased := valuesOf_erase horder hordered htime
    have hleft : OrderedSamples number key (SdfTimeSampleMap.erase less time samples) := by
      rw [erase_eq horder hordered.2 htime]
      exact ⟨hordered.1.removeKey, fun s hs => hordered.2 s (mem_of_mem_removeKey hs)⟩
    have hempty := valuesOf_eq_none_iff hleft
    rw [herased] at hempty
    dsimp only [Option.map_some]
    rw [layerMap_setField]
    simp only [List.isEmpty_iff, hempty]
    split_ifs
    · rfl
    · rw [← herased]
      rfl

lemma layerMap_setSample (horder : OrdersTimes less equal number key)
    (h : OrderedMap number key m) (htime : number time) (value : VtValue) :
    layerMap key (m.setSample less path time value) =
      (layerMap key m).setSample path (key time) value := by
  have hassigned := valuesOf_assign horder (h.getD_samples path) htime value
  have hsamples : valuesOf key (some (.timeSampleMap ((m.samples path).getD []))) =
      ((layerMap key m).samples path).getD fun _ => none := by
    rw [layerMap_samples]
    cases m.samples path <;> rfl
  unfold SpecMap.setSample LayerMap.setSample
  rw [layerMap_setField, ← hsamples, ← hassigned]
  rfl

lemma layerMap_perform (horder : OrdersTimes less equal number key) (h : OrderedMap number key m)
    {operation : DataOperation} (hoperation : OrderedOperation number key operation) :
    layerMap key (m.performOperation less operation) = (layerMap key m).perform key operation := by
  cases operation with
  | createSpec path specType => exact layerMap_createSpec m path specType
  | eraseSpec path => exact layerMap_update m path none
  | moveSpec oldPath newPath => exact layerMap_moveSpec m oldPath newPath
  | set path field value =>
    unfold SpecMap.performOperation LayerMap.perform
    dsimp only
    rw [layerMap_setField]
    split_ifs <;> rfl
  | setAbstract path field value => exact layerMap_setField m path field (some value)
  | erase path field => exact layerMap_setField m path field none
  | setTimeSample path time value =>
    unfold SpecMap.performOperation LayerMap.perform
    dsimp only
    split_ifs
    · exact layerMap_eraseSample horder h hoperation
    · exact layerMap_setSample horder h hoperation value
  | eraseTimeSample path time => exact layerMap_eraseSample horder h hoperation

end

section

variable {d : RenderStudioData}

lemma stored_field (d : RenderStudioData) (path : SdfPath) (field : TfToken) :
    (stored key d).field path field = (d.getFieldValue path field).map (.of key) := by
  rw [stored, layerMap_field, field_represented]

lemma stored_isSome (d : RenderStudioData) (path : SdfPath) :
    (stored key d path).isSome = d.hasSpec path := by
  unfold stored layerMap represented
  rw [hasSpec_eq, Option.isSome_map, Option.isSome_map]

lemma stored_specType (d : RenderStudioData) (path : SdfPath) :
    (stored key d).specType path = d.getSpecType path := by
  unfold LayerMap.specType stored layerMap represented
  rw [getSpecType_eq, Option.map_map, Option.map_map]
  rfl

lemma stored_sample (d : RenderStudioData) (path : SdfPath) (k : κ) :
    (stored key d).sample path k = (sampleTable key d).value path k := by
  unfold LayerMap.sample stored sampleTable
  rw [layerMap_samples, value_tableOf, valuesOf_field]
  cases (represented d).samples path <;> rfl

end

/-- Every query is answered from the map. -/
structure LayerMap.Answers (less : Usd.Double → Usd.Double → Bool) (number : Usd.Double → Prop)
    (key : Usd.Double → κ) (d : RenderStudioData) (m : LayerMap κ) : Prop where
  hasSpec : ∀ path, d.hasSpec path = (m path).isSome
  getSpecType : ∀ path, d.getSpecType path = m.specType path
  has : ∀ path field, (d.has path field).map (.of key) = m.field path field
  hasAbstract : ∀ path field storeValue,
    d.hasAbstract path field storeValue = (d.has path field).any storeValue
  hasSpecAndField : ∀ path field,
    d.hasSpecAndField path field = (m.specType path, d.has path field)
  hasSpecAndFieldAbstract : ∀ path field storeValue,
    d.hasSpecAndFieldAbstract path field storeValue =
      (m.specType path, (d.has path field).any storeValue)
  get : ∀ path field, d.get path field = (d.has path field).getD .empty
  list : ∀ path, (d.list path).Nodup ∧ ∀ field, field ∈ d.list path ↔ (m.field path field).isSome
  queryTimeSample : ∀ path time, number time →
    d.queryTimeSample less path time = m.sample path (key time)
  queryTimeSampleAbstract : ∀ path time storeValue, number time →
    d.queryTimeSampleAbstract less path time storeValue = (m.sample path (key time)).any storeValue
  listTimeSamplesForPath : ∀ path, Ascending key (d.listTimeSamplesForPath less path) ∧
    keySet key (d.listTimeSamplesForPath less path) = m.times path

section

variable {d : RenderStudioData}

lemma any_eq_match (value : Option VtValue) (storeValue : VtValue → Bool) :
    (match value with | none => false | some v => storeValue v) = value.any storeValue := by
  cases value <;> rfl

lemma getSpecTypeAndFieldValue_eq (d : RenderStudioData) (path : SdfPath) (field : TfToken) :
    d.getSpecTypeAndFieldValue path field = (d.getSpecType path, d.getFieldValue path field) := by
  unfold RenderStudioData.getSpecTypeAndFieldValue RenderStudioData.getSpecType
    RenderStudioData.getFieldValue
  cases d.mData.lookup path <;> rfl

lemma list_spec (h : ProperTable d.mData) (path : SdfPath) :
    (d.list path).Nodup ∧
      ∀ field, field ∈ d.list path ↔ ((stored key d).field path field).isSome := by
  simp only [stored_field, Option.isSome_map]
  unfold RenderStudioData.list RenderStudioData.getFieldValue
  cases hspec : d.mData.lookup path with
  | none => simp
  | some spec =>
    refine ⟨(h path spec hspec).nodup, fun field => ?_⟩
    dsimp only
    rw [List.lookup_isSome_iff]
    simp

lemma times_stored (d : RenderStudioData) (path : SdfPath) :
    (stored key d).times path = (sampleTable key d).times path := by
  unfold LayerMap.times SampleTable.times
  simp only [stored_sample]

lemma answers_stored (horder : OrdersTimes less equal number key) (hproper : ProperTable d.mData)
    (hordered : OrderedMap number key (represented d)) :
    LayerMap.Answers less number key d (stored key d) := by
  have hsamples := answeredFrom_tableOf horder hordered
  have hquery : ∀ path time, number time →
      d.queryTimeSample less path time = (stored key d).sample path (key time) := by
    intro path time htime
    rw [stored_sample]
    exact hsamples.query path time htime
  refine ⟨fun path => (stored_isSome d path).symm, fun path => (stored_specType d path).symm,
    fun path field => (stored_field d path field).symm, fun path field storeValue => ?_,
    fun path field => ?_, fun path field storeValue => ?_, fun path field => rfl,
    list_spec hproper, hquery, fun path time storeValue htime => ?_, fun path => ?_⟩
  · exact any_eq_match _ storeValue
  · rw [stored_specType]
    exact getSpecTypeAndFieldValue_eq d path field
  · rw [stored_specType, RenderStudioData.hasSpecAndFieldAbstract, getSpecTypeAndFieldValue_eq,
      RenderStudioData.has]
    cases d.getFieldValue path field <;> rfl
  · rw [← hquery path time htime]
    exact any_eq_match _ storeValue
  · rw [times_stored]
    exact hsamples.list path

lemma isFinite_stored (h : OrderedMap number key (represented d)) : (stored key d).IsFinite := by
  refine ⟨?_, fun path => ?_, fun path => ?_⟩
  · refine (d.mData.keys.toFinset.finite_toSet).subset fun path hpath => ?_
    rw [Set.mem_ofPred_eq, stored_isSome, hasSpec_eq, AList.lookup_isSome] at hpath
    simpa using AList.mem_keys.1 hpath
  · refine ((d.list path).toFinset.finite_toSet).subset fun field hfield => ?_
    rw [Set.mem_ofPred_eq, stored_field, Option.isSome_map, RenderStudioData.getFieldValue] at hfield
    rw [RenderStudioData.list]
    cases hspec : d.mData.lookup path with
    | none => simp [hspec] at hfield
    | some spec =>
      rw [hspec] at hfield
      simpa using List.lookup_isSome_iff.1 hfield
  · rw [times_stored, sampleTable, times_tableOf h]
    refine (((((represented d).samples path).getD []).map fun s => key s.1).toFinset.finite_toSet).subset ?_
    rintro k ⟨s, hs, rfl⟩
    exact List.mem_toFinset.2 (List.mem_map.2 ⟨s, hs, rfl⟩)

end

/-- The store of a layer after any operations on the empty store. No field is double and no type
unknown, an operation changes only the paths it names, and a move without source or onto a spec changes
nothing. Where the times are numbers the layer stores the finite map that the same operations make of
the empty map, and every query is answered from this map. -/
theorem store_refines_map (horder : OrdersTimes less equal number key) (d : RenderStudioData)
    (operations : List DataOperation) :
    let s := Runs.final (performOperation less) { d with mData := ∅ } operations
    let m := Runs.final (fun m operation => LayerMap.perform m key operation) (fun _ => none) operations
    ProperTable s.mData ∧
      (∀ operation : DataOperation, ∀ path ∉ operation.paths,
        (performOperation less s operation).mData.lookup path = s.mData.lookup path) ∧
      (∀ oldPath newPath, s.hasSpec oldPath = false ∨ s.hasSpec newPath = true →
        s.moveSpec oldPath newPath = s) ∧
      ((∀ operation ∈ operations, OrderedOperation number key operation) →
        stored key s = m ∧ m.IsFinite ∧ LayerMap.Answers less number key s m) := by
  intro s m
  have hkeepProper : ∀ d operation, ProperTable d.mData →
      ProperTable (performOperation less d operation).mData :=
    fun _ operation hd => proper_performOperation hd less operation
  have hproper : ProperTable s.mData :=
    Runs.final_of_invariant (fun d : RenderStudioData => ProperTable d.mData) hkeepProper
      properTable_empty operations
  refine ⟨hproper, fun operation path hpath => lookup_performOperation_ne less s operation hpath,
    fun oldPath newPath hrefused => moveSpec_refused hrefused, fun hoperations => ?_⟩
  have hkeep : ∀ d operation, (ProperTable d.mData ∧ OrderedMap number key (represented d)) →
      OrderedOperation number key operation →
      ProperTable (performOperation less d operation).mData ∧
        OrderedMap number key (represented (performOperation less d operation)) := by
    rintro d operation ⟨hproper, hordered⟩ hoperation
    exact ⟨hkeepProper d operation hproper, hordered.performOperation horder hproper hoperation⟩
  have hrefines : ∀ d operation, (ProperTable d.mData ∧ OrderedMap number key (represented d)) →
      OrderedOperation number key operation →
      stored key (performOperation less d operation) =
        Runs.final (fun m operation => LayerMap.perform m key operation) (stored key d)
          [operation] := by
    rintro d operation ⟨hproper, hordered⟩ hoperation
    rw [stored, represented_of_performOperation hproper]
    exact layerMap_perform horder hordered hoperation
  have hstart : represented { d with mData := ∅ } = fun _ => none := by
    funext path
    rw [represented, AList.lookup_empty, Option.map_none]
  have hempty : OrderedMap number key (represented { d with mData := ∅ }) := by
    intro path value hvalue
    rw [hstart] at hvalue
    cases hvalue
  have hsteps : Runs.AllSteps (performOperation less)
      (fun _ operation => OrderedOperation number key operation) { d with mData := ∅ } operations :=
    Runs.allSteps_of_forall (fun _ => hoperations) _
  have hordered :=
    (Runs.allStates_of_invariant hkeep ⟨properTable_empty, hempty⟩ hsteps).last.2
  have hmap : stored key s = m := by
    have hrun := Runs.final_simulates hkeep hrefines ⟨properTable_empty, hempty⟩ hsteps
    rw [Runs.trace_self] at hrun
    refine hrun.trans ?_
    rw [stored, hstart]
    rfl
  rw [← hmap]
  exact ⟨rfl, isFinite_stored hordered, answers_stored horder hproper hordered⟩

end

section

attribute [local instance] Usd.sample

/-- An attribute with two samples moves and loses one of them. -/
theorem store_refines_map_keyframes :
    let operations : List DataOperation :=
      [.createSpec "/a.x" .attribute, .setTimeSample "/a.x" (number 3) (sample 5),
        .setTimeSample "/a.x" (number 1) (sample 6), .moveSpec "/a.x" "/b.x",
        .eraseTimeSample "/b.x" (number 3)]
    let s := Runs.final (performOperation earlier) { ({} : RenderStudioData) with mData := ∅ } operations
    let m := Runs.final (fun m operation => LayerMap.perform m toNumber operation) (fun _ => none)
      operations
    s.queryTimeSample earlier "/b.x" (number 1) = some (sample 6) ∧ s.hasSpec "/a.x" = false ∧
      stored toNumber s = m ∧ m.IsFinite ∧
      LayerMap.Answers earlier (fun _ => True) toNumber s m := by
  intro operations s m
  refine ⟨rfl, rfl, ?_⟩
  have hrefines := store_refines_map ordersTimes_sample {} operations
  refine hrefines.2.2.2 ?_
  simp [operations, OrderedOperation]

end

end RenderStudioKit.Proofs
