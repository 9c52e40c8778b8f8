import Mathlib.Data.List.TakeWhile
import RenderStudioKit.Lib.SortedKeys
import RenderStudioKit.Proofs.SpecStore

/-!
# Queries of time samples

The samples of an attribute are a finite map from times to values, whatever was done to the layer, and
every query is answered from it: the value at a time, the times there are and those around a time.
-/

namespace RenderStudioKit.Proofs

namespace SampleQueries

open SortedKeys

section

variable [Usd] {κ : Type*} [LinearOrder κ]

/-- The comparisons order the numbers; whatever is compared with something else is false. -/
structure OrdersTimes (less equal : Usd.Double → Usd.Double → Bool) (number : Usd.Double → Prop)
    (key : Usd.Double → κ) : Prop where
  less_iff : ∀ {t t'}, number t → number t' → (less t t' = true ↔ key t < key t')
  equal_iff : ∀ {t t'}, number t → number t' → (equal t t' = true ↔ key t = key t')
  unordered : ∀ {t t'}, ¬(number t ∧ number t') → less t t' = false ∧ equal t t' = false

/-- What a query for the samples around a time answers, for the times that there are. -/
def Surrounds (key : Usd.Double → κ) (times : Set κ) (k : κ) : BracketingTimeSamples → Prop
  | .noSamples => times = ∅
  | .found tLower tUpper => Brackets times k (key tLower) (key tUpper)
  | .undefined => False

variable {less equal : Usd.Double → Usd.Double → Bool} {number : Usd.Double → Prop}
  {key : Usd.Double → κ} {time : Usd.Double}

lemma OrdersTimes.lessEq_iff (horder : OrdersTimes less equal number key) {t t' : Usd.Double}
    (ht : number t) (ht' : number t') : (less t t' || equal t t') = true ↔ key t ≤ key t' := by
  rw [Bool.or_eq_true, horder.less_iff ht ht', horder.equal_iff ht ht', le_iff_lt_or_eq]

section

variable {Sample : Type} {samples : List Sample} {getTime : Sample → Usd.Double}

/-- The samples around a number. -/
lemma surrounds_impl (horder : OrdersTimes less equal number key)
    (hnumbers : ∀ s ∈ samples, number (getTime s))
    (hascending : Ascending (fun s => key (getTime s)) samples) (htime : number time) :
    Surrounds key (keySet (fun s => key (getTime s)) samples) (key time)
      (getBracketingTimeSamplesImpl less equal samples getTime time) := by
  unfold getBracketingTimeSamplesImpl
  cases hhead : samples.head? with
  | none =>
    obtain rfl := List.head?_eq_none_iff.1 hhead
    simp [Surrounds, keySet]
  | some first =>
    obtain ⟨rest, hrest⟩ := List.head?_eq_some_iff.1 hhead
    obtain ⟨last, hlast⟩ : ∃ last, samples.getLast? = some last := by
      rw [hrest]
      exact ⟨_, List.getLast?_cons⟩
    obtain ⟨before, hbefore⟩ := List.getLast?_eq_some_iff.1 hlast
    have hfirst : IsLeast (keySet (fun s => key (getTime s)) samples) (key (getTime first)) := by
      subst hrest
      exact isLeast_first hascending
    have hgreatest : IsGreatest (keySet (fun s => key (getTime s)) samples) (key (getTime last)) := by
      subst hbefore
      exact isGreatest_last hascending
    have hfirstNumber := hnumbers first (by simp [hrest])
    have hlastNumber := hnumbers last (by simp [hbefore])
    rw [hlast]
    dsimp only
    split_ifs with hstart hend
    · exact .of_isLeast hfirst ((horder.lessEq_iff htime hfirstNumber).1 hstart)
    · exact .of_isGreatest hgreatest ((horder.lessEq_iff hlastNumber htime).1 hend)
    · rw [horder.lessEq_iff htime hfirstNumber, not_le] at hstart
      rw [horder.lessEq_iff hlastNumber htime, not_le] at hend
      have hsplit := List.takeWhile_append_dropWhile (p := fun s => less (getTime s) time) (l := samples)
      cases hafter : samples.dropWhile (fun s => less (getTime s) time) with
      | nil =>
        -- All samples would be before the time, the last one too.
        have hall := List.dropWhile_eq_nil_iff.1 hafter last (by simp [hbefore])
        exact hend.asymm ((horder.less_iff hlastNumber htime).1 hall)
      | cons iter after =>
        rw [hafter] at hsplit
        have hiter : iter ∈ samples := by
          rw [← hsplit]
          simp
        have hle : key time ≤ key (getTime iter) := by
          have hnot := List.head?_dropWhile_not (fun s => less (getTime s) time) samples
          rw [hafter] at hnot
          refine not_lt.1 fun hless => ?_
          rw [← horder.less_iff (hnumbers iter hiter) htime] at hless
          simp [hless] at hnot
        dsimp only
        split_ifs with hequal
        · rw [horder.equal_iff (hnumbers iter hiter) htime] at hequal
          rw [← hequal]
          exact .of_mem ⟨iter, hiter, rfl⟩
        · have hupper : key time < key (getTime iter) := by
            refine lt_of_le_of_ne hle fun heq => hequal ?_
            exact (horder.equal_iff (hnumbers iter hiter) htime).2 heq.symm
          cases hlower : (samples.takeWhile fun s => less (getTime s) time).getLast? with
          | none =>
            -- The first sample would not be before the time.
            rw [List.getLast?_eq_none_iff.1 hlower, List.nil_append, hrest] at hsplit
            obtain rfl := (List.cons.inj hsplit).1
            exact hstart.asymm hupper
          | some lower =>
            obtain ⟨init, hinit⟩ := List.getLast?_eq_some_iff.1 hlower
            have hless : less (getTime lower) time = true :=
              List.mem_takeWhile_imp (p := fun s => less (getTime s) time) (l := samples)
                (by simp [hinit])
            rw [hinit, List.append_assoc, List.singleton_append] at hsplit
            have hmem : lower ∈ samples := by
              rw [← hsplit]
              simp
            rw [← hsplit] at hascending ⊢
            exact .of_split hascending ((horder.less_iff (hnumbers lower hmem) htime).1 hless) hupper

lemma undefined_impl (horder : OrdersTimes less equal number key) (hsome : samples ≠ [])
    (htime : ¬number time) :
    getBracketingTimeSamplesImpl less equal samples getTime time = .undefined := by
  have hright : ∀ t, less t time = false ∧ equal t time = false := fun _ =>
    horder.unordered fun h => htime h.2
  have hleft : ∀ t, less time t = false ∧ equal time t = false := fun _ =>
    horder.unordered fun h => htime h.1
  obtain ⟨first, rest, rfl⟩ := List.exists_cons_of_ne_nil hsome
  unfold getBracketingTimeSamplesImpl
  rw [List.head?_cons, List.getLast?_cons]
  simp [hright, hleft]

end

/-- The samples are in order, and their times are numbers. -/
def OrderedSamples (number : Usd.Double → Prop) (key : Usd.Double → κ)
    (samples : SdfTimeSampleMap) : Prop :=
  Ascending (fun s => key s.1) samples ∧ ∀ s ∈ samples, number s.1

section

variable (horder : OrdersTimes less equal number key) {samples : SdfTimeSampleMap}

include horder

lemma assign_eq (hnumbers : ∀ s ∈ samples, number s.1) (htime : number time) (value : VtValue) :
    SdfTimeSampleMap.assign less time value samples =
      insertKey (fun s => key s.1) (key time) (time, value) (fun s => (s.1, value)) samples := by
  induction samples with
  | nil => rfl
  | cons s samples ih =>
    have hs := hnumbers s List.mem_cons_self
    unfold SdfTimeSampleMap.assign insertKey
    simp only [horder.less_iff htime hs, horder.less_iff hs htime]
    rw [ih fun s' hs' => hnumbers s' (List.mem_cons_of_mem s hs')]

lemma erase_eq (hnumbers : ∀ s ∈ samples, number s.1) (htime : number time) :
    SdfTimeSampleMap.erase less time samples =
      removeKey (fun s => key s.1) (key time) samples := by
  induction samples with
  | nil => rfl
  | cons s samples ih =>
    have hs := hnumbers s List.mem_cons_self
    unfold SdfTimeSampleMap.erase removeKey
    simp only [horder.less_iff htime hs, horder.less_iff hs htime]
    rw [ih fun s' hs' => hnumbers s' (List.mem_cons_of_mem s hs')]

lemma find_eq (hnumbers : ∀ s ∈ samples, number s.1) (htime : number time) :
    SdfTimeSampleMap.find less time samples =
      (seekKey (fun s => key s.1) (key time) samples).map Prod.snd := by
  induction samples with
  | nil => rfl
  | cons s samples ih =>
    have hs := hnumbers s List.mem_cons_self
    unfold SdfTimeSampleMap.find seekKey
    simp only [horder.less_iff htime hs, horder.less_iff hs htime]
    rw [ih fun s' hs' => hnumbers s' (List.mem_cons_of_mem s hs')]
    split_ifs <;> rfl

lemma insertTime_eq {times : List Usd.Double} (hnumbers : ∀ t ∈ times, number t)
    (htime : number time) :
    SdfTimeSampleMap.insertTime less time times = insertKey key (key time) time id times := by
  induction times with
  | nil => rfl
  | cons t times ih =>
    have ht := hnumbers t List.mem_cons_self
    unfold SdfTimeSampleMap.insertTime insertKey
    simp only [horder.less_iff htime ht, horder.less_iff ht htime]
    rw [ih fun t' ht' => hnumbers t' (List.mem_cons_of_mem t ht')]
    rfl

lemma foldl_insertTime {times : List Usd.Double} (hascending : Ascending key times)
    (hnumbers : ∀ t ∈ times, number t) (new : List Usd.Double) (hnew : ∀ t ∈ new, number t) :
    let all := new.foldl (fun times t => SdfTimeSampleMap.insertTime less t times) times
    Ascending key all ∧ (∀ t ∈ all, number t) ∧ keySet key all = keySet key times ∪ keySet key new := by
  induction new generalizing times with
  | nil =>
    refine ⟨hascending, hnumbers, ?_⟩
    simp [keySet]
  | cons t new ih =>
    have ht := hnew t List.mem_cons_self
    have hinsert := insertTime_eq horder hnumbers ht
    have hplaced : Ascending key (SdfTimeSampleMap.insertTime less t times) := by
      rw [hinsert]
      exact hascending.insertKey rfl fun _ => id
    have hplacedNumbers : ∀ t' ∈ SdfTimeSampleMap.insertTime less t times, number t' := by
      intro t' ht'
      rw [hinsert] at ht'
      rcases mem_insertKey ht' with rfl | ⟨a, ha, heq | ⟨-, heq⟩⟩
      · exact ht
      · exact heq ▸ hnumbers a ha
      · exact heq ▸ hnumbers a ha
    obtain ⟨hall, hallNumbers, hkeys⟩ :=
      ih hplaced hplacedNumbers fun t' ht' => hnew t' (List.mem_cons_of_mem t ht')
    refine ⟨hall, hallNumbers, hkeys.trans ?_⟩
    have hplacedKeys : keySet key (SdfTimeSampleMap.insertTime less t times) =
        insert (key t) (keySet key times) := by
      rw [hinsert]
      exact keySet_insertKey rfl (fun _ => id) hascending
    rw [hplacedKeys, keySet_cons, Set.insert_union, Set.union_insert]

end

/-- For each path that has a spec the values at its times. -/
abbrev SampleTable (κ : Type*) : Type _ := SdfPath → Option (κ → Option VtValue)

/-- The values that a field holds at times. -/
def valuesOf (key : Usd.Double → κ) (value : Option VtValue) : κ → Option VtValue :=
  fun k => ((value.bind VtValue.getTimeSampleMap).bind (seekKey (fun s => key s.1) k)).map Prod.snd

namespace SampleTable

variable (t : SampleTable κ)

/-- Changes the values of a path; a path without spec stays without. -/
def modify (path : SdfPath) (f : (κ → Option VtValue) → κ → Option VtValue) : SampleTable κ :=
  Function.update t path ((t path).map f)

/-- A write to a field: one of the samples replaces them all. -/
def write (key : Usd.Double → κ) (path : SdfPath) (field : TfToken) (value : Option VtValue) :
    SampleTable κ :=
  if field = SdfDataTokens.timeSamples then t.modify path fun _ => valuesOf key value else t

/-- What an operation on the layer does to the values at times. -/
def perform (key : Usd.Double → κ) : DataOperation → SampleTable κ
  | .createSpec path specType =>
    if specType = .unknown then t else Function.update t path (some ((t path).getD fun _ => none))
  | .eraseSpec path => Function.update t path none
  | .moveSpec oldPath newPath =>
    match t oldPath, t newPath with
    | some values, none => Function.update (Function.update t newPath (some values)) oldPath none
    | _, _ => t
  | .set path field value => t.write key path field (if value.isEmpty then none else some value)
  | .setAbstract path field value => t.write key path field (some value)
  | .erase path field => t.write key path field none
  | .setTimeSample path time value => t.modify path fun values =>
      Function.update values (key time) (if value.isEmpty then none else some value)
  | .eraseTimeSample path time => t.modify path fun values =>
      Function.update values (key time) none

/-- The value at a time. -/
def value (path : SdfPath) (k : κ) : Option VtValue := (t path).bind fun values => values k

/-- The times of a path. -/
def times (path : SdfPath) : Set κ := {k | (t.value path k).isSome}

end SampleTable

/-- What the specs of a layer hold at times. -/
def tableOf (key : Usd.Double → κ) (m : SpecMap) : SampleTable κ :=
  fun path => (m path).map fun spec => valuesOf key (spec.fields SdfDataTokens.timeSamples)

/-- What a layer holds at times. -/
def sampleTable (key : Usd.Double → κ) (d : RenderStudioData) : SampleTable κ :=
  tableOf key (represented d)

/-- The samples that a value holds, if it holds some, are in order. -/
def OrderedValue (number : Usd.Double → Prop) (key : Usd.Double → κ) (value : VtValue) : Prop :=
  ∀ samples, value.getTimeSampleMap = some samples → OrderedSamples number key samples

/-- All samples of a layer are in order. -/
def OrderedMap (number : Usd.Double → Prop) (key : Usd.Double → κ) (m : SpecMap) : Prop :=
  ∀ path value, m.field path SdfDataTokens.timeSamples = some value → OrderedValue number key value

/-- The times are numbers and whole sample maps in order. -/
def OrderedOperation (number : Usd.Double → Prop) (key : Usd.Double → κ) : DataOperation → Prop
  | .set _ _ value => OrderedValue number key value
  | .setAbstract _ _ value => OrderedValue number key value
  | .setTimeSample _ time _ => number time
  | .eraseTimeSample _ time => number time
  | _ => True

section

variable {m : SpecMap} {path : SdfPath}

lemma tableOf_setField (value : Option VtValue) :
    tableOf key (m.setField path SdfDataTokens.timeSamples value) =
      (tableOf key m).modify path fun _ => valuesOf key value := by
  funext other
  unfold tableOf SpecMap.setField SampleTable.modify
  by_cases hother : other = path
  · subst hother
    rw [Function.update_self, Function.update_self]
    cases hspec : m other <;> simp [hspec]
  · rw [Function.update_of_ne hother, Function.update_of_ne hother]

lemma tableOf_write (field : TfToken) (value : Option VtValue) :
    tableOf key (m.setField path field value) = (tableOf key m).write key path field value := by
  unfold SampleTable.write
  split_ifs with hfield
  · rw [hfield, tableOf_setField]
  · funext other
    unfold tableOf SpecMap.setField
    by_cases hother : other = path
    · subst hother
      rw [Function.update_self]
      cases m other <;> simp [Function.update_of_ne (Ne.symm hfield)]
    · rw [Function.update_of_ne hother]

lemma valuesOf_field (m : SpecMap) (path : SdfPath) :
    valuesOf key (m.field path SdfDataTokens.timeSamples) =
      fun k => (seekKey (fun s => key s.1) k ((m.samples path).getD [])).map Prod.snd := by
  funext k
  unfold valuesOf SpecMap.samples
  cases (m.field path SdfDataTokens.timeSamples).bind VtValue.getTimeSampleMap <;> rfl

lemma valuesOf_map (samples : SdfTimeSampleMap) :
    valuesOf key (some (.timeSampleMap samples)) =
      fun k => (seekKey (fun s => key s.1) k samples).map Prod.snd := rfl

lemma tableOf_eq (m : SpecMap) (path : SdfPath) :
    tableOf key m path =
      (m path).map fun _ => valuesOf key (m.field path SdfDataTokens.timeSamples) := by
  unfold tableOf SpecMap.field
  cases m path <;> rfl

lemma tableOf_modify {value : Option VtValue} (f : (κ → Option VtValue) → κ → Option VtValue)
    (h : valuesOf key value = f (valuesOf key (m.field path SdfDataTokens.timeSamples))) :
    tableOf key (m.setField path SdfDataTokens.timeSamples value) =
      (tableOf key m).modify path f := by
  rw [tableOf_setField]
  unfold SampleTable.modify
  rw [tableOf_eq, Option.map_map, Option.map_map, h]
  rfl

lemma OrderedMap.samples (h : OrderedMap number key m) {samples : SdfTimeSampleMap}
    (hsamples : m.samples path = some samples) : OrderedSamples number key samples := by
  obtain ⟨value, hvalue, hmap⟩ := Option.bind_eq_some_iff.1 hsamples
  exact h path value hvalue samples hmap

lemma OrderedMap.getD_samples (h : OrderedMap number key m) (path : SdfPath) :
    OrderedSamples number key ((m.samples path).getD []) := by
  cases hsamples : m.samples path with
  | none => exact ⟨List.Pairwise.nil, fun _ hs => absurd hs List.not_mem_nil⟩
  | some samples => exact h.samples hsamples

section

variable (horder : OrdersTimes less equal number key)

include horder

lemma valuesOf_erase {samples : SdfTimeSampleMap} (h : OrderedSamples number key samples)
    (htime : number time) :
    valuesOf key (some (.timeSampleMap (SdfTimeSampleMap.erase less time samples))) =
      Function.update (valuesOf key (some (.timeSampleMap samples))) (key time) none := by
  funext k
  rw [Function.update_apply, valuesOf_map, valuesOf_map, erase_eq horder h.2 htime]
  dsimp only
  rw [seekKey_removeKey h.1]
  split_ifs <;> rfl

lemma valuesOf_assign {samples : SdfTimeSampleMap} (h : OrderedSamples number key samples)
    (htime : number time) (value : VtValue) :
    valuesOf key (some (.timeSampleMap (SdfTimeSampleMap.assign less time value samples))) =
      Function.update (valuesOf key (some (.timeSampleMap samples))) (key time) (some value) := by
  funext k
  rw [Function.update_apply, valuesOf_map, valuesOf_map, assign_eq horder h.2 htime]
  dsimp only
  rw [seekKey_insertKey]
  · split_ifs
    · cases seekKey (fun s => key s.1) (key time) samples <;> rfl
    · rfl
  · rfl
  · exact fun _ hs => hs

lemma tableOf_eraseSample (h : OrderedMap number key m) (htime : number time) :
    tableOf key (m.eraseSample less path time) =
      (tableOf key m).modify path fun values => Function.update values (key time) none := by
  unfold SpecMap.eraseSample
  cases hsamples : m.samples path with
  | none =>
    -- Nothing to erase.
    dsimp only
    unfold SampleTable.modify
    rw [eq_comm, Function.update_eq_self_iff, tableOf_eq, valuesOf_field, hsamples, Option.map_map]
    cases m path with
    | none => rfl
    | some spec =>
      refine congrArg some (funext fun k => ?_)
      simp [seekKey, Function.update_apply]
  | some samples =>
    have herased := valuesOf_erase horder (h.samples hsamples) htime
    dsimp only
    apply tableOf_modify
    rw [valuesOf_field, hsamples, Option.getD_some, ← valuesOf_map, ← herased]
    split_ifs with hempty
    · rw [List.isEmpty_iff.1 hempty]
      rfl
    · rfl

lemma tableOf_setSample (h : OrderedMap number key m) (htime : number time) (value : VtValue) :
    tableOf key (m.setSample less path time value) =
      (tableOf key m).modify path fun values => Function.update values (key time) (some value) := by
  unfold SpecMap.setSample
  apply tableOf_modify
  rw [valuesOf_field, ← valuesOf_map]
  exact valuesOf_assign horder (h.getD_samples path) htime value

end

lemma tableOf_update (m : SpecMap) (path : SdfPath) (spec : Option AbstractSpec) :
    tableOf key (Function.update m path spec) = Function.update (tableOf key m) path
      (spec.map fun spec => valuesOf key (spec.fields SdfDataTokens.timeSamples)) := by
  funext other
  unfold tableOf
  by_cases hother : other = path
  · subst hother
    rw [Function.update_self, Function.update_self]
  · rw [Function.update_of_ne hother, Function.update_of_ne hother]

lemma value_tableOf (m : SpecMap) (path : SdfPath) (k : κ) :
    (tableOf key m).value path k = valuesOf key (m.field path SdfDataTokens.timeSamples) k := by
  unfold SampleTable.value
  rw [tableOf_eq]
  unfold SpecMap.field
  cases m path <;> rfl

/-- Every operation does to the values at times what the one of the table does. -/
lemma tableOf_perform (horder : OrdersTimes less equal number key) (h : OrderedMap number key m)
    {operation : DataOperation} (hoperation : OrderedOperation number key operation) :
    tableOf key (m.performOperation less operation) = (tableOf key m).perform key operation := by
  cases operation with
  | createSpec path specType =>
    unfold SpecMap.performOperation SpecMap.createSpec SampleTable.perform
    dsimp only
    split_ifs
    · rfl
    · rw [tableOf_update, Option.map_some, tableOf_eq]
      unfold SpecMap.field
      cases m path <;> rfl
  | eraseSpec path => exact tableOf_update m path none
  | moveSpec oldPath newPath =>
    unfold SpecMap.performOperation SpecMap.moveSpec SampleTable.perform
    have hold : tableOf key m oldPath = (m oldPath).map fun spec =>
      valuesOf key (spec.fields SdfDataTokens.timeSamples) := rfl
    have hnew : tableOf key m newPath = (m newPath).map fun spec =>
      valuesOf key (spec.fields SdfDataTokens.timeSamples) := rfl
    dsimp only
    rw [hold, hnew]
    cases m oldPath with
    | none => rfl
    | some spec =>
      cases m newPath with
      | some target => rfl
      | none =>
        dsimp only [Option.map_some, Option.map_none]
        rw [tableOf_update, tableOf_update]
        rfl
  | set path field value => exact tableOf_write field _
  | setAbstract path field value => exact tableOf_write field _
  | erase path field => exact tableOf_write field _
  | setTimeSample path time value =>
    unfold SpecMap.performOperation SampleTable.perform
    dsimp only
    split_ifs
    · exact tableOf_eraseSample horder h hoperation
    · exact tableOf_setSample horder h hoperation value
  | eraseTimeSample path time => exact tableOf_eraseSample horder h hoperation

namespace OrderedMap

lemma update (h : OrderedMap number key m) {spec : Option AbstractSpec}
    (hspec : ∀ value, (spec.bind fun spec => spec.fields SdfDataTokens.timeSamples) = some value →
      OrderedValue number key value) : OrderedMap number key (Function.update m path spec) := by
  intro other value hvalue
  unfold SpecMap.field at hvalue
  by_cases hother : other = path
  · subst hother
    rw [Function.update_self] at hvalue
    exact hspec value hvalue
  · rw [Function.update_of_ne hother] at hvalue
    exact h other value hvalue

lemma setField (h : OrderedMap number key m) (field : TfToken) {value : Option VtValue}
    (hvalue : ∀ v, value = some v → OrderedValue number key v) :
    OrderedMap number key (m.setField path field value) := by
  apply h.update
  intro v hv
  have hold := h path v
  unfold SpecMap.field at hold
  cases hspec : m path with
  | none => simp [hspec] at hv
  | some spec =>
    rw [hspec] at hv hold
    by_cases hfield : SdfDataTokens.timeSamples = field
    · subst hfield
      simp only [Option.map_some, Option.bind_some, Function.update_self] at hv
      exact hvalue v hv
    · simp only [Option.map_some, Option.bind_some, Function.update_of_ne hfield] at hv
      exact hold hv

lemma eraseSample (horder : OrdersTimes less equal number key) (h : OrderedMap number key m)
    (htime : number time) : OrderedMap number key (m.eraseSample less path time) := by
  unfold SpecMap.eraseSample
  cases hsamples : m.samples path with
  | none => exact h
  | some samples =>
    obtain ⟨hascending, hnumbers⟩ := h.samples hsamples
    apply h.setField
    intro value hvalue
    split_ifs at hvalue
    obtain rfl := Option.some.inj hvalue
    intro left hleft
    obtain rfl := Option.some.inj hleft
    rw [erase_eq horder hnumbers htime]
    exact ⟨hascending.removeKey, fun s hs => hnumbers s (mem_of_mem_removeKey hs)⟩

lemma setSample (horder : OrdersTimes less equal number key) (h : OrderedMap number key m)
    (htime : number time) (value : VtValue) :
    OrderedMap number key (m.setSample less path time value) := by
  have hsamples := h.getD_samples path
  unfold SpecMap.setSample
  apply h.setField
  intro _ hvalue
  obtain rfl := Option.some.inj hvalue
  intro placed hplaced
  obtain rfl := Option.some.inj hplaced
  rw [assign_eq horder hsamples.2 htime]
  refine ⟨hsamples.1.insertKey rfl fun _ => id, fun s hs => ?_⟩
  rcases mem_insertKey hs with rfl | ⟨old, hold, rfl | ⟨-, rfl⟩⟩
  · exact htime
  · exact hsamples.2 _ hold
  · exact hsamples.2 old hold

/-- No operation brings samples out of order. -/
lemma perform (horder : OrdersTimes less equal number key) (h : OrderedMap number key m)
    {operation : DataOperation} (hoperation : OrderedOperation number key operation) :
    OrderedMap number key (m.performOperation less operation) := by
  cases operation with
  | createSpec path specType =>
    unfold SpecMap.performOperation SpecMap.createSpec
    dsimp only
    split_ifs
    · exact h
    · exact h.update fun value hvalue => h path value hvalue
  | eraseSpec path => exact h.update fun _ hvalue => absurd hvalue (by simp)
  | moveSpec oldPath newPath =>
    unfold SpecMap.performOperation SpecMap.moveSpec
    dsimp only
    split
    · rename_i spec hspec _
      have hmoved : OrderedMap number key (Function.update m newPath (some spec)) := by
        refine h.update fun value hvalue => h oldPath value ?_
        rwa [SpecMap.field, hspec]
      exact hmoved.update fun _ hvalue => absurd hvalue (by simp)
    · exact h
  | set path field value =>
    apply h.setField
    intro v hv
    split_ifs at hv
    obtain rfl := Option.some.inj hv
    exact hoperation
  | setAbstract path field value =>
    apply h.setField
    intro v hv
    obtain rfl := Option.some.inj hv
    exact hoperation
  | erase path field => exact h.setField field fun _ hv => absurd hv (by simp)
  | setTimeSample path time value =>
    unfold SpecMap.performOperation
    dsimp only
    split_ifs
    · exact h.eraseSample horder hoperation
    · exact h.setSample horder hoperation value
  | eraseTimeSample path time => exact h.eraseSample horder hoperation

lemma performOperation {d : RenderStudioData} (horder : OrdersTimes less equal number key)
    (hproper : ProperTable d.mData) (h : OrderedMap number key (represented d))
    {operation : DataOperation} (hoperation : OrderedOperation number key operation) :
    OrderedMap number key (represented (performOperation less d operation)) := by
  rw [represented_of_performOperation hproper]
  exact h.perform horder hoperation

end OrderedMap

end

/-- Every query is answered from the table. -/
structure AnsweredFrom (less equal : Usd.Double → Usd.Double → Bool) (number : Usd.Double → Prop)
    (key : Usd.Double → κ) (t : SampleTable κ) (d : RenderStudioData) : Prop where
  query : ∀ path time, number time → d.queryTimeSample less path time = t.value path (key time)
  list : ∀ path, Ascending key (d.listTimeSamplesForPath less path) ∧
    keySet key (d.listTimeSamplesForPath less path) = t.times path
  count : ∀ path, d.getNumTimeSamplesForPath path = (t.times path).ncard
  bracketing : ∀ path time, number time → Surrounds key (t.times path) (key time)
    (d.getBracketingTimeSamplesForPath less equal path time)
  listAll : Ascending key (d.listAllTimeSamples less) ∧
    keySet key (d.listAllTimeSamples less) = ⋃ path, t.times path
  bracketingAll : ∀ time, number time → Surrounds key (⋃ path, t.times path) (key time)
    (d.getBracketingTimeSamples less equal time)
  undefined : ∀ path time, ¬number time → (t.times path).Nonempty →
    d.getBracketingTimeSamplesForPath less equal path time = .undefined

section

variable {d : RenderStudioData} {m : SpecMap}

lemma times_tableOf (h : OrderedMap number key m) (path : SdfPath) :
    (tableOf key m).times path = keySet (fun s => key s.1) ((m.samples path).getD []) := by
  ext k
  change ((tableOf key m).value path k).isSome ↔ _
  rw [value_tableOf, valuesOf_field, Option.isSome_map, seekKey_isSome_iff (h.getD_samples path).1]

lemma samples_of_query (d : RenderStudioData) (path : SdfPath) :
    (d.get path SdfDataTokens.timeSamples).getTimeSampleMap = (represented d).samples path := by
  rw [samples_represented, RenderStudioData.get]
  cases d.getFieldValue path SdfDataTokens.timeSamples <;> rfl

lemma listTimes_spec (horder : OrdersTimes less equal number key)
    (h : OrderedMap number key (represented d)) (path : SdfPath) :
    Ascending key (d.listTimeSamplesForPath less path) ∧
      (∀ t ∈ d.listTimeSamplesForPath less path, number t) ∧
      keySet key (d.listTimeSamplesForPath less path) = (tableOf key (represented d)).times path := by
  have hlist : d.listTimeSamplesForPath less path =
      ((((represented d).samples path).getD []).map Prod.fst).foldl
        (fun times t => SdfTimeSampleMap.insertTime less t times) [] := by
    unfold RenderStudioData.listTimeSamplesForPath
    rw [samples_of_query]
    cases (represented d).samples path with
    | none => rfl
    | some samples => rw [Option.getD_some, List.foldl_map]
  have hnumbers : ∀ t ∈ (((represented d).samples path).getD []).map Prod.fst, number t := by
    intro t ht
    obtain ⟨s, hs, rfl⟩ := List.mem_map.1 ht
    exact (h.getD_samples path).2 s hs
  have hfold := foldl_insertTime horder List.Pairwise.nil (by simp) _ hnumbers
  have hkeys : keySet key ((((represented d).samples path).getD []).map Prod.fst) =
      keySet (fun s => key s.1) (((represented d).samples path).getD []) := by
    ext k
    simp [keySet]
  rw [keySet_nil, Set.empty_union, hkeys, ← times_tableOf h] at hfold
  rw [hlist]
  exact hfold

/-- The times of all paths are listed in order. -/
lemma listAllTimes_spec (horder : OrdersTimes less equal number key)
    (h : OrderedMap number key (represented d)) :
    Ascending key (d.listAllTimeSamples less) ∧ (∀ t ∈ d.listAllTimeSamples less, number t) ∧
      keySet key (d.listAllTimeSamples less) =
        ⋃ path, (tableOf key (represented d)).times path := by
  have hfold : ∀ (entries : List (Sigma fun _ : SdfPath => SpecData)) (times : List Usd.Double),
      Ascending key times → (∀ t ∈ times, number t) →
      let all := entries.foldl (fun times i => (d.listTimeSamplesForPath less i.1).foldl
        (fun times t => SdfTimeSampleMap.insertTime less t times) times) times
      Ascending key all ∧ (∀ t ∈ all, number t) ∧ keySet key all = keySet key times ∪
        {k | ∃ i ∈ entries, k ∈ (tableOf key (represented d)).times i.1} := by
    intro entries
    induction entries with
    | nil =>
      intro times hascending hnumbers
      refine ⟨hascending, hnumbers, ?_⟩
      ext k
      simp
    | cons i entries ih =>
      intro times hascending hnumbers
      obtain ⟨-, hnew, hpath⟩ := listTimes_spec horder h i.1
      obtain ⟨hplaced, hplacedNumbers, hplacedKeys⟩ :=
        foldl_insertTime horder hascending hnumbers _ hnew
      obtain ⟨hall, hallNumbers, hkeys⟩ := ih _ hplaced hplacedNumbers
      refine ⟨hall, hallNumbers, hkeys.trans ?_⟩
      rw [hplacedKeys, hpath]
      ext k
      simp [or_assoc]
  obtain ⟨hall, hnumbers, hkeys⟩ := hfold d.mData.entries [] List.Pairwise.nil (by simp)
  refine ⟨hall, hnumbers, hkeys.trans ?_⟩
  ext k
  rw [keySet_nil, Set.empty_union, Set.mem_iUnion]
  constructor
  · rintro ⟨i, -, hk⟩
    exact ⟨i.1, hk⟩
  · rintro ⟨path, hk⟩
    -- A path with samples has a spec.
    cases hspec : d.mData.lookup path with
    | none =>
      have hnone : represented d path = none := by rw [represented, hspec, Option.map_none]
      change ((tableOf key (represented d)).value path k).isSome at hk
      simp [SampleTable.value, tableOf, hnone] at hk
    | some spec => exact ⟨⟨path, spec⟩, List.of_mem_dlookup hspec, hk⟩

lemma answeredFrom_tableOf (horder : OrdersTimes less equal number key)
    (h : OrderedMap number key (represented d)) :
    AnsweredFrom less equal number key (tableOf key (represented d)) d := by
  have hsamples : ∀ path, (d.getFieldValue path SdfDataTokens.timeSamples).bind
      VtValue.getTimeSampleMap = (represented d).samples path :=
    fun path => (samples_represented d path).symm
  obtain ⟨hall, hallNumbers, hallKeys⟩ := listAllTimes_spec horder h
  refine ⟨fun path time htime => ?_, fun path => ?_, fun path => ?_, fun path time htime => ?_,
    ⟨hall, hallKeys⟩, fun time htime => ?_, fun path time htime hsome => ?_⟩
  · rw [value_tableOf, valuesOf_field, RenderStudioData.queryTimeSample, hsamples]
    cases hpath : (represented d).samples path with
    | none => rfl
    | some samples => exact find_eq horder (h.samples hpath).2 htime
  · obtain ⟨hascending, -, hkeys⟩ := listTimes_spec horder h path
    exact ⟨hascending, hkeys⟩
  · rw [times_tableOf h, ncard_keySet (h.getD_samples path).1,
      RenderStudioData.getNumTimeSamplesForPath, hsamples]
    cases (represented d).samples path <;> rfl
  · rw [times_tableOf h, RenderStudioData.getBracketingTimeSamplesForPath, hsamples]
    cases hpath : (represented d).samples path with
    | none => exact keySet_nil
    | some samples =>
      obtain ⟨hascending, hnumbers⟩ := h.samples hpath
      exact surrounds_impl horder hnumbers hascending htime
  · rw [← hallKeys]
    exact surrounds_impl horder hallNumbers hall htime
  · rw [times_tableOf h] at hsome
    rw [RenderStudioData.getBracketingTimeSamplesForPath, hsamples]
    cases hpath : (represented d).samples path with
    | none => simp [hpath] at hsome
    | some samples =>
      rw [hpath] at hsome
      refine undefined_impl horder ?_ htime
      rintro rfl
      simp at hsome

end

/-- The samples of a layer are for each path a finite map from times to values. In every run of
operations with times that are numbers the layer does to it what the operations say, and all queries are
answered from it: the value at a time, the times in order, their number, and the times around one, of a
path and of all paths. Only a time that is no number makes the query for the times around it
undefined. -/
theorem samples_answered_from_map {less equal : Usd.Double → Usd.Double → Bool}
    {number : Usd.Double → Prop} {key : Usd.Double → κ}
    (horder : OrdersTimes less equal number key) (d : RenderStudioData)
    (hproper : ProperTable d.mData) (hordered : OrderedMap number key (represented d))
    (run : List DataOperation) (hrun : ∀ operation ∈ run, OrderedOperation number key operation) :
    AnsweredFrom less equal number key
      (Runs.final (fun t operation => SampleTable.perform t key operation)
        (sampleTable key d) run)
      (Runs.final (performOperation less) d run) := by
  have hkeep : ∀ d operation, (ProperTable d.mData ∧ OrderedMap number key (represented d)) →
      OrderedOperation number key operation →
      ProperTable (performOperation less d operation).mData ∧
        OrderedMap number key (represented (performOperation less d operation)) := by
    rintro d operation ⟨hproper, hordered⟩ hoperation
    exact ⟨proper_performOperation hproper less operation,
      hordered.performOperation horder hproper hoperation⟩
  have hrefines : ∀ d operation, (ProperTable d.mData ∧ OrderedMap number key (represented d)) →
      OrderedOperation number key operation →
      sampleTable key (performOperation less d operation) =
        Runs.final (fun t operation => SampleTable.perform t key operation) (sampleTable key d)
          [operation] := by
    rintro d operation ⟨hproper, hordered⟩ hoperation
    rw [sampleTable, represented_of_performOperation hproper]
    exact tableOf_perform horder hordered hoperation
  have hsteps : Runs.AllSteps (performOperation less)
      (fun _ operation => OrderedOperation number key operation) d run :=
    Runs.allSteps_of_forall (fun _ => hrun) d
  have hfinal := (Runs.allStates_of_invariant hkeep ⟨hproper, hordered⟩ hsteps).last
  have htable : sampleTable key (Runs.final (performOperation less) d run) =
      Runs.final (fun t operation => SampleTable.perform t key operation) (sampleTable key d)
        (Runs.trace (performOperation less) (fun _ operation => [operation]) d run) :=
    Runs.final_simulates hkeep hrefines ⟨hproper, hordered⟩ hsteps
  rw [Runs.trace_self] at htable
  rw [← htable]
  exact answeredFrom_tableOf horder hfinal.2

end

section

attribute [local instance] Usd.sample

/-- `==` on the times of the sample instance. -/
def sameTime (time time' : Int) : Bool := decide (time = time')

/-- The number a time is. -/
def toNumber (time : Usd.Double) : Int := time

lemma ordersTimes_sample : OrdersTimes earlier sameTime (fun _ => True) toNumber := by
  refine ⟨fun _ _ => ?_, fun _ _ => ?_, fun h => absurd ⟨trivial, trivial⟩ h⟩
  · exact decide_eq_true_iff
  · exact decide_eq_true_iff

/-- An attribute gets samples at three times and loses the middle one. -/
theorem samples_answered_from_map_keyframes :
    let run : List DataOperation :=
      [.createSpec "/a.x" .attribute, .setTimeSample "/a.x" (number 3) (sample 5),
        .setTimeSample "/a.x" (number 1) (sample 6), .setTimeSample "/a.x" (number 7) (sample 8),
        .eraseTimeSample "/a.x" (number 3)]
    let d := Runs.final (performOperation earlier) {} run
    d.getBracketingTimeSamplesForPath earlier sameTime "/a.x" (number 4) =
        .found (number 1) (number 7) ∧
      AnsweredFrom earlier sameTime (fun _ => True) toNumber
        (Runs.final (fun t operation => SampleTable.perform t toNumber operation)
          (sampleTable toNumber {}) run) d := by
  intro run d
  have hordered : OrderedMap (fun _ => True) toNumber (represented ({} : RenderStudioData)) := by
    intro path value hvalue
    simp [SpecMap.field, represented] at hvalue
  refine ⟨rfl, samples_answered_from_map ordersTimes_sample {} properTable_empty hordered run ?_⟩
  simp [run, OrderedOperation]

end

end SampleQueries

end RenderStudioKit.Proofs
