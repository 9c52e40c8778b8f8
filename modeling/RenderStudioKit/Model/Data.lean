import Mathlib.Data.List.AList
import Mathlib.Data.Finset.Basic
import RenderStudioKit.Model.Usd

/-!
# The layer data

`RenderStudioData` stores the specs of one layer, records the local edits that were not
sent yet and applies the numbered updates the server relays. Hash tables are association
lists with distinct keys: the order of `entries` is the unspecified enumeration order.
-/

namespace RenderStudioKit

variable [Usd]

/-- Backing storage of one spec. The fields are an unsorted vector searched from the front. -/
structure SpecData where
  specType : SdfSpecType := .unknown
  fields : List (TfToken × VtValue) := []

abbrev HashTable : Type := AList (fun _ : SdfPath => SpecData)

/-- Assigns to the first field with that key, or appends a new one. -/
def assignField (field : TfToken) (value : VtValue) :
    List (TfToken × VtValue) → List (TfToken × VtValue)
  | [] => [(field, value)]
  | f :: fields => if f.1 = field then (field, value) :: fields
      else f :: assignField field value fields

/-- Removes the first field with that key. -/
def eraseField (field : TfToken) (fields : List (TfToken × VtValue)) :
    List (TfToken × VtValue) :=
  fields.eraseP (fun f => f.1 = field)

/-- The assignment through a pointer to the first field with that key; there is no pointer, and
nothing to assign to, when there is no such field. -/
def overwriteField (field : TfToken) (value : VtValue) :
    List (TfToken × VtValue) → List (TfToken × VtValue)
  | [] => []
  | f :: fields => if f.1 = field then (field, value) :: fields
      else f :: overwriteField field value fields

/-- The samples of an attribute in the order of their times. -/
abbrev SdfTimeSampleMap : Type := List (Usd.Double × VtValue)

namespace SdfTimeSampleMap

variable (less : Usd.Double → Usd.Double → Bool)

/-- `samples[time] = value` for a map ordered by `less`. -/
def assign (time : Usd.Double) (value : VtValue) : SdfTimeSampleMap → SdfTimeSampleMap
  | [] => [(time, value)]
  | s :: samples =>
    if less time s.1 then (time, value) :: s :: samples
    else if less s.1 time then s :: assign time value samples
    else (s.1, value) :: samples

/-- `samples.erase(time)` -/
def erase (time : Usd.Double) : SdfTimeSampleMap → SdfTimeSampleMap
  | [] => []
  | s :: samples =>
    if less time s.1 then s :: samples
    else if less s.1 time then s :: erase time samples
    else samples

/-- `samples.find(time)` -/
def find (time : Usd.Double) : SdfTimeSampleMap → Option VtValue
  | [] => none
  | s :: samples =>
    if less s.1 time then find time samples
    else if less time s.1 then none
    else some s.2

/-- `times.insert(time)` for a set of times ordered by `less`. -/
def insertTime (time : Usd.Double) : List Usd.Double → List Usd.Double
  | [] => [time]
  | t :: times =>
    if less time t then time :: t :: times
    else if less t time then t :: insertTime time times
    else t :: times

end SdfTimeSampleMap

/-- What a query for the samples around a time writes. It is undefined where an iterator is moved before
the first sample or read behind the last one. -/
inductive BracketingTimeSamples where
  | noSamples
  | found (tLower tUpper : Usd.Double)
  | undefined

/-- `samples` are in the order of `getTime`; `lower_bound` finds the first one that is not less. -/
def getBracketingTimeSamplesImpl {Sample : Type} (less equal : Usd.Double → Usd.Double → Bool)
    (samples : List Sample) (getTime : Sample → Usd.Double) (time : Usd.Double) :
    BracketingTimeSamples :=
  match samples.head?, samples.getLast? with
  | some first, some last =>
    if less time (getTime first) || equal time (getTime first) then
      .found (getTime first) (getTime first)
    else if less (getTime last) time || equal (getTime last) time then
      .found (getTime last) (getTime last)
    else match samples.dropWhile (fun s => less (getTime s) time) with
      | [] => .undefined
      | iter :: _ =>
        if equal (getTime iter) time then .found (getTime iter) (getTime iter)
        else match (samples.takeWhile fun s => less (getTime s) time).getLast? with
          | none => .undefined
          | some before => .found (getTime before) (getTime iter)
  | _, _ => .noSamples

/-- `UncheckedGet<SdfTimeSampleMap>()` of a value that holds one. -/
def VtValue.getTimeSampleMap : VtValue → Option SdfTimeSampleMap
  | .timeSampleMap samples => some samples
  | _ => none

namespace RenderStudioNotice

structure PrimitiveChanged where
  changedPrim : SdfPath
  wasResynched : Bool
  isValid : Bool

/-- The constructor `PrimitiveChanged(path, resynched)`. -/
def PrimitiveChanged.of (path : SdfPath) (resynched : Bool) : PrimitiveChanged :=
  let prim := if Usd.isPrimPath path then path else Usd.getPrimPath path
  ⟨prim, resynched, Usd.isPrimPath prim && !Usd.isAbsoluteRootPath prim⟩

structure OwnerChanged where
  path : SdfPath
  owner : Option String

end RenderStudioNotice

open RenderStudioNotice

@[ext]
structure RenderStudioData where
  mData : HashTable := ∅
  mLocalDeltas : HashTable := ∅
  mUnacknowledgedFields : Finset SdfPath := ∅
  mLatestAppliedSequence : Nat := 0
  mRemoteDeltasQueue : AList (fun _ : Nat => HashTable) := ∅
  mIsLoaded : Bool := false
  mIsProcessingRemoteUpdates : Bool := false

namespace RenderStudioData

def hasSpec (d : RenderStudioData) (path : SdfPath) : Bool :=
  decide (path ∈ d.mData)

/-- A missing spec only fails a verification. -/
def eraseSpec (d : RenderStudioData) (path : SdfPath) : RenderStudioData :=
  { d with mData := d.mData.erase path }

def getSpecType (d : RenderStudioData) (path : SdfPath) : SdfSpecType :=
  match d.mData.lookup path with
  | none => .unknown
  | some spec => spec.specType

def createSpec (d : RenderStudioData) (path : SdfPath) (specType : SdfSpecType) :
    RenderStudioData :=
  if specType = .unknown then d
  else { d with
    mData := d.mData.insert path { (d.mData.lookup path).getD {} with specType := specType } }

def getFieldValue (d : RenderStudioData) (path : SdfPath) (field : TfToken) : Option VtValue :=
  match d.mData.lookup path with
  | none => none
  | some spec => spec.fields.lookup field

def get (d : RenderStudioData) (path : SdfPath) (field : TfToken) : VtValue :=
  (d.getFieldValue path field).getD .empty

def erase (d : RenderStudioData) (path : SdfPath) (field : TfToken) : RenderStudioData :=
  match d.mData.lookup path with
  | none => d
  | some spec =>
    { d with mData := d.mData.insert path { spec with fields := eraseField field spec.fields } }

/-- `_GetOrCreateFieldValue` with the assignment its callers make through the pointer. -/
def getOrCreateFieldValue (d : RenderStudioData) (path : SdfPath) (field : TfToken)
    (value : VtValue) : RenderStudioData :=
  match d.mData.lookup path with
  | none => d
  | some spec =>
    { d with mData := d.mData.insert path { spec with fields := assignField field value spec.fields } }

/-- `_GetOrCreateFieldValueDelta` with the assignment its callers make through the pointer.
The first edit of a path since the last flush takes the spec type from `mData`; only a
field that is new to the pending delta marks the path as unacknowledged. -/
def getOrCreateFieldValueDelta (d : RenderStudioData) (path : SdfPath) (field : TfToken)
    (value : VtValue) : RenderStudioData :=
  match (d.mLocalDeltas.lookup path).or
      ((d.mData.lookup path).map (fun spec => { specType := spec.specType })) with
  | none => d
  | some spec =>
    { d with
      mLocalDeltas :=
        d.mLocalDeltas.insert path { spec with fields := assignField field value spec.fields }
      mUnacknowledgedFields :=
        if (spec.fields.lookup field).isSome then d.mUnacknowledgedFields
        else insert path d.mUnacknowledgedFields }

/-- `Set` for a value that is not empty, and the whole of `Set` for a
`SdfAbstractDataConstValue`. -/
def setAbstract (d : RenderStudioData) (path : SdfPath) (field : TfToken) (value : VtValue) :
    RenderStudioData :=
  let d := d.getOrCreateFieldValue path field value
  if d.mIsProcessingRemoteUpdates || !d.mIsLoaded then d
  else d.getOrCreateFieldValueDelta path field value

def set (d : RenderStudioData) (path : SdfPath) (field : TfToken) (value : VtValue) :
    RenderStudioData :=
  if value.isEmpty then d.erase path field
  else d.setAbstract path field value

/-- `_GetMutableFieldValue` with the assignment its callers make through the pointer. -/
def getMutableFieldValue (d : RenderStudioData) (path : SdfPath) (field : TfToken)
    (value : VtValue) : RenderStudioData :=
  match d.mData.lookup path with
  | none => d
  | some spec =>
    { d with
      mData := d.mData.insert path { spec with fields := overwriteField field value spec.fields } }

/-- A missing source and a target that exists only fail a verification. -/
def moveSpec (d : RenderStudioData) (oldPath newPath : SdfPath) : RenderStudioData :=
  match d.mData.lookup oldPath with
  | none => d
  | some spec =>
    if newPath ∈ d.mData then d
    else { d with mData := (d.mData.insert newPath spec).erase oldPath }

/-- `Has` for a `VtValue`: what is written to it, none if `Has` is false. -/
def has (d : RenderStudioData) (path : SdfPath) (field : TfToken) : Option VtValue :=
  d.getFieldValue path field

/-- `Has` for a `SdfAbstractDataValue`: `storeValue` is what its `StoreValue` returns, true for a
null pointer. -/
def hasAbstract (d : RenderStudioData) (path : SdfPath) (field : TfToken)
    (storeValue : VtValue → Bool) : Bool :=
  match d.getFieldValue path field with
  | none => false
  | some fieldValue => storeValue fieldValue

def getSpecTypeAndFieldValue (d : RenderStudioData) (path : SdfPath) (field : TfToken) :
    SdfSpecType × Option VtValue :=
  match d.mData.lookup path with
  | none => (.unknown, none)
  | some spec => (spec.specType, spec.fields.lookup field)

/-- `HasSpecAndField` for a `VtValue`, with the type it reports. -/
def hasSpecAndField (d : RenderStudioData) (path : SdfPath) (fieldName : TfToken) :
    SdfSpecType × Option VtValue :=
  d.getSpecTypeAndFieldValue path fieldName

/-- `HasSpecAndField` for a `SdfAbstractDataValue`, with the type it reports. -/
def hasSpecAndFieldAbstract (d : RenderStudioData) (path : SdfPath) (fieldName : TfToken)
    (storeValue : VtValue → Bool) : SdfSpecType × Bool :=
  match d.getSpecTypeAndFieldValue path fieldName with
  | (specType, none) => (specType, false)
  | (specType, some v) => (specType, storeValue v)

def list (d : RenderStudioData) (path : SdfPath) : List TfToken :=
  match d.mData.lookup path with
  | none => []
  | some spec => spec.fields.map Prod.fst

def listTimeSamplesForPath (less : Usd.Double → Usd.Double → Bool) (d : RenderStudioData)
    (path : SdfPath) : List Usd.Double :=
  match (d.get path SdfDataTokens.timeSamples).getTimeSampleMap with
  | none => []
  | some timeSampleMap =>
    timeSampleMap.foldl (fun times s => SdfTimeSampleMap.insertTime less s.1 times) []

/-- The times of all paths. -/
def listAllTimeSamples (less : Usd.Double → Usd.Double → Bool) (d : RenderStudioData) :
    List Usd.Double :=
  d.mData.entries.foldl (fun times i =>
    (d.listTimeSamplesForPath less i.1).foldl (fun times t => SdfTimeSampleMap.insertTime less t times)
      times) []

/-- `less` and `equal` are the comparisons of the times. -/
def getBracketingTimeSamples (less equal : Usd.Double → Usd.Double → Bool) (d : RenderStudioData)
    (time : Usd.Double) : BracketingTimeSamples :=
  getBracketingTimeSamplesImpl less equal (d.listAllTimeSamples less) id time

def getNumTimeSamplesForPath (d : RenderStudioData) (path : SdfPath) : Nat :=
  match (d.getFieldValue path SdfDataTokens.timeSamples).bind VtValue.getTimeSampleMap with
  | none => 0
  | some samples => samples.length

def getBracketingTimeSamplesForPath (less equal : Usd.Double → Usd.Double → Bool)
    (d : RenderStudioData) (path : SdfPath) (time : Usd.Double) : BracketingTimeSamples :=
  match (d.getFieldValue path SdfDataTokens.timeSamples).bind VtValue.getTimeSampleMap with
  | none => .noSamples
  | some tsmap => getBracketingTimeSamplesImpl less equal tsmap Prod.fst time

/-- `QueryTimeSample` for a `VtValue`: what is written to it, none if there is no sample. -/
def queryTimeSample (less : Usd.Double → Usd.Double → Bool) (d : RenderStudioData) (path : SdfPath)
    (time : Usd.Double) : Option VtValue :=
  match (d.getFieldValue path SdfDataTokens.timeSamples).bind VtValue.getTimeSampleMap with
  | none => none
  | some tsmap => SdfTimeSampleMap.find less time tsmap

/-- `QueryTimeSample` for a `SdfAbstractDataValue`. -/
def queryTimeSampleAbstract (less : Usd.Double → Usd.Double → Bool) (d : RenderStudioData)
    (path : SdfPath) (time : Usd.Double) (storeValue : VtValue → Bool) : Bool :=
  match d.queryTimeSample less path time with
  | none => false
  | some value => storeValue value

/-- `less` is the order of the times. A field that becomes empty is removed. -/
def eraseTimeSample (less : Usd.Double → Usd.Double → Bool) (d : RenderStudioData) (path : SdfPath)
    (time : Usd.Double) : RenderStudioData :=
  match (d.getFieldValue path SdfDataTokens.timeSamples).bind VtValue.getTimeSampleMap with
  | none => d
  | some samples =>
    let newSamples := SdfTimeSampleMap.erase less time samples
    if newSamples.isEmpty then d.erase path SdfDataTokens.timeSamples
    else d.getMutableFieldValue path SdfDataTokens.timeSamples (.timeSampleMap newSamples)

/-- Writes into the field if there is one, whatever it holds, and calls `Set` otherwise. -/
def setTimeSample (less : Usd.Double → Usd.Double → Bool) (d : RenderStudioData) (path : SdfPath)
    (time : Usd.Double) (value : VtValue) : RenderStudioData :=
  if value.isEmpty then d.eraseTimeSample less path time
  else
    let fieldValue := d.getFieldValue path SdfDataTokens.timeSamples
    let newSamples :=
      SdfTimeSampleMap.assign less time value ((fieldValue.bind VtValue.getTimeSampleMap).getD [])
    match fieldValue with
    | some _ => d.getMutableFieldValue path SdfDataTokens.timeSamples (.timeSampleMap newSamples)
    | none => d.set path SdfDataTokens.timeSamples (.timeSampleMap newSamples)

end RenderStudioData

/-- What `ProcessRemoteUpdates` threads through its loops: the layer's data, the collected
`notices` and the `OwnerChanged` notices already sent. -/
structure UpdateState where
  data : RenderStudioData
  notices : List PrimitiveChanged := []
  ownerNotices : List OwnerChanged := []

/-- The owner a custom data dictionary names, `some none` when nobody holds the primitive. -/
def ownerOf (key : TfToken) (value : VtValue) : Option (Option String) :=
  if key = SdfFieldKeys.customData then
    match value with
    | .dictionary entries =>
      (entries.lookup "owner").map fun owner =>
        if owner.getStdString = "None" then none else some owner.getStdString
    | _ => none
  else none

/-- The loop that removes duplicates, with the tokens seen so far. -/
def deduplicate (seen : List TfToken) : List TfToken → List TfToken
  | [] => []
  | item :: merged =>
    if item ∈ seen then deduplicate seen merged
    else item :: deduplicate (item :: seen) merged

/-- Transformations are applied whatever the client edited itself. -/
def requireForceApply (path : SdfPath) : Bool :=
  decide ("xformOp:".toList <:+: (Usd.getNameToken path).toList)

/-- A removed spec is announced by an empty type name. -/
def removesSpec (key : TfToken) (value : VtValue) : Bool :=
  match value with
  | .token data => key = SdfFieldKeys.typeName && data = ""
  | _ => false

/-- Creates the spec if it does not exist. The state delegate of the layer forwards
`CreateSpec` and `SetField` to this data. -/
def createMissingSpec (s : UpdateState) (path : SdfPath) (spec : SdfSpecType) : UpdateState :=
  if s.data.getSpecType path = .unknown then
    { s with
      data := s.data.createSpec path spec
      notices := if Usd.isPrimPath path then s.notices ++ [.of path true] else s.notices }
  else s

/-- Sends the notice about the primitive lock of another user. -/
def sendOwner (s : UpdateState) (path : SdfPath) (key : TfToken) (value : VtValue) : UpdateState :=
  match ownerOf key value with
  | some owner => { s with ownerNotices := s.ownerNotices ++ [⟨path, owner⟩] }
  | none => s

/-- Stores the field, merging the children of an unacknowledged path with the local ones. -/
def storeField (s : UpdateState) (path : SdfPath) (key : TfToken) (value : VtValue) :
    UpdateState :=
  let unacknowledgedYet := path ∈ s.data.mUnacknowledgedFields
  let requireMerge := key = SdfChildrenKeys.primChildren ∧ unacknowledgedYet
  if requireMerge then
    let localData := (s.data.get path key).getTokenVector
    let remoteData := value.getTokenVector
    let merged := if unacknowledgedYet then remoteData ++ localData else localData ++ remoteData
    { s with data := s.data.set path key (.tokenVector (deduplicate [] merged)) }
  else { s with data := s.data.set path key value }

def noticeActivation (s : UpdateState) (path : SdfPath) (key : TfToken) : UpdateState :=
  if key = SdfFieldKeys.active then { s with notices := s.notices ++ [.of path true] } else s

def eraseRemovedSpec (s : UpdateState) (path : SdfPath) (key : TfToken) (value : VtValue) :
    UpdateState :=
  if removesSpec key value then { s with data := s.data.eraseSpec path } else s

/-- All updates of an unacknowledged path are ignored, except those that are merged or
force applied. -/
def applyDelta (s : UpdateState) (path : SdfPath) (key : TfToken) (value : VtValue)
    (spec : SdfSpecType) : UpdateState :=
  let s := sendOwner (createMissingSpec s path spec) path key value
  let unacknowledgedYet := path ∈ s.data.mUnacknowledgedFields
  let requireMerge := key = SdfChildrenKeys.primChildren ∧ unacknowledgedYet
  if ¬requireForceApply path ∧ ¬requireMerge ∧ unacknowledgedYet then s
  else eraseRemovedSpec (noticeActivation (storeField s path key value) path key) path key value

/-- The body of the loop over one update table. An entry without fields is an acknowledge. -/
def applyEntry (s : UpdateState) (path : SdfPath) (spec : SpecData) : UpdateState :=
  if spec.fields = [] then
    { s with data := { s.data with
        mUnacknowledgedFields := s.data.mUnacknowledgedFields.erase path } }
  else
    let s := spec.fields.foldl (fun s f => applyDelta s path f.1 f.2 spec.specType) s
    { s with notices := s.notices ++ [.of path false] }

def applyTable (s : UpdateState) (deltas : HashTable) : UpdateState :=
  deltas.entries.foldl (fun s delta => applyEntry s delta.1 delta.2) s

/-- One round of the loop over the queue: applies the table with the next number. -/
def applyNext (s : UpdateState) (deltas : HashTable) : UpdateState :=
  let next := s.data.mLatestAppliedSequence + 1
  let s := applyTable s deltas
  { s with data := { s.data with
      mLatestAppliedSequence := next
      mRemoteDeltasQueue := s.data.mRemoteDeltasQueue.erase next } }

/-- The loop over the queue. Each round removes one entry, so the size of the queue bounds
the number of rounds. -/
def applyQueue : Nat → UpdateState → UpdateState
  | 0, s => s
  | rounds + 1, s =>
    match s.data.mRemoteDeltasQueue.lookup (s.data.mLatestAppliedSequence + 1) with
    | none => s
    | some deltas => applyQueue rounds (applyNext s deltas)

/-- Groups the valid notices by primitive and sends one of each group, a resync if the group has one.
The order of the groups is not modelled, the source has that of the paths. -/
def collapseNotices (notices : List PrimitiveChanged) : List PrimitiveChanged :=
  let valid := notices.filter (·.isValid)
  let groups := valid.foldl (fun (groups : AList (fun _ : SdfPath => List PrimitiveChanged)) notice =>
    groups.insert notice.changedPrim ((groups.lookup notice.changedPrim).getD [] ++ [notice])) ∅
  groups.entries.filterMap fun group => (group.2.find? (·.wasResynched)).or group.2.head?

namespace RenderStudioData

/-- `ProcessRemoteUpdates` up to the point where the notices are collected. -/
def updateFromQueue (d : RenderStudioData) : UpdateState :=
  applyQueue d.mRemoteDeltasQueue.entries.length
    { data := { d with mIsProcessingRemoteUpdates := true } }

def processRemoteUpdates (d : RenderStudioData) : RenderStudioData :=
  { d.updateFromQueue.data with mIsProcessingRemoteUpdates := false }

/-- The notices one call of `ProcessRemoteUpdates` sends. -/
def remoteUpdateNotices (d : RenderStudioData) : List PrimitiveChanged × List OwnerChanged :=
  (collapseNotices d.updateFromQueue.notices, d.updateFromQueue.ownerNotices)

def accumulateRemoteUpdate (d : RenderStudioData) (deltas : HashTable) (sequence : Nat) :
    RenderStudioData :=
  { d with mRemoteDeltasQueue := d.mRemoteDeltasQueue.insert sequence deltas }

def fetchLocalDeltas (d : RenderStudioData) : HashTable × RenderStudioData :=
  (d.mLocalDeltas, { d with mLocalDeltas := ∅ })

def onLoaded (d : RenderStudioData) : RenderStudioData :=
  { d with
    mIsLoaded := true
    mLocalDeltas := ∅
    mUnacknowledgedFields := ∅
    mLatestAppliedSequence := 0
    mRemoteDeltasQueue := ∅ }

/-- `mUnacknowledgedFields.count(path) > 0` -/
def isUnacknowledged (d : RenderStudioData) (path : SdfPath) : Bool :=
  decide (path ∈ d.mUnacknowledgedFields)

def getSequence (d : RenderStudioData) : Nat :=
  d.mLatestAppliedSequence

end RenderStudioData

end RenderStudioKit
