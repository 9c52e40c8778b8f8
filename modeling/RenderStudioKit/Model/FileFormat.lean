import RenderStudioKit.Model.Api

/-!
# The live client

`RenderStudioFileFormat` owns the layers of one client. Incoming events are accumulated until
`ProcessLiveUpdates` moves them into the data of their layers. A message is recorded as `sent`
where the code passes it to `Send` of the websocket client.
-/

namespace RenderStudioKit

variable [Usd]

open API

/-- A layer is known by its identifier and stands for its data; a layer that expired is not
registered. `userId` is `RenderStudioResolver::GetCurrentUserId()` and the websocket client is
known by the order of its creation. -/
structure RenderStudioFileFormat where
  userId : String
  mLayerRegistry : AList (fun _ : String => RenderStudioData) := ∅
  mWebsocketClient : Option Nat := none
  mAccumulatedDeltas : AList (fun _ : String => List DeltaEvent) := ∅
  mAccumulatedAcknowledges : AList (fun _ : String => List AcknowledgeEvent) := ∅
  mRequestedReloads : List String := []
  mReloadInProgress : Bool := false

/-- What a call leaves behind: the state, the messages sent and the result. -/
structure LiveOutcome where
  format : RenderStudioFileFormat
  sent : List Json := []
  updated : Bool := false

namespace RenderStudioFileFormat

/-- `Read` of a layer whose file has the given content. -/
def read (f : RenderStudioFileFormat) (layer : String) (file : HashTable) : LiveOutcome :=
  let firstTimeLoading := (f.mLayerRegistry.lookup layer).isNone
  let body : ReloadEvent := ⟨layer, f.userId, none⟩
  { format := { f with mLayerRegistry :=
      f.mLayerRegistry.insert layer (RenderStudioData.onLoaded { mData := file }) }
    sent :=
      if !f.mReloadInProgress && f.mWebsocketClient.isSome && !firstTimeLoading then
        body.event.toJson.toOption.toList
      else []
    updated := true }

/-- Accumulates the remote acknowledges inside the data. -/
def accumulateAcknowledges (data : RenderStudioData) (acknowledges : List AcknowledgeEvent) :
    RenderStudioData :=
  acknowledges.foldl (fun data acknowledge =>
    let updates := acknowledge.paths.foldl
      (fun (updates : HashTable) path => updates.insert path {}) ∅
    data.accumulateRemoteUpdate updates acknowledge.sequence) data

/-- Accumulates the remote deltas inside the data. `ProcessDeltaEvent` admits numbered deltas
only. -/
def accumulateDeltas (data : RenderStudioData) (deltas : List DeltaEvent) : RenderStudioData :=
  deltas.foldl (fun data delta =>
    match delta.sequence with
    | some sequence => data.accumulateRemoteUpdate delta.updates sequence
    | none => data) data

/-- The message with the local deltas of a layer; an exception is only logged. -/
def deltaMessage (user layer : String) (updates : HashTable) : List Json :=
  let body : DeltaEvent := ⟨layer, user, none, updates⟩
  if updates.entries.isEmpty then [] else body.event.toJson.toOption.toList

/-- The data of a layer after `ProcessLiveUpdates`, reloads aside. -/
def updateData (data : RenderStudioData) (acknowledges : List AcknowledgeEvent)
    (deltas : List DeltaEvent) : RenderStudioData :=
  (accumulateDeltas (accumulateAcknowledges data.fetchLocalDeltas.2 acknowledges) deltas)
    |>.processRemoteUpdates

end RenderStudioFileFormat

namespace LiveOutcome

open RenderStudioFileFormat

/-- One turn of the loop over the requested reloads; `files` is what the files contain now. A
file that cannot be read leaves the layer as it is. -/
def reloadLayer (files : String → Option HashTable) (o : LiveOutcome) (layer : String) :
    LiveOutcome :=
  match o.format.mLayerRegistry.lookup layer with
  | none => o
  | some _ =>
    match files layer with
    | none => { o with updated := true }
    | some file =>
      let r := o.format.read layer file
      { format := r.format, sent := o.sent ++ r.sent, updated := true }

/-- One turn of the loop over the layers: sends the local deltas, accumulates what arrived and
processes it. -/
def updateLayer (acknowledges : AList (fun _ : String => List AcknowledgeEvent))
    (deltas : AList (fun _ : String => List DeltaEvent)) (o : LiveOutcome) (layer : String)
    (data : RenderStudioData) : LiveOutcome :=
  let updatedData := updateData data ((acknowledges.lookup layer).getD [])
    ((deltas.lookup layer).getD [])
  { format := { o.format with mLayerRegistry := o.format.mLayerRegistry.insert layer updatedData }
    sent := o.sent ++ deltaMessage o.format.userId layer data.fetchLocalDeltas.1
    updated := o.updated || data.getSequence != updatedData.getSequence }

end LiveOutcome

namespace RenderStudioFileFormat

/-- The order in which the registry visits the layers is not modelled, they come in that of its list. -/
def processLiveUpdates (f : RenderStudioFileFormat) (files : String → Option HashTable) :
    LiveOutcome :=
  let deltas := f.mAccumulatedDeltas
  let reloads := f.mRequestedReloads
  let acknowledges := f.mAccumulatedAcknowledges
  let f := { f with
    mAccumulatedDeltas := ∅
    mRequestedReloads := []
    mAccumulatedAcknowledges := ∅
    mReloadInProgress := true }
  let o : LiveOutcome := reloads.foldl (LiveOutcome.reloadLayer files) { format := f }
  let o := { o with format := { o.format with mReloadInProgress := false } }
  o.format.mLayerRegistry.entries.foldl
    (fun o layer => o.updateLayer acknowledges deltas layer.1 layer.2) o

def processDeltaEvent (f : RenderStudioFileFormat) (v : DeltaEvent) : RenderStudioFileFormat :=
  match v.sequence with
  | none => f
  | some _ =>
    let known := (f.mAccumulatedDeltas.lookup v.layer).getD []
    { f with mAccumulatedDeltas := f.mAccumulatedDeltas.insert v.layer (known ++ [v]) }

def processAcknowledgeEvent (f : RenderStudioFileFormat) (v : AcknowledgeEvent) :
    RenderStudioFileFormat :=
  let known := (f.mAccumulatedAcknowledges.lookup v.layer).getD []
  { f with mAccumulatedAcknowledges := f.mAccumulatedAcknowledges.insert v.layer (known ++ [v]) }

def processReloadEvent (f : RenderStudioFileFormat) (v : ReloadEvent) : RenderStudioFileFormat :=
  match v.sequence with
  | none => f
  | some _ => { f with
      mAccumulatedDeltas := f.mAccumulatedDeltas.erase v.layer
      mAccumulatedAcknowledges := f.mAccumulatedAcknowledges.erase v.layer
      mRequestedReloads := f.mRequestedReloads ++ [v.layer] }

/-- A message that makes the decoder write outside a matrix is dropped here; `parseFault` tells it. -/
def onMessage (f : RenderStudioFileFormat) (message : Json) : RenderStudioFileFormat :=
  match parseEvent message with
  | none => f
  | some event =>
    match event.body with
    | .delta v => f.processDeltaEvent v
    | .history => f
    | .acknowledge v => f.processAcknowledgeEvent v
    | .reload v => f.processReloadEvent v

/-- A local `Set` on the data of a registered layer. -/
def setField (f : RenderStudioFileFormat) (layer : String) (path : SdfPath) (field : TfToken)
    (value : VtValue) : RenderStudioFileFormat :=
  match f.mLayerRegistry.lookup layer with
  | none => f
  | some data => { f with
      mLayerRegistry := f.mLayerRegistry.insert layer (data.set path field value) }

end RenderStudioFileFormat

end RenderStudioKit
