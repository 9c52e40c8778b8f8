import RenderStudioKit.Proofs.PathReplay
import RenderStudioKit.Proofs.SessionStart

/-!
# One client while another one reloads

The reload of another client reaches this one behind everything that was numbered before it, and
the data is read again at the next `ProcessLiveUpdates`. Until then the client counts as one that
holds the new file and receives what the server numbers in the new epoch.
-/

namespace RenderStudioKit.Proofs

open API PathState

section

variable [Usd]

/-- Loaded data whose local deltas are as `Set` records them. -/
structure RecordsEdits (d : RenderStudioData) : Prop where
  idle : d.mIsProcessingRemoteUpdates = false
  loaded : d.mIsLoaded = true
  recordable : ∀ path delta, d.mLocalDeltas.lookup path = some delta → Recordable delta

/-- The table says about each path what `Set` records. -/
def RecordedTable (updates : HashTable) : Prop :=
  ∀ path delta, updates.lookup path = some delta → Recordable delta

/-- A delta of the user; if it is one of the layer, its values were set and survive. -/
structure SendsRecorded (layer user : String) (text : Json) : Prop where
  delta : DeltaOf user text
  recorded : ∀ v, layerDelta layer text = some v → RecordedTable v.updates
  values : ∀ v, layerDelta layer text = some v → AllValues RoundTrips v.updates

lemma recordsEdits_loaded (file : HashTable) : RecordsEdits (loaded file) where
  idle := rfl
  loaded := rfl
  recordable path delta h := by
    have hnone : (loaded file).mLocalDeltas.lookup path = none := AList.lookup_empty path
    rw [hnone] at h
    exact absurd h (by simp)

lemma RecordsEdits.set {d : RenderStudioData} (h : RecordsEdits d) (path : SdfPath)
    (field : TfToken) (value : VtValue) : RecordsEdits (d.set path field value) := by
  obtain ⟨hloaded, hidle, -, -⟩ := set_frame_loaded d path field value
  refine ⟨hidle.trans h.idle, hloaded.trans h.loaded, fun edited delta hdelta => ?_⟩
  have hstate : (pathState (d.set path field value) edited).edit = some delta := hdelta
  by_cases hpath : edited = path
  · subst hpath
    rw [set_pathState h.idle h.loaded] at hstate
    cases hvalue : value.isEmpty with
    | true =>
      rw [set_edit_of_isEmpty hvalue] at hstate
      exact h.recordable edited delta hstate
    | false =>
      unfold PathState.set at hstate
      rw [hvalue, if_neg Bool.false_ne_true] at hstate
      exact recordable_setField hvalue (h.recordable edited) hstate
  · rw [set_pathState_ne d field value hpath] at hstate
    exact h.recordable edited delta hstate

lemma RecordsEdits.updateData {d : RenderStudioData} (h : RecordsEdits d)
    (acknowledges : List AcknowledgeEvent) (deltas : List DeltaEvent) :
    RecordsEdits (RenderStudioFileFormat.updateData d acknowledges deltas) := by
  let Inv (d : RenderStudioData) : Prop :=
    d.mIsProcessingRemoteUpdates = false ∧ d.mIsLoaded = true ∧ d.mLocalDeltas = ∅
  have hrun : Inv (RenderStudioFileFormat.updateData d acknowledges deltas) := by
    unfold RenderStudioFileFormat.updateData
    rw [accumulate_eq]
    generalize acknowledges.map _ ++ _ = updates
    have hqueued : Inv (enqueue d.fetchLocalDeltas.2 updates) := ⟨h.idle, h.loaded, rfl⟩
    refine (processRemoteUpdates_keep Inv ?_ hqueued.1 hqueued).1
    rintro d deltas ⟨-, hloaded, hlocals⟩ -
    exact ⟨rfl, (applyRound_mIsLoaded d deltas).trans hloaded,
      (applyRound_mLocalDeltas d deltas).trans hlocals⟩
  obtain ⟨hidle, hloaded, hlocals⟩ := hrun
  refine ⟨hidle, hloaded, fun path delta hdelta => ?_⟩
  rw [hlocals, AList.lookup_empty] at hdelta
  exact absurd hdelta (by simp)

/-- A client that holds the layer. -/
structure Holder (layer user : String) (f : RenderStudioFileFormat) : Prop where
  userId : f.userId = user
  registered : (f.mLayerRegistry.lookup layer).isSome
  records : RecordsEdits (layerData f layer)

namespace Holder

variable {layer user : String} {f : RenderStudioFileFormat}

lemma setField (h : Holder layer user f) (edited : String) (path : SdfPath) (field : TfToken)
    (value : VtValue) : Holder layer user (f.setField edited path field value) := by
  have huser := (setField_frame f edited path field value).1.trans h.userId
  by_cases hlayer : edited = layer
  · subst hlayer
    obtain ⟨d, hd⟩ := Option.isSome_iff_exists.1 h.registered
    refine ⟨huser, by simp [RenderStudioFileFormat.setField, hd], ?_⟩
    rw [layerData_setField h.registered]
    exact h.records.set path field value
  · have hlookup := lookup_setField_ne hlayer f path field value
    refine ⟨huser, by rw [hlookup]; exact h.registered, ?_⟩
    rw [layerData, hlookup]
    exact h.records

lemma onMessage (h : Holder layer user f) (text : Json) : Holder layer user (f.onMessage text) := by
  have hframe : (f.onMessage text).userId = f.userId ∧
      (f.onMessage text).mLayerRegistry = f.mLayerRegistry := by
    by_cases hreload : IsReload text
    · obtain ⟨name, v, hparse⟩ := hreload
      have hmessage : f.onMessage text = f.processReloadEvent v := by
        rw [RenderStudioFileFormat.onMessage, hparse]
      rw [hmessage, RenderStudioFileFormat.processReloadEvent]
      cases v.sequence <;> exact ⟨rfl, rfl⟩
    · obtain ⟨huser, hregistry, -⟩ := onMessage_frame hreload f
      exact ⟨huser, hregistry⟩
  refine ⟨hframe.1.trans h.userId, by rw [hframe.2]; exact h.registered, ?_⟩
  rw [layerData, hframe.2]
  exact h.records

lemma read (h : Holder layer user f) (edited : String) (file : HashTable) :
    Holder layer user (f.read edited file).format := by
  unfold RenderStudioFileFormat.read
  by_cases hlayer : edited = layer
  · subst hlayer
    refine ⟨h.userId, by simp, ?_⟩
    rw [layerData, AList.lookup_insert]
    exact recordsEdits_loaded file
  · have hlookup : (f.mLayerRegistry.insert edited (loaded file)).lookup layer =
        f.mLayerRegistry.lookup layer := AList.lookup_insert_ne fun heq => hlayer heq.symm
    refine ⟨h.userId, (congrArg Option.isSome hlookup).trans h.registered, ?_⟩
    have hdata := congrArg (fun data : Option RenderStudioData => RecordsEdits (data.getD {})) hlookup
    exact hdata.mpr h.records

lemma reloaded (h : Holder layer user f) (files : String → Option HashTable) :
    ∃ d, (Proofs.reloaded f files).format.mLayerRegistry.lookup layer = some d ∧
      RecordsEdits d := by
  obtain ⟨d, hd⟩ := Option.isSome_iff_exists.1 h.registered
  have hrecords := h.records
  rw [layerData, hd, Option.getD_some] at hrecords
  rw [reloaded_lookup, hd]
  refine ⟨_, rfl, ?_⟩
  dsimp only
  split_ifs
  · cases files layer with
    | none => exact hrecords
    | some file => exact recordsEdits_loaded file
  · exact hrecords

lemma processLiveUpdates (h : Holder layer user f) (files : String → Option HashTable) :
    Holder layer user (f.processLiveUpdates files).format := by
  obtain ⟨d, hd, hrecords⟩ := h.reloaded files
  have hregistry := (processLiveUpdates_layer f files layer).1
  rw [hd, Option.map_some] at hregistry
  refine ⟨(processLiveUpdates_frame f files).1.trans h.userId, by rw [hregistry]; rfl, ?_⟩
  rw [layerData, hregistry, Option.getD_some]
  exact hrecords.updateData _ _

lemma sends (laws : UsdLaws) (h : Holder layer user f) (files : String → Option HashTable)
    (hvalues : AllValues RoundTrips
      (layerData (Proofs.reloaded f files).format layer).mLocalDeltas) :
    ∀ text ∈ (f.processLiveUpdates files).sent, SendsRecorded layer user text := by
  obtain ⟨d, hd, hrecords⟩ := h.reloaded files
  rw [layerData, hd, Option.getD_some] at hvalues
  have hsent := (processLiveUpdates_layer f files layer).2
  obtain ⟨sent, hmessage, -, hsame⟩ := deltaMessage_layerDelta laws f.userId layer hvalues
  rw [hd, Option.elim_some, hmessage] at hsent
  intro text htext
  have hupdates : ∀ v, layerDelta layer text = some v → SameTable v.updates d.mLocalDeltas := by
    intro v hv
    have hmem : v ∈ sent.toList := hsent ▸ List.mem_filterMap.2 ⟨text, htext, hv⟩
    exact (hsame v (Option.mem_toList.1 hmem)).2
  have hdelta := (processLiveUpdates_frame f files).2.2.2 text htext
  rw [h.userId] at hdelta
  refine ⟨hdelta, fun v hv path delta hlookup => ?_, fun v hv path delta hlookup => ?_⟩
  · exact hrecords.recordable path delta ((hupdates v hv path).symm.trans hlookup)
  · exact hvalues path delta ((hupdates v hv path).symm.trans hlookup)

end Holder

/-- A client that has read the layer and nothing else. -/
def reader (user layer : String) (file : HashTable) : RenderStudioFileFormat where
  userId := user
  mLayerRegistry := AList.insert layer (loaded file) ∅

/-- The client with its requested reloads carried out. -/
def reread (f : RenderStudioFileFormat) (layer : String) (file : HashTable) :
    RenderStudioFileFormat :=
  { f with
    mLayerRegistry := f.mLayerRegistry.insert layer (loaded file)
    mRequestedReloads := [] }

section

variable {layer user : String} {file : HashTable} {history : List DeltaEvent}
  {f : RenderStudioFileFormat} {uplink downlink : List Json}

lemma reader_holdsLayer (user layer : String) (file : HashTable) :
    HoldsLayer layer user file (reader user layer file) where
  userId := rfl
  holds := AList.lookup_insert _
  noneAccumulated := rfl
  noReloads := rfl

lemma layerData_reread (f : RenderStudioFileFormat) (layer : String) (file : HashTable) :
    layerData (reread f layer file) layer = loaded file := by
  unfold layerData reread
  rw [AList.lookup_insert, Option.getD_some]

lemma LinkedClient.reread_congr {g : RenderStudioFileFormat}
    (h : LinkedClient user layer history g uplink downlink)
    (hdata : layerData g layer = loaded file) (huser : f.userId = user)
    (haccumulated : accumulatedUpdates f layer = accumulatedUpdates g layer) :
    LinkedClient user layer history (reread f layer file) uplink downlink := by
  have hread := layerData_reread f layer file
  refine h.congr (huser.trans h.userId.symm) h.noReloads.symm ?_ haccumulated ?_ ?_
  · simp [reread]
  · rw [hread, ← hdata]
    exact h.ready
  · rw [hread, hdata]

lemma reread_onMessage {text : Json} (h : ¬IsReload text) (f : RenderStudioFileFormat)
    (layer : String) (file : HashTable) :
    (reread f layer file).onMessage text = reread (f.onMessage text) layer file := by
  unfold RenderStudioFileFormat.onMessage
  cases hparse : parseEvent text with
  | none => rfl
  | some e =>
    obtain ⟨name, body⟩ := e
    cases body with
    | delta v =>
      dsimp only
      unfold RenderStudioFileFormat.processDeltaEvent
      cases v.sequence <;> rfl
    | acknowledge v => rfl
    | history => rfl
    | reload v => exact absurd ⟨name, v, hparse⟩ h

lemma foldl_updateLayer_congr (acknowledges : AList (fun _ : String => List AcknowledgeEvent))
    (deltas : AList (fun _ : String => List DeltaEvent))
    (layers : List (Sigma fun _ : String => RenderStudioData)) {o o' : LiveOutcome}
    (hformat : o.format = o'.format) (hsent : o.sent = o'.sent) :
    let step := fun (o : LiveOutcome) (data : Sigma fun _ : String => RenderStudioData) =>
      o.updateLayer acknowledges deltas data.1 data.2
    (layers.foldl step o).format = (layers.foldl step o').format ∧
      (layers.foldl step o).sent = (layers.foldl step o').sent := by
  intro step
  induction layers generalizing o o' with
  | nil => exact ⟨hformat, hsent⟩
  | cons data layers ih =>
    refine ih ?_ ?_
    · simp only [step, LiveOutcome.updateLayer, hformat]
    · simp only [step, LiveOutcome.updateLayer, hformat, hsent]

/-- `ProcessLiveUpdates` of a client with one requested reload is the one of the client that has
read the file. -/
theorem processLiveUpdates_reread (hregistered : (f.mLayerRegistry.lookup layer).isSome)
    (hrequested : f.mRequestedReloads = [layer]) {files : String → Option HashTable}
    (hfile : files layer = some file) :
    (f.processLiveUpdates files).format =
        ((reread f layer file).processLiveUpdates files).format ∧
      (f.processLiveUpdates files).sent =
        ((reread f layer file).processLiveUpdates files).sent := by
  obtain ⟨d, hd⟩ := Option.isSome_iff_exists.1 hregistered
  have hformat : (reloaded f files).format = (reloaded (reread f layer file) files).format := by
    unfold reloaded
    simp [hrequested, reread, LiveOutcome.reloadLayer, hd, hfile, RenderStudioFileFormat.read,
      loaded]
  have hsent : (reloaded f files).sent = (reloaded (reread f layer file) files).sent :=
    (reloaded_frame f files).2.2.2.2.trans (reloaded_frame _ files).2.2.2.2.symm
  rw [processLiveUpdates_eq, processLiveUpdates_eq, hformat]
  exact foldl_updateLayer_congr _ _ _ hformat hsent

lemma LinkedClient.sent (h : LinkedClient user layer history f uplink downlink)
    {texts : List Json} (htexts : ∀ text ∈ texts, SendsRecorded layer user text) :
    LinkedClient user layer history f (uplink ++ texts) downlink := by
  refine ⟨h.userId, h.noReloads, h.registered, h.ready, fun text htext => ?_, fun v hv => ?_,
    h.incoming, h.arrived, h.arriving, h.total⟩
  · rcases List.mem_append.1 htext with hold | hnew
    · exact h.outgoing text hold
    · exact (htexts text hnew).delta
  · rw [List.filterMap_append] at hv
    rcases List.mem_append.1 hv with hold | hnew
    · exact h.outgoingValues v hold
    · obtain ⟨text, htext, hdelta⟩ := List.mem_filterMap.1 hnew
      exact (htexts text htext).values v hdelta

/-- The log of a path as one client and the server know it. -/
def clientLog (layer : String) (path : SdfPath) (history : List DeltaEvent)
    (f : RenderStudioFileFormat) (uplink : List Json) : PathLog where
  history := history.map fun v => (v.user, v.updates.lookup path)
  replica _ := replicaAt layer path f uplink

/-- At every path the client agrees with the replay of the history on the file. -/
def Replays (user layer : String) (file : HashTable) (history : List DeltaEvent)
    (f : RenderStudioFileFormat) (uplink : List Json) : Prop :=
  ∀ path, Rebuilds user path (file.lookup path) (clientLog layer path history f uplink)

/-- The edit has an effect on the local deltas or none at all, and does not remove the spec. -/
structure KeepsEdit (d : RenderStudioData) (path : SdfPath) (field : TfToken) (value : VtValue) :
    Prop where
  clears : value.isEmpty = true → fieldAt (d.mData.lookup path) field = none
  removes : value.isEmpty = false → removesSpec field value = false

/-- Whenever the next `ProcessLiveUpdates` stores a foreign delta, it stores what the replay
keeps. -/
def UpdateKeepsReplay (user layer : String) (history : List DeltaEvent)
    (f : RenderStudioFileFormat) (uplink : List Json) : Prop :=
  ∀ path, ∃ log : PathLog,
    log.history = history.map (fun v => (v.user, v.updates.lookup path)) ∧
    log.replica user = replicaAt layer path f uplink ∧
    Runs.AllSteps (LogAction.perform path) (AtForeign (KeepsReplay path)) log
      (.flush user (!(layerData f layer).mLocalDeltas.entries.isEmpty) ::
        List.replicate (accumulatedUpdates f layer).length (.receive user))

namespace Replays

lemma congr_data (h : Replays user layer file history f uplink) {f' : RenderStudioFileFormat}
    {uplink' : List Json} (hdata : layerData f' layer = layerData f layer)
    (huplink : uplink'.filterMap (layerDelta layer) = uplink.filterMap (layerDelta layer)) :
    Replays user layer file history f' uplink' := by
  intro path
  refine (h path).congr rfl ?_
  simp only [clientLog, replicaAt, hdata, huplink]

lemma setField (h : Replays user layer file history f uplink)
    (hlinked : LinkedClient user layer history f uplink downlink) {edited : String}
    {path : SdfPath} {field : TfToken} {value : VtValue}
    (hkeeps : edited = layer → KeepsEdit (layerData f layer) path field value) :
    Replays user layer file history (f.setField edited path field value) uplink := by
  intro path'
  have hreplica := hlinked.replicaAt_setField edited path field value path'
  by_cases hedit : edited = layer ∧ path = path'
  · obtain ⟨rfl, rfl⟩ := hedit
    obtain ⟨hclears, hremoves⟩ := hkeeps rfl
    rw [if_pos ⟨rfl, rfl⟩] at hreplica
    have hset : Rebuilds user path (file.lookup path)
        ((clientLog edited path history f uplink).edit user (PathState.set field value)) := by
      cases hvalue : value.isEmpty with
      | true => exact (h path).clear hvalue (hclears hvalue)
      | false => exact (h path).set hvalue (hremoves hvalue)
    refine hset.congr rfl (hreplica.trans ?_)
    simp [clientLog, SharedLog.edit, replicaAt]
  · rw [if_neg hedit] at hreplica
    exact (h path').congr rfl hreplica

lemma processLiveUpdates (laws : UsdLaws) (h : Replays user layer file history f uplink)
    (hlinked : LinkedClient user layer history f uplink downlink)
    (hedits : AllValues RoundTrips (layerData f layer).mLocalDeltas)
    (files : String → Option HashTable) (hkeeps : UpdateKeepsReplay user layer history f uplink) :
    Replays user layer file history (f.processLiveUpdates files).format
      (uplink ++ (f.processLiveUpdates files).sent) := by
  intro path
  obtain ⟨log, hhistory, hreplica, hsteps⟩ := hkeeps path
  have hlog : Rebuilds user path (file.lookup path) log := (h path).congr hhistory hreplica
  have hfinal := hlinked.final_update laws hedits files hhistory hreplica
  have hupdated := hlog.update (fun hsilent => ?_) hsteps
  · rw [hfinal] at hupdated
    refine hupdated.congr hhistory.symm ?_
    simp [clientLog]
  · have hempty : (layerData f layer).mLocalDeltas = ∅ := AList.ext (by simpa using hsilent)
    rw [hreplica]
    simp [replicaAt, pathState, hempty]

lemma serve_own (h : Replays user layer file history f uplink) {text : Json} {rest : List Json}
    (huplink : uplink = text :: rest) {v : DeltaEvent} (hdelta : layerDelta layer text = some v)
    (hauthor : v.user = user) (sequence : Option Nat) :
    Replays user layer file (history ++ [{ v with sequence := sequence }]) f rest := by
  intro path
  have houtbox : ((clientLog layer path history f uplink).replica user).outbox =
      v.updates.lookup path :: (rest.filterMap (layerDelta layer)).map
        (·.updates.lookup path) := by
    simp only [clientLog, replicaAt, huplink, List.filterMap_cons_some hdelta, List.map_cons]
  refine (h path).serve.congr ?_ ?_
  · unfold SharedLog.serve
    rw [houtbox]
    simp [clientLog, hauthor]
  · unfold SharedLog.serve
    rw [houtbox]
    simp [clientLog, replicaAt]

lemma serve_foreign (h : Replays user layer file history f uplink) {v : DeltaEvent}
    (hforeign : v.user ≠ user) (hrecorded : RecordedTable v.updates) (sequence : Option Nat) :
    Replays user layer file (history ++ [{ v with sequence := sequence }]) f uplink := by
  intro path
  refine ((h path).append hforeign (hrecorded path)).congr ?_ rfl
  simp [clientLog]

lemma awaited_reread (hforeign : ∀ v ∈ history, v.user ≠ user)
    (huplink : uplink.filterMap (layerDelta layer) = []) (path : SdfPath) :
    (clientLog layer path history (reread f layer file) uplink).awaited user = [] := by
  simp only [SharedLog.awaited, clientLog, replicaAt, huplink, List.map_nil, List.append_nil,
    List.map_eq_nil_iff, List.filter_eq_nil_iff]
  intro entry hentry
  obtain ⟨v, hv, rfl⟩ := List.mem_map.1 (List.mem_of_mem_drop hentry)
  simpa using hforeign v hv

lemma clientLog_reread_state (path : SdfPath) :
    ((clientLog layer path history (reread f layer file) uplink).replica user).state =
      ⟨file.lookup path, none, false⟩ := by
  simp only [clientLog, replicaAt, layerData_reread]
  rfl

lemma of_reread (hhistory : ∀ v ∈ history, RecordedTable v.updates)
    (hforeign : ∀ v ∈ history, v.user ≠ user) (huplink : uplink.filterMap (layerDelta layer) = []) :
    Replays user layer file history (reread f layer file) uplink := by
  intro path
  refine .fresh ?_ ?_ (clientLog_reread_state path) ?_
  · intro author delta hmem
    obtain ⟨v, hv, heq⟩ := List.mem_map.1 hmem
    exact hhistory v hv path delta (congrArg Prod.snd heq)
  · simp only [clientLog, replicaAt, layerData_reread]
    rfl
  · rw [awaited_reread hforeign huplink]
    exact fun entry hentry => absurd hentry List.not_mem_nil

lemma updateKeepsReplay_reread (hforeign : ∀ v ∈ history, v.user ≠ user)
    (huplink : uplink.filterMap (layerDelta layer) = []) :
    UpdateKeepsReplay user layer history (reread f layer file) uplink := by
  intro path
  refine ⟨clientLog layer path history (reread f layer file) uplink, rfl, rfl, ?_⟩
  apply keepsReplay_idle
  rintro ⟨delta, hdelta⟩
  rw [pendingEntries, awaited_reread hforeign huplink, clientLog_reread_state] at hdelta
  exact absurd (List.mem_singleton.1 hdelta) (by simp)

end Replays

/-- Nobody has announced the reload, it is on its way to the server, or the server has handled
it. -/
inductive ReloadStage where
  | before
  | announced
  | handled

/-- The client has not carried out a reload that the server told it about. -/
def ReloadPending (layer : String) (f : RenderStudioFileFormat) (downlink : List Json) : Prop :=
  layer ∈ f.mRequestedReloads ∨ ∃ text ∈ downlink, (layerReload layer text).isSome

instance (layer : String) (f : RenderStudioFileFormat) (downlink : List Json) :
    Decidable (ReloadPending layer f downlink) :=
  inferInstanceAs (Decidable (_ ∨ _))

/-- A client and its links while the layer is reloaded by another client. -/
inductive Following (user layer : String) (file : HashTable) (history : List DeltaEvent)
    (f : RenderStudioFileFormat) (uplink downlink : List Json) : ReloadStage → Prop
  | ahead {stage : ReloadStage} (hstage : stage ≠ .handled)
      (h : LinkedClient user layer history f uplink downlink) :
      Following user layer file history f uplink downlink stage
  | coming {earlier : List Json} {reload : Json} {rest : List Json}
      (hdownlink : downlink = earlier ++ reload :: rest)
      (hearlier : ∀ text ∈ earlier, ¬IsReload text) (hreload : ReloadsLayer layer reload)
      (hrequested : f.mRequestedReloads = [])
      (h : LinkedClient user layer history (reader user layer file) uplink rest) :
      Following user layer file history f uplink downlink .handled
  | requested (hrequested : f.mRequestedReloads = [layer])
      (h : LinkedClient user layer history (reread f layer file) uplink downlink) :
      Following user layer file history f uplink downlink .handled
  | renewed (h : LinkedClient user layer history f uplink downlink)
      (hreplays : Replays user layer file history f uplink) :
      Following user layer file history f uplink downlink .handled

lemma not_reloadPending (h : LinkedClient user layer history f uplink downlink) :
    ¬ReloadPending layer f downlink := by
  rintro (hrequested | ⟨text, htext, hreload⟩)
  · rw [h.noReloads] at hrequested
    exact absurd hrequested List.not_mem_nil
  · obtain ⟨v, hv⟩ := Option.isSome_iff_exists.1 hreload
    obtain ⟨name, hparse, -⟩ := parseEvent_layerReload hv
    exact h.incoming text htext ⟨name, v, hparse⟩

namespace Following

variable {stage : ReloadStage}

lemma map (h : Following user layer file history f uplink downlink stage)
    {history' : List DeltaEvent} {uplink' texts : List Json}
    (hlinked : ∀ g rest, LinkedClient user layer history g uplink rest →
      LinkedClient user layer history' g uplink' (rest ++ texts))
    (hreplays : Replays user layer file history f uplink →
      Replays user layer file history' f uplink') :
    Following user layer file history' f uplink' (downlink ++ texts) stage := by
  cases h with
  | ahead hstage h => exact .ahead hstage (hlinked f downlink h)
  | coming hdownlink hearlier hreload hrequested h =>
    refine .coming ?_ hearlier hreload hrequested (hlinked _ _ h)
    rw [hdownlink, List.append_assoc, List.cons_append]
  | requested hrequested h => exact .requested hrequested (hlinked _ _ h)
  | renewed h hr => exact .renewed (hlinked _ _ h) (hreplays hr)

lemma renew (h : Following user layer file history f uplink downlink .announced) {reload : Json}
    (hreload : ReloadsLayer layer reload) :
    Following user layer file [] f uplink (downlink ++ [reload]) .handled := by
  cases h with
  | ahead hstage h =>
    refine .coming rfl h.incoming hreload h.noReloads ?_
    exact (reader_holdsLayer user layer file).linked h.outgoing h.outgoingValues (by simp)

lemma setField (h : Following user layer file history f uplink downlink stage)
    (hholder : Holder layer user f) {edited : String} {path : SdfPath} {field : TfToken}
    {value : VtValue}
    (hkeeps : ¬ReloadPending layer f downlink → stage = .handled → edited = layer →
      KeepsEdit (layerData f layer) path field value) :
    Following user layer file history (f.setField edited path field value) uplink downlink
      stage := by
  obtain ⟨huser, hrequests, haccumulated⟩ := setField_frame f edited path field value
  cases h with
  | ahead hstage h => exact .ahead hstage (h.setField edited path field value)
  | coming hdownlink hearlier hreload hrequested h =>
    exact .coming hdownlink hearlier hreload (hrequests.trans hrequested) h
  | requested hrequested h =>
    refine .requested (hrequests.trans hrequested) ?_
    exact h.reread_congr (layerData_reread f layer file) (huser.trans hholder.userId)
      (haccumulated layer)
  | renewed h hreplays =>
    exact .renewed (h.setField edited path field value)
      (hreplays.setField h (hkeeps (not_reloadPending h) rfl))

/-- The next message of the server arrives. -/
lemma onMessage (h : Following user layer file history f uplink downlink stage)
    (hholder : Holder layer user f) {text : Json} {rest : List Json}
    (hdownlink : downlink = text :: rest) :
    Following user layer file history (f.onMessage text) uplink rest stage := by
  cases h with
  | ahead hstage h => exact .ahead hstage (h.onMessage hdownlink)
  | @coming earlier reload later hcoming hearlier hreload hrequested h =>
    rw [hdownlink] at hcoming
    cases earlier with
    | nil =>
      obtain ⟨rfl, rfl⟩ := List.cons.inj hcoming
      obtain ⟨v, hv, hsequence⟩ := hreload
      obtain ⟨name, hparse, rfl⟩ := parseEvent_layerReload hv
      obtain ⟨sequence, hsequence⟩ := Option.isSome_iff_exists.1 hsequence
      have hmessage : f.onMessage text = f.processReloadEvent v := by
        rw [RenderStudioFileFormat.onMessage, hparse]
      have huser := (hholder.onMessage text).userId
      refine .requested ?_ (h.reread_congr (reader_holdsLayer user v.layer file).layerData huser ?_)
      · rw [hmessage, RenderStudioFileFormat.processReloadEvent, hsequence]
        simp [hrequested]
      · rw [hmessage, RenderStudioFileFormat.processReloadEvent, hsequence]
        simp [accumulatedUpdates, reader]
    | cons first earlier =>
      obtain ⟨rfl, rfl⟩ := List.cons.inj hcoming
      have hframe := onMessage_frame (hearlier text List.mem_cons_self) f
      exact .coming rfl (fun t ht => hearlier t (List.mem_cons_of_mem text ht)) hreload
        (hframe.2.2.trans hrequested) h
  | requested hrequested h =>
    have hreload := h.incoming text (hdownlink ▸ List.mem_cons_self)
    have hframe := onMessage_frame hreload f
    refine .requested (hframe.2.2.trans hrequested) ?_
    rw [← reread_onMessage hreload]
    exact h.onMessage hdownlink
  | renewed h hreplays =>
    have hreload := h.incoming text (hdownlink ▸ List.mem_cons_self)
    have hregistry := (onMessage_frame hreload f).2.1
    refine .renewed (h.onMessage hdownlink) (hreplays.congr_data ?_ rfl)
    rw [layerData, hregistry]
    rfl

/-- `ProcessLiveUpdates`, which carries out the reload if it has arrived. -/
lemma processLiveUpdates (laws : UsdLaws)
    (h : Following user layer file history f uplink downlink stage)
    (hholder : Holder layer user f) {files : String → Option HashTable}
    (hvalues : AllValues RoundTrips (layerData (reloaded f files).format layer).mLocalDeltas)
    (hhistory : ∀ v ∈ history, RecordedTable v.updates)
    (hreload : stage = .handled → layer ∈ f.mRequestedReloads → files layer = some file ∧
      (∀ v ∈ history, v.user ≠ user) ∧ uplink.filterMap (layerDelta layer) = [])
    (hkeeps : ¬ReloadPending layer f downlink → stage = .handled →
      UpdateKeepsReplay user layer history f uplink) :
    Following user layer file history (f.processLiveUpdates files).format
      (uplink ++ (f.processLiveUpdates files).sent) downlink stage := by
  have hnone : f.mRequestedReloads = [] →
      layerData (reloaded f files).format layer = layerData f layer := by
    intro hrequested
    rw [layerData, reloaded_lookup_none files hrequested]
    rfl
  cases h with
  | ahead hstage h =>
    rw [hnone h.noReloads] at hvalues
    exact .ahead hstage (h.processLiveUpdates laws hvalues files).1
  | coming hdownlink hearlier hcoming hrequested h =>
    exact .coming hdownlink hearlier hcoming (processLiveUpdates_frame f files).2.1
      (h.sent (hholder.sends laws files hvalues))
  | requested hrequested h =>
    have hmem : layer ∈ f.mRequestedReloads := by rw [hrequested]; exact List.mem_singleton_self _
    obtain ⟨hfile, hforeign, huplink⟩ := hreload rfl hmem
    obtain ⟨hformat, hsent⟩ := processLiveUpdates_reread hholder.registered hrequested hfile
    have hedits : AllValues RoundTrips (layerData (reread f layer file) layer).mLocalDeltas := by
      rw [layerData_reread]
      exact AllValues.empty RoundTrips
    rw [hformat, hsent]
    refine .renewed (h.processLiveUpdates laws hedits files).1 ?_
    exact Replays.processLiveUpdates laws (.of_reread hhistory hforeign huplink) h hedits files
      (Replays.updateKeepsReplay_reread hforeign huplink)
  | renewed h hreplays =>
    rw [hnone h.noReloads] at hvalues
    exact .renewed (h.processLiveUpdates laws hvalues files).1
      (hreplays.processLiveUpdates laws h hvalues files (hkeeps (not_reloadPending h) rfl))

/-- When nothing is left to do, the client holds the replay of the history on the file. -/
theorem settled (h : Following user layer file history f [] [] .handled)
    (hrequested : layer ∉ f.mRequestedReloads) (haccumulated : accumulatedUpdates f layer = [])
    (hedits : (layerData f layer).mLocalDeltas = ∅) (path : SdfPath) :
    SameSpec ((layerData f layer).mData.lookup path)
      (replayAll path (history.map (·.updates.lookup path)) (file.lookup path)) := by
  cases h with
  | ahead hstage h => exact absurd rfl hstage
  | coming hdownlink hearlier hreload hnone h => exact absurd hdownlink (by simp)
  | requested hlayer h =>
    rw [hlayer] at hrequested
    exact absurd (List.mem_singleton_self layer) hrequested
  | renewed h hreplays =>
    have htotal := h.total
    rw [haccumulated] at htotal
    have hresult := (hreplays path).settled ?_ ?_ ?_
    · simpa [clientLog, replicaAt, pathState, Function.comp_def] using hresult
    · simpa [clientLog, replicaAt] using htotal
    · rfl
    · simp [clientLog, replicaAt, pathState, hedits]

end Following

end

end

end RenderStudioKit.Proofs
