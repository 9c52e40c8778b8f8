import RenderStudioKit.Model.FileFormat
import RenderStudioKit.Proofs.EventCodec
import RenderStudioKit.Proofs.PathState

/-!
# Live updates of one layer

`ProcessLiveUpdates` works on all layers of a client. Seen at one of them it sends the local
deltas of that layer and applies the numbered updates that arrived for it.
-/

namespace RenderStudioKit.Proofs

open API PathState

section

variable [Usd]

/-- The delta of the layer that a text contains. -/
def layerDelta (layer : String) (text : Json) : Option DeltaEvent :=
  match parseEvent text with
  | some ⟨_, .delta v⟩ => if v.layer = layer then some v else none
  | _ => none

/-- The table `ProcessLiveUpdates` queues for an acknowledge. -/
def acknowledgeUpdates (v : AcknowledgeEvent) : HashTable :=
  v.paths.foldl (fun updates path => updates.insert path {}) ∅

/-- The numbered update of the layer that a text contains. -/
def layerUpdate (layer : String) (text : Json) : Option (Nat × HashTable) :=
  match parseEvent text with
  | some ⟨_, .delta v⟩ => if v.layer = layer then v.sequence.map (·, v.updates) else none
  | some ⟨_, .acknowledge v⟩ =>
    if v.layer = layer then some (v.sequence, acknowledgeUpdates v) else none
  | _ => none

/-- The reload of the layer that a text announces. -/
def layerReload (layer : String) (text : Json) : Option ReloadEvent :=
  match parseEvent text with
  | some ⟨_, .reload v⟩ => if v.layer = layer then some v else none
  | _ => none

def IsReload (text : Json) : Prop := ∃ name v, parseEvent text = some ⟨name, .reload v⟩

/-- The text is one of a delta of the user. -/
def DeltaOf (user : String) (text : Json) : Prop :=
  ∃ v : DeltaEvent, v.user = user ∧ v.event.toJson = .ok text

lemma parseEvent_deltaOf {user : String} {text : Json} {e : Event} (h : DeltaOf user text)
    (hparse : parseEvent text = some e) :
    ∃ v, e = ⟨"Delta::Event", .delta v⟩ ∧ v.user = user := by
  obtain ⟨v, hv, htext⟩ := h
  obtain ⟨v', he, -, huser, -⟩ := parseEvent_delta htext hparse
  exact ⟨v', he, huser.trans hv⟩

lemma layerReload_of_delta {layer : String} {text : Json} (h : (layerDelta layer text).isSome) :
    layerReload layer text = none := by
  unfold layerDelta at h
  unfold layerReload
  cases hparse : parseEvent text with
  | none => rfl
  | some e =>
    obtain ⟨name, body⟩ := e
    cases body with
    | reload v => simp [hparse] at h
    | delta v => rfl
    | acknowledge v => rfl
    | history => rfl

lemma layerReload_deltaOf {user layer : String} {text : Json} (h : DeltaOf user text) :
    layerReload layer text = none := by
  unfold layerReload
  cases hparse : parseEvent text with
  | none => rfl
  | some e =>
    obtain ⟨v, rfl, -⟩ := parseEvent_deltaOf h hparse
    rfl

lemma not_isReload_delta {v : DeltaEvent} {text : Json} (htext : v.event.toJson = .ok text) :
    ¬IsReload text := by
  rintro ⟨name, reload, hparse⟩
  obtain ⟨v', he, -⟩ := parseEvent_delta htext hparse
  simp at he

lemma not_isReload_acknowledge {v : AcknowledgeEvent} {text : Json}
    (htext : v.event.toJson = .ok text) : ¬IsReload text := by
  rintro ⟨name, reload, hparse⟩
  obtain ⟨v', he, -⟩ := parseEvent_acknowledge_header htext hparse
  simp at he

lemma layer_of_delta_text {v : DeltaEvent} {text : Json} (htext : v.event.toJson = .ok text)
    {layer : String} (hlayer : v.layer ≠ layer) :
    layerDelta layer text = none ∧ layerUpdate layer text = none := by
  unfold layerDelta layerUpdate
  cases hparse : parseEvent text with
  | none => exact ⟨rfl, rfl⟩
  | some e =>
    obtain ⟨v', rfl, hv', -⟩ := parseEvent_delta htext hparse
    have hne : v'.layer ≠ layer := hv' ▸ hlayer
    simp [hne]

lemma layer_of_acknowledge_text {v : AcknowledgeEvent} {text : Json}
    (htext : v.event.toJson = .ok text) {layer : String} (hlayer : v.layer ≠ layer) :
    layerUpdate layer text = none := by
  unfold layerUpdate
  cases hparse : parseEvent text with
  | none => rfl
  | some e =>
    obtain ⟨v', rfl, hv'⟩ := parseEvent_acknowledge_header htext hparse
    have hne : v'.layer ≠ layer := hv' ▸ hlayer
    simp [hne]

lemma layerUpdate_delta_text (laws : UsdLaws) {v : DeltaEvent}
    (hv : AllValues RoundTrips v.updates) :
    ∃ text v', v.event.toJson = .ok text ∧ SameDelta v v' ∧
      layerDelta v.layer text = some v' ∧
      layerUpdate v.layer text = v.sequence.map (·, v'.updates) := by
  obtain ⟨text, v', htext, hparse, hsame⟩ := parseEvent_delta_roundtrip laws hv
  refine ⟨text, v', htext, hsame, ?_, ?_⟩
  · simp [layerDelta, hparse, hsame.layer]
  · simp [layerUpdate, hparse, hsame.layer, hsame.sequence]

lemma layerUpdate_acknowledge_text (laws : UsdLaws) {v : AcknowledgeEvent} {text : Json}
    (htext : v.event.toJson = .ok text) :
    layerUpdate v.layer text = some (v.sequence, acknowledgeUpdates v) := by
  obtain ⟨text', htext', hparse⟩ := parseEvent_acknowledge laws v
  rw [htext, Except.ok.injEq] at htext'
  rw [← htext'] at hparse
  unfold layerUpdate
  rw [hparse]
  exact if_pos rfl

lemma layerUpdate_history_text (layer : String) {text : Json}
    (htext : (historyEvent : Event).toJson = .ok text) :
    layerUpdate layer text = none ∧ ¬IsReload text := by
  have hparse : parseEvent text = some historyEvent := by
    unfold Event.toJson at htext
    obtain ⟨json, -, htext⟩ := Codec.bind_eq_ok.1 htext
    obtain rfl := Except.ok.inj htext
    simp [parseEvent, Event.ofJson, Json.asObject, Json.memberAt, List.lookup_cons, historyEvent,
      Except.toOption]
  refine ⟨by rw [layerUpdate, hparse]; rfl, ?_⟩
  rintro ⟨name, v, hreload⟩
  rw [hparse] at hreload
  simp [historyEvent] at hreload

lemma lookup_acknowledgeUpdates (v : AcknowledgeEvent) (path : SdfPath) :
    (acknowledgeUpdates v).lookup path = if path ∈ v.paths then some {} else none := by
  have hfold : ∀ (paths : List SdfPath) (updates : HashTable),
      (paths.foldl (fun (updates : HashTable) path => updates.insert path {}) updates).lookup path =
        if path ∈ paths then some {} else updates.lookup path := by
    intro paths
    induction paths with
    | nil => simp
    | cons first paths ih =>
      intro updates
      rw [List.foldl_cons, ih]
      by_cases hfirst : path = first
      · subst hfirst
        simp
      · simp [hfirst]
  simpa [acknowledgeUpdates] using hfold v.paths ∅

/-- The updates of the layer a client accumulated, in the order in which they are queued. -/
def accumulatedUpdates (f : RenderStudioFileFormat) (layer : String) : List (Nat × HashTable) :=
  ((f.mAccumulatedAcknowledges.lookup layer).getD []).map
      (fun v => (v.sequence, acknowledgeUpdates v)) ++
    ((f.mAccumulatedDeltas.lookup layer).getD []).filterMap
      fun v => v.sequence.map (·, v.updates)

lemma onMessage_frame {text : Json} (h : ¬IsReload text) (f : RenderStudioFileFormat) :
    (f.onMessage text).userId = f.userId ∧
      (f.onMessage text).mLayerRegistry = f.mLayerRegistry ∧
      (f.onMessage text).mRequestedReloads = f.mRequestedReloads := by
  unfold RenderStudioFileFormat.onMessage
  cases hparse : parseEvent text with
  | none => exact ⟨rfl, rfl, rfl⟩
  | some e =>
    obtain ⟨name, body⟩ := e
    cases body with
    | delta v =>
      dsimp only
      unfold RenderStudioFileFormat.processDeltaEvent
      split <;> exact ⟨rfl, rfl, rfl⟩
    | acknowledge v => exact ⟨rfl, rfl, rfl⟩
    | history => exact ⟨rfl, rfl, rfl⟩
    | reload v => exact absurd ⟨name, v, hparse⟩ h

/-- A message adds the update it contains. -/
theorem accumulatedUpdates_onMessage {text : Json} (h : ¬IsReload text)
    (f : RenderStudioFileFormat) (layer : String) :
    (accumulatedUpdates (f.onMessage text) layer).Perm
      (accumulatedUpdates f layer ++ (layerUpdate layer text).toList) := by
  unfold RenderStudioFileFormat.onMessage layerUpdate
  cases hparse : parseEvent text with
  | none => simp
  | some e =>
    obtain ⟨name, body⟩ := e
    cases body with
    | delta v =>
      dsimp only
      unfold RenderStudioFileFormat.processDeltaEvent
      cases hsequence : v.sequence with
      | none => simp
      | some sequence =>
        by_cases hlayer : v.layer = layer
        · subst hlayer
          simp [accumulatedUpdates, hsequence]
        · have hne : layer ≠ v.layer := fun h => hlayer h.symm
          simp [accumulatedUpdates, hlayer, hne]
    | acknowledge v =>
      dsimp only
      unfold RenderStudioFileFormat.processAcknowledgeEvent
      by_cases hlayer : v.layer = layer
      · subst hlayer
        simp only [accumulatedUpdates, AList.lookup_insert, Option.getD_some,
          List.map_append, List.map_cons, List.map_nil, if_true, Option.toList_some]
        rw [List.append_assoc, List.append_assoc]
        exact List.Perm.append_left _ List.perm_append_comm
      · have hne : layer ≠ v.layer := fun h => hlayer h.symm
        simp [accumulatedUpdates, hlayer, hne]
    | history => simp
    | reload v => exact absurd ⟨name, v, hparse⟩ h

/-- The data with numbered updates in its queue. -/
def enqueue (d : RenderStudioData) (updates : List (Nat × HashTable)) : RenderStudioData :=
  { d with
    mRemoteDeltasQueue := updates.foldl
      (fun (queue : AList fun _ : Nat => HashTable) update => queue.insert update.1 update.2)
      d.mRemoteDeltasQueue }

lemma accumulate_eq (d : RenderStudioData) (acknowledges : List AcknowledgeEvent)
    (deltas : List DeltaEvent) :
    RenderStudioFileFormat.accumulateDeltas
        (RenderStudioFileFormat.accumulateAcknowledges d acknowledges) deltas =
      enqueue d (acknowledges.map (fun v => (v.sequence, acknowledgeUpdates v)) ++
        deltas.filterMap fun v => v.sequence.map (·, v.updates)) := by
  have hacknowledges : ∀ d : RenderStudioData,
      RenderStudioFileFormat.accumulateAcknowledges d acknowledges =
        enqueue d (acknowledges.map fun v => (v.sequence, acknowledgeUpdates v)) := by
    induction acknowledges with
    | nil => exact fun _ => rfl
    | cons v acknowledges ih => exact fun d => ih (d.accumulateRemoteUpdate _ _)
  have hdeltas : ∀ d : RenderStudioData, RenderStudioFileFormat.accumulateDeltas d deltas =
      enqueue d (deltas.filterMap fun v => v.sequence.map (·, v.updates)) := by
    induction deltas with
    | nil => exact fun _ => rfl
    | cons v deltas ih =>
      intro d
      cases hsequence : v.sequence with
      | none =>
        rw [List.filterMap_cons_none (by rw [hsequence]; rfl), ← ih d]
        simp [RenderStudioFileFormat.accumulateDeltas, hsequence]
      | some sequence =>
        have hrest := ih (d.accumulateRemoteUpdate v.updates sequence)
        rw [List.filterMap_cons_some (by rw [hsequence]; rfl),
          RenderStudioFileFormat.accumulateDeltas, List.foldl_cons, hsequence]
        exact hrest
  rw [hdeltas, hacknowledges]
  simp [enqueue]

/-- Loaded data whose queue holds nothing behind the last applied number. -/
structure ReadyData (d : RenderStudioData) : Prop where
  idle : d.mIsProcessingRemoteUpdates = false
  loaded : d.mIsLoaded = true
  noneQueued : ∀ k, d.mLatestAppliedSequence < k → d.mRemoteDeltasQueue.lookup k = none

/-- The updates have the numbers behind `applied` without a gap and say about each path what
`entry` says. -/
structure Batch (applied : Nat) (entry : Nat → SdfPath → Option SpecData)
    (updates : List (Nat × HashTable)) : Prop where
  range : ∀ update ∈ updates, applied < update.1 ∧ update.1 ≤ applied + updates.length
  complete : ∀ k, applied < k → k ≤ applied + updates.length → k ∈ updates.map Prod.fst
  fits : ∀ update ∈ updates, ∀ path, update.2.lookup path = entry update.1 path

namespace Batch

variable {applied : Nat} {entry : Nat → SdfPath → Option SpecData}
  {updates : List (Nat × HashTable)}

lemma nil (applied : Nat) (entry : Nat → SdfPath → Option SpecData) : Batch applied entry [] where
  range := by simp
  complete k hk hk' := by
    have hlength : k ≤ applied := hk'
    omega
  fits := by simp

lemma perm (h : Batch applied entry updates) {updates' : List (Nat × HashTable)}
    (hperm : updates'.Perm updates) : Batch applied entry updates' where
  range update hupdate := hperm.length_eq ▸ h.range update (hperm.mem_iff.1 hupdate)
  complete k hk hk' := ((hperm.map Prod.fst).mem_iff).2 (h.complete k hk (hperm.length_eq ▸ hk'))
  fits update hupdate := h.fits update (hperm.mem_iff.1 hupdate)

lemma next (h : Batch applied entry updates) {updates' : List (Nat × HashTable)}
    {table : HashTable}
    (hperm : updates'.Perm (updates ++ [(applied + updates.length + 1, table)]))
    (hfits : ∀ path, table.lookup path = entry (applied + updates.length + 1) path) :
    Batch applied entry updates' := by
  have hlength : updates'.length = updates.length + 1 := by simpa using hperm.length_eq
  have hmem : ∀ update, update ∈ updates' ↔
      update ∈ updates ∨ update = (applied + updates.length + 1, table) := by
    intro update
    simp [hperm.mem_iff]
  refine ⟨fun update hupdate => ?_, fun k hk hk' => ?_, fun update hupdate path => ?_⟩
  · rcases (hmem update).1 hupdate with hold | rfl
    · have hrange := h.range update hold
      omega
    · dsimp only
      omega
  · by_cases hlast : k = applied + updates.length + 1
    · exact List.mem_map.2 ⟨(_, table), (hmem _).2 (.inr rfl), hlast.symm⟩
    · obtain ⟨update, hupdate, hk⟩ := List.mem_map.1 (h.complete k hk (by omega))
      exact List.mem_map.2 ⟨update, (hmem _).2 (.inl hupdate), hk⟩
  · rcases (hmem update).1 hupdate with hold | rfl
    · exact h.fits update hold path
    · exact hfits path

lemma lookup_enqueue (h : Batch applied entry updates) (d : RenderStudioData) {k : Nat}
    (hk : applied < k) (hlength : k ≤ applied + updates.length) :
    ∃ table, (enqueue d updates).mRemoteDeltasQueue.lookup k = some table ∧
      ∀ path, table.lookup path = entry k path := by
  rcases AList.lookup_foldl_insert updates d.mRemoteDeltasQueue k with
    ⟨table, hmem, hlookup⟩ | ⟨hnot, -⟩
  · exact ⟨table, hlookup, h.fits _ hmem⟩
  · exact absurd (h.complete k hk hlength) hnot

lemma lookup_enqueue_behind (h : Batch applied entry updates) {d : RenderStudioData} {k : Nat}
    (hnone : d.mRemoteDeltasQueue.lookup k = none) (hlength : applied + updates.length < k) :
    (enqueue d updates).mRemoteDeltasQueue.lookup k = none := by
  rcases AList.lookup_foldl_insert updates d.mRemoteDeltasQueue k with
    ⟨table, hmem, -⟩ | ⟨-, hlookup⟩
  · have hrange := h.range _ hmem
    exact absurd hrange.2 (Nat.not_le.2 hlength)
  · exact hlookup.trans hnone

end Batch

/-- `ProcessLiveUpdates` on the data of a layer applies the batch that arrived. -/
theorem updateData_batch {d : RenderStudioData} (h : ReadyData d)
    {acknowledges : List AcknowledgeEvent} {deltas : List DeltaEvent}
    {entry : Nat → SdfPath → Option SpecData} {updates : List (Nat × HashTable)}
    (hupdates : updates = acknowledges.map (fun v => (v.sequence, acknowledgeUpdates v)) ++
      deltas.filterMap fun v => v.sequence.map (·, v.updates))
    (hbatch : Batch d.mLatestAppliedSequence entry updates) :
    let d' := RenderStudioFileFormat.updateData d acknowledges deltas
    ReadyData d' ∧ d'.mLocalDeltas = ∅ ∧
      d'.mLatestAppliedSequence = d.mLatestAppliedSequence + updates.length ∧
      ∀ path, pathState d' path = (pathState d path).flush.receiveAll path
        ((List.range updates.length).map fun j => entry (d.mLatestAppliedSequence + 1 + j) path) := by
  intro d'
  let queued := enqueue d.fetchLocalDeltas.2 updates
  let tables := (List.range updates.length).map fun j =>
    (queued.mRemoteDeltasQueue.lookup (d.mLatestAppliedSequence + 1 + j)).getD ∅
  have hlatest : queued.mLatestAppliedSequence = d.mLatestAppliedSequence := rfl
  have hprocess : d' = queued.processRemoteUpdates := by
    change RenderStudioFileFormat.updateData d acknowledges deltas = _
    rw [RenderStudioFileFormat.updateData, accumulate_eq, ← hupdates]
  have hqueued : ∀ j < updates.length, ∃ table,
      queued.mRemoteDeltasQueue.lookup (d.mLatestAppliedSequence + 1 + j) = some table ∧
        ∀ path, table.lookup path = entry (d.mLatestAppliedSequence + 1 + j) path :=
    fun j hj => hbatch.lookup_enqueue d.fetchLocalDeltas.2 (by omega) (by omega)
  have hbehind : ∀ k, d.mLatestAppliedSequence + updates.length < k →
      queued.mRemoteDeltasQueue.lookup k = none :=
    fun k hk => hbatch.lookup_enqueue_behind (h.noneQueued k (by omega)) hk
  have hqueue : ∀ k, queued.mRemoteDeltasQueue.lookup (queued.mLatestAppliedSequence + 1 + k) =
      tables[k]? := by
    intro k
    rw [hlatest, List.getElem?_map]
    by_cases hk : k < updates.length
    · obtain ⟨table, htable, -⟩ := hqueued k hk
      rw [List.getElem?_range hk, htable, Option.map_some, htable, Option.getD_some]
    · have hrange : (List.range updates.length)[k]? = none := by simpa using hk
      rw [hrange, Option.map_none]
      exact hbehind _ (by omega)
  have hrun : d' = tables.foldl applyRound queued :=
    hprocess.trans (processRemoteUpdates_pathState tables h.idle fun k _ => hqueue k)
  have hlength : tables.length = updates.length := by simp [tables]
  obtain ⟨hlocal, hloaded, hsequence, hrest⟩ := foldl_applyRound_frame tables queued
  rw [← hrun, hlatest, hlength] at hsequence hrest
  rw [← hrun] at hlocal hloaded
  refine ⟨⟨by rw [hprocess]; rfl, hloaded.trans h.loaded, fun k hk => ?_⟩, hlocal, hsequence,
    fun path => ?_⟩
  · rw [hsequence] at hk
    exact (hrest k hk).trans (hbehind k hk)
  · have hentries : tables.map (·.lookup path) =
        (List.range updates.length).map fun j => entry (d.mLatestAppliedSequence + 1 + j) path := by
      rw [List.map_map]
      refine List.map_congr_left fun j hj => ?_
      obtain ⟨table, htable, hentry⟩ := hqueued j (List.mem_range.1 hj)
      rw [Function.comp_apply, htable, Option.getD_some, hentry path]
    rw [hrun, foldl_applyRound_pathState, hentries]
    rfl

section

variable (f : RenderStudioFileFormat) (files : String → Option HashTable)

lemma deltaMessage_deltaOf {user layer : String} {updates : HashTable} {text : Json}
    (h : text ∈ RenderStudioFileFormat.deltaMessage user layer updates) :
    ∃ v : DeltaEvent, v.layer = layer ∧ v.user = user ∧ v.event.toJson = .ok text := by
  unfold RenderStudioFileFormat.deltaMessage at h
  dsimp only at h
  split_ifs at h
  · exact absurd h List.not_mem_nil
  · refine ⟨⟨layer, user, none, updates⟩, rfl, rfl, ?_⟩
    cases htext : (DeltaEvent.event ⟨layer, user, none, updates⟩).toJson with
    | error fault => simp [htext, Except.toOption] at h
    | ok text' =>
      rw [htext] at h
      rw [List.mem_singleton.1 h]

lemma deltaMessage_layerDelta (laws : UsdLaws) (user layer : String) {updates : HashTable}
    (h : AllValues RoundTrips updates) :
    ∃ sent : Option DeltaEvent,
      (RenderStudioFileFormat.deltaMessage user layer updates).filterMap (layerDelta layer) =
        sent.toList ∧ (sent = none ↔ updates = ∅) ∧
      ∀ v ∈ sent, v.user = user ∧ SameTable v.updates updates := by
  unfold RenderStudioFileFormat.deltaMessage
  dsimp only
  by_cases hempty : updates.entries.isEmpty
  · have hupdates : updates = ∅ := AList.ext (List.isEmpty_iff.1 hempty)
    exact ⟨none, by simp [hempty], by simp [hupdates], by simp⟩
  · have hupdates : updates ≠ ∅ := fun heq => hempty (by rw [heq]; rfl)
    obtain ⟨text, v', htext, hsame, hdelta, -⟩ :=
      layerUpdate_delta_text laws (v := ⟨layer, user, none, updates⟩) h
    refine ⟨some v', ?_, by simp [hupdates], ?_⟩
    · rw [if_neg hempty, htext]
      simp [Except.toOption, hdelta]
    · intro v hv
      obtain rfl := Option.mem_some_iff.1 hv
      exact ⟨hsame.user, hsame.updates⟩

/-- The client after the loop over the requested reloads. -/
def reloaded : LiveOutcome :=
  let o : LiveOutcome := f.mRequestedReloads.foldl (LiveOutcome.reloadLayer files)
    { format := { f with
        mAccumulatedDeltas := ∅
        mRequestedReloads := []
        mAccumulatedAcknowledges := ∅
        mReloadInProgress := true } }
  { o with format := { o.format with mReloadInProgress := false } }

lemma processLiveUpdates_eq : f.processLiveUpdates files =
    (reloaded f files).format.mLayerRegistry.entries.foldl
      (fun o layer => o.updateLayer f.mAccumulatedAcknowledges f.mAccumulatedDeltas layer.1 layer.2)
      (reloaded f files) := rfl

/-- A reload in progress is not announced. -/
structure Reloading (o o' : LiveOutcome) : Prop where
  userId : o'.format.userId = o.format.userId
  deltas : o'.format.mAccumulatedDeltas = o.format.mAccumulatedDeltas
  acknowledges : o'.format.mAccumulatedAcknowledges = o.format.mAccumulatedAcknowledges
  requested : o'.format.mRequestedReloads = o.format.mRequestedReloads
  inProgress : o'.format.mReloadInProgress = true
  sent : o'.sent = o.sent

lemma reloadLayer_reloading {o : LiveOutcome} (h : o.format.mReloadInProgress = true)
    (reloads : List String) :
    Reloading o (reloads.foldl (LiveOutcome.reloadLayer files) o) := by
  have hone : ∀ (o' : LiveOutcome) (layer : String), Reloading o o' →
      Reloading o (o'.reloadLayer files layer) := by
    intro o' layer ho'
    have hprogress := ho'.inProgress
    unfold LiveOutcome.reloadLayer
    split
    · exact ho'
    · split
      · exact ⟨ho'.userId, ho'.deltas, ho'.acknowledges, ho'.requested, hprogress, ho'.sent⟩
      · refine ⟨ho'.userId, ho'.deltas, ho'.acknowledges, ho'.requested, hprogress, ?_⟩
        simp [RenderStudioFileFormat.read, hprogress, ho'.sent]
  have hall : ∀ (reloads : List String) (o' : LiveOutcome), Reloading o o' →
      Reloading o (reloads.foldl (LiveOutcome.reloadLayer files) o') := by
    intro reloads
    induction reloads with
    | nil => exact fun _ ho' => ho'
    | cons layer reloads ih => exact fun o' ho' => ih _ (hone o' layer ho')
  exact hall reloads o ⟨rfl, rfl, rfl, rfl, h, rfl⟩

lemma reloaded_frame : (reloaded f files).format.userId = f.userId ∧
    (reloaded f files).format.mRequestedReloads = [] ∧
    (reloaded f files).format.mAccumulatedDeltas = ∅ ∧
    (reloaded f files).format.mAccumulatedAcknowledges = ∅ ∧ (reloaded f files).sent = [] := by
  have h := reloadLayer_reloading files (o := { format := { f with
    mAccumulatedDeltas := ∅
    mRequestedReloads := []
    mAccumulatedAcknowledges := ∅
    mReloadInProgress := true } }) rfl f.mRequestedReloads
  exact ⟨h.userId, h.requested, h.deltas, h.acknowledges, h.sent⟩

lemma reloadLayer_lookup (o : LiveOutcome) (reloads : List String) (layer : String) :
    (reloads.foldl (LiveOutcome.reloadLayer files) o).format.mLayerRegistry.lookup layer =
      (o.format.mLayerRegistry.lookup layer).map fun d =>
        if layer ∈ reloads then (files layer).elim d loaded else d := by
  induction reloads generalizing o with
  | nil => simp
  | cons first reloads ih =>
    have hfirst : (o.reloadLayer files first).format.mLayerRegistry.lookup layer =
        (o.format.mLayerRegistry.lookup layer).map fun d =>
          if layer = first then (files layer).elim d loaded else d := by
      unfold LiveOutcome.reloadLayer
      by_cases hlayer : layer = first
      · subst hlayer
        cases hlookup : o.format.mLayerRegistry.lookup layer with
        | none => simp [hlookup]
        | some d =>
          cases hfile : files layer with
          | none => simp [hlookup]
          | some file => simp [RenderStudioFileFormat.read, loaded]
      · cases hlookup : o.format.mLayerRegistry.lookup first with
        | none => simp [hlayer]
        | some d =>
          cases hfile : files first with
          | none => simp [hlayer]
          | some file => simp [hlayer, RenderStudioFileFormat.read]
    rw [List.foldl_cons, ih, hfirst, Option.map_map]
    congr 1
    funext d
    by_cases hlayer : layer = first
    · subst hlayer
      cases files layer <;> simp
    · simp [hlayer]

lemma reloaded_lookup (layer : String) :
    (reloaded f files).format.mLayerRegistry.lookup layer = (f.mLayerRegistry.lookup layer).map
      fun d => if layer ∈ f.mRequestedReloads then (files layer).elim d loaded else d :=
  reloadLayer_lookup files _ f.mRequestedReloads layer

lemma reloaded_lookup_none {f : RenderStudioFileFormat} (h : f.mRequestedReloads = [])
    (layer : String) :
    (reloaded f files).format.mLayerRegistry.lookup layer = f.mLayerRegistry.lookup layer := by
  rw [reloaded_lookup, h]
  simp

/-- What `ProcessLiveUpdates` does to one layer after the reloads. -/
theorem processLiveUpdates_layer (layer : String) :
    let o := f.processLiveUpdates files
    let data := (reloaded f files).format.mLayerRegistry.lookup layer
    let acknowledges := (f.mAccumulatedAcknowledges.lookup layer).getD []
    let deltas := (f.mAccumulatedDeltas.lookup layer).getD []
    o.format.mLayerRegistry.lookup layer =
        data.map (fun d => RenderStudioFileFormat.updateData d acknowledges deltas) ∧
      o.sent.filterMap (layerDelta layer) = data.elim [] fun d =>
        (RenderStudioFileFormat.deltaMessage f.userId layer d.mLocalDeltas).filterMap
          (layerDelta layer) := by
  intro o data acknowledges deltas
  let Inv (o : LiveOutcome) : Prop := o.format.userId = f.userId
  let slot (o : LiveOutcome) (layer : String) : Option RenderStudioData × List DeltaEvent :=
    (o.format.mLayerRegistry.lookup layer, o.sent.filterMap (layerDelta layer))
  let act (layer : String) (d : RenderStudioData)
      (s : Option RenderStudioData × List DeltaEvent) :
      Option RenderStudioData × List DeltaEvent :=
    (some (RenderStudioFileFormat.updateData d
        ((f.mAccumulatedAcknowledges.lookup layer).getD [])
        ((f.mAccumulatedDeltas.lookup layer).getD [])),
      s.2 ++ (RenderStudioFileFormat.deltaMessage f.userId layer d.mLocalDeltas).filterMap
        (layerDelta layer))
  have hown : ∀ o layer d, Inv o → slot (o.updateLayer f.mAccumulatedAcknowledges
      f.mAccumulatedDeltas layer d) layer = act layer d (slot o layer) := by
    intro o layer d huser
    have huser' : o.format.userId = f.userId := huser
    simp only [slot, act, LiveOutcome.updateLayer, AList.lookup_insert, List.filterMap_append,
      huser']
    rfl
  have hothers : ∀ o layer d other, Inv o → other ≠ layer → slot (o.updateLayer
      f.mAccumulatedAcknowledges f.mAccumulatedDeltas layer d) other = slot o other := by
    intro o layer d other _ hother
    have hnone : (RenderStudioFileFormat.deltaMessage o.format.userId layer
        d.fetchLocalDeltas.1).filterMap (layerDelta other) = [] := by
      refine List.filterMap_eq_nil_iff.2 fun text htext => ?_
      obtain ⟨v, hlayer, -, hjson⟩ := deltaMessage_deltaOf htext
      exact (layer_of_delta_text hjson fun h => hother (h.symm.trans hlayer)).1
    simp [slot, LiveOutcome.updateLayer, AList.lookup_insert_ne hother, hnone]
  obtain ⟨huser, -, -, -, hnothing⟩ := reloaded_frame f files
  have hrun := AList.foldl_slot slot
    (LiveOutcome.updateLayer f.mAccumulatedAcknowledges f.mAccumulatedDeltas) act Inv
    (fun o layer d h => h) hown hothers (reloaded f files).format.mLayerRegistry (reloaded f files)
    huser layer
  rw [← processLiveUpdates_eq f files] at hrun
  have hregistry := congrArg Prod.fst hrun
  have hsent := congrArg Prod.snd hrun
  change _ = Prod.snd (data.elim _ _) at hsent
  change _ = Prod.fst (data.elim _ _) at hregistry
  cases hlookup : data with
  | none =>
    rw [hlookup] at hregistry hsent
    refine ⟨hregistry.trans hlookup, hsent.trans ?_⟩
    simp [slot, hnothing]
  | some d =>
    rw [hlookup] at hregistry hsent
    refine ⟨hregistry, hsent.trans ?_⟩
    simp [slot, act, hnothing]

/-- What `ProcessLiveUpdates` does to the rest of the client. -/
theorem processLiveUpdates_frame :
    let o := f.processLiveUpdates files
    o.format.userId = f.userId ∧ o.format.mRequestedReloads = [] ∧
      (∀ layer, accumulatedUpdates o.format layer = []) ∧ ∀ text ∈ o.sent, DeltaOf f.userId text := by
  intro o
  let Inv (o : LiveOutcome) : Prop := o.format.userId = f.userId ∧ o.format.mRequestedReloads = [] ∧
    o.format.mAccumulatedDeltas = ∅ ∧ o.format.mAccumulatedAcknowledges = ∅ ∧
    ∀ text ∈ o.sent, DeltaOf f.userId text
  have hstart : Inv (reloaded f files) := by
    obtain ⟨huser, hnone, hdeltas, hacknowledges, hsent⟩ := reloaded_frame f files
    exact ⟨huser, hnone, hdeltas, hacknowledges, by simp [hsent]⟩
  have hkeep : ∀ o layer d, Inv o → Inv (o.updateLayer f.mAccumulatedAcknowledges
      f.mAccumulatedDeltas layer d) := by
    rintro o layer d ⟨huser, hnone, hdeltas, hacknowledges, hsent⟩
    refine ⟨huser, hnone, hdeltas, hacknowledges, fun text htext => ?_⟩
    rcases List.mem_append.1 htext with hold | hnew
    · exact hsent text hold
    · obtain ⟨v, -, hv, hjson⟩ := deltaMessage_deltaOf hnew
      exact ⟨v, hv.trans huser, hjson⟩
  have hrun : Inv o := by
    change Inv (f.processLiveUpdates files)
    rw [processLiveUpdates_eq f files]
    exact AList.foldl_entries_keep _ Inv hkeep (reloaded f files).format.mLayerRegistry _ hstart
  obtain ⟨huser, hnone, hdeltas, hacknowledges, hsent⟩ := hrun
  refine ⟨huser, hnone, fun layer => ?_, hsent⟩
  simp [accumulatedUpdates, hdeltas, hacknowledges]

end

end

end RenderStudioKit.Proofs
