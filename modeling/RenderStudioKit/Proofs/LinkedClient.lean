import RenderStudioKit.Model.Session
import RenderStudioKit.Proofs.LayerUpdates
import RenderStudioKit.Proofs.PathLog

/-!
# One client of a session without reloads

The numbered updates a client has not applied are those of the history behind its last applied
number: first the accumulated ones in any order, then the ones in its downlink.
-/

namespace RenderStudioKit.Proofs

open API PathState

section

variable [Usd]

/-- The data a client holds of the layer. -/
def layerData (f : RenderStudioFileFormat) (layer : String) : RenderStudioData :=
  (f.mLayerRegistry.lookup layer).getD {}

/-- What the delta with the number `k` says to a client about a path. -/
def historyEntry (user : String) (history : List DeltaEvent) (k : Nat) (path : SdfPath) :
    Option SpecData :=
  history[k - 1]?.bind fun v =>
    if v.user = user then (v.updates.lookup path).map fun _ => {} else v.updates.lookup path

/-- Updates with consecutive numbers that say what `entry` says. -/
structure Consecutive (first : Nat) (entry : Nat → SdfPath → Option SpecData)
    (updates : List (Nat × HashTable)) : Prop where
  numbers : updates.map Prod.fst = List.range' first updates.length
  fits : ∀ update ∈ updates, ∀ path, update.2.lookup path = entry update.1 path

/-- A client and its links, given the history of the layer. -/
structure LinkedClient (user layer : String) (history : List DeltaEvent)
    (f : RenderStudioFileFormat) (uplink downlink : List Json) : Prop where
  userId : f.userId = user
  noReloads : f.mRequestedReloads = []
  registered : (f.mLayerRegistry.lookup layer).isSome
  ready : ReadyData (layerData f layer)
  outgoing : ∀ text ∈ uplink, DeltaOf user text
  outgoingValues : ∀ v ∈ uplink.filterMap (layerDelta layer), AllValues RoundTrips v.updates
  incoming : ∀ text ∈ downlink, ¬IsReload text
  arrived : Batch (layerData f layer).mLatestAppliedSequence (historyEntry user history)
    (accumulatedUpdates f layer)
  arriving : Consecutive
    ((layerData f layer).mLatestAppliedSequence + (accumulatedUpdates f layer).length + 1)
    (historyEntry user history) (downlink.filterMap (layerUpdate layer))
  total : (layerData f layer).mLatestAppliedSequence + (accumulatedUpdates f layer).length +
    (downlink.filterMap (layerUpdate layer)).length = history.length

lemma historyEntry_append {user : String} {history : List DeltaEvent} (v : DeltaEvent) {k : Nat}
    (hk : 1 ≤ k) (hlength : k ≤ history.length) :
    historyEntry user (history ++ [v]) k = historyEntry user history k := by
  funext path
  unfold historyEntry
  rw [List.getElem?_append_left (by omega)]

lemma historyEntry_last {user : String} {history : List DeltaEvent} (v : DeltaEvent)
    (path : SdfPath) :
    historyEntry user (history ++ [v]) (history.length + 1) path =
      if v.user = user then (v.updates.lookup path).map fun _ => {} else v.updates.lookup path := by
  unfold historyEntry
  simp

lemma Batch.congr {applied : Nat} {entry entry' : Nat → SdfPath → Option SpecData}
    {updates : List (Nat × HashTable)} (h : Batch applied entry updates)
    (heq : ∀ k, applied < k → k ≤ applied + updates.length → entry' k = entry k) :
    Batch applied entry' updates where
  range := h.range
  complete := h.complete
  fits update hupdate path := by
    obtain ⟨hlt, hle⟩ := h.range update hupdate
    rw [heq _ hlt hle]
    exact h.fits update hupdate path

namespace Consecutive

variable {first : Nat} {entry entry' : Nat → SdfPath → Option SpecData}
  {updates : List (Nat × HashTable)}

lemma nil (first : Nat) (entry : Nat → SdfPath → Option SpecData) : Consecutive first entry [] where
  numbers := rfl
  fits := by simp

lemma range (h : Consecutive first entry updates) {update : Nat × HashTable}
    (hupdate : update ∈ updates) : first ≤ update.1 ∧ update.1 < first + updates.length := by
  have hmem : update.1 ∈ List.range' first updates.length :=
    h.numbers ▸ List.mem_map_of_mem hupdate
  simpa using hmem

lemma congr (h : Consecutive first entry updates)
    (heq : ∀ k, first ≤ k → k < first + updates.length → entry' k = entry k) :
    Consecutive first entry' updates where
  numbers := h.numbers
  fits update hupdate path := by
    obtain ⟨hle, hlt⟩ := h.range hupdate
    rw [heq _ hle hlt]
    exact h.fits update hupdate path

lemma concat (h : Consecutive first entry updates) {table : HashTable}
    (hfits : ∀ path, table.lookup path = entry (first + updates.length) path) :
    Consecutive first entry (updates ++ [(first + updates.length, table)]) where
  numbers := by
    rw [List.map_append, h.numbers, List.length_append, List.length_singleton, List.range'_concat]
    simp
  fits update hupdate path := by
    rcases List.mem_append.1 hupdate with hold | hnew
    · exact h.fits update hold path
    · rw [List.mem_singleton.1 hnew]
      exact hfits path

lemma tail {update : Nat × HashTable} (h : Consecutive first entry (update :: updates)) :
    update.1 = first ∧ (∀ path, update.2.lookup path = entry first path) ∧
      Consecutive (first + 1) entry updates := by
  have hnumbers := h.numbers
  rw [List.map_cons, List.length_cons, List.range'_succ, List.cons.injEq] at hnumbers
  have hfits := h.fits update List.mem_cons_self
  rw [hnumbers.1] at hfits
  exact ⟨hnumbers.1, hfits, hnumbers.2, fun u hu => h.fits u (List.mem_cons_of_mem update hu)⟩

end Consecutive

section

variable {user layer : String} {history : List DeltaEvent} {f : RenderStudioFileFormat}
  {uplink downlink : List Json}

lemma ReadyData.set {d : RenderStudioData} (h : ReadyData d) (path : SdfPath) (field : TfToken)
    (value : VtValue) : ReadyData (d.set path field value) := by
  obtain ⟨hloaded, hprocessing, hsequence, hqueue⟩ := set_frame_loaded d path field value
  refine ⟨hprocessing.trans h.idle, hloaded.trans h.loaded, fun k hk => ?_⟩
  rw [hsequence] at hk
  rw [hqueue]
  exact h.noneQueued k hk

lemma set_localDeltas_values {d : RenderStudioData} (hidle : d.mIsProcessingRemoteUpdates = false)
    (hloaded : d.mIsLoaded = true) {P : VtValue → Prop} (hedits : AllValues P d.mLocalDeltas)
    (path : SdfPath) (field : TfToken) {value : VtValue} (hvalue : value.isEmpty = false → P value) :
    AllValues P (d.set path field value).mLocalDeltas := by
  intro edited delta hdelta
  have hstate : (pathState (d.set path field value) edited).edit = some delta := hdelta
  by_cases hpath : edited = path
  · subst hpath
    rw [set_pathState hidle hloaded] at hstate
    cases hempty : value.isEmpty with
    | true =>
      rw [set_edit_of_isEmpty hempty] at hstate
      exact hedits edited delta hstate
    | false =>
      unfold PathState.set at hstate
      rw [hempty, if_neg Bool.false_ne_true] at hstate
      intro f hf
      rcases mem_setField_edit hstate hf with rfl | ⟨pending, hpending, hmem⟩
      · exact hvalue hempty
      · exact hedits edited pending hpending f hmem
  · rw [set_pathState_ne d field value hpath] at hstate
    exact hedits edited delta hstate

lemma layerData_setField (h : (f.mLayerRegistry.lookup layer).isSome) (path : SdfPath)
    (field : TfToken) (value : VtValue) :
    layerData (f.setField layer path field value) layer =
      (layerData f layer).set path field value := by
  obtain ⟨d, hd⟩ := Option.isSome_iff_exists.1 h
  simp [layerData, RenderStudioFileFormat.setField, hd]

lemma lookup_setField_ne {edited : String} (hne : edited ≠ layer) (f : RenderStudioFileFormat)
    (path : SdfPath) (field : TfToken) (value : VtValue) :
    (f.setField edited path field value).mLayerRegistry.lookup layer =
      f.mLayerRegistry.lookup layer := by
  unfold RenderStudioFileFormat.setField
  split
  · rfl
  · exact AList.lookup_insert_ne hne.symm

lemma setField_frame (f : RenderStudioFileFormat) (edited : String) (path : SdfPath)
    (field : TfToken) (value : VtValue) :
    (f.setField edited path field value).userId = f.userId ∧
      (f.setField edited path field value).mRequestedReloads = f.mRequestedReloads ∧
      ∀ layer, accumulatedUpdates (f.setField edited path field value) layer =
        accumulatedUpdates f layer := by
  unfold RenderStudioFileFormat.setField
  split <;> exact ⟨rfl, rfl, fun _ => rfl⟩

namespace LinkedClient

variable (h : LinkedClient user layer history f uplink downlink)

include h

lemma applied_le : (layerData f layer).mLatestAppliedSequence +
    (accumulatedUpdates f layer).length ≤ history.length := by
  have htotal := h.total
  omega

lemma congr {f' : RenderStudioFileFormat} (huser : f'.userId = f.userId)
    (hreloads : f'.mRequestedReloads = f.mRequestedReloads)
    (hregistered : (f'.mLayerRegistry.lookup layer).isSome)
    (haccumulated : accumulatedUpdates f' layer = accumulatedUpdates f layer)
    (hready : ReadyData (layerData f' layer))
    (happlied : (layerData f' layer).mLatestAppliedSequence =
      (layerData f layer).mLatestAppliedSequence) :
    LinkedClient user layer history f' uplink downlink where
  userId := huser.trans h.userId
  noReloads := hreloads.trans h.noReloads
  registered := hregistered
  ready := hready
  outgoing := h.outgoing
  outgoingValues := h.outgoingValues
  incoming := h.incoming
  arrived := by
    rw [happlied, haccumulated]
    exact h.arrived
  arriving := by
    rw [happlied, haccumulated]
    exact h.arriving
  total := by
    rw [happlied, haccumulated]
    exact h.total

lemma setField (edited : String) (path : SdfPath) (field : TfToken) (value : VtValue) :
    LinkedClient user layer history (f.setField edited path field value) uplink downlink := by
  obtain ⟨huser, hreloads, haccumulated⟩ := setField_frame f edited path field value
  by_cases hlayer : edited = layer
  · subst hlayer
    have hdata := layerData_setField h.registered path field value
    have hregistered : ((f.setField edited path field value).mLayerRegistry.lookup edited).isSome := by
      obtain ⟨d, hd⟩ := Option.isSome_iff_exists.1 h.registered
      simp [RenderStudioFileFormat.setField, hd]
    refine h.congr huser hreloads hregistered (haccumulated edited) ?_ ?_
    · rw [hdata]
      exact h.ready.set path field value
    · rw [hdata]
      exact (set_frame_loaded _ path field value).2.2.1
  · have hlookup := lookup_setField_ne hlayer f path field value
    have hdata : layerData (f.setField edited path field value) layer = layerData f layer := by
      rw [layerData, hlookup]
      rfl
    refine h.congr huser hreloads ?_ (haccumulated layer) ?_ ?_
    · rw [hlookup]
      exact h.registered
    · rw [hdata]
      exact h.ready
    · rw [hdata]

/-- The next message of the server arrives. -/
lemma onMessage {text : Json} {rest : List Json} (hdownlink : downlink = text :: rest) :
    LinkedClient user layer history (f.onMessage text) uplink rest := by
  have hreload := h.incoming text (hdownlink ▸ List.mem_cons_self)
  obtain ⟨huser, hregistry, hreloads⟩ := onMessage_frame hreload f
  have hdata : layerData (f.onMessage text) layer = layerData f layer := by
    rw [layerData, hregistry]
    rfl
  have hregistered : ((f.onMessage text).mLayerRegistry.lookup layer).isSome := by
    rw [hregistry]
    exact h.registered
  have hready := h.ready
  rw [← hdata] at hready
  have hperm := accumulatedUpdates_onMessage hreload f layer
  have hlength := hperm.length_eq
  have harriving := h.arriving
  have htotal := h.total
  have hincoming : ∀ text ∈ rest, ¬IsReload text := fun t ht =>
    h.incoming t (hdownlink ▸ List.mem_cons_of_mem text ht)
  rw [hdownlink] at harriving htotal
  cases hupdate : layerUpdate layer text with
  | none =>
    rw [hupdate, Option.toList_none, List.append_nil] at hperm hlength
    rw [List.filterMap_cons_none hupdate] at harriving htotal
    rw [← hdata, ← hlength] at harriving htotal
    refine ⟨huser.trans h.userId, hreloads.trans h.noReloads, hregistered, hready, h.outgoing,
      h.outgoingValues, hincoming, ?_, harriving, htotal⟩
    rw [hdata]
    exact h.arrived.perm hperm
  | some update =>
    obtain ⟨number, table⟩ := update
    rw [hupdate, Option.toList_some] at hperm hlength
    rw [List.length_append, List.length_singleton] at hlength
    rw [List.filterMap_cons_some hupdate] at harriving htotal
    obtain ⟨rfl, hfits, hrest⟩ := harriving.tail
    refine ⟨huser.trans h.userId, hreloads.trans h.noReloads, hregistered, hready, h.outgoing,
      h.outgoingValues, hincoming, ?_, ?_, ?_⟩
    · rw [hdata]
      exact h.arrived.next hperm hfits
    · rw [hdata, hlength]
      exact hrest
    · rw [List.length_cons] at htotal
      rw [hdata, hlength]
      omega

/-- `ProcessLiveUpdates` sends the local deltas and applies what has arrived. -/
theorem processLiveUpdates (laws : UsdLaws)
    (hedits : AllValues RoundTrips (layerData f layer).mLocalDeltas)
    (files : String → Option HashTable) :
    let o := f.processLiveUpdates files
    let n := (accumulatedUpdates f layer).length
    let applied := (layerData f layer).mLatestAppliedSequence
    LinkedClient user layer history o.format (uplink ++ o.sent) downlink ∧
      (layerData o.format layer).mLatestAppliedSequence = applied + n ∧
      (∀ path, pathState (layerData o.format layer) path =
        (pathState (layerData f layer) path).flush.receiveAll path
          ((List.range n).map fun j => historyEntry user history (applied + 1 + j) path)) ∧
      ∃ sent : Option DeltaEvent, o.sent.filterMap (layerDelta layer) = sent.toList ∧
        (sent = none ↔ (layerData f layer).mLocalDeltas = ∅) ∧
        ∀ v ∈ sent, SameTable v.updates (layerData f layer).mLocalDeltas := by
  intro o n applied
  obtain ⟨d, hd⟩ := Option.isSome_iff_exists.1 h.registered
  have hdata : layerData f layer = d := by rw [layerData, hd, Option.getD_some]
  have hbatch := h.arrived
  have hready := h.ready
  obtain ⟨hregistry, hsent⟩ := processLiveUpdates_layer f files layer
  obtain ⟨huser, hreloads, hnone, htexts⟩ := processLiveUpdates_frame f files
  rw [reloaded_lookup_none files h.noReloads, hd] at hregistry hsent
  rw [Option.map_some] at hregistry
  rw [Option.elim_some, h.userId, ← hdata] at hsent
  rw [hdata] at hbatch hready
  obtain ⟨hready', -, hsequence, hstate⟩ := updateData_batch hready rfl hbatch
  have hdata' : layerData o.format layer = RenderStudioFileFormat.updateData d
      ((f.mAccumulatedAcknowledges.lookup layer).getD [])
      ((f.mAccumulatedDeltas.lookup layer).getD []) := by
    rw [layerData, hregistry, Option.getD_some]
  rw [← hdata', ← hdata] at hsequence hstate
  rw [← hdata'] at hready'
  obtain ⟨sent, hmessage, hempty, hsame⟩ := deltaMessage_layerDelta laws user layer hedits
  rw [hmessage] at hsent
  have happlied : (layerData o.format layer).mLatestAppliedSequence = applied + n := hsequence
  have htotal := h.total
  refine ⟨?_, hsequence, hstate, sent, hsent, hempty, fun v hv => (hsame v hv).2⟩
  refine ⟨huser.trans h.userId, hreloads, by rw [hregistry]; rfl, hready', ?_, ?_, h.incoming,
    ?_, ?_, ?_⟩
  · intro text htext
    rcases List.mem_append.1 htext with hold | hnew
    · exact h.outgoing text hold
    · obtain ⟨v, hv, hjson⟩ := htexts text hnew
      exact ⟨v, hv.trans h.userId, hjson⟩
  · intro v hv
    rw [List.filterMap_append, List.mem_append, hsent] at hv
    rcases hv with hold | hnew
    · exact h.outgoingValues v hold
    · have hupdates := (hsame v (Option.mem_toList.1 hnew)).2
      intro path spec hspec
      exact hedits path spec ((hupdates path).symm.trans hspec)
  · rw [hnone layer]
    exact Batch.nil _ _
  · rw [hnone layer, happlied]
    exact h.arriving
  · rw [hnone layer, happlied]
    exact htotal

lemma append {v : DeltaEvent} {text : Json} {table : HashTable} (hreload : ¬IsReload text)
    (hupdate : layerUpdate layer text = some (history.length + 1, table))
    (htable : ∀ path, table.lookup path =
      if v.user = user then (v.updates.lookup path).map fun _ => {} else v.updates.lookup path) :
    LinkedClient user layer (history ++ [v]) f uplink (downlink ++ [text]) := by
  have htotal := h.total
  have hentry : ∀ k, 1 ≤ k → k ≤ history.length →
      historyEntry user (history ++ [v]) k = historyEntry user history k :=
    fun k hk hlength => historyEntry_append v hk hlength
  have hnumber : history.length + 1 = (layerData f layer).mLatestAppliedSequence +
      (accumulatedUpdates f layer).length + 1 +
        (downlink.filterMap (layerUpdate layer)).length := by omega
  refine ⟨h.userId, h.noReloads, h.registered, h.ready, h.outgoing, h.outgoingValues, ?_,
    h.arrived.congr fun k hk hk' => hentry k (by omega) (by omega), ?_, ?_⟩
  · intro t ht
    rcases List.mem_append.1 ht with hold | hnew
    · exact h.incoming t hold
    · rwa [List.mem_singleton.1 hnew]
  · rw [List.filterMap_append, List.filterMap_cons_some hupdate, List.filterMap_nil, hnumber]
    refine (h.arriving.congr fun k hk hk' => hentry k (by omega) (by omega)).concat fun path => ?_
    rw [htable path, ← hnumber, historyEntry_last]
  · rw [List.filterMap_append, List.filterMap_cons_some hupdate, List.length_append,
      List.length_append]
    simp
    omega

lemma append_other {texts : List Json}
    (hother : ∀ text ∈ texts, ¬IsReload text ∧ layerUpdate layer text = none) :
    LinkedClient user layer history f uplink (downlink ++ texts) := by
  have hnone : (downlink ++ texts).filterMap (layerUpdate layer) =
      downlink.filterMap (layerUpdate layer) := by
    rw [List.filterMap_append, List.filterMap_eq_nil_iff.2 fun text htext => (hother text htext).2,
      List.append_nil]
  refine ⟨h.userId, h.noReloads, h.registered, h.ready, h.outgoing, h.outgoingValues, ?_,
    h.arrived, by rw [hnone]; exact h.arriving, by rw [hnone]; exact h.total⟩
  intro text htext
  rcases List.mem_append.1 htext with hold | hnew
  · exact h.incoming text hold
  · exact (hother text hnew).1

lemma served {text : Json} {rest : List Json} (huplink : uplink = text :: rest) :
    LinkedClient user layer history f rest downlink := by
  refine ⟨h.userId, h.noReloads, h.registered, h.ready, fun t ht => ?_, fun v hv => ?_,
    h.incoming, h.arrived, h.arriving, h.total⟩
  · exact h.outgoing t (huplink ▸ List.mem_cons_of_mem text ht)
  · refine h.outgoingValues v ?_
    rw [huplink]
    cases hdelta : layerDelta layer text with
    | none => rwa [List.filterMap_cons_none hdelta]
    | some first =>
      rw [List.filterMap_cons_some hdelta]
      exact List.mem_cons_of_mem first hv

end LinkedClient

end

end

end RenderStudioKit.Proofs
