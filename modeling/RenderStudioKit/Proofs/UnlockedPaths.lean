import RenderStudioKit.Proofs.CatchUp

/-!
# Paths that stay unacknowledged

A path with a local edit is unacknowledged until an update with an entry without fields comes back.
While a connection works such an update is on its way or will be; what was on its way over an old
connection is lost, and the delta comes back as an ordinary one.
-/

namespace RenderStudioKit.Proofs

open API PathState

section

variable [Usd]

/-- The table acknowledges the path. -/
def Unlocks (path : SdfPath) (table : HashTable) : Prop :=
  ∃ spec, table.lookup path = some spec ∧ spec.fields = []

namespace Participant

/-- The update has reached the client and has yet to be applied. -/
def Waits (layer : String) (p : Participant) (number : Nat) (table : HashTable) : Prop :=
  (p.data layer).mLatestAppliedSequence < number ∧
    ((number, table) ∈ accumulatedUpdates p.client layer ∨
      (p.data layer).mRemoteDeltasQueue.lookup number = some table)

/-- An update waits that acknowledges the path. -/
def Acknowledged (layer : String) (p : Participant) (path : SdfPath) : Prop :=
  ∃ number table, p.Waits layer number table ∧ Unlocks path table

/-- An update waits that acknowledges the path, and no other one waits under its number. -/
def Unchallenged (layer : String) (p : Participant) (path : SdfPath) : Prop :=
  ∃ number, (∃ table, p.Waits layer number table) ∧
    ∀ table, p.Waits layer number table → Unlocks path table

/-- A delta with the path is on its way to the server. -/
def Sending (layer : String) (p : Participant) (path : SdfPath) : Prop :=
  ∃ id v, p.current = some id ∧ v ∈ (p.uplink id).filterMap (layerDelta layer) ∧ path ∈ v.updates

/-- An update that acknowledges the path is on its way, and no other one has its number. -/
def Promised (layer : String) (p : Participant) (path : SdfPath) : Prop :=
  ∃ number, (p.data layer).mLatestAppliedSequence < number ∧
    (∃ table, p.Holds layer number table) ∧ ∀ table, p.Holds layer number table → Unlocks path table

/-- The last edit of the path waits to be sent, or it was sent over the connection the client holds
and has yet to be acknowledged. -/
def Expected (layer : String) (p : Participant) (path : SdfPath) : Prop :=
  path ∈ (p.data layer).mLocalDeltas ∨ p.Sending layer path ∨ p.Promised layer path

/-- The client connects only when each unacknowledged path has an edit that was not sent yet or an
acknowledge that was received; and where an acknowledge waits and no other one is expected, one waits
whose number no other update has. -/
structure Unlockable (layer : String) (p : Participant) (action : ParticipantAction) : Prop where
  connects : action = .connect → p.current = none → ∀ path ∈ (p.data layer).mUnacknowledgedFields,
    path ∈ (p.data layer).mLocalDeltas ∨ p.Acknowledged layer path
  updates : ∀ files, action = .update files → p.current.isSome →
    ∀ path ∈ (p.data layer).mUnacknowledgedFields, p.Acknowledged layer path →
      p.Expected layer path ∨ p.Unchallenged layer path

end Participant

/-- The values the user sets in the layer survive the codec. -/
def SetsSupported (layer : String) : ParticipantAction → Prop
  | .set edited _ _ value => edited = layer → value.isEmpty = false → RoundTrips value
  | _ => True

/-- A client that has no local deltas and has taken everything, with all it sent over its connection
served, has no unacknowledged path. -/
def Unlocked (layer : String) (w : Watched) : Prop :=
  ∀ id d, w.participant.Working id → w.participant.uplink id = [] → w.participant.downlink = [] →
    accumulatedUpdates w.participant.client layer = [] →
    w.participant.client.mLayerRegistry.lookup layer = some d → d.mLocalDeltas = ∅ →
    d.mUnacknowledgedFields = ∅

/-- While the client holds a connection, whatever is unacknowledged will be acknowledged. -/
structure Drains (account : Account) (layer : String) (w : Watched) : Prop where
  mirrors : Mirrors account layer w
  isLoaded : (w.participant.client.mLayerRegistry.lookup layer).isSome →
    (w.participant.data layer).mIsLoaded = true
  edits : AllValues RoundTrips (w.participant.data layer).mLocalDeltas
  answered : w.participant.current.isSome →
    ∀ path ∈ (w.participant.data layer).mUnacknowledgedFields,
      w.participant.Expected layer path ∨ w.participant.Acknowledged layer path

section

variable {account : Account} {layer : String} {w : Watched} {p q : Participant} {path : SdfPath}

open Participant

lemma Mirrors.held_le (h : Mirrors account layer w) {number : Nat} {table : HashTable}
    (hheld : w.participant.Holds layer number table) :
    number ≤ (w.participant.history account layer).length :=
  (h.holds number table hheld).bound.2

lemma Drains.unlocked (h : Drains account layer w) : Unlocked layer w := by
  intro id d hworking huplink hdownlink haccumulated hregistered hlocals
  have hdata : w.participant.data layer = d := by
    unfold Participant.data layerData
    rw [hregistered, Option.getD_some]
  have hcaught := (h.mirrors.caughtUp id d hworking hdownlink haccumulated hregistered).1
  have hlate : ∀ number table, w.participant.Holds layer number table →
      ¬(w.participant.data layer).mLatestAppliedSequence < number := by
    intro number table hheld hlt
    have hbound := h.mirrors.held_le hheld
    rw [hdata] at hlt
    change d.mLatestAppliedSequence = _ at hcaught
    omega
  apply Finset.eq_empty_of_forall_notMem
  intro path hpath
  rw [← hdata] at hpath
  rcases h.answered (by rw [hworking.1]; rfl) path hpath with
    (hlocal | ⟨id', v, hid', hv, -⟩ | ⟨number, hlt, ⟨table, hheld⟩, -⟩) |
    ⟨number, table, ⟨hlt, hwaits⟩, -⟩
  · rw [hdata, hlocals] at hlocal
    exact absurd hlocal (AList.notMem_empty path)
  · obtain rfl : id = id' := Option.some.inj (hworking.1.symm.trans hid')
    rw [huplink] at hv
    exact absurd hv List.not_mem_nil
  · exact hlate number table hheld hlt
  · exact hlate number table (.inr hwaits) hlt

/-- A step after which the client holds the same updates of the layer. -/
structure Undisturbed (layer : String) (p q : Participant) : Prop where
  latest : (q.data layer).mLatestAppliedSequence = (p.data layer).mLatestAppliedSequence
  holds : ∀ number table, q.Holds layer number table ↔ p.Holds layer number table
  waits : ∀ number table, p.Waits layer number table → q.Waits layer number table
  current : q.current = p.current
  uplink : ∀ id, p.current = some id → q.uplink id = p.uplink id

lemma Undisturbed.acknowledged (h : Undisturbed layer p q) (hpath : p.Acknowledged layer path) :
    q.Acknowledged layer path := by
  obtain ⟨number, table, hwaits, hunlocks⟩ := hpath
  exact ⟨number, table, h.waits number table hwaits, hunlocks⟩

lemma Undisturbed.sending (h : Undisturbed layer p q) (hpath : p.Sending layer path) :
    q.Sending layer path := by
  obtain ⟨id, v, hid, hv, hmem⟩ := hpath
  refine ⟨id, v, h.current.trans hid, ?_, hmem⟩
  rwa [h.uplink id hid]

lemma Undisturbed.promised (h : Undisturbed layer p q) (hpath : p.Promised layer path) :
    q.Promised layer path := by
  obtain ⟨number, hlt, ⟨table, hheld⟩, hall⟩ := hpath
  refine ⟨number, by rwa [h.latest], ⟨table, (h.holds number table).2 hheld⟩, fun table' hheld' => ?_⟩
  exact hall table' ((h.holds number table').1 hheld')

lemma Undisturbed.answered (h : Undisturbed layer p q)
    (hlocals : path ∈ (p.data layer).mLocalDeltas → path ∈ (q.data layer).mLocalDeltas)
    (hpath : p.Expected layer path ∨ p.Acknowledged layer path) :
    q.Expected layer path ∨ q.Acknowledged layer path := by
  rcases hpath with (hlocal | hsending | hpromised) | hacknowledged
  · exact .inl (.inl (hlocals hlocal))
  · exact .inl (.inr (.inl (h.sending hsending)))
  · exact .inl (.inr (.inr (h.promised hpromised)))
  · exact .inr (h.acknowledged hacknowledged)

lemma Drains.ofClient (h : Drains account layer w) {w' : Watched}
    (hmirrors : Mirrors account layer w')
    (hregistered : (w'.participant.client.mLayerRegistry.lookup layer).isSome →
      (w.participant.client.mLayerRegistry.lookup layer).isSome)
    (hdata : w'.participant.data layer = w.participant.data layer)
    (hstep : w'.participant.current.isSome → Undisturbed layer w.participant w'.participant) :
    Drains account layer w' := by
  refine ⟨hmirrors, fun hsome => ?_, ?_, fun hcurrent path hpath => ?_⟩
  · rw [hdata]
    exact h.isLoaded (hregistered hsome)
  · rw [hdata]
    exact h.edits
  · rw [hdata] at hpath
    have hsame := hstep hcurrent
    rw [hsame.current] at hcurrent
    exact hsame.answered (fun hlocal => by rwa [hdata]) (h.answered hcurrent path hpath)

lemma isUnacknowledged_iff (d : RenderStudioData) (path : SdfPath) :
    path ∈ d.mUnacknowledgedFields ↔ (pathState d path).unacknowledged = true :=
  decide_eq_true_iff.symm

lemma mem_localDeltas_iff (d : RenderStudioData) (path : SdfPath) :
    path ∈ d.mLocalDeltas ↔ (pathState d path).edit.isSome :=
  AList.lookup_isSome.symm

lemma set_edit (field : TfToken) (value : VtValue) (s : PathState) :
    (s.edit.isSome → (s.set field value).edit.isSome) ∧
      ((s.set field value).unacknowledged = true →
        s.unacknowledged = true ∨ (s.set field value).edit.isSome) := by
  unfold PathState.set
  split_ifs with hempty
  · exact ⟨fun hsome => hsome, .inl⟩
  · unfold setField
    refine ⟨fun hsome => ?_, fun hlocked => ?_⟩
    · unfold editBase
      rw [Option.isSome_map, Option.isSome_or, hsome, Bool.true_or]
    · rcases Bool.or_eq_true_iff.1 hlocked with hold | hnew
      · exact .inl hold
      · right
        rw [Option.isSome_map]
        exact Option.isSome_of_any hnew

lemma set_locals {d : RenderStudioData} (hidle : d.mIsProcessingRemoteUpdates = false)
    (hloaded : d.mIsLoaded = true) (edited : SdfPath) (field : TfToken) (value : VtValue)
    (path : SdfPath) :
    (path ∈ d.mLocalDeltas → path ∈ (d.set edited field value).mLocalDeltas) ∧
      (path ∈ (d.set edited field value).mUnacknowledgedFields →
        path ∈ d.mUnacknowledgedFields ∨ path ∈ (d.set edited field value).mLocalDeltas) := by
  simp only [isUnacknowledged_iff, mem_localDeltas_iff]
  by_cases hpath : path = edited
  · rw [hpath, set_pathState hidle hloaded]
    exact set_edit field value _
  · rw [set_pathState_ne d field value hpath]
    exact ⟨fun hsome => hsome, .inl⟩

lemma undisturbed_set (account : Account) (layer : String) (p : Participant) (edited : String)
    (path : SdfPath) (field : TfToken) (value : VtValue) :
    Undisturbed layer p (p.perform account (.set edited path field value)) := by
  have hdata := set_sameQueue p.client edited path field value layer
  have haccumulated := (setField_frame p.client edited path field value).2.2 layer
  refine ⟨hdata.latest, holds_congr rfl haccumulated hdata, ?_, rfl, ?_⟩
  · rintro number table ⟨hlt, hwaits⟩
    refine ⟨hdata.latest.trans_lt hlt, ?_⟩
    change (number, table) ∈ accumulatedUpdates (p.client.setField edited path field value) layer ∨
      (layerData (p.client.setField edited path field value) layer).mRemoteDeltasQueue.lookup number =
        some table
    rwa [haccumulated, hdata.queue]
  · intro id hid
    change (p.current.elim p.uplink fun id => Function.update p.uplink id (p.uplink id ++ [])) id = _
    rw [hid, Option.elim_some, Function.update_self, List.append_nil]

namespace Drains

lemma set (h : Drains account layer w) (edited : String) (path : SdfPath) (field : TfToken)
    {value : VtValue} (hvalue : edited = layer → value.isEmpty = false → RoundTrips value) :
    Drains account layer (w.perform account layer (.set edited path field value)) := by
  have hmirrors := h.mirrors.set edited path field value
  have hstep := undisturbed_set account layer w.participant edited path field value
  let f := w.participant.client
  by_cases hregistered : edited = layer ∧ (f.mLayerRegistry.lookup layer).isSome
  · obtain ⟨rfl, hsome⟩ := hregistered
    have hdata : (w.perform account edited (.set edited path field value)).participant.data edited =
        (w.participant.data edited).set path field value := layerData_setField hsome path field value
    have hloaded := h.isLoaded hsome
    refine ⟨hmirrors, fun _ => ?_, ?_, fun hcurrent other hother => ?_⟩
    · rw [hdata]
      exact (set_frame_loaded _ path field value).1.trans hloaded
    · rw [hdata]
      exact set_localDeltas_values h.mirrors.idle hloaded h.edits path field (hvalue rfl)
    · obtain ⟨hkeeps, hnew⟩ := set_locals h.mirrors.idle hloaded path field value other
      rw [← hdata] at hkeeps hnew
      rcases hnew hother with hold | hlocal
      · exact hstep.answered hkeeps (h.answered hcurrent other hold)
      · exact .inl (.inl hlocal)
  · have hlookup : (f.setField edited path field value).mLayerRegistry.lookup layer =
        f.mLayerRegistry.lookup layer := by
      by_cases hlayer : edited = layer
      · have hnone : f.mLayerRegistry.lookup edited = none := by
          rw [← Option.not_isSome_iff_eq_none, hlayer]
          exact fun hsome => hregistered ⟨hlayer, hsome⟩
        simp [RenderStudioFileFormat.setField, hnone]
      · exact lookup_setField_ne hlayer f path field value
    have hdata : layerData (f.setField edited path field value) layer = layerData f layer := by
      rw [layerData, hlookup]
      rfl
    refine h.ofClient hmirrors (fun hsome => ?_) hdata fun _ => hstep
    change ((f.setField edited path field value).mLayerRegistry.lookup layer).isSome at hsome
    rwa [hlookup] at hsome

/-- What is read for the first time has no unacknowledged path. -/
lemma read (h : Drains account layer w) {opened : String} (file : HashTable)
    (hfirst : w.participant.client.mLayerRegistry.lookup opened = none) :
    Drains account layer (w.perform account layer (.read opened file)) := by
  have hmirrors := h.mirrors.read file hfirst
  let f := w.participant.client
  have hsent : (f.read opened file).sent = [] := by
    simp [f, RenderStudioFileFormat.read, hfirst]
  by_cases hlayer : opened = layer
  · have hdata : layerData (f.read opened file).format layer = loaded file := by
      simp [layerData, RenderStudioFileFormat.read, loaded, hlayer]
    have hafter : (w.perform account layer (.read opened file)).participant.data layer =
        loaded file := hdata
    refine ⟨hmirrors, fun _ => ?_, ?_, fun _ path hpath => ?_⟩
    · rw [hafter]
      rfl
    · rw [hafter]
      exact AllValues.empty RoundTrips
    · rw [hafter] at hpath
      exact absurd hpath (Finset.notMem_empty path)
  · have hlookup : (f.read opened file).format.mLayerRegistry.lookup layer =
        f.mLayerRegistry.lookup layer := by
      simp [RenderStudioFileFormat.read, Ne.symm hlayer]
    have hdata : layerData (f.read opened file).format layer = layerData f layer := by
      rw [layerData, hlookup]
      rfl
    refine h.ofClient hmirrors (fun hsome => ?_) hdata fun _ => ⟨congrArg _ hdata, ?_, ?_, rfl, ?_⟩
    · change ((f.read opened file).format.mLayerRegistry.lookup layer).isSome at hsome
      rwa [hlookup] at hsome
    · exact holds_congr rfl rfl (read_sameQueue hfirst file layer)
    · rintro number table ⟨hlt, hwaits⟩
      have hqueue := congrArg RenderStudioData.mRemoteDeltasQueue hdata
      refine ⟨(congrArg _ hdata).trans_lt hlt, ?_⟩
      change (number, table) ∈ accumulatedUpdates f layer ∨
        (layerData (f.read opened file).format layer).mRemoteDeltasQueue.lookup number = some table
      rwa [hqueue]
    · intro id hid
      change (w.participant.current.elim w.participant.uplink fun id =>
        Function.update w.participant.uplink id (w.participant.uplink id ++
          (f.read opened file).sent)) id = _
      rw [hid, hsent, Option.elim_some, Function.update_self, List.append_nil]

lemma cut (h : Drains account layer w) {q : Participant} (client : Option Nat)
    (hq : q = { w.participant with
      client := { w.participant.client with mWebsocketClient := client }
      current := none
      downlink := [] }) :
    Drains account layer { w with participant := q } := by
  have hmirrors := h.mirrors.cut client hq
  subst hq
  exact h.ofClient hmirrors (fun hsome => hsome) rfl fun hcurrent => absurd hcurrent (by simp)

lemma deliver (h : Drains account layer w) :
    Drains account layer (w.perform account layer .deliver) := by
  have hmirrors := h.mirrors.deliver
  cases hdownlink : w.participant.downlink with
  | nil =>
    have hsame : (w.perform account layer .deliver).participant = w.participant := by
      change w.participant.deliver = _
      rw [Participant.deliver, hdownlink]
    refine h.ofClient hmirrors ?_ ?_ fun _ => ?_ <;> rw [hsame]
    · exact fun hsome => hsome
    · exact ⟨rfl, fun _ _ => Iff.rfl, fun _ _ hwaits => hwaits, rfl, fun _ _ => rfl⟩
  | cons message rest =>
    have hreload := h.mirrors.incoming message (hdownlink ▸ List.mem_cons_self)
    have hregistry := (onMessage_frame hreload w.participant.client).2.1
    have hparticipant : (w.perform account layer .deliver).participant =
        { w.participant with
          client := w.participant.client.onMessage message
          downlink := rest } := deliver_eq hdownlink
    have hdata : (w.perform account layer .deliver).participant.data layer =
        w.participant.data layer := by
      rw [hparticipant]
      unfold Participant.data layerData
      rw [hregistry]
    have hperm := accumulatedUpdates_onMessage hreload w.participant.client layer
    refine h.ofClient hmirrors (fun hsome => ?_) hdata
      fun _ => ⟨congrArg _ hdata, holds_deliver hdownlink hreload, ?_, ?_, ?_⟩
    · rw [hparticipant] at hsome
      change (AList.lookup layer (w.participant.client.onMessage message).mLayerRegistry).isSome
        at hsome
      rwa [hregistry] at hsome
    · rintro number table ⟨hlt, hwaits⟩
      unfold Waits
      rw [hdata, hparticipant, hperm.mem_iff, List.mem_append]
      exact ⟨hlt, hwaits.imp .inl fun hqueued => hqueued⟩
    · rw [hparticipant]
    · rw [hparticipant]
      exact fun _ _ => rfl

end Drains

lemma Updated.locked {f : RenderStudioFileFormat} {d : RenderStudioData} {tables : List HashTable}
    (h : Updated f layer d tables) (hpath : path ∈ d.mUnacknowledgedFields) :
    path ∈ (layerData f layer).mUnacknowledgedFields ∧ ∀ table ∈ tables, ¬Unlocks path table := by
  rw [isUnacknowledged_iff, h.states, receiveAll_unacknowledged] at hpath
  refine ⟨(isUnacknowledged_iff _ path).2 hpath.1, ?_⟩
  rintro table htable ⟨spec, hspec, hempty⟩
  exact hpath.2 spec (List.mem_map.2 ⟨table, htable, hspec⟩) hempty

lemma Updated.passed {f : RenderStudioFileFormat} {d : RenderStudioData} {tables : List HashTable}
    (h : Updated f layer d tables) (hpath : path ∈ d.mUnacknowledgedFields) {number : Nat}
    (hlt : (layerData f layer).mLatestAppliedSequence < number)
    (hall : ∀ table, (queueOf f layer).lookup number = some table → Unlocks path table) :
    d.mLatestAppliedSequence < number := by
  by_contra hle
  have hlatest := h.latest
  have hj : number - ((layerData f layer).mLatestAppliedSequence + 1) < tables.length := by omega
  have hlookup := h.applied _ _ (List.getElem?_eq_getElem hj)
  rw [Nat.add_sub_cancel' hlt] at hlookup
  exact (h.locked hpath).2 _ (List.getElem_mem hj) (hall _ hlookup)

namespace Drains

lemma waits_of_queueOf {number : Nat} {table : HashTable}
    (hlt : (p.data layer).mLatestAppliedSequence < number)
    (h : (queueOf p.client layer).lookup number = some table) : p.Waits layer number table := by
  rcases lookup_queueOf h with harrived | ⟨hold, -⟩
  · exact ⟨hlt, .inl harrived⟩
  · exact ⟨hlt, .inr hold⟩

/-- The local deltas of the layer are sent. -/
lemma sending_update (laws : UsdLaws) (h : Drains account layer w)
    (files : String → Option HashTable) {id : Nat} (hid : w.participant.current = some id)
    (hlocal : path ∈ (w.participant.data layer).mLocalDeltas) :
    (w.perform account layer (.update files)).participant.Sending layer path := by
  let f := w.participant.client
  cases hregistered : f.mLayerRegistry.lookup layer with
  | none =>
    have hdata : w.participant.data layer = {} := layerData_unregistered hregistered
    rw [hdata] at hlocal
    exact absurd hlocal (AList.notMem_empty path)
  | some d =>
    have hdata : w.participant.data layer = d := by
      unfold Participant.data layerData
      rw [hregistered, Option.getD_some]
    have hedits := h.edits
    rw [hdata] at hedits hlocal
    obtain ⟨-, hsent⟩ := processLiveUpdates_layer f files layer
    rw [reloaded_lookup_none files h.mirrors.noReloads, hregistered, Option.elim_some] at hsent
    obtain ⟨sent, hmessage, hnone, hsame⟩ := deltaMessage_layerDelta laws f.userId layer hedits
    rw [hmessage] at hsent
    cases sent with
    | none =>
      rw [hnone.1 rfl] at hlocal
      exact absurd hlocal (AList.notMem_empty path)
    | some v =>
      refine ⟨id, v, hid, ?_, ?_⟩
      · change v ∈ List.filterMap (layerDelta layer) ((w.participant.current.elim
          w.participant.uplink fun id => Function.update w.participant.uplink id
            (w.participant.uplink id ++ (f.processLiveUpdates files).sent)) id)
        rw [hid, Option.elim_some, Function.update_self, List.filterMap_append, hsent]
        exact List.mem_append_right _ (List.mem_singleton.2 rfl)
      · rw [← AList.lookup_isSome, (hsame v rfl).2 path, AList.lookup_isSome]
        exact hlocal

/-- Everything that waits is applied or keeps waiting; what was sent and what is on its way is not
touched. -/
lemma update (laws : UsdLaws) (h : Drains account layer w) (files : String → Option HashTable)
    (hread : w.participant.client.mLayerRegistry.lookup layer = none →
      accumulatedUpdates w.participant.client layer = [])
    (hlocked : w.participant.current.isSome →
      ∀ path ∈ (w.participant.data layer).mUnacknowledgedFields,
        w.participant.Expected layer path ∨ w.participant.Unchallenged layer path) :
    Drains account layer (w.perform account layer (.update files)) := by
  let f := w.participant.client
  let o := f.processLiveUpdates files
  let d := layerData o.format layer
  have hupdated : Updated f layer d (tablesUpTo f layer d.mLatestAppliedSequence) :=
    processLiveUpdates_updated files h.mirrors.noReloads h.mirrors.idle hread
  have hnone : accumulatedUpdates o.format layer = [] := (processLiveUpdates_frame f files).2.2.1 layer
  refine ⟨h.mirrors.update files hread, fun hsome => ?_, ?_, fun hcurrent path hpath => ?_⟩
  · change (o.format.mLayerRegistry.lookup layer).isSome at hsome
    rw [registered_iff files h.mirrors.noReloads] at hsome
    exact hupdated.loaded.trans (h.isLoaded hsome)
  · change AllValues RoundTrips d.mLocalDeltas
    rw [hupdated.locals]
    exact AllValues.empty RoundTrips
  · change path ∈ d.mUnacknowledgedFields at hpath
    have hbefore := (hupdated.locked hpath).1
    obtain ⟨id, hid⟩ := Option.isSome_iff_exists.1 hcurrent
    change w.participant.current = some id at hid
    rcases hlocked (by rw [hid]; rfl) path hbefore with
      (hlocal | ⟨id', v, hid', hv, hmem⟩ | ⟨number, hlt, ⟨table, hheld⟩, hall⟩) |
      ⟨number, ⟨table, hwaits⟩, hall⟩
    · exact .inl (.inr (.inl (h.sending_update laws files hid hlocal)))
    · left; right; left
      refine ⟨id', v, hid', ?_, hmem⟩
      change v ∈ List.filterMap (layerDelta layer) ((w.participant.current.elim
        w.participant.uplink fun id => Function.update w.participant.uplink id
          (w.participant.uplink id ++ o.sent)) id')
      rw [hid', Option.elim_some, Function.update_self, List.filterMap_append]
      exact List.mem_append_left _ hv
    · left; right; right
      have hlt' : d.mLatestAppliedSequence < number :=
        hupdated.passed hpath hlt fun t ht => hall t (holds_of_queueOf ht)
      refine ⟨number, hlt', ?_, ?_⟩
      · rcases hheld with hdownlink | hwaits
        · exact ⟨table, .inl hdownlink⟩
        · obtain ⟨t, ht⟩ := queueOf_isSome hwaits
          exact ⟨t, .inr (.inr (hupdated.kept number t hlt' ht))⟩
      · rintro t (hdownlink | haccumulated | hqueued)
        · exact hall t (.inl hdownlink)
        · change (number, t) ∈ accumulatedUpdates o.format layer at haccumulated
          rw [hnone] at haccumulated
          exact absurd haccumulated List.not_mem_nil
        · exact hall t (holds_of_queueOf (hupdated.queued number t hqueued))
    · right
      have hqueue : ∀ t, (queueOf f layer).lookup number = some t → Unlocks path t :=
        fun t ht => hall t (waits_of_queueOf hwaits.1 ht)
      have hlt' := hupdated.passed hpath hwaits.1 hqueue
      obtain ⟨t, ht⟩ := queueOf_isSome hwaits.2
      exact ⟨number, t, ⟨hlt', .inr (hupdated.kept number t hlt' ht)⟩, hqueue t ht⟩

end Drains

lemma body_of_layerDelta {text : Json} {v : DeltaEvent} (h : layerDelta layer text = some v) :
    messageBody text = some (.delta v) ∧ v.layer = layer := by
  unfold layerDelta at h
  split at h
  · next parsed hparse =>
    split_ifs at h with hlayer
    obtain rfl := Option.some.inj h
    exact ⟨by rw [messageBody, hparse]; rfl, hlayer⟩
  · exact absurd h (by simp)

lemma Promised.answered {call : ServerCall} (hpath : p.Promised layer path)
    (hbound : ∀ number table, p.Holds layer number table →
      number ≤ (p.history account layer).length)
    (hfresh : ∀ id, p.current = some id → ∀ number table,
      (number, table) ∈ told (call.perform p.server).sent (account.connection id) layer →
      number = (p.history account layer).length + 1) :
    (p.withServer account (call.perform p.server)).Promised layer path := by
  obtain ⟨number, hlt, ⟨table, hheld⟩, hall⟩ := hpath
  refine ⟨number, hlt, ⟨table, (holds_withServer _ number table).2 (.inl hheld)⟩, fun t ht => ?_⟩
  rcases (holds_withServer _ number t).1 ht with hold | ⟨id, hid, htold⟩
  · exact hall t hold
  · have hle := hbound number table hheld
    have hnumber := hfresh id hid number t htold
    omega

lemma told_author {l : Logic} {call : ServerCall} {c : Connection} {channel : Channel}
    {v : DeltaEvent} {table : HashTable} (h : Accepts l call c layer channel c v table) :
    told (call.perform l).sent c layer = [((historyOf (l.mChannels.lookup c.channel) layer).length + 1,
      acknowledgeUpdates ⟨layer, v.updates.keys, (deltas channel layer).length + 1⟩)] := by
  have hcount : (channel.receivers c).count c = 0 :=
    List.count_eq_zero.2 (not_mem_receivers channel)
  rw [h.news, hcount, if_pos rfl, h.historyOf_eq]
  rfl

namespace Drains

/-- A step of the server that is no entering of the user. -/
lemma answer (laws : UsdLaws) (h : Drains account layer w) {call : ServerCall}
    (hserver : p.server = w.participant.server) (hclient : p.client = w.participant.client)
    (hdownlink : p.downlink = w.participant.downlink) (hcurrent : p.current = w.participant.current)
    (hpeaceful : Peaceful call) (hjoin : ∀ id, call ≠ .connected (account.connection id))
    (hmirrors : Mirrors account layer
      { w with participant := p.withServer account (call.perform p.server) })
    (hsending : ∀ path, w.participant.Sending layer path →
      p.Sending layer path ∨ (p.withServer account (call.perform p.server)).Promised layer path) :
    Drains account layer { w with participant := p.withServer account (call.perform p.server) } := by
  have hdata : p.data layer = w.participant.data layer := by
    unfold Participant.data
    rw [hclient]
  have hheld : ∀ number table, p.Holds layer number table ↔
      w.participant.Holds layer number table := by
    intro number table
    unfold Participant.Holds
    rw [hclient, hdownlink, hdata]
  have hhistory : p.history account layer = w.participant.history account layer := by
    unfold Participant.history
    rw [hserver]
  refine ⟨hmirrors, fun hsome => ?_, ?_, fun hconnected path hpath => ?_⟩
  · change (p.data layer).mIsLoaded = true
    rw [hdata]
    change (p.client.mLayerRegistry.lookup layer).isSome at hsome
    rw [hclient] at hsome
    exact h.isLoaded hsome
  · change AllValues RoundTrips (p.data layer).mLocalDeltas
    rw [hdata]
    exact h.edits
  · change p.current.isSome at hconnected
    change path ∈ (p.data layer).mUnacknowledgedFields at hpath
    rw [hcurrent] at hconnected
    rw [hdata] at hpath
    rcases h.answered hconnected path hpath with
      (hlocal | hsent | ⟨number, hlt, ⟨table, hholds⟩, hall⟩) | ⟨number, table, ⟨hlt, hwaits⟩, hunlocks⟩
    · left; left
      change path ∈ (p.data layer).mLocalDeltas
      rwa [hdata]
    · rcases hsending path hsent with hstill | hpromised
      · exact .inl (.inr (.inl hstill))
      · exact .inl (.inr (.inr hpromised))
    · left; right; right
      apply Promised.answered
      · refine ⟨number, by rwa [hdata], ⟨table, (hheld number table).2 hholds⟩, fun t ht => ?_⟩
        exact hall t ((hheld number t).1 ht)
      · intro n t ht
        rw [hhistory]
        exact h.mirrors.held_le ((hheld n t).1 ht)
      · intro id _ n t htold
        have hhoused : Housed p.server := hserver ▸ h.mirrors.housed
        exact told_fresh laws hhoused hpeaceful (hjoin id) htold
    · right
      refine ⟨number, table, ⟨?_, ?_⟩, hunlocks⟩
      · change (p.data layer).mLatestAppliedSequence < number
        rwa [hdata]
      · change (number, table) ∈ accumulatedUpdates p.client layer ∨
          (p.data layer).mRemoteDeltasQueue.lookup number = some table
        rwa [hclient, hdata]

lemma other (laws : UsdLaws) (h : Drains account layer w) {call : ServerCall}
    (hadmitted : w.participant.Admitted account (.call call))
    (hmirrors : Mirrors account layer (w.perform account layer (.call call))) :
    Drains account layer (w.perform account layer (.call call)) := by
  refine h.answer laws rfl rfl rfl rfl hadmitted.1 ?_ hmirrors fun path hsent => .inl hsent
  rintro id rfl
  exact hadmitted.2 rfl rfl

lemma drop (laws : UsdLaws) (h : Drains account layer w) {id : Nat}
    (hmirrors : Mirrors account layer (w.perform account layer (.drop id))) :
    Drains account layer (w.perform account layer (.drop id)) := by
  change Drains account layer { w with participant := w.participant.drop account id }
  change Mirrors account layer { w with participant := w.participant.drop account id } at hmirrors
  unfold Participant.drop at hmirrors ⊢
  by_cases hopened : id ∈ w.participant.opened
  · rw [if_neg (not_not.2 hopened)] at hmirrors ⊢
    have hpeaceful : Peaceful (.disconnected (account.connection id)) := trivial
    exact h.answer laws (p := { w.participant with
        opened := w.participant.opened.filter (· ≠ id) }) rfl rfl rfl rfl hpeaceful
      (fun other => by simp) hmirrors fun path hsent => .inl hsent
  · rwa [if_pos hopened]

/-- The delta the server takes from the connection of the client is acknowledged under the next
number. -/
lemma promised_serve (laws : UsdLaws) (h : Drains account layer w) {id : Nat}
    (hworking : w.participant.Working id) {text : Json} {rest : List Json}
    (huplink : w.participant.uplink id = text :: rest) {v : DeltaEvent}
    (hdelta : layerDelta layer text = some v) (hpath : path ∈ v.updates)
    (hp : p = { w.participant with uplink := Function.update w.participant.uplink id rest }) :
    (p.withServer account ((ServerCall.message (account.connection id) text).perform
      p.server)).Promised layer path := by
  obtain ⟨hbody, rfl⟩ := body_of_layerDelta hdelta
  have hmember := h.mirrors.member id hworking
  cases hpresent : w.participant.server.mChannels.lookup account.channel with
  | none =>
    rw [hpresent] at hmember
    exact absurd hmember List.not_mem_nil
  | some channel =>
    obtain ⟨written, -, hwritten⟩ := h.mirrors.outgoing id text (huplink ▸ List.mem_cons_self)
    have hchannel : (account.connection id).channel = (account.connection id).channel := rfl
    obtain ⟨table, haccepts⟩ := accepts_delta laws h.mirrors.housed ⟨written, hwritten⟩ hbody hchannel
      hpresent
    have hnews := told_author haccepts
    have hlatest := h.mirrors.latest_le
    let acknowledged := acknowledgeUpdates
      ⟨v.layer, v.updates.keys, (deltas channel v.layer).length + 1⟩
    subst hp
    refine ⟨(w.participant.history account v.layer).length + 1, ?_, ⟨acknowledged, ?_⟩,
      fun t ht => ?_⟩
    · change (w.participant.data v.layer).mLatestAppliedSequence < _
      omega
    · apply (holds_withServer _ _ _).2
      right
      refine ⟨id, hworking.1, ?_⟩
      change _ ∈ told (ServerCall.perform w.participant.server _).sent _ _
      rw [hnews]
      exact List.mem_singleton.2 rfl
    · rcases (holds_withServer _ _ t).1 ht with hold | ⟨id', hid', htold⟩
      · have hbound := (h.mirrors.holds _ t hold).bound.2
        omega
      · obtain rfl : id = id' := Option.some.inj (hworking.1.symm.trans hid')
        change _ ∈ told (ServerCall.perform w.participant.server _).sent _ _ at htold
        rw [hnews, List.mem_singleton] at htold
        obtain ⟨-, rfl⟩ := Prod.mk.inj htold
        have hkeys : path ∈ v.updates.keys := AList.mem_keys.2 hpath
        exact ⟨{}, (lookup_acknowledgeUpdates _ path).trans (if_pos hkeys), rfl⟩

lemma serve (laws : UsdLaws) (h : Drains account layer w) {id : Nat}
    (hmirrors : Mirrors account layer (w.perform account layer (.serve id))) :
    Drains account layer (w.perform account layer (.serve id)) := by
  change Drains account layer { w with participant := w.participant.serve account id }
  change Mirrors account layer { w with participant := w.participant.serve account id } at hmirrors
  rcases serve_cases account w.participant id with hsame | ⟨hopened, text, rest, huplink, hserve⟩
  · rwa [hsame]
  · obtain ⟨written, -, hwritten⟩ := h.mirrors.outgoing id text (huplink ▸ List.mem_cons_self)
    rw [hserve] at hmirrors ⊢
    refine h.answer laws (p := { w.participant with
        uplink := Function.update w.participant.uplink id rest }) rfl rfl rfl rfl ⟨written, hwritten⟩
      (fun other => by simp) hmirrors ?_
    rintro path ⟨current, v, hcurrent, hv, hmem⟩
    by_cases hid : current = id
    · subst hid
      rw [huplink, List.filterMap_cons] at hv
      cases hdelta : layerDelta layer text with
      | none =>
        rw [hdelta] at hv
        refine .inl ⟨current, v, hcurrent, ?_, hmem⟩
        dsimp only
        rwa [Function.update_self]
      | some first =>
        rw [hdelta] at hv
        rcases List.mem_cons.1 hv with rfl | hlater
        · exact .inr (h.promised_serve laws ⟨hcurrent, hopened⟩ huplink hdelta hmem rfl)
        · refine .inl ⟨current, v, hcurrent, ?_, hmem⟩
          dsimp only
          rwa [Function.update_self]
    · refine .inl ⟨current, v, hcurrent, ?_, hmem⟩
      dsimp only
      rwa [Function.update_of_ne hid]

lemma connect (h : Drains account layer w)
    (hmirrors : Mirrors account layer (w.perform account layer .connect))
    (hlocked : w.participant.current = none →
      ∀ path ∈ (w.participant.data layer).mUnacknowledgedFields,
        path ∈ (w.participant.data layer).mLocalDeltas ∨ w.participant.Acknowledged layer path) :
    Drains account layer (w.perform account layer .connect) := by
  change Drains account layer { w with participant := w.participant.connect account }
  change Mirrors account layer { w with participant := w.participant.connect account } at hmirrors
  cases hcurrent : w.participant.current with
  | some id =>
    have hsame : w.participant.connect account = w.participant := by
      rw [Participant.connect, hcurrent]
    rwa [hsame]
  | none =>
    rw [connect_eq hcurrent] at hmirrors ⊢
    refine ⟨hmirrors, h.isLoaded, h.edits, fun _ path hpath => ?_⟩
    rcases hlocked hcurrent path hpath with hlocal | hacknowledged
    · exact .inl (.inl hlocal)
    · exact .inr hacknowledged

theorem perform (laws : UsdLaws) (h : Drains account layer w) {action : ParticipantAction}
    (hadmitted : w.participant.Admitted account action) (hsupported : SetsSupported layer action)
    (hsafe : w.participant.Safe account layer action)
    (hunlockable : w.participant.Unlockable layer action) :
    Drains account layer (w.perform account layer action) := by
  have hmirrors := h.mirrors.perform laws hadmitted hsafe
  cases action with
  | set edited path field value => exact h.set edited path field hsupported
  | update files =>
    refine h.update laws files (hsafe.read files rfl) fun hcurrent path hpath => ?_
    rcases h.answered hcurrent path hpath with hexpected | hacknowledged
    · exact .inl hexpected
    · exact hunlockable.updates files rfl hcurrent path hpath hacknowledged
  | read opened file => exact h.read file hadmitted
  | connect => exact h.connect hmirrors (hunlockable.connects rfl)
  | disconnect => exact h.cut none rfl
  | lose => exact h.cut w.participant.client.mWebsocketClient rfl
  | deliver => exact h.deliver
  | serve id => exact h.serve laws hmirrors
  | drop id => exact h.drop laws hmirrors
  | call call => exact h.other laws hadmitted hmirrors

lemma init (account : Account) (layer : String) : Drains account layer (.init account) := by
  refine ⟨Mirrors.init account layer, fun hsome => ?_, AllValues.empty RoundTrips, fun hcurrent => ?_⟩
  · exact absurd hsome (by simp [Watched.init, Participant.init])
  · exact absurd hcurrent (by simp [Watched.init, Participant.init])

end Drains

end

/-- No path stays unacknowledged as long as the user enters the channel only with edits to send or
acknowledges received for all of them. -/
theorem unlocked_when_acknowledged (laws : UsdLaws) (account : Account) (layer : String)
    (run : List ParticipantAction)
    (hadmitted : Runs.AllSteps (Watched.perform account layer)
      (fun w => w.participant.Admitted account) (.init account) run)
    (hsupported : ∀ action ∈ run, SetsSupported layer action)
    (hsafe : Runs.AllSteps (Watched.perform account layer)
      (fun w => w.participant.Safe account layer) (.init account) run)
    (hunlockable : Runs.AllSteps (Watched.perform account layer)
      (fun w => w.participant.Unlockable layer) (.init account) run) :
    Runs.AllStates (Watched.perform account layer) (Unlocked layer) (.init account) run := by
  have hvalues : Runs.AllSteps (Watched.perform account layer) (fun _ => SetsSupported layer)
      (.init account) run := Runs.allSteps_of_forall (fun _ action hmem => hsupported action hmem) _
  have hkeep : ∀ w action, Drains account layer w → ((w.participant.Admitted account action ∧
      SetsSupported layer action) ∧ w.participant.Safe account layer action) ∧
      w.participant.Unlockable layer action → Drains account layer (w.perform account layer action) :=
    fun w action h hok => h.perform laws hok.1.1.1 hok.1.1.2 hok.1.2 hok.2
  have hdrains := Runs.allStates_of_invariant hkeep (Drains.init account layer)
    (((hadmitted.and hvalues).and hsafe).and hunlockable)
  exact hdrains.mono fun w h => h.unlocked

end

section

attribute [local instance] Usd.sample

open Participant

lemma unlockable_update {p : Participant} (path : SdfPath) (files : String → Option HashTable)
    (hlocked : (p.data "L").mUnacknowledgedFields = {path})
    (hlocal : path ∈ (p.data "L").mLocalDeltas) : p.Unlockable "L" (.update files) := by
  refine ⟨nofun, fun _ _ _ other hother _ => ?_⟩
  rw [hlocked, Finset.mem_singleton] at hother
  rw [hother]
  exact .inl (.inl hlocal)

lemma unlockable_acknowledge {p : Participant} (path : SdfPath)
    (files : String → Option HashTable) (number : Nat) (table : HashTable)
    (hlocked : (p.data "L").mUnacknowledgedFields = {path})
    (hlt : (p.data "L").mLatestAppliedSequence < number)
    (harrived : accumulatedUpdates p.client "L" = [(number, table)])
    (hqueued : (p.data "L").mRemoteDeltasQueue.lookup number = none) (hunlocks : Unlocks path table) :
    p.Unlockable "L" (.update files) := by
  refine ⟨nofun, fun _ _ _ other hother _ => .inr ⟨number, ⟨table, hlt, .inl ?_⟩, fun t ht => ?_⟩⟩
  · rw [harrived]
    exact List.mem_singleton.2 rfl
  · rw [hlocked, Finset.mem_singleton] at hother
    rcases ht.2 with hmem | hlookup
    · rw [harrived, List.mem_singleton] at hmem
      rw [hother, (Prod.mk.inj hmem).2]
      exact hunlocks
    · rw [hqueued] at hlookup
      exact absurd hlookup (by simp)

/-- Alice loses her connection with an edit on its way, and edits the prim again before she comes
back. -/
theorem unlocked_when_acknowledged_edited_again :
    let run : List ParticipantAction :=
      [.call (.connected bob), .read "L" onePrim, .connect, .deliver,
        .set "L" "/a" "kind" (.string "x"), .update noFiles, .lose, .drop 0,
        .set "L" "/a" "kind" (.string "y"), .connect, .deliver, .update noFiles, .serve 1, .deliver,
        .update noFiles]
    let w := Runs.final (Watched.perform aliceInRoom "L") (.init aliceInRoom) run
    Runs.AllStates (Watched.perform aliceInRoom "L") (Unlocked "L") (.init aliceInRoom) run ∧
      (w.participant.data "L").getSequence = 1 ∧
      (w.participant.data "L").mUnacknowledgedFields = ∅ := by
  intro run w
  refine ⟨unlocked_when_acknowledged sample_laws aliceInRoom "L" run ?_ ?_ ?_ ?_, by decide,
    by decide⟩
  · exact ⟨⟨trivial, fun _ => by decide⟩, AList.lookup_empty "L", trivial, trivial, trivial, trivial,
      trivial, trivial, trivial, trivial, trivial, trivial, trivial, trivial, trivial, trivial⟩
  · simp [run, SetsSupported, string_supported]
  · refine ⟨safe_of_calm rfl, safe_of_calm rfl, safe_of_calm rfl, safe_of_calm rfl, safe_of_calm rfl,
      safe_update noFiles (by decide), safe_of_calm rfl, ?_, safe_of_calm rfl, safe_of_calm rfl,
      safe_of_calm rfl, safe_update noFiles (by decide), safe_serve (.inr (by decide)),
      safe_of_calm rfl, safe_update noFiles (by decide), trivial⟩
    have hbob : bob ∈ membersOf (AList.lookup "room" (Runs.final (Watched.perform aliceInRoom "L")
        (.init aliceInRoom) (run.take 7)).participant.server.mChannels) := by decide
    exact safe_drop (.inl (by decide)) hbob (by decide)
  · refine ⟨⟨nofun, nofun⟩, ⟨nofun, nofun⟩, ⟨fun _ _ path hpath => ?_, nofun⟩, ⟨nofun, nofun⟩,
      ⟨nofun, nofun⟩, unlockable_update "/a" noFiles (by decide) (by decide), ⟨nofun, nofun⟩,
      ⟨nofun, nofun⟩, ⟨nofun, nofun⟩, ⟨fun _ _ path hpath => ?_, nofun⟩, ⟨nofun, nofun⟩,
      unlockable_update "/a" noFiles (by decide) (by decide), ⟨nofun, nofun⟩, ⟨nofun, nofun⟩,
      unlockable_acknowledge "/a" noFiles 1 (AList.insert "/a" ({} : SpecData) ∅) (by decide)
        (by decide) (by rfl) (by rfl) ⟨{}, by rfl, rfl⟩, trivial⟩
    · exact absurd hpath (Finset.notMem_empty path)
    · obtain rfl : path = "/a" := Finset.mem_singleton.1 hpath
      left
      decide

/-- The acknowledge is lost with the connection. What comes back is the delta itself, which leaves the
path unacknowledged. -/
theorem path_locked_after_reconnect :
    let run : List ParticipantAction :=
      [.call (.connected bob), .read "L" onePrim, .connect, .deliver,
        .set "L" "/a" "kind" (.string "x"), .update noFiles, .serve 0, .lose, .drop 0, .connect,
        .deliver, .deliver, .update noFiles]
    let start := Watched.init aliceInRoom
    let w := Runs.final (Watched.perform aliceInRoom "L") start run
    Runs.AllSteps (Watched.perform aliceInRoom "L") (fun w => w.participant.Admitted aliceInRoom) start
        run ∧
      (∀ action ∈ run, SetsSupported "L" action) ∧
      Runs.AllSteps (Watched.perform aliceInRoom "L") (fun w => w.participant.Safe aliceInRoom "L")
        start run ∧
      (w.participant.data "L").getSequence = 1 ∧ ¬Unlocked "L" w := by
  intro run start w
  refine ⟨?_, ?_, ?_, by decide, fun h => ?_⟩
  · exact ⟨⟨trivial, fun _ => by decide⟩, AList.lookup_empty "L", trivial, trivial, trivial, trivial,
      trivial, trivial, trivial, trivial, trivial, trivial, trivial, trivial⟩
  · simp [run, SetsSupported, string_supported]
  · refine ⟨safe_of_calm rfl, safe_of_calm rfl, safe_of_calm rfl, safe_of_calm rfl, safe_of_calm rfl,
      safe_update noFiles (by decide), safe_serve (.inr (by decide)), safe_of_calm rfl, ?_,
      safe_of_calm rfl, safe_of_calm rfl, safe_of_calm rfl, safe_update noFiles (by decide), trivial⟩
    have hbob : bob ∈ membersOf (AList.lookup "room" (Runs.final (Watched.perform aliceInRoom "L")
        start (run.take 8)).participant.server.mChannels) := by decide
    exact safe_drop (.inl (by decide)) hbob (by decide)
  · obtain ⟨d, hd⟩ := Option.isSome_iff_exists.1
      (show (w.participant.client.mLayerRegistry.lookup "L").isSome by decide)
    have hdata : w.participant.data "L" = d := by
      unfold Participant.data layerData
      rw [hd, Option.getD_some]
    have hnone : (w.participant.data "L").mLocalDeltas.entries.length = 0 := by decide
    have hlocked : (w.participant.data "L").mUnacknowledgedFields = {"/a"} := by decide
    rw [hdata] at hnone hlocked
    have hworking : w.participant.Working 1 := ⟨by decide, by decide⟩
    have huplink : (w.participant.uplink 1).length = 0 := by decide
    have hdownlink : w.participant.downlink.length = 0 := by decide
    have haccumulated : (accumulatedUpdates w.participant.client "L").length = 0 := by decide
    have hempty := h 1 d hworking (List.length_eq_zero_iff.1 huplink)
      (List.length_eq_zero_iff.1 hdownlink) (List.length_eq_zero_iff.1 haccumulated) hd
      (AList.ext (List.length_eq_zero_iff.1 hnone))
    rw [hlocked] at hempty
    exact absurd hempty (by decide)

end

end RenderStudioKit.Proofs
