import RenderStudioKit.Proofs.LayerStamps
import RenderStudioKit.Proofs.SessionStart

/-!
# Reloads and epochs

A client that reloads a layer itself keeps what it has accumulated and what is on its way to it,
and the server may number deltas before it handles the reload. In the runs without such updates
everything in the data of a layer was numbered behind the reload that reset it.
-/

namespace RenderStudioKit.Proofs

open API

section

variable [Usd]

/-- Everything the data has applied or queued is one of the updates. -/
structure TakenFrom (updates : List (Nat × HashTable)) (d : RenderStudioData) : Prop where
  idle : d.mIsProcessingRemoteUpdates = false
  queued : ∀ k table, d.mRemoteDeltasQueue.lookup k = some table → (k, table) ∈ updates
  applied : ∀ k, 0 < k → k ≤ d.mLatestAppliedSequence → k ∈ updates.map Prod.fst

namespace TakenFrom

variable {updates : List (Nat × HashTable)} {d : RenderStudioData}

lemma nothing (hidle : d.mIsProcessingRemoteUpdates = false) (hqueue : d.mRemoteDeltasQueue = ∅)
    (hsequence : d.mLatestAppliedSequence = 0) : TakenFrom updates d := by
  refine ⟨hidle, fun k table hlookup => ?_, fun k hpos hle => ?_⟩
  · rw [hqueue] at hlookup
    exact absurd hlookup (by simp)
  · omega

lemma congr (h : TakenFrom updates d) {d' : RenderStudioData}
    (hidle : d'.mIsProcessingRemoteUpdates = d.mIsProcessingRemoteUpdates)
    (hsequence : d'.mLatestAppliedSequence = d.mLatestAppliedSequence)
    (hqueue : d'.mRemoteDeltasQueue = d.mRemoteDeltasQueue) : TakenFrom updates d' := by
  constructor
  · rw [hidle]
    exact h.idle
  · rw [hqueue]
    exact h.queued
  · rw [hsequence]
    exact h.applied

lemma mono (h : TakenFrom updates d) {updates' : List (Nat × HashTable)} (hsub : updates ⊆ updates') :
    TakenFrom updates' d where
  idle := h.idle
  queued k table hlookup := hsub (h.queued k table hlookup)
  applied k hpos hle := List.map_subset Prod.fst hsub (h.applied k hpos hle)

lemma enqueue (h : TakenFrom updates d) (new : List (Nat × HashTable)) :
    TakenFrom (updates ++ new) (enqueue d new) := by
  refine ⟨h.idle, fun k table hlookup => ?_, fun k hpos hle => ?_⟩
  · rcases AList.lookup_foldl_insert new d.mRemoteDeltasQueue k with
      ⟨table', hmem, hnew⟩ | ⟨-, hold⟩
    · have htable : table' = table := Option.some.inj (hnew.symm.trans hlookup)
      exact List.mem_append_right updates (htable ▸ hmem)
    · exact List.mem_append_left new (h.queued k table (hold.symm.trans hlookup))
  · rw [List.map_append]
    exact List.mem_append_left _ (h.applied k hpos hle)

lemma applyRound (h : TakenFrom updates d) {deltas : HashTable}
    (hnext : d.mRemoteDeltasQueue.lookup (d.mLatestAppliedSequence + 1) = some deltas) :
    TakenFrom updates (applyRound d deltas) := by
  refine ⟨rfl, fun k table hlookup => ?_, fun k hpos hle => ?_⟩
  · rw [applyRound_mRemoteDeltasQueue] at hlookup
    by_cases hk : k = d.mLatestAppliedSequence + 1
    · rw [hk, AList.lookup_erase] at hlookup
      exact absurd hlookup (by simp)
    · rw [AList.lookup_erase_ne hk] at hlookup
      exact h.queued k table hlookup
  · rw [applyRound_mLatestAppliedSequence] at hle
    by_cases hk : k = d.mLatestAppliedSequence + 1
    · rw [hk]
      exact List.mem_map_of_mem (h.queued _ deltas hnext)
    · exact h.applied k hpos (by omega)

lemma processRemoteUpdates (h : TakenFrom updates d) :
    TakenFrom updates d.processRemoteUpdates :=
  (processRemoteUpdates_keep (TakenFrom updates)
    (fun _ _ hbefore hnext => TakenFrom.applyRound hbefore hnext) h.idle h).1

lemma updateData (h : TakenFrom updates d) (acknowledges : List AcknowledgeEvent)
    (deltas : List DeltaEvent) :
    TakenFrom (updates ++ (acknowledges.map (fun v => (v.sequence, acknowledgeUpdates v)) ++
        deltas.filterMap fun v => v.sequence.map (·, v.updates)))
      (RenderStudioFileFormat.updateData d acknowledges deltas) := by
  have hfetched : TakenFrom updates d.fetchLocalDeltas.2 := h.congr rfl rfl rfl
  unfold RenderStudioFileFormat.updateData
  rw [accumulate_eq]
  exact (hfetched.enqueue _).processRemoteUpdates

end TakenFrom

/-- What the stamps say is what the client has. -/
structure Tracks (layer : String) (f : RenderStudioFileFormat) (downlink : List Json)
    (c : ClientStamps) : Prop where
  messages : c.downlink.map Prod.fst = downlink
  accumulated : (c.accumulated.map Prod.fst).Perm (accumulatedUpdates f layer)
  requested : c.requested.length = f.mRequestedReloads.count layer
  taken : TakenFrom (c.taken.map Prod.fst) (layerData f layer)

namespace Tracks

variable {layer : String} {f : RenderStudioFileFormat} {downlink : List Json} {c : ClientStamps}

lemma congr (h : Tracks layer f downlink c) {f' : RenderStudioFileFormat}
    (haccumulated : accumulatedUpdates f' layer = accumulatedUpdates f layer)
    (hrequested : f'.mRequestedReloads = f.mRequestedReloads)
    (htaken : TakenFrom (c.taken.map Prod.fst) (layerData f' layer)) :
    Tracks layer f' downlink c where
  messages := h.messages
  accumulated := by
    rw [haccumulated]
    exact h.accumulated
  requested := by
    rw [hrequested]
    exact h.requested
  taken := htaken

lemma accumulated_eq_nil (h : Tracks layer f downlink c) (hnone : accumulatedUpdates f layer = []) :
    c.accumulated = [] := by
  have hperm := h.accumulated
  rw [hnone] at hperm
  exact List.map_eq_nil_iff.1 hperm.eq_nil

lemma mem_downlink (h : Tracks layer f downlink c) {m : Json × Nat} (hm : m ∈ c.downlink) :
    m.1 ∈ downlink := by
  rw [← h.messages]
  exact List.mem_map_of_mem hm

lemma setField (h : Tracks layer f downlink c) (edited : String) (path : SdfPath)
    (field : TfToken) (value : VtValue) :
    Tracks layer (f.setField edited path field value) downlink c := by
  obtain ⟨-, hrequested, haccumulated⟩ := setField_frame f edited path field value
  apply h.congr (haccumulated layer) hrequested
  by_cases hlayer : edited = layer
  · subst hlayer
    cases hlookup : f.mLayerRegistry.lookup edited with
    | none =>
      have hsame : f.setField edited path field value = f := by
        rw [RenderStudioFileFormat.setField, hlookup]
      rw [hsame]
      exact h.taken
    | some d =>
      obtain ⟨-, hidle, hsequence, hqueue⟩ := set_frame_loaded (layerData f edited) path field value
      rw [layerData_setField (by rw [hlookup]; rfl)]
      exact h.taken.congr hidle hsequence hqueue
  · have hdata : layerData (f.setField edited path field value) layer = layerData f layer := by
      rw [layerData, lookup_setField_ne hlayer]
      rfl
    rw [hdata]
    exact h.taken

lemma read (h : Tracks layer f downlink c) (file : HashTable) :
    Tracks layer (f.read layer file).format downlink { c with taken := [] } := by
  have hdata : layerData (f.read layer file).format layer = loaded file := by
    unfold layerData RenderStudioFileFormat.read
    dsimp only
    rw [AList.lookup_insert]
    rfl
  refine ⟨h.messages, h.accumulated, h.requested, ?_⟩
  rw [hdata]
  exact .nothing rfl rfl rfl

lemma read_other (h : Tracks layer f downlink c) {edited : String} (hne : edited ≠ layer)
    (file : HashTable) : Tracks layer (f.read edited file).format downlink c := by
  have hdata : layerData (f.read edited file).format layer = layerData f layer := by
    unfold layerData RenderStudioFileFormat.read
    dsimp only
    rw [AList.lookup_insert_ne hne.symm]
  apply Tracks.congr h
  · rfl
  · rfl
  · rw [hdata]
    exact h.taken

lemma update (h : Tracks layer f downlink c) (files : String → Option HashTable) :
    Tracks layer (f.processLiveUpdates files).format downlink (c.update layer f files) := by
  obtain ⟨-, hrequested, haccumulated, -⟩ := processLiveUpdates_frame f files
  have hregistry := (processLiveUpdates_layer f files layer).1
  rw [reloaded_lookup] at hregistry
  refine ⟨h.messages, ?_, ?_, ?_⟩
  · rw [haccumulated layer]
    exact .refl _
  · rw [hrequested]
    rfl
  · cases hlookup : f.mLayerRegistry.lookup layer with
    | none =>
      rw [hlookup] at hregistry
      have hdata : layerData (f.processLiveUpdates files).format layer = {} := by
        rw [layerData, hregistry]
        rfl
      rw [hdata]
      exact .nothing rfl rfl rfl
    | some d =>
      let reset := layer ∈ f.mRequestedReloads ∧ (files layer).isSome
      let before := if reset then [] else c.taken
      rw [hlookup] at hregistry
      have htaken : (c.update layer f files).taken = before ++ c.accumulated := by
        simp [ClientStamps.update, hlookup, before, reset]
      have hbefore : TakenFrom (before.map Prod.fst)
          (if layer ∈ f.mRequestedReloads then (files layer).elim d loaded else d) := by
        have hd := h.taken
        rw [layerData, hlookup, Option.getD_some] at hd
        by_cases hmem : layer ∈ f.mRequestedReloads
        · cases hfile : files layer with
          | none => simpa [before, reset, hmem, hfile] using hd
          | some file =>
            rw [if_pos hmem]
            exact .nothing rfl rfl rfl
        · simpa [before, reset, hmem] using hd
      have hafter := hbefore.updateData ((f.mAccumulatedAcknowledges.lookup layer).getD [])
        ((f.mAccumulatedDeltas.lookup layer).getD [])
      rw [layerData, hregistry, htaken, List.map_append]
      exact hafter.mono (List.Perm.append_left _ h.accumulated.symm).subset

lemma processReloadEvent (h : Tracks layer f downlink c) (v : ReloadEvent) {stamp : Nat}
    {rest : List (Json × Nat)} :
    Tracks layer (f.processReloadEvent v) (rest.map Prod.fst)
      (if ((if v.layer = layer then some v else none).bind (·.sequence)).isSome then
        { c with downlink := rest, accumulated := [], requested := c.requested ++ [stamp] }
      else { c with downlink := rest }) := by
  cases hsequence : v.sequence with
  | none =>
    have hsame : f.processReloadEvent v = f := by
      rw [RenderStudioFileFormat.processReloadEvent, hsequence]
    have hnot : ((if v.layer = layer then some v else none).bind (·.sequence)).isSome = false := by
      split_ifs <;> simp [hsequence]
    rw [hsame, hnot, if_neg Bool.false_ne_true]
    exact ⟨rfl, h.accumulated, h.requested, h.taken⟩
  | some sequence =>
    by_cases hlayer : v.layer = layer
    · subst hlayer
      rw [if_pos rfl, Option.bind_some, hsequence, Option.isSome_some, if_pos rfl]
      refine ⟨rfl, ?_, ?_, ?_⟩
      · simp [accumulatedUpdates, RenderStudioFileFormat.processReloadEvent, hsequence]
      · simp [RenderStudioFileFormat.processReloadEvent, hsequence, h.requested]
      · simpa [layerData, RenderStudioFileFormat.processReloadEvent, hsequence] using h.taken
    · have hne : layer ≠ v.layer := fun heq => hlayer heq.symm
      rw [if_neg hlayer, Option.bind_none, Option.isSome_none, if_neg Bool.false_ne_true]
      refine ⟨rfl, ?_, ?_, ?_⟩
      · simpa [accumulatedUpdates, RenderStudioFileFormat.processReloadEvent, hsequence, hne]
          using h.accumulated
      · simpa [RenderStudioFileFormat.processReloadEvent, hsequence, hlayer] using h.requested
      · simpa [layerData, RenderStudioFileFormat.processReloadEvent, hsequence] using h.taken

lemma deliver {text : Json} {rest : List Json} (h : Tracks layer f (text :: rest) c) :
    Tracks layer (f.onMessage text) rest (c.deliver layer) := by
  have hmessages := h.messages
  unfold ClientStamps.deliver
  cases hdownlink : c.downlink with
  | nil =>
    rw [hdownlink] at hmessages
    exact absurd hmessages (by simp)
  | cons m stamped =>
    obtain ⟨text', stamp⟩ := m
    rw [hdownlink, List.map_cons, List.cons.injEq] at hmessages
    obtain ⟨rfl, rfl⟩ := hmessages
    dsimp only
    by_cases hreload : IsReload text'
    · obtain ⟨name, v, hparse⟩ := hreload
      have hmessage : f.onMessage text' = f.processReloadEvent v := by
        rw [RenderStudioFileFormat.onMessage, hparse]
      have hupdate : layerUpdate layer text' = none := by
        rw [layerUpdate, hparse]
      have hlayer : layerReload layer text' = if v.layer = layer then some v else none := by
        rw [layerReload, hparse]
      rw [hmessage, hupdate, hlayer]
      exact h.processReloadEvent v
    · obtain ⟨-, hregistry, hrequested⟩ := onMessage_frame hreload f
      have hperm := accumulatedUpdates_onMessage hreload f layer
      have hdata : layerData (f.onMessage text') layer = layerData f layer := by
        rw [layerData, hregistry]
        rfl
      have hlayer : layerReload layer text' = none := by
        unfold layerReload
        split
        · rename_i name v hparse
          exact absurd ⟨name, v, hparse⟩ hreload
        · rfl
      have hcount : c.requested.length = (f.onMessage text').mRequestedReloads.count layer := by
        rw [hrequested]
        exact h.requested
      have htaken : TakenFrom (c.taken.map Prod.fst) (layerData (f.onMessage text') layer) := by
        rw [hdata]
        exact h.taken
      cases hupdate : layerUpdate layer text' with
      | none =>
        rw [hupdate, Option.toList_none, List.append_nil] at hperm
        rw [hlayer]
        exact ⟨rfl, h.accumulated.trans hperm.symm, hcount, htaken⟩
      | some update =>
        rw [hupdate, Option.toList_some] at hperm
        refine ⟨rfl, ?_, hcount, htaken⟩
        rw [List.map_append]
        exact (h.accumulated.append_right _).trans hperm.symm

lemma send (h : Tracks layer f downlink c) (clock : Nat) (texts : List Json) :
    Tracks layer f (downlink ++ texts) (c.send clock texts) := by
  refine ⟨?_, h.accumulated, h.requested, h.taken⟩
  have hsent : (texts.map (·, clock)).map Prod.fst = texts := by
    rw [List.map_map]
    exact List.map_id texts
  unfold ClientStamps.send
  rw [List.map_append, h.messages, hsent]

lemma floor (h : Tracks layer f downlink c) (stamp : Nat) :
    Tracks layer f downlink { c with floor := stamp } :=
  ⟨h.messages, h.accumulated, h.requested, h.taken⟩

end Tracks

/-- Nothing in the data of the client was numbered before a reload that reset the data: not
before the last one the server handled, and not before one that is on its way to the server. -/
structure Separated (layer : String) (uplink : List Json) (c : ClientStamps) : Prop where
  handled : ∀ u ∈ c.taken, c.floor < u.2
  underWay : (∃ text ∈ uplink, (layerReload layer text).isSome) → c.taken = []

lemma Apart.separated {layer : String} {clock : Nat} {uplink : List Json} {c : ClientStamps}
    (h : Apart layer clock uplink c) : Separated layer uplink c where
  handled u hu := h.above u (List.mem_append_left _ hu)
  underWay hreload := (h.underWay hreload).1

/-- The client tells the server about a reload of the layer. -/
def announcesReload (f : RenderStudioFileFormat) (layer : String) : Bool :=
  !f.mReloadInProgress && f.mWebsocketClient.isSome && (f.mLayerRegistry.lookup layer).isSome

/-- A client announces a reload of the layer only when no update of it is accumulated or on its
way to the client, and the server numbers no delta of the layer while a reload of it is on its way
to the server. -/
def KeepsEpochs (room : Room) (layer : String) (s : Session) : SessionAction → Prop
  | .reload user edited _ => edited = layer → announcesReload (s.client user) layer = true →
      accumulatedUpdates (s.client user) layer = [] ∧
        ∀ text ∈ s.downlink user, layerUpdate layer text = none
  | .serve user => ((s.uplink user).head?.bind (layerDelta layer)).isSome = true →
      ∀ w ∈ room.members, ∀ text ∈ s.uplink w, layerReload layer text = none
  | .set _ _ _ _ _ | .update _ _ | .deliver _ => True

instance (room : Room) (layer : String) (s : Session) (action : SessionAction) :
    Decidable (KeepsEpochs room layer s action) :=
  match action with
  | .reload user edited _ => inferInstanceAs (Decidable (edited = layer →
      announcesReload (s.client user) layer = true → accumulatedUpdates (s.client user) layer = [] ∧
        ∀ text ∈ s.downlink user, layerUpdate layer text = none))
  | .serve user => inferInstanceAs (Decidable
      (((s.uplink user).head?.bind (layerDelta layer)).isSome = true →
        ∀ w ∈ room.members, ∀ text ∈ s.uplink w, layerReload layer text = none))
  | .set _ _ _ _ _ | .update _ _ | .deliver _ => .isTrue trivial

/-- The client has taken nothing of the layer yet. -/
structure StartsFresh (layer : String) (f : RenderStudioFileFormat) : Prop where
  noneAccumulated : accumulatedUpdates f layer = []
  noneRequested : layer ∉ f.mRequestedReloads
  noneTaken : TakenFrom [] (layerData f layer)

/-- The stamps of the members are in order. -/
structure Orderly (room : Room) (layer : String) (x : Stamped) : Prop where
  apart : ∀ user ∈ room.members,
    Apart layer x.stamps.clock (x.session.uplink user) (x.stamps.client user)
  tracks : ∀ user ∈ room.members,
    Tracks layer (x.session.client user) (x.session.downlink user) (x.stamps.client user)

namespace Orderly

variable {room : Room} {layer : String} {s : Session} {g : Stamps} {user : String}

lemma withClient (h : Orderly room layer ⟨s, g⟩) {o : LiveOutcome} {c : ClientStamps}
    (hapart : Apart layer g.clock (s.uplink user ++ o.sent) c)
    (htracks : Tracks layer o.format (s.downlink user) c) :
    Orderly room layer ⟨s.withClient user o, g.withClient user c⟩ := by
  constructor
  · intro w hw
    by_cases hwu : w = user
    · subst hwu
      simpa [Session.withClient, Stamps.withClient] using hapart
    · simpa [Session.withClient, Stamps.withClient, hwu] using h.apart w hw
  · intro w hw
    by_cases hwu : w = user
    · subst hwu
      simpa [Session.withClient, Stamps.withClient] using htracks
    · simpa [Session.withClient, Stamps.withClient, hwu] using h.tracks w hw

lemma withSession (h : Orderly room layer ⟨s, g⟩) {o : LiveOutcome}
    (hapart : Apart layer g.clock (s.uplink user ++ o.sent) (g.client user))
    (htracks : Tracks layer o.format (s.downlink user) (g.client user)) :
    Orderly room layer ⟨s.withClient user o, g⟩ := by
  have hwith := h.withClient hapart htracks
  have hsame : g.withClient user (g.client user) = g := by
    unfold Stamps.withClient
    rw [Function.update_eq_self]
  rwa [hsame] at hwith

lemma set (h : Orderly room layer ⟨s, g⟩) (hmember : user ∈ room.members) (edited : String)
    (path : SdfPath) (field : TfToken) (value : VtValue) :
    Orderly room layer
      ⟨s.withClient user { format := (s.client user).setField edited path field value }, g⟩ := by
  apply h.withSession
  · rw [List.append_nil]
    exact h.apart user hmember
  · exact (h.tracks user hmember).setField edited path field value

lemma update (h : Orderly room layer ⟨s, g⟩) (hmember : user ∈ room.members)
    (files : String → Option HashTable) :
    Orderly room layer ⟨s.withClient user ((s.client user).processLiveUpdates files),
      g.withClient user ((g.client user).update layer (s.client user) files)⟩ := by
  apply h.withClient
  · apply ((h.apart user hmember).update (s.client user) files).congr_uplink
    intro text htext hreload
    rcases List.mem_append.1 htext with hold | hnew
    · exact hold
    · have hdelta := (processLiveUpdates_frame (s.client user) files).2.2.2 text hnew
      rw [layerReload_deltaOf hdelta] at hreload
      exact absurd hreload Bool.false_ne_true
  · exact (h.tracks user hmember).update files

lemma read_sent {f : RenderStudioFileFormat} {edited : String} {file : HashTable} {text : Json}
    (htext : text ∈ (f.read edited file).sent) :
    announcesReload f edited = true ∧ ∀ layer, edited ≠ layer → layerReload layer text = none := by
  unfold RenderStudioFileFormat.read at htext
  dsimp only at htext
  split_ifs at htext with hannounced
  · refine ⟨?_, fun layer hne => ?_⟩
    · unfold announcesReload
      rw [← hannounced]
      cases f.mLayerRegistry.lookup edited <;> rfl
    · cases hjson : (ReloadEvent.event ⟨edited, f.userId, none⟩).toJson with
      | error fault =>
        rw [hjson] at htext
        exact absurd htext List.not_mem_nil
      | ok text' =>
        rw [hjson] at htext
        obtain rfl := List.mem_singleton.1 htext
        rw [layerReload, parseEvent_reload hjson]
        exact if_neg hne
  · exact absurd htext List.not_mem_nil

lemma reload (h : Orderly room layer ⟨s, g⟩) (hmember : user ∈ room.members) {edited : String}
    {file : HashTable} (hok : KeepsEpochs room layer s (.reload user edited file)) :
    Orderly room layer ⟨s.withClient user ((s.client user).read edited file),
      if edited = layer then g.withClient user { g.client user with taken := [] } else g⟩ := by
  have hapart := h.apart user hmember
  have htracks := h.tracks user hmember
  by_cases hlayer : edited = layer
  · subst hlayer
    rw [if_pos rfl]
    apply h.withClient
    · by_cases hannounced : announcesReload (s.client user) edited = true
      · obtain ⟨haccumulated, hdownlink⟩ := hok rfl hannounced
        apply hapart.reset
        · exact htracks.accumulated_eq_nil haccumulated
        · exact fun m hm => hdownlink m.1 (htracks.mem_downlink hm)
      · apply hapart.forget.congr_uplink
        intro text htext _
        rcases List.mem_append.1 htext with hold | hnew
        · exact hold
        · exact absurd (read_sent hnew).1 hannounced
    · exact htracks.read file
  · rw [if_neg hlayer]
    apply h.withSession
    · apply hapart.congr_uplink
      intro text htext hreload
      rcases List.mem_append.1 htext with hold | hnew
      · exact hold
      · rw [(read_sent hnew).2 layer hlayer] at hreload
        exact absurd hreload Bool.false_ne_true
    · exact htracks.read_other hlayer file

lemma deliver (h : Orderly room layer ⟨s, g⟩) (hmember : user ∈ room.members) :
    Orderly room layer
      ⟨s.deliver user, g.withClient user ((g.client user).deliver layer)⟩ := by
  have hapart := h.apart user hmember
  have htracks := h.tracks user hmember
  have hdelivered := hapart.deliver
  have htracked : Tracks layer ((s.deliver user).client user) ((s.deliver user).downlink user)
      ((g.client user).deliver layer) := by
    unfold Session.deliver
    cases hdownlink : s.downlink user with
    | nil =>
      rw [hdownlink] at htracks
      have hnone : (g.client user).downlink = [] := List.map_eq_nil_iff.1 htracks.messages
      have hsame : (g.client user).deliver layer = g.client user := by
        rw [ClientStamps.deliver, hnone]
      rw [hsame]
      dsimp only
      rwa [hdownlink]
    | cons text rest =>
      rw [hdownlink] at htracks
      simpa using htracks.deliver
  have hothers : ∀ w, w ≠ user → (s.deliver user).client w = s.client w ∧
      (s.deliver user).downlink w = s.downlink w := by
    intro w hw
    unfold Session.deliver
    split
    · exact ⟨rfl, rfl⟩
    · simp [hw]
  have huplink : (s.deliver user).uplink = s.uplink := by
    unfold Session.deliver
    split <;> rfl
  constructor
  · intro w hw
    dsimp only
    rw [huplink]
    by_cases hwu : w = user
    · subst hwu
      simpa [Stamps.withClient] using hdelivered
    · simpa [Stamps.withClient, hwu] using h.apart w hw
  · intro w hw
    by_cases hwu : w = user
    · subst hwu
      simpa [Stamps.withClient] using htracked
    · dsimp only
      rw [(hothers w hwu).1, (hothers w hwu).2]
      simpa [Stamps.withClient, hwu] using h.tracks w hw

/-- The server handles a message of a member. -/
lemma serve (h : Orderly room layer ⟨s, g⟩) (hmember : user ∈ room.members)
    (hok : KeepsEpochs room layer s (.serve user)) :
    Orderly room layer ⟨s.serve room user, g.serve room layer s user⟩ := by
  cases huplink : s.uplink user with
  | nil =>
    have hsame : s.serve room user = s := by rw [Session.serve, huplink]
    have hsame' : g.serve room layer s user = g := by rw [Stamps.serve, huplink]
    rwa [hsame, hsame']
  | cons text rest =>
    let sent := (s.server.onMessage (room.connection user) text).sent
    let reload := (layerReload layer text).isSome
    let clock := if (layerDelta layer text).isSome || reload then g.clock + 1 else g.clock
    have hstamps : g.serve room layer s user = { clock := clock, client := fun w =>
        let c := (g.client w).send clock (Session.received sent (room.connection w))
        if reload && w = user then { c with floor := clock } else c } := by
      rw [Stamps.serve, huplink]
    rw [serve_eq huplink, hstamps]
    have hclock : g.clock ≤ clock := by
      change _ ≤ if _ then _ else _
      split_ifs
      · exact Nat.le_succ _
      · exact le_rfl
    have hsent : ∀ w ∈ room.members, Apart layer clock (s.uplink w)
        ((g.client w).send clock (Session.received sent (room.connection w))) := by
      intro w hw
      apply (h.apart w hw).send hclock
      intro reply hreply hupdate
      have hdelta := (received_kinds hreply layer).1 hupdate
      have hnext : clock = g.clock + 1 := by
        change (if _ then _ else _) = _
        rw [hdelta, Bool.true_or, if_pos rfl]
      refine ⟨?_, ?_, fun reply' hreply' => ?_⟩
      · rw [hnext]
        exact Nat.lt_succ_self _
      · apply hok
        · rw [huplink]
          exact hdelta
        · exact hw
      · by_contra hne
        have hreload := (received_kinds hreply' layer).2 (Option.isSome_iff_ne_none.2 hne)
        rw [layerReload_of_delta hdelta] at hreload
        exact absurd hreload Bool.false_ne_true
    constructor
    · intro w hw
      dsimp only
      split_ifs with hown
      · rw [Bool.and_eq_true, decide_eq_true_iff] at hown
        apply (hsent w hw).handled
        refine ⟨text, ?_, hown.1⟩
        rw [hown.2, huplink]
        exact List.mem_cons_self
      · apply (hsent w hw).congr_uplink
        intro text' htext' _
        by_cases hwu : w = user
        · subst hwu
          rw [Function.update_self] at htext'
          rw [huplink]
          exact List.mem_cons_of_mem text htext'
        · rwa [Function.update_of_ne hwu] at htext'
    · intro w hw
      have htracked := (h.tracks w hw).send clock (Session.received sent (room.connection w))
      dsimp only
      split_ifs
      · exact htracked.floor clock
      · exact htracked

end Orderly

lemma orderly_start {room : Room} {layer : String} {client : String → RenderStudioFileFormat}
    (hclient : ∀ user ∈ room.members, StartsFresh layer (client user)) :
    Orderly room layer (.start room client) := by
  have h := joined_start room client
  have hclients : (Session.start room client).client = client := h.clients
  have huplink : (Session.start room client).uplink = fun _ => [] := h.uplink
  constructor
  · intro user _
    unfold Stamped.start
    dsimp only
    rw [huplink]
    exact Apart.fresh fun text htext => (h.downlink user text htext).2 layer
  · intro user hmember
    have hfresh := hclient user hmember
    have hnothing : Tracks layer (client user) [] {} := by
      refine ⟨rfl, ?_, ?_, hfresh.noneTaken⟩
      · rw [hfresh.noneAccumulated]
        exact .refl _
      · exact (List.count_eq_zero.2 hfresh.noneRequested).symm
    unfold Stamped.start
    dsimp only
    rw [hclients]
    exact hnothing.send 0 _

lemma orderly_step {room : Room} {layer : String} {x : Stamped} {action : SessionAction}
    (h : Orderly room layer x) (hok : KeepsEpochs room layer x.session action) :
    Orderly room layer (x.perform room layer action) := by
  obtain ⟨s, g⟩ := x
  unfold Stamped.perform Session.perform Stamps.perform
  by_cases hmember : action.user ∈ room.members
  · rw [if_neg (not_not.2 hmember), if_neg (not_not.2 hmember)]
    cases action with
    | set user edited path field value => exact h.set hmember edited path field value
    | update user files => exact h.update hmember files
    | reload user edited file => exact h.reload hmember hok
    | serve user => exact h.serve hmember hok
    | deliver user => exact h.deliver hmember
  · rw [if_pos hmember, if_pos hmember]
    exact h

/-- Reloads separate epochs in every run in which a client announces a reload only when no update
is on its way to it, and the server numbers no delta while a reload is on its way: what the data
of a client has applied or queued was numbered behind every reload that reset the data. -/
theorem reload_separates_when_settled (room : Room) (layer : String)
    (client : String → RenderStudioFileFormat)
    (hclient : ∀ user ∈ room.members, StartsFresh layer (client user)) (run : List SessionAction)
    (hkeeps : Runs.AllSteps (Stamped.perform room layer)
      (fun x action => KeepsEpochs room layer x.session action) (.start room client) run) :
    Runs.AllStates (Stamped.perform room layer)
      (fun x => ∀ user ∈ room.members,
        Separated layer (x.session.uplink user) (x.stamps.client user) ∧
          Tracks layer (x.session.client user) (x.session.downlink user) (x.stamps.client user))
      (.start room client) run := by
  have horderly := Runs.allStates_of_invariant (fun _ _ h hok => orderly_step h hok)
    (orderly_start hclient) hkeeps
  exact horderly.mono fun x h user hmember =>
    ⟨(h.apart user hmember).separated, h.tracks user hmember⟩

end

section

attribute [local instance] Usd.sample

lemma editor_startsFresh (user : String) : StartsFresh "L" (editor user) where
  noneAccumulated := rfl
  noneRequested := List.not_mem_nil
  noneTaken := .nothing rfl rfl rfl

/-- The first user reloads, the second one follows and edits. -/
theorem reload_separates_when_settled_followed :
    let run : List SessionAction :=
      [.reload "A" "L" onePrim, .serve "A", .deliver "B", .deliver "B",
        .update "B" fun _ => some onePrim, .set "B" "L" "/a" "kind" (.string "y"),
        .update "B" noFiles, .serve "B", .deliver "A", .deliver "A", .update "A" noFiles]
    Runs.AllStates (Stamped.perform twoUsers "L")
      (fun x => ∀ user ∈ twoUsers.members,
        Separated "L" (x.session.uplink user) (x.stamps.client user) ∧
          Tracks "L" (x.session.client user) (x.session.downlink user) (x.stamps.client user))
      (.start twoUsers editor) run := by
  intro run
  apply reload_separates_when_settled
  · exact fun user _ => editor_startsFresh user
  · decide

/-- The first user reloads while an edit of the second one is on its way to it, and takes the edit
into the new data. The server handles the reload behind that edit. -/
theorem edit_survives_reload :
    let run : List SessionAction :=
      [.set "B" "L" "/a" "kind" (.string "y"), .update "B" noFiles, .serve "B",
        .reload "A" "L" onePrim, .deliver "A", .deliver "A", .update "A" noFiles, .serve "A"]
    let x := Runs.final (Stamped.perform twoUsers "L") (.start twoUsers editor) run
    let c := x.stamps.client "A"
    let d := layerData (x.session.client "A") "L"
    (∀ user ∈ twoUsers.members, StartsFresh "L" (editor user)) ∧
      c.taken.map Prod.snd = [1] ∧ c.floor = 2 ∧ ¬Separated "L" (x.session.uplink "A") c ∧
      d.getSequence = 1 ∧ (d.get "/a" "kind").getStdString = "y" := by
  intro run x c d
  have htaken : c.taken.map Prod.snd = [1] := by decide
  have hfloor : c.floor = 2 := by decide
  refine ⟨fun user _ => editor_startsFresh user, htaken, hfloor, fun h => ?_, by decide, by decide⟩
  have hmem : 1 ∈ c.taken.map Prod.snd := by
    rw [htaken]
    exact List.mem_singleton.2 rfl
  obtain ⟨u, hu, hstamp⟩ := List.mem_map.1 hmem
  have hlt := h.handled u hu
  omega

end

end RenderStudioKit.Proofs
