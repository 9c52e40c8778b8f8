import RenderStudioKit.Proofs.SessionLog

/-!
# The start of a session and its quiet states

All members hold the layer, freshly loaded from the same base. A state is quiet when nothing is
left to send, to deliver or to apply.
-/

namespace RenderStudioKit.Proofs

open API PathState

section

variable [Usd]

section

variable {room : Room} {layer : String}

/-- The client holds the layer, freshly loaded, and nothing has arrived for it. -/
structure HoldsLayer (layer user : String) (base : HashTable) (f : RenderStudioFileFormat) :
    Prop where
  userId : f.userId = user
  holds : f.mLayerRegistry.lookup layer = some (loaded base)
  noneAccumulated : accumulatedUpdates f layer = []
  noReloads : f.mRequestedReloads = []

lemma HoldsLayer.layerData {user : String} {base : HashTable} {f : RenderStudioFileFormat}
    (h : HoldsLayer layer user base f) : layerData f layer = loaded base := by
  rw [Proofs.layerData, h.holds, Option.getD_some]

lemma HoldsLayer.linked {user : String} {base : HashTable} {f : RenderStudioFileFormat}
    (h : HoldsLayer layer user base f) {uplink downlink : List Json}
    (houtgoing : ∀ text ∈ uplink, DeltaOf user text)
    (hvalues : ∀ v ∈ uplink.filterMap (layerDelta layer), AllValues RoundTrips v.updates)
    (hincoming : ∀ text ∈ downlink, ¬IsReload text ∧ layerUpdate layer text = none) :
    LinkedClient user layer [] f uplink downlink := by
  have hnone : downlink.filterMap (layerUpdate layer) = [] :=
    List.filterMap_eq_nil_iff.2 fun text htext => (hincoming text htext).2
  refine ⟨h.userId, h.noReloads, by rw [h.holds]; rfl, ?_, houtgoing, hvalues,
    fun text htext => (hincoming text htext).1, ?_, ?_, ?_⟩
  · rw [h.layerData]
    exact ⟨rfl, rfl, fun k _ => rfl⟩
  · rw [h.noneAccumulated]
    exact Batch.nil _ _
  · rw [hnone]
    exact Consecutive.nil _ _
  · rw [h.layerData, h.noneAccumulated, hnone]
    rfl

/-- When all members have joined, no update is on its way. -/
theorem linked_start {base : String → HashTable} {client : String → RenderStudioFileFormat}
    (hclient : ∀ user ∈ room.members, HoldsLayer layer user (base user) (client user)) :
    Linked room layer (Session.start room client) := by
  have h := joined_start room client
  have hhistory : layerHistory room layer (Session.start room client) = [] := h.noDeltas layer
  refine ⟨h.connections, fun user hmember => ?_⟩
  rw [hhistory, h.clients, h.uplink]
  exact (hclient user hmember).linked (by simp) (by simp) fun text htext =>
    ⟨(h.downlink user text htext).1, (h.downlink user text htext).2 layer⟩

lemma sendable_start {base : HashTable} {client : String → RenderStudioFileFormat}
    (hclient : ∀ user ∈ room.members, HoldsLayer layer user base (client user)) :
    Sendable room layer (Session.start room client) := by
  intro user hmember
  rw [(joined_start room client).clients, (hclient user hmember).layerData]
  exact AllValues.empty RoundTrips

lemma deliverable_start (laws : UsdLaws) {base : HashTable}
    {client : String → RenderStudioFileFormat}
    (hclient : ∀ user ∈ room.members, HoldsLayer layer user base (client user))
    {run : List SessionAction}
    (hrun : Runs.AllSteps (Session.perform room) (fun _ => Transmissible layer)
      (.start room client) run) :
    Runs.AllSteps (Session.perform room) (Deliverable room layer) (.start room client) run := by
  let Inv (s : Session) : Prop := Linked room layer s ∧ Sendable room layer s
  have hstart : Inv (.start room client) := ⟨linked_start hclient, sendable_start hclient⟩
  have hkeep : ∀ s action, Inv s → Transmissible layer action →
      Inv (Session.perform room s action) := by
    rintro s action ⟨hlinked, hsendable⟩ hok
    exact ⟨(session_step laws hlinked (hsendable.deliverable hok)).1,
      hsendable.perform laws hlinked hok⟩
  exact Runs.allSteps_of_admitted hkeep (fun s action h hok => h.2.deliverable hok) hstart hrun

lemma view_start {base : HashTable} {client : String → RenderStudioFileFormat}
    (hclient : ∀ user ∈ room.members, HoldsLayer layer user base (client user)) (path : SdfPath) :
    view room layer path (Session.start room client) =
      { history := []
        replica := fun user =>
          if user ∈ room.members then { state := ⟨base.lookup path, none, false⟩ }
          else { state := ⟨none, none, false⟩ } } := by
  have h := joined_start room client
  have hhistory : layerHistory room layer (Session.start room client) = [] := h.noDeltas layer
  unfold view
  rw [hhistory, h.clients, h.uplink, List.map_nil]
  congr 1
  funext user
  by_cases hmember : user ∈ room.members
  · rw [if_pos hmember, if_pos hmember]
    unfold replicaAt
    rw [(hclient user hmember).layerData]
    rfl
  · rw [if_neg hmember, if_neg hmember]

lemma ordinaryLog_start {base : HashTable} {client : String → RenderStudioFileFormat}
    {allowed : TfToken × VtValue → Prop}
    (hclient : ∀ user ∈ room.members, HoldsLayer layer user base (client user)) (path : SdfPath) :
    OrdinaryLog room.members allowed (base.lookup path)
      (view room layer path (Session.start room client)) := by
  rw [view_start hclient path]
  refine OrdinaryLog.fresh rfl ?_ ?_ ?_
  · intro user
    dsimp only
    split_ifs <;> rfl
  · intro user
    dsimp only
    split_ifs <;> rfl
  · intro user hmember
    dsimp only
    rw [if_pos hmember]
    exact ⟨rfl, rfl⟩

/-- No client has local deltas left and nothing is in flight, accumulated or queued. -/
structure Quiet (layer : String) (s : Session) (user : String) : Prop where
  noEdits : (layerData (s.client user) layer).mLocalDeltas = ∅
  noneAccumulated : accumulatedUpdates (s.client user) layer = []
  noneQueued : (layerData (s.client user) layer).mRemoteDeltasQueue = ∅
  uplink : s.uplink user = []
  downlink : s.downlink user = []

instance (layer : String) (s : Session) (user : String) : Decidable (Quiet layer s user) :=
  decidable_of_iff ((layerData (s.client user) layer).mLocalDeltas.entries.isEmpty ∧
      (accumulatedUpdates (s.client user) layer).isEmpty ∧
      (layerData (s.client user) layer).mRemoteDeltasQueue.entries.isEmpty ∧
      (s.uplink user).isEmpty ∧ (s.downlink user).isEmpty) <| by
    simp only [List.isEmpty_iff]
    constructor
    · rintro ⟨hedits, haccumulated, hqueued, huplink, hdownlink⟩
      exact ⟨AList.ext hedits, haccumulated, AList.ext hqueued, huplink, hdownlink⟩
    · rintro ⟨hedits, haccumulated, hqueued, huplink, hdownlink⟩
      exact ⟨by rw [hedits]; rfl, haccumulated, by rw [hqueued]; rfl, huplink, hdownlink⟩

lemma Quiet.settled {s : Session} {user : String} (h : Quiet layer s user)
    (hlinked : Linked room layer s) (hmember : user ∈ room.members) (path : SdfPath) :
    let replica := (view room layer path s).replica user
    replica.applied = (view room layer path s).history.length ∧ replica.outbox = [] ∧
      replica.state.edit = none := by
  have htotal := (hlinked.client user hmember).total
  rw [h.noneAccumulated, h.downlink] at htotal
  dsimp only
  rw [view_replica path hmember]
  exact ⟨by simpa [view, replicaAt] using htotal, by simp [replicaAt, h.uplink],
    by simp [replicaAt, pathState, h.noEdits]⟩

end

end

def twoUsers : Room := ⟨"room", ["A", "B"], by decide⟩

section

attribute [local instance] Usd.sample

def onePrim : HashTable := AList.insert "/a" { specType := .prim } ∅

/-- A connected client that has loaded the layer `L`. -/
def editor (user : String) : RenderStudioFileFormat where
  userId := user
  mWebsocketClient := some 0
  mLayerRegistry := AList.insert "L" (loaded onePrim) ∅

/-- The layer has no file. -/
def noFiles : String → Option HashTable := fun _ => none

lemma string_supported (text : String) : RoundTrips (.string text) := by
  have hplain : Plain (.string text) := .leaf rfl
  exact hplain.relayed.roundTrips sample_laws

lemma editor_holdsLayer (user : String) : HoldsLayer "L" user onePrim (editor user) where
  userId := rfl
  holds := AList.lookup_insert _
  noneAccumulated := rfl
  noReloads := rfl

end

end RenderStudioKit.Proofs
