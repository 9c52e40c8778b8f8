import RenderStudioKit.Proofs.LinkedClient
import RenderStudioKit.Proofs.SessionSteps

/-!
# A live session as the logs of its paths

Seen at one path of one layer, every step of a session without reloads is a few steps of the log
of that path.
-/

namespace RenderStudioKit.Proofs

open API PathState

section

variable [Usd]

/-- The deltas of the layer that the server has numbered. -/
def layerHistory (room : Room) (layer : String) (s : Session) : List DeltaEvent :=
  deltas (roomChannel room s.server) layer

def replicaAt (layer : String) (path : SdfPath) (f : RenderStudioFileFormat)
    (uplink : List Json) : Replica PathState (Option SpecData) where
  state := pathState (layerData f layer) path
  applied := (layerData f layer).mLatestAppliedSequence
  outbox := (uplink.filterMap (layerDelta layer)).map (·.updates.lookup path)

/-- The session at one path of the layer. -/
def view (room : Room) (layer : String) (path : SdfPath) (s : Session) : PathLog where
  history := (layerHistory room layer s).map fun v => (v.user, v.updates.lookup path)
  replica user :=
    if user ∈ room.members then replicaAt layer path (s.client user) (s.uplink user)
    else { state := ⟨none, none, false⟩ }

/-- The steps of the log that an action of the session consists of. -/
def logActions (room : Room) (layer : String) (path : SdfPath) (s : Session)
    (action : SessionAction) : List LogAction :=
  if action.user ∉ room.members then []
  else match action with
    | .set user edited editedPath field value =>
      if edited = layer ∧ editedPath = path then [.set user field value] else []
    | .update user _ =>
      .flush user (!(layerData (s.client user) layer).mLocalDeltas.entries.isEmpty) ::
        List.replicate (accumulatedUpdates (s.client user) layer).length (.receive user)
    | .serve user =>
      if ((s.uplink user).head?.bind (layerDelta layer)).isSome then [.serve user] else []
    | .reload _ _ _ | .deliver _ => []

/-- The state of a session without reloads. -/
structure Linked (room : Room) (layer : String) (s : Session) : Prop where
  connections : (roomChannel room s.server).mConnections = room.members.map room.connection
  client : ∀ user ∈ room.members, LinkedClient user layer (layerHistory room layer s)
    (s.client user) (s.uplink user) (s.downlink user)

/-- No reload, and what is set in the layer can be transmitted. -/
def Transmissible (layer : String) : SessionAction → Prop
  | .set _ edited _ _ value => edited = layer → value.isEmpty = false → RoundTrips value
  | .reload _ _ _ => False
  | _ => True

/-- No reload, and what a flush sends of the layer can be transmitted. -/
def Deliverable (room : Room) (layer : String) (s : Session) : SessionAction → Prop
  | .update user _ => user ∈ room.members →
    AllValues RoundTrips (layerData (s.client user) layer).mLocalDeltas
  | .reload _ _ _ => False
  | _ => True

/-- What the members have edited since their last flush can be transmitted. -/
def Sendable (room : Room) (layer : String) (s : Session) : Prop :=
  ∀ user ∈ room.members, AllValues RoundTrips (layerData (s.client user) layer).mLocalDeltas

/-- Seen at one path, `ProcessLiveUpdates` is a flush and the reception of what has arrived. -/
theorem LinkedClient.final_update (laws : UsdLaws) {user layer : String}
    {history : List DeltaEvent} {f : RenderStudioFileFormat} {uplink downlink : List Json}
    (h : LinkedClient user layer history f uplink downlink)
    (hedits : AllValues RoundTrips (layerData f layer).mLocalDeltas)
    (files : String → Option HashTable) {path : SdfPath} {log : PathLog}
    (hhistory : log.history = history.map fun v => (v.user, v.updates.lookup path))
    (hreplica : log.replica user = replicaAt layer path f uplink) :
    Runs.final (LogAction.perform path) log
        (.flush user (!(layerData f layer).mLocalDeltas.entries.isEmpty) ::
          List.replicate (accumulatedUpdates f layer).length (.receive user)) =
      { log with replica := Function.update log.replica user (replicaAt layer path
          (f.processLiveUpdates files).format (uplink ++ (f.processLiveUpdates files).sent)) } := by
  obtain ⟨-, happlied, hstate, sent, hsent, hempty, hsame⟩ := h.processLiveUpdates laws hedits files
  let sends := !(layerData f layer).mLocalDeltas.entries.isEmpty
  let flushed := LogAction.perform path log (.flush user sends)
  have hflushed : flushed = _ := perform_flush path log user sends
  rw [hreplica] at hflushed
  have houtbox : sent.toList.map (·.updates.lookup path) =
      if sends then [(pathState (layerData f layer) path).edit] else [] := by
    cases hs : sent with
    | none =>
      have hlocals := hempty.1 hs
      simp [sends, hlocals]
    | some v =>
      have hlocals : (layerData f layer).mLocalDeltas.entries ≠ [] := by
        intro hnil
        have hnone := hempty.2 (AList.ext hnil)
        rw [hs] at hnone
        exact absurd hnone (by simp)
      have hv := hsame v hs path
      simp [sends, hlocals, hv, pathState]
  have hflushedReplica : flushed.replica user =
      { state := (pathState (layerData f layer) path).flush
        applied := (layerData f layer).mLatestAppliedSequence
        outbox := (uplink.filterMap (layerDelta layer) ++ sent.toList).map
          (·.updates.lookup path) } := by
    rw [hflushed]
    dsimp only
    rw [Function.update_self, List.map_append, houtbox]
    rfl
  have hflushedHistory : flushed.history = log.history := by rw [hflushed]
  have hbound : (layerData f layer).mLatestAppliedSequence +
      (accumulatedUpdates f layer).length ≤ log.history.length := by
    rw [hhistory, List.length_map]
    exact h.applied_le
  have hupcoming : upcoming flushed user = fun j => historyEntry user history
      ((layerData f layer).mLatestAppliedSequence + 1 + j) path := by
    funext j
    have hindex : (layerData f layer).mLatestAppliedSequence + 1 + j - 1 =
        (layerData f layer).mLatestAppliedSequence + j := by omega
    unfold upcoming historyEntry
    rw [hflushedHistory, hflushedReplica, hindex, hhistory, List.getElem?_map]
    cases history[(layerData f layer).mLatestAppliedSequence + j]? <;> rfl
  have hreceives := final_receives path flushed user
    (n := (accumulatedUpdates f layer).length)
    (by rw [hflushedReplica, hflushedHistory]; exact hbound)
  have hothers : flushed.replica = Function.update log.replica user (flushed.replica user) := by
    rw [hflushed]
    dsimp only
    rw [Function.update_self]
  rw [Runs.final_cons]
  refine hreceives.trans ?_
  rw [hothers, Function.update_self, Function.update_idem, hflushedReplica, hupcoming,
    hflushedHistory]
  unfold replicaAt
  rw [hstate, happlied, List.filterMap_append, hsent]

lemma LinkedClient.replicaAt_setField {user layer : String} {history : List DeltaEvent}
    {f : RenderStudioFileFormat} {uplink downlink : List Json}
    (h : LinkedClient user layer history f uplink downlink) (edited : String)
    (editedPath : SdfPath) (field : TfToken) (value : VtValue) (path : SdfPath) :
    replicaAt layer path (f.setField edited editedPath field value) uplink =
      if edited = layer ∧ editedPath = path then
        { replicaAt layer path f uplink with
          state := (pathState (layerData f layer) path).set field value }
      else replicaAt layer path f uplink := by
  have hsequence := (set_frame_loaded (layerData f layer) editedPath field value).2.2.1
  unfold replicaAt
  by_cases hlayer : edited = layer
  · subst hlayer
    rw [layerData_setField h.registered, hsequence]
    by_cases hpath : editedPath = path
    · subst hpath
      rw [if_pos ⟨rfl, rfl⟩, set_pathState h.ready.idle h.ready.loaded]
    · rw [if_neg fun hedit => hpath hedit.2,
        set_pathState_ne _ field value fun heq => hpath heq.symm]
  · have hdata : layerData (f.setField edited editedPath field value) layer =
        layerData f layer := by
      rw [layerData, lookup_setField_ne hlayer]
      rfl
    rw [if_neg fun hedit => hlayer hedit.1, hdata]

section

variable {room : Room} {layer : String} {s : Session} {user : String}

lemma view_replica (path : SdfPath) (hmember : user ∈ room.members) :
    (view room layer path s).replica user =
      replicaAt layer path (s.client user) (s.uplink user) := if_pos hmember

lemma logActions_nonmember (path : SdfPath) {action : SessionAction}
    (h : action.user ∉ room.members) : logActions room layer path s action = [] := if_pos h

lemma logActions_update (path : SdfPath) (hmember : user ∈ room.members)
    (files : String → Option HashTable) :
    logActions room layer path s (.update user files) =
      .flush user (!(layerData (s.client user) layer).mLocalDeltas.entries.isEmpty) ::
        List.replicate (accumulatedUpdates (s.client user) layer).length (.receive user) :=
  if_neg (not_not.2 hmember)

lemma view_eq (path : SdfPath) (hmember : user ∈ room.members) {s' : Session}
    (hothers : ∀ w, w ≠ user → s'.client w = s.client w ∧ s'.uplink w = s.uplink w) :
    view room layer path s' =
      { history := (layerHistory room layer s').map fun v => (v.user, v.updates.lookup path)
        replica := Function.update (view room layer path s).replica user
          (replicaAt layer path (s'.client user) (s'.uplink user)) } := by
  unfold view
  congr 1
  funext w
  by_cases hwu : w = user
  · subst hwu
    rw [Function.update_self, if_pos hmember]
  · obtain ⟨hclient, huplink⟩ := hothers w hwu
    rw [Function.update_of_ne hwu, hclient, huplink]

lemma view_withClient (path : SdfPath) (hmember : user ∈ room.members) (o : LiveOutcome) :
    view room layer path (s.withClient user o) =
      { view room layer path s with
        replica := Function.update (view room layer path s).replica user
          (replicaAt layer path o.format (s.uplink user ++ o.sent)) } := by
  have hothers : ∀ w, w ≠ user → (s.withClient user o).client w = s.client w ∧
      (s.withClient user o).uplink w = s.uplink w := by
    intro w hw
    simp [Session.withClient, hw]
  rw [view_eq path hmember hothers]
  simp only [Session.withClient, Function.update_self]
  rfl

lemma Linked.withClient (h : Linked room layer s) {o : LiveOutcome}
    (hclient : LinkedClient user layer (layerHistory room layer s) o.format
      (s.uplink user ++ o.sent) (s.downlink user)) :
    Linked room layer (s.withClient user o) := by
  refine ⟨h.connections, fun w hw => ?_⟩
  change LinkedClient w layer (layerHistory room layer s) _ _ (s.downlink w)
  by_cases hwu : w = user
  · subst hwu
    simpa [Session.withClient] using hclient
  · simpa [Session.withClient, hwu] using h.client w hw

lemma linked_set (h : Linked room layer s) (hmember : user ∈ room.members) (edited : String)
    (path : SdfPath) (field : TfToken) (value : VtValue) :
    Linked room layer
      (s.withClient user { format := (s.client user).setField edited path field value }) := by
  refine h.withClient ?_
  rw [List.append_nil]
  exact (h.client user hmember).setField edited path field value

lemma view_set (h : Linked room layer s) (hmember : user ∈ room.members) (edited : String)
    (editedPath : SdfPath) (field : TfToken) (value : VtValue) (path : SdfPath) :
    view room layer path
        (s.withClient user { format := (s.client user).setField edited editedPath field value }) =
      if edited = layer ∧ editedPath = path then
        (view room layer path s).edit user (PathState.set field value)
      else view room layer path s := by
  rw [view_withClient path hmember, List.append_nil,
    (h.client user hmember).replicaAt_setField edited editedPath field value path]
  split_ifs
  · unfold SharedLog.edit
    rw [view_replica path hmember]
    rfl
  · rw [← view_replica path hmember, Function.update_eq_self]

lemma linked_update (laws : UsdLaws) (h : Linked room layer s) (hmember : user ∈ room.members)
    (hedits : AllValues RoundTrips (layerData (s.client user) layer).mLocalDeltas)
    (files : String → Option HashTable) :
    Linked room layer (s.withClient user ((s.client user).processLiveUpdates files)) :=
  h.withClient ((h.client user hmember).processLiveUpdates laws hedits files).1

lemma view_update (laws : UsdLaws) (h : Linked room layer s) (hmember : user ∈ room.members)
    (hedits : AllValues RoundTrips (layerData (s.client user) layer).mLocalDeltas)
    (files : String → Option HashTable) (path : SdfPath) :
    view room layer path (s.withClient user ((s.client user).processLiveUpdates files)) =
      Runs.final (LogAction.perform path) (view room layer path s)
        (logActions room layer path s (.update user files)) := by
  rw [view_withClient path hmember, logActions_update path hmember]
  exact ((h.client user hmember).final_update laws hedits files rfl
    (view_replica path hmember)).symm

lemma linked_deliver (h : Linked room layer s) (hmember : user ∈ room.members) :
    Linked room layer (s.deliver user) := by
  rcases deliver_cases s user with ⟨-, hsame⟩ | ⟨text, rest, hdownlink, hdeliver⟩
  · rwa [hsame]
  · rw [hdeliver]
    refine ⟨h.connections, fun w hw => ?_⟩
    change LinkedClient w layer (layerHistory room layer s) _ (s.uplink w) _
    by_cases hwu : w = user
    · subst hwu
      simpa using (h.client w hw).onMessage hdownlink
    · simpa [hwu] using h.client w hw

lemma view_deliver (h : Linked room layer s) (hmember : user ∈ room.members) (path : SdfPath) :
    view room layer path (s.deliver user) = view room layer path s := by
  rcases deliver_cases s user with ⟨-, hsame⟩ | ⟨text, rest, hdownlink, hdeliver⟩
  · rw [hsame]
  · have hreload := (h.client user hmember).incoming text (hdownlink ▸ List.mem_cons_self)
    have hregistry := (onMessage_frame hreload (s.client user)).2.1
    have hdata : layerData ((s.client user).onMessage text) layer = layerData (s.client user) layer := by
      rw [layerData, hregistry]
      rfl
    rw [hdeliver]
    unfold view
    congr 1
    funext w
    by_cases hwu : w = user
    · subst hwu
      simp only [Function.update_self, replicaAt, hdata]
    · simp only [Function.update_of_ne hwu]

/-- What the server's step on a text with a delta of a member does to the layer. -/
inductive ServesDelta (room : Room) (layer user : String) (text : Json) (s s' : Session) : Prop
  | other (hdelta : layerDelta layer text = none)
      (hhistory : layerHistory room layer s' = layerHistory room layer s)
      (hdownlink : ∀ w ∈ room.members, ∃ replies, s'.downlink w = s.downlink w ++ replies ∧
        ∀ reply ∈ replies, ¬IsReload reply ∧ layerUpdate layer reply = none)
  | numbered (v : DeltaEvent) (hdelta : layerDelta layer text = some v) (hauthor : v.user = user)
      (hhistory : layerHistory room layer s' = layerHistory room layer s ++
        [{ v with sequence := some ((layerHistory room layer s).length + 1) }])
      (hdownlink : ∀ w ∈ room.members, ∃ reply table, s'.downlink w = s.downlink w ++ [reply] ∧
        ¬IsReload reply ∧
        layerUpdate layer reply = some ((layerHistory room layer s).length + 1, table) ∧
        ∀ path, table.lookup path =
          if v.user = w then (v.updates.lookup path).map fun _ => {} else v.updates.lookup path)

theorem serve_delta (laws : UsdLaws)
    (hconnections : (roomChannel room s.server).mConnections = room.members.map room.connection)
    (hmember : user ∈ room.members) {text : Json} {rest : List Json}
    (huplink : s.uplink user = text :: rest) (hdelta : DeltaOf user text)
    (hvalues : ∀ v, layerDelta layer text = some v → AllValues RoundTrips v.updates) :
    (roomChannel room (s.serve room user).server).mConnections =
        room.members.map room.connection ∧
      ServesDelta room layer user text s (s.serve room user) := by
  cases hparse : parseEvent text with
  | none =>
    have hnone : layerDelta layer text = none := by rw [layerDelta, hparse]
    rw [serve_silent huplink hparse]
    refine ⟨hconnections, .other hnone rfl fun w _ => ⟨[], (List.append_nil _).symm, ?_⟩⟩
    exact fun reply hreply => absurd hreply List.not_mem_nil
  | some e =>
    obtain ⟨v, rfl, hauthor⟩ := parseEvent_deltaOf hdelta hparse
    have hnumbered := onMessage_numbered hconnections hmember hparse
    have hhistory := layerHistory_numbered layer hnumbered
    have hlayerDelta : layerDelta layer text = if v.layer = layer then some v else none := by
      rw [layerDelta, hparse]
    rw [serve_eq huplink]
    refine ⟨by rw [hnumbered.channel]; exact hconnections, ?_⟩
    by_cases hlayer : v.layer = layer
    · subst hlayer
      rw [if_pos rfl] at hhistory hlayerDelta
      refine .numbered v hlayerDelta hauthor hhistory fun w hw => ?_
      obtain ⟨reply, hreply, htext⟩ := hnumbered.received w hw
      obtain ⟨hreload, table, hupdate, htable⟩ :=
        update_numbered laws (hvalues v hlayerDelta) hauthor htext
      exact ⟨reply, table, congrArg (s.downlink w ++ ·) hreply, hreload, hupdate, htable⟩
    · rw [if_neg hlayer] at hlayerDelta
      rw [if_neg fun heq => hlayer heq.symm] at hhistory
      refine .other hlayerDelta hhistory fun w hw => ?_
      obtain ⟨reply, hreply, htext⟩ := hnumbered.received w hw
      refine ⟨[reply], congrArg (s.downlink w ++ ·) hreply, fun t ht => ?_⟩
      rw [List.mem_singleton.1 ht]
      exact update_numbered_other hlayer htext

variable (room) in
lemma serve_frame {text : Json} {rest : List Json} (huplink : s.uplink user = text :: rest) :
    (s.serve room user).client = s.client ∧
      (s.serve room user).uplink = Function.update s.uplink user rest := by
  rw [serve_eq huplink]
  exact ⟨rfl, rfl⟩

lemma Linked.serve_delta (laws : UsdLaws) (h : Linked room layer s) (hmember : user ∈ room.members)
    {text : Json} {rest : List Json} (huplink : s.uplink user = text :: rest) :
    (roomChannel room (s.serve room user).server).mConnections =
        room.members.map room.connection ∧
      ServesDelta room layer user text s (s.serve room user) := by
  have hclient := h.client user hmember
  refine Proofs.serve_delta laws h.connections hmember huplink
    (hclient.outgoing text (huplink ▸ List.mem_cons_self)) fun v hv => hclient.outgoingValues v ?_
  rw [huplink, List.filterMap_cons_some hv]
  exact List.mem_cons_self

lemma linked_serve (laws : UsdLaws) (h : Linked room layer s) (hmember : user ∈ room.members) :
    Linked room layer (s.serve room user) := by
  cases huplink : s.uplink user with
  | nil =>
    have hsame : s.serve room user = s := by rw [Session.serve, huplink]
    rwa [hsame]
  | cons text rest =>
    obtain ⟨hconnections, hserves⟩ := h.serve_delta laws hmember huplink
    obtain ⟨hclients, huplinks⟩ := serve_frame room huplink
    have hserved : ∀ w ∈ room.members, LinkedClient w layer (layerHistory room layer s) (s.client w)
        (Function.update s.uplink user rest w) (s.downlink w) := by
      intro w hw
      by_cases hwu : w = user
      · subst hwu
        rw [Function.update_self]
        exact (h.client w hw).served huplink
      · rw [Function.update_of_ne hwu]
        exact h.client w hw
    refine ⟨hconnections, fun w hw => ?_⟩
    rw [hclients, huplinks]
    cases hserves with
    | other hdelta hhistory hdownlink =>
      obtain ⟨replies, hreplies, hother⟩ := hdownlink w hw
      rw [hhistory, hreplies]
      exact (hserved w hw).append_other hother
    | numbered v hdelta hauthor hhistory hdownlink =>
      obtain ⟨reply, table, hreply, hreload, hupdate, htable⟩ := hdownlink w hw
      rw [hhistory, hreply]
      exact (hserved w hw).append hreload hupdate htable

lemma view_serve (laws : UsdLaws) (h : Linked room layer s) (hmember : user ∈ room.members)
    (path : SdfPath) :
    view room layer path (s.serve room user) =
      Runs.final (LogAction.perform path) (view room layer path s)
        (logActions room layer path s (.serve user)) := by
  cases huplink : s.uplink user with
  | nil =>
    have hsame : s.serve room user = s := by rw [Session.serve, huplink]
    simp [hsame, logActions, huplink]
  | cons text rest =>
    obtain ⟨-, hserves⟩ := h.serve_delta laws hmember huplink
    obtain ⟨hclients, huplinks⟩ := serve_frame room huplink
    have hothers : ∀ w, w ≠ user → (s.serve room user).client w = s.client w ∧
        (s.serve room user).uplink w = s.uplink w := by
      intro w hw
      rw [hclients, huplinks, Function.update_of_ne hw]
      exact ⟨rfl, rfl⟩
    have hactions : logActions room layer path s (.serve user) =
        if (layerDelta layer text).isSome then [.serve user] else [] := by
      simp [logActions, SessionAction.user, hmember, huplink]
    rw [hactions, view_eq path hmember hothers, hclients, huplinks, Function.update_self]
    cases hserves with
    | other hdelta hhistory hdownlink =>
      have hsame : replicaAt layer path (s.client user) rest =
          (view room layer path s).replica user := by
        rw [view_replica path hmember, huplink]
        unfold replicaAt
        rw [List.filterMap_cons_none hdelta]
      rw [hdelta, hhistory, hsame, Function.update_eq_self]
      rfl
    | numbered v hdelta hauthor hhistory hdownlink =>
      have houtbox : ((view room layer path s).replica user).outbox =
          v.updates.lookup path :: (rest.filterMap (layerDelta layer)).map
            (·.updates.lookup path) := by
        rw [view_replica path hmember, huplink]
        unfold replicaAt
        rw [List.filterMap_cons_some hdelta]
        rfl
      have hserve : LogAction.perform path (view room layer path s) (.serve user) =
          (view room layer path s).serve user := rfl
      rw [hdelta, Option.isSome_some, if_pos rfl, Runs.final_cons, Runs.final_nil, hserve,
        hhistory, List.map_append]
      unfold SharedLog.serve
      rw [houtbox, view_replica path hmember]
      simp only [List.map_cons, List.map_nil, hauthor]
      rfl

/-- A session step is a run of the log of every path, and keeps the links in order. -/
theorem session_step (laws : UsdLaws) (h : Linked room layer s) {action : SessionAction}
    (hok : Deliverable room layer s action) :
    Linked room layer (s.perform room action) ∧ ∀ path,
      view room layer path (s.perform room action) =
        Runs.final (LogAction.perform path) (view room layer path s)
          (logActions room layer path s action) := by
  unfold Session.perform
  by_cases hmember : action.user ∈ room.members
  · rw [if_neg (not_not.2 hmember)]
    cases action with
    | set user edited editedPath field value =>
      have hmember' : user ∈ room.members := hmember
      refine ⟨linked_set h hmember edited editedPath field value,
        fun path => (view_set h hmember' ..).trans ?_⟩
      unfold logActions
      rw [if_neg (not_not.2 hmember)]
      dsimp only
      split_ifs <;> rfl
    | update user files =>
      have hedits := hok hmember
      exact ⟨linked_update laws h hmember hedits files, view_update laws h hmember hedits files⟩
    | reload user edited file => exact absurd hok id
    | serve user => exact ⟨linked_serve laws h hmember, view_serve laws h hmember⟩
    | deliver user =>
      refine ⟨linked_deliver h hmember, fun path => ?_⟩
      refine (view_deliver h hmember path).trans ?_
      simp [logActions]
  · rw [if_pos hmember]
    refine ⟨h, fun path => ?_⟩
    simp [logActions, hmember]

lemma Sendable.deliverable (h : Sendable room layer s) {action : SessionAction}
    (hok : Transmissible layer action) : Deliverable room layer s action := by
  cases action with
  | set | serve | deliver => trivial
  | update user files => exact h user
  | reload user edited file => exact hok

lemma Sendable.step (h : Sendable room layer s) {s' : Session}
    (hdata : ∀ w ∈ room.members, layerData (s'.client w) layer = layerData (s.client w) layer ∨
      AllValues RoundTrips (layerData (s'.client w) layer).mLocalDeltas) :
    Sendable room layer s' := by
  intro w hw
  rcases hdata w hw with hsame | hvalues
  · rw [hsame]
    exact h w hw
  · exact hvalues

lemma Sendable.perform (laws : UsdLaws) (hlinked : Linked room layer s)
    (h : Sendable room layer s) {action : SessionAction} (hok : Transmissible layer action) :
    Sendable room layer (s.perform room action) := by
  unfold Session.perform
  by_cases hmember : action.user ∈ room.members
  · rw [if_neg (not_not.2 hmember)]
    cases action with
    | set user edited path field value =>
      refine h.step fun w hw => ?_
      by_cases hwu : w = user
      · subst hwu
        have hclient := hlinked.client w hw
        simp only [Session.withClient, Function.update_self]
        by_cases hlayer : edited = layer
        · subst hlayer
          right
          rw [layerData_setField hclient.registered]
          exact set_localDeltas_values hclient.ready.idle hclient.ready.loaded (h w hw) path field
            (hok rfl)
        · left
          rw [layerData, lookup_setField_ne hlayer]
          rfl
      · left
        simp [Session.withClient, hwu]
    | update user files =>
      refine h.step fun w hw => ?_
      by_cases hwu : w = user
      · subst hwu
        right
        obtain ⟨-, -, hstate, -⟩ := (hlinked.client w hw).processLiveUpdates laws (h w hw) files
        simp only [Session.withClient, Function.update_self]
        intro path spec hspec
        have hedit := congrArg PathState.edit (hstate path)
        rw [receiveAll_edit, flush_edit] at hedit
        exact absurd (hspec.symm.trans hedit) (by simp)
      · left
        simp [Session.withClient, hwu]
    | reload user edited file => exact absurd hok id
    | serve user =>
      refine h.step fun w _ => .inl ?_
      change layerData ((s.serve room user).client w) layer = _
      cases huplink : s.uplink user with
      | nil => rw [Session.serve, huplink]
      | cons text rest => rw [serve_eq huplink]
    | deliver user =>
      refine h.step fun w hw => .inl ?_
      change layerData ((s.deliver user).client w) layer = _
      rcases deliver_cases s user with ⟨-, hsame⟩ | ⟨text, rest, hdownlink, hdeliver⟩
      · rw [hsame]
      · rw [hdeliver]
        dsimp only
        by_cases hwu : w = user
        · subst hwu
          have hreload := (hlinked.client w hw).incoming text (hdownlink ▸ List.mem_cons_self)
          rw [Function.update_self, layerData, (onMessage_frame hreload (s.client w)).2.1]
          rfl
        · rw [Function.update_of_ne hwu]
  · rwa [if_pos hmember]

lemma eq_set_of_mem_logActions {path : SdfPath} {action : SessionAction} {user : String}
    {field : TfToken} {value : VtValue}
    (h : .set user field value ∈ logActions room layer path s action) :
    action = .set user layer path field value := by
  unfold logActions at h
  by_cases hmember : action.user ∈ room.members
  · rw [if_neg (not_not.2 hmember)] at h
    cases action with
    | set editor edited editedPath key stored =>
      dsimp only at h
      split_ifs at h with hedit
      · obtain ⟨rfl, rfl⟩ := hedit
        rw [List.mem_singleton, LogAction.set.injEq] at h
        obtain ⟨rfl, rfl, rfl⟩ := h
        rfl
      · exact absurd h List.not_mem_nil
    | update editor files => simp at h
    | reload editor edited file => exact absurd h List.not_mem_nil
    | serve editor =>
      dsimp only at h
      split_ifs at h
      · simp at h
      · exact absurd h List.not_mem_nil
    | deliver editor => exact absurd h List.not_mem_nil
  · rw [if_pos hmember] at h
    exact absurd h List.not_mem_nil

/-- At the path, the condition holds whenever the step applies a delta of another client. -/
def AtForeignDeltas (room : Room) (layer : String) (path : SdfPath)
    (ok : PathLog → String → SpecData → Prop) (s : Session) (action : SessionAction) : Prop :=
  Runs.AllSteps (LogAction.perform path) (AtForeign ok) (view room layer path s)
    (logActions room layer path s action)

/-- Who has only own deltas to apply gets acknowledges only. -/
lemma atForeignDeltas_own {path : SdfPath} {ok : PathLog → String → SpecData → Prop}
    (files : String → Option HashTable)
    (hhistory : ∀ v ∈ (layerHistory room layer s).drop
      (layerData (s.client user) layer).mLatestAppliedSequence, v.user = user) :
    AtForeignDeltas room layer path ok s (.update user files) := by
  let Own (log : PathLog) : Prop :=
    ∀ e ∈ log.history.drop (log.replica user).applied, e.1 = user
  unfold AtForeignDeltas
  by_cases hmember : user ∈ room.members
  · rw [logActions_update path hmember]
    have hown : Own (view room layer path s) := by
      intro e he
      rw [view_replica path hmember, view, ← List.map_drop] at he
      obtain ⟨v, hv, rfl⟩ := List.mem_map.1 he
      exact hhistory v hv
    have hflush : ∀ log sends, Own log → Own (LogAction.perform path log (.flush user sends)) := by
      intro log sends h
      rw [perform_flush]
      simpa [Own] using h
    have hreceive : ∀ log, ∀ step ∈
        List.replicate (accumulatedUpdates (s.client user) layer).length (LogAction.receive user),
        Own log → Own (step.perform path log) := by
      intro log step hstep h
      rw [List.eq_of_mem_replicate hstep]
      exact fun e he => h e (SharedLog.mem_drop_receive he)
    refine ⟨trivial, Runs.allSteps_of_invariant hreceive (fun log step hstep h => ?_)
      (hflush _ _ hown)⟩
    rw [List.eq_of_mem_replicate hstep]
    refine atForeign_receive fun author delta hforeign hnext => ?_
    exact absurd (h _ (SharedLog.drop_applied hnext ▸ List.mem_cons_self)) hforeign
  · rw [logActions_nonmember path hmember]
    trivial

lemma atForeignDeltas_silent {path : SdfPath} {ok : PathLog → String → SpecData → Prop}
    {action : SessionAction} (h : ∀ user files, action ≠ .update user files) :
    AtForeignDeltas room layer path ok s action := by
  refine Runs.allSteps_of_forall (fun log step hstep => ?_) _
  cases step with
  | receive receiver =>
    by_cases hmember : action.user ∈ room.members
    · unfold logActions at hstep
      rw [if_neg (not_not.2 hmember)] at hstep
      cases action with
      | set user edited editedPath field value =>
        dsimp only at hstep
        split_ifs at hstep <;> simp at hstep
      | update user files => exact absurd rfl (h user files)
      | reload user edited file => exact absurd hstep List.not_mem_nil
      | serve user =>
        dsimp only at hstep
        split_ifs at hstep <;> simp at hstep
      | deliver user => exact absurd hstep List.not_mem_nil
    · rw [logActions_nonmember path hmember] at hstep
      exact absurd hstep List.not_mem_nil
  | set user field value => trivial
  | flush user sends => trivial
  | serve user => trivial

/-- What the log does during a session step is ordinary if the edits of the path are. -/
theorem logActions_ordinary (h : Linked room layer s) {path : SdfPath}
    {allowed : TfToken × VtValue → Prop} {action : SessionAction}
    (hset : ∀ user field value, action = .set user layer path field value → user ∈ room.members →
      ((layerData (s.client user) layer).mData.lookup path).isSome ∧
        (value.isEmpty = false → removesSpec field value = false ∧ allowed (field, value))) :
    Runs.AllSteps (LogAction.perform path) (OrdinaryAction room.members allowed)
      (view room layer path s) (logActions room layer path s action) := by
  unfold logActions
  by_cases hmember : action.user ∈ room.members
  · rw [if_neg (not_not.2 hmember)]
    cases action with
    | set user edited editedPath field value =>
      dsimp only
      split_ifs with hedit
      · obtain ⟨rfl, rfl⟩ := hedit
        have hmember' : user ∈ room.members := hmember
        have hreplica : (view room edited editedPath s).replica user =
            replicaAt edited editedPath (s.client user) (s.uplink user) :=
          view_replica editedPath hmember'
        refine ⟨⟨hmember', ?_⟩, trivial⟩
        dsimp only
        rw [hreplica]
        exact hset user field value rfl hmember'
      · trivial
    | update user files =>
      refine ⟨⟨hmember, fun hsilent => ?_⟩, Runs.allSteps_of_forall (fun log step hstep => ?_) _⟩
      · have hempty : (layerData (s.client user) layer).mLocalDeltas = ∅ :=
          AList.ext (by simpa using hsilent)
        have hmember' : user ∈ room.members := hmember
        rw [view_replica path hmember']
        simp [replicaAt, pathState, hempty]
      · rw [List.eq_of_mem_replicate hstep]
        exact ⟨hmember, trivial⟩
    | reload user edited file => trivial
    | serve user =>
      dsimp only
      split_ifs
      · exact ⟨⟨hmember, trivial⟩, trivial⟩
      · trivial
    | deliver user => trivial
  · rw [if_pos hmember]
    trivial

end

end

end RenderStudioKit.Proofs
