import RenderStudioKit.Model.Session
import RenderStudioKit.Proofs.LayerUpdates
import RenderStudioKit.Proofs.Relay

/-!
# The server and the links of a session

What the server sends for a message of a member, and what of it reaches each member.
-/

namespace RenderStudioKit.Proofs

open API

section

variable [Usd]

def roomChannel (room : Room) (server : Logic) : Channel :=
  (server.mChannels.lookup room.channel).getD { mName := room.channel }

section

variable {room : Room}

omit [Usd] in
lemma connection_injective (room : Room) : Function.Injective room.connection :=
  fun _ _ h => congrArg Connection.debugName h

lemma received_append (sent sent' : List (Connection × Event)) (connection : Connection) :
    Session.received (sent ++ sent') connection =
      Session.received sent connection ++ Session.received sent' connection := by
  unfold Session.received
  rw [List.filter_append, List.filterMap_append]

lemma received_self (connection : Connection) (event : Event) :
    Session.received [(connection, event)] connection = event.toJson.toOption.toList := by
  unfold Session.received
  cases htext : event.toJson.toOption <;> simp [htext]

lemma received_other {connection other : Connection} (h : other ≠ connection) (event : Event) :
    Session.received [(other, event)] connection = [] := by
  simp [Session.received, h]

lemma received_names (room : Room) {names : List String} (hnodup : names.Nodup) (w : String)
    (event : Event) :
    Session.received ((names.map room.connection).map (·, event)) (room.connection w) =
      if w ∈ names then event.toJson.toOption.toList else [] := by
  induction names with
  | nil => rfl
  | cons name names ih =>
    obtain ⟨hnot, hrest⟩ := List.nodup_cons.1 hnodup
    rw [List.map_cons, List.map_cons, ← List.singleton_append, received_append, ih hrest]
    by_cases hname : name = w
    · subst hname
      simp [received_self, hnot]
    · have hne : room.connection name ≠ room.connection w := fun heq =>
        hname (connection_injective room heq)
      have hsymm : w ≠ name := fun heq => hname heq.symm
      simp [received_other hne, hsymm]

lemma received_receivers {channel : Channel}
    (hconnections : channel.mConnections = room.members.map room.connection) {w : String}
    (hw : w ∈ room.members) (user : String) (event : Event) :
    Session.received ((channel.receivers (room.connection user)).map (·, event))
        (room.connection w) =
      if w = user then [] else event.toJson.toOption.toList := by
  have hreceivers : channel.receivers (room.connection user) =
      (room.members.filter (· ≠ user)).map room.connection := by
    unfold Channel.receivers
    rw [hconnections, List.filter_map]
    rfl
  rw [hreceivers, received_names room (room.nodup.filter _)]
  by_cases hwu : w = user <;> simp [hwu, hw]

lemma lookup_roomChannel {server : Logic}
    (hconnections : (roomChannel room server).mConnections = room.members.map room.connection)
    {user : String} (hmember : user ∈ room.members) :
    server.mChannels.lookup room.channel = some (roomChannel room server) := by
  unfold roomChannel at hconnections ⊢
  cases hlookup : server.mChannels.lookup room.channel with
  | some channel => rfl
  | none =>
    rw [hlookup, Option.getD_none] at hconnections
    have hempty : room.members = [] := by simpa using hconnections.symm
    exact absurd hmember (hempty ▸ List.not_mem_nil)

/-- The server numbers a delta of a member. -/
structure Numbered (room : Room) (server : Logic) (user : String) (v : DeltaEvent)
    (o : Outcome) : Prop where
  channel : roomChannel room o.logic = (roomChannel room server).addToHistory
    { v with sequence := some ((deltas (roomChannel room server) v.layer).length + 1) }
  received : ∀ w ∈ room.members, ∃ text, Session.received o.sent (room.connection w) = [text] ∧
    if w = user then
      (AcknowledgeEvent.event ⟨v.layer, v.updates.keys,
        (deltas (roomChannel room server) v.layer).length + 1⟩).toJson = .ok text
    else (DeltaEvent.event { v with
      sequence := some ((deltas (roomChannel room server) v.layer).length + 1) }).toJson = .ok text

lemma onMessage_numbered {server : Logic}
    (hconnections : (roomChannel room server).mConnections = room.members.map room.connection)
    {user : String} (hmember : user ∈ room.members) {text : Json} {name : String} {v : DeltaEvent}
    (hparse : parseEvent text = some ⟨name, .delta v⟩) :
    Numbered room server user v (server.onMessage (room.connection user) text) := by
  have hv := (parseEvent_decoded hparse).values v rfl
  have hlookup := lookup_roomChannel hconnections hmember
  have honMessage : server.onMessage (room.connection user) text =
      server.onDelta (room.connection user) v := by
    unfold Logic.onMessage
    rw [hparse]
  rw [honMessage, onDelta_eq hlookup hv]
  refine ⟨?_, fun w hw => ?_⟩
  · change (AList.lookup room.channel (AList.insert room.channel _ _)).getD _ = _
    rw [AList.lookup_insert, Option.getD_some]
  · obtain ⟨relayed, hrelayed⟩ := delta_event_encodes (v := { v with
      sequence := some ((deltas (roomChannel room server) v.layer).length + 1) }) hv
    obtain ⟨acknowledge, hacknowledge⟩ := acknowledge_event_encodes ⟨v.layer, v.updates.keys,
      (deltas (roomChannel room server) v.layer).length + 1⟩
    dsimp only
    rw [received_append, received_receivers hconnections hw]
    by_cases hwu : w = user
    · subst hwu
      refine ⟨acknowledge, ?_, ?_⟩
      · rw [if_pos rfl, received_self, hacknowledge]
        rfl
      · rwa [if_pos rfl]
    · have hne : room.connection user ≠ room.connection w := fun heq =>
        hwu (connection_injective room heq).symm
      refine ⟨relayed, ?_, ?_⟩
      · rw [if_neg hwu, received_other hne, hrelayed]
        rfl
      · rwa [if_neg hwu]

/-- The text is the server's message that the layer was reloaded. -/
def ReloadsLayer (layer : String) (text : Json) : Prop :=
  ∃ v, layerReload layer text = some v ∧ v.sequence.isSome

lemma parseEvent_layerReload {layer : String} {text : Json} {v : ReloadEvent}
    (h : layerReload layer text = some v) :
    ∃ name, parseEvent text = some ⟨name, .reload v⟩ ∧ v.layer = layer := by
  unfold layerReload at h
  split at h
  · rename_i name v' hparse
    split_ifs at h with hlayer
    obtain rfl := Option.some.inj h
    exact ⟨name, hparse, hlayer⟩
  · exact absurd h (by simp)

lemma onMessage_reload {server : Logic}
    (hconnections : (roomChannel room server).mConnections = room.members.map room.connection)
    {user : String} (hmember : user ∈ room.members) {layer : String} {text : Json}
    {v : ReloadEvent} (hreload : layerReload layer text = some v) :
    let o := server.onMessage (room.connection user) text
    roomChannel room o.logic = (roomChannel room server).clearHistory layer ∧
      ∀ w ∈ room.members, w ≠ user → ∃ reply,
        Session.received o.sent (room.connection w) = [reply] ∧ ReloadsLayer layer reply := by
  obtain ⟨name, hparse, rfl⟩ := parseEvent_layerReload hreload
  have hlookup := lookup_roomChannel hconnections hmember
  have honMessage : server.onMessage (room.connection user) text =
      server.onReload (room.connection user) v := by
    unfold Logic.onMessage
    rw [hparse]
  let numbered : ReloadEvent :=
    { v with sequence := some ((deltas (roomChannel room server) v.layer).length + 1) }
  obtain ⟨reply, hreply⟩ := reload_event_encodes numbered
  dsimp only
  rw [honMessage, onReload_eq hlookup]
  refine ⟨?_, fun w hw hwu => ⟨reply, ?_, numbered, ?_, rfl⟩⟩
  · change (AList.lookup room.channel (AList.insert room.channel _ _)).getD _ = _
    rw [AList.lookup_insert, Option.getD_some]
  · dsimp only
    rw [received_receivers hconnections hw, if_neg hwu, hreply]
    rfl
  · rw [layerReload, parseEvent_reload hreply]
    exact if_pos rfl

end

section

variable {room : Room} {layer : String} {s : Session} {user : String}

lemma deliver_cases (s : Session) (user : String) :
    (s.downlink user = [] ∧ s.deliver user = s) ∨ ∃ text rest, s.downlink user = text :: rest ∧
      s.deliver user = { s with
        client := Function.update s.client user ((s.client user).onMessage text)
        downlink := Function.update s.downlink user rest } := by
  unfold Session.deliver
  cases hdownlink : s.downlink user with
  | nil => exact .inl ⟨rfl, rfl⟩
  | cons text rest => exact .inr ⟨text, rest, rfl, rfl⟩

lemma serve_silent {text : Json} {rest : List Json} (huplink : s.uplink user = text :: rest)
    (hparse : parseEvent text = none) :
    s.serve room user = { s with uplink := Function.update s.uplink user rest } := by
  unfold Session.serve
  rw [huplink]
  have hmessage : s.server.onMessage (room.connection user) text =
      { logic := s.server, fault := parseFault text } := by
    unfold Logic.onMessage
    rw [hparse]
  simp only [Session.withServer, hmessage, Session.received, List.filter_nil, List.filterMap_nil,
    List.append_nil]

lemma serve_eq {text : Json} {rest : List Json} (huplink : s.uplink user = text :: rest) :
    s.serve room user = { s with
      server := (s.server.onMessage (room.connection user) text).logic
      uplink := Function.update s.uplink user rest
      downlink := fun w => s.downlink w ++ Session.received
        (s.server.onMessage (room.connection user) text).sent (room.connection w) } := by
  unfold Session.serve
  rw [huplink]
  rfl

lemma layerHistory_numbered (layer : String) {v : DeltaEvent} {server : Logic} {o : Outcome}
    (h : Numbered room server user v o) :
    deltas (roomChannel room o.logic) layer =
      if layer = v.layer then deltas (roomChannel room server) layer ++
        [{ v with sequence := some ((deltas (roomChannel room server) layer).length + 1) }]
      else deltas (roomChannel room server) layer := by
  rw [h.channel, deltas_addToHistory]
  split_ifs with hlayer
  · rw [hlayer]
  · rfl

lemma update_numbered (laws : UsdLaws) {v : DeltaEvent} (hv : AllValues RoundTrips v.updates)
    {w : String} (hauthor : v.user = user) {number : Nat} {text : Json}
    (htext : if w = user then (AcknowledgeEvent.event ⟨v.layer, v.updates.keys, number⟩).toJson =
        .ok text
      else (DeltaEvent.event { v with sequence := some number }).toJson = .ok text) :
    ¬IsReload text ∧ ∃ table, layerUpdate v.layer text = some (number, table) ∧
      ∀ path, table.lookup path =
        if v.user = w then (v.updates.lookup path).map fun _ => {} else v.updates.lookup path := by
  by_cases hwu : w = user
  · rw [if_pos hwu] at htext
    refine ⟨not_isReload_acknowledge htext, acknowledgeUpdates ⟨v.layer, v.updates.keys, number⟩,
      layerUpdate_acknowledge_text laws htext, fun path => ?_⟩
    rw [lookup_acknowledgeUpdates, if_pos (hauthor.trans hwu.symm)]
    have hkeys : path ∈ v.updates.keys ↔ (v.updates.lookup path).isSome :=
      AList.mem_keys.symm.trans AList.lookup_isSome.symm
    cases hlookup : v.updates.lookup path with
    | none => simp [hkeys, hlookup]
    | some spec => simp [hkeys, hlookup]
  · rw [if_neg hwu] at htext
    obtain ⟨text', v', htext', hsame, -, hupdate⟩ :=
      layerUpdate_delta_text laws (v := { v with sequence := some number }) hv
    rw [htext, Except.ok.injEq] at htext'
    subst htext'
    refine ⟨not_isReload_delta htext, v'.updates, hupdate, fun path => ?_⟩
    rw [if_neg fun heq => hwu (heq.symm.trans hauthor)]
    exact hsame.updates path

lemma update_numbered_other {v : DeltaEvent} (hlayer : v.layer ≠ layer)
    {w : String} {number : Nat} {text : Json}
    (htext : if w = user then (AcknowledgeEvent.event ⟨v.layer, v.updates.keys, number⟩).toJson =
        .ok text
      else (DeltaEvent.event { v with sequence := some number }).toJson = .ok text) :
    ¬IsReload text ∧ layerUpdate layer text = none := by
  split_ifs at htext
  · exact ⟨not_isReload_acknowledge htext, layer_of_acknowledge_text htext hlayer⟩
  · exact ⟨not_isReload_delta htext, (layer_of_delta_text htext hlayer).2⟩

end

lemma mem_received {sent : List (Connection × Event)} {connection : Connection} {text : Json}
    (h : text ∈ Session.received sent connection) : ∃ p ∈ sent, p.2.toJson = .ok text := by
  unfold Session.received at h
  obtain ⟨p, hp, htext⟩ := List.mem_filterMap.1 h
  have hmem := List.mem_of_mem_filter hp
  cases hjson : p.2.toJson with
  | error fault => simp [hjson, Except.toOption] at htext
  | ok text' =>
    rw [hjson] at htext
    exact ⟨p, hmem, congrArg Except.ok (Option.some.inj htext) ▸ hjson⟩

lemma onDelta_sent (l : Logic) (connection : Connection) {v : DeltaEvent}
    (hv : AllValues Decoded v.updates) : ∀ p ∈ (l.onDelta connection v).sent,
      (∃ v' : DeltaEvent, v'.layer = v.layer ∧ p.2 = v'.event) ∨
        ∃ a : AcknowledgeEvent, a.layer = v.layer ∧ p.2 = a.event := by
  intro p hp
  cases hchannel : l.mChannels.lookup connection.channel with
  | none =>
    have hnothing : l.onDelta connection v = { logic := l } := by rw [Logic.onDelta, hchannel]
    rw [hnothing] at hp
    exact absurd hp List.not_mem_nil
  | some channel =>
    rw [onDelta_eq hchannel hv] at hp
    rcases List.mem_append.1 hp with hrelayed | hacknowledge
    · obtain ⟨receiver, -, rfl⟩ := List.mem_map.1 hrelayed
      exact .inl ⟨_, by rfl, rfl⟩
    · rw [List.mem_singleton.1 hacknowledge]
      exact .inr ⟨_, by rfl, rfl⟩

lemma onReload_sent (l : Logic) (connection : Connection) (v : ReloadEvent) :
    ∀ p ∈ (l.onReload connection v).sent,
      ∃ v' : ReloadEvent, v'.layer = v.layer ∧ p.2 = v'.event := by
  intro p hp
  cases hchannel : l.mChannels.lookup connection.channel with
  | none =>
    have hnothing : l.onReload connection v = { logic := l } := by rw [Logic.onReload, hchannel]
    rw [hnothing] at hp
    exact absurd hp List.not_mem_nil
  | some channel =>
    rw [onReload_eq hchannel v] at hp
    obtain ⟨receiver, -, rfl⟩ := List.mem_map.1 hp
    exact ⟨_, by rfl, rfl⟩

/-- The server sends updates of a layer only for a delta of it and reloads only for a reload. -/
theorem received_kinds {l : Logic} {connection receiver : Connection} {text reply : Json}
    (hreply : reply ∈ Session.received (l.onMessage connection text).sent receiver)
    (layer : String) :
    ((layerUpdate layer reply).isSome → (layerDelta layer text).isSome) ∧
      ((layerReload layer reply).isSome → (layerReload layer text).isSome) := by
  obtain ⟨p, hp, hjson⟩ := mem_received hreply
  unfold Logic.onMessage at hp
  cases hparse : parseEvent text with
  | none =>
    rw [hparse] at hp
    exact absurd hp List.not_mem_nil
  | some e =>
    obtain ⟨name, body⟩ := e
    rw [hparse] at hp
    cases body with
    | delta v =>
      have hdelta : layerDelta layer text = if v.layer = layer then some v else none := by
        rw [layerDelta, hparse]
      rw [hdelta]
      rcases onDelta_sent l connection ((parseEvent_decoded hparse).values v rfl) p hp with
        ⟨v', hlayer, hevent⟩ | ⟨a, hlayer, hevent⟩
      · rw [hevent] at hjson
        refine ⟨fun hupdate => ?_, fun hreload => ?_⟩
        · by_cases hv : v.layer = layer
          · simp [hv]
          · have hnone := (layer_of_delta_text hjson (hlayer.trans_ne hv)).2
            rw [hnone] at hupdate
            exact absurd hupdate (by simp)
        · have hnone : layerReload layer reply = none := layerReload_deltaOf ⟨v', rfl, hjson⟩
          rw [hnone] at hreload
          exact absurd hreload (by simp)
      · rw [hevent] at hjson
        refine ⟨fun hupdate => ?_, fun hreload => ?_⟩
        · by_cases hv : v.layer = layer
          · simp [hv]
          · have hnone := layer_of_acknowledge_text hjson (hlayer.trans_ne hv)
            rw [hnone] at hupdate
            exact absurd hupdate (by simp)
        · unfold layerReload at hreload
          cases hreplied : parseEvent reply with
          | none => simp [hreplied] at hreload
          | some e =>
            obtain ⟨a', rfl, -⟩ := parseEvent_acknowledge_header hjson hreplied
            simp [hreplied] at hreload
    | acknowledge v => exact absurd hp List.not_mem_nil
    | history => exact absurd hp List.not_mem_nil
    | reload v =>
      obtain ⟨v', hlayer, hevent⟩ := onReload_sent l connection v p hp
      rw [hevent] at hjson
      have hreplied := parseEvent_reload hjson
      have hupdate : layerUpdate layer reply = none := by
        rw [layerUpdate, hreplied]
        rfl
      have hreload : layerReload layer reply = if v'.layer = layer then some v' else none := by
        rw [layerReload, hreplied]
        rfl
      have hsame : layerReload layer text = if v.layer = layer then some v else none := by
        rw [layerReload, hparse]
      rw [hupdate, hreload, hsame, hlayer]
      refine ⟨by simp, ?_⟩
      by_cases hv : v.layer = layer <;> simp [hv]

section

variable {room : Room}

/-- A session in which the given members have joined and nobody did anything else. -/
structure Joined (room : Room) (client : String → RenderStudioFileFormat) (joined : List String)
    (s : Session) : Prop where
  stored : Stored s.server
  connections : (roomChannel room s.server).mConnections = joined.map room.connection
  noDeltas : ∀ layer, deltas (roomChannel room s.server) layer = []
  clients : s.client = client
  uplink : s.uplink = fun _ => []
  downlink : ∀ user, ∀ text ∈ s.downlink user, ¬IsReload text ∧
    ∀ layer, layerUpdate layer text = none

lemma Joined.join {client : String → RenderStudioFileFormat} {joined : List String} {s : Session}
    (h : Joined room client joined s) (user : String) :
    Joined room client (joined ++ [user]) (s.join room user) := by
  have hconnected := onConnected_eq h.stored (room.connection user)
  have hchannel : joinedChannel s.server (room.connection user) = roomChannel room s.server := rfl
  have hreplay : replay (roomChannel room s.server) = [] := by
    refine List.eq_nil_iff_forall_not_mem.2 fun delta hdelta => ?_
    obtain ⟨layer, hmem⟩ := mem_replay.1 hdelta
    rw [h.noDeltas layer] at hmem
    exact absurd hmem List.not_mem_nil
  rw [hchannel, hreplay, List.map_nil, List.nil_append] at hconnected
  have hroom : roomChannel room (s.join room user).server =
      (roomChannel room s.server).addConnection (room.connection user) := by
    unfold Session.join Session.withServer
    rw [hconnected]
    change (AList.lookup room.channel (AList.insert room.channel _ _)).getD _ = _
    rw [AList.lookup_insert, Option.getD_some]
  refine ⟨(h.stored.perform (.connected (room.connection user))).1, ?_, fun layer => ?_, h.clients,
    h.uplink, fun w text htext => ?_⟩
  · rw [hroom, List.map_append]
    exact congrArg (· ++ [room.connection user]) h.connections
  · rw [hroom]
    exact h.noDeltas layer
  · unfold Session.join Session.withServer at htext
    rw [hconnected] at htext
    rcases List.mem_append.1 htext with hold | hnew
    · exact h.downlink w text hold
    · obtain ⟨history, hhistory⟩ := history_event_encodes
      have htext' : text = history := by
        unfold Session.received at hnew
        obtain ⟨sent, hsent, hjson⟩ := List.mem_filterMap.1 hnew
        have hmem := List.mem_of_mem_filter hsent
        rw [List.mem_singleton.1 hmem, hhistory] at hjson
        exact (Option.some.inj hjson).symm
      rw [htext']
      exact ⟨(layerUpdate_history_text "" hhistory).2,
        fun layer => (layerUpdate_history_text layer hhistory).1⟩

lemma joined_start (room : Room) (client : String → RenderStudioFileFormat) :
    Joined room client room.members (Session.start room client) := by
  have hjoin : ∀ (names joined : List String) (s : Session), Joined room client joined s →
      Joined room client (joined ++ names) (names.foldl (Session.join room) s) := by
    intro names
    induction names with
    | nil => simp
    | cons name names ih =>
      intro joined s h
      have hrest := ih (joined ++ [name]) _ (h.join name)
      rwa [List.append_assoc] at hrest
  refine hjoin room.members [] { client := client } ⟨stored_init, rfl, fun _ => rfl, rfl, rfl, ?_⟩
  intro user text htext
  exact absurd htext List.not_mem_nil

end

end

end RenderStudioKit.Proofs
