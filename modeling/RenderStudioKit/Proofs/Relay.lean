import RenderStudioKit.Lib.Runs
import RenderStudioKit.Proofs.EventCodec

/-!
# The relay of the server

Every delta the server stores came out of the decoder, so no call ever ends in an
exception: what is stored and numbered is sent in the same call, and replayed to whoever
joins later.
-/

namespace RenderStudioKit.Proofs

open API Codec

section

variable [Usd]

inductive ServerCall where
  | connected (connection : Connection)
  | disconnected (connection : Connection)
  | message (connection : Connection) (text : Json)

def ServerCall.connection : ServerCall → Connection
  | .connected connection => connection
  | .disconnected connection => connection
  | .message connection _ => connection

def ServerCall.perform (l : Logic) : ServerCall → Outcome
  | .connected connection => l.onConnected connection
  | .disconnected connection => l.onDisconnected connection
  | .message connection text => l.onMessage connection text

/-- What the message of a call does to the decoder. -/
def ServerCall.fault : ServerCall → Option Fault
  | .connected _ => none
  | .disconnected _ => none
  | .message _ text => parseFault text

def serve (l : Logic) (call : ServerCall) : Logic := (call.perform l).logic

/-- The stored deltas of a layer. -/
def deltas (channel : Channel) (layer : String) : List DeltaEvent :=
  (channel.mHistory.lookup layer).getD []

lemma getSequenceNumber_eq (channel : Channel) (layer : String) :
    channel.getSequenceNumber layer = (deltas channel layer).length + 1 := by
  unfold Channel.getSequenceNumber deltas
  cases channel.mHistory.lookup layer <;> rfl

lemma deltas_addToHistory (channel : Channel) (v : DeltaEvent) (layer : String) :
    deltas (channel.addToHistory v) layer =
      if layer = v.layer then deltas channel layer ++ [v] else deltas channel layer := by
  unfold deltas Channel.addToHistory
  split_ifs with hlayer
  · rw [hlayer, AList.lookup_insert, Option.getD_some]
  · rw [AList.lookup_insert_ne hlayer]

lemma deltas_clearHistory (channel : Channel) (cleared layer : String) :
    deltas (channel.clearHistory cleared) layer =
      if layer = cleared then [] else deltas channel layer := by
  unfold deltas Channel.clearHistory
  cases hcleared : channel.mHistory.lookup cleared with
  | none =>
    split_ifs with hlayer
    · rw [hlayer, hcleared]
      rfl
    · rfl
  | some stored =>
    split_ifs with hlayer
    · rw [hlayer, AList.lookup_insert, Option.getD_some]
    · rw [AList.lookup_insert_ne hlayer]

@[simp] lemma clearHistory_connections (channel : Channel) (layer : String) :
    (channel.clearHistory layer).mConnections = channel.mConnections := by
  unfold Channel.clearHistory
  split <;> rfl

/-- The stored deltas of a channel stand under their own layer and were decoded. -/
def StoredChannel (channel : Channel) : Prop :=
  ∀ layer, ∀ delta ∈ deltas channel layer, delta.layer = layer ∧ AllValues Decoded delta.updates

def Stored (l : Logic) : Prop :=
  ∀ name channel, l.mChannels.lookup name = some channel → StoredChannel channel

lemma StoredChannel.addToHistory {channel : Channel} (h : StoredChannel channel) {v : DeltaEvent}
    (hv : AllValues Decoded v.updates) : StoredChannel (channel.addToHistory v) := by
  intro layer delta hdelta
  rw [deltas_addToHistory] at hdelta
  split_ifs at hdelta with hlayer
  · rcases List.mem_append.1 hdelta with hold | hnew
    · exact h layer delta hold
    · rw [List.mem_singleton.1 hnew]
      exact ⟨hlayer.symm, hv⟩
  · exact h layer delta hdelta

lemma StoredChannel.clearHistory {channel : Channel} (h : StoredChannel channel)
    (cleared : String) : StoredChannel (channel.clearHistory cleared) := by
  intro layer delta hdelta
  rw [deltas_clearHistory] at hdelta
  split_ifs at hdelta
  · exact absurd hdelta List.not_mem_nil
  · exact h layer delta hdelta

lemma Stored.insert {l : Logic} (h : Stored l) {name : String} {channel : Channel}
    (hchannel : StoredChannel channel) : Stored ⟨l.mChannels.insert name channel⟩ := by
  intro name' channel' hlookup
  by_cases hname : name' = name
  · subst hname
    rw [AList.lookup_insert, Option.some.injEq] at hlookup
    rwa [← hlookup]
  · rw [AList.lookup_insert_ne hname] at hlookup
    exact h name' channel' hlookup

lemma Stored.erase {l : Logic} (h : Stored l) (name : String) :
    Stored ⟨l.mChannels.erase name⟩ := by
  intro name' channel' hlookup
  by_cases hname : name' = name
  · subst hname
    rw [AList.lookup_erase] at hlookup
    exact absurd hlookup (by simp)
  · rw [AList.lookup_erase_ne hname] at hlookup
    exact h name' channel' hlookup

lemma send_ok {o : Outcome} (hfault : o.fault = none) (receivers : List Connection) {event : Event}
    (h : ∃ json, event.toJson = .ok json) :
    o.send receivers event = { o with sent := o.sent ++ receivers.map (·, event) } := by
  obtain ⟨json, hjson⟩ := h
  unfold Outcome.send
  rw [hfault, hjson]

lemma replay_ok {o : Outcome} (hfault : o.fault = none) (connection : Connection)
    (history : List DeltaEvent) (h : ∀ delta ∈ history, ∃ json, delta.event.toJson = .ok json) :
    history.foldl (fun o delta => o.send [connection] delta.event) o =
      { o with sent := o.sent ++ history.map fun delta => (connection, delta.event) } := by
  induction history generalizing o with
  | nil => simp
  | cons delta history ih =>
    have hsend := send_ok hfault [connection] (h delta List.mem_cons_self)
    rw [List.foldl_cons, hsend]
    refine (ih ?_ fun d hd => h d (List.mem_cons_of_mem _ hd)).trans ?_
    · exact hfault
    · simp

/-- The deltas a channel replays. -/
def replay (channel : Channel) : List DeltaEvent :=
  channel.mHistory.entries.flatMap (·.2)

lemma mem_replay {channel : Channel} {delta : DeltaEvent} :
    delta ∈ replay channel ↔ ∃ layer, delta ∈ deltas channel layer := by
  unfold replay deltas
  rw [List.mem_flatMap]
  constructor
  · rintro ⟨⟨layer, history⟩, hentry, hdelta⟩
    exact ⟨layer, by rwa [AList.mem_lookup_iff.2 hentry, Option.getD_some]⟩
  · rintro ⟨layer, hdelta⟩
    cases hlookup : channel.mHistory.lookup layer with
    | none => simp [hlookup] at hdelta
    | some history =>
      rw [hlookup, Option.getD_some] at hdelta
      exact ⟨⟨layer, history⟩, AList.mem_lookup_iff.1 hlookup, hdelta⟩

/-- The channel a connection joins. -/
def joinedChannel (l : Logic) (connection : Connection) : Channel :=
  (l.mChannels.lookup connection.channel).getD { mName := connection.channel }

lemma Stored.joinedChannel {l : Logic} (h : Stored l) (connection : Connection) :
    StoredChannel (joinedChannel l connection) := by
  unfold Proofs.joinedChannel
  cases hlookup : l.mChannels.lookup connection.channel with
  | none =>
    intro layer delta hdelta
    simp [deltas] at hdelta
  | some channel => exact h connection.channel channel hlookup

lemma onConnected_eq {l : Logic} (h : Stored l) (connection : Connection) :
    l.onConnected connection =
      { logic := ⟨l.mChannels.insert connection.channel
          ((joinedChannel l connection).addConnection connection)⟩
        sent := (replay (joinedChannel l connection)).map (fun delta => (connection, delta.event)) ++
          [(connection, historyEvent)] } := by
  have hencodes : ∀ delta ∈ replay (joinedChannel l connection),
      ∃ json, delta.event.toJson = .ok json := by
    intro delta hdelta
    obtain ⟨layer, hdelta⟩ := mem_replay.1 hdelta
    exact delta_event_encodes (h.joinedChannel connection layer delta hdelta).2
  unfold Logic.onConnected
  dsimp only
  rw [← List.foldl_flatMap]
  change Outcome.send (List.foldl _ _ (replay (joinedChannel l connection))) _ _ = _
  rw [replay_ok (by rfl) connection _ hencodes, send_ok (by rfl) _ history_event_encodes]
  rfl

lemma onDelta_eq {l : Logic} {connection : Connection} {channel : Channel}
    (hchannel : l.mChannels.lookup connection.channel = some channel) {v : DeltaEvent}
    (hv : AllValues Decoded v.updates) :
    let sequence := (deltas channel v.layer).length + 1
    let acknowledgedDelta := { v with sequence := some sequence }
    l.onDelta connection v =
      { logic := ⟨l.mChannels.insert connection.channel (channel.addToHistory acknowledgedDelta)⟩
        sent := (channel.receivers connection).map (·, acknowledgedDelta.event) ++
          [(connection, AcknowledgeEvent.event ⟨v.layer, v.updates.keys, sequence⟩)] } := by
  intro sequence acknowledgedDelta
  have hencodes : ∃ json, acknowledgedDelta.event.toJson = .ok json := delta_event_encodes hv
  unfold Logic.onDelta
  rw [hchannel]
  dsimp only
  rw [getSequenceNumber_eq, send_ok (by rfl) _ hencodes,
    send_ok (by rfl) _ (acknowledge_event_encodes _)]
  rfl

lemma onReload_eq {l : Logic} {connection : Connection} {channel : Channel}
    (hchannel : l.mChannels.lookup connection.channel = some channel) (v : ReloadEvent) :
    l.onReload connection v =
      { logic := ⟨l.mChannels.insert connection.channel (channel.clearHistory v.layer)⟩
        sent := (channel.receivers connection).map
          (·, ReloadEvent.event { v with sequence := some ((deltas channel v.layer).length + 1) }) } := by
  unfold Logic.onReload
  rw [hchannel]
  dsimp only
  rw [getSequenceNumber_eq, send_ok (by rfl) _ (reload_event_encodes _)]
  have hreceivers : (channel.clearHistory v.layer).receivers connection =
      channel.receivers connection := by
    unfold Channel.receivers
    rw [clearHistory_connections]
  rw [hreceivers]
  rfl

lemma parseFault_eq_none {text : Json} {event : Event} (h : parseEvent text = some event) :
    parseFault text = none := by
  unfold parseEvent at h
  unfold parseFault
  cases hdecoded : Event.ofJson text with
  | ok event' => rfl
  | error fault =>
    rw [hdecoded] at h
    cases h

/-- A call keeps the stored deltas decoded, and nothing ends it but a message that makes the decoder
write outside a matrix. -/
theorem Stored.perform {l : Logic} (h : Stored l) (call : ServerCall) :
    Stored (serve l call) ∧ (call.perform l).fault = call.fault := by
  unfold serve
  cases call with
  | connected connection =>
    simp only [ServerCall.perform, onConnected_eq h connection, ServerCall.fault, and_true]
    exact h.insert (h.joinedChannel connection)
  | disconnected connection =>
    simp only [ServerCall.perform, Logic.onDisconnected]
    cases hlookup : l.mChannels.lookup connection.channel with
    | none => exact ⟨h, rfl⟩
    | some channel =>
      dsimp only
      split_ifs
      · exact ⟨h.erase connection.channel, rfl⟩
      · exact ⟨h.insert (h connection.channel channel hlookup), rfl⟩
  | message connection text =>
    simp only [ServerCall.perform, Logic.onMessage]
    cases hparse : parseEvent text with
    | none => exact ⟨h, rfl⟩
    | some event =>
      rw [ServerCall.fault, parseFault_eq_none hparse]
      obtain ⟨name, body⟩ := event
      cases body with
      | delta v =>
        have hv := (parseEvent_decoded hparse).values v rfl
        cases hlookup : l.mChannels.lookup connection.channel with
        | none => simpa [Logic.onDelta, hlookup] using h
        | some channel =>
          simp only [onDelta_eq hlookup hv, and_true]
          exact h.insert ((h connection.channel channel hlookup).addToHistory hv)
      | reload v =>
        cases hlookup : l.mChannels.lookup connection.channel with
        | none => simpa [Logic.onReload, hlookup] using h
        | some channel =>
          simp only [onReload_eq hlookup, and_true]
          exact h.insert ((h connection.channel channel hlookup).clearHistory v.layer)
      | history => exact ⟨h, rfl⟩
      | acknowledge v => exact ⟨h, rfl⟩

lemma stored_init : Stored {} := by
  intro name channel hlookup
  simp at hlookup

lemma stored_run (run : List ServerCall) : Stored (Runs.final serve {} run) :=
  Runs.final_of_invariant Stored (fun _ call h => (h.perform call).1) stored_init run

/-- No matrix occurs in the values of a table. -/
def MatrixFree (updates : HashTable) : Prop :=
  AllValues (fun value => ¬ContainsMatrix value) updates

/-- The text of the event decodes to the event. -/
def Transmits (e : Event) : Prop :=
  ∃ json e', e.toJson = .ok json ∧ Event.ofJson json = .ok e' ∧ SameEvent e e'

lemma decoded_transmits (laws : UsdLaws) {v : DeltaEvent} (hv : AllValues Decoded v.updates)
    (hmatrix : MatrixFree v.updates) : Transmits v.event := by
  apply event_roundtrip laws (by rfl)
  intro v' hv' path spec hspec field hfield
  obtain rfl := Body.delta.inj hv'
  exact ((hv path spec hspec field hfield).relayed (hmatrix path spec hspec field hfield)).roundTrips laws

/-- In every reachable state an accepted delta without matrices is stored, broadcast and
acknowledged in one call, and its text, broadcast or replayed, decodes to what the server
decoded with its number. -/
theorem relay_lossless (laws : UsdLaws) (run : List ServerCall) :
    let l := Runs.final serve {} run
    (∀ (author : Connection) (text : Json) (name : String) (v : DeltaEvent) (channel : Channel),
      parseEvent text = some ⟨name, .delta v⟩ → MatrixFree v.updates →
      l.mChannels.lookup author.channel = some channel →
      let relayed := { v with sequence := some (channel.getSequenceNumber v.layer) }
      let o := l.onMessage author text
      o.fault = none ∧
        (∃ channel', o.logic.mChannels.lookup author.channel = some channel' ∧
          deltas channel' v.layer = deltas channel v.layer ++ [relayed]) ∧
        o.sent = (channel.receivers author).map (·, relayed.event) ++ [(author,
          AcknowledgeEvent.event ⟨v.layer, v.updates.keys, channel.getSequenceNumber v.layer⟩)] ∧
        Transmits relayed.event) ∧
    ∀ joiner : Connection, (l.onConnected joiner).fault = none ∧
      ∀ (channel : Channel) (layer : String), l.mChannels.lookup joiner.channel = some channel →
        ∀ delta ∈ deltas channel layer, MatrixFree delta.updates →
          (joiner, delta.event) ∈ (l.onConnected joiner).sent ∧ Transmits delta.event := by
  intro l
  have hstored : Stored l := stored_run run
  refine ⟨fun author text name v channel hparse hmatrix hchannel => ?_, fun joiner => ⟨?_, ?_⟩⟩
  · intro relayed o
    have hv : AllValues Decoded v.updates := (parseEvent_decoded hparse).values v rfl
    have hcall : o = l.onDelta author v := by
      change l.onMessage author text = _
      rw [Logic.onMessage, hparse]
    have hdelta := onDelta_eq hchannel hv
    rw [← getSequenceNumber_eq] at hdelta
    rw [hcall, hdelta]
    refine ⟨rfl, ⟨_, AList.lookup_insert _, ?_⟩, rfl, decoded_transmits laws hv hmatrix⟩
    rw [deltas_addToHistory, if_pos rfl]
  · exact (hstored.perform (.connected joiner)).2
  · intro channel layer hchannel delta hdelta hmatrix
    have hjoined : joinedChannel l joiner = channel := by
      rw [joinedChannel, hchannel, Option.getD_some]
    have hv := (hstored joiner.channel channel hchannel layer delta hdelta).2
    refine ⟨?_, decoded_transmits laws hv hmatrix⟩
    rw [onConnected_eq hstored, hjoined]
    apply List.mem_append_left
    exact List.mem_map_of_mem (mem_replay.2 ⟨layer, hdelta⟩)

end

section

attribute [local instance] Usd.sample

/-- A second user's update that names its path twice, with a third user in the room. -/
theorem relay_lossless_repeated_path :
    let update (value : String) : Json := .object [("path", .string "/a"), ("spec", .int 6),
      ("fields", .array [.object [("key", .string "kind"),
        ("value", .object [("type", .string "string"), ("data", .string value)])]])]
    let text : Json := .object [("event", .string "Delta::Event"), ("body", .object
      [("layer", .string "layer"), ("user", .string "B"),
        ("updates", .array [update "x", update "y"])])]
    let connections : List Connection := [⟨1, "room", "A"⟩, ⟨2, "room", "B"⟩, ⟨3, "room", "C"⟩]
    let l := Runs.final serve {} (connections.map ServerCall.connected)
    (l.onMessage ⟨2, "room", "B"⟩ text).fault = none ∧
      (l.onMessage ⟨2, "room", "B"⟩ text).sent.map (·.1.id) = [1, 3, 2] := by
  intro update text connections l
  let spec : SpecData :=
    { specType := .prim, fields := [("kind", .string "x"), ("kind", .string "y")] }
  let v : DeltaEvent :=
    ⟨"layer", "B", none, (oneField "/a" .prim "kind" (.string "x")).insert "/a" spec⟩
  have hparse : parseEvent text = some ⟨"Delta::Event", .delta v⟩ := rfl
  have hmatrix : MatrixFree v.updates := by
    have hkind : ∀ value, ¬ContainsMatrix (VtValue.string value) := fun _ h => by cases h
    refine AllValues.insert (AllValues.insert (.empty _) _ fun field hfield => ?_) _
      fun field hfield => ?_
    · rw [List.mem_singleton.1 hfield]
      exact hkind "x"
    · simp only [spec, List.mem_cons, List.not_mem_nil, or_false] at hfield
      rcases hfield with rfl | rfl
      · exact hkind "x"
      · exact hkind "y"
  have hresult := (relay_lossless sample_laws (connections.map ServerCall.connected)).1
    ⟨2, "room", "B"⟩ text _ v ⟨"room", connections, ∅⟩ hparse hmatrix rfl
  refine ⟨hresult.1, ?_⟩
  rw [hresult.2.2.1, List.map_append, List.map_map]
  rfl

end

end RenderStudioKit.Proofs
