import RenderStudioKit.Lib.Purge
import RenderStudioKit.Proofs.ServerChannels
import RenderStudioKit.Proofs.ServerNumbering

/-!
# Channels and layers do not interfere

Taking the calls of other channels out of a run changes nothing for the connections of a channel,
and taking the deltas and reloads of other layers out of it changes nothing they are sent about a
layer.
-/

namespace RenderStudioKit.Proofs

open API

section

variable [Usd]

/-- The events the server sends in a run, in the order of sending. -/
def sentBy (run : List ServerCall) : List (Connection × Event) :=
  Runs.outputs serve (fun l call => (call.perform l).sent) {} run

def sentTo (channel : String) (s : Connection × Event) : Bool := s.1.channel = channel

/-- A call of a connection of the channel. -/
def callOf (channel : String) (call : ServerCall) : Bool := call.connection.channel = channel

/-- A delta, an acknowledge or a reload of the layer. -/
def isAbout (layer : String) (event : Event) : Bool :=
  match event.body with
  | .delta v => v.layer = layer
  | .acknowledge v => v.layer = layer
  | .history => false
  | .reload v => v.layer = layer

/-- A message with a delta or a reload of another layer. -/
def aboutOther (layer : String) : ServerCall → Bool
  | .message _ text =>
    match messageBody text with
    | some (.delta v) => v.layer ≠ layer
    | some (.reload v) => v.layer ≠ layer
    | _ => false
  | _ => false

/-- The connections of a channel belong to it. -/
structure Housed (l : Logic) : Prop where
  stored : Stored l
  members : ∀ name channel, l.mChannels.lookup name = some channel →
    ∀ d ∈ channel.mConnections, d.channel = name

lemma mem_receivers_connections {channel : Channel} {author c : Connection}
    (h : c ∈ channel.receivers author) : c ∈ channel.mConnections :=
  List.mem_of_mem_filter h

lemma channelStep_members {old : Option Channel} {call : ServerCall} {channel : Channel}
    (h : channelStep old call = some channel) {d : Connection} (hd : d ∈ channel.mConnections) :
    d = call.connection ∨ ∃ channel', old = some channel' ∧ d ∈ channel'.mConnections := by
  cases call with
  | connected c =>
    rw [← Option.some.inj h] at hd
    rcases List.mem_append.1 hd with hold | hnew
    · cases old with
      | none => exact absurd hold List.not_mem_nil
      | some channel' => exact .inr ⟨channel', rfl, hold⟩
    · exact .inl (List.mem_singleton.1 hnew)
  | disconnected c =>
    obtain ⟨channel', rfl, hleft⟩ := Option.bind_eq_some_iff.1 h
    split_ifs at hleft
    rw [← Option.some.inj hleft] at hd
    exact .inr ⟨channel', rfl, List.mem_of_mem_filter hd⟩
  | message author text =>
    obtain ⟨channel', rfl, hchanged⟩ := Option.map_eq_some_iff.1 h
    right
    refine ⟨channel', rfl, ?_⟩
    split at hchanged
    · rw [← hchanged] at hd
      exact hd
    · rw [← hchanged] at hd
      unfold Channel.clearHistory at hd
      split at hd <;> exact hd
    · rwa [hchanged]

lemma channelSent_receivers {channel : Option Channel} {call : ServerCall}
    {s : Connection × Event} (h : s ∈ channelSent channel call) :
    s.1 = call.connection ∨ ∃ channel', channel = some channel' ∧ s.1 ∈ channel'.mConnections := by
  cases call with
  | connected c =>
    left
    rcases List.mem_append.1 h with hreplayed | hlast
    · obtain ⟨delta, -, rfl⟩ := List.mem_map.1 hreplayed
      rfl
    · rw [List.mem_singleton.1 hlast]
      rfl
  | disconnected c => exact absurd h List.not_mem_nil
  | message author text =>
    cases channel with
    | none => exact absurd h List.not_mem_nil
    | some channel =>
      rw [channelSent, Option.elim_some] at h
      split at h
      · rcases List.mem_append.1 h with hrelayed | hacknowledged
        · obtain ⟨d, hd, rfl⟩ := List.mem_map.1 hrelayed
          exact .inr ⟨channel, rfl, mem_receivers_connections hd⟩
        · rw [List.mem_singleton.1 hacknowledged]
          exact .inl rfl
      · obtain ⟨d, hd, rfl⟩ := List.mem_map.1 h
        exact .inr ⟨channel, rfl, mem_receivers_connections hd⟩
      · exact absurd h List.not_mem_nil

lemma housed_init : Housed {} := by
  refine ⟨stored_init, fun name channel h => ?_⟩
  exact absurd h (by simp)

lemma Housed.serve {l : Logic} (h : Housed l) (call : ServerCall) : Housed (serve l call) := by
  refine ⟨(h.stored.perform call).1, fun name channel hlookup d hd => ?_⟩
  rw [(acts_on_channel h.stored call).lookup] at hlookup
  split_ifs at hlookup with hname
  · rcases channelStep_members hlookup hd with rfl | ⟨old, hold, hmem⟩
    · exact hname.symm
    · exact h.members name old hold d hmem
  · exact h.members name channel hlookup d hd

lemma Housed.sent {l : Logic} (h : Housed l) {call : ServerCall} {s : Connection × Event}
    (hs : s ∈ (call.perform l).sent) : s.1.channel = call.connection.channel := by
  rw [(acts_on_channel h.stored call).sent] at hs
  rcases channelSent_receivers hs with hcaller | ⟨channel, hchannel, hmem⟩
  · rw [hcaller]
  · exact h.members _ channel hchannel s.1 hmem

/-- The calls of other channels can be taken out of a run. -/
theorem channel_purge (run : List ServerCall) (channel : String) :
    (Runs.final serve {} run).mChannels.lookup channel =
        (Runs.final serve {} (run.filter (callOf channel))).mChannels.lookup channel ∧
      (sentBy run).filter (sentTo channel) =
        (sentBy (run.filter (callOf channel))).filter (sentTo channel) := by
  refine Runs.purge Housed (fun l => l.mChannels.lookup channel)
    (fun l call h => h.serve call) ?_ ?_ housed_init housed_init rfl run
  · intro l call h hcall
    have hother : call.connection.channel ≠ channel := of_decide_eq_false hcall
    constructor
    · exact ((acts_on_channel h.stored call).lookup channel).trans (if_neg hother.symm)
    · apply List.filter_eq_nil_iff.2
      intro s hs hto
      exact hother ((h.sent hs).symm.trans (of_decide_eq_true hto))
  · intro l l' call h h' hview hcall
    have hown : call.connection.channel = channel := of_decide_eq_true hcall
    have hacts := acts_on_channel h.stored call
    have hacts' := acts_on_channel h'.stored call
    constructor
    · rw [hacts.lookup, hacts'.lookup, hview]
    · rw [hacts.sent, hacts'.sent, hown, hview]

/-- What of a channel matters for one layer: who is there and the deltas of the layer. -/
def layerView (layer : String) (channel : Option Channel) :
    Option (List Connection × List DeltaEvent) :=
  channel.map fun channel => (channel.mConnections, deltas channel layer)

lemma layerView_cases {layer : String} {channel channel' : Option Channel}
    (h : layerView layer channel = layerView layer channel') :
    (channel = none ∧ channel' = none) ∨ ∃ x y, channel = some x ∧ channel' = some y ∧
      x.mConnections = y.mConnections ∧ deltas x layer = deltas y layer := by
  cases channel with
  | none =>
    cases channel' with
    | none => exact .inl ⟨rfl, rfl⟩
    | some y => exact absurd h (by simp [layerView])
  | some x =>
    cases channel' with
    | none => exact absurd h (by simp [layerView])
    | some y =>
      obtain ⟨hconnections, hdeltas⟩ := Prod.mk.inj (Option.some.inj h)
      exact .inr ⟨x, y, rfl, rfl, hconnections, hdeltas⟩

lemma isAbout_delta (layer : String) (v : DeltaEvent) :
    isAbout layer v.event = decide (v.layer = layer) := rfl

lemma replay_about {channel : Channel} (h : StoredChannel channel) (c : Connection)
    (layer : String) :
    (((replay channel).map fun delta => (c, delta.event)) ++ [(c, historyEvent)]).filter
        (fun s => isAbout layer s.2) =
      (deltas channel layer).map fun delta => (c, delta.event) := by
  have hlast : isAbout layer historyEvent = false := rfl
  rw [List.filter_append, List.filter_map, ← replay_filter h layer]
  simp only [List.filter_cons, hlast, List.filter_nil, Function.comp_def, isAbout_delta]
  exact List.append_nil _

lemma removeConnection_empty {x y : Channel} (h : x.mConnections = y.mConnections)
    (c : Connection) : (x.removeConnection c).empty = (y.removeConnection c).empty := by
  simp only [Channel.empty, Channel.removeConnection, h]

lemma message_about {layer : String} {author : Connection} {text : Json}
    (h : aboutOther layer (.message author text) = false) :
    (∃ v : DeltaEvent, messageBody text = some (.delta v) ∧ v.layer = layer) ∨
      (∃ v : ReloadEvent, messageBody text = some (.reload v) ∧ v.layer = layer) ∨
        (∀ v, messageBody text ≠ some (.delta v)) ∧ ∀ v, messageBody text ≠ some (.reload v) := by
  simp only [aboutOther] at h
  split at h
  · rename_i v hbody
    exact .inl ⟨v, hbody, by simpa using h⟩
  · rename_i v hbody
    exact .inr (.inl ⟨v, hbody, by simpa using h⟩)
  · rename_i hdelta hreload
    exact .inr (.inr ⟨hdelta, hreload⟩)

section

variable {layer : String} {channel channel' : Option Channel}
  (h : layerView layer channel = layerView layer channel')

include h

/-- A call that says nothing about other layers reads only what matters for the layer. -/
lemma layerView_channelStep {call : ServerCall} (hcall : aboutOther layer call = false) :
    layerView layer (channelStep channel call) = layerView layer (channelStep channel' call) := by
  cases call with
  | connected c =>
    have hjoined : ∀ old : Option Channel, layerView layer (channelStep old (.connected c)) =
        some (((layerView layer old).elim [] Prod.fst) ++ [c],
          (layerView layer old).elim [] Prod.snd) := by
      intro old
      cases old <;> rfl
    rw [hjoined, hjoined, h]
  | disconnected c =>
    rcases layerView_cases h with ⟨rfl, rfl⟩ | ⟨x, y, rfl, rfl, hconnections, hdeltas⟩
    · rfl
    · have hleft : (x.removeConnection c).mConnections = (y.removeConnection c).mConnections := by
        simp only [Channel.removeConnection, hconnections]
      simp only [channelStep, Option.bind_some, removeConnection_empty hconnections]
      split_ifs
      · rfl
      · exact congrArg some (Prod.ext hleft hdeltas)
  | message author text =>
    rcases layerView_cases h with ⟨rfl, rfl⟩ | ⟨x, y, rfl, rfl, hconnections, hdeltas⟩
    · rfl
    · rcases message_about hcall with ⟨v, hbody, rfl⟩ | ⟨v, hbody, rfl⟩ | ⟨hdelta, hreload⟩
      · simp only [channelStep, Option.map_some, hbody, layerView, getSequenceNumber_eq,
          deltas_addToHistory, if_true, hdeltas]
        exact congrArg some (Prod.ext hconnections rfl)
      · simp only [channelStep, Option.map_some, hbody, layerView, deltas_clearHistory,
          clearHistory_connections, if_true, hconnections]
      · rw [(channel_ignored hdelta hreload _).1, (channel_ignored hdelta hreload _).1]
        exact h

lemma about_channelSent (hstored : ∀ x ∈ channel, StoredChannel x)
    (hstored' : ∀ x ∈ channel', StoredChannel x) {call : ServerCall}
    (hcall : aboutOther layer call = false) :
    (channelSent channel call).filter (fun s => isAbout layer s.2) =
      (channelSent channel' call).filter (fun s => isAbout layer s.2) := by
  cases call with
  | connected c =>
    have hreplayed : ∀ old : Option Channel, (∀ x ∈ old, StoredChannel x) →
        (channelSent old (.connected c)).filter (fun s => isAbout layer s.2) =
          ((layerView layer old).elim [] Prod.snd).map fun delta => (c, delta.event) := by
      intro old hold
      cases old with
      | none => rfl
      | some x => exact replay_about (hold x rfl) c layer
    rw [hreplayed _ hstored, hreplayed _ hstored', h]
  | disconnected c => rfl
  | message author text =>
    rcases layerView_cases h with ⟨rfl, rfl⟩ | ⟨x, y, rfl, rfl, hconnections, hdeltas⟩
    · rfl
    · rcases message_about hcall with ⟨v, hbody, rfl⟩ | ⟨v, hbody, rfl⟩ | ⟨hdelta, hreload⟩
      · simp only [channelSent, Option.elim_some, hbody, getSequenceNumber_eq, Channel.receivers,
          hconnections, hdeltas]
      · simp only [channelSent, Option.elim_some, hbody, getSequenceNumber_eq, Channel.receivers,
          hconnections, hdeltas]
      · rw [(channel_ignored hdelta hreload _).2, (channel_ignored hdelta hreload _).2]

end

lemma other_layer_silent {layer : String} {call : ServerCall} (hcall : aboutOther layer call = true)
    (channel : Option Channel) :
    layerView layer (channelStep channel call) = layerView layer channel ∧
      (channelSent channel call).filter (fun s => isAbout layer s.2) = [] := by
  cases call with
  | connected c => exact absurd hcall Bool.false_ne_true
  | disconnected c => exact absurd hcall Bool.false_ne_true
  | message author text =>
    cases channel with
    | none => exact ⟨rfl, rfl⟩
    | some channel =>
      simp only [aboutOther] at hcall
      split at hcall
      · rename_i v hbody
        have hlayer : v.layer ≠ layer := by simpa using hcall
        have hconnections : ∀ d : DeltaEvent, (channel.addToHistory d).mConnections =
            channel.mConnections := fun _ => rfl
        simp [channelStep, channelSent, hbody, layerView, deltas_addToHistory, hlayer.symm, isAbout,
          DeltaEvent.event, AcknowledgeEvent.event, hlayer, hconnections]
      · rename_i v hbody
        have hlayer : v.layer ≠ layer := by simpa using hcall
        simp [channelStep, channelSent, hbody, layerView, deltas_clearHistory, hlayer.symm, isAbout,
          ReloadEvent.event, hlayer]
      · exact absurd hcall Bool.false_ne_true

/-- The deltas and reloads of other layers can be taken out of the calls of a channel. -/
theorem layer_purge (run : List ServerCall) (channel layer : String) :
    let about := run.filter fun call => !(callOf channel call && aboutOther layer call)
    layerView layer ((Runs.final serve {} run).mChannels.lookup channel) =
        layerView layer ((Runs.final serve {} about).mChannels.lookup channel) ∧
      (sentBy run).filter (fun s => sentTo channel s && isAbout layer s.2) =
        (sentBy about).filter (fun s => sentTo channel s && isAbout layer s.2) := by
  refine Runs.purge Housed (fun l => layerView layer (l.mChannels.lookup channel))
    (fun l call h => h.serve call) ?_ ?_ housed_init housed_init rfl run
  · intro l call h hcall
    obtain ⟨hown, hother⟩ : callOf channel call = true ∧ aboutOther layer call = true := by
      simpa using hcall
    have hacts := acts_on_channel h.stored call
    have hsilent := other_layer_silent hother
    have hchannel : call.connection.channel = channel := of_decide_eq_true hown
    constructor
    · rw [hacts.lookup, if_pos hchannel.symm]
      exact (hsilent _).1
    · rw [hacts.sent, ← List.filter_filter, (hsilent _).2, List.filter_nil]
  · intro l l' call h h' hview hcall
    have hacts := acts_on_channel h.stored call
    have hacts' := acts_on_channel h'.stored call
    by_cases hchannel : call.connection.channel = channel
    · have hother : aboutOther layer call = false := by
        simpa [callOf, hchannel] using hcall
      constructor
      · rw [hacts.lookup, hacts'.lookup, if_pos hchannel.symm, if_pos hchannel.symm]
        exact layerView_channelStep hview hother
      · rw [← List.filter_filter, ← List.filter_filter, hacts.sent, hacts'.sent, hchannel,
          about_channelSent hview (h.stored channel) (h'.stored channel) hother]
    · have hnothing : ∀ l : Logic, Housed l →
          (call.perform l).sent.filter (fun s => sentTo channel s && isAbout layer s.2) = [] := by
        intro l h
        apply List.filter_eq_nil_iff.2
        intro s hs hseen
        have hto : s.1.channel = channel := of_decide_eq_true (Bool.and_eq_true_iff.1 hseen).1
        exact hchannel ((h.sent hs).symm.trans hto)
      constructor
      · rw [hacts.lookup, hacts'.lookup, if_neg (Ne.symm hchannel), if_neg (Ne.symm hchannel)]
        exact hview
      · rw [hnothing l h, hnothing l' h']

/-- Neither channels nor layers interfere: the calls of other channels change neither what the
connections of a channel are sent nor the channel with its history, and the deltas and reloads of
other layers change nothing its connections are sent about a layer. -/
theorem channels_and_layers_separate (run : List ServerCall) (channel : String) :
    let own := run.filter (callOf channel)
    (sentBy run).filter (sentTo channel) = (sentBy own).filter (sentTo channel) ∧
      (Runs.final serve {} run).mChannels.lookup channel =
        (Runs.final serve {} own).mChannels.lookup channel ∧
      ∀ layer, let about := run.filter fun call => !(callOf channel call && aboutOther layer call)
        ∀ c : Connection, c.channel = channel →
          (sentBy run).filter (fun s => s.1 = c ∧ isAbout layer s.2) =
            (sentBy about).filter (fun s => s.1 = c ∧ isAbout layer s.2) := by
  intro own
  obtain ⟨hchannel, hsent⟩ := channel_purge run channel
  refine ⟨hsent, hchannel, ?_⟩
  intro layer about c hc
  have hlayer := (layer_purge run channel layer).2
  have hone : ∀ sent : List (Connection × Event),
      sent.filter (fun s => s.1 = c ∧ isAbout layer s.2) =
        (sent.filter fun s => sentTo channel s && isAbout layer s.2).filter (·.1 = c) := by
    intro sent
    rw [List.filter_filter]
    congr 1
    funext s
    by_cases hs : s.1 = c
    · simp [hs, sentTo, hc]
    · simp [hs]
  rw [hone, hone, hlayer]

end

end RenderStudioKit.Proofs
