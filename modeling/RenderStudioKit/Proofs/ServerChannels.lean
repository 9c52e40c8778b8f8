import RenderStudioKit.Lib.Purge
import RenderStudioKit.Proofs.Relay

/-!
# The channels of the server

All channels share one map and one handler, but a call reads and changes nothing except the
channel of its connection, and of that channel a message reads and changes nothing except the
history of the layer it is about.
-/

namespace RenderStudioKit.Proofs

open API

section

variable [Usd]

/-- What a message is to the server. -/
def messageBody (text : Json) : Option Body := (parseEvent text).map Event.body

/-- What a call makes of the channel of its connection. -/
def channelStep (channel : Option Channel) : ServerCall → Option Channel
  | .connected c => some ((channel.getD { mName := c.channel }).addConnection c)
  | .disconnected c => channel.bind fun channel =>
      if (channel.removeConnection c).empty then none else some (channel.removeConnection c)
  | .message _ text => channel.map fun channel =>
    match messageBody text with
    | some (.delta v) =>
      channel.addToHistory { v with sequence := some (channel.getSequenceNumber v.layer) }
    | some (.reload v) => channel.clearHistory v.layer
    | _ => channel

/-- What a call sends, given the channel of its connection. -/
def channelSent (channel : Option Channel) : ServerCall → List (Connection × Event)
  | .connected c => (replay (channel.getD { mName := c.channel })).map
      (fun delta => (c, delta.event)) ++ [(c, historyEvent)]
  | .disconnected _ => []
  | .message author text => channel.elim [] fun channel =>
    match messageBody text with
    | some (.delta v) =>
      (channel.receivers author).map (·, DeltaEvent.event
          { v with sequence := some (channel.getSequenceNumber v.layer) }) ++
        [(author, AcknowledgeEvent.event
          ⟨v.layer, v.updates.keys, channel.getSequenceNumber v.layer⟩)]
    | some (.reload v) =>
      (channel.receivers author).map (·, ReloadEvent.event
        { v with sequence := some (channel.getSequenceNumber v.layer) })
    | _ => []

lemma serve_message {l : Logic} (author : Connection) (text : Json) :
    ServerCall.perform l (.message author text) =
      match messageBody text with
      | some (.delta v) => l.onDelta author v
      | some (.reload v) => l.onReload author v
      | _ => { logic := l, fault := parseFault text } := by
  change l.onMessage author text = _
  unfold Logic.onMessage messageBody
  cases hparse : parseEvent text with
  | none => rfl
  | some event =>
    rw [parseFault_eq_none hparse]
    obtain ⟨name, body⟩ := event
    cases body <;> rfl

lemma messageBody_decoded {text : Json} {v : DeltaEvent} (h : messageBody text = some (.delta v)) :
    AllValues Decoded v.updates := by
  unfold messageBody at h
  cases hparse : parseEvent text with
  | none => simp [hparse] at h
  | some event =>
    rw [hparse] at h
    exact (parseEvent_decoded hparse).values v (Option.some.inj h)

/-- A call reads and changes the channel of its connection alone. -/
structure ActsOnChannel (l : Logic) (call : ServerCall) : Prop where
  lookup : ∀ name, (serve l call).mChannels.lookup name =
    if name = call.connection.channel then channelStep (l.mChannels.lookup name) call
    else l.mChannels.lookup name
  sent : (call.perform l).sent = channelSent (l.mChannels.lookup call.connection.channel) call

lemma ActsOnChannel.insert {l : Logic} {call : ServerCall} {old : Option Channel}
    (channel : Channel) (hold : l.mChannels.lookup call.connection.channel = old)
    (hperform : call.perform l =
      { logic := ⟨l.mChannels.insert call.connection.channel channel⟩
        sent := channelSent old call })
    (hstep : channelStep old call = some channel) : ActsOnChannel l call := by
  refine ⟨fun name => ?_, ?_⟩
  · unfold serve
    rw [hperform]
    dsimp only
    split_ifs with hname
    · rw [hname, AList.lookup_insert, hold, hstep]
    · exact AList.lookup_insert_ne hname
  · rw [hperform, hold]

lemma ActsOnChannel.same {l : Logic} {call : ServerCall} {old : Option Channel} {fault : Option Fault}
    (hold : l.mChannels.lookup call.connection.channel = old)
    (hperform : call.perform l = { logic := l, fault := fault }) (hstep : channelStep old call = old)
    (hsent : channelSent old call = []) : ActsOnChannel l call := by
  refine ⟨fun name => ?_, ?_⟩
  · unfold serve
    rw [hperform]
    dsimp only
    split_ifs with hname
    · rw [hname, hold, hstep]
    · rfl
  · rw [hperform, hold, hsent]

lemma acts_disconnected (l : Logic) (c : Connection) : ActsOnChannel l (.disconnected c) := by
  have hperform : ServerCall.perform l (.disconnected c) = l.onDisconnected c := rfl
  unfold Logic.onDisconnected at hperform
  cases hlookup : l.mChannels.lookup c.channel with
  | none =>
    rw [hlookup] at hperform
    exact .same hlookup hperform rfl rfl
  | some channel =>
    rw [hlookup] at hperform
    dsimp only at hperform
    by_cases hempty : (channel.removeConnection c).empty = true
    · rw [if_pos hempty] at hperform
      refine ⟨fun name => ?_, by rw [hperform]; rfl⟩
      have hserve : serve l (.disconnected c) = ⟨l.mChannels.erase c.channel⟩ := by
        rw [serve, hperform]
      rw [hserve]
      by_cases hname : name = c.channel
      · refine Eq.trans ?_ (if_pos hname).symm
        rw [hname, AList.lookup_erase, hlookup]
        exact (if_pos hempty).symm
      · exact (AList.lookup_erase_ne hname).trans (if_neg hname).symm
    · rw [if_neg hempty] at hperform
      exact .insert _ hlookup hperform (if_neg hempty)

lemma acts_delta {l : Logic} {author : Connection} {text : Json} {v : DeltaEvent}
    (hbody : messageBody text = some (.delta v)) : ActsOnChannel l (.message author text) := by
  have hperform : ServerCall.perform l (.message author text) = l.onDelta author v := by
    rw [serve_message, hbody]
  cases hlookup : l.mChannels.lookup author.channel with
  | none =>
    rw [Logic.onDelta, hlookup] at hperform
    exact .same hlookup hperform rfl rfl
  | some channel =>
    rw [onDelta_eq hlookup (messageBody_decoded hbody), ← getSequenceNumber_eq] at hperform
    refine .insert (channel.addToHistory
      { v with sequence := some (channel.getSequenceNumber v.layer) }) hlookup (hperform.trans ?_) ?_
    · rw [channelSent, Option.elim_some, hbody]
      rfl
    · rw [channelStep, Option.map_some, hbody]

lemma acts_reload {l : Logic} {author : Connection} {text : Json} {v : ReloadEvent}
    (hbody : messageBody text = some (.reload v)) : ActsOnChannel l (.message author text) := by
  have hperform : ServerCall.perform l (.message author text) = l.onReload author v := by
    rw [serve_message, hbody]
  cases hlookup : l.mChannels.lookup author.channel with
  | none =>
    rw [Logic.onReload, hlookup] at hperform
    exact .same hlookup hperform rfl rfl
  | some channel =>
    rw [onReload_eq hlookup v, ← getSequenceNumber_eq] at hperform
    refine .insert (channel.clearHistory v.layer) hlookup (hperform.trans ?_) ?_
    · rw [channelSent, Option.elim_some, hbody]
      rfl
    · rw [channelStep, Option.map_some, hbody]

lemma channel_ignored {author : Connection} {text : Json}
    (hdelta : ∀ v, messageBody text ≠ some (.delta v))
    (hreload : ∀ v, messageBody text ≠ some (.reload v)) (channel : Option Channel) :
    channelStep channel (.message author text) = channel ∧
      channelSent channel (.message author text) = [] := by
  cases hbody : messageBody text with
  | none => cases channel <;> simp [channelStep, channelSent, hbody]
  | some body =>
    cases body with
    | delta v => exact absurd hbody (hdelta v)
    | reload v => exact absurd hbody (hreload v)
    | history | acknowledge => cases channel <;> simp [channelStep, channelSent, hbody]

lemma acts_ignored {l : Logic} {author : Connection} {text : Json}
    (hdelta : ∀ v, messageBody text ≠ some (.delta v))
    (hreload : ∀ v, messageBody text ≠ some (.reload v)) :
    ActsOnChannel l (.message author text) := by
  have hignored : ∀ channel, channelStep channel (.message author text) = channel ∧
      channelSent channel (.message author text) = [] := channel_ignored hdelta hreload
  have hperform := serve_message (l := l) author text
  cases hbody : messageBody text with
  | none =>
    rw [hbody] at hperform
    exact .same rfl hperform (hignored _).1 (hignored _).2
  | some body =>
    rw [hbody] at hperform
    cases body with
    | delta v => exact absurd hbody (hdelta v)
    | reload v => exact absurd hbody (hreload v)
    | history | acknowledge => exact .same rfl hperform (hignored _).1 (hignored _).2

/-- A call acts on the channel of its connection alone. -/
theorem acts_on_channel {l : Logic} (h : Stored l) (call : ServerCall) :
    ActsOnChannel l call := by
  cases call with
  | connected c => exact .insert _ rfl (onConnected_eq h c) rfl
  | disconnected c => exact acts_disconnected l c
  | message author text =>
    by_cases hdelta : ∃ v, messageBody text = some (.delta v)
    · obtain ⟨v, hbody⟩ := hdelta
      exact acts_delta hbody
    · by_cases hreload : ∃ v, messageBody text = some (.reload v)
      · obtain ⟨v, hbody⟩ := hreload
        exact acts_reload hbody
      · exact acts_ignored (fun v hv => hdelta ⟨v, hv⟩) fun v hv => hreload ⟨v, hv⟩

end

end RenderStudioKit.Proofs
