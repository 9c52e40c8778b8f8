import RenderStudioKit.Proofs.ClientTexts
import RenderStudioKit.Proofs.Membership
import RenderStudioKit.Proofs.NonInterference
import RenderStudioKit.Proofs.SessionSteps

/-!
# What a connection learns about a layer

The history of a layer changes with the channel, and every call sends a connection exactly the
updates of the layer that it has to know about: a relayed delta, an acknowledge, or the history.
-/

namespace RenderStudioKit.Proofs

open API

section

variable [Usd]

/-- The stored deltas of the layer, none if there is no channel. -/
def historyOf (channel : Option Channel) (layer : String) : List DeltaEvent :=
  channel.elim [] (deltas · layer)

/-- The numbered updates of the layer among what is sent to a connection. -/
def told (sent : List (Connection × Event)) (c : Connection) (layer : String) :
    List (Nat × HashTable) :=
  (Session.received sent c).filterMap (layerUpdate layer)

/-- What the text of a delta tells about its layer. -/
def relayed (v : DeltaEvent) : Option (Nat × HashTable) :=
  v.event.toJson.toOption.bind (layerUpdate v.layer)

/-- The message is a delta some client wrote or nothing that the server takes. -/
def Deltas (text : Json) : Prop := ∃ v : DeltaEvent, v.event.toJson = .ok text

lemma relayed_eq (laws : UsdLaws) {v : DeltaEvent} (hv : AllValues RoundTrips v.updates)
    {number : Nat} (hnumber : v.sequence = some number) :
    ∃ table, relayed v = some (number, table) ∧ SameTable table v.updates := by
  obtain ⟨text, v', htext, hsame, -, hupdate⟩ := layerUpdate_delta_text laws hv
  refine ⟨v'.updates, ?_, hsame.updates⟩
  rw [relayed, htext, Except.toOption, Option.bind_some, hupdate, hnumber, Option.map_some]

lemma body_roundTrips (laws : UsdLaws) {text : Json} (htext : Deltas text) {v : DeltaEvent}
    (hbody : messageBody text = some (.delta v)) : AllValues RoundTrips v.updates := by
  obtain ⟨written, hwritten⟩ := htext
  have hdecoded := messageBody_decoded hbody
  unfold messageBody at hbody
  obtain ⟨⟨name, body⟩, hparse, rfl⟩ := Option.map_eq_some_iff.1 hbody
  have hmatrix := parseEvent_matrixFree hwritten hparse
  intro path spec hspec field hfield
  exact ((hdecoded path spec hspec field hfield).relayed
    (hmatrix path spec hspec field hfield)).roundTrips laws

lemma body_of_delta {text : Json} (htext : Deltas text) {body : Body}
    (hbody : messageBody text = some body) : ∃ v, body = .delta v := by
  obtain ⟨written, hwritten⟩ := htext
  unfold messageBody at hbody
  obtain ⟨e, hparse, rfl⟩ := Option.map_eq_some_iff.1 hbody
  obtain ⟨v, rfl, -⟩ := parseEvent_delta hwritten hparse
  exact ⟨v, rfl⟩

lemma historyOf_connected (channel : Option Channel) (c : Connection) (layer : String) :
    historyOf (channelStep channel (.connected c)) layer = historyOf channel layer := by
  cases channel with
  | none => rfl
  | some channel => rfl

lemma historyOf_disconnected (channel : Option Channel) (c : Connection) (layer : String) :
    historyOf (channelStep channel (.disconnected c)) layer = historyOf channel layer ∨
      channelStep channel (.disconnected c) = none := by
  cases channel with
  | none => exact .inl rfl
  | some channel =>
    simp only [channelStep, Option.bind_some]
    split_ifs
    · exact .inr rfl
    · exact .inl rfl

lemma historyOf_delta {text : Json} {v : DeltaEvent} (hbody : messageBody text = some (.delta v))
    (channel : Channel) (author : Connection) (layer : String) :
    historyOf (channelStep (some channel) (.message author text)) layer =
      if layer = v.layer then
        deltas channel layer ++ [{ v with sequence := some ((deltas channel layer).length + 1) }]
      else deltas channel layer := by
  simp only [channelStep, Option.map_some, hbody, historyOf, Option.elim_some, getSequenceNumber_eq,
    deltas_addToHistory]
  split_ifs with hlayer
  · rw [hlayer]
  · rfl

lemma received_copies (receivers : List Connection) (event : Event) (c : Connection) {text : Json}
    (htext : event.toJson = .ok text) :
    Session.received (receivers.map (·, event)) c = List.replicate (receivers.count c) text := by
  induction receivers with
  | nil => rfl
  | cons receiver receivers ih =>
    rw [List.map_cons, ← List.singleton_append, received_append, ih]
    by_cases hreceiver : receiver = c
    · subst hreceiver
      rw [received_self, htext, List.count_cons_self, List.replicate_succ]
      rfl
    · rw [received_other hreceiver, List.count_cons_of_ne hreceiver]
      rfl

lemma told_append (sent sent' : List (Connection × Event)) (c : Connection) (layer : String) :
    told (sent ++ sent') c layer = told sent c layer ++ told sent' c layer := by
  unfold told
  rw [received_append, List.filterMap_append]

/-- What a message that carries a delta of the layer tells a connection. -/
theorem told_delta (laws : UsdLaws) {text : Json} {v : DeltaEvent}
    (hbody : messageBody text = some (.delta v)) (hv : AllValues RoundTrips v.updates)
    (channel : Channel) (author c : Connection) :
    let number := (deltas channel v.layer).length + 1
    ∃ table, SameTable table v.updates ∧
      relayed { v with sequence := some number } = some (number, table) ∧
      told (channelSent (some channel) (.message author text)) c v.layer =
        List.replicate ((channel.receivers author).count c) (number, table) ++
          if author = c then [(number, acknowledgeUpdates ⟨v.layer, v.updates.keys, number⟩)]
          else [] := by
  intro number
  let stored : DeltaEvent := { v with sequence := some number }
  have hstored : AllValues RoundTrips stored.updates := hv
  obtain ⟨relay, v', hrelay, hsame, -, hupdate⟩ := layerUpdate_delta_text laws hstored
  obtain ⟨reply, hreply⟩ := acknowledge_event_encodes ⟨v.layer, v.updates.keys, number⟩
  have hreplied := layerUpdate_acknowledge_text laws hreply
  refine ⟨v'.updates, hsame.updates, ?_, ?_⟩
  · rw [relayed, hrelay, Except.toOption, Option.bind_some, hupdate]
    rfl
  · rw [channelSent, Option.elim_some, hbody]
    dsimp only
    rw [getSequenceNumber_eq, told_append, told, received_copies _ _ _ hrelay,
      List.filterMap_replicate_of_some hupdate]
    congr 1
    unfold told
    by_cases hauthor : author = c
    · rw [if_pos hauthor, hauthor, received_self, hreply]
      simp only [Except.toOption, Option.toList_some, List.filterMap_cons, List.filterMap_nil,
        hreplied]
    · rw [if_neg hauthor, received_other hauthor]
      rfl

lemma told_other {text : Json} {v : DeltaEvent} (hbody : messageBody text = some (.delta v))
    {layer : String} (hlayer : v.layer ≠ layer) (channel : Option Channel)
    (author c : Connection) : told (channelSent channel (.message author text)) c layer = [] := by
  cases channel with
  | none => rfl
  | some channel =>
    refine List.filterMap_eq_nil_iff.2 fun reply hreply => ?_
    obtain ⟨s, hs, hjson⟩ := mem_received hreply
    rw [channelSent, Option.elim_some, hbody] at hs
    rcases List.mem_append.1 hs with hrelayed | hacknowledged
    · obtain ⟨receiver, -, rfl⟩ := List.mem_map.1 hrelayed
      exact (layer_of_delta_text hjson hlayer).2
    · rw [List.mem_singleton.1 hacknowledged] at hjson
      exact layer_of_acknowledge_text hjson hlayer

lemma received_none {sent : List (Connection × Event)} {c : Connection}
    (h : ∀ s ∈ sent, s.1 ≠ c) : Session.received sent c = [] := by
  unfold Session.received
  rw [List.filter_eq_nil_iff.2 fun s hs => by simpa using h s hs, List.filterMap_nil]

/-- Somebody who joins learns the history. -/
theorem mem_told_connected {channel : Option Channel} (hstored : ∀ channel', channel = some channel' →
      StoredChannel channel') (c : Connection) (layer : String) (update : Nat × HashTable) :
    update ∈ told (channelSent channel (.connected c)) c layer ↔
      ∃ v ∈ historyOf channel layer, relayed v = some update := by
  have hdeltas : ∀ layer', deltas (channel.getD { mName := c.channel }) layer' =
      historyOf channel layer' := by
    intro layer'
    cases channel with
    | none => simp [deltas, historyOf]
    | some channel => rfl
  have hreceived : Session.received (channelSent channel (.connected c)) c =
      (replay (channel.getD { mName := c.channel })).filterMap (·.event.toJson.toOption) ++
        historyEvent.toJson.toOption.toList := by
    rw [channelSent, received_append, received_self]
    congr 1
    unfold Session.received
    rw [List.filter_eq_self.2 (by simp), List.filterMap_map]
    rfl
  have hlast : historyEvent.toJson.toOption.toList.filterMap (layerUpdate layer) = [] := by
    obtain ⟨text, htext⟩ := history_event_encodes
    rw [htext]
    simp [Except.toOption, (layerUpdate_history_text layer htext).1]
  rw [told, hreceived, List.filterMap_append, hlast, List.append_nil, List.filterMap_filterMap,
    List.mem_filterMap]
  constructor
  · rintro ⟨v, hv, hupdate⟩
    obtain ⟨layer', hmem⟩ := mem_replay.1 hv
    rw [hdeltas] at hmem
    obtain ⟨text, htext, htold⟩ := Option.bind_eq_some_iff.1 hupdate
    have hjson : v.event.toJson = .ok text := by
      cases hjson : v.event.toJson with
      | error fault => simp [hjson, Except.toOption] at htext
      | ok text' =>
        rw [hjson] at htext
        exact congrArg Except.ok (Option.some.inj htext)
    by_cases hlayer : v.layer = layer
    · have hown : v.layer = layer' := by
        cases channel with
        | none => exact absurd hmem List.not_mem_nil
        | some channel => exact (hstored channel rfl layer' v hmem).1
      rw [← hlayer, hown]
      refine ⟨v, hmem, ?_⟩
      rw [relayed, hlayer]
      exact hupdate
    · rw [(layer_of_delta_text hjson hlayer).2] at htold
      exact absurd htold (by simp)
  · rintro ⟨v, hv, hupdate⟩
    have hown : v.layer = layer := by
      cases channel with
      | none => exact absurd hv List.not_mem_nil
      | some channel => exact (hstored channel rfl layer v hv).1
    refine ⟨v, mem_replay.2 ⟨layer, by rwa [hdeltas]⟩, ?_⟩
    rw [relayed, hown] at hupdate
    exact hupdate

/-- The call is one of a client that reloads nothing. -/
def Peaceful : ServerCall → Prop
  | .message _ text => Deltas text
  | _ => True

lemma historyOf_ignored {author : Connection} {text : Json} (htext : Deltas text)
    (hbody : ∀ v, messageBody text ≠ some (.delta v)) (channel : Option Channel) :
    channelStep channel (.message author text) = channel ∧
      channelSent channel (.message author text) = [] := by
  refine channel_ignored hbody (fun v hreload => ?_) channel
  obtain ⟨v', hv'⟩ := body_of_delta htext hreload
  simp at hv'

lemma not_reload_received {channel : Option Channel} {call : ServerCall} (hcall : Peaceful call)
    {c : Connection} {reply : Json}
    (hreply : reply ∈ Session.received (channelSent channel call) c) : ¬IsReload reply := by
  obtain ⟨s, hs, hjson⟩ := mem_received hreply
  cases call with
  | connected joiner =>
    rcases List.mem_append.1 hs with hreplayed | hlast
    · obtain ⟨v, -, rfl⟩ := List.mem_map.1 hreplayed
      exact not_isReload_delta hjson
    · rw [List.mem_singleton.1 hlast] at hjson
      exact (layerUpdate_history_text "" hjson).2
  | disconnected leaver => exact absurd hs List.not_mem_nil
  | message author text =>
    by_cases hbody : ∃ v, messageBody text = some (.delta v)
    · obtain ⟨v, hbody⟩ := hbody
      cases channel with
      | none => exact absurd hs List.not_mem_nil
      | some channel =>
        rw [channelSent, Option.elim_some, hbody] at hs
        rcases List.mem_append.1 hs with hrelayed | hacknowledged
        · obtain ⟨receiver, -, rfl⟩ := List.mem_map.1 hrelayed
          exact not_isReload_delta hjson
        · rw [List.mem_singleton.1 hacknowledged] at hjson
          exact not_isReload_acknowledge hjson
    · rw [(historyOf_ignored hcall (fun v hv => hbody ⟨v, hv⟩) channel).2] at hs
      exact absurd hs List.not_mem_nil

lemma Housed.received {l : Logic} (h : Housed l) (call : ServerCall) (c : Connection) :
    Session.received (call.perform l).sent c =
      if call.connection.channel = c.channel then
        Session.received (channelSent (l.mChannels.lookup c.channel) call) c
      else [] := by
  by_cases hchannel : call.connection.channel = c.channel
  · rw [if_pos hchannel, (acts_on_channel h.stored call).sent, hchannel]
  · rw [if_neg hchannel]
    apply received_none
    intro s hs hc
    exact hchannel ((h.sent hs).symm.trans (congrArg Connection.channel hc))

/-- The call brings the channel a delta of the layer, and this is what a connection learns. -/
structure Accepts (l : Logic) (call : ServerCall) (c : Connection) (layer : String)
    (channel : Channel) (author : Connection) (v : DeltaEvent) (table : HashTable) : Prop where
  present : l.mChannels.lookup c.channel = some channel
  message : ∃ text, call = .message author text ∧ messageBody text = some (.delta v)
  neighbour : author.channel = c.channel
  subject : v.layer = layer
  values : AllValues RoundTrips v.updates
  sameTable : SameTable table v.updates
  history : historyOf ((serve l call).mChannels.lookup c.channel) layer = deltas channel layer ++
    [{ v with sequence := some ((deltas channel layer).length + 1) }]
  news : told (call.perform l).sent c layer =
    List.replicate ((channel.receivers author).count c) ((deltas channel layer).length + 1, table) ++
      if author = c then [((deltas channel layer).length + 1,
        acknowledgeUpdates ⟨layer, v.updates.keys, (deltas channel layer).length + 1⟩)] else []

section

variable {l : Logic} {call : ServerCall} {c author : Connection} {layer : String}
  {channel : Channel} {v : DeltaEvent} {table : HashTable}

lemma Accepts.historyOf_eq (h : Accepts l call c layer channel author v table) :
    historyOf (l.mChannels.lookup c.channel) layer = deltas channel layer := by
  rw [h.present]
  rfl

lemma Accepts.told_cases (h : Accepts l call c layer channel author v table) {number : Nat}
    {t : HashTable} (ht : (number, t) ∈ told (call.perform l).sent c layer) :
    number = (deltas channel layer).length + 1 ∧
      (c ∈ channel.receivers author ∧ t = table ∨ author = c ∧
        t = acknowledgeUpdates ⟨layer, v.updates.keys, (deltas channel layer).length + 1⟩) := by
  rw [h.news] at ht
  rcases List.mem_append.1 ht with hrelayed | hacknowledged
  · obtain ⟨hcount, hentry⟩ := List.mem_replicate.1 hrelayed
    obtain ⟨hnumber, htable⟩ := Prod.mk.inj hentry
    exact ⟨hnumber, .inl ⟨List.count_pos_iff.1 (Nat.pos_of_ne_zero hcount), htable⟩⟩
  · split_ifs at hacknowledged with hown
    · obtain ⟨hnumber, htable⟩ := Prod.mk.inj (List.mem_singleton.1 hacknowledged)
      exact ⟨hnumber, .inr ⟨hown, htable⟩⟩
    · exact absurd hacknowledged List.not_mem_nil

lemma Accepts.reaches (h : Accepts l call c layer channel author v table)
    (hreached : author = c ∨ c ∈ channel.receivers author) :
    ∃ t, ((deltas channel layer).length + 1, t) ∈ told (call.perform l).sent c layer := by
  rw [h.news]
  rcases hreached with hown | hreceiver
  · rw [if_pos hown]
    exact ⟨_, List.mem_append_right _ (List.mem_singleton.2 rfl)⟩
  · have hcount := (List.count_pos_iff.2 hreceiver).ne'
    exact ⟨table, List.mem_append_left _ (List.mem_replicate.2 ⟨hcount, rfl⟩)⟩

lemma Accepts.told_unique (h : Accepts l call c layer channel author v table) {number : Nat}
    {t t' : HashTable} (ht : (number, t) ∈ told (call.perform l).sent c layer)
    (ht' : (number, t') ∈ told (call.perform l).sent c layer) : t = t' := by
  obtain ⟨-, ⟨hreceiver, rfl⟩ | ⟨hown, rfl⟩⟩ := h.told_cases ht
  · obtain ⟨-, ⟨-, rfl⟩ | ⟨rfl, -⟩⟩ := h.told_cases ht'
    · rfl
    · exact absurd hreceiver (not_mem_receivers channel)
  · obtain ⟨-, ⟨hreceiver, -⟩ | ⟨-, rfl⟩⟩ := h.told_cases ht'
    · exact absurd (hown ▸ hreceiver) (not_mem_receivers channel)
    · rfl

end

lemma accepts_delta (laws : UsdLaws) {l : Logic} (h : Housed l) {author c : Connection} {text : Json}
    (htext : Deltas text) {v : DeltaEvent} (hbody : messageBody text = some (.delta v))
    (hchannel : author.channel = c.channel) {channel : Channel}
    (hpresent : l.mChannels.lookup c.channel = some channel) :
    ∃ table, Accepts l (.message author text) c v.layer channel author v table := by
  have hconnection : (ServerCall.message author text).connection.channel = c.channel := hchannel
  have hlookup := (acts_on_channel h.stored (.message author text)).lookup c.channel
  rw [if_pos hconnection.symm, hpresent] at hlookup
  have hreceived := h.received (.message author text) c
  rw [if_pos hconnection, hpresent] at hreceived
  have hhistory := historyOf_delta hbody channel author v.layer
  rw [← hlookup, if_pos rfl] at hhistory
  have hv := body_roundTrips laws htext hbody
  obtain ⟨table, htable, -, hnews⟩ := told_delta laws hbody hv channel author c
  refine ⟨table, hpresent, ⟨text, rfl, hbody⟩, hchannel, rfl, hv, htable, hhistory, ?_⟩
  rw [← hnews, told, hreceived]
  rfl

/-- What a call makes of the history of a layer, and what a connection that does not join with it
learns. -/
theorem layer_cases (laws : UsdLaws) {l : Logic} (h : Housed l) {call : ServerCall}
    (hcall : Peaceful call) {c : Connection} (hjoin : call ≠ .connected c) (layer : String) :
    let before := l.mChannels.lookup c.channel
    let after := (serve l call).mChannels.lookup c.channel
    (historyOf after layer = historyOf before layer ∧ told (call.perform l).sent c layer = []) ∨
      (after = none ∧ (∃ leaver, call = .disconnected leaver) ∧
        told (call.perform l).sent c layer = []) ∨
      ∃ channel author v table, Accepts l call c layer channel author v table := by
  intro before after
  have hlookup := (acts_on_channel h.stored call).lookup c.channel
  have hreceived := h.received call c
  by_cases hchannel : call.connection.channel = c.channel
  · rw [if_pos hchannel] at hreceived
    rw [if_pos hchannel.symm] at hlookup
    have htold : told (call.perform l).sent c layer = told (channelSent before call) c layer := by
      rw [told, hreceived]
      rfl
    change after = channelStep before call at hlookup
    cases call with
    | connected joiner =>
      left
      rw [hlookup, historyOf_connected, htold, told, received_none]
      · exact ⟨rfl, rfl⟩
      · intro s hs heq
        have hjoiner : s.1 = joiner := by
          rcases List.mem_append.1 hs with hreplayed | hlast
          · obtain ⟨delta, -, rfl⟩ := List.mem_map.1 hreplayed
            rfl
          · rw [List.mem_singleton.1 hlast]
        exact hjoin (by rw [← hjoiner, heq])
    | disconnected leaver =>
      rcases historyOf_disconnected before leaver layer with hsame | hgone
      · left
        rw [hlookup, hsame, htold]
        exact ⟨rfl, rfl⟩
      · right; left
        exact ⟨hlookup.trans hgone, ⟨leaver, rfl⟩, htold⟩
    | message author text =>
      by_cases hbody : ∃ v, messageBody text = some (.delta v)
      · obtain ⟨v, hbody⟩ := hbody
        cases hbefore : before with
        | none =>
          left
          rw [hlookup, htold, hbefore]
          exact ⟨rfl, rfl⟩
        | some channel =>
          by_cases hlayer : v.layer = layer
          · subst hlayer
            obtain ⟨table, haccepts⟩ := accepts_delta laws h hcall hbody hchannel hbefore
            exact .inr (.inr ⟨channel, author, v, table, haccepts⟩)
          · left
            rw [hbefore] at hlookup htold
            have hhistory := historyOf_delta hbody channel author layer
            rw [← hlookup, if_neg (Ne.symm hlayer)] at hhistory
            exact ⟨hhistory, htold.trans (told_other hbody hlayer _ author c)⟩
      · left
        obtain ⟨hsame, hnothing⟩ := historyOf_ignored hcall
          (fun v hv => hbody ⟨v, hv⟩) before
        rw [hlookup, hsame, htold, hnothing]
        exact ⟨rfl, rfl⟩
  · left
    rw [if_neg hchannel] at hreceived
    rw [if_neg (Ne.symm hchannel)] at hlookup
    change after = before at hlookup
    refine ⟨by rw [hlookup], ?_⟩
    rw [told, hreceived]
    rfl

lemma told_fresh (laws : UsdLaws) {l : Logic} (h : Housed l) {call : ServerCall}
    (hcall : Peaceful call) {c : Connection} (hjoin : call ≠ .connected c) {layer : String}
    {number : Nat} {table : HashTable}
    (ht : (number, table) ∈ told (call.perform l).sent c layer) :
    number = (historyOf (l.mChannels.lookup c.channel) layer).length + 1 := by
  rcases layer_cases laws h hcall hjoin layer with
    ⟨-, hnothing⟩ | ⟨-, -, hnothing⟩ | ⟨channel, author, v, table, haccepts⟩
  · rw [hnothing] at ht
    exact absurd ht List.not_mem_nil
  · rw [hnothing] at ht
    exact absurd ht List.not_mem_nil
  · rw [haccepts.historyOf_eq]
    exact (haccepts.told_cases ht).1

lemma member_stays {l : Logic} (h : Housed l) {call : ServerCall} {c : Connection}
    (hmember : c ∈ membersOf (l.mChannels.lookup c.channel))
    (hcall : ∀ leaver, call = .disconnected leaver → leaver.channel = c.channel →
      leaver.debugName ≠ c.debugName) :
    c ∈ membersOf ((serve l call).mChannels.lookup c.channel) := by
  rw [(acts_on_channel h.stored call).lookup]
  split_ifs with hchannel
  · cases call with
    | connected joiner =>
      rw [membersOf_connected]
      exact List.mem_append_left _ hmember
    | disconnected leaver =>
      rw [membersOf_disconnected, List.mem_filter, decide_eq_true_iff]
      exact ⟨hmember, (hcall leaver rfl hchannel.symm).symm⟩
    | message author text => rwa [membersOf_message]
  · exact hmember

lemma channel_ends {l : Logic} (h : Housed l) {call : ServerCall} {name : String}
    (hthere : (l.mChannels.lookup name).isSome)
    (hgone : (serve l call).mChannels.lookup name = none) :
    ∃ leaver, call = .disconnected leaver ∧ leaver.channel = name ∧
      ∀ member ∈ membersOf (l.mChannels.lookup name), member.debugName = leaver.debugName := by
  rw [(acts_on_channel h.stored call).lookup] at hgone
  by_cases hname : name = call.connection.channel
  · rw [if_pos hname] at hgone
    obtain ⟨channel, hchannel⟩ := Option.isSome_iff_exists.1 hthere
    rw [hchannel] at hgone
    cases call with
    | connected joiner => exact absurd hgone (by simp [channelStep])
    | message author text => exact absurd hgone (by simp [channelStep])
    | disconnected leaver =>
      refine ⟨leaver, rfl, hname.symm, ?_⟩
      have hmembers := membersOf_disconnected (some channel) leaver
      rw [hgone] at hmembers
      intro member hmember
      rw [hchannel] at hmember
      by_contra hne
      have hkept : member ∈ (membersOf (some channel)).filter (·.debugName ≠ leaver.debugName) :=
        List.mem_filter.2 ⟨hmember, decide_eq_true hne⟩
      rw [← hmembers] at hkept
      exact absurd hkept List.not_mem_nil
  · rw [if_neg hname] at hgone
    rw [hgone] at hthere
    exact absurd hthere (by simp)

end

end RenderStudioKit.Proofs
