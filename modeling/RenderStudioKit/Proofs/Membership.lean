import RenderStudioKit.Proofs.ServerChannels

/-!
# Who is in a channel

Sessions are objects, but a channel tells them apart by their debug names. Its list is exact as
long as no two live connections of a channel share a name while one of them leaves or sends a delta.
-/

namespace RenderStudioKit.Proofs

open API

section

variable [Usd]

/-- The server and the connections that were passed to `OnConnected` and not yet to
`OnDisconnected`. -/
structure Population where
  server : Logic := {}
  live : List Connection := []

namespace Population

def perform (p : Population) (call : ServerCall) : Population where
  server := serve p.server call
  live := match call with
    | .connected c => p.live ++ [c]
    | .disconnected c => p.live.erase c
    | .message _ _ => p.live

/-- A session calls `OnConnected` first and `OnDisconnected` last. -/
def Proper (p : Population) : ServerCall → Prop
  | .connected c => c ∉ p.live
  | .disconnected c => c ∈ p.live
  | .message c _ => c ∈ p.live

/-- Every live connection is in the list of its channel, once. -/
def Exact (p : Population) : Prop :=
  ∀ c ∈ p.live, ∃ channel, p.server.mChannels.lookup c.channel = some channel ∧
    channel.mConnections.count c = 1

/-- A delta is sent to every other live connection of the channel. -/
def Relays (p : Population) (call : ServerCall) : Prop :=
  ∀ author text v, call = .message author text → messageBody text = some (.delta v) →
    ∀ d ∈ p.live, d ≠ author → d.channel = author.channel →
      ∃ number, (d, DeltaEvent.event { v with sequence := some number }) ∈
        (call.perform p.server).sent

/-- No other live connection of the channel has the name. -/
def NameApart (p : Population) (c : Connection) : Prop :=
  ∀ d ∈ p.live, d ≠ c → d.channel = c.channel → d.debugName ≠ c.debugName

/-- Nobody shares the name of a connection that leaves or sends a delta. -/
def NamesApart (p : Population) : ServerCall → Prop
  | .connected _ => True
  | .disconnected c => p.NameApart c
  | .message c text => (∃ v, messageBody text = some (.delta v)) → p.NameApart c

end Population

def membersOf (channel : Option Channel) : List Connection := channel.elim [] Channel.mConnections

lemma membersOf_message (channel : Option Channel) (author : Connection) (text : Json) :
    membersOf (channelStep channel (.message author text)) = membersOf channel := by
  cases channel with
  | none => rfl
  | some channel =>
    simp only [channelStep, Option.map_some, membersOf, Option.elim_some]
    split
    · rfl
    · unfold Channel.clearHistory
      split <;> rfl
    · rfl

lemma membersOf_disconnected (channel : Option Channel) (c : Connection) :
    membersOf (channelStep channel (.disconnected c)) =
      (membersOf channel).filter (·.debugName ≠ c.debugName) := by
  cases channel with
  | none => rfl
  | some channel =>
    simp only [channelStep, Option.bind_some]
    split_ifs with hempty
    · exact (List.isEmpty_iff.1 hempty).symm
    · rfl

lemma membersOf_connected (channel : Option Channel) (c : Connection) :
    membersOf (channelStep channel (.connected c)) = membersOf channel ++ [c] := by
  cases channel <;> rfl

/-- The list of every channel holds its live connections. -/
structure Listed (p : Population) : Prop where
  stored : Stored p.server
  nodup : p.live.Nodup
  members : ∀ name, membersOf (p.server.mChannels.lookup name) = p.live.filter (·.channel = name)

namespace Listed

variable {p : Population} (h : Listed p)

include h

lemma mem_iff {c d : Connection} :
    d ∈ membersOf (p.server.mChannels.lookup c.channel) ↔ d ∈ p.live ∧ d.channel = c.channel := by
  rw [h.members, List.mem_filter, decide_eq_true_iff]

lemma channel {c : Connection} (hc : c ∈ p.live) :
    ∃ channel, p.server.mChannels.lookup c.channel = some channel ∧ c ∈ channel.mConnections := by
  have hmem := h.mem_iff.2 ⟨hc, rfl⟩
  cases hlookup : p.server.mChannels.lookup c.channel with
  | none =>
    rw [hlookup] at hmem
    exact absurd hmem List.not_mem_nil
  | some channel =>
    rw [hlookup] at hmem
    exact ⟨channel, rfl, hmem⟩

lemma exact : p.Exact := by
  intro c hc
  obtain ⟨channel, hlookup, hmem⟩ := h.channel hc
  have hlist := h.members c.channel
  rw [hlookup] at hlist
  change channel.mConnections = _ at hlist
  refine ⟨channel, hlookup, List.count_eq_one_of_mem ?_ hmem⟩
  rw [hlist]
  exact h.nodup.filter _

lemma connected {c : Connection} (hc : c ∉ p.live) : Listed (p.perform (.connected c)) := by
  have hacts := acts_on_channel h.stored (.connected c)
  refine ⟨(h.stored.perform _).1, ?_, fun name => ?_⟩
  · exact h.nodup.append (List.nodup_singleton c) (List.disjoint_singleton.2 hc)
  · change membersOf ((serve p.server _).mChannels.lookup name) = (p.live ++ [c]).filter _
    rw [hacts.lookup, ServerCall.connection, List.filter_append, ← h.members name]
    by_cases hname : name = c.channel
    · rw [if_pos hname, membersOf_connected]
      simp [hname]
    · rw [if_neg hname]
      simp [Ne.symm hname]

lemma disconnected {c : Connection} (hapart : p.NameApart c) :
    Listed (p.perform (.disconnected c)) := by
  have hacts := acts_on_channel h.stored (.disconnected c)
  refine ⟨(h.stored.perform _).1, h.nodup.erase c, fun name => ?_⟩
  change membersOf ((serve p.server _).mChannels.lookup name) = (p.live.erase c).filter _
  rw [hacts.lookup, ServerCall.connection, h.nodup.erase_eq_filter, List.filter_filter]
  by_cases hname : name = c.channel
  · rw [if_pos hname, membersOf_disconnected, h.members, List.filter_filter]
    apply List.filter_congr
    intro d hd
    by_cases hdc : d = c
    · simp [hdc]
    · by_cases hchannel : d.channel = name
      · simp [hdc, hchannel, hapart d hd hdc (hchannel.trans hname)]
      · simp [hchannel]
  · rw [if_neg hname, h.members]
    apply List.filter_congr
    intro d hd
    by_cases hdc : d = c
    · simp [hdc, Ne.symm hname]
    · simp [hdc]

lemma message (author : Connection) (text : Json) :
    Listed (p.perform (.message author text)) := by
  have hacts := acts_on_channel h.stored (.message author text)
  refine ⟨(h.stored.perform _).1, h.nodup, fun name => ?_⟩
  change membersOf ((serve p.server _).mChannels.lookup name) = p.live.filter _
  rw [hacts.lookup, ← h.members name]
  split_ifs
  · exact membersOf_message _ author text
  · rfl

lemma sent {author : Connection} (hauthor : author ∈ p.live) {text : Json} {v : DeltaEvent}
    (hbody : messageBody text = some (.delta v)) (d : Connection) :
    (∃ number, (d, DeltaEvent.event { v with sequence := some number }) ∈
        (ServerCall.perform p.server (.message author text)).sent) ↔
      d ∈ p.live ∧ d.channel = author.channel ∧ d.debugName ≠ author.debugName := by
  obtain ⟨channel, hlookup, -⟩ := h.channel hauthor
  have hacts := acts_on_channel h.stored (.message author text)
  have hmem := h.mem_iff (c := author) (d := d)
  have hreceivers : d ∈ channel.receivers author ↔
      d ∈ channel.mConnections ∧ d.debugName ≠ author.debugName := by
    rw [Channel.receivers, List.mem_filter, decide_eq_true_iff]
  rw [hlookup] at hmem
  change d ∈ channel.mConnections ↔ _ at hmem
  rw [hmem, and_assoc] at hreceivers
  rw [hacts.sent, ← hreceivers]
  change (∃ number, _ ∈ channelSent (p.server.mChannels.lookup author.channel) _) ↔ _
  rw [hlookup, channelSent, Option.elim_some, hbody]
  constructor
  · rintro ⟨number, hsent⟩
    rcases List.mem_append.1 hsent with hrelayed | hacknowledged
    · obtain ⟨receiver, hreceiver, heq⟩ := List.mem_map.1 hrelayed
      have hsame : receiver = d := congrArg Prod.fst heq
      rwa [← hsame]
    · have hevent := congrArg (Event.body ∘ Prod.snd) (List.mem_singleton.1 hacknowledged)
      simp [DeltaEvent.event, AcknowledgeEvent.event] at hevent
  · intro hreceiver
    exact ⟨_, List.mem_append_left _ (List.mem_map_of_mem hreceiver)⟩

lemma perform {call : ServerCall} (hproper : p.Proper call) (hapart : p.NamesApart call) :
    Listed (p.perform call) := by
  cases call with
  | connected c => exact h.connected hproper
  | disconnected c => exact h.disconnected hapart
  | message author text => exact h.message author text

lemma exact_disconnected {c : Connection} (hexact : (p.perform (.disconnected c)).Exact) :
    p.NameApart c := by
  intro d hd hdc hchannel hname
  have hacts := acts_on_channel h.stored (.disconnected c)
  obtain ⟨channel, hlookup, hcount⟩ := hexact d ((List.mem_erase_of_ne hdc).2 hd)
  have hmem : d ∈ channel.mConnections := List.count_pos_iff.1 (by omega)
  change (serve p.server _).mChannels.lookup d.channel = _ at hlookup
  rw [hacts.lookup, ServerCall.connection, if_pos hchannel] at hlookup
  have hleft := membersOf_disconnected (p.server.mChannels.lookup d.channel) c
  rw [hlookup] at hleft
  change channel.mConnections = _ at hleft
  rw [hleft, List.mem_filter, decide_eq_true_iff] at hmem
  exact hmem.2 hname

lemma relays_message {author : Connection} (hauthor : author ∈ p.live) (text : Json) :
    p.Relays (.message author text) ↔ p.NamesApart (.message author text) := by
  constructor
  · intro hrelays hdelta d hd hne hchannel
    obtain ⟨v, hbody⟩ := hdelta
    exact ((h.sent hauthor hbody d).1 (hrelays author text v rfl hbody d hd hne hchannel)).2.2
  · intro hapart author' text' v hcall hbody d hd hne hchannel
    cases hcall
    exact (h.sent hauthor hbody d).2 ⟨hd, hchannel, hapart ⟨v, hbody⟩ d hd hne hchannel⟩

lemma exact_iff {call : ServerCall} (hproper : p.Proper call) :
    ((p.perform call).Exact ∧ p.Relays call) ↔ p.NamesApart call := by
  cases call with
  | connected c =>
    refine iff_of_true ⟨(h.connected hproper).exact, ?_⟩ trivial
    intro author text v hcall
    exact absurd hcall (by simp)
  | disconnected c =>
    constructor
    · intro hgood
      exact h.exact_disconnected hgood.1
    · intro hapart
      refine ⟨(h.disconnected hapart).exact, ?_⟩
      intro author text v hcall
      exact absurd hcall (by simp)
  | message author text =>
    rw [h.relays_message hproper text]
    exact and_iff_right (h.message author text).exact

end Listed

lemma listed_init : Listed {} := by
  refine ⟨stored_init, List.nodup_nil, fun name => ?_⟩
  change membersOf ((∅ : AList fun _ : String => Channel).lookup name) = []
  rw [AList.lookup_empty]
  rfl

/-- Membership is exact, and every delta reaches all others of its channel, in exactly those runs
in which no two live connections of a channel share a name while one of them leaves or sends a
delta. -/
theorem membership_exact_iff_names_apart (run : List ServerCall)
    (hproper : Runs.AllSteps Population.perform Population.Proper {} run) :
    Runs.AllSteps Population.perform
        (fun p call => (p.perform call).Exact ∧ p.Relays call) {} run ↔
      Runs.AllSteps Population.perform Population.NamesApart {} run := by
  have hiff : Runs.AllSteps Population.perform
        (fun p call => p.Proper call ∧ (p.perform call).Exact ∧ p.Relays call) {} run ↔
      Runs.AllSteps Population.perform
        (fun p call => p.Proper call ∧ p.NamesApart call) {} run := by
    apply Runs.allSteps_iff_allSteps ?_ ?_ listed_init
    · intro p call h
      exact and_congr_right fun hp => h.exact_iff hp
    · intro p call h hgood
      exact h.perform hgood.1 ((h.exact_iff hgood.1).1 hgood.2)
  constructor
  · intro hgood
    exact (hiff.1 (hproper.and hgood)).mono fun _ _ h => h.2
  · intro hapart
    exact (hiff.2 (hproper.and hapart)).mono fun _ _ h => h.2

end

section

attribute [local instance] Usd.sample

/-- Two users of a room; the second one opens a second connection before the first is noticed to
be dead. -/
def alice : Connection := ⟨0, "room", "alice"⟩
def bob : Connection := ⟨1, "room", "bob"⟩
def bobAgain : Connection := ⟨2, "room", "bob"⟩

theorem membership_exact_iff_names_apart_two_users :
    let delta : Json := .object [("event", .string "Delta::Event"), ("body", .object
      [("layer", .string "L"), ("user", .string "alice"), ("updates", .array [])])]
    let run : List ServerCall :=
      [.connected alice, .connected bob, .message alice delta, .disconnected bob]
    messageBody delta = some (.delta ⟨"L", "alice", none, ∅⟩) ∧
      Runs.AllSteps Population.perform
        (fun p call => (p.perform call).Exact ∧ p.Relays call) {} run := by
  intro delta run
  refine ⟨rfl, (membership_exact_iff_names_apart run ?_).2 ?_⟩
  · refine ⟨?_, ?_, ?_, ?_, trivial⟩
    · change alice ∉ []
      decide
    · change bob ∉ [alice]
      decide
    · change alice ∈ [alice, bob]
      decide
    · change bob ∈ [alice, bob]
      decide
  · refine ⟨trivial, trivial, fun _ => ?_, ?_, trivial⟩
    · change ∀ d ∈ [alice, bob], d ≠ alice → d.channel = alice.channel →
        d.debugName ≠ alice.debugName
      decide
    · change ∀ d ∈ [alice, bob], d ≠ bob → d.channel = bob.channel → d.debugName ≠ bob.debugName
      decide

/-- When the dead connection is removed, the living one goes with it. -/
theorem reconnected_user_removed :
    let run : List ServerCall := [.connected alice, .connected bob, .connected bobAgain,
      .disconnected bob]
    let p := Runs.final Population.perform {} run
    Runs.AllSteps Population.perform Population.Proper {} run ∧ bobAgain ∈ p.live ∧
      p.server.mChannels.lookup "room" = some { mName := "room", mConnections := [alice] } ∧
      ¬p.Exact := by
  intro run p
  have hlookup : p.server.mChannels.lookup "room" =
      some { mName := "room", mConnections := [alice] } := by rfl
  have hlive : bobAgain ∈ p.live := by
    change bobAgain ∈ [alice, bobAgain]
    decide
  refine ⟨⟨?_, ?_, ?_, ?_, trivial⟩, hlive, hlookup, ?_⟩
  · change alice ∉ []
    decide
  · change bob ∉ [alice]
    decide
  · change bobAgain ∉ [alice, bob]
    decide
  · change bob ∈ [alice, bob, bobAgain]
    decide
  · intro hexact
    obtain ⟨channel, hchannel, hcount⟩ := hexact bobAgain hlive
    rw [show bobAgain.channel = "room" from rfl, hlookup] at hchannel
    rw [← Option.some.inj hchannel] at hcount
    exact absurd hcount (by decide)

end

end RenderStudioKit.Proofs
