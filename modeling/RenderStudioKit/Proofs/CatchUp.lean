import RenderStudioKit.Proofs.Participant
import RenderStudioKit.Proofs.SessionStart

/-!
# Catching up with the server

Whatever a user missed while it was away, the history it is sent when it enters the channel again
holds the numbers it lacks. What it holds is about the history of the server as long as that history
lives, and while its connection works no number is missing.
-/

namespace RenderStudioKit.Proofs

open API

section

variable [Usd]

/-- The table is that of the delta with the number, unless this delta is one of the user. -/
def Tells (user : String) (history : List DeltaEvent) (number : Nat) (table : HashTable) : Prop :=
  ∃ (k : Nat) (v : DeltaEvent), number = k + 1 ∧ history[k]? = some v ∧
    (v.user = user ∨ SameTable table v.updates)

namespace Participant

/-- The connection is the only one of the user that works, if any does. -/
def Alone (p : Participant) (id : Nat) : Prop := ∀ other, p.Working other → other = id

/-- The client has nothing of the layer from the server. -/
def Ignorant (layer : String) (p : Participant) : Prop :=
  (p.data layer).mLatestAppliedSequence = 0 ∧ ∀ number table, ¬p.Holds layer number table

/-- The next message of the connection is a delta of the layer. -/
def Sends (layer : String) (p : Participant) (id : Nat) : Prop :=
  id ∈ p.opened ∧ ∃ text, (p.uplink id).head? = some text ∧ (layerDelta layer text).isSome

/-- The server drops a connection, or takes a delta from it, only while the user has no other; the
last name leaves the channel only before the client knows anything of the layer; and updates are
processed only when their layer was read. -/
structure Safe (account : Account) (layer : String) (p : Participant)
    (action : ParticipantAction) : Prop where
  dropped : ∀ id, action = .drop id → id ∈ p.opened → p.Alone id
  served : ∀ id, action = .serve id → p.Sends layer id → p.Alone id
  ended : ∀ leaver, p.Leaving account leaver action → leaver.channel = account.channel →
    (p.server.mChannels.lookup account.channel).isSome →
    (∀ member ∈ membersOf (p.server.mChannels.lookup account.channel),
      member.debugName = leaver.debugName) → p.Ignorant layer
  read : ∀ files, action = .update files → p.client.mLayerRegistry.lookup layer = none →
    accumulatedUpdates p.client layer = []

lemma Safe.ends {account : Account} {layer : String} {p : Participant} {action : ParticipantAction}
    (h : p.Safe account layer action) (hhoused : Housed p.server)
    (hthere : (p.server.mChannels.lookup account.channel).isSome)
    (hgone : (p.perform account action).server.mChannels.lookup account.channel = none) :
    p.Ignorant layer := by
  rcases perform_server account p action with hsame | ⟨call, hcall, hleave⟩
  · rw [← hsame, hgone] at hthere
    exact absurd hthere (by simp)
  · rw [hcall] at hgone
    obtain ⟨leaver, rfl, hchannel, hnames⟩ := channel_ends hhoused hthere hgone
    exact h.ended leaver (hleave leaver rfl) hchannel hthere hnames

end Participant

/-- A client that has taken everything its connection brought is where the server is, and has
applied every delta of the history that is not its own. -/
def CaughtUp (account : Account) (layer : String) (w : Watched) : Prop :=
  ∀ id d, w.participant.Working id → w.participant.downlink = [] →
    accumulatedUpdates w.participant.client layer = [] →
    w.participant.client.mLayerRegistry.lookup layer = some d →
    d.getSequence = (w.participant.history account layer).length ∧
      ∀ (k : Nat) (v : DeltaEvent), (w.participant.history account layer)[k]? = some v →
        v.user = account.user ∨ ∃ table, w.applied[k]? = some table ∧ SameTable table v.updates

structure Mirrors (account : Account) (layer : String) (w : Watched) : Prop where
  housed : Housed w.participant.server
  userId : w.participant.client.userId = account.user
  noReloads : w.participant.client.mRequestedReloads = []
  outgoing : ∀ id, ∀ text ∈ w.participant.uplink id, DeltaOf account.user text
  incoming : ∀ text ∈ w.participant.downlink, ¬IsReload text
  idle : (w.participant.data layer).mIsProcessingRemoteUpdates = false
  stopped : (w.participant.data layer).mRemoteDeltasQueue.lookup
    ((w.participant.data layer).mLatestAppliedSequence + 1) = none
  stored : ∀ (k : Nat) (v : DeltaEvent), (w.participant.history account layer)[k]? = some v →
    v.sequence = some (k + 1) ∧ AllValues RoundTrips v.updates
  count : w.applied.length = (w.participant.data layer).mLatestAppliedSequence
  fits : ∀ (k : Nat) (table : HashTable), w.applied[k]? = some table →
    Tells account.user (w.participant.history account layer) (k + 1) table
  holds : ∀ number table, w.participant.Holds layer number table →
    Tells account.user (w.participant.history account layer) number table
  member : ∀ id, w.participant.Working id → account.connection id ∈
    membersOf (w.participant.server.mChannels.lookup account.channel)
  complete : ∀ id, w.participant.Working id →
    ∀ number, (w.participant.data layer).mLatestAppliedSequence < number →
      number ≤ (w.participant.history account layer).length →
      ∃ table, w.participant.Holds layer number table

lemma Tells.mono {user : String} {history history' : List DeltaEvent} {number : Nat}
    {table : HashTable} (h : Tells user history number table)
    (hgrown : ∀ (k : Nat) (v : DeltaEvent), history[k]? = some v → history'[k]? = some v) :
    Tells user history' number table := by
  obtain ⟨k, v, hnumber, hv, htable⟩ := h
  exact ⟨k, v, hnumber, hgrown k v hv, htable⟩

lemma Tells.bound {user : String} {history : List DeltaEvent} {number : Nat} {table : HashTable}
    (h : Tells user history number table) : 1 ≤ number ∧ number ≤ history.length := by
  obtain ⟨k, v, rfl, hv, -⟩ := h
  have hk := (List.getElem?_eq_some_iff.1 hv).1
  omega

namespace Mirrors

variable {account : Account} {layer : String} {w : Watched}

open Participant

lemma latest_le (h : Mirrors account layer w) :
    (w.participant.data layer).mLatestAppliedSequence ≤
      (w.participant.history account layer).length := by
  rw [← h.count]
  cases happlied : w.applied.length with
  | zero => omega
  | succ k =>
    have htells := h.fits k _ (List.getElem?_eq_getElem (by omega))
    exact htells.bound.2

lemma caughtUp (h : Mirrors account layer w) : CaughtUp account layer w := by
  intro id d hworking hdownlink haccumulated hregistered
  have hdata : w.participant.data layer = d := by
    unfold Participant.data layerData
    rw [hregistered, Option.getD_some]
  have hbound := h.latest_le
  have hreached : (w.participant.data layer).mLatestAppliedSequence =
      (w.participant.history account layer).length := by
    by_contra hne
    obtain ⟨table, hholds⟩ := h.complete id hworking
      ((w.participant.data layer).mLatestAppliedSequence + 1) (by omega) (by omega)
    unfold Participant.Holds at hholds
    rw [hdownlink, haccumulated, h.stopped] at hholds
    simp at hholds
  refine ⟨by rw [← hreached, hdata]; rfl, fun k v hv => ?_⟩
  have hk : k < w.applied.length := by
    rw [h.count, hreached]
    exact (List.getElem?_eq_some_iff.1 hv).1
  obtain ⟨j, v', hj, hv', htells⟩ := h.fits k _ (List.getElem?_eq_getElem hk)
  obtain rfl : k = j := by omega
  obtain rfl : v = v' := Option.some.inj (hv.symm.trans hv')
  rcases htells with hown | htable
  · exact .inl hown
  · exact .inr ⟨_, List.getElem?_eq_getElem hk, htable⟩

/-- A step of the client that applies nothing. -/
lemma ofClient (h : Mirrors account layer w) {w' : Watched}
    (hserver : w'.participant.server = w.participant.server)
    (huser : w'.participant.client.userId = w.participant.client.userId)
    (hreloads : w'.participant.client.mRequestedReloads = w.participant.client.mRequestedReloads)
    (hincoming : ∀ text ∈ w'.participant.downlink, text ∈ w.participant.downlink)
    (houtgoing : ∀ id, ∀ text ∈ w'.participant.uplink id, text ∈ w.participant.uplink id)
    (hdata : SameQueue (w.participant.data layer) (w'.participant.data layer))
    (happlied : w'.applied = w.applied)
    (hholds : ∀ number table, w'.participant.Holds layer number table →
      w.participant.Holds layer number table)
    (hworking : ∀ id, w'.participant.Working id → w.participant.Working id ∧
      ∀ number table, w.participant.Holds layer number table →
        w'.participant.Holds layer number table) :
    Mirrors account layer w' := by
  have hhistory : w'.participant.history account layer = w.participant.history account layer := by
    unfold Participant.history
    rw [hserver]
  refine ⟨by rw [hserver]; exact h.housed, huser.trans h.userId, hreloads.trans h.noReloads,
    fun id text htext => h.outgoing id text (houtgoing id text htext),
    fun text htext => h.incoming text (hincoming text htext), hdata.idle.trans h.idle, ?_, ?_, ?_,
    ?_, ?_, ?_, ?_⟩
  · rw [hdata.queue, hdata.latest]
    exact h.stopped
  · rw [hhistory]
    exact h.stored
  · rw [happlied, hdata.latest]
    exact h.count
  · rw [happlied, hhistory]
    exact h.fits
  · rw [hhistory]
    exact fun number table hnew => h.holds number table (hholds number table hnew)
  · intro id hid
    rw [hserver]
    exact h.member id (hworking id hid).1
  · rw [hhistory, hdata.latest]
    intro id hid number hlt hle
    obtain ⟨table, htable⟩ := h.complete id (hworking id hid).1 number hlt hle
    exact ⟨table, (hworking id hid).2 number table htable⟩

lemma set (h : Mirrors account layer w) (edited : String) (path : SdfPath) (field : TfToken)
    (value : VtValue) :
    Mirrors account layer (w.perform account layer (.set edited path field value)) := by
  obtain ⟨huser, hreloads, haccumulated⟩ :=
    setField_frame w.participant.client edited path field value
  have hdata := set_sameQueue w.participant.client edited path field value layer
  have hholds : ∀ number table,
      (w.perform account layer (.set edited path field value)).participant.Holds layer number table ↔
        w.participant.Holds layer number table :=
    holds_congr rfl (haccumulated layer) hdata
  refine h.ofClient rfl huser hreloads (fun _ ht => ht) (fun id text htext => ?_) hdata rfl
    (fun number table => (hholds number table).1)
    fun id hid => ⟨hid, fun number table => (hholds number table).2⟩
  rcases mem_uplink_withClient htext with hold | ⟨-, hnew⟩
  · exact hold
  · exact absurd hnew List.not_mem_nil

lemma read_applied (h : Mirrors account layer w) {opened : String} (file : HashTable)
    (hfirst : w.participant.client.mLayerRegistry.lookup opened = none) :
    (w.perform account layer (.read opened file)).applied = w.applied := by
  change (if opened = layer then [] else w.applied) = w.applied
  split_ifs with hlayer
  · have hcount := h.count
    unfold Participant.data at hcount
    rw [← hlayer, layerData_unregistered hfirst] at hcount
    exact (List.length_eq_zero_iff.1 hcount).symm
  · rfl

lemma read (h : Mirrors account layer w) {opened : String} (file : HashTable)
    (hfirst : w.participant.client.mLayerRegistry.lookup opened = none) :
    Mirrors account layer (w.perform account layer (.read opened file)) := by
  have hsent : (w.participant.client.read opened file).sent = [] := by
    simp [RenderStudioFileFormat.read, hfirst]
  have hdata := read_sameQueue hfirst file layer
  have hholds : ∀ number table,
      (w.perform account layer (.read opened file)).participant.Holds layer number table ↔
        w.participant.Holds layer number table := holds_congr rfl rfl hdata
  refine h.ofClient rfl rfl rfl (fun _ ht => ht) (fun id text htext => ?_) hdata
    (h.read_applied file hfirst) (fun number table => (hholds number table).1)
    fun id hid => ⟨hid, fun number table => (hholds number table).2⟩
  rcases mem_uplink_withClient htext with hold | ⟨-, hnew⟩
  · exact hold
  · rw [hsent] at hnew
    exact absurd hnew List.not_mem_nil

lemma cut (h : Mirrors account layer w) {p : Participant} (client : Option Nat)
    (hp : p = { w.participant with
      client := { w.participant.client with mWebsocketClient := client }
      current := none
      downlink := [] }) :
    Mirrors account layer { w with participant := p } := by
  subst hp
  refine h.ofClient rfl rfl rfl (fun text htext => absurd htext List.not_mem_nil)
    (fun id text htext => htext) ⟨rfl, rfl, rfl⟩ rfl ?_ ?_
  · rintro number table (hdownlink | hrest)
    · exact absurd hdownlink List.not_mem_nil
    · exact .inr hrest
  · intro id hid
    exact absurd hid.1 (by simp)

lemma deliver (h : Mirrors account layer w) :
    Mirrors account layer (w.perform account layer .deliver) := by
  have hcases : w.participant.deliver = w.participant ∨ ∃ message rest,
      w.participant.downlink = message :: rest := by
    cases hdownlink : w.participant.downlink with
    | nil => exact .inl (by rw [Participant.deliver, hdownlink])
    | cons message rest => exact .inr ⟨message, rest, rfl⟩
  rcases hcases with hsame | ⟨message, rest, hdownlink⟩
  · have hparticipant : (w.perform account layer .deliver).participant = w.participant := hsame
    refine h.ofClient ?_ ?_ ?_ ?_ ?_ ?_ rfl ?_ ?_ <;> rw [hparticipant]
    · exact fun text htext => htext
    · exact fun id text htext => htext
    · exact ⟨rfl, rfl, rfl⟩
    · exact fun number table hheld => hheld
    · exact fun id hid => ⟨hid, fun number table hheld => hheld⟩
  · have hreload := h.incoming message (hdownlink ▸ List.mem_cons_self)
    obtain ⟨huser, hregistry, hreloads⟩ := onMessage_frame hreload w.participant.client
    have hparticipant : (w.perform account layer .deliver).participant =
        { w.participant with
          client := w.participant.client.onMessage message
          downlink := rest } := deliver_eq hdownlink
    have hdata : (w.perform account layer .deliver).participant.data layer =
        w.participant.data layer := by
      rw [hparticipant]
      unfold Participant.data layerData
      rw [hregistry]
    have hholds : ∀ number table, w.participant.deliver.Holds layer number table ↔
        w.participant.Holds layer number table := holds_deliver hdownlink hreload
    refine h.ofClient ?_ ?_ ?_ ?_ ?_ ?_ rfl (fun number table => (hholds number table).1)
      fun id hid => ⟨?_, fun number table => (hholds number table).2⟩
    · rw [hparticipant]
    · rw [hparticipant]
      exact huser
    · rw [hparticipant]
      exact hreloads
    · rw [hparticipant, hdownlink]
      exact fun text htext => List.mem_cons_of_mem message htext
    · rw [hparticipant]
      exact fun id text htext => htext
    · rw [hdata]
      exact ⟨rfl, rfl, rfl⟩
    · rw [hparticipant] at hid
      exact hid

/-- `ProcessLiveUpdates` takes everything that arrived into the queue and applies what is next. -/
lemma update (h : Mirrors account layer w) (files : String → Option HashTable)
    (hread : w.participant.client.mLayerRegistry.lookup layer = none →
      accumulatedUpdates w.participant.client layer = []) :
    Mirrors account layer (w.perform account layer (.update files)) := by
  let f := w.participant.client
  let o := f.processLiveUpdates files
  obtain ⟨huser, hreloads, hnone, htexts⟩ := processLiveUpdates_frame f files
  have houtgoing : ∀ id, ∀ text ∈ (w.perform account layer (.update files)).participant.uplink id,
      DeltaOf account.user text := by
    intro id text htext
    rcases mem_uplink_withClient htext with hold | ⟨-, hnew⟩
    · exact h.outgoing id text hold
    · rw [← h.userId]
      exact htexts text hnew
  let d := layerData f layer
  let d' := layerData o.format layer
  let tables := tablesUpTo f layer d'.mLatestAppliedSequence
  have hupdated : Updated f layer d' tables :=
    processLiveUpdates_updated files h.noReloads h.idle hread
  refine ⟨h.housed, huser.trans h.userId, hreloads, houtgoing, h.incoming, hupdated.idle,
    hupdated.stopped, h.stored, ?_, ?_, ?_, h.member, ?_⟩
  · change (w.applied ++ tables).length = d'.mLatestAppliedSequence
    rw [List.length_append, h.count, hupdated.latest]
    rfl
  · intro k t hk
    change (w.applied ++ tables)[k]? = some t at hk
    by_cases hold : k < w.applied.length
    · rw [List.getElem?_append_left hold] at hk
      exact h.fits k t hk
    · rw [List.getElem?_append_right (by omega)] at hk
      have hnumber : d.mLatestAppliedSequence + 1 + (k - w.applied.length) = k + 1 := by
        have hcount : w.applied.length = d.mLatestAppliedSequence := h.count
        omega
      have htells := h.holds _ t (holds_of_queueOf (hupdated.applied _ t hk))
      rwa [hnumber] at htells
  · rintro number t (hdownlink | haccumulated | hlookup)
    · exact h.holds number t (.inl hdownlink)
    · change (number, t) ∈ accumulatedUpdates o.format layer at haccumulated
      rw [hnone layer] at haccumulated
      exact absurd haccumulated List.not_mem_nil
    · exact h.holds number t (holds_of_queueOf (hupdated.queued number t hlookup))
  · intro id hid number hlt hle
    change d'.mLatestAppliedSequence < number at hlt
    have hlatest : d'.mLatestAppliedSequence = d.mLatestAppliedSequence + tables.length :=
      hupdated.latest
    obtain ⟨t, hdownlink | hheld⟩ := h.complete id hid number
      (by change d.mLatestAppliedSequence < number; omega) hle
    · exact ⟨t, .inl hdownlink⟩
    · obtain ⟨t', ht'⟩ := queueOf_isSome hheld
      exact ⟨t', .inr (.inr (hupdated.kept number t' hlt ht'))⟩

lemma grown_history {l : Logic} {call : ServerCall} {c author : Connection} {channel : Channel}
    {v : DeltaEvent} {table : HashTable} (h : Accepts l call c layer channel author v table) :
    let before := historyOf (l.mChannels.lookup c.channel) layer
    let after := historyOf ((serve l call).mChannels.lookup c.channel) layer
    after = before ++ [{ v with sequence := some (before.length + 1) }] := by
  intro before after
  have hbefore : before = deltas channel layer := h.historyOf_eq
  change historyOf _ layer = _
  rw [h.history, hbefore]

lemma tells_news {user : String} {l : Logic} {call : ServerCall} {c author : Connection}
    {channel : Channel} {v : DeltaEvent} {table : HashTable}
    (h : Accepts l call c layer channel author v table) (hauthor : author = c → v.user = user)
    {number : Nat} {t : HashTable} (ht : (number, t) ∈ told (call.perform l).sent c layer) :
    Tells user (historyOf ((serve l call).mChannels.lookup c.channel) layer) number t := by
  obtain ⟨hnumber, hcases⟩ := h.told_cases ht
  rw [h.history]
  refine ⟨(deltas channel layer).length, _, hnumber, List.getElem?_concat_length, ?_⟩
  rcases hcases with ⟨-, rfl⟩ | ⟨hown, -⟩
  · exact .inr h.sameTable
  · exact .inl (hauthor hown)

/-- What the answer to a call makes of the history of the layer and tells the client. -/
structure Answers (account : Account) (layer : String) (p : Participant) (call : ServerCall)
    (q : Participant) : Prop where
  stored : p.Ignorant layer ∧ q.history account layer = [] ∨
    q.history account layer = p.history account layer ∨
    ∃ v : DeltaEvent, AllValues RoundTrips v.updates ∧ q.history account layer =
      p.history account layer ++ [{ v with sequence := some ((p.history account layer).length + 1) }]
  tells : ∀ id, p.current = some id → ∀ number table,
    (number, table) ∈ told (call.perform p.server).sent (account.connection id) layer →
    Tells account.user (q.history account layer) number table
  member : ∀ id, q.Working id →
    account.connection id ∈ membersOf (q.server.mChannels.lookup account.channel)
  reaches : ∀ id, q.Working id → ∀ number, (p.history account layer).length < number →
    number ≤ (q.history account layer).length →
    ∃ table, (number, table) ∈ told (call.perform p.server).sent (account.connection id) layer

lemma Answers.mono {p q : Participant} {call : ServerCall} (h : Answers account layer p call q) :
    p.Ignorant layer ∨ ∀ (k : Nat) (v : DeltaEvent), (p.history account layer)[k]? = some v →
      (q.history account layer)[k]? = some v := by
  rcases h.stored with ⟨hnothing, -⟩ | hsame | ⟨v, -, hgrown⟩
  · exact .inl hnothing
  · right
    rw [hsame]
    exact fun k v hv => hv
  · right
    intro k v' hv'
    rw [hgrown, List.getElem?_append_left (List.getElem?_eq_some_iff.1 hv').1]
    exact hv'

lemma Answers.getElem? {p q : Participant} {call : ServerCall} (h : Answers account layer p call q)
    {k : Nat} {v : DeltaEvent} (hv : (q.history account layer)[k]? = some v) :
    (p.history account layer)[k]? = some v ∨
      v.sequence = some (k + 1) ∧ AllValues RoundTrips v.updates := by
  rcases h.stored with ⟨-, hempty⟩ | hsame | ⟨accepted, hvalues, hgrown⟩
  · rw [hempty] at hv
    simp at hv
  · rw [hsame] at hv
    exact .inl hv
  · rw [hgrown] at hv
    by_cases hk : k < (p.history account layer).length
    · rw [List.getElem?_append_left hk] at hv
      exact .inl hv
    · have hbound := (List.getElem?_eq_some_iff.1 hv).1
      rw [List.length_append, List.length_singleton] at hbound
      obtain rfl : k = (p.history account layer).length := by omega
      rw [List.getElem?_concat_length, Option.some.injEq] at hv
      rw [← hv]
      exact .inr ⟨rfl, hvalues⟩

lemma incoming_withServer {p : Participant} {call : ServerCall} (hhoused : Housed p.server)
    (hpeaceful : Peaceful call) (hincoming : ∀ text ∈ p.downlink, ¬IsReload text) :
    ∀ text ∈ (p.withServer account (call.perform p.server)).downlink, ¬IsReload text := by
  intro text htext
  change text ∈ p.current.elim p.downlink _ at htext
  cases hid : p.current with
  | none =>
    rw [hid] at htext
    exact hincoming text htext
  | some id =>
    rw [hid, Option.elim_some] at htext
    rcases List.mem_append.1 htext with hold | hnew
    · exact hincoming text hold
    · rw [hhoused.received] at hnew
      split_ifs at hnew
      · exact not_reload_received hpeaceful hnew
      · exact absurd hnew List.not_mem_nil

/-- A step of the server that leaves the client alone. -/
lemma answer (h : Mirrors account layer w) {p q : Participant} {call : ServerCall}
    (hserver : p.server = w.participant.server) (hclient : p.client = w.participant.client)
    (hdownlink : p.downlink = w.participant.downlink)
    (houtgoing : ∀ id, ∀ text ∈ p.uplink id, DeltaOf account.user text)
    (hworking : ∀ id, p.Working id → w.participant.Working id) (hpeaceful : Peaceful call)
    (hq : q = p.withServer account (call.perform p.server)) (hanswer : Answers account layer p call q) :
    Mirrors account layer { w with participant := q } := by
  have hclient' : q.client = w.participant.client := by
    rw [hq]
    exact hclient
  have hdata : q.data layer = w.participant.data layer := by
    unfold Participant.data
    rw [hclient']
  have hhistory : p.history account layer = w.participant.history account layer := by
    unfold Participant.history
    rw [hserver]
  have hheld : ∀ number table, p.Holds layer number table ↔
      w.participant.Holds layer number table := by
    intro number table
    unfold Participant.Holds Participant.data
    rw [hclient, hdownlink]
  have hholds : ∀ number table, q.Holds layer number table ↔
      w.participant.Holds layer number table ∨ ∃ id, p.current = some id ∧ (number, table) ∈
        told (call.perform p.server).sent (account.connection id) layer := by
    intro number table
    rw [hq, holds_withServer, hheld]
  have hignorant : p.Ignorant layer → w.participant.Ignorant layer := by
    intro hnothing
    refine ⟨?_, fun number table => (hheld number table).not.1 (hnothing.2 number table)⟩
    have hzero := hnothing.1
    unfold Participant.data at hzero ⊢
    rwa [hclient] at hzero
  have hmono := hanswer.mono
  rw [hhistory] at hmono
  refine ⟨?_, ?_, ?_, ?_, ?_, ?_, ?_, ?_, ?_, ?_, ?_, hanswer.member, ?_⟩
  · rw [hq, withServer_server, hserver]
    exact h.housed.serve call
  · rw [hclient']
    exact h.userId
  · rw [hclient']
    exact h.noReloads
  · rw [hq]
    exact houtgoing
  · rw [hq]
    exact incoming_withServer (hserver ▸ h.housed) hpeaceful (hdownlink ▸ h.incoming)
  · rw [hdata]
    exact h.idle
  · rw [hdata]
    exact h.stopped
  · intro k v' hv'
    rcases hanswer.getElem? hv' with hold | hnew
    · rw [hhistory] at hold
      exact h.stored k v' hold
    · exact hnew
  · rw [hdata]
    exact h.count
  · intro k table hk
    rcases hmono with hnothing | hmono
    · have hbound := (List.getElem?_eq_some_iff.1 hk).1
      have hcount := h.count
      have hzero := (hignorant hnothing).1
      dsimp only at hbound
      omega
    · exact (h.fits k table hk).mono hmono
  · intro number table hnew
    rcases (hholds number table).1 hnew with hold | ⟨id, hid, htold⟩
    · rcases hmono with hnothing | hmono
      · exact absurd hold ((hignorant hnothing).2 number table)
      · exact (h.holds number table hold).mono hmono
    · exact hanswer.tells id hid number table htold
  · intro id hid number hlt hle
    rw [hdata] at hlt
    have hworks : p.Working id := by
      rw [hq] at hid
      exact hid
    by_cases hold : number ≤ (w.participant.history account layer).length
    · obtain ⟨table, htable⟩ := h.complete id (hworking id hworks) number hlt hold
      exact ⟨table, (hholds number table).2 (.inl htable)⟩
    · obtain ⟨table, htable⟩ := hanswer.reaches id hid number (by rw [hhistory]; omega) hle
      exact ⟨table, (hholds number table).2 (.inr ⟨id, hworks.1, htable⟩)⟩

lemma layerDelta_isSome {text : Json} {v : DeltaEvent} (hbody : messageBody text = some (.delta v))
    (hlayer : v.layer = layer) : (layerDelta layer text).isSome := by
  unfold messageBody at hbody
  obtain ⟨⟨name, body⟩, hparse, rfl⟩ := Option.map_eq_some_iff.1 hbody
  simp [layerDelta, hparse, hlayer]

/-- The server answers a call that brings the user no new connection. -/
lemma answers (laws : UsdLaws) {p q : Participant} {call : ServerCall} (hhoused : Housed p.server)
    (hpeaceful : Peaceful call) (hq : q = p.withServer account (call.perform p.server))
    (hjoin : ∀ id, call ≠ .connected (account.connection id))
    (hmember : ∀ id, p.Working id →
      account.connection id ∈ membersOf (p.server.mChannels.lookup account.channel))
    (hended : (p.server.mChannels.lookup account.channel).isSome →
      q.server.mChannels.lookup account.channel = none → p.Ignorant layer)
    (hleave : ∀ leaver, call = .disconnected leaver → leaver.channel = account.channel →
      leaver.debugName = account.user → ∀ id, ¬p.Working id)
    (hauthor : ∀ author text, call = .message author text → (layerDelta layer text).isSome →
      author.channel = account.channel → author.debugName = account.user →
      ∀ id, p.Working id → author = account.connection id)
    (huser : ∀ id text v, call = .message (account.connection id) text →
      messageBody text = some (.delta v) → v.user = account.user) :
    Answers account layer p call q := by
  have hserver : q.server = serve p.server call := by
    rw [hq]
    rfl
  have hworking : ∀ id, q.Working id → p.Working id := by
    intro id hid
    rw [hq] at hid
    exact hid
  have hafter : q.history account layer =
      historyOf ((serve p.server call).mChannels.lookup account.channel) layer := by
    rw [Participant.history, hserver]
  have hstays : ∀ id, q.Working id →
      account.connection id ∈ membersOf (q.server.mChannels.lookup account.channel) := by
    intro id hid
    rw [hserver]
    refine member_stays hhoused (hmember id (hworking id hid)) fun leaver hcall hchannel hname => ?_
    exact hleave leaver hcall hchannel hname id (hworking id hid)
  have hcases : ∀ id, (q.history account layer = p.history account layer ∧
        told (call.perform p.server).sent (account.connection id) layer = []) ∨
      (q.server.mChannels.lookup account.channel = none ∧
        told (call.perform p.server).sent (account.connection id) layer = []) ∨
      ∃ channel author v table,
        Accepts p.server call (account.connection id) layer channel author v table := by
    intro id
    rw [hafter, hserver]
    rcases layer_cases laws hhoused hpeaceful (hjoin id) layer with
      hsame | ⟨hgone, -, hnothing⟩ | haccepts
    · exact .inl hsame
    · exact .inr (.inl ⟨hgone, hnothing⟩)
    · exact .inr (.inr haccepts)
  refine ⟨?_, fun id _ number t ht => ?_, hstays, fun id hid number hlt hle => ?_⟩
  · rcases hcases 0 with ⟨hsame, -⟩ | ⟨hgone, -⟩ | ⟨channel, author, v, table, haccepts⟩
    · exact .inr (.inl hsame)
    · have hempty : q.history account layer = [] := by
        rw [Participant.history, hgone]
        rfl
      cases hbefore : p.server.mChannels.lookup account.channel with
      | none =>
        right; left
        rw [hempty, Participant.history, hbefore]
        rfl
      | some channel => exact .inl ⟨hended (by rw [hbefore]; rfl) hgone, hempty⟩
    · right; right
      exact ⟨v, haccepts.values, hafter.trans (grown_history haccepts)⟩
  · rcases hcases id with ⟨-, hnothing⟩ | ⟨-, hnothing⟩ | ⟨channel, author, v, table, haccepts⟩
    · rw [hnothing] at ht
      exact absurd ht List.not_mem_nil
    · rw [hnothing] at ht
      exact absurd ht List.not_mem_nil
    · rw [hafter]
      refine tells_news haccepts (fun hown => ?_) ht
      obtain ⟨text, hcall, hbody⟩ := haccepts.message
      exact huser id text v (hown ▸ hcall) hbody
  · rcases hcases id with ⟨hsame, -⟩ | ⟨hgone, -⟩ | ⟨channel, author, v, table, haccepts⟩
    · rw [hsame] at hle
      omega
    · have hmem := hstays id hid
      rw [hgone] at hmem
      exact absurd hmem List.not_mem_nil
    · have hbefore : p.history account layer = deltas channel layer := haccepts.historyOf_eq
      have hgrown : q.history account layer = _ := hafter.trans haccepts.history
      rw [hbefore] at hlt
      rw [hgrown, List.length_append, List.length_singleton] at hle
      obtain rfl : number = (deltas channel layer).length + 1 := by omega
      apply haccepts.reaches
      by_cases hown : author = account.connection id
      · exact .inl hown
      · right
        obtain ⟨text, hcall, hbody⟩ := haccepts.message
        have hdelta : (layerDelta layer text).isSome := layerDelta_isSome hbody haccepts.subject
        have hname : author.debugName ≠ account.user := fun hname => hown
          (hauthor author text hcall hdelta haccepts.neighbour hname id (hworking id hid))
        have hpresent : p.server.mChannels.lookup account.channel = some channel := haccepts.present
        have hmem := hmember id (hworking id hid)
        rw [hpresent] at hmem
        exact List.mem_filter.2 ⟨hmem, decide_eq_true (Ne.symm hname)⟩

lemma other (laws : UsdLaws) (h : Mirrors account layer w) {call : ServerCall}
    (hadmitted : w.participant.Admitted account (.call call))
    (hended : (w.participant.server.mChannels.lookup account.channel).isSome →
      (w.participant.perform account (.call call)).server.mChannels.lookup account.channel = none →
      w.participant.Ignorant layer) :
    Mirrors account layer (w.perform account layer (.call call)) := by
  obtain ⟨hpeaceful, hother⟩ := hadmitted
  have hstranger : ∀ c : Connection, call.connection = c → c.channel = account.channel →
      c.debugName ≠ account.user := by
    rintro c rfl hchannel
    exact hother hchannel
  refine h.answer rfl rfl rfl h.outgoing (fun id hid => hid) hpeaceful rfl
    (answers laws h.housed hpeaceful rfl ?_ h.member hended ?_ ?_ ?_)
  · rintro id rfl
    exact hstranger _ rfl rfl rfl
  · rintro leaver rfl hchannel hname
    exact absurd hname (hstranger leaver rfl hchannel)
  · rintro author text rfl - hchannel hname
    exact absurd hname (hstranger author rfl hchannel)
  · rintro id text v rfl -
    exact absurd rfl (hstranger (account.connection id) rfl rfl)

lemma drop (laws : UsdLaws) (h : Mirrors account layer w) {id : Nat}
    (halone : id ∈ w.participant.opened → w.participant.Alone id)
    (hended : (w.participant.server.mChannels.lookup account.channel).isSome →
      (w.participant.perform account (.drop id)).server.mChannels.lookup account.channel = none →
      w.participant.Ignorant layer) :
    Mirrors account layer (w.perform account layer (.drop id)) := by
  by_cases hopened : id ∈ w.participant.opened
  · let p : Participant := { w.participant with opened := w.participant.opened.filter (· ≠ id) }
    have hdrop : w.participant.perform account (.drop id) = p.withServer account
        ((ServerCall.disconnected (account.connection id)).perform p.server) := by
      change w.participant.drop account id = _
      rw [Participant.drop, if_neg (not_not.2 hopened)]
      rfl
    have hpeaceful : Peaceful (.disconnected (account.connection id)) := trivial
    have hworking : ∀ other, p.Working other → w.participant.Working other := by
      rintro other ⟨hcurrent, hother⟩
      exact ⟨hcurrent, List.mem_of_mem_filter hother⟩
    have hnobody : ∀ other, ¬p.Working other := by
      intro other hother
      have hid := halone hopened other (hworking other hother)
      have hleft := (List.mem_filter.1 hother.2).2
      simp [hid] at hleft
    refine h.answer (p := p) rfl rfl rfl h.outgoing hworking hpeaceful hdrop
      (answers laws h.housed hpeaceful hdrop ?_ ?_ hended ?_ ?_ ?_)
    · intro other
      simp
    · exact fun other hother => absurd hother (hnobody other)
    · exact fun leaver _ _ _ => hnobody
    · intro author text hcall
      simp at hcall
    · intro other text v hcall
      simp at hcall
  · have hsame : w.participant.perform account (.drop id) = w.participant := by
      change w.participant.drop account id = _
      rw [Participant.drop, if_pos hopened]
    change Mirrors account layer { w with participant := w.participant.perform account (.drop id) }
    rwa [hsame]

/-- The server takes the next message of a connection of the user. -/
lemma serve (laws : UsdLaws) (h : Mirrors account layer w) {id : Nat}
    (halone : w.participant.Sends layer id → w.participant.Alone id)
    (hended : (w.participant.server.mChannels.lookup account.channel).isSome →
      (w.participant.perform account (.serve id)).server.mChannels.lookup account.channel = none →
      w.participant.Ignorant layer) :
    Mirrors account layer (w.perform account layer (.serve id)) := by
  change Mirrors account layer { w with participant := w.participant.serve account id }
  rcases serve_cases account w.participant id with hsame | ⟨hopened, text, rest, huplink, hserve⟩
  · rwa [hsame]
  · have htext : text ∈ w.participant.uplink id := huplink ▸ List.mem_cons_self
    obtain ⟨written, hauthor, hwritten⟩ := h.outgoing id text htext
    have hpeaceful : Peaceful (.message (account.connection id) text) := ⟨written, hwritten⟩
    refine h.answer (p := { w.participant with
        uplink := Function.update w.participant.uplink id rest }) rfl rfl rfl ?_
      (fun other hother => hother) hpeaceful hserve
      (answers laws h.housed hpeaceful hserve ?_ h.member hended ?_ ?_ ?_)
    · intro other t ht
      dsimp only at ht
      by_cases hother : other = id
      · subst hother
        rw [Function.update_self] at ht
        exact h.outgoing other t (huplink ▸ List.mem_cons_of_mem text ht)
      · rw [Function.update_of_ne hother] at ht
        exact h.outgoing other t ht
    · intro other
      simp
    · intro leaver hcall
      simp at hcall
    · intro author message hcall hdelta _ _ other hother
      obtain ⟨rfl, rfl⟩ := ServerCall.message.inj hcall
      have hsends : w.participant.Sends layer id := ⟨hopened, text, by rw [huplink]; rfl, hdelta⟩
      rw [halone hsends other hother]
    · intro other message v hcall hbody
      obtain ⟨-, rfl⟩ := ServerCall.message.inj hcall
      unfold messageBody at hbody
      obtain ⟨⟨name, body⟩, hparse, rfl⟩ := Option.map_eq_some_iff.1 hbody
      obtain ⟨v', he, -, huser, -⟩ := parseEvent_delta hwritten hparse
      obtain ⟨-, hv⟩ := Event.mk.inj he
      rw [Body.delta.inj hv, huser, hauthor]

lemma relays (laws : UsdLaws) (h : Mirrors account layer w) {k : Nat} {v : DeltaEvent}
    (hv : (w.participant.history account layer)[k]? = some v) :
    ∃ table, relayed v = some (k + 1, table) ∧ SameTable table v.updates := by
  obtain ⟨hnumber, hvalues⟩ := h.stored k v hv
  exact relayed_eq laws hvalues hnumber

lemma replayed (laws : UsdLaws) (h : Mirrors account layer w) (id number : Nat) (table : HashTable) :
    (number, table) ∈ told ((ServerCall.connected (account.connection id)).perform
        w.participant.server).sent (account.connection id) layer ↔
      ∃ (k : Nat) (v : DeltaEvent), number = k + 1 ∧
        (w.participant.history account layer)[k]? = some v ∧ relayed v = some (number, table) := by
  rw [(acts_on_channel h.housed.stored _).sent]
  change _ ∈ told (channelSent (w.participant.server.mChannels.lookup account.channel) _) _ layer ↔ _
  rw [mem_told_connected fun channel hchannel => h.housed.stored _ channel hchannel]
  constructor
  · rintro ⟨v, hv, hrelay⟩
    obtain ⟨k, hk⟩ := List.mem_iff_getElem?.1 hv
    obtain ⟨table', hrelay', -⟩ := h.relays laws hk
    have hnumber := congrArg Prod.fst (Option.some.inj (hrelay.symm.trans hrelay'))
    exact ⟨k, v, hnumber, hk, hrelay⟩
  · rintro ⟨k, v, -, hk, hrelay⟩
    exact ⟨v, List.mem_of_getElem? hk, hrelay⟩

/-- The user enters the channel and is sent the history. -/
lemma connect (laws : UsdLaws) (h : Mirrors account layer w) :
    Mirrors account layer (w.perform account layer .connect) := by
  change Mirrors account layer { w with participant := w.participant.connect account }
  cases hcurrent : w.participant.current with
  | some current =>
    have hsame : w.participant.connect account = w.participant := by
      rw [Participant.connect, hcurrent]
    rwa [hsame]
  | none =>
    let c := account.connection w.participant.created
    let call : ServerCall := .connected c
    let p : Participant := { w.participant with
      client := { w.participant.client with mWebsocketClient := some w.participant.created }
      created := w.participant.created + 1
      opened := w.participant.opened ++ [w.participant.created]
      current := some w.participant.created
      uplink := Function.update w.participant.uplink w.participant.created []
      downlink := [] }
    rw [connect_eq hcurrent]
    let q := p.withServer account (call.perform w.participant.server)
    have hlookup : q.server.mChannels.lookup account.channel =
        channelStep (w.participant.server.mChannels.lookup account.channel) call :=
      ((acts_on_channel h.housed.stored call).lookup account.channel).trans (if_pos rfl)
    have hhistory : q.history account layer = w.participant.history account layer := by
      rw [Participant.history, hlookup]
      exact historyOf_connected _ c layer
    have htold := h.replayed laws w.participant.created
    have hholds : ∀ number table, q.Holds layer number table →
        w.participant.Holds layer number table ∨
          (number, table) ∈ told (call.perform w.participant.server).sent c layer := by
      intro number table hheld
      rcases (holds_withServer _ number table).1 hheld with (hdownlink | hold) | ⟨id, hid, hnew⟩
      · exact absurd hdownlink List.not_mem_nil
      · exact .inl (.inr hold)
      · right
        obtain rfl : w.participant.created = id := Option.some.inj hid
        exact hnew
    refine ⟨h.housed.serve call, h.userId, h.noReloads, ?_, ?_, h.idle, h.stopped, ?_, h.count, ?_, ?_,
      ?_, ?_⟩
    · intro id text htext
      change text ∈ Function.update w.participant.uplink w.participant.created [] id at htext
      by_cases hid : id = w.participant.created
      · subst hid
        simp at htext
      · rw [Function.update_of_ne hid] at htext
        exact h.outgoing id text htext
    · have hpeaceful : Peaceful call := trivial
      have hnothing : ∀ text ∈ p.downlink, ¬IsReload text :=
        fun _ htext => absurd htext List.not_mem_nil
      exact incoming_withServer (p := p) h.housed hpeaceful hnothing
    · intro k v hv
      change (q.history account layer)[k]? = some v at hv
      rw [hhistory] at hv
      exact h.stored k v hv
    · intro k table hk
      change Tells account.user (q.history account layer) (k + 1) table
      rw [hhistory]
      exact h.fits k table hk
    · intro number table hheld
      change Tells account.user (q.history account layer) number table
      rw [hhistory]
      rcases hholds number table hheld with hold | hnew
      · exact h.holds number table hold
      · obtain ⟨k, v, rfl, hk, hrelay⟩ := (htold number table).1 hnew
        obtain ⟨table', hrelay', hsame⟩ := h.relays laws hk
        obtain rfl := congrArg Prod.snd (Option.some.inj (hrelay'.symm.trans hrelay))
        exact ⟨k, v, rfl, hk, .inr hsame⟩
    · rintro id ⟨hid, -⟩
      change some w.participant.created = some id at hid
      obtain rfl := Option.some.inj hid
      change c ∈ membersOf (q.server.mChannels.lookup account.channel)
      rw [hlookup, membersOf_connected]
      exact List.mem_append_right _ (List.mem_singleton.2 rfl)
    · rintro id ⟨hid, -⟩ number hlt hle
      change some w.participant.created = some id at hid
      obtain rfl := Option.some.inj hid
      change number ≤ (q.history account layer).length at hle
      rw [hhistory] at hle
      obtain ⟨k, rfl⟩ : ∃ k, number = k + 1 := ⟨number - 1, by omega⟩
      have hk := List.getElem?_eq_getElem (l := w.participant.history account layer) (i := k)
        (by omega)
      obtain ⟨table, hrelay, -⟩ := h.relays laws hk
      refine ⟨table, (holds_withServer _ _ table).2 (.inr ⟨w.participant.created, rfl, ?_⟩)⟩
      exact (htold _ table).2 ⟨k, _, rfl, hk, hrelay⟩

/-- An admitted step that is safe for the layer keeps the participant on track. -/
theorem perform (laws : UsdLaws) (h : Mirrors account layer w) {action : ParticipantAction}
    (hadmitted : w.participant.Admitted account action)
    (hsafe : w.participant.Safe account layer action) :
    Mirrors account layer (w.perform account layer action) := by
  cases action with
  | set edited path field value => exact h.set edited path field value
  | update files => exact h.update files (hsafe.read files rfl)
  | read opened file => exact h.read file hadmitted
  | connect => exact h.connect laws
  | disconnect => exact h.cut none rfl
  | lose => exact h.cut w.participant.client.mWebsocketClient rfl
  | deliver => exact h.deliver
  | serve id => exact h.serve laws (hsafe.served id rfl) (hsafe.ends h.housed)
  | drop id => exact h.drop laws (hsafe.dropped id rfl) (hsafe.ends h.housed)
  | call call => exact h.other laws hadmitted (hsafe.ends h.housed)

lemma init (account : Account) (layer : String) : Mirrors account layer (.init account) := by
  have hhistory : (Participant.init account).history account layer = [] := by
    simp [Participant.history, Participant.init, historyOf]
  refine ⟨housed_init, rfl, rfl, ?_, ?_, rfl, rfl, ?_, rfl, ?_, ?_, ?_, ?_⟩
  · exact fun id text htext => absurd htext List.not_mem_nil
  · exact fun text htext => absurd htext List.not_mem_nil
  · intro k v hv
    change ((Participant.init account).history account layer)[k]? = some v at hv
    rw [hhistory] at hv
    simp at hv
  · intro k table hk
    change ([] : List HashTable)[k]? = some table at hk
    simp at hk
  · rintro number table (hdownlink | haccumulated | hqueued)
    · exact absurd hdownlink List.not_mem_nil
    · exact absurd haccumulated List.not_mem_nil
    · exact absurd hqueued (by simp [Watched.init, Participant.init, Participant.data, layerData])
  · rintro id ⟨hid, -⟩
    exact absurd hid (by simp [Watched.init, Participant.init])
  · rintro id ⟨hid, -⟩
    exact absurd hid (by simp [Watched.init, Participant.init])

end Mirrors

/-- Nothing is lost by leaving and coming back as long as the server drops the old connections of
the user in time and the channel outlives what the user knows of it. -/
theorem caught_up_after_reconnects (laws : UsdLaws) (account : Account) (layer : String)
    (run : List ParticipantAction)
    (hadmitted : Runs.AllSteps (Watched.perform account layer)
      (fun w => w.participant.Admitted account) (.init account) run)
    (hsafe : Runs.AllSteps (Watched.perform account layer)
      (fun w => w.participant.Safe account layer) (.init account) run) :
    Runs.AllStates (Watched.perform account layer) (CaughtUp account layer) (.init account) run := by
  have hkeep : ∀ w action, Mirrors account layer w → w.participant.Admitted account action ∧
      w.participant.Safe account layer action →
      Mirrors account layer (w.perform account layer action) :=
    fun w action h hok => h.perform laws hok.1 hok.2
  have hmirrors := Runs.allStates_of_invariant hkeep (Mirrors.init account layer)
    (hadmitted.and hsafe)
  exact hmirrors.mono fun w h => h.caughtUp

section

variable {account : Account} {layer : String} {p : Participant}

open Participant

lemma alone_of_current {id : Nat} (h : p.current = none ∨ p.current = some id) : p.Alone id := by
  rintro other ⟨hcurrent, -⟩
  rcases h with hnone | hsome
  · rw [hnone] at hcurrent
    exact absurd hcurrent (by simp)
  · exact Option.some.inj (hcurrent.symm.trans hsome)

/-- Steps of the client and of others that stay. -/
def Calm : ParticipantAction → Bool
  | .update _ => false
  | .serve _ => false
  | .drop _ => false
  | .call (.disconnected _) => false
  | _ => true

lemma safe_of_calm {action : ParticipantAction} (h : Calm action = true) :
    p.Safe account layer action := by
  refine ⟨?_, ?_, ?_, ?_⟩
  · rintro id rfl
    exact absurd h Bool.false_ne_true
  · rintro id rfl
    exact absurd h Bool.false_ne_true
  · intro leaver hleaving
    cases action with
    | call call =>
      obtain rfl : call = .disconnected leaver := hleaving
      exact absurd h Bool.false_ne_true
    | drop id => exact absurd h Bool.false_ne_true
    | _ => exact hleaving.elim
  · rintro files rfl
    exact absurd h Bool.false_ne_true

lemma safe_update (files : String → Option HashTable)
    (h : (p.client.mLayerRegistry.lookup layer).isSome) : p.Safe account layer (.update files) := by
  refine ⟨nofun, nofun, fun _ hleaving => hleaving.elim, fun _ _ hnone => ?_⟩
  rw [hnone] at h
  exact absurd h (by simp)

lemma safe_serve {id : Nat} (h : p.current = none ∨ p.current = some id) :
    p.Safe account layer (.serve id) := by
  refine ⟨nofun, fun other hother _ => ?_, fun _ hleaving => hleaving.elim, nofun⟩
  obtain rfl : id = other := ParticipantAction.serve.inj hother
  exact alone_of_current h

lemma safe_drop {id : Nat} (h : p.current = none ∨ p.current = some id) {member : Connection}
    (hmember : member ∈ membersOf (p.server.mChannels.lookup account.channel))
    (hname : member.debugName ≠ account.user) : p.Safe account layer (.drop id) := by
  refine ⟨fun other hother _ => ?_, nofun, ?_, nofun⟩
  · obtain rfl : id = other := ParticipantAction.drop.inj hother
    exact alone_of_current h
  · rintro leaver ⟨-, rfl⟩ - - hnames
    exact absurd (hnames member hmember) hname

end

end

section

attribute [local instance] Usd.sample

def aliceInRoom : Account := ⟨"room", "alice"⟩

def bobsEdit : DeltaEvent :=
  ⟨"L", "bob", none, AList.insert "/a" { specType := .prim, fields := [("kind", .string "y")] } ∅⟩

def bobsText : Json := bobsEdit.event.toJson.toOption.getD .null

lemma bobsText_deltas : Deltas bobsText := ⟨bobsEdit, by rfl⟩

/-- Alice edits, and leaves and enters the channel in which Bob stays. -/
theorem caught_up_after_reconnects_bob_stays :
    let run : List ParticipantAction :=
      [.read "L" onePrim, .connect, .deliver, .call (.connected bob),
        .set "L" "/a" "kind" (.string "x"), .update noFiles, .serve 0, .deliver, .update noFiles,
        .disconnect, .drop 0, .call (.message bob bobsText), .connect, .deliver, .deliver, .deliver,
        .update noFiles]
    let w := Runs.final (Watched.perform aliceInRoom "L") (.init aliceInRoom) run
    Runs.AllStates (Watched.perform aliceInRoom "L") (CaughtUp aliceInRoom "L") (.init aliceInRoom)
        run ∧
      w.participant.current = some 1 ∧ w.participant.opened = [1] ∧
      (w.participant.data "L").getSequence = 2 ∧
      ((w.participant.data "L").get "/a" "kind").getStdString = "y" := by
  intro run w
  refine ⟨caught_up_after_reconnects sample_laws aliceInRoom "L" run ?_ ?_, by decide, by decide,
    by decide, by decide⟩
  · refine ⟨AList.lookup_empty "L", trivial, trivial, ⟨trivial, fun _ => by decide⟩, trivial, trivial,
      trivial, trivial, trivial, trivial, trivial, ⟨bobsText_deltas, fun _ => by decide⟩, trivial,
      trivial, trivial, trivial, trivial, trivial⟩
  · refine ⟨safe_of_calm rfl, safe_of_calm rfl, safe_of_calm rfl, safe_of_calm rfl, safe_of_calm rfl,
      safe_update noFiles (by decide), safe_serve (.inr (by decide)), safe_of_calm rfl,
      safe_update noFiles (by decide), safe_of_calm rfl, ?_, safe_of_calm rfl, safe_of_calm rfl,
      safe_of_calm rfl, safe_of_calm rfl, safe_of_calm rfl, safe_update noFiles (by decide), trivial⟩
    have hbob : bob ∈ membersOf (AList.lookup "room" (Runs.final (Watched.perform aliceInRoom "L")
        (.init aliceInRoom) (run.take 10)).participant.server.mChannels) := by decide
    exact safe_drop (.inl (by decide)) hbob (by decide)

/-- Alice leaves the channel as the last one. What Bob edits later has the number of her own edit. -/
theorem update_lost_after_channel_ended :
    let run : List ParticipantAction :=
      [.read "L" onePrim, .connect, .deliver, .set "L" "/a" "kind" (.string "x"), .update noFiles,
        .serve 0, .deliver, .update noFiles, .disconnect, .drop 0, .call (.connected bob), .connect,
        .deliver, .call (.message bob bobsText), .deliver, .update noFiles]
    let w := Runs.final (Watched.perform aliceInRoom "L") (.init aliceInRoom) run
    Runs.AllSteps (Watched.perform aliceInRoom "L") (fun w => w.participant.Admitted aliceInRoom)
        (.init aliceInRoom) run ∧
      ¬CaughtUp aliceInRoom "L" w ∧
      ((w.participant.data "L").get "/a" "kind").getStdString = "x" := by
  intro run w
  refine ⟨?_, fun h => ?_, by decide⟩
  · exact ⟨AList.lookup_empty "L", trivial, trivial, trivial, trivial, trivial, trivial, trivial,
      trivial, trivial, ⟨trivial, fun _ => by decide⟩, trivial, trivial,
      ⟨bobsText_deltas, fun _ => by decide⟩, trivial, trivial, trivial⟩
  · have hworking : w.participant.Working 1 := ⟨by decide, by decide⟩
    obtain ⟨d, hd⟩ := Option.isSome_iff_exists.1
      (show (w.participant.client.mLayerRegistry.lookup "L").isSome by decide)
    have happlied := (h 1 d hworking (by rfl) (by rfl) hd).2 0
    have hbobs : (w.participant.history aliceInRoom "L")[0]? = some _ := rfl
    rcases happlied _ hbobs with hown | ⟨table, htable, hsame⟩
    · revert hown
      decide
    · have hacknowledge : w.applied[0]? = some (AList.insert "/a" ({} : SpecData) ∅) := rfl
      obtain rfl := Option.some.inj (hacknowledge.symm.trans htable)
      have hfields := congrArg (Option.map fun spec : SpecData => spec.fields.length) (hsame "/a")
      revert hfields
      decide

end

end RenderStudioKit.Proofs
