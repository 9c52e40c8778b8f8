import RenderStudioKit.Proofs.Relay

/-!
# The numbers the server assigns

The accepted deltas of a layer form one log, cut into epochs by the reloads of the layer
and by the creation of its channel. A record of the run keeps these logs beside the state
of the server, and every event that was sent with the epoch it was sent in. The stream of a
connection is the log as that connection sees it.
-/

namespace RenderStudioKit.Proofs

open API

section

variable [Usd]

abbrev Log : Type := List (Connection × DeltaEvent)

/-- The logs of the finished epochs of a layer, oldest first, and that of the current one. -/
structure Epochs where
  past : List Log := []
  current : Log := []

def Epochs.accept (e : Epochs) (author : Connection) (v : DeltaEvent) : Epochs :=
  { e with current := e.current ++ [(author, v)] }

def Epochs.restart (e : Epochs) : Epochs := ⟨e.past ++ [e.current], []⟩

/-- The log of the epoch with this index. -/
def Epochs.log (e : Epochs) (index : Nat) : Log := ((e.past ++ [e.current])[index]?).getD []

/-- The epochs from this index on, with their indices. -/
def Epochs.since (e : Epochs) (index : Nat) : List (Log × Nat) :=
  e.past.zipIdx.drop index ++ [(e.current, e.past.length)]

/-- The layer a delta or an acknowledge is about. -/
def layerOf (event : Event) : Option String :=
  match event.body with
  | .delta v => some v.layer
  | .acknowledge v => some v.layer
  | _ => none

def sequenceOf (event : Event) : Option Nat :=
  match event.body with
  | .delta v => v.sequence
  | .acknowledge v => some v.sequence
  | _ => none

structure Record where
  logic : Logic := {}
  /-- by channel and layer -/
  epochs : String → String → Epochs := fun _ _ => {}
  /-- receiver, index of the epoch and event, in the order of sending -/
  sent : List (Connection × Nat × Event) := []

def changeEpochs (epochs : String → String → Epochs) (channel layer : String)
    (change : Epochs → Epochs) : String → String → Epochs :=
  fun channel' layer' => if channel' = channel ∧ layer' = layer then
    change (epochs channel' layer') else epochs channel' layer'

/-- A new channel starts an epoch of each of its layers, an accepted delta extends the
current epoch of its layer and a reload starts the next one. -/
def epochsAfter (r : Record) (call : ServerCall) : String → String → Epochs :=
  match call with
  | .connected connection =>
    if (r.logic.mChannels.lookup connection.channel).isSome then r.epochs
    else fun channel layer => if channel = connection.channel then
      (r.epochs channel layer).restart else r.epochs channel layer
  | .disconnected _ => r.epochs
  | .message author text =>
    if (r.logic.mChannels.lookup author.channel).isSome then
      match (parseEvent text).map Event.body with
      | some (.delta v) => changeEpochs r.epochs author.channel v.layer (·.accept author v)
      | some (.reload v) => changeEpochs r.epochs author.channel v.layer (·.restart)
      | _ => r.epochs
    else r.epochs

def epochIndex (epochs : String → String → Epochs) (channel : String) (event : Event) : Nat :=
  (layerOf event).elim 0 fun layer => (epochs channel layer).past.length

def record (r : Record) (call : ServerCall) : Record :=
  { logic := serve r.logic call
    epochs := epochsAfter r call
    sent := r.sent ++ (call.perform r.logic).sent.map fun s =>
      (s.1, epochIndex (epochsAfter r call) s.1.channel s.2, s.2) }

/-- The deltas and acknowledges of a layer sent to a connection, with their epochs. -/
def stream (r : Record) (c : Connection) (layer : String) : List (Nat × Event) :=
  (r.sent.filter fun s => s.1 = c ∧ layerOf s.2.2 = some layer).map Prod.snd

/-- The event numbered `k` as a connection sees it: an acknowledge for the author, the
delta with its number for everybody else. -/
def seenBy (c author : Connection) (v : DeltaEvent) (k : Nat) : Event :=
  if author = c then AcknowledgeEvent.event ⟨v.layer, v.updates.keys, k⟩
  else DeltaEvent.event { v with sequence := some k }

/-- A log as a connection sees it. -/
def seenLog (c : Connection) (log : Log) : List Event :=
  (log.zipIdx 1).map fun entry => seenBy c entry.1.1 entry.1.2 entry.2

/-- The stream of a connection that sees all epochs from this index on. -/
def seenSince (c : Connection) (e : Epochs) (index : Nat) : List (Nat × Event) :=
  (e.since index).flatMap fun epoch => (seenLog c epoch.1).map (epoch.2, ·)

/-- `c` joins after `before` and stays during `during`: it did nothing before, nobody in
its channel has its name when it joins, and while it stays it only sends messages and
nobody else of its channel acts under its name. -/
structure Stay (before : List ServerCall) (c : Connection) (during : List ServerCall) : Prop where
  fresh : ∀ call ∈ before, call.connection ≠ c
  alone : ∀ channel, (Runs.final serve {} before).mChannels.lookup c.channel = some channel →
    ∀ d ∈ channel.mConnections, d.debugName ≠ c.debugName
  stays : ∀ call ∈ during, call.connection = c → ∃ text, call = .message c text
  unique : ∀ call ∈ during, call.connection ≠ c → call.connection.channel = c.channel →
    call.connection.debugName ≠ c.debugName

@[simp] lemma seenLog_append (c : Connection) (log : Log) (author : Connection) (v : DeltaEvent) :
    seenLog c (log ++ [(author, v)]) = seenLog c log ++ [seenBy c author v (log.length + 1)] := by
  unfold seenLog
  rw [List.zipIdx_append, List.map_append, Nat.add_comm]
  rfl

lemma seenSince_accept (c : Connection) (e : Epochs) (index : Nat) (author : Connection)
    (v : DeltaEvent) :
    seenSince c (e.accept author v) index =
      seenSince c e index ++ [(e.past.length, seenBy c author v (e.current.length + 1))] := by
  unfold seenSince Epochs.since Epochs.accept
  simp only [List.flatMap_append, List.flatMap_singleton, seenLog_append, List.map_append,
    List.map_cons, List.map_nil, List.append_assoc]

lemma seenSince_restart (c : Connection) (e : Epochs) {index : Nat}
    (h : index ≤ e.past.length) : seenSince c e.restart index = seenSince c e index := by
  have hdrop : (e.past ++ [e.current]).zipIdx.drop index =
      e.past.zipIdx.drop index ++ [(e.current, e.past.length)] := by
    rw [List.zipIdx_append, List.drop_append_of_le_length (by simpa using h)]
    simp
  unfold seenSince Epochs.since Epochs.restart
  simp [hdrop, seenLog]

lemma seenSince_current (c : Connection) (e : Epochs) :
    seenSince c e e.past.length = (seenLog c e.current).map (e.past.length, ·) := by
  unfold seenSince Epochs.since
  rw [List.drop_of_length_le (by simp)]
  simp

lemma lookup_insert_cases {l : Logic} {name name' : String} {channel channel' : Channel}
    (h : (l.mChannels.insert name channel).lookup name' = some channel') :
    (name' = name ∧ channel' = channel) ∨
      (name' ≠ name ∧ l.mChannels.lookup name' = some channel') := by
  by_cases hname : name' = name
  · subst hname
    rw [AList.lookup_insert, Option.some.injEq] at h
    exact .inl ⟨rfl, h.symm⟩
  · rw [AList.lookup_insert_ne hname] at h
    exact .inr ⟨hname, h⟩

lemma onDisconnected_sent (l : Logic) (connection : Connection) :
    (l.onDisconnected connection).sent = [] := by
  unfold Logic.onDisconnected
  cases l.mChannels.lookup connection.channel with
  | none => rfl
  | some channel =>
    dsimp only
    split <;> rfl

lemma lookup_onDisconnected {l : Logic} {connection : Connection} {name : String}
    {channel : Channel} (h : (l.onDisconnected connection).logic.mChannels.lookup name = some channel) :
    ∃ old, l.mChannels.lookup name = some old ∧ channel.mHistory = old.mHistory ∧
      ∀ d ∈ channel.mConnections, d ∈ old.mConnections := by
  unfold Logic.onDisconnected at h
  cases hlookup : l.mChannels.lookup connection.channel with
  | none =>
    rw [hlookup] at h
    exact ⟨channel, h, rfl, fun d hd => hd⟩
  | some old =>
    simp only [hlookup] at h
    split_ifs at h
    · by_cases hname : name = connection.channel
      · subst hname
        simp at h
      · rw [AList.lookup_erase_ne hname] at h
        exact ⟨channel, h, rfl, fun d hd => hd⟩
    · rcases lookup_insert_cases h with ⟨rfl, rfl⟩ | ⟨-, hold⟩
      · exact ⟨old, hlookup, rfl, fun d hd => List.mem_of_mem_filter hd⟩
      · exact ⟨channel, hold, rfl, fun d hd => hd⟩

lemma lookup_onDisconnected_stays {l : Logic} {connection c : Connection} {channel : Channel}
    (hchannel : l.mChannels.lookup c.channel = some channel) (hc : c ∈ channel.mConnections)
    (hname : connection.channel = c.channel → connection.debugName ≠ c.debugName) :
    ∃ left, (l.onDisconnected connection).logic.mChannels.lookup c.channel = some left ∧
      (left = channel ∨ (connection.channel = c.channel ∧ left = channel.removeConnection connection)) := by
  unfold Logic.onDisconnected
  by_cases hsame : connection.channel = c.channel
  · have hleft : c ∈ (channel.removeConnection connection).mConnections :=
      List.mem_filter.2 ⟨hc, by simpa using (hname hsame).symm⟩
    have hnonempty : (channel.removeConnection connection).empty = false := by
      unfold Channel.empty
      rw [List.isEmpty_eq_false_iff]
      exact List.ne_nil_of_mem hleft
    rw [hsame, hchannel]
    simp only [hnonempty, Bool.false_eq_true, if_false]
    exact ⟨_, AList.lookup_insert _, .inr ⟨trivial, rfl⟩⟩
  · refine ⟨channel, ?_, .inl rfl⟩
    cases hlookup : l.mChannels.lookup connection.channel with
    | none => exact hchannel
    | some old =>
      dsimp only
      split_ifs
      · rwa [AList.lookup_erase_ne (Ne.symm hsame)]
      · rwa [AList.lookup_insert_ne (Ne.symm hsame)]

/-- What a message does to the record: nothing, or it accepts a delta, or it reloads a
layer. -/
lemma message_cases {r : Record} (h : Stored r.logic) (author : Connection) (text : Json) :
    record r (.message author text) = r ∨
      (∃ channel, ∃ v : DeltaEvent, r.logic.mChannels.lookup author.channel = some channel ∧
        AllValues Decoded v.updates ∧
        let k := (deltas channel v.layer).length + 1
        let epochs := changeEpochs r.epochs author.channel v.layer (·.accept author v)
        record r (.message author text) =
          { logic := ⟨r.logic.mChannels.insert author.channel
              (channel.addToHistory { v with sequence := some k })⟩
            epochs := epochs
            sent := r.sent ++ ((channel.receivers author).map
                (·, DeltaEvent.event { v with sequence := some k }) ++
              [(author, AcknowledgeEvent.event ⟨v.layer, v.updates.keys, k⟩)]).map fun s =>
                (s.1, epochIndex epochs s.1.channel s.2, s.2) }) ∨
      ∃ channel, ∃ v : ReloadEvent, r.logic.mChannels.lookup author.channel = some channel ∧
        let epochs := changeEpochs r.epochs author.channel v.layer (·.restart)
        record r (.message author text) =
          { logic := ⟨r.logic.mChannels.insert author.channel (channel.clearHistory v.layer)⟩
            epochs := epochs
            sent := r.sent ++ ((channel.receivers author).map (·, ReloadEvent.event
              { v with sequence := some ((deltas channel v.layer).length + 1) })).map fun s =>
                (s.1, epochIndex epochs s.1.channel s.2, s.2) } := by
  unfold record epochsAfter serve
  simp only [ServerCall.perform, Logic.onMessage]
  cases hparse : parseEvent text with
  | none => left; cases r; simp
  | some event =>
    obtain ⟨name, body⟩ := event
    cases hlookup : r.logic.mChannels.lookup author.channel with
    | none =>
      left
      cases body <;> cases r <;> simp_all [Logic.onDelta, Logic.onReload]
    | some channel =>
      cases body with
      | delta v =>
        have hv := (parseEvent_decoded hparse).values v rfl
        right; left
        refine ⟨channel, v, rfl, hv, ?_⟩
        simp only [onDelta_eq hlookup hv, Option.isSome_some, if_true, Option.map_some]
      | reload v =>
        right; right
        refine ⟨channel, v, rfl, ?_⟩
        simp only [onReload_eq hlookup, Option.isSome_some, if_true, Option.map_some]
      | history => left; cases r; simp
      | acknowledge v => left; cases r; simp

/-- The stored deltas of a log. -/
def numbered (log : Log) : List DeltaEvent :=
  (log.zipIdx 1).map fun entry => { entry.1.2 with sequence := some entry.2 }

structure Consistent (r : Record) : Prop where
  stored : Stored r.logic
  members : ∀ name channel, r.logic.mChannels.lookup name = some channel →
    ∀ d ∈ channel.mConnections, d.channel = name
  history : ∀ name channel, r.logic.mChannels.lookup name = some channel →
    ∀ layer, deltas channel layer = numbered (r.epochs name layer).current

lemma numbered_length (log : Log) : (numbered log).length = log.length := by
  simp [numbered]

lemma numbered_append (log : Log) (author : Connection) (v : DeltaEvent) :
    numbered (log ++ [(author, v)]) =
      numbered log ++ [{ v with sequence := some (log.length + 1) }] := by
  unfold numbered
  rw [List.zipIdx_append, List.map_append, Nat.add_comm]
  rfl

lemma connected_logic {r : Record} (h : Stored r.logic) (c : Connection) :
    (record r (.connected c)).logic =
      ⟨r.logic.mChannels.insert c.channel ((joinedChannel r.logic c).addConnection c)⟩ :=
  congrArg Outcome.logic (onConnected_eq h c)

lemma Consistent.connected {r : Record} (h : Consistent r) (c : Connection) :
    Consistent (record r (.connected c)) where
  stored := (h.stored.perform (.connected c)).1
  members name channel hlookup := by
    rw [connected_logic h.stored c] at hlookup
    rcases lookup_insert_cases hlookup with ⟨rfl, rfl⟩ | ⟨-, hold⟩
    · intro d hd
      rcases List.mem_append.1 hd with hd | hd
      · unfold joinedChannel at hd
        cases hjoined : r.logic.mChannels.lookup c.channel with
        | none => simp [hjoined] at hd
        | some old =>
          rw [hjoined] at hd
          exact h.members c.channel old hjoined d hd
      · rw [List.mem_singleton.1 hd]
    · exact h.members name channel hold
  history name channel hlookup layer := by
    rw [connected_logic h.stored c] at hlookup
    simp only [record, epochsAfter]
    rcases lookup_insert_cases hlookup with ⟨rfl, rfl⟩ | ⟨hne, hold⟩
    · change deltas (joinedChannel r.logic c) layer = _
      unfold joinedChannel
      cases hjoined : r.logic.mChannels.lookup c.channel with
      | none => simp [deltas, numbered, Epochs.restart]
      | some old => simpa using h.history c.channel old hjoined layer
    · rw [h.history name channel hold layer]
      split_ifs
      · rfl
      · simp only [hne, if_false]

lemma Consistent.disconnected {r : Record} (h : Consistent r) (c : Connection) :
    Consistent (record r (.disconnected c)) where
  stored := (h.stored.perform (.disconnected c)).1
  members name channel hlookup d hd := by
    obtain ⟨old, hold, -, hsub⟩ := lookup_onDisconnected hlookup
    exact h.members name old hold d (hsub d hd)
  history name channel hlookup layer := by
    obtain ⟨old, hold, hsame, -⟩ := lookup_onDisconnected hlookup
    have hdeltas : deltas channel layer = deltas old layer := by
      unfold deltas
      rw [hsame]
    rw [hdeltas]
    exact h.history name old hold layer

lemma Consistent.message {r : Record} (h : Consistent r) (author : Connection) (text : Json) :
    Consistent (record r (.message author text)) := by
  have hstored := (h.stored.perform (.message author text)).1
  rcases message_cases h.stored author text with
    heq | ⟨old, v, hold, hv, heq⟩ | ⟨old, v, hold, heq⟩
  · rwa [heq]
  · refine ⟨hstored, ?_, ?_⟩
    · intro name channel hlookup
      rw [heq] at hlookup
      rcases lookup_insert_cases hlookup with ⟨rfl, rfl⟩ | ⟨-, hother⟩
      · exact h.members author.channel old hold
      · exact h.members name channel hother
    · intro name channel hlookup layer
      rw [heq] at hlookup ⊢
      simp only [changeEpochs]
      rcases lookup_insert_cases hlookup with ⟨rfl, rfl⟩ | ⟨hne, hother⟩
      · have hhistory := h.history author.channel old hold layer
        rw [deltas_addToHistory, hhistory]
        by_cases hlayer : layer = v.layer
        · subst hlayer
          have hlength : (deltas old v.layer).length =
              (r.epochs author.channel v.layer).current.length := by
            rw [hhistory, numbered_length]
          simp only [if_true, and_self, Epochs.accept, numbered_append, hlength]
        · simp only [hlayer, and_false, if_false]
      · simp only [hne, false_and, if_false]
        exact h.history name channel hother layer
  · refine ⟨hstored, ?_, ?_⟩
    · intro name channel hlookup
      rw [heq] at hlookup
      rcases lookup_insert_cases hlookup with ⟨rfl, rfl⟩ | ⟨-, hother⟩
      · rw [clearHistory_connections]
        exact h.members author.channel old hold
      · exact h.members name channel hother
    · intro name channel hlookup layer
      rw [heq] at hlookup ⊢
      simp only [changeEpochs]
      rcases lookup_insert_cases hlookup with ⟨rfl, rfl⟩ | ⟨hne, hother⟩
      · rw [deltas_clearHistory, h.history author.channel old hold layer]
        by_cases hlayer : layer = v.layer
        · simp [hlayer, Epochs.restart, numbered]
        · simp only [hlayer, and_false, if_false]
      · simp only [hne, false_and, if_false]
        exact h.history name channel hother layer

lemma Consistent.record {r : Record} (h : Consistent r) (call : ServerCall) :
    Consistent (record r call) := by
  cases call with
  | connected c => exact h.connected c
  | disconnected c => exact h.disconnected c
  | message author text => exact h.message author text

/-- What one call adds to a stream. -/
def added (c : Connection) (layer : String) (epochs : String → String → Epochs)
    (sent : List (Connection × Event)) : List (Nat × Event) :=
  (sent.filter fun s => s.1 = c ∧ layerOf s.2 = some layer).map fun s =>
    ((epochs c.channel layer).past.length, s.2)

lemma stream_append (r : Record) (logic : Logic) (epochs : String → String → Epochs)
    (sent : List (Connection × Event)) (c : Connection) (layer : String) :
    stream { logic := logic, epochs := epochs, sent := r.sent ++ sent.map fun s =>
        (s.1, epochIndex epochs s.1.channel s.2, s.2) } c layer =
      stream r c layer ++ added c layer epochs sent := by
  unfold stream added
  rw [List.filter_append, List.map_append, List.filter_map, List.map_map]
  congr 1
  apply List.map_congr_left
  intro s hs
  obtain ⟨-, hs⟩ := List.mem_filter.1 hs
  obtain ⟨hc, hlayer⟩ : s.1 = c ∧ layerOf s.2 = some layer := of_decide_eq_true hs
  simp only [Function.comp, epochIndex, hlayer, hc, Option.elim_some]

lemma added_others {c : Connection} {layer : String} {epochs : String → String → Epochs}
    {sent : List (Connection × Event)} (h : ∀ s ∈ sent, s.1 = c → layerOf s.2 ≠ some layer) :
    added c layer epochs sent = [] := by
  unfold added
  rw [List.map_eq_nil_iff, List.filter_eq_nil_iff]
  intro s hs hcontra
  obtain ⟨hc, hlayer⟩ := of_decide_eq_true hcontra
  exact h s hs hc hlayer

/-- `c` never acted: nobody lists it, nothing was sent to it and no log names it. -/
structure Absent (c : Connection) (r : Record) : Prop where
  unlisted : ∀ name channel, r.logic.mChannels.lookup name = some channel →
    c ∉ channel.mConnections
  silent : ∀ layer, stream r c layer = []
  unauthored : ∀ name layer, ∀ entry ∈ (r.epochs name layer).current, entry.1 ≠ c

/-- `c` stays in its channel and has seen every epoch from `first layer` on. -/
structure Present (c : Connection) (first : String → Nat) (r : Record) : Prop where
  listed : ∃ channel, r.logic.mChannels.lookup c.channel = some channel ∧
    channel.mConnections.filter (·.debugName = c.debugName) = [c]
  started : ∀ layer, first layer ≤ (r.epochs c.channel layer).past.length
  stream : ∀ layer, stream r c layer = seenSince c (r.epochs c.channel layer) (first layer)

lemma changeEpochs_current_subset {epochs : String → String → Epochs} {channel layer : String}
    {change : Epochs → Epochs} {P : Connection × DeltaEvent → Prop}
    (h : ∀ name layer, ∀ entry ∈ (epochs name layer).current, P entry)
    (hchange : ∀ e : Epochs, (∀ entry ∈ e.current, P entry) →
      ∀ entry ∈ (change e).current, P entry) :
    ∀ name layer', ∀ entry ∈ (changeEpochs epochs channel layer change name layer').current,
      P entry := by
  intro name layer' entry hentry
  unfold changeEpochs at hentry
  split_ifs at hentry
  · exact hchange _ (h name layer') entry hentry
  · exact h name layer' entry hentry

lemma Absent.stays_silent {c : Connection} {r : Record} (h : Absent c r) (logic : Logic)
    (epochs : String → String → Epochs) {sent : List (Connection × Event)}
    (hsent : ∀ s ∈ sent, s.1 ≠ c) (layer : String) :
    stream { logic := logic, epochs := epochs, sent := r.sent ++ sent.map fun s =>
        (s.1, epochIndex epochs s.1.channel s.2, s.2) } c layer = [] := by
  rw [stream_append, h.silent layer, List.nil_append]
  exact added_others fun s hs hc => absurd hc (hsent s hs)

lemma Absent.connected {c d : Connection} {r : Record} (h : Absent c r)
    (hconsistent : Consistent r) (hd : d ≠ c) : Absent c (record r (.connected d)) := by
  refine ⟨?_, fun layer => h.stays_silent _ _ ?_ layer, ?_⟩
  · intro name channel hlookup
    rw [connected_logic hconsistent.stored d] at hlookup
    rcases lookup_insert_cases hlookup with ⟨rfl, rfl⟩ | ⟨-, hold⟩
    · intro hc
      rcases List.mem_append.1 hc with hc | hc
      · unfold joinedChannel at hc
        cases hjoined : r.logic.mChannels.lookup d.channel with
        | none => simp [hjoined] at hc
        | some old =>
          rw [hjoined] at hc
          exact h.unlisted d.channel old hjoined hc
      · exact hd (List.mem_singleton.1 hc).symm
    · exact h.unlisted name channel hold
  · intro s hs
    have hsent := congrArg Outcome.sent (onConnected_eq hconsistent.stored d)
    simp only [ServerCall.perform] at hs
    rw [hsent] at hs
    rcases List.mem_append.1 hs with hs | hs
    · obtain ⟨delta, -, rfl⟩ := List.mem_map.1 hs
      exact hd
    · rw [List.mem_singleton.1 hs]
      exact hd
  · intro name layer entry hentry
    simp only [Proofs.record, epochsAfter] at hentry
    split_ifs at hentry
    · exact h.unauthored name layer entry hentry
    · dsimp only at hentry
      split_ifs at hentry
      · simp [Epochs.restart] at hentry
      · exact h.unauthored name layer entry hentry

lemma Absent.disconnected {c : Connection} {r : Record} (h : Absent c r) (d : Connection) :
    Absent c (record r (.disconnected d)) := by
  refine ⟨?_, fun layer => h.stays_silent _ _ ?_ layer, h.unauthored⟩
  · intro name channel hlookup hc
    obtain ⟨old, hold, -, hsub⟩ := lookup_onDisconnected hlookup
    exact h.unlisted name old hold (hsub c hc)
  · intro s hs
    simp only [ServerCall.perform, onDisconnected_sent, List.not_mem_nil] at hs

lemma Absent.unlisted_insert {c author : Connection} {r : Record} (h : Absent c r)
    {channel channel' : Channel} (hchannel : r.logic.mChannels.lookup author.channel = some channel)
    {name : String} {found : Channel}
    (hlookup : (r.logic.mChannels.insert author.channel channel').lookup name = some found)
    (hconnections : channel'.mConnections = channel.mConnections) : c ∉ found.mConnections := by
  rcases lookup_insert_cases hlookup with ⟨rfl, rfl⟩ | ⟨-, hother⟩
  · rw [hconnections]
    exact h.unlisted author.channel channel hchannel
  · exact h.unlisted name found hother

lemma Absent.message {c author : Connection} {r : Record} (h : Absent c r)
    (hconsistent : Consistent r) (hauthor : author ≠ c) (text : Json) :
    Absent c (record r (.message author text)) := by
  have hreceivers : ∀ {channel : Channel}, r.logic.mChannels.lookup author.channel = some channel →
      ∀ d ∈ channel.receivers author, d ≠ c := by
    rintro channel hchannel d hd rfl
    exact h.unlisted author.channel channel hchannel (List.mem_of_mem_filter hd)
  rcases message_cases hconsistent.stored author text with
    heq | ⟨old, v, hold, -, heq⟩ | ⟨old, v, hold, heq⟩
  · rwa [heq]
  · rw [heq]
    refine ⟨fun _ _ hlookup => h.unlisted_insert hold hlookup rfl,
      fun layer => h.stays_silent _ _ ?_ layer, ?_⟩
    · intro s hs
      rcases List.mem_append.1 hs with hs | hs
      · obtain ⟨d, hd, rfl⟩ := List.mem_map.1 hs
        exact hreceivers hold d hd
      · rw [List.mem_singleton.1 hs]
        exact hauthor
    · apply changeEpochs_current_subset h.unauthored
      intro e he entry hentry
      rcases List.mem_append.1 hentry with hentry | hentry
      · exact he entry hentry
      · rw [List.mem_singleton.1 hentry]
        exact hauthor
  · rw [heq]
    refine ⟨fun _ _ hlookup => ?_, fun layer => h.stays_silent _ _ ?_ layer, ?_⟩
    · exact h.unlisted_insert hold hlookup (clearHistory_connections old v.layer)
    · intro s hs
      obtain ⟨d, hd, rfl⟩ := List.mem_map.1 hs
      exact hreceivers hold d hd
    · apply changeEpochs_current_subset h.unauthored
      intro e he entry hentry
      simp [Epochs.restart] at hentry

lemma Absent.record {c : Connection} {r : Record} (h : Absent c r) (hconsistent : Consistent r)
    {call : ServerCall} (hcall : call.connection ≠ c) : Absent c (record r call) := by
  cases call with
  | connected d => exact h.connected hconsistent hcall
  | disconnected d => exact h.disconnected d
  | message author text => exact h.message hconsistent hcall text

lemma filter_flatMap_layer (layer : String)
    (entries : List (Sigma fun _ : String => List DeltaEvent)) (hnodup : entries.NodupKeys)
    (h : ∀ entry ∈ entries, ∀ delta ∈ entry.2, delta.layer = entry.1) :
    (entries.flatMap (·.2)).filter (fun delta => delta.layer = layer) =
      (entries.dlookup layer).getD [] := by
  induction entries with
  | nil => rfl
  | cons entry entries ih =>
    obtain ⟨key, history⟩ := entry
    obtain ⟨hnew, hrest⟩ := List.nodupKeys_cons.1 hnodup
    have hkey : ∀ delta ∈ history, delta.layer = key := h ⟨key, history⟩ List.mem_cons_self
    have htail := ih hrest fun e he => h e (List.mem_cons_of_mem _ he)
    rw [List.flatMap_cons, List.filter_append, htail]
    by_cases hlayer : layer = key
    · subst hlayer
      have hall : history.filter (fun delta => delta.layer = layer) = history :=
        List.filter_eq_self.2 fun delta hdelta => decide_eq_true (hkey delta hdelta)
      rw [hall, List.dlookup_cons_eq, List.dlookup_eq_none.2 hnew]
      simp
    · have hnone : history.filter (fun delta => delta.layer = layer) = [] := by
        rw [List.filter_eq_nil_iff]
        intro delta hdelta hcontra
        exact hlayer ((of_decide_eq_true hcontra).symm.trans (hkey delta hdelta))
      rw [hnone, List.nil_append, List.dlookup_cons_ne _ _ hlayer]

lemma replay_filter {channel : Channel} (h : StoredChannel channel) (layer : String) :
    (replay channel).filter (fun delta => delta.layer = layer) = deltas channel layer := by
  apply filter_flatMap_layer layer channel.mHistory.entries channel.mHistory.nodupKeys
  intro entry hentry delta hdelta
  have hlookup : channel.mHistory.lookup entry.1 = some entry.2 := AList.mem_lookup_iff.2 hentry
  refine (h entry.1 delta ?_).1
  rwa [deltas, hlookup, Option.getD_some]

lemma seenLog_eq_numbered {c : Connection} {log : Log} (h : ∀ entry ∈ log, entry.1 ≠ c) :
    seenLog c log = (numbered log).map DeltaEvent.event := by
  unfold seenLog numbered
  rw [List.map_map]
  apply List.map_congr_left
  intro entry hentry
  have hauthor : entry.1.1 ≠ c := h entry.1 (List.fst_mem_of_mem_zipIdx hentry)
  simp only [Function.comp, seenBy, if_neg hauthor]

omit [Usd] in
lemma filter_name_eq_nil {c : Connection} {connections : List Connection}
    (h : ∀ d ∈ connections, d.debugName ≠ c.debugName) :
    connections.filter (·.debugName = c.debugName) = [] := by
  rw [List.filter_eq_nil_iff]
  intro d hd hcontra
  exact h d hd (of_decide_eq_true hcontra)

/-- A connection that joins sees the current epoch of every layer. -/
lemma Present.join {c : Connection} {r : Record} (hconsistent : Consistent r) (h : Absent c r)
    (halone : ∀ channel, r.logic.mChannels.lookup c.channel = some channel →
      ∀ d ∈ channel.mConnections, d.debugName ≠ c.debugName) :
    Present c (fun layer => ((record r (.connected c)).epochs c.channel layer).past.length)
      (record r (.connected c)) := by
  have hlogic := connected_logic hconsistent.stored c
  have hlookup : (record r (.connected c)).logic.mChannels.lookup c.channel =
      some ((joinedChannel r.logic c).addConnection c) := by
    rw [hlogic]
    exact AList.lookup_insert _
  have hconsistent' := hconsistent.record (.connected c)
  refine ⟨⟨_, hlookup, ?_⟩, fun layer => le_rfl, fun layer => ?_⟩
  · have hnobody : (joinedChannel r.logic c).mConnections.filter
        (·.debugName = c.debugName) = [] := by
      unfold joinedChannel
      cases hjoined : r.logic.mChannels.lookup c.channel with
      | none => rfl
      | some channel => exact filter_name_eq_nil (halone channel hjoined)
    simp [Channel.addConnection, List.filter_append, hnobody]
  · have hcurrent : ∀ entry ∈ ((record r (.connected c)).epochs c.channel layer).current,
        entry.1 ≠ c := by
      intro entry hentry
      simp only [record, epochsAfter] at hentry
      split_ifs at hentry
      · exact h.unauthored c.channel layer entry hentry
      · simp [Epochs.restart] at hentry
    have hhistory : deltas (joinedChannel r.logic c) layer =
        numbered ((record r (.connected c)).epochs c.channel layer).current :=
      hconsistent'.history c.channel _ hlookup layer
    rw [seenSince_current, seenLog_eq_numbered hcurrent, ← hhistory,
      ← replay_filter (hconsistent.stored.joinedChannel c) layer]
    refine (stream_append r _ _ _ c layer).trans ?_
    have hsent := congrArg Outcome.sent (onConnected_eq hconsistent.stored c)
    simp only [ServerCall.perform, hsent]
    rw [h.silent layer, List.nil_append]
    unfold added
    rw [List.filter_append, List.filter_map, List.map_append, List.map_map, List.map_map]
    simp [Function.comp_def, layerOf, historyEvent, DeltaEvent.event, record]

lemma filter_receivers {c author : Connection} {channel : Channel}
    (hlisted : channel.mConnections.filter (·.debugName = c.debugName) = [c])
    (hname : author.debugName ≠ c.debugName) :
    (channel.receivers author).filter (· = c) = [c] := by
  have hsplit : (channel.receivers author).filter (· = c) =
      (channel.mConnections.filter (·.debugName = c.debugName)).filter (· = c) := by
    unfold Channel.receivers
    rw [List.filter_filter, List.filter_filter]
    apply List.filter_congr
    intro d _
    by_cases hd : d = c
    · subst hd
      simp [hname.symm]
    · simp [hd]
  rw [hsplit, hlisted]
  simp

lemma not_mem_receivers {c : Connection} (channel : Channel) : c ∉ channel.receivers c := by
  unfold Channel.receivers
  simp

lemma changeEpochs_of_ne {epochs : String → String → Epochs} {channel layer : String}
    {change : Epochs → Epochs} {channel' layer' : String}
    (h : ¬(channel' = channel ∧ layer' = layer)) :
    changeEpochs epochs channel layer change channel' layer' = epochs channel' layer' :=
  if_neg h

lemma changeEpochs_past_le {epochs : String → String → Epochs} {channel layer : String}
    {change : Epochs → Epochs} (h : ∀ e : Epochs, e.past.length ≤ (change e).past.length)
    {channel' layer' : String} : (epochs channel' layer').past.length ≤
      (changeEpochs epochs channel layer change channel' layer').past.length := by
  unfold changeEpochs
  split_ifs
  · exact h _
  · exact le_rfl

/-- An accepted delta shows up once in the stream of everybody who stays. -/
lemma Present.accept {c : Connection} {first : String → Nat} {r : Record} (h : Present c first r)
    (hconsistent : Consistent r) {author : Connection} {channel : Channel} {v : DeltaEvent}
    (hchannel : r.logic.mChannels.lookup author.channel = some channel)
    (hname : author ≠ c → author.channel = c.channel → author.debugName ≠ c.debugName)
    (layer : String) :
    let k := (deltas channel v.layer).length + 1
    let epochs := changeEpochs r.epochs author.channel v.layer (·.accept author v)
    seenSince c (r.epochs c.channel layer) (first layer) ++ added c layer epochs
        ((channel.receivers author).map (·, DeltaEvent.event { v with sequence := some k }) ++
          [(author, AcknowledgeEvent.event ⟨v.layer, v.updates.keys, k⟩)]) =
      seenSince c (epochs c.channel layer) (first layer) := by
  intro k epochs
  obtain ⟨own, hown, hlisted⟩ := h.listed
  by_cases hlayer : layer = v.layer
  · by_cases hsame : c.channel = author.channel
    · have hchannel' : channel = own := by
        rw [hsame, hchannel] at hown
        exact Option.some.inj hown
      have hepochs : epochs c.channel layer = (r.epochs c.channel layer).accept author v :=
        if_pos ⟨hsame, hlayer⟩
      have hk : k = (r.epochs c.channel layer).current.length + 1 := by
        have hhistory := hconsistent.history author.channel channel hchannel v.layer
        simp only [k, hhistory, numbered_length, hsame, hlayer]
      rw [hepochs, seenSince_accept, ← hk]
      congr 1
      unfold added
      rw [hepochs, List.filter_append, List.filter_map]
      by_cases hauthor : author = c
      · subst hauthor
        have hnone : (channel.receivers author).filter (fun d => d = author) = [] := by
          rw [List.filter_eq_nil_iff]
          intro d hd hcontra
          exact not_mem_receivers channel (of_decide_eq_true hcontra ▸ hd)
        simp [Function.comp_def, layerOf, DeltaEvent.event, AcknowledgeEvent.event, seenBy, hlayer,
          hnone, Epochs.accept]
      · have hone := filter_receivers hlisted (hname hauthor hsame.symm)
        simp [Function.comp_def, layerOf, DeltaEvent.event, AcknowledgeEvent.event, seenBy, hlayer,
          hauthor, hchannel', hone, Epochs.accept]
    · have hepochs : epochs c.channel layer = r.epochs c.channel layer :=
        changeEpochs_of_ne fun hcontra => hsame hcontra.1
      rw [hepochs, added_others, List.append_nil]
      intro s hs hc
      have hforeign : s.1.channel = author.channel := by
        rcases List.mem_append.1 hs with hs | hs
        · obtain ⟨d, hd, rfl⟩ := List.mem_map.1 hs
          exact hconsistent.members author.channel channel hchannel d (List.mem_of_mem_filter hd)
        · rw [List.mem_singleton.1 hs]
      exact absurd (hc ▸ hforeign) hsame
  · have hepochs : epochs c.channel layer = r.epochs c.channel layer :=
      changeEpochs_of_ne fun hcontra => hlayer hcontra.2
    rw [hepochs, added_others, List.append_nil]
    intro s hs _ hlayer'
    apply hlayer
    rcases List.mem_append.1 hs with hs | hs
    · obtain ⟨d, -, rfl⟩ := List.mem_map.1 hs
      exact (Option.some.inj hlayer').symm
    · rw [List.mem_singleton.1 hs] at hlayer'
      exact (Option.some.inj hlayer').symm

lemma Present.unchanged {c : Connection} {first : String → Nat} {r : Record}
    (h : Present c first r) {logic : Logic} {epochs : String → String → Epochs}
    {sent : List (Connection × Event)}
    (hlisted : ∃ channel, logic.mChannels.lookup c.channel = some channel ∧
      channel.mConnections.filter (·.debugName = c.debugName) = [c])
    (hepochs : ∀ layer, epochs c.channel layer = r.epochs c.channel layer)
    (hsent : ∀ s ∈ sent, s.1 ≠ c) :
    Present c first { logic := logic, epochs := epochs, sent := r.sent ++ sent.map fun s =>
        (s.1, epochIndex epochs s.1.channel s.2, s.2) } := by
  refine ⟨hlisted, fun layer => ?_, fun layer => ?_⟩
  · simp only [hepochs]
    exact h.started layer
  · rw [stream_append, added_others fun s hs hc => absurd hc (hsent s hs), List.append_nil,
      h.stream layer]
    simp only [hepochs]

lemma Present.connected {c d : Connection} {first : String → Nat} {r : Record}
    (h : Present c first r) (hconsistent : Consistent r) (hd : d ≠ c)
    (hname : d.channel = c.channel → d.debugName ≠ c.debugName) :
    Present c first (record r (.connected d)) := by
  obtain ⟨own, hown, hlisted⟩ := h.listed
  have hsent := congrArg Outcome.sent (onConnected_eq hconsistent.stored d)
  refine h.unchanged ?_ (fun layer => ?_) fun s hs hc => ?_
  · change ∃ channel, (record r (.connected d)).logic.mChannels.lookup c.channel = some channel ∧ _
    rw [connected_logic hconsistent.stored d]
    by_cases hsame : c.channel = d.channel
    · have hjoined : joinedChannel r.logic d = own := by
        rw [joinedChannel, ← hsame, hown, Option.getD_some]
      refine ⟨own.addConnection d, ?_, ?_⟩
      · rw [hsame, hjoined]
        exact AList.lookup_insert _
      · simp [Channel.addConnection, List.filter_append, hlisted, hname hsame.symm]
    · exact ⟨own, by rwa [AList.lookup_insert_ne hsame], hlisted⟩
  · simp only [epochsAfter]
    split_ifs with hexists
    · rfl
    · have hsame : c.channel ≠ d.channel := by
        intro hsame
        rw [← hsame, hown] at hexists
        exact hexists rfl
      simp only [hsame, if_false]
  · simp only [ServerCall.perform] at hs
    rw [hsent] at hs
    rcases List.mem_append.1 hs with hs | hs
    · obtain ⟨delta, -, rfl⟩ := List.mem_map.1 hs
      exact hd hc
    · rw [List.mem_singleton.1 hs] at hc
      exact hd hc

lemma Present.disconnected {c d : Connection} {first : String → Nat} {r : Record}
    (h : Present c first r) (hname : d.channel = c.channel → d.debugName ≠ c.debugName) :
    Present c first (record r (.disconnected d)) := by
  obtain ⟨own, hown, hlisted⟩ := h.listed
  have hmem : c ∈ own.mConnections := by
    have hfiltered : c ∈ own.mConnections.filter (·.debugName = c.debugName) := by simp [hlisted]
    exact List.mem_of_mem_filter hfiltered
  refine h.unchanged ?_ (fun layer => rfl) fun s hs => ?_
  · obtain ⟨left, hleft, hcases⟩ := lookup_onDisconnected_stays hown hmem hname
    refine ⟨left, hleft, ?_⟩
    rcases hcases with rfl | ⟨hsame, rfl⟩
    · exact hlisted
    · unfold Channel.removeConnection
      rw [List.filter_filter, ← hlisted]
      apply List.filter_congr
      intro e _
      by_cases he : e.debugName = c.debugName
      · simp [he, (hname hsame).symm]
      · simp [he]
  · simp only [ServerCall.perform, onDisconnected_sent, List.not_mem_nil] at hs

lemma Present.message {c author : Connection} {first : String → Nat} {r : Record}
    (h : Present c first r) (hconsistent : Consistent r) (text : Json)
    (hname : author ≠ c → author.channel = c.channel → author.debugName ≠ c.debugName) :
    Present c first (record r (.message author text)) := by
  obtain ⟨own, hown, hlisted⟩ := h.listed
  rcases message_cases hconsistent.stored author text with
    heq | ⟨channel, v, hchannel, -, heq⟩ | ⟨channel, v, hchannel, heq⟩
  · rwa [heq]
  · rw [heq]
    refine ⟨?_, fun layer => ?_, fun layer => ?_⟩
    · by_cases hsame : c.channel = author.channel
      · obtain rfl : channel = own := Option.some.inj (hchannel.symm.trans (hsame ▸ hown))
        refine ⟨channel.addToHistory { v with sequence := some ((deltas channel v.layer).length + 1) },
          ?_, hlisted⟩
        rw [hsame]
        exact AList.lookup_insert _
      · exact ⟨own, by rwa [AList.lookup_insert_ne hsame], hlisted⟩
    · refine (h.started layer).trans (changeEpochs_past_le fun e => ?_)
      exact le_rfl
    · rw [stream_append, h.stream layer]
      exact h.accept hconsistent hchannel hname layer
  · rw [heq]
    refine ⟨?_, fun layer => ?_, fun layer => ?_⟩
    · by_cases hsame : c.channel = author.channel
      · obtain rfl : channel = own := Option.some.inj (hchannel.symm.trans (hsame ▸ hown))
        refine ⟨channel.clearHistory v.layer, ?_, ?_⟩
        · rw [hsame]
          exact AList.lookup_insert _
        · unfold Channel.clearHistory
          split <;> exact hlisted
      · exact ⟨own, by rwa [AList.lookup_insert_ne hsame], hlisted⟩
    · exact (h.started layer).trans (changeEpochs_past_le fun e => by simp [Epochs.restart])
    · rw [stream_append, h.stream layer, added_others, List.append_nil]
      · change _ = seenSince c
          (changeEpochs r.epochs author.channel v.layer (·.restart) c.channel layer) (first layer)
        by_cases hsame : c.channel = author.channel ∧ layer = v.layer
        · have hepochs : changeEpochs r.epochs author.channel v.layer (·.restart) c.channel layer =
              (r.epochs c.channel layer).restart := if_pos hsame
          rw [hepochs, seenSince_restart c _ (h.started layer)]
        · rw [changeEpochs_of_ne hsame]
      · intro s hs _
        obtain ⟨d, -, rfl⟩ := List.mem_map.1 hs
        simp [layerOf, ReloadEvent.event]

lemma Present.record {c : Connection} {first : String → Nat} {r : Record} (h : Present c first r)
    (hconsistent : Consistent r) {call : ServerCall}
    (hstays : call.connection = c → ∃ text, call = .message c text)
    (hunique : call.connection ≠ c → call.connection.channel = c.channel →
      call.connection.debugName ≠ c.debugName) : Present c first (record r call) := by
  cases call with
  | connected d =>
    have hd : d ≠ c := by
      intro hd
      obtain ⟨text, htext⟩ := hstays hd
      cases htext
    exact h.connected hconsistent hd (hunique hd)
  | disconnected d =>
    have hd : d ≠ c := by
      intro hd
      obtain ⟨text, htext⟩ := hstays hd
      cases htext
    exact h.disconnected (hunique hd)
  | message author text => exact h.message hconsistent text hunique

/-- What a log holds at a position stays there. -/
def Extends (e e' : Epochs) : Prop :=
  ∀ (index k : Nat) (entry : Connection × DeltaEvent),
    (e.log index)[k]? = some entry → (e'.log index)[k]? = some entry

lemma extends_accept (e : Epochs) (author : Connection) (v : DeltaEvent) :
    Extends e (e.accept author v) := by
  intro index k entry h
  unfold Epochs.log Epochs.accept at *
  rcases Nat.lt_trichotomy index e.past.length with hlt | heq | hgt
  · rw [List.getElem?_append_left hlt] at h ⊢
    exact h
  · subst heq
    simp only [List.getElem?_concat_length, Option.getD_some] at h ⊢
    rwa [List.getElem?_append_left (List.getElem?_eq_some_iff.1 h).1]
  · have hnone : (e.past ++ [e.current])[index]? = none :=
      List.getElem?_eq_none (by rw [List.length_append, List.length_singleton]; omega)
    simp [hnone] at h

lemma extends_restart (e : Epochs) : Extends e e.restart := by
  intro index k entry h
  unfold Epochs.log Epochs.restart at *
  by_cases hindex : index < (e.past ++ [e.current]).length
  · rwa [List.getElem?_append_left hindex]
  · have hnone : (e.past ++ [e.current])[index]? = none :=
      List.getElem?_eq_none (not_lt.1 hindex)
    simp [hnone] at h

lemma extends_record (r : Record) (call : ServerCall) (channel layer : String) :
    Extends (r.epochs channel layer) ((record r call).epochs channel layer) := by
  have hrefl : ∀ e, Extends e e := fun _ _ _ _ h => h
  simp only [record, epochsAfter]
  cases call with
  | connected d =>
    dsimp only
    split_ifs
    · exact hrefl _
    · dsimp only
      split_ifs
      · exact extends_restart _
      · exact hrefl _
  | disconnected d => exact hrefl _
  | message author text =>
    dsimp only
    split_ifs
    · cases parseEvent text with
      | none => exact hrefl _
      | some event =>
        obtain ⟨name, body⟩ := event
        cases body with
        | delta v =>
          simp only [Option.map_some, changeEpochs]
          split_ifs
          · exact extends_accept _ _ _
          · exact hrefl _
        | reload v =>
          simp only [Option.map_some, changeEpochs]
          split_ifs
          · exact extends_restart _
          · exact hrefl _
        | acknowledge v => exact hrefl _
        | history => exact hrefl _
    · exact hrefl _

lemma extends_run (run : List ServerCall) (r : Record) (channel layer : String) :
    Extends (r.epochs channel layer) ((Runs.final record r run).epochs channel layer) :=
  Runs.final_of_invariant (fun r' => Extends (r.epochs channel layer) (r'.epochs channel layer))
    (fun r' call h index k entry hentry =>
      extends_record r' call channel layer index k entry (h index k entry hentry))
    (fun _ _ _ h => h) run

lemma sequenceOf_seenBy (c author : Connection) (v : DeltaEvent) (k : Nat) :
    sequenceOf (seenBy c author v k) = some k := by
  unfold seenBy
  split <;> rfl

lemma seenLog_sequences (c : Connection) (log : Log) :
    (seenLog c log).map sequenceOf = (List.range' 1 log.length).map some := by
  unfold seenLog
  rw [List.map_map]
  have hsnd : (log.zipIdx 1).map Prod.snd = List.range' 1 log.length := by simp
  rw [← hsnd, List.map_map]
  apply List.map_congr_left
  intro entry _
  exact sequenceOf_seenBy c entry.1.1 entry.1.2 entry.2

lemma seenSince_sequences (c : Connection) (e : Epochs) (first : Nat) :
    (seenSince c e first).map (fun s => (s.1, sequenceOf s.2)) =
      (e.since first).flatMap fun epoch =>
        (List.range' 1 epoch.1.length).map fun k => (epoch.2, some k) := by
  unfold seenSince
  rw [List.map_flatMap]
  congr 1
  funext epoch
  have hsequences := congrArg (List.map fun k => (epoch.2, k)) (seenLog_sequences c epoch.1)
  rw [List.map_map, List.map_map] at hsequences
  rw [List.map_map]
  exact hsequences

lemma log_of_mem_since {e : Epochs} {first index : Nat} {log : Log}
    (h : (log, index) ∈ e.since first) : e.log index = log := by
  unfold Epochs.log
  rcases List.mem_append.1 h with h | h
  · have hpast := List.mk_mem_zipIdx_iff_getElem?.1 (List.mem_of_mem_drop h)
    rw [List.getElem?_append_left (List.getElem?_eq_some_iff.1 hpast).1, hpast]
    rfl
  · obtain ⟨rfl, rfl⟩ : log = e.current ∧ index = e.past.length := by simpa using h
    simp

lemma mem_seenSince {c : Connection} {e : Epochs} {first : Nat} {s : Nat × Event}
    (h : s ∈ seenSince c e first) : ∃ k author v, sequenceOf s.2 = some k ∧
      (e.log s.1)[k - 1]? = some (author, v) ∧ s.2 = seenBy c author v k := by
  obtain ⟨⟨log, index⟩, hepoch, hs⟩ := List.mem_flatMap.1 h
  obtain ⟨event, hevent, rfl⟩ := List.mem_map.1 hs
  obtain ⟨⟨⟨author, v⟩, k⟩, hentry, rfl⟩ := List.mem_map.1 hevent
  refine ⟨k, author, v, sequenceOf_seenBy c author v k, ?_, rfl⟩
  have hlog : e.log index = log := log_of_mem_since hepoch
  have hposition := List.mk_mem_zipIdx_iff_le_and_getElem?_sub.1 hentry
  rw [hlog]
  exact hposition.2

lemma record_logic_run (run : List ServerCall) (r : Record) :
    (Runs.final record r run).logic = Runs.final serve r.logic run := by
  induction run generalizing r with
  | nil => rfl
  | cons call run ih => exact ih (record r call)

lemma consistent_init : Consistent {} where
  stored := stored_init
  members name channel hlookup := by simp at hlookup
  history name channel hlookup := by simp at hlookup

lemma absent_init (c : Connection) : Absent c {} where
  unlisted name channel hlookup := by simp at hlookup
  silent layer := rfl
  unauthored name layer entry hentry := by simp at hentry

lemma absent_run {c : Connection} {before : List ServerCall}
    (hfresh : ∀ call ∈ before, call.connection ≠ c) {r : Record} (hconsistent : Consistent r)
    (h : Absent c r) :
    Consistent (Runs.final record r before) ∧ Absent c (Runs.final record r before) := by
  induction before generalizing r with
  | nil => exact ⟨hconsistent, h⟩
  | cons call before ih =>
    have hcall := hfresh call List.mem_cons_self
    exact ih (fun call' hcall' => hfresh call' (List.mem_cons_of_mem _ hcall'))
      (hconsistent.record call) (h.record hconsistent hcall)

lemma present_run {c : Connection} {first : String → Nat} {during : List ServerCall}
    (hstays : ∀ call ∈ during, call.connection = c → ∃ text, call = .message c text)
    (hunique : ∀ call ∈ during, call.connection ≠ c → call.connection.channel = c.channel →
      call.connection.debugName ≠ c.debugName)
    {r : Record} (hconsistent : Consistent r) (h : Present c first r) :
    Present c first (Runs.final record r during) := by
  induction during generalizing r with
  | nil => exact h
  | cons call during ih =>
    have hstep := h.record hconsistent (hstays call List.mem_cons_self)
      (hunique call List.mem_cons_self)
    exact ih (fun call' hcall' => hstays call' (List.mem_cons_of_mem _ hcall'))
      (fun call' hcall' => hunique call' (List.mem_cons_of_mem _ hcall'))
      (hconsistent.record call) hstep

/-- During a stay the numbers of a layer sent to `c` are 1, 2, 3, … in every epoch, from the
epoch it joined in on. The event numbered `k` of an epoch is the `k`-th accepted delta of
that epoch's log, an acknowledge of its paths if `c` wrote it and the delta otherwise; the
log does not depend on `c`, and nothing that happens later changes it. -/
theorem server_numbering {before during : List ServerCall} {c : Connection}
    (hstay : Stay before c during) (after : List ServerCall) (layer : String) :
    let joined := Runs.final record {} (before ++ [.connected c])
    let left := Runs.final record joined during
    let last := Runs.final record left after
    (stream left c layer).map (fun s => (s.1, sequenceOf s.2)) =
        ((left.epochs c.channel layer).since (joined.epochs c.channel layer).past.length).flatMap
          (fun epoch => (List.range' 1 epoch.1.length).map fun k => (epoch.2, some k)) ∧
      ∀ s ∈ stream left c layer, ∃ k author v, sequenceOf s.2 = some k ∧
        ((last.epochs c.channel layer).log s.1)[k - 1]? = some (author, v) ∧
        s.2 = seenBy c author v k := by
  intro joined left last
  obtain ⟨hconsistent, habsent⟩ := absent_run hstay.fresh consistent_init (absent_init c)
  have hjoined : joined = record (Runs.final record {} before) (.connected c) :=
    Runs.final_append _ _ _
  have hpresent : Present c (fun layer => (joined.epochs c.channel layer).past.length) joined := by
    rw [hjoined]
    apply Present.join hconsistent habsent
    rw [record_logic_run]
    exact hstay.alone
  have hleft := present_run hstay.stays hstay.unique (hjoined ▸ hconsistent.record _) hpresent
  have hstream := hleft.stream layer
  refine ⟨?_, fun s hs => ?_⟩
  · rw [hstream, seenSince_sequences]
  · rw [hstream] at hs
    obtain ⟨k, author, v, hk, hentry, hseen⟩ := mem_seenSince hs
    exact ⟨k, author, v, hk, extends_run after left c.channel layer s.1 _ _ hentry, hseen⟩

end

section

attribute [local instance] Usd.sample

/-- Two users, a delta of each, a reload and another delta, seen by the one who came last. -/
theorem server_numbering_reload :
    let c : Connection := ⟨2, "room", "C"⟩
    let d : Connection := ⟨1, "room", "D"⟩
    let delta : Json := .object [("event", .string "Delta::Event"), ("body", .object
      [("layer", .string "layer"), ("user", .string "room"), ("updates", .array [])])]
    let reload : Json := .object [("event", .string "Reload::Event"), ("body", .object
      [("layer", .string "layer"), ("user", .string "room")])]
    let before : List ServerCall := [.connected d, .message d delta]
    let during : List ServerCall := [.message c delta, .message d reload, .message d delta]
    let left := Runs.final record (Runs.final record {} (before ++ [.connected c])) during
    (stream left c "layer").map (fun s => (s.1, sequenceOf s.2)) =
      [(1, some 1), (1, some 2), (2, some 1)] := by
  intro c d delta reload before during left
  have hstay : Stay before c during := by
    refine ⟨by decide, ?_, ?_, ?_⟩
    · intro channel hchannel e he
      obtain rfl : channel = ⟨"room", [d], _⟩ := (Option.some.inj hchannel).symm
      obtain rfl := List.mem_singleton.1 he
      decide
    · intro call hcall hc
      simp only [during, List.mem_cons, List.not_mem_nil, or_false] at hcall
      rcases hcall with rfl | rfl | rfl
      · exact ⟨delta, rfl⟩
      · exact absurd hc (by decide)
      · exact absurd hc (by decide)
    · decide
  rw [(server_numbering hstay [] "layer").1]
  decide

end

end RenderStudioKit.Proofs
