import RenderStudioKit.Model.Session
import RenderStudioKit.Model.WebsocketServer
import RenderStudioKit.Proofs.Membership
import RenderStudioKit.Proofs.SocketLink

/-!
# The sessions of the server and its logic

The results about `Logic` speak of calls in a proper order, those about a session of a logic that sends
to nobody it was not told about. Whatever the network does, the sessions keep the one and the logic the
other.
-/

namespace RenderStudioKit.Proofs

open API

namespace SessionProtocol

open WebsocketSession

variable {Message : Type}

/-- What a handler tells the logic, and whether the session is connected before and after. -/
inductive Called (c c' : WebsocketSession Message) : Prop where
  | nothing (calls : c'.calls = c.calls) (connected : c'.mConnected = c.mConnected)
  | opened (first : c.calls = []) (before : c.mConnected = false) (calls : c'.calls = [.onConnected])
      (connected : c'.mConnected = true)
  | message (message : Message) (before : c.mConnected = true)
      (calls : c'.calls = c.calls ++ [.onMessage message]) (connected : c'.mConnected = true)
  | closed (before : c.mConnected = true) (calls : c'.calls = c.calls ++ [.onDisconnected])
      (connected : c'.mConnected = false)

variable {c : WebsocketSession Message} {texts : List Message}

@[simp] lemma read_calls (c : WebsocketSession Message) : c.read.calls = c.calls := by
  unfold WebsocketSession.read
  split_ifs <;> rfl

@[simp] lemma read_mConnected (c : WebsocketSession Message) : c.read.mConnected = c.mConnected := by
  unfold WebsocketSession.read
  split_ifs <;> rfl

lemma called_complete (h : Stage c texts) (i : Nat) (ec : Bool) (received : Message) :
    Called c (c.complete i ec received) := by
  unfold WebsocketSession.complete
  cases hop : c.pending[i]? with
  | none => exact .nothing rfl rfl
  | some op =>
    cases op with
    | accept =>
      have hpositive : 0 < outstanding isAccept c := outstanding_pos hop rfl
      cases h with
      | connected _ _ _ _ _ _ haccepts => omega
      | closed _ _ _ _ _ _ haccepts => omega
      | waiting hcalls hdisconnected _ _ _ _ _ _ =>
        cases ec with
        | true => exact .nothing rfl hdisconnected.symm
        | false =>
          refine .opened hcalls hdisconnected ?_ ?_
          · simp [handle, onAccept, WebsocketSession.call, hcalls]
          · simp [handle, onAccept, WebsocketSession.call]
    | post message =>
      change Called c (WebsocketSession.write (taken c i) message)
      by_cases hqueue : (taken c i).mWriteQueue = []
      · rw [write_first _ message hqueue]
        exact .nothing rfl rfl
      · rw [write_backlog _ message hqueue]
        exact .nothing rfl rfl
    | read =>
      change Called c (onRead (taken c i) ec received)
      have hsame : (taken c i).mConnected = c.mConnected := rfl
      cases hconnected : c.mConnected with
      | false =>
        refine .nothing ?_ ?_ <;> simp [onRead, hsame, hconnected]
        rfl
      | true =>
        cases ec with
        | true =>
          refine .closed hconnected ?_ ?_ <;>
            simp [onRead, hconnected, WebsocketSession.call, taken]
        | false =>
          refine .message received hconnected ?_ ?_ <;>
            simp [onRead, hconnected, WebsocketSession.call, taken]
    | write message =>
      change Called c (onWrite (taken c i) ec)
      have hsame : (taken c i).mConnected = c.mConnected := rfl
      cases hconnected : c.mConnected with
      | false =>
        refine .nothing ?_ ?_ <;> simp [onWrite, hsame, hconnected]
        rfl
      | true =>
        cases ec with
        | true =>
          refine .closed hconnected ?_ ?_ <;>
            simp [onWrite, hconnected, WebsocketSession.call, taken]
        | false =>
          have hopen : (!(taken c i).mConnected) = false := by rw [hsame, hconnected]; rfl
          unfold onWrite
          dsimp only
          rw [hopen]
          simp only [Bool.false_eq_true, if_false]
          split
          · exact .nothing rfl rfl
          · exact .nothing rfl rfl

lemma foldl_send_calls (texts : List Message) (c : WebsocketSession Message) :
    (texts.foldl WebsocketSession.send c).calls = c.calls ∧
      (texts.foldl WebsocketSession.send c).mConnected = c.mConnected := by
  induction texts generalizing c with
  | nil => exact ⟨rfl, rfl⟩
  | cons text texts ih => exact ih (c.send text)

lemma Outbox.sends {sent : List Message} (h : Outbox c sent) (hcalled : texts ≠ [] → c.calls ≠ []) :
    Outbox (texts.foldl WebsocketSession.send c) (sent ++ texts) := by
  induction texts generalizing c sent with
  | nil => simpa using h
  | cons text texts ih =>
    have hsome := hcalled (List.cons_ne_nil _ _)
    have hrest := ih (h.send hsome text) (fun _ => hsome)
    rwa [List.append_assoc] at hrest

end SessionProtocol

section

variable [Usd]

namespace ServerSessions

open SessionProtocol (InTurn Outbox posts)

/-- A call as the results about the logic have it. -/
def serverCall : Connection × LogicCall Json → ServerCall
  | (connection, .onConnected) => .connected connection
  | (connection, .onDisconnected) => .disconnected connection
  | (connection, .onMessage message) => .message connection message

/-- The logic after the calls so far, and who is connected to it. -/
def population (s : WebsocketServer) : Population :=
  Runs.final Population.perform {} (s.calls.map serverCall)

/-- The strand of a session keeps its order. -/
def Admitted (s : WebsocketServer) : NetworkEvent → Prop
  | .session id i _ _ => ∀ entry, s.sessions[id]? = some entry → InTurn entry.2 i
  | _ => True

/-- The logic is called in a proper order, no call of it ends the process but one with a message that
makes the decoder write outside a matrix, exactly the connected sessions are known to it, and a session
hands over what the logic sent to it, one text at a time and in order, and all of it before it rests. -/
structure Serves (s : WebsocketServer) : Prop where
  logic : s.logic = (population s).server
  proper : Runs.AllSteps Population.perform Population.Proper {} (s.calls.map serverCall)
  live : ∀ c, c ∈ (population s).live ↔
    ∃ session, (c, session) ∈ s.sessions ∧ session.mConnected = true
  crash : ∀ fault, s.crash = some (.logic fault) →
    ∃ c message, (c, .onMessage message) ∈ s.calls ∧ parseFault message = some fault
  inOrder : ∀ c session, (c, session) ∈ s.sessions →
    SessionProtocol.handedOver session <+: Session.received s.sent c ∧ SessionProtocol.outstanding SessionProtocol.isWrite session ≤ 1 ∧
      SessionProtocol.outstanding SessionProtocol.isRead session ≤ 1
  complete : ∀ c session, (c, session) ∈ s.sessions → session.mConnected = true →
    posts session = [] → SessionProtocol.outstanding SessionProtocol.isWrite session = 0 →
      SessionProtocol.handedOver session = Session.received s.sent c

/-- The session of a connection. -/
def At (s : WebsocketServer) (c : Connection) (session : WebsocketSession Json) : Prop :=
  s.sessions[c.id]? = some (c, session)

/-- The logic was told about the session. -/
def Told (s : WebsocketServer) (c : Connection) : Prop :=
  ∃ session, At s c session ∧ session.calls ≠ []

/-- A connection is known by the position of its session. -/
def Numbered (sessions : List (Connection × WebsocketSession Json)) : Prop :=
  ∀ (i : Nat) entry, sessions[i]? = some entry → entry.1.id = i

structure Serving (s : WebsocketServer) : Prop where
  logic : s.logic = (population s).server
  proper : Runs.AllSteps Population.perform Population.Proper {} (s.calls.map serverCall)
  nodup : (population s).live.Nodup
  stored : Stored s.logic
  numbered : Numbered s.sessions
  live : ∀ c, c ∈ (population s).live ↔ ∃ session, At s c session ∧ session.mConnected = true
  members : ∀ name, ∀ d ∈ membersOf (s.logic.mChannels.lookup name), Told s d
  sent : ∀ message ∈ s.sent, Told s message.1
  outbox : ∀ c session, At s c session → Outbox session (Session.received s.sent c)
  crash : ∀ fault, s.crash = some (.logic fault) →
    ∃ c message, (c, .onMessage message) ∈ s.calls ∧ parseFault message = some fault

variable {s : WebsocketServer}

lemma at_unique {c : Connection} {session session' : WebsocketSession Json} (h : At s c session)
    (h' : At s c session') : session = session' :=
  congrArg Prod.snd (Option.some_inj.1 (h.symm.trans h'))

namespace Serving

lemma mem_iff (h : Serving s) (c : Connection) (session : WebsocketSession Json) :
    (c, session) ∈ s.sessions ↔ At s c session := by
  constructor
  · intro hmem
    obtain ⟨i, hi⟩ := List.mem_iff_getElem?.1 hmem
    have hid : c.id = i := h.numbered i _ hi
    rw [At, hid]
    exact hi
  · exact fun hat => List.mem_of_getElem? hat

lemma serves (h : Serving s) : Serves s := by
  refine ⟨h.logic, h.proper, fun c => ?_, h.crash, fun c session hmem => ?_,
    fun c session hmem hconnected hposts hwrites => ?_⟩
  · rw [h.live]
    exact exists_congr fun session => and_congr_left fun _ => (h.mem_iff c session).symm
  · have hbox := h.outbox c session ((h.mem_iff c session).1 hmem)
    have hinOrder := hbox.inOrder
    obtain ⟨texts, hstage, -⟩ := hbox
    exact ⟨hinOrder, hstage.byProtocol.oneWrite, hstage.byProtocol.oneRead⟩
  · exact (h.outbox c session ((h.mem_iff c session).1 hmem)).all hconnected hwrites hposts

end Serving

/-- The entry of a connection after the messages were sent. -/
def sentTo (messages : List (Connection × Event)) (entry : Connection × WebsocketSession Json) :
    Connection × WebsocketSession Json :=
  (entry.1, (Session.received messages entry.1).foldl WebsocketSession.send entry.2)

lemma received_cons (message : Connection × Event) (messages : List (Connection × Event))
    (c : Connection) : Session.received (message :: messages) c =
      Session.received [message] c ++ Session.received messages c := by
  unfold Session.received
  rw [← List.filterMap_append, ← List.filter_append]
  rfl

lemma received_append (messages messages' : List (Connection × Event)) (c : Connection) :
    Session.received (messages ++ messages') c =
      Session.received messages c ++ Session.received messages' c := by
  rw [Session.received, Session.received, Session.received, List.filter_append,
    List.filterMap_append]

lemma received_of_ne {messages : List (Connection × Event)} {c : Connection}
    (h : ∀ message ∈ messages, message.1 ≠ c) : Session.received messages c = [] := by
  have hnone : messages.filter (fun message => message.1 = c) = [] := by
    rw [List.filter_eq_nil_iff]
    intro message hmem
    simpa using h message hmem
  rw [Session.received, hnone]
  rfl

lemma sentTo_cons (message : Connection × Event) (messages : List (Connection × Event))
    (entry : Connection × WebsocketSession Json) :
    sentTo (message :: messages) entry = sentTo messages (sentTo [message] entry) := by
  rw [sentTo, received_cons, List.foldl_append]
  rfl

lemma send_sessions (hnumbered : Numbered s.sessions) (message : Connection × Event)
    (htold : ∃ session, At s message.1 session) :
    (s.send message).sessions = s.sessions.map (sentTo [message]) := by
  have hone : ∀ entry : Connection × WebsocketSession Json, entry.1 ≠ message.1 →
      sentTo [message] entry = entry := by
    intro entry hne
    have hnone : Session.received [message] entry.1 = [] := by
      apply received_of_ne
      intro message' hmem
      rw [List.mem_singleton.1 hmem]
      exact Ne.symm hne
    rw [sentTo, hnone]
    rfl
  unfold WebsocketServer.send
  cases htext : message.2.toJson with
  | error fault =>
    have hsame : ∀ entry : Connection × WebsocketSession Json, sentTo [message] entry = entry := by
      intro entry
      by_cases heq : entry.1 = message.1
      · refine Prod.ext rfl ?_
        simp [sentTo, Session.received, heq, htext, Except.toOption]
      · exact hone entry heq
    exact ((List.map_congr_left fun entry _ => hsame entry).trans (List.map_id _)).symm
  | ok text =>
    obtain ⟨session, hat⟩ := htold
    apply List.ext_getElem?
    intro i
    rw [List.getElem?_modify, List.getElem?_map]
    cases hentry : s.sessions[i]? with
    | none => rfl
    | some entry =>
      have hid := hnumbered i entry hentry
      by_cases hi : message.1.id = i
      · have hsame : entry.1 = message.1 := by
          rw [At, hi, hentry] at hat
          exact congrArg Prod.fst (Option.some_inj.1 hat)
        simp [hi, sentTo, Session.received, hsame, htext, Except.toOption]
      · have hne : entry.1 ≠ message.1 := by
          intro heq
          exact hi (heq ▸ hid)
        simp [hi, hone entry hne]

lemma numbered_map (hnumbered : Numbered s.sessions) (messages : List (Connection × Event)) :
    Numbered (s.sessions.map (sentTo messages)) := by
  intro i entry hentry
  rw [List.getElem?_map, Option.map_eq_some_iff] at hentry
  obtain ⟨old, hold, rfl⟩ := hentry
  exact hnumbered i old hold

lemma send_frame (message : Connection × Event) :
    s.send message = { s with sessions := (s.send message).sessions } := by
  unfold WebsocketServer.send
  split <;> rfl

lemma foldl_send {messages : List (Connection × Event)} (hnumbered : Numbered s.sessions)
    (htold : ∀ message ∈ messages, ∃ session, At s message.1 session) :
    messages.foldl WebsocketServer.send s =
      { s with sessions := s.sessions.map (sentTo messages) } := by
  induction messages generalizing s with
  | nil =>
    have hsame : s.sessions.map (sentTo []) = s.sessions :=
      (List.map_congr_left fun _ _ => rfl).trans (List.map_id _)
    rw [hsame]
    rfl
  | cons message messages ih =>
    have hsessions := send_sessions hnumbered message (htold message List.mem_cons_self)
    have hframe := send_frame (s := s) message
    rw [hsessions] at hframe
    rw [List.foldl_cons, hframe, ih (numbered_map hnumbered [message])]
    · simp only [List.map_map]
      refine congrArg (fun sessions => { s with sessions := sessions }) ?_
      exact List.map_congr_left fun entry _ => (sentTo_cons message messages entry).symm
    · intro message' hmem
      obtain ⟨session, hat⟩ := htold message' (List.mem_cons_of_mem _ hmem)
      refine ⟨(sentTo [message] (message'.1, session)).2, ?_⟩
      rw [At, List.getElem?_map, hat]
      rfl

/-- A call sends to its connection and to the members of its channel. -/
lemma receivers_of_call {l : Logic} (hstored : Stored l) (call : ServerCall) :
    ∀ message ∈ (call.perform l).sent, message.1 = call.connection ∨
      message.1 ∈ membersOf (l.mChannels.lookup call.connection.channel) := by
  rw [(acts_on_channel hstored call).sent]
  cases call with
  | connected c =>
    intro message hmem
    left
    rcases List.mem_append.1 hmem with hmem | hmem
    · obtain ⟨delta, -, rfl⟩ := List.mem_map.1 hmem
      rfl
    · rw [List.mem_singleton.1 hmem]
      rfl
  | disconnected c => exact fun message hmem => absurd hmem List.not_mem_nil
  | message author text =>
    intro message hmem
    change message ∈ channelSent (l.mChannels.lookup author.channel) _ at hmem
    change message.1 = author ∨ message.1 ∈ membersOf (l.mChannels.lookup author.channel)
    cases hlookup : l.mChannels.lookup author.channel with
    | none =>
      rw [hlookup] at hmem
      exact absurd hmem List.not_mem_nil
    | some channel =>
      rw [hlookup] at hmem
      have hreceiver : ∀ event : Event, message ∈ (channel.receivers author).map (·, event) →
          message.1 ∈ membersOf (some channel) := by
        intro event hrelayed
        obtain ⟨d, hd, rfl⟩ := List.mem_map.1 hrelayed
        exact (List.mem_filter.1 hd).1
      simp only [channelSent, Option.elim_some] at hmem
      split at hmem
      · rcases List.mem_append.1 hmem with hmem | hmem
        · exact .inr (hreceiver _ hmem)
        · rw [List.mem_singleton.1 hmem]
          exact .inl rfl
      · exact .inr (hreceiver _ hmem)
      · exact absurd hmem List.not_mem_nil

lemma members_of_call {l : Logic} (hstored : Stored l) (call : ServerCall) (name : String) :
    ∀ d ∈ membersOf ((serve l call).mChannels.lookup name),
      d ∈ membersOf (l.mChannels.lookup name) ∨ call = .connected d := by
  rw [(acts_on_channel hstored call).lookup]
  split_ifs with hname
  · cases call with
    | connected c =>
      intro d hd
      rw [membersOf_connected, List.mem_append, List.mem_singleton] at hd
      exact hd.imp_right fun heq => by rw [heq]
    | disconnected c =>
      intro d hd
      rw [membersOf_disconnected] at hd
      exact .inl (List.mem_filter.1 hd).1
    | message author text =>
      intro d hd
      rw [membersOf_message] at hd
      exact .inl hd
  · exact fun d hd => .inl hd

lemma at_set {c : Connection} {session session' : WebsocketSession Json} (h : At s c session)
    (d : Connection) (x : WebsocketSession Json) :
    (s.sessions.set c.id (c, session'))[d.id]? = some (d, x) ↔
      d = c ∧ x = session' ∨ d ≠ c ∧ At s d x := by
  have hlt := (List.getElem?_eq_some_iff.1 h).1
  by_cases hd : d = c
  · subst hd
    rw [List.getElem?_set_self hlt]
    simp [eq_comm]
  · by_cases hid : d.id = c.id
    · have hother : ¬ At s d x := by
        intro hat
        rw [At, hid, h] at hat
        exact hd (congrArg Prod.fst (Option.some_inj.1 hat)).symm
      rw [hid, List.getElem?_set_self hlt]
      simp [hd, hother, Ne.symm hd]
    · rw [List.getElem?_set_ne (Ne.symm hid)]
      simp [hd, At]

lemma told_set {c : Connection} {session session' : WebsocketSession Json} (h : At s c session)
    (hcalls : session.calls ≠ [] → session'.calls ≠ []) {d : Connection} (hd : Told s d) :
    ∃ x, (s.sessions.set c.id (c, session'))[d.id]? = some (d, x) ∧ x.calls ≠ [] := by
  obtain ⟨x, hx, hsome⟩ := hd
  by_cases hdc : d = c
  · subst hdc
    obtain rfl := at_unique hx h
    exact ⟨session', (at_set h d session').2 (.inl ⟨rfl, rfl⟩), hcalls hsome⟩
  · exact ⟨x, (at_set h d x).2 (.inr ⟨hdc, hx⟩), hsome⟩

lemma open_set {c : Connection} {session session' : WebsocketSession Json} (h : At s c session)
    (d : Connection) :
    (∃ x, (s.sessions.set c.id (c, session'))[d.id]? = some (d, x) ∧ x.mConnected = true) ↔
      if d = c then session'.mConnected = true else ∃ x, At s d x ∧ x.mConnected = true := by
  simp only [at_set h]
  by_cases hd : d = c
  · simp [hd]
  · simp [hd]

lemma at_sentTo (messages : List (Connection × Event)) (d : Connection)
    (x : WebsocketSession Json) :
    (s.sessions.map (sentTo messages))[d.id]? = some (d, x) ↔ ∃ y, At s d y ∧
      x = (Session.received messages d).foldl WebsocketSession.send y := by
  rw [List.getElem?_map, Option.map_eq_some_iff]
  constructor
  · rintro ⟨⟨d', y⟩, hy, heq⟩
    obtain ⟨rfl, rfl⟩ := Prod.mk.inj heq
    exact ⟨y, hy, rfl⟩
  · rintro ⟨y, hy, rfl⟩
    exact ⟨(d, y), hy, rfl⟩

lemma told_sentTo (messages : List (Connection × Event)) {d : Connection} (hd : Told s d) :
    ∃ x, (s.sessions.map (sentTo messages))[d.id]? = some (d, x) ∧ x.calls ≠ [] := by
  obtain ⟨y, hy, hsome⟩ := hd
  refine ⟨_, (at_sentTo messages d _).2 ⟨y, hy, rfl⟩, ?_⟩
  rwa [(SessionProtocol.foldl_send_calls _ y).1]

lemma open_sentTo (messages : List (Connection × Event)) (d : Connection) :
    (∃ x, (s.sessions.map (sentTo messages))[d.id]? = some (d, x) ∧ x.mConnected = true) ↔
      ∃ x, At s d x ∧ x.mConnected = true := by
  simp only [at_sentTo]
  constructor
  · rintro ⟨_, ⟨y, hy, rfl⟩, hopen⟩
    rw [(SessionProtocol.foldl_send_calls _ y).2] at hopen
    exact ⟨y, hy, hopen⟩
  · rintro ⟨y, hy, hopen⟩
    refine ⟨_, ⟨y, hy, rfl⟩, ?_⟩
    rwa [(SessionProtocol.foldl_send_calls _ y).2]

lemma numbered_set (h : Numbered s.sessions) (c : Connection) (session : WebsocketSession Json) :
    Numbered (s.sessions.set c.id (c, session)) := by
  intro i entry hentry
  rw [List.getElem?_set] at hentry
  split_ifs at hentry with hi hlt
  · rw [← Option.some_inj.1 hentry]
    exact hi
  · exact h i entry hentry

lemma population_call (s' : WebsocketServer) {call : Connection × LogicCall Json}
    (h : s'.calls = s.calls ++ [call]) :
    population s' = (population s).perform (serverCall call) := by
  rw [population, h, List.map_append, Runs.final_append]
  rfl

lemma nodup_perform {p : Population} (h : p.live.Nodup) {call : ServerCall} (hproper : p.Proper call) :
    (p.perform call).live.Nodup := by
  cases call with
  | connected c => exact h.append (List.nodup_singleton c) (List.disjoint_singleton.2 hproper)
  | disconnected c => exact h.erase c
  | message author text => exact h

namespace Serving

/-- A change that the sessions and the logic do not notice. -/
lemma of_eq (h : Serving s) {s' : WebsocketServer} (hsessions : s'.sessions = s.sessions)
    (hlogic : s'.logic = s.logic) (hcalls : s'.calls = s.calls) (hsent : s'.sent = s.sent)
    (hcrash : ∀ fault, s'.crash = some (.logic fault) → s.crash = some (.logic fault)) :
    Serving s' := by
  have hpopulation : population s' = population s := by rw [population, population, hcalls]
  have hat : ∀ c session, At s' c session ↔ At s c session := by
    intro c session
    rw [At, At, hsessions]
  have htold : ∀ c, Told s' c ↔ Told s c := fun c =>
    exists_congr fun session => and_congr_left fun _ => hat c session
  refine ⟨?_, ?_, ?_, ?_, ?_, ?_, ?_, ?_, ?_, ?_⟩
  · rw [hlogic, hpopulation]
    exact h.logic
  · rw [hcalls]
    exact h.proper
  · rw [hpopulation]
    exact h.nodup
  · rw [hlogic]
    exact h.stored
  · rw [hsessions]
    exact h.numbered
  · intro c
    rw [hpopulation, h.live]
    exact exists_congr fun session => and_congr_left fun _ => (hat c session).symm
  · rw [hlogic]
    exact fun name d hd => (htold d).2 (h.members name d hd)
  · rw [hsent]
    exact fun message hmem => (htold _).2 (h.sent message hmem)
  · rw [hsent]
    exact fun c session hc => h.outbox c session ((hat c session).1 hc)
  · rw [hcalls]
    exact fun fault hfault => h.crash fault (hcrash fault hfault)

/-- A new session, which the logic does not know. -/
lemma created (h : Serving s) (channel debugName : String) :
    Serving { s with sessions := s.sessions ++
      [(⟨s.sessions.length, channel, debugName⟩, ({} : WebsocketSession Json).onRun)] } := by
  set c : Connection := ⟨s.sessions.length, channel, debugName⟩
  set s' : WebsocketServer := { s with
    sessions := s.sessions ++ [(c, ({} : WebsocketSession Json).onRun)] }
  have hbound : ∀ d session, At s d session → d.id < s.sessions.length := fun d session hat =>
    (List.getElem?_eq_some_iff.1 hat).1
  have hat : ∀ d session, At s' d session ↔
      At s d session ∨ d = c ∧ session = ({} : WebsocketSession Json).onRun := by
    intro d session
    change (s.sessions ++ [_])[d.id]? = some (d, session) ↔ _
    by_cases hlt : d.id < s.sessions.length
    · have hne : d ≠ c := by
        rintro rfl
        exact absurd hlt (Nat.lt_irrefl _)
      rw [List.getElem?_append_left hlt]
      simp [hne, At]
    · have hno : ¬ At s d session := fun hold => hlt (hbound d session hold)
      rw [List.getElem?_append_right (Nat.le_of_not_lt hlt)]
      by_cases hid : d.id = s.sessions.length
      · simp only [hid, Nat.sub_self, List.getElem?_cons_zero, Option.some.injEq, Prod.mk.injEq, hno,
          false_or]
        exact and_congr eq_comm eq_comm
      · have hne : d ≠ c := by
          rintro rfl
          exact hid rfl
        rw [List.getElem?_eq_none (by simp; omega)]
        simp [hne, hno]
  have htold : ∀ d, Told s d → Told s' d := by
    rintro d ⟨session, hold, hcalls⟩
    exact ⟨session, (hat d session).2 (.inl hold), hcalls⟩
  refine ⟨h.logic, h.proper, h.nodup, h.stored, ?_, ?_, ?_, ?_, ?_, h.crash⟩
  · intro i entry hentry
    by_cases hlt : i < s.sessions.length
    · rw [List.getElem?_append_left hlt] at hentry
      exact h.numbered i entry hentry
    · rw [List.getElem?_append_right (Nat.le_of_not_lt hlt), List.getElem?_singleton] at hentry
      split_ifs at hentry with hzero
      rw [← Option.some_inj.1 hentry]
      change s.sessions.length = i
      omega
  · intro d
    change d ∈ (population s).live ↔ _
    rw [h.live]
    constructor
    · rintro ⟨session, hold, hconnected⟩
      exact ⟨session, (hat d session).2 (.inl hold), hconnected⟩
    · rintro ⟨session, hnew, hconnected⟩
      rcases (hat d session).1 hnew with hold | ⟨-, rfl⟩
      · exact ⟨session, hold, hconnected⟩
      · exact absurd hconnected Bool.false_ne_true
  · exact fun name d hd => htold d (h.members name d hd)
  · exact fun message hmem => htold _ (h.sent message hmem)
  · intro d session hnew
    rcases (hat d session).1 hnew with hold | ⟨rfl, rfl⟩
    · exact h.outbox d session hold
    · have hnone : Session.received s.sent c = [] := by
        apply received_of_ne
        intro message hmem heq
        obtain ⟨session, hold, -⟩ := h.sent message hmem
        have hlt := hbound _ _ hold
        rw [heq] at hlt
        exact absurd hlt (Nat.lt_irrefl _)
      change Outbox _ (Session.received s.sent c)
      rw [hnone]
      exact Outbox.init

/-- A handler that tells the logic nothing. -/
lemma replaced (h : Serving s) {c : Connection} {session session' : WebsocketSession Json}
    (hat : At s c session) (hbox : Outbox session' (Session.received s.sent c))
    (hcalls : session'.calls = session.calls) (hconnected : session'.mConnected = session.mConnected) :
    Serving { s with sessions := s.sessions.set c.id (c, session') } := by
  have htold : ∀ d, Told s d → Told { s with sessions := s.sessions.set c.id (c, session') } d :=
    fun d hd => told_set hat (fun hsome => by rwa [hcalls]) hd
  refine ⟨h.logic, h.proper, h.nodup, h.stored, ?_, ?_, ?_, ?_, ?_, h.crash⟩
  · exact numbered_set h.numbered c session'
  · intro d
    refine (h.live d).trans (Iff.symm ?_)
    refine (open_set hat d).trans ?_
    split_ifs with hd
    · subst hd
      rw [hconnected]
      constructor
      · exact fun hopen => ⟨session, hat, hopen⟩
      · rintro ⟨x, hx, hopen⟩
        rwa [at_unique hat hx]
    · exact Iff.rfl
  · exact fun name d hd => htold d (h.members name d hd)
  · exact fun message hmem => htold _ (h.sent message hmem)
  · intro d x hx
    rcases (at_set hat d x).1 hx with ⟨rfl, rfl⟩ | ⟨-, hold⟩
    · exact hbox
    · exact h.outbox d x hold

/-- Only the message of a call can end the process, in its decoder. -/
lemma crash_call (h : Serving s) (c : Connection) (call : LogicCall Json) (fault : Fault)
    (hcrash : s.crash.or ((call.perform s.logic c).fault.map .logic) = some (.logic fault)) :
    ∃ d message, (d, .onMessage message) ∈ s.calls ++ [(c, call)] ∧
      parseFault message = some fault := by
  cases hbefore : s.crash with
  | some crash =>
    rw [hbefore] at hcrash
    obtain ⟨d, message, hmem, hdecoded⟩ := h.crash fault (hbefore.trans hcrash)
    exact ⟨d, message, List.mem_append_left _ hmem, hdecoded⟩
  | none =>
    have hperform : call.perform s.logic c = (serverCall (c, call)).perform s.logic := by
      cases call <;> rfl
    obtain ⟨-, hfault⟩ := h.stored.perform (serverCall (c, call))
    rw [hbefore, Option.none_or, hperform, hfault, Option.map_eq_some_iff] at hcrash
    obtain ⟨fault', hcall, hsame⟩ := hcrash
    obtain rfl := ServerCrash.logic.inj hsame
    cases call with
    | onConnected => cases hcall
    | onDisconnected => cases hcall
    | onMessage message => exact ⟨c, message, List.mem_append_right _ List.mem_cons_self, hcall⟩

/-- A handler that calls the logic. -/
lemma called (h : Serving s) {c : Connection} {session session' : WebsocketSession Json}
    (hat : At s c session) (hbox : Outbox session' (Session.received s.sent c))
    (hcalls : session'.calls ≠ []) (call : LogicCall Json)
    (hproper : (population s).Proper (serverCall (c, call)))
    (hself : c ∈ ((population s).perform (serverCall (c, call))).live ↔ session'.mConnected = true)
    (hother : ∀ d ≠ c, d ∈ ((population s).perform (serverCall (c, call))).live ↔
      d ∈ (population s).live) :
    Serving (({ s with sessions := s.sessions.set c.id (c, session') } : WebsocketServer).call c
      call) := by
  set o := call.perform s.logic c with ho
  have hperform : o = (serverCall (c, call)).perform s.logic := by cases call <;> rfl
  have hconnection : (serverCall (c, call)).connection = c := by cases call <;> rfl
  set s₂ : WebsocketServer := { s with
    sessions := s.sessions.set c.id (c, session')
    logic := o.logic
    calls := s.calls ++ [(c, call)]
    sent := s.sent ++ o.sent
    crash := s.crash.or (o.fault.map .logic) }
  have htold : ∀ d, d = c ∨ Told s d → Told s₂ d := by
    rintro d (rfl | hd)
    · exact ⟨session', (at_set hat d session').2 (.inl ⟨rfl, rfl⟩), hcalls⟩
    · exact told_set hat (fun _ => hcalls) hd
  have hreceivers : ∀ message ∈ o.sent, message.1 = c ∨ Told s message.1 := by
    intro message hmem
    rw [hperform] at hmem
    have hwho := receivers_of_call h.stored (serverCall (c, call)) message hmem
    rw [hconnection] at hwho
    exact hwho.imp_right (h.members c.channel message.1)
  have hnumbered : Numbered s₂.sessions := numbered_set h.numbered c session'
  have hcall : ({ s with sessions := s.sessions.set c.id (c, session') } : WebsocketServer).call c call
      = { s₂ with sessions := s₂.sessions.map (sentTo o.sent) } := by
    change o.sent.foldl WebsocketServer.send s₂ = _
    apply foldl_send hnumbered
    intro message hmem
    obtain ⟨x, hx, -⟩ := htold message.1 (hreceivers message hmem)
    exact ⟨x, hx⟩
  rw [hcall]
  set s₃ : WebsocketServer := { s₂ with sessions := s₂.sessions.map (sentTo o.sent) }
  have htold₃ : ∀ d, d = c ∨ Told s d → Told s₃ d := fun d hd => told_sentTo o.sent (htold d hd)
  have hpopulation : population s₃ = (population s).perform (serverCall (c, call)) :=
    population_call s₃ rfl
  refine ⟨?_, ?_, ?_, ?_, numbered_map hnumbered o.sent, ?_, ?_, ?_, ?_, h.crash_call c call⟩
  · rw [hpopulation]
    change o.logic = serve (population s).server _
    rw [← h.logic, hperform]
    rfl
  · change Runs.AllSteps _ _ _ ((s.calls ++ [(c, call)]).map serverCall)
    rw [List.map_append, Runs.allSteps_append]
    exact ⟨h.proper, hproper, trivial⟩
  · rw [hpopulation]
    exact nodup_perform h.nodup hproper
  · change Stored o.logic
    rw [hperform]
    exact (h.stored.perform (serverCall (c, call))).1
  · intro d
    -- what a session gets does not change whether it is connected
    have hopen : (∃ x, At s₃ d x ∧ x.mConnected = true) ↔
        if d = c then session'.mConnected = true else ∃ x, At s d x ∧ x.mConnected = true :=
      (open_sentTo o.sent d).trans (open_set hat d)
    rw [hpopulation, hopen]
    split_ifs with hd
    · rw [hd, hself]
    · rw [hother d hd, h.live]
  · intro name d hd
    change d ∈ membersOf (o.logic.mChannels.lookup name) at hd
    rw [hperform] at hd
    rcases members_of_call h.stored (serverCall (c, call)) name d hd with hold | hnew
    · exact htold₃ d (.inr (h.members name d hold))
    · rw [hnew] at hconnection
      exact htold₃ d (.inl hconnection)
  · intro message hmem
    rcases List.mem_append.1 hmem with hold | hnew
    · exact htold₃ _ (.inr (h.sent message hold))
    · exact htold₃ _ (hreceivers message hnew)
  · intro d x hx
    obtain ⟨y, hy, rfl⟩ := (at_sentTo o.sent d x).1 hx
    change Outbox _ (Session.received (s.sent ++ o.sent) d)
    rw [received_append]
    have hsome : Session.received o.sent d ≠ [] → y.calls ≠ [] := by
      intro hne
      have hwho : d = c ∨ Told s d := by
        by_contra hno
        refine hne (received_of_ne fun message hmem heq => hno ?_)
        rw [← heq]
        exact hreceivers message hmem
      obtain ⟨x, hx, hcalled⟩ := htold d hwho
      rwa [at_unique hy hx]
    apply Outbox.sends _ hsome
    rcases (at_set hat d y).1 hy with ⟨rfl, rfl⟩ | ⟨-, hold⟩
    · exact hbox
    · exact h.outbox d y hold

/-- The handler of a session, and the call it makes. -/
lemma onSession (h : Serving s) (id i : Nat) (ec : Bool) (text : Json)
    (hturn : ∀ entry, s.sessions[id]? = some entry → InTurn entry.2 i) :
    Serving (s.onSession id i ec text) := by
  unfold WebsocketServer.onSession
  cases hentry : s.sessions[id]? with
  | none => exact h
  | some entry =>
    obtain ⟨c, session⟩ := entry
    have hid : c.id = id := h.numbered id _ hentry
    subst hid
    have hat : At s c session := hentry
    have hbox := h.outbox c session hat
    have hnext := hbox.complete (hturn _ hentry) ec text
    have hknown : c ∈ (population s).live ↔ session.mConnected = true := by
      rw [h.live]
      constructor
      · rintro ⟨x, hx, hopen⟩
        rwa [at_unique hat hx]
      · exact fun hopen => ⟨session, hat, hopen⟩
    dsimp only
    obtain ⟨texts, hstage, -⟩ := hbox
    cases SessionProtocol.called_complete hstage i ec text with
    | nothing hcalls hconnected =>
      rw [hcalls, List.drop_length]
      exact h.replaced hat hnext hcalls hconnected
    | opened hfirst hbefore hcalls hconnected =>
      rw [hcalls, hfirst]
      refine h.called hat hnext (by simp [hcalls]) .onConnected ?_ ?_ ?_
      · change c ∉ (population s).live
        simp [hknown, hbefore]
      · exact iff_of_true (List.mem_append_right _ (List.mem_singleton.2 rfl)) hconnected
      · intro d hd
        change d ∈ (population s).live ++ [c] ↔ _
        simp [hd]
    | message message hbefore hcalls hconnected =>
      rw [hcalls, List.drop_left]
      refine h.called hat hnext (by simp [hcalls]) (.onMessage message) (hknown.2 hbefore) ?_ ?_
      · exact iff_of_true (hknown.2 hbefore) hconnected
      · exact fun d _ => Iff.rfl
    | closed hbefore hcalls hconnected =>
      rw [hcalls, List.drop_left]
      refine h.called hat hnext (by simp [hcalls]) .onDisconnected (hknown.2 hbefore) ?_ ?_
      · change c ∈ (population s).live.erase c ↔ _
        simp [h.nodup.mem_erase_iff, hconnected]
      · intro d hd
        exact List.mem_erase_of_ne hd

/-- Whatever the network does. -/
lemma perform (h : Serving s) (event : NetworkEvent) (hadmitted : Admitted s event) :
    Serving (s.perform event) := by
  unfold WebsocketServer.perform
  split_ifs
  · exact h
  cases event with
  | accept ec =>
    dsimp only
    unfold WebsocketServer.onAccept
    split_ifs
    · exact h
    · exact h.of_eq rfl rfl rfl rfl fun _ => id
    · exact h.of_eq rfl rfl rfl rfl fun _ => id
  | session id i ec text => exact h.onSession id i ec text hadmitted
  | read result =>
    have hcreate : ∀ (s : WebsocketServer) target remote, Serving s →
        Serving (s.createSession target remote) := by
      intro s target remote h
      unfold WebsocketServer.createSession
      dsimp only
      split_ifs
      · cases remote with
        | none => exact h.of_eq rfl rfl rfl rfl (by simp)
        | some remote => exact h.created _ remote
      · exact h.created _ _
    dsimp only
    unfold WebsocketServer.onRead
    split
    · exact h
    · rename_i http _
      have hread : Serving { s with http := http } := h.of_eq rfl rfl rfl rfl fun _ => id
      cases result with
      | endOfStream => exact hread
      | error => exact hread
      | request upgrade target remote =>
        dsimp only
        split_ifs
        · exact hcreate _ target remote hread
        · exact hread

end Serving

lemma serving_init : Serving {} := by
  refine ⟨rfl, trivial, List.nodup_nil, stored_init, fun i entry hentry => by simp at hentry, ?_, ?_,
    fun message hmem => absurd hmem List.not_mem_nil, fun c session hat => by simp [At] at hat, by simp⟩
  · intro c
    constructor
    · exact fun hmem => absurd hmem List.not_mem_nil
    · rintro ⟨session, hat, -⟩
      simp [At] at hat
  · intro name d hd
    change d ∈ membersOf ((∅ : AList fun _ : String => Channel).lookup name) at hd
    rw [AList.lookup_empty] at hd
    exact absurd hd List.not_mem_nil

/-- In every run of the server, with connections, requests and operations that succeed or fail in any
order and messages of any content: the logic is called properly, exactly the connected sessions are
known to it and no call of it ends the process, unless its message makes the decoder write outside a
matrix; and every session hands over what the logic sent to it, one text at a time and in order, and is
not left with a rest. -/
theorem server_serves (run : List NetworkEvent)
    (hrun : Runs.AllSteps WebsocketServer.perform Admitted {} run) :
    Runs.AllStates WebsocketServer.perform Serves {} run :=
  (Runs.allStates_of_invariant (fun _ event h hok => h.perform event hok) serving_init hrun).mono
    fun _ h => h.serves

end ServerSessions

end

section

attribute [local instance] Usd.sample

namespace ServerSessions

/-- Two users join a room and one of them sends a delta. -/
theorem server_serves_two :
    let delta : Json := .object [("event", .string "Delta::Event"), ("body", .object
      [("layer", .string "layer"), ("user", .string "alice"), ("updates", .array [])])]
    let run : List NetworkEvent :=
      [.accept false, .accept false, .read (.request true "/room/?user=alice" none),
        .read (.request true "/room/" (some "10.0.0.1:5")), .session 0 0 false .null,
        .session 1 0 false .null, .session 0 0 false delta]
    let s := Runs.final WebsocketServer.perform {} run
    Runs.AllStates WebsocketServer.perform Serves {} run ∧
      (s.sessions.map fun entry => entry.1.debugName) = ["alice", "10.0.0.1:5"] ∧
      (s.sent.map fun message => message.1.id) = [0, 1, 1, 0] := by
  intro delta run s
  refine ⟨server_serves run ?_, by decide, by decide⟩
  have hfirst : ∀ (s : WebsocketServer) (id : Nat) ec text, Admitted s (.session id 0 ec text) :=
    fun _ _ _ _ _ _ _ _ => rfl
  exact ⟨trivial, trivial, trivial, trivial, hfirst _ _ _ _, hfirst _ _ _ _, hfirst _ _ _ _, trivial⟩

end ServerSessions

end

end RenderStudioKit.Proofs
