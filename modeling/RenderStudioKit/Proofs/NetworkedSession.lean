import RenderStudioKit.Model.NetworkedSession
import RenderStudioKit.Proofs.ClientOutbox
import RenderStudioKit.Proofs.ServerSessions
import RenderStudioKit.Proofs.SessionStart
import RenderStudioKit.Proofs.SessionSteps

/-!
# The sockets carry a session

The results about sessions speak of links that deliver every message once and in order. The sockets are
such links as long as nothing fails and no write of a client overtakes another one: seen from the texts
that are on their way, a run over the sockets is a run of the session.
-/

namespace RenderStudioKit.Proofs

open API

section

variable [Usd]

namespace Networked

open ServerSessions

/-- The session, whose links hold what was passed to `Send` at one end and not read at the other. -/
def view (room : Room) (n : NetworkedSession) : Session where
  server := n.server.logic
  client := n.client
  uplink user := (n.passed user).drop (n.up user)
  downlink user := (Session.received n.server.sent (room.connection user)).drop (n.down user)

/-- What a step is for the session; a read is a step of it if it brings a text. -/
def sessionActions (room : Room) (n : NetworkedSession) (action : NetworkAction) :
    List SessionAction :=
  match action with
  | .set user layer path field value => [.set user layer path field value]
  | .update user files => [.update user files]
  | .reload user layer file => [.reload user layer file]
  | .socket _ _ _ => []
  | .receive user _ => if (n.perform room action).down user = n.down user then [] else [.deliver user]
  | .server _ => []
  | .hear user _ => if (n.perform room action).up user = n.up user then [] else [.serve user]

/-- The handlers of a session that neither accept nor read. -/
def Hands (s : WebsocketServer) : NetworkEvent → Prop
  | .session id i ec _ => ec = false ∧ ∀ c session, s.sessions[id]? = some (c, session) →
      ∀ op, session.pending[i]? = some op →
        SessionProtocol.isPost op = true ∨ SessionProtocol.isWrite op = true
  | .accept _ => True
  | .read _ => True

/-- Nothing fails and nobody comes, a strand keeps its order, a write of a client that completes leaves
a backlog whose last text is also its first, and what the server reads makes no decoder write outside a
matrix. -/
def Smooth (n : NetworkedSession) : NetworkAction → Prop
  | .socket user i completion => completion.ec = false ∧ completion.received = none ∧
      ClientOutbox.InTurn (n.socket user) i ∧ ClientOutbox.KeepsOrder (n.socket user) i
  | .server event => ServerSessions.Admitted n.server event ∧ Hands n.server event ∧
      (n.server.perform event).crash = none
  | .hear user _ => ∀ text, (n.socket user).writes[n.up user]? = some text → parseFault text = none
  | _ => True

/-- The invariant of the sockets of a room. -/
structure Carried (room : Room) (n : NetworkedSession) : Prop where
  serving : Serving n.server
  alive : n.server.crash = none
  live : ∀ user ∈ room.members, room.connection user ∈ (population n.server).live
  outbox : ∀ user ∈ room.members, ClientOutbox.Outbox (n.socket user) (n.passed user)
  up : ∀ user, n.up user ≤ (n.passed user).length
  down : ∀ user, n.down user ≤ (Session.received n.server.sent (room.connection user)).length

variable {room : Room} {n : NetworkedSession} {user : String}

lemma outbox_sends {c : WebsocketClient Json} {passed : List Json} (h : ClientOutbox.Outbox c passed)
    (texts : List Json) :
    ClientOutbox.Outbox (texts.foldl WebsocketClient.send c) (passed ++ texts) := by
  induction texts generalizing c passed with
  | nil => simpa using h
  | cons text texts ih =>
    have hrest := ih (h.send text)
    rwa [List.append_assoc] at hrest

lemma Carried.withClient (h : Carried room n) (hmember : user ∈ room.members) (o : LiveOutcome) :
    Carried room (n.withClient user o) ∧
      view room (n.withClient user o) = (view room n).withClient user o := by
  refine ⟨⟨h.serving, h.alive, h.live, fun w hw => ?_, fun w => ?_, h.down⟩, ?_⟩
  · by_cases hwu : w = user
    · subst hwu
      simp only [NetworkedSession.withClient, Function.update_self]
      exact outbox_sends (h.outbox w hmember) o.sent
    · simp only [NetworkedSession.withClient, Function.update_of_ne hwu]
      exact h.outbox w hw
  · by_cases hwu : w = user
    · subst hwu
      simp only [NetworkedSession.withClient, Function.update_self, List.length_append]
      exact Nat.le_trans (h.up w) (Nat.le_add_right _ _)
    · simp only [NetworkedSession.withClient, Function.update_of_ne hwu]
      exact h.up w
  · have huplink : (view room (n.withClient user o)).uplink =
        Function.update (view room n).uplink user ((view room n).uplink user ++ o.sent) := by
      funext w
      by_cases hwu : w = user
      · subst hwu
        simp only [view, NetworkedSession.withClient, Function.update_self]
        exact List.drop_append_of_le_length (h.up w)
      · simp only [view, NetworkedSession.withClient, Function.update_of_ne hwu]
    rw [Session.withClient, ← huplink]
    rfl

lemma session_writes (c : WebsocketSession Json) : c.writes = SessionProtocol.handedOver c := by
  refine congrArg (fun text => c.started.filterMap text) (funext fun op => ?_)
  cases op <;> rfl

lemma client_writes (c : WebsocketClient Json) : c.writes = handedOver c := by
  refine congrArg (fun text => c.started.filterMap text) (funext fun op => ?_)
  cases op <;> rfl

lemma getElem?_of_prefix {texts sent : List Json} (h : texts <+: sent) {k : Nat} {text : Json}
    (hk : texts[k]? = some text) : sent.drop k = text :: sent.drop (k + 1) := by
  obtain ⟨rest, rfl⟩ := h
  obtain ⟨hlt, hget⟩ := List.getElem?_eq_some_iff.1 hk
  have hlt' : k < (texts ++ rest).length := by
    rw [List.length_append]
    omega
  rw [List.drop_eq_getElem_cons hlt', List.getElem_append_left hlt, hget]

lemma Carried.session (h : Carried room n) (hmember : user ∈ room.members) :
    ∃ session, n.server.sessions[(room.connection user).id]? = some (room.connection user, session) ∧
      session.mConnected = true ∧
      SessionProtocol.Outbox session (Session.received n.server.sent (room.connection user)) := by
  obtain ⟨session, hat, hconnected⟩ := (h.serving.live _).1 (h.live user hmember)
  exact ⟨session, hat, hconnected, h.serving.outbox _ session hat⟩

lemma Carried.complete (h : Carried room n) (hmember : user ∈ room.members) {i : Nat}
    (hturn : ClientOutbox.InTurn (n.socket user) i)
    (hkeeps : ClientOutbox.KeepsOrder (n.socket user) i) {completion : Completion Json}
    (hec : completion.ec = false) :
    Carried room (n.complete user i completion) ∧
      (n.complete user i completion).client = Function.update n.client user
        ((ClientOutbox.told (n.socket user) i completion).foldl RenderStudioFileFormat.listen
          (n.client user)) := by
  obtain ⟨houtbox, hcallbacks⟩ := (h.outbox user hmember).complete hturn hkeeps hec
  refine ⟨⟨h.serving, h.alive, h.live, fun w hw => ?_, h.up, h.down⟩, ?_⟩
  · by_cases hwu : w = user
    · subst hwu
      simp only [NetworkedSession.complete, Function.update_self]
      exact houtbox
    · simp only [NetworkedSession.complete, Function.update_of_ne hwu]
      exact h.outbox w hw
  · simp only [NetworkedSession.complete]
    rw [hcallbacks, List.drop_left]

/-- A text reaches a member, or there is none. -/
lemma Carried.receive (h : Carried room n) (hmember : user ∈ room.members) (i : Nat) :
    Carried room (n.receive room user i) ∧
      (n.receive room user i = n ∨
        (n.receive room user i).down user = n.down user + 1 ∧
          view room (n.receive room user i) = (view room n).deliver user) := by
  unfold NetworkedSession.receive
  split
  · rename_i text hop htext
    obtain ⟨session, hsession, -, hbox⟩ := h.session hmember
    rw [hsession, Option.bind_some] at htext
    have hwritten : (SessionProtocol.handedOver session)[n.down user]? = some text := by
      rw [← session_writes]
      exact htext
    have hdrop := getElem?_of_prefix hbox.inOrder hwritten
    have hlt : n.down user < (Session.received n.server.sent (room.connection user)).length := by
      by_contra hge
      rw [List.drop_eq_nil_of_le (Nat.le_of_not_lt hge)] at hdrop
      cases hdrop
    have hturn : ClientOutbox.InTurn (n.socket user) i := by
      intro message hpost
      rw [hop] at hpost
      cases hpost
    have hkeeps : ClientOutbox.KeepsOrder (n.socket user) i := by
      intro hwrite
      rw [hop] at hwrite
      cases hwrite
    obtain ⟨hcarried, hclient⟩ :=
      h.complete hmember hturn hkeeps (rfl : ({ received := some text } : Completion Json).ec = false)
    have htold : ClientOutbox.told (n.socket user) i { received := some text } =
        [.onMessage text] := by
      rw [ClientOutbox.told, hop]
      rfl
    rw [htold] at hclient
    refine ⟨⟨hcarried.serving, hcarried.alive, hcarried.live, hcarried.outbox, hcarried.up, ?_⟩, .inr ⟨?_, ?_⟩⟩
    · intro w
      by_cases hwu : w = user
      · subst hwu
        simp only [Function.update_self]
        exact hlt
      · simp only [Function.update_of_ne hwu]
        exact h.down w
    · exact Function.update_self ..
    · obtain ⟨hnone, -⟩ | ⟨text', rest, hdownlink, hdeliver⟩ := deliver_cases (view room n) user
      · rw [view] at hnone
        dsimp only at hnone
        rw [hdrop] at hnone
        cases hnone
      · have hsame : (view room n).downlink user = text ::
            (Session.received n.server.sent (room.connection user)).drop (n.down user + 1) := hdrop
        rw [hsame] at hdownlink
        obtain ⟨rfl, rfl⟩ := List.cons.inj hdownlink
        rw [hdeliver]
        have hdown : (fun w => (Session.received n.server.sent (room.connection w)).drop
              (Function.update n.down user (n.down user + 1) w)) =
            Function.update (view room n).downlink user
              ((Session.received n.server.sent (room.connection user)).drop (n.down user + 1)) := by
          funext w
          by_cases hwu : w = user
          · subst hwu
            simp only [Function.update_self]
          · simp only [Function.update_of_ne hwu]
            rfl
        rw [← hdown]
        unfold view
        dsimp only
        rw [hclient]
        rfl
  · exact ⟨h, .inl rfl⟩

lemma foldl_send_frame (messages : List (Connection × Event)) (s : WebsocketServer) :
    ∃ sessions, messages.foldl WebsocketServer.send s = { s with sessions := sessions } := by
  induction messages generalizing s with
  | nil => exact ⟨s.sessions, rfl⟩
  | cons message messages ih =>
    obtain ⟨sessions, hsessions⟩ := ih (s.send message)
    refine ⟨sessions, ?_⟩
    rw [List.foldl_cons, hsessions, send_frame message]

/-- The server reads a text of a connected session. -/
lemma perform_read {s : WebsocketServer} (h : Serving s) (halive : s.crash = none) {c : Connection}
    {session : WebsocketSession Json} (hat : s.sessions[c.id]? = some (c, session))
    (hconnected : session.mConnected = true) {i : Nat} (hop : session.pending[i]? = some .read)
    {text : Json} (hdecoded : parseFault text = none) :
    let s' := s.perform (.session c.id i false text)
    Serving s' ∧ s'.crash = none ∧ s'.logic = (s.logic.onMessage c text).logic ∧
      s'.sent = s.sent ++ (s.logic.onMessage c text).sent ∧
      s'.calls = s.calls ++ [(c, .onMessage text)] := by
  intro s'
  have hturn : ServerSessions.Admitted s (.session c.id i false text) := by
    intro entry hentry message hpost
    rw [hat] at hentry
    rw [← Option.some.inj hentry, hop] at hpost
    exact nomatch hpost
  have hserving : Serving s' := h.perform _ hturn
  have hcalls : (session.complete i false text).calls = session.calls ++ [.onMessage text] := by
    have hcomplete : session.complete i false text =
        (SessionProtocol.taken session i).onRead false text := by
      rw [WebsocketSession.complete, hop]
      rfl
    have hopen : ¬(!(SessionProtocol.taken session i).mConnected) = true := by
      change ¬(!session.mConnected) = true
      simp [hconnected]
    rw [hcomplete, WebsocketSession.onRead, if_neg hopen, if_neg Bool.false_ne_true,
      SessionProtocol.read_calls]
    rfl
  have hsession : s' =
      ({ s with sessions := s.sessions.set c.id (c, session.complete i false text) } :
        WebsocketServer).call c (.onMessage text) := by
    have hrunning : ¬s.crash.isSome = true := by simp [halive]
    change s.perform (.session c.id i false text) = _
    unfold WebsocketServer.perform WebsocketServer.onSession
    rw [if_neg hrunning]
    simp only [hat, hcalls, List.drop_left]
    rfl
  obtain ⟨sessions, hframe⟩ := foldl_send_frame (s.logic.onMessage c text).sent
    { s with
      sessions := s.sessions.set c.id (c, session.complete i false text)
      logic := (s.logic.onMessage c text).logic
      calls := s.calls ++ [(c, .onMessage text)]
      sent := s.sent ++ (s.logic.onMessage c text).sent
      crash := s.crash.or ((s.logic.onMessage c text).fault.map .logic) }
  have hfields : s' = _ := hsession.trans hframe
  refine ⟨hserving, ?_, by rw [hfields], by rw [hfields], by rw [hfields]⟩
  have hfault : (s.logic.onMessage c text).fault = none :=
    (h.stored.perform (.message c text)).2.trans hdecoded
  rw [hfields]
  change s.crash.or ((s.logic.onMessage c text).fault.map .logic) = none
  rw [halive, hfault]
  rfl

/-- A handler of the server that reads nothing leaves the logic alone. -/
lemma perform_hands {s : WebsocketServer} {event : NetworkEvent} (hhands : Hands s event) :
    (s.perform event).logic = s.logic ∧ (s.perform event).sent = s.sent ∧
      (s.perform event).calls = s.calls := by
  unfold WebsocketServer.perform
  split_ifs
  · exact ⟨rfl, rfl, rfl⟩
  cases event with
  | accept ec =>
    dsimp only
    unfold WebsocketServer.onAccept
    split_ifs <;> exact ⟨rfl, rfl, rfl⟩
  | read result =>
    dsimp only
    unfold WebsocketServer.onRead
    split
    · exact ⟨rfl, rfl, rfl⟩
    · cases result with
      | endOfStream => exact ⟨rfl, rfl, rfl⟩
      | error => exact ⟨rfl, rfl, rfl⟩
      | request upgrade target remote =>
        dsimp only
        unfold WebsocketServer.createSession
        dsimp only
        split_ifs
        · cases remote <;> exact ⟨rfl, rfl, rfl⟩
        · exact ⟨rfl, rfl, rfl⟩
        · exact ⟨rfl, rfl, rfl⟩
  | session id i ec text =>
    dsimp only
    unfold WebsocketServer.onSession
    cases hentry : s.sessions[id]? with
    | none => exact ⟨rfl, rfl, rfl⟩
    | some entry =>
      obtain ⟨c, session⟩ := entry
      obtain ⟨rfl, hkind⟩ := hhands
      have hcalls : (session.complete i false text).calls = session.calls := by
        unfold WebsocketSession.complete
        cases hop : session.pending[i]? with
        | none => rfl
        | some op =>
          cases op with
          | accept | read =>
            have hkind' := hkind c session hentry _ hop
            simp [SessionProtocol.isPost, SessionProtocol.isWrite] at hkind'
          | post message =>
            change ((SessionProtocol.taken session i).write message).calls = session.calls
            by_cases hqueue : (SessionProtocol.taken session i).mWriteQueue = []
            · rw [SessionProtocol.write_first _ message hqueue]
              rfl
            · rw [SessionProtocol.write_backlog _ message hqueue]
              rfl
          | write message =>
            change ((SessionProtocol.taken session i).onWrite false).calls = session.calls
            unfold WebsocketSession.onWrite
            simp only [Bool.false_eq_true, if_false]
            split_ifs
            · rfl
            · split <;> rfl
      dsimp only
      rw [hcalls, List.drop_length]
      exact ⟨rfl, rfl, rfl⟩

/-- A text reaches the server, or there is none. -/
lemma Carried.hear (h : Carried room n) (hmember : user ∈ room.members) (i : Nat)
    (hdecoded : ∀ text, (n.socket user).writes[n.up user]? = some text → parseFault text = none) :
    Carried room (n.hear room user i) ∧
      (n.hear room user i = n ∨
        (n.hear room user i).up user = n.up user + 1 ∧
          view room (n.hear room user i) = (view room n).serve room user) := by
  unfold NetworkedSession.hear
  split
  · rename_i text hop htext
    obtain ⟨session, hsession, hconnected, -⟩ := h.session hmember
    rw [hsession, Option.bind_some] at hop
    have hinside := hdecoded text htext
    rw [client_writes] at htext
    have hdrop := getElem?_of_prefix (h.outbox user hmember).inOrder htext
    have hlt : n.up user < (n.passed user).length := by
      by_contra hge
      rw [List.drop_eq_nil_of_le (Nat.le_of_not_lt hge)] at hdrop
      exact nomatch hdrop
    obtain ⟨hserving, halive, hlogic, hsent, hcalls⟩ :=
      perform_read h.serving h.alive hsession hconnected hop hinside
    refine ⟨⟨hserving, halive, fun w hw => ?_, h.outbox, fun w => ?_, fun w => ?_⟩,
      .inr ⟨Function.update_self .., ?_⟩⟩
    · have hlive := h.live w hw
      have hpopulation := population_call (s := n.server) _ hcalls
      dsimp only
      rw [hpopulation]
      exact hlive
    · by_cases hwu : w = user
      · subst hwu
        simp only [Function.update_self]
        exact hlt
      · simp only [Function.update_of_ne hwu]
        exact h.up w
    · dsimp only
      rw [hsent, ServerSessions.received_append, List.length_append]
      exact Nat.le_trans (h.down w) (Nat.le_add_right _ _)
    · have hserve : (view room n).serve room user = _ := serve_eq hdrop
      rw [hserve]
      have huplink : (fun w => (n.passed w).drop (Function.update n.up user (n.up user + 1) w)) =
          Function.update (view room n).uplink user ((n.passed user).drop (n.up user + 1)) := by
        funext w
        by_cases hwu : w = user
        · subst hwu
          simp only [Function.update_self]
        · simp only [Function.update_of_ne hwu]
          rfl
      have hdownlink : (fun w => (Session.received (n.server.sent ++
            (n.server.logic.onMessage (room.connection user) text).sent) (room.connection w)).drop
              (n.down w)) =
          fun w => (view room n).downlink w ++ Session.received
            (n.server.logic.onMessage (room.connection user) text).sent (room.connection w) := by
        funext w
        rw [ServerSessions.received_append]
        exact List.drop_append_of_le_length (h.down w)
      rw [← huplink]
      unfold view at hdownlink ⊢
      dsimp only at hdownlink ⊢
      rw [hlogic, hsent, hdownlink]
  · exact ⟨h, .inl rfl⟩

lemma Carried.server (h : Carried room n) {event : NetworkEvent}
    (hadmitted : ServerSessions.Admitted n.server event)
    (hhands : Hands n.server event) (halive : (n.server.perform event).crash = none) :
    Carried room { n with server := n.server.perform event } ∧
      view room { n with server := n.server.perform event } = view room n := by
  obtain ⟨hlogic, hsent, hcalls⟩ := perform_hands hhands
  have hpopulation : population (n.server.perform event) = population n.server := by
    rw [population, population, hcalls]
  refine ⟨⟨h.serving.perform event hadmitted, halive, fun w hw => ?_, h.outbox, h.up, fun w => ?_⟩, ?_⟩
  · dsimp only
    rw [hpopulation]
    exact h.live w hw
  · dsimp only
    rw [hsent]
    exact h.down w
  · unfold view
    dsimp only
    rw [hlogic, hsent]

lemma Carried.called (h : Carried room n) (user : String) (o : LiveOutcome) {action : SessionAction}
    (haction : (view room n).perform room action =
      if user ∉ room.members then view room n else (view room n).withClient user o) :
    Carried room (if user ∉ room.members then n else n.withClient user o) ∧
      view room (if user ∉ room.members then n else n.withClient user o) =
        Runs.final (Session.perform room) (view room n) [action] := by
  change _ ∧ _ = (view room n).perform room action
  rw [haction]
  split_ifs with hmember
  · exact h.withClient hmember o
  · exact ⟨h, rfl⟩

lemma Carried.reads {n' : NetworkedSession} {count count' : Nat} {action : SessionAction}
    (hcarried : Carried room n') (hread : (n' = n ∧ count' = count) ∨
      count' = count + 1 ∧ view room n' = (view room n).perform room action) :
    Carried room n' ∧ view room n' =
      Runs.final (Session.perform room) (view room n) (if count' = count then [] else [action]) := by
  refine ⟨hcarried, ?_⟩
  rcases hread with ⟨rfl, hsame⟩ | ⟨hnext, hview⟩
  · rw [if_pos hsame]
    rfl
  · rw [if_neg (by omega), hview]
    rfl

/-- One step over the sockets. -/
lemma Carried.perform (h : Carried room n) (action : NetworkAction) (hsmooth : Smooth n action) :
    Carried room (n.perform room action) ∧
      view room (n.perform room action) =
        Runs.final (Session.perform room) (view room n) (sessionActions room n action) := by
  cases action with
  | server event =>
    obtain ⟨hadmitted, hhands, halive⟩ := hsmooth
    exact h.server hadmitted hhands halive
  | set user layer path field value => exact h.called user _ rfl
  | update user files => exact h.called user _ rfl
  | reload user layer file => exact h.called user _ rfl
  | socket user i completion =>
    obtain ⟨hec, hreceived, hturn, hkeeps⟩ := hsmooth
    unfold NetworkedSession.perform
    dsimp only
    split_ifs with hmember
    · obtain ⟨hcarried, hclient⟩ := h.complete hmember hturn hkeeps hec
      have htold : ClientOutbox.told (n.socket user) i completion = [] := by
        simp [ClientOutbox.told, hreceived]
      rw [htold, List.foldl_nil, Function.update_eq_self] at hclient
      refine ⟨hcarried, ?_⟩
      unfold view
      rw [hclient]
      rfl
    · exact ⟨h, rfl⟩
  | receive user i =>
    by_cases hmember : user ∈ room.members
    · have hstep : n.perform room (.receive user i) = n.receive room user i :=
        if_neg (not_not.2 hmember)
      obtain ⟨hcarried, hread⟩ := h.receive hmember i
      have hdeliver : (view room n).deliver user =
          (view room n).perform room (.deliver user) := (if_neg (not_not.2 hmember)).symm
      unfold sessionActions
      rw [hstep]
      refine Carried.reads (n := n) hcarried ?_
      rcases hread with hsame | ⟨hdown, hview⟩
      · exact .inl ⟨hsame, by rw [hsame]⟩
      · exact .inr ⟨hdown, hview.trans hdeliver⟩
    · have hstep : n.perform room (.receive user i) = n := if_pos hmember
      unfold sessionActions
      rw [hstep]
      exact Carried.reads (n := n) h (.inl ⟨rfl, rfl⟩)
  | hear user i =>
    by_cases hmember : user ∈ room.members
    · have hstep : n.perform room (.hear user i) = n.hear room user i :=
        if_neg (not_not.2 hmember)
      obtain ⟨hcarried, hread⟩ := h.hear hmember i hsmooth
      have hserve : (view room n).serve room user =
          (view room n).perform room (.serve user) := (if_neg (not_not.2 hmember)).symm
      unfold sessionActions
      rw [hstep]
      refine Carried.reads (n := n) hcarried ?_
      rcases hread with hsame | ⟨hup, hview⟩
      · exact .inl ⟨hsame, by rw [hsame]⟩
      · exact .inr ⟨hup, hview.trans hserve⟩
    · have hstep : n.perform room (.hear user i) = n := if_pos hmember
      unfold sessionActions
      rw [hstep]
      exact Carried.reads (n := n) h (.inl ⟨rfl, rfl⟩)

/-- The logic and what it sent after some calls. -/
def outcomes (start : Logic × List (Connection × Event))
    (calls : List (Connection × LogicCall Json)) : Logic × List (Connection × Event) :=
  calls.foldl (fun s call =>
    ((call.2.perform s.1 call.1).logic, s.2 ++ (call.2.perform s.1 call.1).sent)) start

/-- What the server has sent is what its calls of the logic sent. -/
def ByCalls (s : WebsocketServer) : Prop := (s.logic, s.sent) = outcomes ({}, []) s.calls

lemma byCalls_call {s : WebsocketServer} (h : ByCalls s) (c : Connection) (call : LogicCall Json) :
    ByCalls (s.call c call) := by
  obtain ⟨sessions, hframe⟩ := foldl_send_frame (call.perform s.logic c).sent
    { s with
      logic := (call.perform s.logic c).logic
      calls := s.calls ++ [(c, call)]
      sent := s.sent ++ (call.perform s.logic c).sent
      crash := s.crash.or ((call.perform s.logic c).fault.map .logic) }
  have hcall : s.call c call = _ := hframe
  rw [hcall, ByCalls, outcomes, List.foldl_append]
  change _ = List.foldl _ (outcomes ({}, []) s.calls) _
  rw [← h]
  rfl

lemma byCalls_perform {s : WebsocketServer} (h : ByCalls s) (event : NetworkEvent) :
    ByCalls (s.perform event) := by
  have hcalls : ∀ (c : Connection) (calls : List (LogicCall Json)) (s : WebsocketServer), ByCalls s →
      ByCalls (calls.foldl (fun s call => s.call c call) s) := by
    intro c calls
    induction calls with
    | nil => exact fun _ h => h
    | cons call calls ih => exact fun s h => ih _ (byCalls_call h c call)
  cases event with
  | accept ec =>
    have hhands : Hands s (.accept ec) := trivial
    obtain ⟨hlogic, hsent, hcalls⟩ := perform_hands hhands
    rw [ByCalls, hlogic, hsent, hcalls]
    exact h
  | read result =>
    have hhands : Hands s (.read result) := trivial
    obtain ⟨hlogic, hsent, hcalls⟩ := perform_hands hhands
    rw [ByCalls, hlogic, hsent, hcalls]
    exact h
  | session id i ec text =>
    unfold WebsocketServer.perform
    split_ifs
    · exact h
    · dsimp only
      unfold WebsocketServer.onSession
      split
      · exact h
      · exact hcalls _ _ _ h

/-- The session in which the members have joined, by the calls of the logic. -/
lemma start_eq (room : Room) (client : String → RenderStudioFileFormat) :
    let s := outcomes ({}, []) (room.members.map fun user => (room.connection user, .onConnected))
    Session.start room client =
      { server := s.1, client := client,
        downlink := fun user => Session.received s.2 (room.connection user) } := by
  have hjoin : ∀ (names : List String) (l : Logic) (sent : List (Connection × Event)),
      let s := outcomes (l, sent) (names.map fun user => (room.connection user, .onConnected))
      names.foldl (Session.join room)
          { server := l, client := client,
            downlink := fun user => Session.received sent (room.connection user) } =
        { server := s.1, client := client,
          downlink := fun user => Session.received s.2 (room.connection user) } := by
    intro names
    induction names with
    | nil => exact fun _ _ => rfl
    | cons name names ih =>
      intro l sent
      have hnext := ih (l.onConnected (room.connection name)).logic
        (sent ++ (l.onConnected (room.connection name)).sent)
      have hdownlink : (fun user => Session.received sent (room.connection user) ++
            Session.received (l.onConnected (room.connection name)).sent (room.connection user)) =
          fun user => Session.received (sent ++ (l.onConnected (room.connection name)).sent)
            (room.connection user) :=
        funext fun user => (ServerSessions.received_append _ _ _).symm
      rw [List.foldl_cons]
      unfold Session.join Session.withServer
      dsimp only
      rw [hdownlink]
      exact hnext
  exact hjoin room.members {} []

/-- A websocket client after its handshake, to which nothing was passed yet. -/
structure Ready (c : WebsocketClient Json) : Prop where
  stream : c.mWebsocketStream.isSome = true
  connected : c.mConnected = true
  queue : c.mWriteQueue = []
  fresh : handedOver c = []
  pending : ∀ op ∈ c.pending, isSetup op = false ∧ isClose op = false ∧ isWrite op = false ∧
    ClientOutbox.postedText op = none

/-- The members of the room have joined over their sockets, one after the other, and nobody else. -/
structure Established (room : Room) (server : WebsocketServer)
    (socket : String → WebsocketClient Json) : Prop where
  reached : ∃ events, Runs.AllSteps WebsocketServer.perform ServerSessions.Admitted {} events ∧
    server = Runs.final WebsocketServer.perform {} events
  alive : server.crash = none
  calls : server.calls = room.members.map fun user => (room.connection user, .onConnected)
  sockets : ∀ user ∈ room.members, Ready (socket user)

namespace Ready

variable {c : WebsocketClient Json}

lemma posts (h : Ready c) : ClientOutbox.posts c = [] := by
  rw [ClientOutbox.posts, List.filterMap_eq_nil_iff]
  exact fun op hop => (h.pending op hop).2.2.2

lemma outbox (h : Ready c) : ClientOutbox.Outbox c [] := by
  have hidle : outstanding c = 0 := by
    rw [outstanding, List.countP_eq_zero]
    intro op hop
    simp [(h.pending op hop).2.2.1]
  refine ⟨h.stream, fun op hop => ⟨(h.pending op hop).1, (h.pending op hop).2.1⟩, [],
    ⟨h.connected, ?_, ?_⟩, ?_⟩
  · rw [if_pos h.queue]
    exact hidle
  · rw [h.fresh, h.queue]
    rfl
  · rw [h.posts]
    rfl

end Ready

lemma live_connected (room : Room) (names : List String) (p : Population) :
    (Runs.final Population.perform p
      (names.map fun user => ServerCall.connected (room.connection user))).live =
        p.live ++ names.map room.connection := by
  induction names generalizing p with
  | nil => exact (List.append_nil _).symm
  | cons name names ih =>
    rw [List.map_cons, Runs.final_cons, ih]
    exact List.append_assoc p.live [room.connection name] _

namespace Established

variable {server : WebsocketServer} {socket : String → WebsocketClient Json}

lemma carried (h : Established room server socket) (client : String → RenderStudioFileFormat) :
    Carried room { server := server, client := client, socket := socket } := by
  obtain ⟨events, hadmitted, rfl⟩ := h.reached
  have hkeep : ∀ (s : WebsocketServer) event, Serving s → ServerSessions.Admitted s event →
      Serving (s.perform event) :=
    fun s event h hok => h.perform event hok
  have hserving := (Runs.allStates_of_invariant hkeep serving_init hadmitted).last
  refine ⟨hserving, h.alive, fun user hmember => ?_, fun user hmember => (h.sockets user hmember).outbox,
    fun _ => Nat.le_refl 0, fun _ => Nat.zero_le _⟩
  have hlive := live_connected room room.members {}
  have hcalls : ((Runs.final WebsocketServer.perform {} events).calls.map serverCall) =
      room.members.map fun user => ServerCall.connected (room.connection user) := by
    rw [h.calls, List.map_map]
    rfl
  change room.connection user ∈ (population _).live
  rw [population, hcalls, hlive]
  exact List.mem_append_right _ (List.mem_map_of_mem hmember)

lemma view_start (h : Established room server socket) (client : String → RenderStudioFileFormat) :
    view room { server := server, client := client, socket := socket } = Session.start room client := by
  obtain ⟨events, -, rfl⟩ := h.reached
  have hinit : ByCalls {} := rfl
  have hcalls : ByCalls (Runs.final WebsocketServer.perform {} events) :=
    Runs.final_of_invariant ByCalls (fun _ event h => byCalls_perform h event) hinit events
  rw [ByCalls, h.calls] at hcalls
  have hstart := start_eq room client
  dsimp only at hstart
  rw [hstart, ← hcalls]
  rfl

end Established

/-- What a member does, for the session. -/
def ownAction : NetworkAction → Option SessionAction
  | .set user layer path field value => some (.set user layer path field value)
  | .update user files => some (.update user files)
  | .reload user layer file => some (.reload user layer file)
  | _ => none

/-- The actions of the members, without those of the links. -/
def ownPart : SessionAction → Option SessionAction
  | .serve _ => none
  | .deliver _ => none
  | action => some action

/-- Nothing is on its way between a member and the server. -/
def Still (room : Room) (n : NetworkedSession) (user : String) : Prop :=
  ClientOutbox.posts (n.socket user) = [] ∧ outstanding (n.socket user) = 0 ∧
    n.up user = (n.socket user).writes.length ∧
    ∃ session, n.server.sessions[(room.connection user).id]? = some (room.connection user, session) ∧
      SessionProtocol.posts session = [] ∧
      SessionProtocol.outstanding SessionProtocol.isWrite session = 0 ∧
      n.down user = session.writes.length

lemma Carried.still (h : Carried room n) (hmember : user ∈ room.members) (hstill : Still room n user) :
    (view room n).uplink user = [] ∧ (view room n).downlink user = [] := by
  obtain ⟨hposts, hwrites, hup, session, hsession, hsessionPosts, hsessionWrites, hdown⟩ := hstill
  obtain ⟨session', hsession', hconnected, hbox⟩ := h.session hmember
  rw [hsession'] at hsession
  obtain ⟨-, rfl⟩ := Prod.mk.inj (Option.some.inj hsession)
  constructor
  · change (n.passed user).drop (n.up user) = []
    rw [hup, client_writes, (h.outbox user hmember).all hwrites hposts]
    exact List.drop_length
  · change (Session.received n.server.sent (room.connection user)).drop (n.down user) = []
    rw [hdown, session_writes, hbox.all hconnected hsessionWrites hsessionPosts]
    exact List.drop_length

/-- The members of a room have joined over their sockets. As long as nothing fails, nobody else comes
and no write of a client overtakes another one, whatever the order in which the operations of the
sockets complete: the run over the sockets is a run of the session, in which the members do what they
did, in the same order, and the links hold what is on its way. -/
theorem sockets_refine_session (room : Room) (client : String → RenderStudioFileFormat)
    {server : WebsocketServer} {socket : String → WebsocketClient Json}
    (h : Established room server socket) (run : List NetworkAction)
    (hrun : Runs.AllSteps (NetworkedSession.perform room) Smooth
      { server := server, client := client, socket := socket } run) :
    let start : NetworkedSession := { server := server, client := client, socket := socket }
    let actions := Runs.trace (NetworkedSession.perform room) (sessionActions room) start run
    view room (Runs.final (NetworkedSession.perform room) start run) =
        Runs.final (Session.perform room) (Session.start room client) actions ∧
      actions.filterMap ownPart = run.filterMap ownAction ∧
      Runs.AllStates (NetworkedSession.perform room) (fun n => ∀ user ∈ room.members,
        Still room n user → (view room n).uplink user = [] ∧ (view room n).downlink user = [])
        start run := by
  intro start actions
  have hkeep : ∀ n action, Carried room n → Smooth n action → Carried room (n.perform room action) :=
    fun n action h hok => (h.perform action hok).1
  refine ⟨?_, ?_, ?_⟩
  · rw [← h.view_start client]
    exact Runs.final_simulates hkeep (fun n action h hok => (h.perform action hok).2)
      (h.carried client) hrun
  · refine Runs.filterMap_trace (fun n action => ?_) start run
    cases action with
    | set | update | reload | socket | server => rfl
    | receive user i =>
      unfold sessionActions
      dsimp only
      split_ifs <;> rfl
    | hear user i =>
      unfold sessionActions
      dsimp only
      split_ifs <;> rfl
  · refine (Runs.allStates_of_invariant hkeep (h.carried client) hrun).mono ?_
    intro n hn user hmember hstill
    exact hn.still hmember hstill

end Networked

end

section

attribute [local instance] Usd.sample

namespace Networked

/-- The server after both users have joined. -/
def joinedServer : WebsocketServer := Runs.final WebsocketServer.perform {}
  [.accept false, .accept false, .read (.request true "/room/?user=A" none),
    .read (.request true "/room/?user=B" none), .session 0 0 false .null, .session 1 0 false .null]

/-- A websocket client after its handshake. -/
def joinedSocket : WebsocketClient Json := Runs.final ClientEvent.perform
  (({} : WebsocketClient Json).connect {}) [.complete 0 {}, .complete 0 {}, .complete 0 {}]

lemma established_twoUsers : Established twoUsers joinedServer (fun _ => joinedSocket) := by
  have hfirst : ∀ (s : WebsocketServer) (id : Nat) ec text,
      ServerSessions.Admitted s (.session id 0 ec text) := fun _ _ _ _ _ _ _ _ => rfl
  refine ⟨⟨_, ?_, rfl⟩, rfl, rfl, fun user _ => ⟨rfl, rfl, rfl, rfl, ?_⟩⟩
  · exact ⟨trivial, trivial, trivial, trivial, hfirst _ _ _ _, hfirst _ _ _ _, trivial⟩
  · intro op hop
    have hpending : joinedSocket.pending = [.wait, .read] := rfl
    rw [hpending] at hop
    simp only [List.mem_cons, List.not_mem_nil, or_false] at hop
    rcases hop with rfl | rfl
    · exact ⟨rfl, rfl, rfl, rfl⟩
    · exact ⟨rfl, rfl, rfl, rfl⟩

/-- An edit of one user reaches the server while the other user is still handed the history. -/
theorem sockets_refine_session_edit :
    let start : NetworkedSession :=
      { server := joinedServer, client := editor, socket := fun _ => joinedSocket }
    let run : List NetworkAction :=
      [.set "A" "L" "/a" "kind" (.string "x"), .update "A" noFiles, .socket "A" 2 {}, .hear "A" 0,
        .server (.session 1 1 false .null), .receive "B" 1]
    let n := Runs.final (NetworkedSession.perform twoUsers) start run
    view twoUsers n = Runs.final (Session.perform twoUsers) (Session.start twoUsers editor)
        (Runs.trace (NetworkedSession.perform twoUsers) (sessionActions twoUsers) start run) ∧
      n.up "A" = 1 ∧ n.down "B" = 1 := by
  intro start run n
  have hsmooth : Runs.AllSteps (NetworkedSession.perform twoUsers) Smooth start run := by
    refine ⟨trivial, trivial, ⟨rfl, rfl, fun _ _ => rfl, fun _ => rfl⟩, ?_, ⟨?_, ⟨rfl, ?_⟩, rfl⟩,
      trivial, trivial⟩
    · intro text htext
      obtain rfl := Option.some.inj htext
      rfl
    · intro entry hentry
      obtain rfl := Option.some.inj hentry
      exact fun _ _ => rfl
    · intro c session hentry op hop
      obtain ⟨rfl, rfl⟩ := Prod.mk.inj (Option.some.inj hentry)
      obtain rfl := Option.some.inj hop
      exact .inl rfl
  exact ⟨(sockets_refine_session twoUsers editor established_twoUsers run hsmooth).1, by decide,
    by decide⟩

end Networked

end

end RenderStudioKit.Proofs
