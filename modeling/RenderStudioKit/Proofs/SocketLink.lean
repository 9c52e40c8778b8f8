import RenderStudioKit.Proofs.ClientFutures
import RenderStudioKit.Proofs.SessionProtocol

/-!
# From the server to the listener of a client

A text goes from `Send` of a session over the strand, the queue of the session and the connection to
the pending read of a client, which hands it to the listener. The connection delivers a beginning of
what was handed to `async_write`, in order, and a strand runs what is posted to it in order.
-/

namespace RenderStudioKit.Proofs

variable {Message : Type}

namespace SessionProtocol

open WebsocketSession

def postedText : SessionOperation Message → Option Message
  | .post message => some message
  | _ => none

/-- The texts that wait on the strand. -/
def posts (c : WebsocketSession Message) : List Message := c.pending.filterMap postedText

/-- The `Write` at a position was posted before all others that wait. -/
def InTurn (c : WebsocketSession Message) (i : Nat) : Prop :=
  ∀ message, c.pending[i]? = some (.post message) → (c.pending.take i).filterMap postedText = []

/-- The session has handed over, keeps in its queue or has posted what was sent, in this order. -/
def Outbox (c : WebsocketSession Message) (sent : List Message) : Prop :=
  ∃ texts, Stage c texts ∧ texts ++ posts c = sent

section

variable {c : WebsocketSession Message} {sent : List Message} {i : Nat}

lemma posts_start (op : SessionOperation Message) :
    posts (c.start op) = posts c ++ (postedText op).toList := by
  cases op <;> simp [posts, start, postedText]

/-- The session `c` becomes `c'` and starts operations then, but posts nothing. -/
def StartsNoPost (c c' : WebsocketSession Message) : Prop :=
  ∃ new, c'.pending = c.pending ++ new ∧ c'.started = c.started ++ new ∧
    new.filterMap postedText = []

lemma startsNoPost_same {c' : WebsocketSession Message} (hpending : c'.pending = c.pending)
    (hstarted : c'.started = c.started) : StartsNoPost c c' :=
  ⟨[], by rw [hpending, List.append_nil], by rw [hstarted, List.append_nil], rfl⟩

lemma startsNoPost_start {middle : WebsocketSession Message} (hpending : middle.pending = c.pending)
    (hstarted : middle.started = c.started) {op : SessionOperation Message}
    (hop : postedText op = none) : StartsNoPost c (middle.start op) :=
  ⟨[op], congrArg (· ++ [op]) hpending, congrArg (· ++ [op]) hstarted, by simp [hop]⟩

lemma startsNoPost_read {middle : WebsocketSession Message} (hpending : middle.pending = c.pending)
    (hstarted : middle.started = c.started) : StartsNoPost c middle.read := by
  unfold WebsocketSession.read
  split_ifs
  · exact startsNoPost_same hpending hstarted
  · exact startsNoPost_start hpending hstarted rfl

/-- What a handler starts. -/
lemma startsNoPost_handle (c : WebsocketSession Message) (ec : Bool) (received : Message)
    (op : SessionOperation Message) : StartsNoPost c (c.handle ec received op) := by
  cases op with
  | accept =>
    change StartsNoPost c (c.onAccept ec)
    unfold onAccept
    split_ifs
    · exact startsNoPost_same rfl rfl
    · exact startsNoPost_read rfl rfl
  | post message =>
    change StartsNoPost c (c.write message)
    by_cases hqueue : c.mWriteQueue = []
    · rw [write_first c message hqueue]
      exact startsNoPost_start rfl rfl rfl
    · rw [write_backlog c message hqueue]
      exact startsNoPost_same rfl rfl
  | read =>
    change StartsNoPost c (c.onRead ec received)
    unfold onRead
    split_ifs
    · exact startsNoPost_same rfl rfl
    · exact startsNoPost_same rfl rfl
    · exact startsNoPost_read rfl rfl
  | write message =>
    change StartsNoPost c (c.onWrite ec)
    unfold onWrite
    dsimp only
    split_ifs
    · exact startsNoPost_same rfl rfl
    · exact startsNoPost_same rfl rfl
    · split
      · exact startsNoPost_same rfl rfl
      · exact startsNoPost_start rfl rfl rfl

lemma startsNoPost_complete (c : WebsocketSession Message) (i : Nat) (ec : Bool)
    (received : Message) : StartsNoPost (taken c i) (c.complete i ec received) := by
  unfold WebsocketSession.complete
  cases hop : c.pending[i]? with
  | none =>
    have hlength := List.getElem?_eq_none_iff.1 hop
    exact startsNoPost_same (List.eraseIdx_of_length_le hlength).symm rfl
  | some op => exact startsNoPost_handle _ ec received op

lemma posts_complete (c : WebsocketSession Message) (i : Nat) (ec : Bool) (received : Message) :
    posts (c.complete i ec received) = posts (taken c i) := by
  obtain ⟨new, hpending, -, hnew⟩ := startsNoPost_complete c i ec received
  rw [posts, posts, hpending, List.filterMap_append, hnew, List.append_nil]

lemma handedOver_complete (c : WebsocketSession Message) (i : Nat) (ec : Bool) (received : Message) :
    handedOver c <+: handedOver (c.complete i ec received) := by
  obtain ⟨new, -, hstarted, -⟩ := startsNoPost_complete c i ec received
  rw [handedOver, handedOver, hstarted, List.filterMap_append]
  exact List.prefix_append _ _

lemma passed_posts (hturn : InTurn c i) : passed c i ++ posts (taken c i) = posts c := by
  cases hop : c.pending[i]? with
  | none =>
    have hlength := List.getElem?_eq_none_iff.1 hop
    simp [passed, hop, posts, taken, List.eraseIdx_of_length_le hlength]
  | some op =>
    obtain ⟨hlt, hget⟩ := List.getElem?_eq_some_iff.1 hop
    have hsplit : c.pending = c.pending.take i ++ op :: c.pending.drop (i + 1) := by
      rw [← hget, List.getElem_cons_drop, List.take_append_drop]
    have htaken : posts (taken c i) =
        (c.pending.take i).filterMap postedText ++ (c.pending.drop (i + 1)).filterMap postedText := by
      rw [posts, taken, List.eraseIdx_eq_take_drop_succ, List.filterMap_append]
    have hposts : posts c = (c.pending.take i).filterMap postedText ++
        ((postedText op).toList ++ (c.pending.drop (i + 1)).filterMap postedText) := by
      rw [posts]
      conv_lhs => rw [hsplit]
      rw [List.filterMap_append, List.filterMap_cons]
      cases op <;> rfl
    rw [htaken, hposts]
    cases op with
    | post message =>
      rw [hturn message hop]
      simp [passed, hop, postedText]
    | accept | read | write => simp [passed, hop, postedText]

namespace Outbox

lemma init : Outbox (({} : WebsocketSession Message).onRun) [] :=
  ⟨[], .waiting rfl rfl rfl rfl rfl rfl rfl (Nat.le_refl 1), rfl⟩

lemma send (h : Outbox c sent) (hcalled : c.calls ≠ []) (message : Message) :
    Outbox (c.send message) (sent ++ [message]) := by
  obtain ⟨texts, hstage, rfl⟩ := h
  refine ⟨texts, hstage.alike (alike_post c message) hcalled, ?_⟩
  rw [WebsocketSession.send, posts_start, List.append_assoc]
  rfl

lemma complete (h : Outbox c sent) (hturn : InTurn c i) (ec : Bool) (received : Message) :
    Outbox (c.complete i ec received) sent := by
  obtain ⟨texts, hstage, rfl⟩ := h
  refine ⟨texts ++ passed c i, hstage.complete i ec received, ?_⟩
  rw [posts_complete, List.append_assoc, passed_posts hturn]

lemma inOrder (h : Outbox c sent) : handedOver c <+: sent := by
  obtain ⟨texts, hstage, rfl⟩ := h
  exact hstage.byProtocol.inOrder.trans (List.prefix_append texts (posts c))

lemma all (h : Outbox c sent) (hconnected : c.mConnected = true)
    (hwrites : outstanding isWrite c = 0) (hposts : posts c = []) : handedOver c = sent := by
  obtain ⟨texts, hstage, rfl⟩ := h
  rw [hposts, List.append_nil]
  cases hstage with
  | waiting _ hdisconnected _ _ _ _ _ _ => simp [hconnected] at hdisconnected
  | closed _ _ hdisconnected _ _ _ _ => simp [hconnected] at hdisconnected
  | connected _ _ _ hinOrder _ hqueue _ =>
    have hempty : c.mWriteQueue = [] := by
      by_contra hne
      rw [if_neg hne] at hqueue
      omega
    rwa [hempty, List.tail_nil, List.append_nil] at hinOrder

end Outbox

end

end SessionProtocol

open WebsocketClient

def messageOf : ClientCallback Message → Option Message
  | .onMessage message => some message
  | _ => none

/-- The texts the listener was handed. -/
def received (c : WebsocketClient Message) : List Message := c.callbacks.filterMap messageOf

def reads (c : WebsocketClient Message) : Nat := c.pending.countP isRead

/-- Nothing is received, no read is started, and a client without a connection stays without. -/
structure Silent (c c' : WebsocketClient Message) : Prop where
  received : received c' = received c
  reads : reads c' = reads c
  connected : c'.mConnected = true → c.mConnected = true

section

variable {c c' c'' : WebsocketClient Message}

lemma Silent.trans (h : Silent c c') (h' : Silent c' c'') : Silent c c'' :=
  ⟨h'.received.trans h.received, h'.reads.trans h.reads, fun hc => h.connected (h'.connected hc)⟩

lemma silent_of_eq (hcallbacks : c'.callbacks = c.callbacks) (hpending : c'.pending = c.pending)
    (hconnected : c'.mConnected = true → c.mConnected = true) : Silent c c' :=
  ⟨by rw [Proofs.received, Proofs.received, hcallbacks], by rw [Proofs.reads, Proofs.reads, hpending],
    hconnected⟩

lemma silent_refl : Silent c c := ⟨rfl, rfl, id⟩

lemma silent_call {callback : ClientCallback Message} (hcallback : messageOf callback = none) :
    Silent c (c.call callback) :=
  ⟨by simp [Proofs.received, WebsocketClient.call, hcallback], rfl, id⟩

lemma silent_setValue (promise : Nat) (value : Bool) : Silent c (c.setValue promise value) := by
  unfold setValue
  split <;> exact silent_of_eq rfl rfl id

lemma silent_start {op : Operation Message} (hop : isRead op = false) : Silent c (c.start op) :=
  ⟨rfl, by simp [Proofs.reads, WebsocketClient.start, hop], id⟩

lemma silent_disconnect : Silent c c.disconnect := by
  have hpromise : Silent c { c with promises := c.promises ++ [none] } := silent_of_eq rfl rfl id
  unfold WebsocketClient.disconnect
  dsimp only
  split_ifs
  · have hclose : isRead (.close c.promises.length : Operation Message) = false := rfl
    refine (hpromise.trans (silent_start hclose)).trans ?_
    exact silent_of_eq rfl rfl (fun h => absurd h Bool.false_ne_true)
  · have htold : ∀ c : WebsocketClient Message, Silent c (c.call .onDisconnected) := fun _ =>
      silent_call rfl
    refine ((hpromise.trans (htold _)).trans (silent_setValue c.promises.length true)).trans ?_
    exact silent_of_eq rfl rfl (fun h => absurd h Bool.false_ne_true)

lemma silent_writeBack : Silent c c.writeBack := by
  unfold writeBack
  split
  · exact silent_refl
  · exact silent_start rfl

lemma silent_send (message : Message) : Silent c (c.send message) := by
  unfold send
  split
  · exact silent_of_eq rfl rfl id
  · exact silent_start rfl

/-- The handlers that neither read nor end the handshake. -/
lemma silent_handle (completion : Completion Message) {op : Operation Message}
    (hread : isRead op = false)
    (hhandshake : ∀ host target promise, op = .handshake host target promise →
      completion.ec = true) : Silent c (c.handle completion op) := by
  have hsetup : ∀ (next : Operation Message) (promise : Nat), isRead next = false →
      Silent c (if completion.ec then (c.setValue promise false).disconnect else c.start next) := by
    intro next promise hnext
    split_ifs
    · exact (silent_setValue promise false).trans silent_disconnect
    · exact silent_start hnext
  have hguarded : ∀ next : Operation Message, isRead next = false →
      Silent c (if !c.mConnected then c else if completion.ec then c.disconnect
        else c.start next) := by
    intro next hnext
    split_ifs
    · exact silent_refl
    · exact silent_disconnect
    · exact silent_start hnext
  cases op with
  | read => cases hread
  | post message =>
    have hqueued : Silent c { c with mWriteQueue := c.mWriteQueue ++ [message] } :=
      silent_of_eq rfl rfl id
    simp only [handle, WebsocketClient.write]
    split_ifs
    · exact hqueued
    · exact hqueued
    · exact hqueued.trans silent_writeBack
  | write message =>
    have hpopped : Silent c { c with mWriteQueue := c.mWriteQueue.tail } := silent_of_eq rfl rfl id
    simp only [handle, onWrite]
    split_ifs
    · exact silent_disconnect
    · exact hpopped.trans silent_writeBack
    · exact hpopped
  | resolve host port promise => exact hsetup (.connect promise) promise rfl
  | sslHandshake promise => exact hsetup (.handshake _ _ promise) promise rfl
  | connect promise =>
    have hhost : ∀ sslHost, Silent c { c with mSslHost := sslHost } := fun _ =>
      silent_of_eq rfl rfl id
    simp only [handle, onConnect]
    split_ifs
    · exact (silent_setValue promise false).trans silent_disconnect
    all_goals
      split
      · exact silent_of_eq rfl rfl id
      · first
          | exact silent_of_eq rfl rfl id
          | exact (hhost _).trans (silent_start rfl)
      · exact (hhost _).trans (silent_start rfl)
  | handshake host target promise =>
    have hec := hhandshake host target promise rfl
    simp only [handle, onHandshake, hec, if_true]
    exact (silent_setValue promise false).trans silent_disconnect
  | wait => exact hguarded .ping rfl
  | ping => exact hguarded .wait rfl
  | close promise =>
    simp only [handle, onClose]
    split_ifs
    · exact (silent_call rfl).trans (silent_setValue promise true)
    · exact ((silent_call rfl).trans (silent_setValue promise false)).trans silent_disconnect
    · exact silent_call rfl

lemma setups_disconnect (c : WebsocketClient Message) : setups c.disconnect = setups c :=
  (samePump_disconnect c).setup

lemma setups_writeBack (c : WebsocketClient Message) : setups c.writeBack = setups c := by
  unfold writeBack
  split
  · rfl
  · exact setups_start c _

lemma setups_handle {completion : Completion Message} {op : Operation Message}
    (hsetup : isSetup op = false) : setups (c.handle completion op) = setups c := by
  have hguarded : ∀ (next : Operation Message) (middle : WebsocketClient Message),
      isSetup next = false → setups middle = setups c →
      setups (if !c.mConnected then c else if completion.ec then c.disconnect
        else middle.start next) = setups c := by
    intro next middle hnext hmiddle
    split_ifs
    · rfl
    · exact setups_disconnect c
    · rw [setups_start, hnext, hmiddle]
      rfl
  cases op with
  | resolve | connect | sslHandshake | handshake => cases hsetup
  | post message =>
    simp only [handle, WebsocketClient.write]
    split_ifs
    · rfl
    · rfl
    · exact setups_writeBack _
  | write message =>
    simp only [handle, onWrite]
    split_ifs
    · exact setups_disconnect c
    · exact setups_writeBack _
    · rfl
  | read =>
    refine hguarded .read _ rfl ?_
    cases completion.received <;> rfl
  | wait => exact hguarded .ping c rfl rfl
  | ping => exact hguarded .wait c rfl rfl
  | close promise =>
    simp only [handle, onClose]
    split_ifs
    · exact (samePump_setValue _ promise true).setup
    · exact (setups_disconnect _).trans (samePump_setValue _ promise false).setup
    · rfl

end

/-- A session of the server and the client at the other end. `sent` are the texts passed to `Send`
of the session, and `delivered` counts those that the client has read. -/
structure SocketLink (Message : Type) where
  session : WebsocketSession Message := ({} : WebsocketSession Message).onRun
  client : WebsocketClient Message
  sent : List Message := []
  delivered : Nat := 0

/-- `deliver` completes a pending read of the client with the next text of the connection. -/
inductive LinkEvent (Message : Type) where
  | send (message : Message)
  | session (i : Nat) (ec : Bool) (received : Message)
  | client (event : ClientEvent Message)
  | deliver (i : Nat)

namespace SocketLink

/-- The next text of the connection completes the read at position `i`, if there are both. -/
def deliver (d : SocketLink Message) (i : Nat) : SocketLink Message :=
  match d.client.pending[i]?, (SessionProtocol.handedOver d.session)[d.delivered]? with
  | some .read, some text => { d with
      client := d.client.complete i { received := some text }
      delivered := d.delivered + 1 }
  | _, _ => d

def perform (d : SocketLink Message) : LinkEvent Message → SocketLink Message
  | .send message => { d with session := d.session.send message, sent := d.sent ++ [message] }
  | .session i ec received => { d with session := d.session.complete i ec received }
  | .client event => { d with client := event.perform d.client }
  | .deliver i => d.deliver i

/-- `Logic` sends to a session it was told about, the strand keeps its order, and a read brings no
text but that of a delivery. -/
def Admitted (d : SocketLink Message) : LinkEvent Message → Prop
  | .send _ => .onConnected ∈ d.session.calls
  | .session i _ _ => SessionProtocol.InTurn d.session i
  | .client (.complete i completion) =>
    d.client.pending[i]?.any isRead = true → completion.ec = false → completion.received = none
  | .client _ => True
  | .deliver _ => True

/-- What the listener was handed was sent, in this order; and if nothing is on its way between a
session and a client that are connected, it was handed all that was sent. -/
def DeliversInOrder (d : SocketLink Message) : Prop :=
  received d.client <+: d.sent ∧
    (d.session.mConnected = true → d.client.mConnected = true →
      SessionProtocol.posts d.session = [] →
      SessionProtocol.outstanding SessionProtocol.isWrite d.session = 0 →
      d.delivered = (SessionProtocol.handedOver d.session).length → received d.client = d.sent)

/-- The client has received what it was delivered, or the beginning it got before it let go of the
connection. -/
structure Linked (d : SocketLink Message) : Prop where
  outbox : SessionProtocol.Outbox d.session d.sent
  phase : (link d.client).Phase
  reading : setups d.client = 0 ∨ reads d.client = 0
  bound : d.delivered ≤ (SessionProtocol.handedOver d.session).length
  received : received d.client = (SessionProtocol.handedOver d.session).take d.delivered ∨
    d.client.mConnected = false ∧ setups d.client = 0 ∧
      received d.client <+: SessionProtocol.handedOver d.session

namespace Linked

variable {d : SocketLink Message}

lemma deliversInOrder (h : Linked d) : DeliversInOrder d := by
  constructor
  · rcases h.received with hall | ⟨-, -, hsome⟩
    · rw [hall]
      exact (List.take_prefix _ _).trans h.outbox.inOrder
    · exact hsome.trans h.outbox.inOrder
  · intro hsession hclient hposts hwrites hdelivered
    rcases h.received with hall | ⟨hdisconnected, -, -⟩
    · rw [hall, hdelivered, List.take_length, h.outbox.all hsession hwrites hposts]
    · exact absurd hclient (by simp [hdisconnected])

lemma session (h : Linked d) {session : WebsocketSession Message} {sent : List Message}
    (houtbox : SessionProtocol.Outbox session sent)
    (hkept : SessionProtocol.handedOver d.session <+: SessionProtocol.handedOver session) :
    Linked { d with session := session, sent := sent } := by
  refine ⟨houtbox, h.phase, h.reading, Nat.le_trans h.bound hkept.length_le, ?_⟩
  rcases h.received with hall | ⟨hdisconnected, hsetup, hsome⟩
  · left
    obtain ⟨new, hnew⟩ := hkept
    rw [← hnew, List.take_append_of_le_length h.bound]
    exact hall
  · exact .inr ⟨hdisconnected, hsetup, hsome.trans hkept⟩

lemma client (h : Linked d) {client : WebsocketClient Message} (hphase : (link client).Phase)
    (hreading : setups client = 0 ∨ reads client = 0)
    (hreceived : Proofs.received client = Proofs.received d.client)
    (hconnected : d.client.mConnected = false → setups d.client = 0 →
      client.mConnected = false ∧ setups client = 0) : Linked { d with client := client } := by
  refine ⟨h.outbox, hphase, hreading, h.bound, ?_⟩
  dsimp only
  rw [hreceived]
  rcases h.received with hall | ⟨hdisconnected, hsetup, hsome⟩
  · exact .inl hall
  · obtain ⟨hstill, hzero⟩ := hconnected hdisconnected hsetup
    exact .inr ⟨hstill, hzero, hsome⟩

lemma silent (h : Linked d) {client : WebsocketClient Message} (hphase : (link client).Phase)
    (hsilent : Silent d.client client) (hsetups : setups client = setups d.client) :
    Linked { d with client := client } := by
  apply h.client hphase
  · rw [hsetups, hsilent.reads]
    exact h.reading
  · exact hsilent.received
  · intro hdisconnected hzero
    refine ⟨?_, hsetups.trans hzero⟩
    by_contra hconnected
    simp [hsilent.connected (by simpa using hconnected)] at hdisconnected

/-- A read that ends, with a text or without. -/
lemma read (h : Linked d) {i : Nat} (hop : d.client.pending[i]? = some .read)
    (completion : Completion Message) :
    setups (d.client.complete i completion) = 0 ∧
      Proofs.received (d.client.complete i completion) = Proofs.received d.client ++
        (if d.client.mConnected = true ∧ completion.ec = false then completion.received.toList
          else []) ∧
      (d.client.mConnected = false → (d.client.complete i completion).mConnected = false) := by
  have hpositive : 0 < reads d.client := by
    have hcount := countP_eraseIdx isRead hop
    simp only [isRead, if_true] at hcount
    rw [reads]
    omega
  have hsetup : setups d.client = 0 := h.reading.resolve_right (by omega)
  have hhandling : setups (handling d.client i) = setups d.client :=
    countP_eraseIdx isSetup hop
  rw [complete_eq hop]
  refine ⟨?_, ?_, ?_⟩
  · rw [setups_handle rfl, hhandling, hsetup]
  · change Proofs.received ((handling d.client i).onRead completion.ec completion.received) = _
    have hsame : (handling d.client i).mConnected = d.client.mConnected := rfl
    cases hconnected : d.client.mConnected with
    | false => simp [onRead, hconnected, Proofs.received, handling]
    | true =>
      cases hec : completion.ec with
      | true =>
        have hdisconnect := (silent_disconnect (c := handling d.client i)).received
        simpa [onRead, hsame, hconnected, Proofs.received, handling] using hdisconnect
      | false =>
        cases completion.received <;>
          simp [onRead, hconnected, Proofs.received, handling, WebsocketClient.start,
            WebsocketClient.call, messageOf]
  · intro hdisconnected
    change ((handling d.client i).onRead completion.ec completion.received).mConnected = false
    simp [onRead, handling, hdisconnected]

/-- A completion of the client that brings no text. -/
lemma complete (h : Linked d) (i : Nat) (completion : Completion Message)
    (hadmitted : Admitted d (.client (.complete i completion))) :
    Linked { d with client := d.client.complete i completion } := by
  have hphase := phase_complete h.phase i completion
  cases hop : d.client.pending[i]? with
  | none =>
    rw [complete_nothing hop]
    exact h
  | some op =>
    by_cases hread : isRead op = true
    · have hkind : op = .read := by cases op <;> first | rfl | cases hread
      subst hkind
      obtain ⟨hzero, hreceived, hconnected⟩ := h.read hop completion
      refine h.client hphase (.inl hzero) ?_ fun hdisconnected _ => ⟨hconnected hdisconnected, hzero⟩
      rw [hreceived]
      split_ifs with hgood
      · rw [hadmitted (by rw [hop]; rfl) hgood.2]
        exact List.append_nil _
      · exact List.append_nil _
    · have hreads : reads (handling d.client i) = reads d.client := by
        have hcount := countP_eraseIdx isRead hop
        rw [if_neg hread] at hcount
        exact hcount
      rw [complete_eq hop] at hphase ⊢
      have hhandling : Silent d.client (handling d.client i) := ⟨rfl, hreads, id⟩
      by_cases hsetup : isSetup op = true
      · -- the phase tells that no read is pending, and none is started before the handshake ends
        obtain ⟨hzero, hdisconnected, -, -⟩ := connecting_of_setup h.phase hop hsetup
        have hpositive : setups d.client ≠ 0 := by
          have hcount := countP_eraseIdx isSetup hop
          rw [hsetup, if_pos rfl] at hcount
          rw [setups]
          omega
        have hnone : reads d.client = 0 := h.reading.resolve_left hpositive
        by_cases hhandshake : ∃ host target promise, op = .handshake host target promise ∧
            completion.ec = false
        · obtain ⟨host, target, promise, rfl, hec⟩ := hhandshake
          have heffect := effect_onHandshake (handling d.client i) promise
          have hopened : (handling d.client i).handle completion (.handshake host target promise) =
              (handling d.client i).onHandshake promise false := by simp [handle, hec]
          have hstill : setups ((handling d.client i).onHandshake promise false) = 0 :=
            (congrArg Link.setups heffect.2).trans hzero
          rw [hopened] at hphase ⊢
          refine h.client hphase (.inl hstill) ?_ fun _ hno => absurd hno hpositive
          have hvalue := (silent_setValue (c := ({ handling d.client i with mConnected := true } :
            WebsocketClient Message).call .onConnected) promise true).received
          have hconnected : ((({ handling d.client i with mConnected := true } :
              WebsocketClient Message).call .onConnected).setValue promise true).mConnected = true :=
            mConnected_setValue _ promise true
          have hcalled : Proofs.received (({ handling d.client i with mConnected := true } :
              WebsocketClient Message).call .onConnected) = Proofs.received d.client := by
            simp [Proofs.received, WebsocketClient.call, messageOf, handling]
          rw [← hcalled, ← hvalue]
          simp only [onHandshake, onPing, onRead, hconnected, start_mConnected, Bool.not_true,
            Bool.false_eq_true, if_false]
          rfl
        · have hsilent := hhandling.trans (silent_handle completion
            (Bool.eq_false_iff.2 hread) fun host target promise hkind => by
              by_contra hec
              exact hhandshake ⟨host, target, promise, hkind, by simpa using hec⟩)
          refine h.client hphase (.inr (hsilent.reads.trans hnone)) hsilent.received ?_
          exact fun _ hno => absurd hno hpositive
      · have hplain : isSetup op = false := by simpa using hsetup
        have hsame : setups (handling d.client i) = setups d.client := by
          have hcount := countP_eraseIdx isSetup hop
          rw [if_neg hsetup] at hcount
          exact hcount
        apply h.silent hphase
        · refine hhandling.trans (silent_handle completion (Bool.eq_false_iff.2 hread) ?_)
          rintro host target promise rfl
          cases hplain
        · rw [setups_handle hplain, hsame]

lemma deliver (h : Linked d) (i : Nat) : Linked (d.deliver i) := by
  unfold SocketLink.deliver
  split
  · rename_i text hop htext
    obtain ⟨hzero, hreceived, hconnected⟩ := h.read hop { received := some text }
    have hlt := (List.getElem?_eq_some_iff.1 htext).1
    refine ⟨h.outbox, phase_complete h.phase i _, .inl hzero, hlt, ?_⟩
    have htake : (SessionProtocol.handedOver d.session).take (d.delivered + 1) =
        (SessionProtocol.handedOver d.session).take d.delivered ++ [text] := by
      rw [List.take_add_one, htext]
      rfl
    dsimp only
    rw [hreceived]
    cases hopen : d.client.mConnected with
    | true =>
      rcases h.received with hall | ⟨hdisconnected, -, -⟩
      · left
        rw [hall, htake]
        simp
      · simp [hopen] at hdisconnected
    | false =>
      right
      refine ⟨hconnected hopen, hzero, ?_⟩
      simp only [Bool.false_eq_true, false_and, if_false, List.append_nil]
      rcases h.received with hall | ⟨-, -, hsome⟩
      · rw [hall]
        exact List.take_prefix _ _
      · exact hsome
  · exact h

lemma perform (h : Linked d) (event : LinkEvent Message) (hadmitted : Admitted d event) :
    Linked (d.perform event) := by
  cases event with
  | send message =>
    have hcalled : d.session.calls ≠ [] := List.ne_nil_of_mem hadmitted
    refine h.session (h.outbox.send hcalled message) ?_
    rw [WebsocketSession.send, SessionProtocol.handedOver_start]
    exact List.prefix_append _ _
  | session i ec text =>
    exact h.session (h.outbox.complete hadmitted ec text)
      (SessionProtocol.handedOver_complete d.session i ec text)
  | client event =>
    cases event with
    | send message =>
      refine h.silent ((effect_send d.client message).2 ▸ h.phase) (silent_send message) ?_
      exact congrArg Link.setups (effect_send d.client message).2
    | disconnect =>
      exact h.silent (phase_disconnect h.phase) silent_disconnect (setups_disconnect d.client)
    | complete i completion => exact h.complete i completion hadmitted
  | deliver i => exact h.deliver i

end Linked

/-- In every run of a session of the server and a client that connects once, with operations that
succeed or fail in any order, the listener is handed a beginning of what was sent to the session, each
text once and in order; and if nothing is on its way while both are connected, it was handed all. -/
theorem downlink_delivers_in_order (endpoint : Url) (run : List (LinkEvent Message))
    (hrun : Runs.AllSteps perform Admitted
      { client := ({} : WebsocketClient Message).connect endpoint } run) :
    Runs.AllStates perform DeliversInOrder
      { client := ({} : WebsocketClient Message).connect endpoint } run := by
  have hstart : Linked { client := ({} : WebsocketClient Message).connect endpoint } := by
    refine ⟨SessionProtocol.Outbox.init, (futures_connect endpoint).1, .inr rfl, Nat.zero_le _, ?_⟩
    exact .inl rfl
  exact (Runs.allStates_of_invariant (fun _ event h hok => h.perform event hok) hstart hrun).mono
    fun _ h => h.deliversInOrder

/-- Two texts reach the client, the second one after the server was told of the write of the first,
and the client lets go of the connection before it reads a third. -/
theorem downlink_delivers_in_order_two :
    let run : List (LinkEvent String) :=
      [.client (.complete 0 {}), .client (.complete 0 {}), .session 0 false "",
        .client (.complete 0 {}), .send "a", .send "b", .session 1 false "", .session 1 false "",
        .deliver 1, .session 1 false "", .deliver 1, .client .disconnect]
    let start : SocketLink String := { client := ({} : WebsocketClient String).connect {} }
    let d := Runs.final perform start run
    Runs.AllStates perform DeliversInOrder start run ∧ received d.client = ["a", "b"] := by
  intro run start d
  refine ⟨downlink_delivers_in_order {} run ?_, by decide⟩
  have hconnected : ∀ (d : SocketLink String) message,
      d.session.calls.head? = some .onConnected → Admitted d (.send message) :=
    fun d message hhead => List.mem_of_mem_head? hhead
  have hfirst : ∀ (d : SocketLink String) (i : Nat) ec text,
      (d.session.pending.take i).filterMap SessionProtocol.postedText = [] →
        Admitted d (.session i ec text) :=
    fun d i ec text hnone message _ => hnone
  exact ⟨fun _ _ => rfl, fun _ _ => rfl, hfirst _ _ _ _ rfl, fun _ _ => rfl, hconnected _ _ rfl,
    hconnected _ _ rfl, hfirst _ _ _ _ rfl, hfirst _ _ _ _ rfl, trivial, hfirst _ _ _ _ rfl, trivial,
    trivial, trivial⟩

end SocketLink

end RenderStudioKit.Proofs
