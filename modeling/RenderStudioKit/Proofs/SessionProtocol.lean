import RenderStudioKit.Model.WebsocketSession
import RenderStudioKit.Proofs.WritePump

/-!
# The protocol of a server session

The queue of a session holds the text that is being written in front. Whichever of a read and a
write reports the end of the connection first clears `mConnected`, and every handler that runs
later finds it cleared.
-/

namespace RenderStudioKit.Proofs

variable {Message : Type}

namespace SessionProtocol

open WebsocketSession

def isAccept : SessionOperation Message → Bool
  | .accept => true
  | _ => false

def isPost : SessionOperation Message → Bool
  | .post _ => true
  | _ => false

def isRead : SessionOperation Message → Bool
  | .read => true
  | _ => false

def isWrite : SessionOperation Message → Bool
  | .write _ => true
  | _ => false

def writtenText : SessionOperation Message → Option Message
  | .write message => some message
  | _ => none

/-- The number of operations of a kind that were started and have not completed. -/
def outstanding (kind : SessionOperation Message → Bool) (c : WebsocketSession Message) : Nat :=
  c.pending.countP kind

/-- The texts handed to `async_write` so far. -/
def handedOver (c : WebsocketSession Message) : List Message := c.started.filterMap writtenText

/-- The calls of a session whose logic was connected and received the messages. -/
def connectedCalls (messages : List Message) : List (LogicCall Message) :=
  .onConnected :: messages.map .onMessage

inductive SessionEvent (Message : Type) where
  | send (message : Message)
  | complete (i : Nat) (ec : Bool) (received : Message)

/-- The text the operation at a position passes to `Write`. -/
def passed (c : WebsocketSession Message) (i : Nat) : List Message :=
  match c.pending[i]? with
  | some (.post message) => [message]
  | _ => []

/-- The session and the texts passed to `Write` so far. -/
def SessionEvent.perform (s : WebsocketSession Message × List Message) :
    SessionEvent Message → WebsocketSession Message × List Message
  | .send message => (s.1.send message, s.2)
  | .complete i ec received => (s.1.complete i ec received, s.2 ++ passed s.1 i)

/-- `Logic` sends nothing before it was told about the session. -/
def SentByLogic (s : WebsocketSession Message × List Message) : SessionEvent Message → Prop
  | .send _ => .onConnected ∈ s.1.calls
  | .complete _ _ _ => True

/-- What the session promises to the socket and to the logic. -/
structure ByProtocol (s : WebsocketSession Message × List Message) : Prop where
  oneRead : outstanding isRead s.1 ≤ 1
  oneWrite : outstanding isWrite s.1 ≤ 1
  inOrder : handedOver s.1 <+: s.2
  pumping : s.1.mConnected = true → s.1.mWriteQueue ≠ [] → outstanding isWrite s.1 = 1
  calls : s.1.calls = [] ∨ ∃ messages, s.1.calls = connectedCalls messages ∨
    s.1.calls = connectedCalls messages ++ [.onDisconnected]

/-- A session that was not accepted yet, one that is connected, and one that is not any more;
`texts` are those passed to `Write` so far. -/
inductive Stage (c : WebsocketSession Message) (texts : List Message) : Prop where
  | waiting (calls : c.calls = []) (disconnected : c.mConnected = false)
      (queue : c.mWriteQueue = []) (inOrder : handedOver c = texts)
      (posts : outstanding isPost c = 0) (reads : outstanding isRead c = 0)
      (writes : outstanding isWrite c = 0) (accepts : outstanding isAccept c ≤ 1)
  | connected (messages : List Message) (calls : c.calls = connectedCalls messages)
      (connected : c.mConnected = true)
      (inOrder : handedOver c ++ c.mWriteQueue.tail = texts)
      (reads : outstanding isRead c ≤ 1)
      (writes : outstanding isWrite c = if c.mWriteQueue = [] then 0 else 1)
      (accepts : outstanding isAccept c = 0)
  | closed (messages : List Message)
      (calls : c.calls = connectedCalls messages ++ [.onDisconnected])
      (disconnected : c.mConnected = false)
      (inOrder : handedOver c ++ c.mWriteQueue.tail = texts)
      (reads : outstanding isRead c ≤ 1)
      (writes : outstanding isWrite c ≤ if c.mWriteQueue = [] then 0 else 1)
      (accepts : outstanding isAccept c = 0)

@[simp] lemma outstanding_start (kind : SessionOperation Message → Bool)
    (c : WebsocketSession Message) (op : SessionOperation Message) :
    outstanding kind (c.start op) = outstanding kind c + if kind op then 1 else 0 := by
  simp [outstanding, start, List.countP_append, List.countP_singleton]

lemma handedOver_start (c : WebsocketSession Message) (op : SessionOperation Message) :
    handedOver (c.start op) = handedOver c ++ (writtenText op).toList := by
  cases op <;> simp [handedOver, start, writtenText]

lemma write_first (c : WebsocketSession Message) (message : Message) (h : c.mWriteQueue = []) :
    c.write message = { c with mWriteQueue := [message] }.start (.write message) := by
  simp [WebsocketSession.write, h]

lemma write_backlog (c : WebsocketSession Message) (message : Message) (h : c.mWriteQueue ≠ []) :
    c.write message = { c with mWriteQueue := c.mWriteQueue ++ [message] } := by
  have hlength : 0 < c.mWriteQueue.length := List.length_pos_iff.2 h
  simp [WebsocketSession.write, hlength]

/-- The session without the pending operation whose handler runs. -/
def taken (c : WebsocketSession Message) (i : Nat) : WebsocketSession Message :=
  { c with pending := c.pending.eraseIdx i }

section

variable {c : WebsocketSession Message} {i : Nat} {op : SessionOperation Message}

lemma outstanding_taken (kind : SessionOperation Message → Bool) (h : c.pending[i]? = some op) :
    outstanding kind (taken c i) + (if kind op then 1 else 0) = outstanding kind c :=
  countP_eraseIdx kind h

lemma outstanding_pos {kind : SessionOperation Message → Bool} (h : c.pending[i]? = some op)
    (hkind : kind op = true) : 0 < outstanding kind c := by
  have hcount := outstanding_taken kind h
  rw [hkind, if_pos rfl] at hcount
  omega

end

/-- Two sessions agree in everything but their pending `Write` handlers. -/
structure Alike (c c' : WebsocketSession Message) : Prop where
  calls : c'.calls = c.calls
  connected : c'.mConnected = c.mConnected
  queue : c'.mWriteQueue = c.mWriteQueue
  texts : handedOver c' = handedOver c
  reads : outstanding isRead c' = outstanding isRead c
  writes : outstanding isWrite c' = outstanding isWrite c
  accepts : outstanding isAccept c' = outstanding isAccept c

lemma alike_post (c : WebsocketSession Message) (message : Message) :
    Alike c (c.send message) := by
  refine ⟨rfl, rfl, rfl, ?_, ?_, ?_, ?_⟩
  · rw [WebsocketSession.send, handedOver_start]
    exact List.append_nil _
  · exact outstanding_start isRead c _
  · exact outstanding_start isWrite c _
  · exact outstanding_start isAccept c _

lemma alike_taken {c : WebsocketSession Message} {i : Nat} {message : Message}
    (h : c.pending[i]? = some (.post message)) : Alike c (taken c i) :=
  ⟨rfl, rfl, rfl, rfl, outstanding_taken isRead h, outstanding_taken isWrite h,
    outstanding_taken isAccept h⟩

namespace Stage

variable {c : WebsocketSession Message} {texts : List Message}

lemma byProtocol (h : Stage c texts) : ByProtocol (c, texts) := by
  cases h with
  | waiting hcalls hdisconnected hqueue hinOrder hposts hreads hwrites haccepts =>
    refine ⟨hreads.trans_le (Nat.zero_le 1), hwrites.trans_le (Nat.zero_le 1), ?_, ?_, .inl hcalls⟩
    · exact ⟨[], (List.append_nil _).trans hinOrder⟩
    · intro _ hne
      exact absurd hqueue hne
  | connected messages hcalls hconnected hinOrder hreads hwrites haccepts =>
    refine ⟨hreads, ?_, ⟨_, hinOrder⟩, ?_, .inr ⟨messages, .inl hcalls⟩⟩
    · dsimp only
      rw [hwrites]
      split_ifs <;> omega
    · intro _ hqueue
      exact hwrites.trans (if_neg hqueue)
  | closed messages hcalls hdisconnected hinOrder hreads hwrites haccepts =>
    refine ⟨hreads, ?_, ⟨_, hinOrder⟩, ?_, .inr ⟨messages, .inr hcalls⟩⟩
    · dsimp only
      split_ifs at hwrites <;> omega
    · intro hconnected
      exact absurd (hdisconnected.symm.trans hconnected) Bool.false_ne_true

lemma alike (h : Stage c texts) {c' : WebsocketSession Message} (hsame : Alike c c')
    (hcalled : c.calls ≠ []) : Stage c' texts := by
  cases h with
  | waiting hcalls _ _ _ _ _ _ _ => exact absurd hcalls hcalled
  | connected messages hcalls hconnected hinOrder hreads hwrites haccepts =>
    apply Stage.connected messages (hsame.calls.trans hcalls) (hsame.connected.trans hconnected)
    · rw [hsame.texts, hsame.queue]
      exact hinOrder
    · exact hsame.reads.trans_le hreads
    · rw [hsame.writes, hsame.queue]
      exact hwrites
    · exact hsame.accepts.trans haccepts
  | closed messages hcalls hdisconnected hinOrder hreads hwrites haccepts =>
    apply Stage.closed messages (hsame.calls.trans hcalls) (hsame.connected.trans hdisconnected)
    · rw [hsame.texts, hsame.queue]
      exact hinOrder
    · exact hsame.reads.trans_le hreads
    · rw [hsame.writes, hsame.queue]
      exact hwrites
    · exact hsame.accepts.trans haccepts

/-- `Write` appends to what was passed to it. -/
lemma write (h : Stage c texts) (hcalled : c.calls ≠ []) (message : Message) :
    Stage (c.write message) (texts ++ [message]) := by
  by_cases hqueue : c.mWriteQueue = []
  · rw [write_first c message hqueue]
    have hhanded : handedOver (({ c with mWriteQueue := [message] } : WebsocketSession Message).start
        (.write message)) ++ [] = handedOver c ++ [message] := by
      rw [handedOver_start, List.append_nil]
      rfl
    cases h with
    | waiting hcalls _ _ _ _ _ _ _ => exact absurd hcalls hcalled
    | connected messages hcalls hconnected hinOrder hreads hwrites haccepts =>
      rw [hqueue, List.tail_nil, List.append_nil] at hinOrder
      rw [hqueue, if_pos rfl] at hwrites
      apply Stage.connected messages
      · exact hcalls
      · exact hconnected
      · rw [← hinOrder]
        exact hhanded
      · exact (outstanding_start ..).trans_le hreads
      · exact (outstanding_start ..).trans (congrArg (· + 1) hwrites)
      · exact (outstanding_start ..).trans haccepts
    | closed messages hcalls hdisconnected hinOrder hreads hwrites haccepts =>
      rw [hqueue, List.tail_nil, List.append_nil] at hinOrder
      rw [hqueue, if_pos rfl] at hwrites
      apply Stage.closed messages
      · exact hcalls
      · exact hdisconnected
      · rw [← hinOrder]
        exact hhanded
      · exact (outstanding_start ..).trans_le hreads
      · exact (outstanding_start ..).trans_le (Nat.succ_le_succ hwrites)
      · exact (outstanding_start ..).trans haccepts
  · rw [write_backlog c message hqueue]
    have htail : (c.mWriteQueue ++ [message]).tail = c.mWriteQueue.tail ++ [message] :=
      List.tail_append_of_ne_nil hqueue
    have hne : c.mWriteQueue ++ [message] ≠ [] := List.append_ne_nil_of_right_ne_nil _ (by simp)
    cases h with
    | waiting hcalls _ _ _ _ _ _ _ => exact absurd hcalls hcalled
    | connected messages hcalls hconnected hinOrder hreads hwrites haccepts =>
      rw [if_neg hqueue] at hwrites
      apply Stage.connected messages
      · exact hcalls
      · exact hconnected
      · dsimp only
        rw [htail, ← List.append_assoc, ← hinOrder]
        rfl
      · exact hreads
      · rw [if_neg hne]
        exact hwrites
      · exact haccepts
    | closed messages hcalls hdisconnected hinOrder hreads hwrites haccepts =>
      rw [if_neg hqueue] at hwrites
      apply Stage.closed messages
      · exact hcalls
      · exact hdisconnected
      · dsimp only
        rw [htail, ← List.append_assoc, ← hinOrder]
        rfl
      · exact hreads
      · rw [if_neg hne]
        exact hwrites
      · exact haccepts

lemma lost {messages : List Message} (hcalls : c.calls = connectedCalls messages)
    (hinOrder : handedOver c ++ c.mWriteQueue.tail = texts) (hreads : outstanding isRead c ≤ 1)
    (hwrites : outstanding isWrite c ≤ if c.mWriteQueue = [] then 0 else 1)
    (haccepts : outstanding isAccept c = 0) :
    Stage ({ c with mConnected := false }.call .onDisconnected) texts := by
  apply Stage.closed messages
  · exact congrArg (· ++ [.onDisconnected]) hcalls
  · rfl
  · exact hinOrder
  · exact hreads
  · exact hwrites
  · exact haccepts

lemma onRead (h : Stage c texts) (hcalled : c.calls ≠ []) (hreads : outstanding isRead c = 0)
    (ec : Bool) (received : Message) : Stage (c.onRead ec received) texts := by
  cases h with
  | waiting hcalls _ _ _ _ _ _ _ => exact absurd hcalls hcalled
  | closed messages hcalls hdisconnected hinOrder hreads hwrites haccepts =>
    have hsame : c.onRead ec received = c := by simp [WebsocketSession.onRead, hdisconnected]
    rw [hsame]
    exact .closed messages hcalls hdisconnected hinOrder hreads hwrites haccepts
  | connected messages hcalls hconnected hinOrder _ hwrites haccepts =>
    cases ec with
    | true =>
      have hstep : c.onRead true received = { c with mConnected := false }.call .onDisconnected := by
        simp [WebsocketSession.onRead, hconnected]
      rw [hstep]
      exact lost hcalls hinOrder (hreads.trans_le (Nat.zero_le 1)) (Nat.le_of_eq hwrites) haccepts
    | false =>
      have hstep : c.onRead false received = (c.call (.onMessage received)).start .read := by
        simp [WebsocketSession.onRead, WebsocketSession.read, WebsocketSession.call, hconnected]
      rw [hstep]
      apply Stage.connected (messages ++ [received])
      · change c.calls ++ [.onMessage received] = _
        rw [hcalls]
        simp [connectedCalls]
      · exact hconnected
      · rw [handedOver_start]
        exact (congrArg (· ++ c.mWriteQueue.tail) (List.append_nil _)).trans hinOrder
      · exact (outstanding_start ..).trans_le (Nat.succ_le_succ (Nat.le_of_eq hreads))
      · exact (outstanding_start ..).trans hwrites
      · exact (outstanding_start ..).trans haccepts

/-- The outstanding write of a connected session completes. -/
lemma onWrite {messages : List Message} (hcalls : c.calls = connectedCalls messages)
    (hconnected : c.mConnected = true) (hinOrder : handedOver c ++ c.mWriteQueue.tail = texts)
    (hreads : outstanding isRead c ≤ 1) (hwrites : outstanding isWrite c = 0)
    (haccepts : outstanding isAccept c = 0) (ec : Bool) : Stage (c.onWrite ec) texts := by
  cases ec with
  | true =>
    have hstep : c.onWrite true = { c with mConnected := false }.call .onDisconnected := by
      simp [WebsocketSession.onWrite, hconnected]
    rw [hstep]
    apply lost hcalls hinOrder hreads _ haccepts
    exact hwrites.trans_le (Nat.zero_le _)
  | false =>
    cases htail : c.mWriteQueue.tail with
    | nil =>
      have hstep : c.onWrite false = { c with mWriteQueue := [] } := by
        simp [WebsocketSession.onWrite, hconnected, htail]
      rw [htail] at hinOrder
      rw [hstep]
      exact .connected messages hcalls hconnected hinOrder hreads hwrites haccepts
    | cons front rest =>
      have hstep : c.onWrite false =
          { c with mWriteQueue := front :: rest }.start (.write front) := by
        simp [WebsocketSession.onWrite, hconnected, htail]
      rw [htail] at hinOrder
      rw [hstep]
      apply Stage.connected messages
      · exact hcalls
      · exact hconnected
      · rw [handedOver_start, ← hinOrder]
        change (handedOver c ++ [front]) ++ rest = _
        rw [List.append_assoc]
        rfl
      · exact (outstanding_start ..).trans_le hreads
      · exact (outstanding_start ..).trans (congrArg (· + 1) hwrites)
      · exact (outstanding_start ..).trans haccepts

/-- `OnAccept` of a session that waits. -/
lemma onAccept (hcalls : c.calls = []) (hqueue : c.mWriteQueue = []) (hinOrder : handedOver c = texts)
    (hposts : outstanding isPost c = 0) (hreads : outstanding isRead c = 0)
    (hwrites : outstanding isWrite c = 0) (haccepts : outstanding isAccept c = 0) (ec : Bool) :
    Stage (c.onAccept ec) texts := by
  cases ec with
  | true =>
    apply Stage.waiting
    · exact hcalls
    · rfl
    · exact hqueue
    · exact hinOrder
    · exact hposts
    · exact hreads
    · exact hwrites
    · exact haccepts.trans_le (Nat.zero_le 1)
  | false =>
    have hstep : c.onAccept false =
        ({ c with mConnected := true }.call .onConnected).start .read := by
      simp [WebsocketSession.onAccept, WebsocketSession.read, WebsocketSession.call]
    rw [hstep]
    apply Stage.connected []
    · exact congrArg (· ++ [.onConnected]) hcalls
    · rfl
    · rw [handedOver_start, ← hinOrder]
      change (handedOver c ++ []) ++ c.mWriteQueue.tail = _
      rw [hqueue, List.append_nil]
      exact List.append_nil _
    · exact (outstanding_start ..).trans_le (Nat.succ_le_succ (Nat.le_of_eq hreads))
    · refine (outstanding_start ..).trans (hwrites.trans ?_)
      exact (if_pos hqueue).symm
    · exact (outstanding_start ..).trans haccepts

/-- The completion of any operation. -/
theorem complete (h : Stage c texts) (i : Nat) (ec : Bool) (received : Message) :
    Stage (c.complete i ec received) (texts ++ passed c i) := by
  unfold WebsocketSession.complete passed
  cases hop : c.pending[i]? with
  | none =>
    rw [List.append_nil]
    exact h
  | some op =>
    have haccept := outstanding_taken isAccept hop
    have hpost := outstanding_taken isPost hop
    have hread := outstanding_taken isRead hop
    have hwrite := outstanding_taken isWrite hop
    cases op with
    | post message =>
      have hcalled : c.calls ≠ [] := by
        intro hcalls
        have hpos : 0 < outstanding isPost c := outstanding_pos hop rfl
        cases h with
        | waiting _ _ _ _ hposts _ _ _ => omega
        | connected messages hsome _ _ _ _ _ => simp [hcalls, connectedCalls] at hsome
        | closed messages hsome _ _ _ _ _ => simp [hcalls, connectedCalls] at hsome
      exact (h.alike (alike_taken hop) hcalled).write hcalled message
    | accept =>
      rw [List.append_nil]
      simp only [isAccept, isPost, isRead, isWrite, if_true, Bool.false_eq_true, if_false,
        Nat.add_zero] at haccept hpost hread hwrite
      cases h with
      | waiting hcalls hdisconnected hqueue hinOrder hposts hreads hwrites haccepts =>
        have hnone : outstanding isAccept (taken c i) = 0 := by omega
        exact onAccept (c := taken c i) hcalls hqueue hinOrder (hpost.trans hposts)
          (hread.trans hreads) (hwrite.trans hwrites) hnone ec
      | connected _ _ _ _ _ _ haccepts => omega
      | closed _ _ _ _ _ _ haccepts => omega
    | read =>
      rw [List.append_nil]
      simp only [isAccept, isPost, isRead, isWrite, if_true, Bool.false_eq_true, if_false,
        Nat.add_zero] at haccept hpost hread hwrite
      cases h with
      | waiting _ _ _ _ _ hreads _ _ => omega
      | connected messages hcalls hconnected hinOrder hreads hwrites haccepts =>
        have hnone : outstanding isRead (taken c i) = 0 := by omega
        have htaken : Stage (taken c i) texts := .connected messages hcalls hconnected hinOrder
          (by omega) (hwrite.trans hwrites) (haccept.trans haccepts)
        exact htaken.onRead (by simp [taken, hcalls, connectedCalls]) hnone ec received
      | closed messages hcalls hdisconnected hinOrder hreads hwrites haccepts =>
        have hnone : outstanding isRead (taken c i) = 0 := by omega
        have htaken : Stage (taken c i) texts := .closed messages hcalls hdisconnected hinOrder
          (by omega) (hwrite.trans_le hwrites) (haccept.trans haccepts)
        exact htaken.onRead (by simp [taken, hcalls, connectedCalls]) hnone ec received
    | write message =>
      rw [List.append_nil]
      simp only [isAccept, isPost, isRead, isWrite, if_true, Bool.false_eq_true, if_false,
        Nat.add_zero] at haccept hpost hread hwrite
      cases h with
      | waiting _ _ _ _ _ _ hwrites _ => omega
      | connected messages hcalls hconnected hinOrder hreads hwrites haccepts =>
        have hnone : outstanding isWrite (taken c i) = 0 := by
          split_ifs at hwrites <;> omega
        exact onWrite (c := taken c i) hcalls hconnected hinOrder (hread.trans_le hreads) hnone
          (haccept.trans haccepts) ec
      | closed messages hcalls hdisconnected hinOrder hreads hwrites haccepts =>
        have hsame : (taken c i).onWrite ec = taken c i := by
          simp [WebsocketSession.onWrite, taken, hdisconnected]
        have hfewer : outstanding isWrite (taken c i) ≤ outstanding isWrite c := by omega
        change Stage ((taken c i).onWrite ec) texts
        rw [hsame]
        exact .closed messages hcalls hdisconnected hinOrder (hread.trans_le hreads)
          (Nat.le_trans hfewer hwrites) (haccept.trans haccepts)

end Stage

/-- In every run of a session in which `Logic` sends nothing before it is told about the session,
with completions that succeed or fail in any order: at most one write is outstanding, the texts
are handed over in the order in which they were passed to `Write`, a connected session writes as
long as its queue is not empty, and the logic is connected, handed messages and disconnected
once, in this order. -/
theorem session_by_protocol (run : List (SessionEvent Message))
    (hrun : Runs.AllSteps SessionEvent.perform SentByLogic
      (({} : WebsocketSession Message).onRun, []) run) :
    Runs.AllStates SessionEvent.perform ByProtocol
      (({} : WebsocketSession Message).onRun, []) run := by
  let Inv (s : WebsocketSession Message × List Message) : Prop := Stage s.1 s.2
  have hstart : Inv (({} : WebsocketSession Message).onRun, []) :=
    .waiting rfl rfl rfl rfl rfl rfl rfl (Nat.le_refl 1)
  have hkeep : ∀ (s : WebsocketSession Message × List Message) (event : SessionEvent Message),
      Inv s → SentByLogic s event → Inv (event.perform s) := by
    intro s event h hok
    cases event with
    | send message =>
      have hcalled : s.1.calls ≠ [] := List.ne_nil_of_mem hok
      exact Stage.alike h (alike_post s.1 message) hcalled
    | complete i ec received => exact Stage.complete h i ec received
  exact (Runs.allStates_of_invariant hkeep hstart hrun).mono fun s h => h.byProtocol

/-- Two texts are sent, the write of the first one and then the read fail, and a third text is
still posted. -/
theorem session_by_protocol_broken :
    let run : List (SessionEvent String) :=
      [.complete 0 false "", .send "a", .send "b", .complete 1 false "", .complete 1 false "",
        .complete 1 true "", .complete 0 true "", .send "c", .complete 0 false ""]
    let start := (({} : WebsocketSession String).onRun, [])
    let s := Runs.final SessionEvent.perform start run
    Runs.AllStates SessionEvent.perform ByProtocol start run ∧
      s.2 = ["a", "b", "c"] ∧ handedOver s.1 = ["a"] ∧ s.1.calls.length = 2 := by
  intro run start s
  refine ⟨session_by_protocol run ?_, by decide, by decide, by decide⟩
  have hconnected : ∀ s : WebsocketSession String × List String, ∀ message,
      s.1.calls.head? = some .onConnected → SentByLogic s (.send message) :=
    fun s message hhead => List.mem_of_mem_head? hhead
  exact ⟨trivial, hconnected _ _ rfl, hconnected _ _ rfl, trivial, trivial, trivial, trivial,
    hconnected _ _ rfl, trivial, trivial⟩

end SessionProtocol

end RenderStudioKit.Proofs
