import RenderStudioKit.Proofs.ClientLink

/-!
# The outbox of a connected client

A text goes from `Send` over the strand and the queue of the client to `async_write`. While nothing
fails the client stays connected, and while no write that completes leaves a last text that is not the
first one of the backlog, the texts are handed over in the order of `Send`.
-/

namespace RenderStudioKit.Proofs

variable {Message : Type}

namespace ClientOutbox

open WebsocketClient

def postedText : Operation Message → Option Message
  | .post message => some message
  | _ => none

/-- The texts that wait on the strand. -/
def posts (c : WebsocketClient Message) : List Message := c.pending.filterMap postedText

/-- The `Write` at a position was posted before all others that wait. -/
def InTurn (c : WebsocketClient Message) (i : Nat) : Prop :=
  ∀ message, c.pending[i]? = some (.post message) → (c.pending.take i).filterMap postedText = []

/-- A write that completes at a position leaves a backlog whose last text is also its first. -/
def KeepsOrder (c : WebsocketClient Message) (i : Nat) : Prop :=
  c.pending[i]?.any isWrite = true → c.mWriteQueue.tail.getLast? = c.mWriteQueue.tail.head?

/-- A connected client has handed over, keeps in its queue or has posted what was passed to `Send`, in
this order, and it neither connects nor closes. -/
structure Outbox (c : WebsocketClient Message) (passed : List Message) : Prop where
  stream : c.mWebsocketStream.isSome = true
  running : ∀ op ∈ c.pending, isSetup op = false ∧ isClose op = false
  texts : ∃ texts, Pump (c, texts) ∧ texts ++ posts c = passed

/-- What a completion tells the listener. -/
def told (c : WebsocketClient Message) (i : Nat) (completion : Completion Message) :
    List (ClientCallback Message) :=
  if c.pending[i]?.any isRead then (completion.received.map .onMessage).toList else []

variable {c : WebsocketClient Message} {passed : List Message} {i : Nat}

lemma posts_start (c : WebsocketClient Message) (op : Operation Message) :
    posts (c.start op) = posts c ++ (postedText op).toList := by
  cases op <;> simp [posts, start, postedText]

lemma posts_handling {op : Operation Message} (hop : c.pending[i]? = some op) (hturn : InTurn c i) :
    (postedText op).toList ++ posts (handling c i) = posts c := by
  obtain ⟨hlt, hget⟩ := List.getElem?_eq_some_iff.1 hop
  have hsplit : c.pending = c.pending.take i ++ op :: c.pending.drop (i + 1) := by
    rw [← hget, List.getElem_cons_drop, List.take_append_drop]
  have hhandling : posts (handling c i) =
      (c.pending.take i).filterMap postedText ++ (c.pending.drop (i + 1)).filterMap postedText := by
    rw [posts, handling, List.eraseIdx_eq_take_drop_succ, List.filterMap_append]
  have hposts : posts c = (c.pending.take i).filterMap postedText ++
      ((postedText op).toList ++ (c.pending.drop (i + 1)).filterMap postedText) := by
    rw [posts]
    conv_lhs => rw [hsplit]
    rw [List.filterMap_append, List.filterMap_cons]
    cases op <;> rfl
  rw [hhandling, hposts]
  cases op with
  | post message => rw [hturn message hop]; rfl
  | _ => rfl

namespace Outbox

lemma send (h : Outbox c passed) (message : Message) : Outbox (c.send message) (passed ++ [message]) := by
  obtain ⟨texts, hpump, rfl⟩ := h.texts
  obtain ⟨stream, hstream⟩ := Option.isSome_iff_exists.1 h.stream
  have hsend : c.send message = c.start (.post message) := by
    unfold WebsocketClient.send
    rw [hstream]
  rw [hsend]
  refine ⟨h.stream, ?_, texts, ⟨hpump.connected, ?_, ?_⟩, ?_⟩
  · intro op hop
    rcases List.mem_append.1 hop with hop | hop
    · exact h.running op hop
    · rw [List.mem_singleton.1 hop]
      exact ⟨rfl, rfl⟩
  · rw [outstanding_start]
    exact hpump.writes
  · have hsame : handedOver (c.start (.post message)) = handedOver c := by
      simp [handedOver, start, writtenText]
    rw [hsame]
    exact hpump.texts
  · rw [posts_start, List.append_assoc]
    rfl

lemma inOrder (h : Outbox c passed) : handedOver c <+: passed := by
  obtain ⟨texts, hpump, rfl⟩ := h.texts
  exact hpump.inOrderOnce.1.trans (List.prefix_append _ _)

lemma all (h : Outbox c passed) (hwrites : outstanding c = 0) (hposts : posts c = []) :
    handedOver c = passed := by
  obtain ⟨texts, hpump, rfl⟩ := h.texts
  have hqueue : c.mWriteQueue = [] := by
    by_contra hne
    have hone := hpump.writes
    rw [if_neg hne, hwrites] at hone
    exact absurd hone (by decide)
  have hall := hpump.texts
  rw [hqueue, List.tail_nil, List.append_nil] at hall
  rw [hposts, List.append_nil]
  exact hall

lemma taken (h : Outbox c passed) {op : Operation Message} (hop : c.pending[i]? = some op)
    (hwrite : isWrite op = false) :
    (∀ op ∈ (handling c i).pending, isSetup op = false ∧ isClose op = false) ∧
      ∃ texts, Pump (handling c i, texts) ∧ texts ++ posts c = passed := by
  obtain ⟨texts, hpump, hpassed⟩ := h.texts
  have hcount := countP_eraseIdx isWrite hop
  rw [hwrite, if_neg Bool.false_ne_true, Nat.add_zero] at hcount
  refine ⟨fun op hmem => h.running op (List.mem_of_mem_eraseIdx hmem), texts, ?_, hpassed⟩
  exact ⟨hpump.connected, hcount.trans hpump.writes, hpump.texts⟩

lemma quiet (h : Outbox c passed) {op : Operation Message} (hop : c.pending[i]? = some op)
    (hturn : InTurn c i) (hwrite : isWrite op = false) (hpost : postedText op = none)
    {next : Operation Message} (hrunning : isSetup next = false ∧ isClose next = false)
    (hnext : isWrite next = false) (hposted : postedText next = none)
    (callbacks : List (ClientCallback Message)) :
    Outbox (({ handling c i with callbacks := callbacks } : WebsocketClient Message).start next)
      passed := by
  obtain ⟨hops, texts, hpump, hpassed⟩ := h.taken hop hwrite
  refine ⟨h.stream, fun op' hop' => ?_, texts, ⟨hpump.connected, ?_, ?_⟩, ?_⟩
  · rcases List.mem_append.1 hop' with hop' | hop'
    · exact hops op' hop'
    · rw [List.mem_singleton.1 hop']
      exact hrunning
  · rw [outstanding_start, hnext]
    exact hpump.writes
  · have hsame : (writtenText next) = none := by cases next <;> first | rfl | cases hnext
    have hhanded : handedOver (({ handling c i with callbacks := callbacks } :
        WebsocketClient Message).start next) = handedOver (handling c i) := by
      simp [handedOver, start, hsame]
    rw [hhanded]
    exact hpump.texts
  · have hposts := posts_handling hop hturn
    rw [hpost, Option.toList_none, List.nil_append] at hposts
    rw [posts_start, hposted, Option.toList_none, List.append_nil, ← hpassed, ← hposts]
    rfl

lemma post (h : Outbox c passed) {message : Message} (hop : c.pending[i]? = some (.post message))
    (hturn : InTurn c i) : Outbox ((handling c i).write message) passed := by
  obtain ⟨hops, texts, hpump, hpassed⟩ := h.taken hop rfl
  have hposts := posts_handling hop hturn
  have hwritten : texts ++ [message] ++ posts (handling c i) = passed := by
    rw [List.append_assoc, ← hpassed, ← hposts]
    rfl
  have hpumped : Pump ((handling c i).write message, texts ++ [message]) := hpump.write message
  by_cases hqueue : (handling c i).mWriteQueue = []
  · have hfirst := write_first _ message hpump.connected hqueue
    rw [hfirst] at hpumped ⊢
    refine ⟨h.stream, fun op hmem => ?_, _, hpumped, ?_⟩
    · rcases List.mem_append.1 hmem with hmem | hmem
      · exact hops op hmem
      · rw [List.mem_singleton.1 hmem]
        exact ⟨rfl, rfl⟩
    · rw [posts_start]
      exact (congrArg _ (List.append_nil _)).trans hwritten
  · have hbacklog := write_backlog _ message hpump.connected hqueue
    rw [hbacklog] at hpumped ⊢
    exact ⟨h.stream, hops, _, hpumped, hwritten⟩

/-- The handler of a write that succeeded. -/
lemma written (h : Outbox c passed) {message : Message} (hop : c.pending[i]? = some (.write message))
    (hkeeps : KeepsOrder c i) (hturn : InTurn c i) :
    Outbox ((handling c i).onWrite false) passed := by
  obtain ⟨texts, hpump, hpassed⟩ := h.texts
  have hcount := countP_eraseIdx isWrite hop
  simp only [isWrite, if_true] at hcount
  have hnonempty : c.mWriteQueue ≠ [] := by
    intro hempty
    have hnone := hpump.writes
    rw [if_pos hempty] at hnone
    change c.pending.countP isWrite = 0 at hnone
    omega
  have hone : outstanding c = 1 := hpump.writes.trans (if_neg hnonempty)
  have hzero : outstanding (handling c i) = 0 := by
    change (c.pending.eraseIdx i).countP isWrite = 0
    change c.pending.countP isWrite = 1 at hone
    omega
  have hops : ∀ op ∈ (handling c i).pending, isSetup op = false ∧ isClose op = false :=
    fun op hmem => h.running op (List.mem_of_mem_eraseIdx hmem)
  have hposts : posts (handling c i) = posts c := posts_handling hop hturn
  have horder := hkeeps (by rw [hop]; rfl)
  have htexts := hpump.texts
  cases htail : c.mWriteQueue.tail with
  | nil =>
    have hlast : (handling c i).onWrite false = { handling c i with mWriteQueue := [] } :=
      onWrite_last _ htail
    rw [htail] at htexts
    rw [hlast]
    exact ⟨h.stream, hops, texts, ⟨hpump.connected, hzero, htexts⟩, by rw [← hpassed, ← hposts]; rfl⟩
  | cons next rest =>
    rw [htail] at horder htexts
    have hnext : (handling c i).onWrite false =
        ({ handling c i with mWriteQueue := next :: rest } : WebsocketClient Message).start
          (.write next) := by
      have hlast : (handling c i).mWriteQueue.tail.getLast? = some next := by
        change c.mWriteQueue.tail.getLast? = some next
        rw [htail]
        exact horder
      have hstep := onWrite_next (handling c i) hlast
      change _ = { handling c i with mWriteQueue := c.mWriteQueue.tail }.start (.write next) at hstep
      rwa [htail] at hstep
    rw [hnext]
    refine ⟨h.stream, fun op hmem => ?_, texts, ⟨hpump.connected, ?_, ?_⟩, ?_⟩
    · rcases List.mem_append.1 hmem with hmem | hmem
      · exact hops op hmem
      · rw [List.mem_singleton.1 hmem]
        exact ⟨rfl, rfl⟩
    · rw [outstanding_start]
      exact congrArg (· + 1) hzero
    · rw [handedOver_start_write, List.append_assoc]
      exact htexts
    · rw [posts_start, ← hpassed, ← hposts]
      exact congrArg _ (List.append_nil _)

/-- An operation that succeeds. -/
lemma complete (h : Outbox c passed) (hturn : InTurn c i) (hkeeps : KeepsOrder c i)
    {completion : Completion Message} (hec : completion.ec = false) :
    Outbox (c.complete i completion) passed ∧
      (c.complete i completion).callbacks = c.callbacks ++ told c i completion := by
  cases hop : c.pending[i]? with
  | none =>
    rw [complete_nothing hop]
    refine ⟨h, ?_⟩
    simp [told, hop]
  | some op =>
    obtain ⟨hsetup, hclose⟩ := h.running op (List.mem_of_getElem? hop)
    have hconnected : (handling c i).mConnected = true := by
      obtain ⟨texts, hpump, -⟩ := h.texts
      exact hpump.connected
    rw [complete_eq hop]
    cases op with
    | resolve | connect | sslHandshake | handshake => cases hsetup
    | close => cases hclose
    | post message =>
      refine ⟨h.post hop hturn, ?_⟩
      have hsame : ((handling c i).write message).callbacks = c.callbacks := by
        unfold WebsocketClient.write writeBack
        dsimp only
        split_ifs
        · rfl
        · rfl
        · split <;> rfl
      exact hsame.trans (by simp [told, hop, isRead])
    | write message =>
      have hwrite : (handling c i).handle completion (.write message) = (handling c i).onWrite false :=
        congrArg (handling c i).onWrite hec
      rw [hwrite]
      refine ⟨h.written hop hkeeps hturn, ?_⟩
      have hsame : ((handling c i).onWrite false).callbacks = c.callbacks := by
        unfold WebsocketClient.onWrite writeBack
        rw [if_neg Bool.false_ne_true]
        dsimp only
        split_ifs
        · split <;> rfl
        · rfl
      exact hsame.trans (by simp [told, hop, isRead])
    | read =>
      have hread : (handling c i).handle completion .read =
          ({ handling c i with callbacks := c.callbacks ++ told c i completion } :
            WebsocketClient Message).start .read := by
        have hopen : ¬(!(handling c i).mConnected) = true := by simp [hconnected]
        have htold : told c i completion = (completion.received.map .onMessage).toList := by
          simp [told, hop, isRead]
        change (handling c i).onRead completion.ec completion.received = _
        unfold onRead
        rw [if_neg hopen, hec, if_neg Bool.false_ne_true, htold]
        cases completion.received with
        | none => simp [handling]
        | some message => rfl
      rw [hread]
      exact ⟨h.quiet hop hturn rfl rfl ⟨rfl, rfl⟩ rfl rfl _, rfl⟩
    | wait =>
      have hwait : (handling c i).handle completion .wait = (handling c i).start .ping := by
        simp [handle, ping, hconnected, hec]
      rw [hwait]
      refine ⟨h.quiet hop hturn rfl rfl ⟨rfl, rfl⟩ rfl rfl c.callbacks, ?_⟩
      exact (List.append_nil _).symm.trans (by simp [told, hop, isRead, start, handling])
    | ping =>
      have hping : (handling c i).handle completion .ping = (handling c i).start .wait := by
        simp [handle, onPing, hconnected, hec]
      rw [hping]
      refine ⟨h.quiet hop hturn rfl rfl ⟨rfl, rfl⟩ rfl rfl c.callbacks, ?_⟩
      exact (List.append_nil _).symm.trans (by simp [told, hop, isRead, start, handling])

end Outbox

end ClientOutbox

end RenderStudioKit.Proofs
