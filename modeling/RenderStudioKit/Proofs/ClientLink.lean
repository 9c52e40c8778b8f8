import RenderStudioKit.Model.ConnectionNotices
import RenderStudioKit.Proofs.WritePump

/-!
# The link of one client

What a member function of the client tells its listener, and what it does to the part of the client
that decides about it: whether it is connected, and how many steps of the connection phase, closes
and reads are pending.
-/

namespace RenderStudioKit.Proofs

variable {Message : Type}

open WebsocketClient

def isClose : Operation Message → Bool
  | .close _ => true
  | _ => false

def isRead : Operation Message → Bool
  | .read => true
  | _ => false

/-- What the callbacks of a client depend on. -/
structure Link where
  connected : Bool
  setups : Nat
  closes : Nat
  reads : Nat

def link (c : WebsocketClient Message) : Link where
  connected := c.mConnected
  setups := setups c
  closes := c.pending.countP isClose
  reads := c.pending.countP isRead

namespace Link

def start (v : Link) (op : Operation Message) : Link where
  connected := v.connected
  setups := v.setups + if isSetup op then 1 else 0
  closes := v.closes + if isClose op then 1 else 0
  reads := v.reads + if isRead op then 1 else 0

def disconnect (v : Link) : Link :=
  if v.connected then { v with connected := false, closes := v.closes + 1 } else v

/-- The client is connected or closes its connection. -/
def Live (v : Link) : Prop := v.connected = true ∨ 0 < v.closes

instance (v : Link) : Decidable v.Live := inferInstanceAs (Decidable (_ ∨ _))

/-- The client connects, is connected, closes, or is none of these. -/
inductive Phase (v : Link) : Prop where
  | connecting (setup : v.setups = 1) (disconnected : v.connected = false) (closes : v.closes = 0)
  | connected (setup : v.setups = 0) (connected : v.connected = true) (closes : v.closes = 0)
      (reads : 0 < v.reads)
  | closing (setup : v.setups = 0) (disconnected : v.connected = false) (closes : v.closes = 1)
  | closed (setup : v.setups = 0) (disconnected : v.connected = false) (closes : v.closes = 0)

end Link

/-- The client `c` becomes `c'`, tells `told` meanwhile and has the link `v` then. -/
def Effect (c c' : WebsocketClient Message) (told : List Bool) (v : Link) : Prop :=
  (∃ new, c'.callbacks = c.callbacks ++ new ∧ new.filterMap ClientCallback.told = told) ∧ link c' = v

section

variable {c c' c'' : WebsocketClient Message}

lemma Effect.trans {told told' : List Bool} {v v' : Link} (h : Effect c c' told v)
    (h' : Effect c' c'' told' v') : Effect c c'' (told ++ told') v' := by
  obtain ⟨new, hnew, htold⟩ := h.1
  obtain ⟨new', hnew', htold'⟩ := h'.1
  exact ⟨⟨new ++ new', by rw [hnew', hnew, List.append_assoc],
    by rw [List.filterMap_append, htold, htold']⟩, h'.2⟩

lemma Effect.drop {told : List Bool} {v : Link} (h : Effect c c' told v) :
    (c'.callbacks.drop c.callbacks.length).filterMap ClientCallback.told = told := by
  obtain ⟨new, hnew, htold⟩ := h.1
  rw [hnew, List.drop_left, htold]

lemma effect_refl (c : WebsocketClient Message) : Effect c c [] (link c) :=
  ⟨⟨[], (List.append_nil _).symm, rfl⟩, rfl⟩

lemma effect_start (c : WebsocketClient Message) (op : Operation Message) :
    Effect c (c.start op) [] ((link c).start op) := by
  refine ⟨⟨[], (List.append_nil _).symm, rfl⟩, ?_⟩
  simp [link, Link.start, setups, WebsocketClient.start, List.countP_append, List.countP_singleton]

lemma effect_setValue (c : WebsocketClient Message) (promise : Nat) (value : Bool) :
    Effect c (c.setValue promise value) [] (link c) := by
  unfold setValue
  split <;> exact ⟨⟨[], (List.append_nil _).symm, rfl⟩, rfl⟩

lemma effect_call (c : WebsocketClient Message) (callback : ClientCallback Message) :
    Effect c (c.call callback) callback.told.toList (link c) := by
  refine ⟨⟨[callback], rfl, ?_⟩, rfl⟩
  cases callback <;> rfl

lemma effect_of_eq (c c' : WebsocketClient Message) (hcallbacks : c'.callbacks = c.callbacks)
    (hconnected : c'.mConnected = c.mConnected) (hpending : c'.pending = c.pending) :
    Effect c c' [] (link c) := by
  refine ⟨⟨[], by rw [hcallbacks, List.append_nil], rfl⟩, ?_⟩
  rw [link, link, setups, setups, hconnected, hpending]

lemma effect_disconnect_connected (h : c.mConnected = true) :
    Effect c c.disconnect [] { link c with connected := false, closes := (link c).closes + 1 } := by
  unfold disconnect
  refine ⟨⟨[], by simp [h, WebsocketClient.start], rfl⟩, ?_⟩
  simp [link, h, setups, WebsocketClient.start, List.countP_append, List.countP_singleton,
    isSetup, isClose, isRead]

lemma effect_disconnect_unconnected (h : c.mConnected = false) :
    Effect c c.disconnect [false] (link c) := by
  set c₁ : WebsocketClient Message := { c with promises := c.promises ++ [none] }
  have hdisconnect : c.disconnect =
      { (c₁.call .onDisconnected).setValue c.promises.length true with mConnected := false } := by
    simp only [disconnect, h, Bool.false_eq_true, if_false, c₁]
  have hpromise : Effect c c₁ [] (link c) := effect_of_eq c c₁ rfl rfl rfl
  have hcall := effect_call c₁ (.onDisconnected)
  have hvalue := effect_setValue (c₁.call .onDisconnected) c.promises.length true
  have hconnected : ((c₁.call .onDisconnected).setValue c.promises.length true).mConnected = false :=
    (congrArg Link.connected hvalue.2).trans h
  have hunset := effect_of_eq ((c₁.call .onDisconnected).setValue c.promises.length true)
    { (c₁.call .onDisconnected).setValue c.promises.length true with mConnected := false }
    rfl hconnected.symm rfl
  rw [hvalue.2] at hunset
  rw [hdisconnect]
  exact ((hpromise.trans hcall).trans hvalue).trans hunset

lemma effect_send (c : WebsocketClient Message) (message : Message) :
    Effect c (c.send message) [] (link c) := by
  unfold send
  split
  · exact effect_of_eq _ _ rfl rfl rfl
  · exact effect_start c (.post message)

lemma effect_connect (c : WebsocketClient Message) (endpoint : Url) :
    Effect c (c.connect endpoint) [] { link c with setups := (link c).setups + 1 } := by
  set c₁ : WebsocketClient Message := { c with
    mEndpoint := endpoint
    mWebsocketStream := some (if endpoint.mSsl then .ssl else .tcp)
    promises := c.promises ++ [none] }
  have hmembers : Effect c c₁ [] (link c) := effect_of_eq c c₁ rfl rfl rfl
  exact hmembers.trans
    (effect_start c₁ (.resolve endpoint.mHost endpoint.mPort c.promises.length))

lemma effect_write (c : WebsocketClient Message) (message : Message) :
    Effect c (c.write message) [] (link c) := by
  cases hconnected : c.mConnected with
  | false =>
    rw [write_disconnected c message hconnected]
    exact effect_of_eq _ _ rfl rfl rfl
  | true =>
    by_cases hqueue : c.mWriteQueue = []
    · rw [write_first c message hconnected hqueue]
      exact (effect_of_eq c { c with mWriteQueue := [message] } rfl rfl rfl).trans
        (effect_start _ (.write message))
    · rw [write_backlog c message hconnected hqueue]
      exact effect_of_eq _ _ rfl rfl rfl

lemma effect_onWrite (c : WebsocketClient Message) : Effect c (c.onWrite false) [] (link c) := by
  cases hlast : c.mWriteQueue.tail.getLast? with
  | none =>
    rw [onWrite_last c (List.getLast?_eq_none_iff.1 hlast)]
    exact effect_of_eq _ _ rfl rfl rfl
  | some last =>
    rw [onWrite_next c hlast]
    exact (effect_of_eq c { c with mWriteQueue := c.mWriteQueue.tail } rfl rfl rfl).trans
      (effect_start _ (.write last))

lemma effect_failed (h : c.mConnected = false) (promise : Nat) :
    Effect c (c.setValue promise false).disconnect [false] (link c) := by
  have hvalue := effect_setValue c promise false
  have hconnected : (c.setValue promise false).mConnected = false :=
    (congrArg Link.connected hvalue.2).trans h
  have hdisconnect := effect_disconnect_unconnected hconnected
  rw [hvalue.2] at hdisconnect
  exact hvalue.trans hdisconnect

lemma effect_onHandshake (c : WebsocketClient Message) (promise : Nat) :
    Effect c (c.onHandshake promise false) [true]
      { link c with connected := true, reads := (link c).reads + 1 } := by
  set c₁ : WebsocketClient Message := { c with mConnected := true }
  set c₂ := (c₁.call .onConnected).setValue promise true with hc₂
  have hset : Effect c c₁ [] { link c with connected := true } :=
    ⟨⟨[], (List.append_nil _).symm, rfl⟩, rfl⟩
  have hcall := effect_call c₁ .onConnected
  have hvalue := effect_setValue (c₁.call .onConnected) promise true
  have hconnected : c₂.mConnected = true := congrArg Link.connected hvalue.2
  have hping : c₂.onPing false = c₂.start .wait := by simp [onPing, hconnected]
  have hread : (c₂.start .wait).onRead false none = (c₂.start .wait).start .read := by
    simp [onRead, hconnected]
  have hhandshake : c.onHandshake promise false = (c₂.start .wait).start .read := by
    rw [← hread, ← hping]
    rfl
  have hwait := effect_start c₂ .wait
  have hlast := effect_start (c₂.start .wait) .read
  rw [hwait.2] at hlast
  rw [hvalue.2] at hwait
  have hlink : link c₂ = { link c with connected := true } := hvalue.2
  rw [hlink] at hlast
  rw [hhandshake]
  exact (((hset.trans hcall).trans hvalue).trans hwait).trans hlast

lemma onClose_unconnected (h : c.mConnected = false) (promise : Nat) (ec : Bool) :
    c.onClose promise ec = (c.call .onDisconnected).setValue promise true := by
  have hconnected : (c.call .onDisconnected).mConnected = false := h
  simp [onClose, hconnected]

lemma effect_onClose (h : c.mConnected = false) (promise : Nat) (ec : Bool) :
    Effect c (c.onClose promise ec) [false] (link c) := by
  rw [onClose_unconnected h]
  exact (effect_call c .onDisconnected).trans (effect_setValue _ promise true)

lemma effect_guarded (c : WebsocketClient Message) (ec : Bool) (next : Operation Message)
    (middle : WebsocketClient Message) (hmiddle : Effect c middle [] (link c)) :
    Effect c (if !c.mConnected then c else if ec then c.disconnect else middle.start next) []
      (if c.mConnected then
        if ec then { link c with connected := false, closes := (link c).closes + 1 }
        else (link c).start next
      else link c) := by
  cases hconnected : c.mConnected with
  | false => simpa using effect_refl c
  | true =>
    cases ec with
    | true => simpa using effect_disconnect_connected hconnected
    | false =>
      have hstart := effect_start middle next
      rw [hmiddle.2] at hstart
      simpa using hmiddle.trans hstart

end

section

variable {c : WebsocketClient Message} {i : Nat} {op : Operation Message}

/-- The handler runs `Disconnect` on a client that is not connected. -/
def Fails (c : WebsocketClient Message) (completion : Completion Message) :
    Operation Message → Prop
  | .resolve .. | .connect _ | .sslHandshake _ | .handshake .. => completion.ec = true
  | .write _ => completion.ec = true ∧ c.mConnected = false
  | _ => False

/-- The handler starts another operation. -/
def Continues (c : WebsocketClient Message) (completion : Completion Message) :
    Operation Message → Prop
  | .resolve .. | .sslHandshake _ | .handshake .. => True
  | .connect _ => c.mWebsocketStream = some .tcp ∨
      c.mWebsocketStream = some .ssl ∧ completion.hostNameSet = true
  | .post _ => c.mConnected = true ∧ c.mWriteQueue = []
  | .write _ => completion.ec = true ∨ c.mWriteQueue.tail ≠ []
  | .read | .wait | .ping => c.mConnected = true
  | .close _ => False

lemma pending_setValue (c : WebsocketClient Message) (promise : Nat) (value : Bool) :
    (c.setValue promise value).pending = c.pending := by
  unfold setValue
  split <;> rfl

lemma mConnected_setValue (c : WebsocketClient Message) (promise : Nat) (value : Bool) :
    (c.setValue promise value).mConnected = c.mConnected := by
  unfold setValue
  split <;> rfl

/-- The client `c` becomes `c'` and starts operations then, at least one if `more`. -/
def Starts (c c' : WebsocketClient Message) (more : Prop) : Prop :=
  ∃ new, c'.pending = c.pending ++ new ∧ (new ≠ [] ↔ more)

lemma starts_nothing {c' : WebsocketClient Message} {more : Prop} (h : c'.pending = c.pending)
    (hmore : ¬ more) : Starts c c' more :=
  ⟨[], by rw [h, List.append_nil], iff_of_false (fun hne => hne rfl) hmore⟩

lemma starts_start {middle : WebsocketClient Message} {more : Prop}
    (h : middle.pending = c.pending) (next : Operation Message) (hmore : more) :
    Starts c (middle.start next) more :=
  ⟨[next], congrArg (· ++ [next]) h, iff_of_true (List.cons_ne_nil next []) hmore⟩

lemma starts_disconnect {more : Prop} (h : c.mConnected = true) (hmore : more) :
    Starts c c.disconnect more := by
  refine ⟨[.close c.promises.length], ?_, iff_of_true (List.cons_ne_nil _ []) hmore⟩
  simp [disconnect, h, WebsocketClient.start]

lemma starts_guarded {ec : Bool} {next : Operation Message} {middle : WebsocketClient Message}
    (h : middle.pending = c.pending) :
    Starts c (if !c.mConnected then c else if ec then c.disconnect else middle.start next)
      (c.mConnected = true) := by
  cases hconnected : c.mConnected with
  | false => exact starts_nothing (by simp) Bool.false_ne_true
  | true =>
    cases ec with
    | true => simpa using starts_disconnect hconnected trivial
    | false => simpa using starts_start h next trivial

lemma starts_write (message : Message) :
    Starts c (c.write message) (c.mConnected = true ∧ c.mWriteQueue = []) := by
  cases hconnected : c.mConnected with
  | false =>
    rw [write_disconnected c message hconnected]
    exact starts_nothing rfl (by simp)
  | true =>
    by_cases hqueue : c.mWriteQueue = []
    · rw [write_first c message hconnected hqueue]
      exact starts_start rfl _ ⟨rfl, hqueue⟩
    · rw [write_backlog c message hconnected hqueue]
      exact starts_nothing rfl fun hmore => hqueue hmore.2

lemma starts_onWrite : Starts c (c.onWrite false) (c.mWriteQueue.tail ≠ []) := by
  cases hlast : c.mWriteQueue.tail.getLast? with
  | none =>
    have hnil := List.getLast?_eq_none_iff.1 hlast
    rw [onWrite_last c hnil]
    exact starts_nothing rfl (not_not.2 hnil)
  | some last =>
    rw [onWrite_next c hlast]
    refine starts_start rfl _ fun hnil => ?_
    rw [hnil] at hlast
    cases hlast

lemma starts_onConnect (promise port : Nat) (hostNameSet : Bool) :
    Starts c (c.onConnect promise false port hostNameSet) (c.mWebsocketStream = some .tcp ∨
      c.mWebsocketStream = some .ssl ∧ hostNameSet = true) := by
  unfold onConnect
  rw [if_neg Bool.false_ne_true]
  cases hstream : c.mWebsocketStream with
  | none => exact starts_nothing rfl (by simp)
  | some stream =>
    cases stream with
    | tcp => exact starts_start rfl _ (.inl rfl)
    | ssl =>
      cases hostNameSet with
      | false => exact starts_nothing rfl (by simp)
      | true => exact starts_start rfl _ (.inr ⟨rfl, rfl⟩)

lemma starts_onHandshake (promise : Nat) : Starts c (c.onHandshake promise false) True := by
  refine ⟨[.wait, .read], ?_, iff_of_true (List.cons_ne_nil _ _) trivial⟩
  simp [onHandshake, onPing, onRead, WebsocketClient.start, WebsocketClient.call, pending_setValue,
    mConnected_setValue]

lemma starts_onClose (h : c.mConnected = false) (promise : Nat) (ec : Bool) :
    Starts c (c.onClose promise ec) False := by
  rw [onClose_unconnected h]
  exact starts_nothing (pending_setValue _ promise true) not_false

/-- What a handler starts, if it does not run `Disconnect` without a connection. -/
lemma starts_handle {completion : Completion Message} (hfails : ¬ Fails c completion op)
    (hclose : ∀ promise, op = .close promise → c.mConnected = false) :
    Starts c (c.handle completion op) (Continues c completion op) := by
  cases op with
  | resolve host port promise =>
    have hec : completion.ec = false := by simpa [Fails] using hfails
    simpa [handle, onResolve, hec, Continues] using starts_start rfl (.connect promise) trivial
  | connect promise =>
    have hec : completion.ec = false := by simpa [Fails] using hfails
    simpa [handle, hec, Continues] using
      starts_onConnect promise completion.port completion.hostNameSet
  | sslHandshake promise =>
    have hec : completion.ec = false := by simpa [Fails] using hfails
    simpa [handle, onSslHandshake, hec, Continues] using starts_start rfl _ trivial
  | handshake host target promise =>
    have hec : completion.ec = false := by simpa [Fails] using hfails
    simpa [handle, hec, Continues] using starts_onHandshake promise
  | post message => exact starts_write message
  | write message =>
    cases hec : completion.ec with
    | true =>
      have hconnected : c.mConnected = true := by simpa [Fails, hec] using hfails
      simpa [handle, onWrite, hec] using starts_disconnect hconnected (.inl hec)
    | false => simpa [handle, Continues, hec] using starts_onWrite
  | read =>
    refine starts_guarded ?_
    cases completion.received <;> rfl
  | wait => exact starts_guarded rfl
  | ping => exact starts_guarded rfl
  | close promise => exact starts_onClose (hclose promise rfl) promise completion.ec

/-- The client at the start of the handler of an operation. -/
def handling (c : WebsocketClient Message) (i : Nat) : WebsocketClient Message :=
  { c with pending := c.pending.eraseIdx i }

lemma link_handling (hop : c.pending[i]? = some op) : (link (handling c i)).start op = link c := by
  have hsetups := countP_eraseIdx isSetup hop
  have hcloses := countP_eraseIdx isClose hop
  have hreads := countP_eraseIdx isRead hop
  rw [Link.start, link, link]
  exact Link.mk.injEq .. ▸ ⟨rfl, hsetups, hcloses, hreads⟩

lemma complete_nothing (hop : c.pending[i]? = none) (completion : Completion Message) :
    c.complete i completion = c := by
  rw [complete, hop]

lemma complete_eq (hop : c.pending[i]? = some op) (completion : Completion Message) :
    c.complete i completion = (handling c i).handle completion op := by
  rw [complete, hop]
  rfl

lemma effect_handling {c' : WebsocketClient Message} {told : List Bool} {v : Link}
    (h : Effect (handling c i) c' told v) : Effect c c' told v :=
  ⟨h.1, h.2⟩

lemma connecting_of_setup (h : (link c).Phase) (hop : c.pending[i]? = some op)
    (hsetup : isSetup op = true) :
    (link (handling c i)).setups = 0 ∧ (link (handling c i)).connected = false ∧
      (link (handling c i)).closes = 0 ∧ ¬ (link c).Live := by
  have hclose : isClose op = false := by cases op <;> first | rfl | cases hsetup
  have hlink := link_handling hop
  rw [← hlink] at h ⊢
  rw [Link.Live, Link.start]
  cases h with
  | connecting hone hdisconnected hcloses =>
    simp only [Link.start, hsetup, hclose, if_true, Bool.false_eq_true, if_false] at *
    refine ⟨by omega, hdisconnected, by omega, ?_⟩
    rw [hdisconnected]
    simp
    omega
  | connected hzero _ _ _ => simp [Link.start, hsetup] at hzero
  | closing hzero _ _ => simp [Link.start, hsetup] at hzero
  | closed hzero _ _ => simp [Link.start, hsetup] at hzero

lemma phase_of_setup (h : (link c).Phase) (hop : c.pending[i]? = some op)
    (hsetup : isSetup op = true) :
    (link (handling c i)).Phase ∧ (link (handling c i)).connected = false ∧
      ¬ (link (handling c i)).Live ∧ ¬ (link c).Live := by
  obtain ⟨hzero, hdisconnected, hcloses, hlive⟩ := connecting_of_setup h hop hsetup
  refine ⟨.closed hzero hdisconnected hcloses, hdisconnected, ?_, hlive⟩
  rw [Link.Live, hdisconnected, hcloses]
  simp

/-- The error of a client that is not connected is told. -/
lemma complete_fails (h : (link c).Phase) (hop : c.pending[i]? = some op)
    {completion : Completion Message} (hfails : Fails c completion op) :
    ∃ v, Effect c (c.complete i completion) [false] v ∧ v.Phase ∧ v.connected = false ∧
      (link c).connected = false ∧ (v.Live ↔ (link c).Live) := by
  rw [complete_eq hop]
  have hsetup : isSetup op = true → ∀ promise, ∃ v,
      Effect c ((handling c i).setValue promise false).disconnect [false] v ∧ v.Phase ∧
        v.connected = false ∧ (link c).connected = false ∧ (v.Live ↔ (link c).Live) := by
    intro hsetup promise
    obtain ⟨hphase, hdisconnected, hlive, hlive'⟩ := phase_of_setup h hop hsetup
    exact ⟨_, effect_handling (effect_failed hdisconnected promise), hphase, hdisconnected,
      hdisconnected, iff_of_false hlive hlive'⟩
  cases op with
  | resolve host port promise =>
    have hec : completion.ec = true := hfails
    simpa [handle, onResolve, hec] using hsetup rfl promise
  | connect promise =>
    have hec : completion.ec = true := hfails
    simpa [handle, onConnect, hec] using hsetup rfl promise
  | sslHandshake promise =>
    have hec : completion.ec = true := hfails
    simpa [handle, onSslHandshake, hec] using hsetup rfl promise
  | handshake host target promise =>
    have hec : completion.ec = true := hfails
    simpa [handle, onHandshake, hec] using hsetup rfl promise
  | write message =>
    obtain ⟨hec, hdisconnected⟩ := hfails
    have hlink : link (handling c i) = link c := link_handling hop
    have heffect := effect_disconnect_unconnected (c := handling c i) hdisconnected
    refine ⟨link c, ?_, h, hdisconnected, hdisconnected, Iff.rfl⟩
    rw [hlink] at heffect
    simpa [handle, onWrite, hec] using effect_handling heffect
  | post | read | wait | ping | close => exact hfails.elim

lemma complete_opens (h : (link c).Phase) {host target : String} {promise : Nat}
    (hop : c.pending[i]? = some (.handshake host target promise))
    {completion : Completion Message} (hec : completion.ec = false) :
    ∃ v, Effect c (c.complete i completion) [true] v ∧ v.Phase ∧ v.connected = true ∧
      ¬ (link c).Live := by
  obtain ⟨hzero, -, hcloses, hlive⟩ := connecting_of_setup h hop rfl
  rw [complete_eq hop]
  have heffect := effect_handling (effect_onHandshake (handling c i) promise)
  set v : Link := { link (handling c i) with
    connected := true
    reads := (link (handling c i)).reads + 1 }
  have hphase : v.Phase := .connected hzero rfl hcloses (Nat.succ_pos _)
  exact ⟨v, by simpa [handle, hec] using heffect, hphase, rfl, hlive⟩

lemma complete_closes (h : (link c).Phase) {promise : Nat}
    (hop : c.pending[i]? = some (.close promise)) (completion : Completion Message) :
    ∃ v, Effect c (c.complete i completion) [false] v ∧ v.Phase ∧ ¬ v.Live ∧ (link c).Live ∧
      (link c).connected = false := by
  have hlink := link_handling hop
  have hcloses : (link c).closes = (link (handling c i)).closes + 1 := by rw [← hlink]; rfl
  have hconnected : (link c).connected = (link (handling c i)).connected := by rw [← hlink]; rfl
  have hsetups : (link c).setups = (link (handling c i)).setups := by rw [← hlink]; rfl
  cases h with
  | connecting _ _ hzero => omega
  | connected _ _ hzero _ => omega
  | closed _ _ hzero => omega
  | closing hsetup hdisconnected hone =>
    have hunconnected := hconnected.symm.trans hdisconnected
    have hzero : (link (handling c i)).closes = 0 := by omega
    rw [complete_eq hop]
    refine ⟨_, effect_handling (effect_onClose hunconnected promise completion.ec),
      .closed (hsetups.symm.trans hsetup) hunconnected hzero, ?_, .inr (by omega), hdisconnected⟩
    rw [Link.Live, hunconnected, hzero]
    simp

lemma phase_of_unconnected {v w : Link} (h : v.Phase) (hconnected : v.connected = false)
    (hsame : w.connected = v.connected) (hsetups : w.setups = v.setups)
    (hcloses : w.closes = v.closes) : w.Phase := by
  have hno : w.connected = false := hsame.trans hconnected
  cases h with
  | connecting hsetup _ hclose => exact .connecting (hsetups.trans hsetup) hno (hcloses.trans hclose)
  | connected _ hyes _ _ => simp [hconnected] at hyes
  | closing hsetup _ hclose => exact .closing (hsetups.trans hsetup) hno (hcloses.trans hclose)
  | closed hsetup _ hclose => exact .closed (hsetups.trans hsetup) hno (hcloses.trans hclose)

lemma closing_of_connected {v w : Link} (h : v.Phase) (hconnected : v.connected = true)
    (hsetups : w.setups = v.setups) (hcloses : w.closes = v.closes) :
    Link.Phase { w with connected := false, closes := w.closes + 1 } ∧
      (Link.Live { w with connected := false, closes := w.closes + 1 } ↔ v.Live) := by
  cases h with
  | connecting _ hdisconnected _ => simp [hconnected] at hdisconnected
  | connected hsetup _ hclose _ =>
    exact ⟨.closing (hsetups.trans hsetup) rfl (congrArg (· + 1) (hcloses.trans hclose)),
      iff_of_true (.inr (Nat.succ_pos _)) (.inl hconnected)⟩
  | closing _ hdisconnected _ => simp [hconnected] at hdisconnected
  | closed _ hdisconnected _ => simp [hconnected] at hdisconnected

lemma link_start_setup {op op' : Operation Message} (v : Link) (h : isSetup op = true)
    (h' : isSetup op' = true) : v.start op = v.start op' := by
  have hother : ∀ op : Operation Message, isSetup op = true → isClose op = false ∧ isRead op = false := by
    intro op hop
    cases op <;> first | exact ⟨rfl, rfl⟩ | cases hop
  rw [Link.start, Link.start, h, h', (hother op h).1, (hother op h).2, (hother op' h').1,
    (hother op' h').2]

lemma effect_next (hop : c.pending[i]? = some op) (hsetup : isSetup op = true)
    (middle : WebsocketClient Message) (hmiddle : Effect (handling c i) middle [] (link (handling c i)))
    {next : Operation Message} (hnext : isSetup next = true) :
    Effect c (middle.start next) [] (link c) := by
  have hstart := effect_start middle next
  rw [hmiddle.2, link_start_setup _ hnext hsetup, link_handling hop] at hstart
  exact effect_handling (hmiddle.trans hstart)

lemma complete_setup_quiet (h : (link c).Phase) (hop : c.pending[i]? = some op)
    (hsetup : isSetup op = true) {completion : Completion Message} (hec : completion.ec = false)
    (hhandshake : ∀ host target promise, op ≠ .handshake host target promise) :
    ∃ v, Effect c (c.complete i completion) [] v ∧ v.Phase ∧ (v.Live ↔ (link c).Live) := by
  obtain ⟨hphase, -, hlive, hlive'⟩ := phase_of_setup h hop hsetup
  have hcrash : ∀ crash, ∃ v, Effect c { handling c i with crash := some crash } [] v ∧ v.Phase ∧
      (v.Live ↔ (link c).Live) := fun crash =>
    ⟨_, effect_handling (effect_of_eq (handling c i) _ rfl rfl rfl), hphase,
      iff_of_false hlive hlive'⟩
  have hstart : ∀ (middle : WebsocketClient Message) (next : Operation Message),
      Effect (handling c i) middle [] (link (handling c i)) → isSetup next = true →
      ∃ v, Effect c (middle.start next) [] v ∧ v.Phase ∧ (v.Live ↔ (link c).Live) :=
    fun middle _ hmiddle hnext => ⟨_, effect_next hop hsetup middle hmiddle hnext, h, Iff.rfl⟩
  rw [complete_eq hop]
  cases op with
  | resolve host port promise =>
    simpa [handle, onResolve, hec] using hstart _ (.connect promise) (effect_refl _) rfl
  | sslHandshake promise =>
    simpa [handle, onSslHandshake, hec] using hstart _ (.handshake _ _ promise) (effect_refl _) rfl
  | connect promise =>
    have hhost : ∀ sslHost, Effect (handling c i) { handling c i with mSslHost := sslHost } []
        (link (handling c i)) := fun sslHost => effect_of_eq _ _ rfl rfl rfl
    simp only [handle, onConnect, hec, Bool.false_eq_true, if_false]
    split
    · exact hcrash .nullStream
    · split
      · exact hcrash .hostName
      · exact hstart _ _ (hhost _) rfl
    · exact hstart _ _ (hhost _) rfl
  | handshake host target promise => exact absurd rfl (hhandshake host target promise)
  | post | write | read | wait | ping | close => cases hsetup

lemma guarded_quiet (h : (link c).Phase) (hop : c.pending[i]? = some op) (ec : Bool)
    (next : Operation Message) (hsame : ∀ v : Link, v.start next = v.start op)
    (hsetup : isSetup op = false) (hclose : isClose op = false)
    (middle : WebsocketClient Message) {c' : WebsocketClient Message}
    (hmiddle : Effect (handling c i) middle [] (link (handling c i)))
    (hc' : c' = if !(handling c i).mConnected then handling c i
      else if ec then (handling c i).disconnect else middle.start next) :
    ∃ v, Effect c c' [] v ∧ v.Phase ∧ (v.Live ↔ (link c).Live) := by
  have hlink := link_handling hop
  have hconnected : (link (handling c i)).connected = (link c).connected := by rw [← hlink]; rfl
  have hsetups : (link (handling c i)).setups = (link c).setups := by
    rw [← hlink, Link.start, hsetup]
    rfl
  have hcloses : (link (handling c i)).closes = (link c).closes := by
    rw [← hlink, Link.start, hclose]
    rfl
  have heffect := effect_handling (effect_guarded (handling c i) ec next middle hmiddle)
  rw [← hc', hsame, hlink] at heffect
  refine ⟨_, heffect, ?_⟩
  cases hconn : (handling c i).mConnected with
  | false =>
    have hunconnected : (link c).connected = false := hconnected.symm.trans hconn
    refine ⟨phase_of_unconnected h hunconnected hconnected hsetups hcloses, ?_⟩
    simp only [Bool.false_eq_true, if_false, Link.Live, hconnected, hcloses]
  | true =>
    cases ec with
    | false => exact ⟨h, Iff.rfl⟩
    | true => exact closing_of_connected h (hconnected.symm.trans hconn) hsetups hcloses

lemma write_quiet (h : (link c).Phase) {message : Message} (hop : c.pending[i]? = some (.write message))
    {completion : Completion Message} (hfails : ¬ Fails c completion (.write message)) :
    ∃ v, Effect c (c.complete i completion) [] v ∧ v.Phase ∧ (v.Live ↔ (link c).Live) := by
  have hsame : link (handling c i) = link c := link_handling hop
  rw [complete_eq hop]
  cases hec : completion.ec with
  | true =>
    have hconnected : (handling c i).mConnected = true := by
      by_contra hno
      exact hfails ⟨hec, by simpa [handling] using hno⟩
    have hdisconnect := effect_handling (effect_disconnect_connected hconnected)
    rw [hsame] at hdisconnect
    obtain ⟨hphase, hlive⟩ := closing_of_connected h (hsame ▸ hconnected) rfl rfl
    refine ⟨_, ?_, hphase, hlive⟩
    simpa [handle, onWrite, hec] using hdisconnect
  | false =>
    have hwritten := effect_handling (effect_onWrite (handling c i))
    rw [hsame] at hwritten
    refine ⟨link c, ?_, h, Iff.rfl⟩
    simpa [handle, hec] using hwritten

lemma complete_quiet (h : (link c).Phase) (hop : c.pending[i]? = some op)
    {completion : Completion Message} (hfails : ¬ Fails c completion op)
    (hhandshake : ∀ host target promise, op ≠ .handshake host target promise)
    (hclose : ∀ promise, op ≠ .close promise) :
    ∃ v, Effect c (c.complete i completion) [] v ∧ v.Phase ∧ (v.Live ↔ (link c).Live) := by
  cases op with
  | resolve | connect | sslHandshake | handshake =>
    exact complete_setup_quiet h hop rfl (by simpa [Fails] using hfails) hhandshake
  | close promise => exact absurd rfl (hclose promise)
  | post message =>
    rw [complete_eq hop]
    have hsame : link (handling c i) = link c := link_handling hop
    have heffect := effect_handling (effect_write (handling c i) message)
    rw [hsame] at heffect
    exact ⟨_, heffect, h, Iff.rfl⟩
  | read =>
    rw [complete_eq hop]
    refine guarded_quiet h hop completion.ec .read (fun _ => rfl) rfl rfl _ ?_ rfl
    cases completion.received with
    | none => exact effect_refl _
    | some message => exact effect_call _ (.onMessage message)
  | wait =>
    rw [complete_eq hop]
    exact guarded_quiet h hop completion.ec .ping (fun _ => rfl) rfl rfl _ (effect_refl _) rfl
  | ping =>
    rw [complete_eq hop]
    exact guarded_quiet h hop completion.ec .wait (fun _ => rfl) rfl rfl _ (effect_refl _) rfl
  | write message => exact write_quiet h hop hfails

lemma pending_complete_iff (h : (link c).Phase) {completion : Completion Message}
    (hfails : ∀ op, c.pending[i]? = some op → ¬ Fails c completion op) :
    (c.complete i completion).pending ≠ [] ↔
      c.pending.eraseIdx i ≠ [] ∨ ∃ op, c.pending[i]? = some op ∧ Continues c completion op := by
  cases hop : c.pending[i]? with
  | none =>
    rw [complete_nothing hop, List.eraseIdx_of_length_le (List.getElem?_eq_none_iff.1 hop)]
    simp
  | some op =>
    have hclose : ∀ promise, op = .close promise → c.mConnected = false := by
      rintro promise rfl
      obtain ⟨-, -, -, -, -, hunconnected⟩ := complete_closes h hop completion
      exact hunconnected
    obtain ⟨new, hpending, hnew⟩ : Starts (handling c i) ((handling c i).handle completion op)
        (Continues (handling c i) completion op) := starts_handle (hfails op hop) hclose
    have hone : (∃ op', some op = some op' ∧ Continues c completion op') ↔ new ≠ [] := by
      rw [hnew]
      exact ⟨fun ⟨op', heq, hmore⟩ => (Option.some_inj.1 heq) ▸ hmore, fun hmore => ⟨op, rfl, hmore⟩⟩
    rw [complete_eq hop, hpending, hone, ne_eq, List.append_eq_nil_iff, not_and_or]
    rfl

end

end RenderStudioKit.Proofs
