import RenderStudioKit.Model.WorkspaceConnection
import RenderStudioKit.Proofs.ClientFutures

/-!
# The calls of the workspace

`Workspace::Connect` and `Workspace::Disconnect` replace the client of the workspace and the task that
pings it. Whatever the clients' operations and the worker of the task do in between, there is one
connection at a time, and no call waits for a future that nobody satisfies.
-/

namespace RenderStudioKit.Proofs.WorkspaceCalls

open WebsocketClient

section

variable {Message : Type} {c c' c'' : WebsocketClient Message}

/-- The stream stays, promises are only added, and nothing but a promise that is satisfied twice ends
the process. -/
structure Onward (c c' : WebsocketClient Message) : Prop where
  stream : c'.mWebsocketStream = c.mWebsocketStream
  promises : c.promises.length ≤ c'.promises.length
  crash : c'.crash = c.crash ∨ c'.crash = some .promiseAlreadySatisfied

namespace Onward

lemma refl (c : WebsocketClient Message) : Onward c c := ⟨rfl, Nat.le_refl _, .inl rfl⟩

lemma trans (h : Onward c c') (h' : Onward c' c'') : Onward c c'' := by
  refine ⟨h'.stream.trans h.stream, Nat.le_trans h.promises h'.promises, ?_⟩
  cases h'.crash with
  | inl hsame => exact hsame ▸ h.crash
  | inr hcrash => exact .inr hcrash

lemma start (h : Onward c c') (operation : Operation Message) : Onward c (c'.start operation) :=
  h.trans ⟨rfl, Nat.le_refl _, .inl rfl⟩

lemma call (h : Onward c c') (callback : ClientCallback Message) : Onward c (c'.call callback) :=
  h.trans ⟨rfl, Nat.le_refl _, .inl rfl⟩

lemma setValue (h : Onward c c') (promise : Nat) (value : Bool) :
    Onward c (c'.setValue promise value) := by
  apply h.trans
  unfold WebsocketClient.setValue
  split
  · exact ⟨rfl, by simp, .inl rfl⟩
  · exact ⟨rfl, Nat.le_refl _, .inr rfl⟩

lemma disconnect (h : Onward c c') : Onward c c'.disconnect := by
  apply h.trans
  have hpromised : Onward c' { c' with promises := c'.promises ++ [none] } :=
    ⟨rfl, by simp, .inl rfl⟩
  unfold WebsocketClient.disconnect
  dsimp only
  split_ifs
  · exact (hpromised.start (.close c'.promises.length)).trans ⟨rfl, Nat.le_refl _, .inl rfl⟩
  · exact ((hpromised.call .onDisconnected).setValue c'.promises.length true).trans
      ⟨rfl, Nat.le_refl _, .inl rfl⟩

lemma writeBack (h : Onward c c') : Onward c c'.writeBack := by
  unfold WebsocketClient.writeBack
  split
  · exact h
  · exact h.start _

lemma write (c : WebsocketClient Message) (message : Message) : Onward c (c.write message) := by
  have hqueued : Onward c { c with mWriteQueue := c.mWriteQueue ++ [message] } :=
    ⟨rfl, Nat.le_refl _, .inl rfl⟩
  unfold WebsocketClient.write
  dsimp only
  split_ifs
  · exact hqueued
  · exact hqueued
  · exact hqueued.writeBack

lemma onWrite (c : WebsocketClient Message) (ec : Bool) : Onward c (c.onWrite ec) := by
  have hpopped : Onward c { c with mWriteQueue := c.mWriteQueue.tail } :=
    ⟨rfl, Nat.le_refl _, .inl rfl⟩
  unfold WebsocketClient.onWrite
  dsimp only
  split_ifs
  · exact (refl c).disconnect
  · exact hpopped.writeBack
  · exact hpopped

lemma guarded (h : Onward c c') (ec : Bool) :
    Onward c (if !c.mConnected then c else if ec then c.disconnect else c') := by
  split_ifs
  · exact refl c
  · exact (refl c).disconnect
  · exact h

lemma onRead (c : WebsocketClient Message) (ec : Bool) (received : Option Message) :
    Onward c (c.onRead ec received) := by
  apply guarded
  cases received with
  | none => exact (refl c).start _
  | some message => exact ((refl c).call _).start _

lemma onSetup (h : Onward c c') (promise : Nat) (ec : Bool) :
    Onward c (if ec then (c.setValue promise false).disconnect else c') := by
  split_ifs
  · exact ((refl c).setValue promise false).disconnect
  · exact h

lemma onConnect (hstream : c.mWebsocketStream = some .tcp) (promise : Nat) (ec : Bool) (port : Nat)
    (hostNameSet : Bool) : Onward c (c.onConnect promise ec port hostNameSet) := by
  have hnamed : ∀ sslHost, Onward c { c with mSslHost := sslHost } :=
    fun _ => ⟨rfl, Nat.le_refl _, .inl rfl⟩
  apply onSetup
  dsimp only
  split
  · next hnone => exact absurd (hstream.symm.trans hnone) (by simp)
  · next hssl => exact absurd (hstream.symm.trans hssl) (by simp)
  · exact (hnamed _).start _

lemma onHandshake (c : WebsocketClient Message) (promise : Nat) (ec : Bool) :
    Onward c (c.onHandshake promise ec) := by
  have hconnected : Onward c { c with mConnected := true } := ⟨rfl, Nat.le_refl _, .inl rfl⟩
  have htold := (hconnected.call .onConnected).setValue promise true
  exact onSetup ((htold.trans (guarded ((refl _).start .wait) false)).trans (onRead _ false none))
    promise ec

lemma onClose (c : WebsocketClient Message) (promise : Nat) (ec : Bool) :
    Onward c (c.onClose promise ec) := by
  have htold := (refl c).call .onDisconnected
  unfold WebsocketClient.onClose
  dsimp only
  split_ifs
  · exact htold.setValue promise true
  · exact (htold.setValue promise false).disconnect
  · exact htold

lemma send (hstream : c.mWebsocketStream = some .tcp) (message : Message) :
    Onward c (c.send message) := by
  rw [WebsocketClient.send, hstream]
  exact (refl c).start _

lemma complete (hstream : c.mWebsocketStream = some .tcp) (i : Nat) (completion : Completion Message) :
    Onward c (c.complete i completion) := by
  cases hop : c.pending[i]? with
  | none =>
    rw [complete_nothing hop]
    exact refl c
  | some op =>
    have hhandling : Onward c (handling c i) := ⟨rfl, Nat.le_refl _, .inl rfl⟩
    rw [complete_eq hop]
    apply hhandling.trans
    cases op with
    | post message => exact write _ message
    | resolve host port promise => exact onSetup ((refl _).start _) promise completion.ec
    | connect promise =>
      exact onConnect (c := handling c i) hstream promise completion.ec completion.port
        completion.hostNameSet
    | sslHandshake promise => exact onSetup ((refl _).start _) promise completion.ec
    | handshake host target promise => exact onHandshake _ promise completion.ec
    | write message => exact onWrite _ completion.ec
    | read => exact onRead _ completion.ec completion.received
    | wait => exact guarded ((refl _).start _) completion.ec
    | ping => exact guarded ((refl _).start _) completion.ec
    | close promise => exact onClose _ promise completion.ec

end Onward

/-- The connection phase is over. -/
def Settled (c : WebsocketClient Message) : Prop := (link c).setups = 0

/-- The client is not connected, and will not be. -/
def Spent (c : WebsocketClient Message) : Prop := Settled c ∧ c.mConnected = false

/-- What completes after the connection phase does not connect the client. -/
lemma settled_complete (hphase : (link c).Phase) (hsettled : Settled c) (i : Nat)
    (completion : Completion Message) : Settled (c.complete i completion) ∧
      ((c.complete i completion).mConnected = true → c.mConnected = true) := by
  cases hop : c.pending[i]? with
  | none =>
    rw [complete_nothing hop]
    exact ⟨hsettled, id⟩
  | some op =>
    have hlink := link_handling hop
    have hsetups : (link (handling c i)).setups + (if isSetup op then 1 else 0) = 0 :=
      (congrArg Link.setups hlink).trans hsettled
    obtain ⟨hzero, hsetup⟩ : (link (handling c i)).setups = 0 ∧ isSetup op = false := by
      simpa using hsetups
    -- each handler leaves the link as it found it, or closes the connection
    have hleaves : ∀ {c' told v}, Effect (handling c i) c' told v →
        v.setups = (link (handling c i)).setups →
        (v.connected = true → (link (handling c i)).connected = true) →
        Settled c' ∧ (c'.mConnected = true → c.mConnected = true) := by
      intro c' told v heffect hsame hconnected
      obtain rfl := heffect.2
      exact ⟨hsame.trans hzero, hconnected⟩
    have hguarded : ∀ (ec : Bool) (next : Operation Message) (middle : WebsocketClient Message),
        isSetup next = false → Effect (handling c i) middle [] (link (handling c i)) →
        ∀ c', c' = (if !(handling c i).mConnected then handling c i
          else if ec then (handling c i).disconnect else middle.start next) →
        Settled c' ∧ (c'.mConnected = true → c.mConnected = true) := by
      rintro ec next middle hnext hmiddle _ rfl
      refine hleaves (effect_guarded (handling c i) ec next middle hmiddle) ?_ ?_
      · split_ifs
        · rfl
        · simp [Link.start, hnext]
        · rfl
      · intro hconnected
        split_ifs at hconnected with hwas
        · exact hwas
        · exact hconnected
    rw [complete_eq hop]
    cases op with
    | resolve | connect | sslHandshake | handshake => cases hsetup
    | post message => exact hleaves (effect_write _ message) rfl id
    | write message =>
      cases hec : completion.ec with
      | false => simpa only [handle, hec] using hleaves (effect_onWrite _) rfl id
      | true =>
        simp only [handle, onWrite, hec, if_true]
        cases hconnected : (handling c i).mConnected with
        | true => exact hleaves (effect_disconnect_connected hconnected) rfl (by simp)
        | false => exact hleaves (effect_disconnect_unconnected hconnected) rfl id
    | read =>
      refine hguarded completion.ec .read _ rfl ?_ _ rfl
      cases completion.received with
      | none => exact effect_refl _
      | some message => exact effect_call _ _
    | wait => exact hguarded completion.ec .ping _ rfl (effect_refl _) _ rfl
    | ping => exact hguarded completion.ec .wait _ rfl (effect_refl _) _ rfl
    | close promise =>
      obtain ⟨-, -, -, -, -, hdisconnected⟩ := complete_closes hphase hop completion
      exact hleaves (effect_onClose (c := handling c i) hdisconnected promise completion.ec) rfl id

lemma settled_disconnect (h : Settled c) : Spent c.disconnect := by
  cases hconnected : c.mConnected with
  | true =>
    have hlink := (effect_disconnect_connected hconnected).2
    exact ⟨(congrArg Link.setups hlink).trans h, congrArg Link.connected hlink⟩
  | false =>
    have hlink := (effect_disconnect_unconnected hconnected).2
    exact ⟨(congrArg Link.setups hlink).trans h, (congrArg Link.connected hlink).trans hconnected⟩

/-- Nothing has ended the process, and who is connected has told it. -/
structure Healthy (c : WebsocketClient Message) : Prop where
  phase : (link c).Phase
  futures : Futures c none
  stream : c.mWebsocketStream = some .tcp
  crash : c.crash = none
  told : (link c).Live → .onConnected ∈ c.callbacks

lemma mem_of_effect {told : List Bool} {v : Link} (h : Effect c c' told v)
    {callback : ClientCallback Message} (hmem : callback ∈ c.callbacks) : callback ∈ c'.callbacks := by
  obtain ⟨new, hnew, -⟩ := h.1
  exact hnew ▸ List.mem_append_left new hmem

lemma onConnected_of_effect {told : List Bool} {v : Link} (h : Effect c c' told v)
    (htrue : true ∈ told) : .onConnected ∈ c'.callbacks := by
  obtain ⟨new, hnew, rfl⟩ := h.1
  obtain ⟨callback, hmem, htold⟩ := List.mem_filterMap.1 htrue
  rw [hnew]
  apply List.mem_append_right
  cases callback with
  | onConnected => exact hmem
  | onDisconnected => cases htold
  | onMessage message => cases htold

namespace Healthy

lemma advance (h : Healthy c) {told : List Bool} {v : Link} (heffect : Effect c c' told v)
    (honward : Onward c c') (hfutures : Futures c' none) (hphase : v.Phase)
    (hlive : v.Live → (link c).Live ∨ true ∈ told) : Healthy c' := by
  refine ⟨heffect.2 ▸ hphase, hfutures, honward.stream.trans h.stream, ?_, ?_⟩
  · cases honward.crash with
    | inl hsame => exact hsame.trans h.crash
    | inr hcrash => exact absurd hcrash hfutures.crash
  · intro hlive'
    rw [heffect.2] at hlive'
    cases hlive hlive' with
    | inl hwas => exact mem_of_effect heffect (h.told hwas)
    | inr htrue => exact onConnected_of_effect heffect htrue

lemma connect {endpoint : Url} (hssl : endpoint.mSsl = false) :
    Healthy (({} : WebsocketClient Message).connect endpoint) := by
  obtain ⟨hphase, hfutures⟩ := @futures_connect Message endpoint
  refine ⟨hphase, hfutures, ?_, rfl, ?_⟩
  · simp [WebsocketClient.connect, WebsocketClient.start, hssl]
  · simp [link, Link.Live, WebsocketClient.connect, WebsocketClient.start, isClose]

lemma send (h : Healthy c) (message : Message) : Healthy (c.send message) :=
  h.advance (effect_send c message) (.send h.stream message) (h.futures.send message) h.phase .inl

lemma disconnect (h : Healthy c) : Healthy c.disconnect := by
  have hphase := phase_disconnect h.phase
  cases hconnected : c.mConnected with
  | true =>
    have heffect := effect_disconnect_connected hconnected
    exact h.advance heffect (Onward.refl c).disconnect h.futures.disconnect (heffect.2 ▸ hphase)
      fun _ => .inl (.inl hconnected)
  | false =>
    have heffect := effect_disconnect_unconnected hconnected
    exact h.advance heffect (Onward.refl c).disconnect h.futures.disconnect h.phase .inl

lemma complete (h : Healthy c) (i : Nat) (completion : Completion Message) :
    Healthy (c.complete i completion) := by
  obtain ⟨told, v, heffect, hphase, hlive⟩ := complete_effect h.phase i completion
  exact h.advance heffect (.complete h.stream i completion) (h.futures.complete h.phase i completion)
    hphase hlive

lemma settled (h : Healthy c) {value : Bool} (hvalue : c.promises[0]? = some (some value)) :
    Settled c := by
  by_contra hne
  obtain ⟨op, hmem, hsetup⟩ := List.countP_pos_iff.1 (Nat.pos_of_ne_zero hne)
  have hrightful := h.futures.rightful op hmem
  have hpromise : promiseOf op = some 0 := by
    cases op <;> first | exact congrArg some hrightful | cases hsetup
  have hcarried : 0 < carriers c 0 := List.countP_pos_iff.2 ⟨op, hmem, beq_iff_eq.2 hpromise⟩
  have hopen := h.futures.unsatisfied 0 (Nat.lt_of_lt_of_le hcarried (Nat.le_add_right _ _))
  simp [hvalue] at hopen

lemma settled_of_told (h : Healthy c) (htold : .onConnected ∈ c.callbacks) : Settled c :=
  h.settled (h.futures.opened.2 htold)

lemma spent_of_refused (h : Healthy c) (hvalue : c.promises[0]? = some (some false)) : Spent c := by
  refine ⟨h.settled hvalue, ?_⟩
  by_contra hne
  have htold := h.told (.inl (eq_true_of_ne_false hne))
  simp [h.futures.opened.2 htold] at hvalue

lemma spent_complete (h : Healthy c) (hspent : Spent c) (i : Nat) (completion : Completion Message) :
    Spent (c.complete i completion) := by
  obtain ⟨hsettled, hconnected⟩ := settled_complete h.phase hspent.1 i completion
  refine ⟨hsettled, Bool.eq_false_iff.2 fun htrue => ?_⟩
  exact absurd (hconnected htrue) (Bool.eq_false_iff.1 hspent.2)

lemma resolved (h : Healthy c) {promise : Nat} (hpromise : promise < c.promises.length) :
    (∃ value, c.promises[promise]? = some (some value)) ∨ carriers c promise = 1 := by
  cases hvalue : c.promises[promise] with
  | some value => exact .inl ⟨value, List.getElem?_eq_some_iff.2 ⟨hpromise, hvalue⟩⟩
  | none =>
    have hopen := List.getElem?_eq_some_iff.2 ⟨hpromise, hvalue⟩
    exact .inr ((h.futures.waits h.crash promise).1 hopen)

end Healthy

end

section

variable {s : WorkspaceConnection}

open WorkspaceConnection

/-- The call waits for the promise of a `Disconnect` of `sClient`. -/
def Leaves (s : WorkspaceConnection) (promise : Nat) : Prop :=
  s.sPingTask = some false ∧ ∃ c, s.sClient = some c ∧ Spent c ∧ promise < c.promises.length

/-- What a call relies on while it waits, and what the next call finds. -/
def Stage (s : WorkspaceConnection) : Option WorkspaceCall → Prop
  | none => ∀ c, s.sClient = some c → Settled c
  | some (.stoppingTask _) => s.sPingTask = some true
  | some .stopping => s.sPingTask = some true
  | some (.replacingClient _ promise) => Leaves s promise
  | some (.leavingFailed promise) => Leaves s promise
  | some (.disconnecting promise) => Leaves s promise
  | some .joining => s.sPingTask = some false ∧ s.clients ≠ []
  | some (.attempting _) => s.sPingTask = some false ∧ s.clients ≠ []

/-- The clients before `sClient` do not connect any more. -/
structure Clients (s : WorkspaceConnection) : Prop where
  crashed : s.crashed = false
  healthy : ∀ c ∈ s.clients, Healthy c
  earlier : ∀ c ∈ s.clients.dropLast, Spent c

/-- A worker runs only for a client that was connected, and there is no client without a task. -/
structure Safe (s : WorkspaceConnection) : Prop extends Clients s where
  task : s.sPingTask = none → s.clients = []
  worker : s.sPingTask = some true → ∃ c, s.sClient = some c ∧ .onConnected ∈ c.callbacks
  stage : Stage s s.call

/-- A new client may be created. -/
structure Ready (s : WorkspaceConnection) : Prop where
  crashed : s.crashed = false
  healthy : ∀ c ∈ s.clients, Healthy c
  spent : ∀ c ∈ s.clients, Spent c
  task : s.sPingTask = some false

lemma sClient_mem {c : WebsocketClient String} (h : s.sClient = some c) : c ∈ s.clients :=
  List.mem_of_getLast? h

lemma sClient_eq_none : s.sClient = none ↔ s.clients = [] := List.getLast?_eq_none_iff

lemma forall_modify {α : Type} {P : α → Prop} {l : List α} {f : α → α} (i : Nat)
    (h : ∀ c ∈ l, P c) (hf : ∀ c ∈ l, P (f c)) : ∀ c ∈ l.modify i f, P c := by
  intro c hc
  obtain ⟨k, hk⟩ := List.mem_iff_getElem?.1 hc
  rw [List.getElem?_modify] at hk
  obtain ⟨a, ha, rfl⟩ := Option.map_eq_some_iff.1 hk
  have hmem := List.mem_of_getElem? ha
  split_ifs
  · exact hf a hmem
  · exact h a hmem

lemma dropLast_modify {α : Type} (l : List α) (i : Nat) (f : α → α) :
    (l.modify i f).dropLast = l.dropLast.modify i f := by
  rw [List.dropLast_eq_take, List.dropLast_eq_take, List.take_modify, List.length_modify]

lemma getLast?_modify {α : Type} (l : List α) (i : Nat) (f : α → α) :
    (l.modify i f).getLast? = l.getLast?.map fun c => if i = l.length - 1 then f c else c := by
  rw [List.getLast?_eq_getElem?, List.getLast?_eq_getElem?, List.length_modify, List.getElem?_modify]
  rfl

/-- What a member of a client keeps for the calls of the workspace. -/
structure Keeps (f : WebsocketClient String → WebsocketClient String) : Prop where
  healthy : ∀ c, Healthy c → Healthy (f c)
  settled : ∀ c, Healthy c → Settled c → Settled (f c)
  spent : ∀ c, Healthy c → Spent c → Spent (f c)
  promises : ∀ c, Healthy c → c.promises.length ≤ (f c).promises.length
  callbacks : ∀ c, Healthy c → .onConnected ∈ c.callbacks → .onConnected ∈ (f c).callbacks

lemma keeps_send (text : String) : Keeps fun c => c.send text := by
  have hlink : ∀ c : WebsocketClient String, link (c.send text) = link c :=
    fun c => (effect_send c text).2
  refine ⟨?_, ?_, ?_, ?_, ?_⟩
  · exact fun c h => h.send text
  · exact fun c _ hsettled => (congrArg Link.setups (hlink c)).trans hsettled
  · exact fun c _ hspent => ⟨(congrArg Link.setups (hlink c)).trans hspent.1,
      (congrArg Link.connected (hlink c)).trans hspent.2⟩
  · exact fun c h => (Onward.send h.stream text).promises
  · exact fun c _ htold => mem_of_effect (effect_send c text) htold

lemma keeps_complete (i : Nat) (completion : Completion String) :
    Keeps fun c => c.complete i completion := by
  refine ⟨?_, ?_, ?_, ?_, ?_⟩
  · exact fun c h => h.complete i completion
  · exact fun c h hsettled => (settled_complete h.phase hsettled i completion).1
  · exact fun c h hspent => h.spent_complete hspent i completion
  · exact fun c h => (Onward.complete h.stream i completion).promises
  · intro c h htold
    obtain ⟨told, v, heffect, -⟩ := complete_effect h.phase i completion
    exact mem_of_effect heffect htold

lemma keeps_disconnect : Keeps disconnect := by
  refine ⟨?_, ?_, ?_, ?_, ?_⟩
  · exact fun c h => h.disconnect
  · exact fun c _ hsettled => (settled_disconnect hsettled).1
  · exact fun c _ hspent => settled_disconnect hspent.1
  · exact fun c _ => (Onward.refl c).disconnect.promises
  · intro c _ htold
    cases hconnected : c.mConnected with
    | true => exact mem_of_effect (effect_disconnect_connected hconnected) htold
    | false => exact mem_of_effect (effect_disconnect_unconnected hconnected) htold

lemma Keeps.ite {f : WebsocketClient String → WebsocketClient String} (h : Keeps f) (called : Prop)
    [Decidable called] : Keeps fun c => if called then f c else c := by
  split_ifs
  · exact h
  · exact ⟨fun _ h => h, fun _ _ h => h, fun _ _ h => h, fun _ _ => Nat.le_refl _, fun _ _ h => h⟩

section

variable {f : WebsocketClient String → WebsocketClient String}

lemma Clients.modify (h : Clients s) (hf : Keeps f) (i : Nat) :
    Clients { s with clients := s.clients.modify i f } := by
  refine ⟨h.crashed, forall_modify i h.healthy fun c hc => hf.healthy c (h.healthy c hc), ?_⟩
  rw [dropLast_modify]
  exact forall_modify i h.earlier fun c hc =>
    hf.spent c (h.healthy c (List.dropLast_subset _ hc)) (h.earlier c hc)

lemma Leaves.modify (h : Clients s) (hf : Keeps f) (i : Nat) {promise : Nat}
    (hleaves : Leaves s promise) : Leaves { s with clients := s.clients.modify i f } promise := by
  obtain ⟨htask, c, hc, hspent, hpromise⟩ := hleaves
  have hhealthy := h.healthy c (sClient_mem hc)
  have hkeeps := hf.ite (i = s.clients.length - 1)
  refine ⟨htask, _, (getLast?_modify _ i f).trans (congrArg _ hc), hkeeps.spent c hhealthy hspent, ?_⟩
  exact Nat.lt_of_lt_of_le hpromise (hkeeps.promises c hhealthy)

lemma Stage.modify (h : Clients s) (hf : Keeps f) (i : Nat) {call : Option WorkspaceCall}
    (hstage : Stage s call) : Stage { s with clients := s.clients.modify i f } call := by
  cases call with
  | none =>
    intro c' hc'
    obtain ⟨c, hc, rfl⟩ := Option.map_eq_some_iff.1 ((getLast?_modify _ i f).symm.trans hc')
    exact (hf.ite _).settled c (h.healthy c (sClient_mem hc)) (hstage c hc)
  | some call =>
    cases call with
    | stoppingTask role => exact hstage
    | replacingClient role promise => exact Leaves.modify h hf i hstage
    | joining => exact ⟨hstage.1, fun hnil => hstage.2 (List.modify_eq_nil_iff.1 hnil)⟩
    | leavingFailed promise => exact Leaves.modify h hf i hstage
    | attempting attempt => exact ⟨hstage.1, fun hnil => hstage.2 (List.modify_eq_nil_iff.1 hnil)⟩
    | stopping => exact hstage
    | disconnecting promise => exact Leaves.modify h hf i hstage

lemma Safe.modify (h : Safe s) (hf : Keeps f) (i : Nat) :
    Safe { s with clients := s.clients.modify i f } := by
  refine ⟨h.toClients.modify hf i, ?_, ?_, h.stage.modify h.toClients hf i⟩
  · exact fun htask => List.modify_eq_nil_iff.2 (h.task htask)
  · intro htask
    obtain ⟨c, hc, htold⟩ := h.worker htask
    exact ⟨_, (getLast?_modify _ i f).trans (congrArg _ hc),
      (hf.ite _).callbacks c (h.healthy c (sClient_mem hc)) htold⟩

end

lemma promises_disconnect {Message : Type} (c : WebsocketClient Message) :
    c.promises.length < c.disconnect.promises.length := by
  have hpromised : c.promises.length < (c.promises ++ [none]).length := by simp
  unfold WebsocketClient.disconnect
  dsimp only
  split_ifs
  · exact hpromised
  · have honward := Onward.refl { c with promises := c.promises ++ [none] }
    exact Nat.lt_of_lt_of_le hpromised
      ((honward.call .onDisconnected).setValue c.promises.length true).promises

lemma future_eq {promise : Nat} {value : Bool} (h : s.future promise = some value) :
    ∃ c, s.sClient = some c ∧ c.promises[promise]? = some (some value) := by
  obtain ⟨c, hc, hvalue⟩ := Option.bind_eq_some_iff.1 (Option.join_eq_some_iff.1 h)
  exact ⟨c, hc, hvalue⟩

lemma Clients.disconnectClient (h : Clients s) {c : WebsocketClient String}
    (hc : s.sClient = some c) (hsettled : Settled c) (htask : s.sPingTask = some false)
    {call : Nat → WorkspaceCall} (hcall : ∀ t promise, Leaves t promise → Stage t (some (call promise))) :
    Safe (s.disconnectClient c call) := by
  obtain ⟨hcrashed, hhealthy, hearlier⟩ := h.modify keeps_disconnect (s.clients.length - 1)
  refine ⟨⟨hcrashed, hhealthy, hearlier⟩, ?_, ?_, ?_⟩
  · intro hnone
    cases htask.symm.trans hnone
  · intro htrue
    cases htask.symm.trans htrue
  · apply hcall
    refine ⟨htask, c.disconnect, ?_, settled_disconnect hsettled, promises_disconnect c⟩
    refine (getLast?_modify _ _ _).trans ?_
    rw [show s.clients.getLast? = some c from hc, Option.map_some, if_pos rfl]

lemma Clients.ready (h : Clients s) (htask : s.sPingTask = some false)
    (hspent : ∀ c, s.sClient = some c → Spent c) : Ready s := by
  refine ⟨h.crashed, h.healthy, ?_, htask⟩
  cases hc : s.sClient with
  | none => simp [sClient_eq_none.1 hc]
  | some c =>
    have hclients : s.clients.dropLast ++ [c] = s.clients := List.dropLast_append_getLast? c hc
    intro c' hc'
    rw [← hclients] at hc'
    cases List.mem_append.1 hc' with
    | inl hearlier => exact h.earlier c' hearlier
    | inr hlast =>
      rw [List.mem_singleton.1 hlast]
      exact hspent c hc

lemma Leaves.ready {promise : Nat} (hleaves : Leaves s promise) (h : Clients s) : Ready s := by
  obtain ⟨htask, c, hc, hspent, -⟩ := hleaves
  apply h.ready htask
  rintro c' hc'
  rw [Option.some_inj.1 (hc'.symm.trans hc)]
  exact hspent

lemma Clients.ready_of_refused (h : Clients s) (htask : s.sPingTask = some false)
    (hfuture : s.future 0 = some false) : Ready s := by
  obtain ⟨c, hc, hvalue⟩ := future_eq hfuture
  apply h.ready htask
  rintro c' hc'
  rw [Option.some_inj.1 (hc'.symm.trans hc)]
  exact (h.healthy c (sClient_mem hc)).spent_of_refused hvalue

lemma Clients.startTask (h : Clients s) (hfuture : s.future 0 = some true) : Safe s.startTask := by
  obtain ⟨c, hc, hvalue⟩ := future_eq hfuture
  have hhealthy := h.healthy c (sClient_mem hc)
  refine ⟨⟨h.crashed, h.healthy, h.earlier⟩, ?_, ?_, ?_⟩
  · intro hnone
    cases hnone
  · exact fun _ => ⟨c, hc, hhealthy.futures.opened.1 hvalue⟩
  · rintro c' hc'
    rw [Option.some_inj.1 (hc'.symm.trans hc)]
    exact hhealthy.settled hvalue

namespace Ready

lemma clients (h : Ready s) : Clients s :=
  ⟨h.crashed, h.healthy, fun c hc => h.spent c (List.dropLast_subset _ hc)⟩

lemma returned (h : Ready s) : Safe s.returned := by
  refine ⟨⟨h.crashed, h.healthy, h.clients.earlier⟩, ?_, ?_, ?_⟩
  · intro hnone
    cases h.task.symm.trans hnone
  · intro htrue
    cases h.task.symm.trans htrue
  · exact fun c hc => (h.spent c (sClient_mem hc)).1

lemma createClient (h : Ready s) {call : WorkspaceCall}
    (hcall : ∀ t : WorkspaceConnection, t.sPingTask = some false ∧ t.clients ≠ [] →
      Stage t (some call)) : Safe (s.createClient call) := by
  refine ⟨⟨h.crashed, ?_, ?_⟩, ?_, ?_, hcall _ ⟨h.task, by simp [WorkspaceConnection.createClient]⟩⟩
  · intro c hc
    cases List.mem_append.1 hc with
    | inl hold => exact h.healthy c hold
    | inr hnew =>
      rw [List.mem_singleton.1 hnew]
      exact .connect rfl
  · intro c hc
    rw [WorkspaceConnection.createClient, List.dropLast_concat] at hc
    exact h.spent c hc
  · intro hnone
    cases h.task.symm.trans hnone
  · intro htrue
    cases h.task.symm.trans htrue

lemma launch (h : Ready s) (answers : WorkspaceAnswers) : Safe (s.launch answers) := by
  unfold WorkspaceConnection.launch
  split_ifs
  · exact h.returned
  · have hlaunched : Ready { s with launched := s.launched + 1 } :=
      ⟨h.crashed, h.healthy, h.spent, h.task⟩
    dsimp only
    split
    · next c hc =>
      exact hlaunched.clients.disconnectClient hc (h.spent c (sClient_mem hc)).1 h.task
        fun _ _ hleaves => hleaves
    · exact hlaunched.createClient fun _ hstage => hstage

lemma guards (h : Ready s) (role : Role) (answers : WorkspaceAnswers) :
    Safe (s.guards role answers) := by
  unfold WorkspaceConnection.guards
  split_ifs
  · exact h.returned
  · exact h.returned
  · exact h.createClient fun _ hstage => hstage
  · exact h.launch answers

end Ready

lemma Clients.replaceTask (h : Clients s) : Clients { s with sPingTask := some false } :=
  ⟨h.crashed, h.healthy, h.earlier⟩

lemma Clients.replaceClient (h : Clients s) (hsettled : ∀ c, s.sClient = some c → Settled c)
    (role : Role) (answers : WorkspaceAnswers) : Safe (s.replaceClient role answers) := by
  unfold WorkspaceConnection.replaceClient
  dsimp only
  split
  · next c hc =>
    exact h.replaceTask.disconnectClient hc (hsettled c hc) rfl fun _ _ hleaves => hleaves
  · next hnone =>
    refine (h.replaceTask.ready rfl fun c hc => ?_).guards role answers
    cases hnone.symm.trans hc

lemma Clients.leave (h : Clients s) (hsettled : ∀ c, s.sClient = some c → Settled c)
    (hclients : s.clients ≠ []) : Safe s.leave := by
  unfold WorkspaceConnection.leave
  dsimp only
  split
  · next c hc =>
    exact h.replaceTask.disconnectClient hc (hsettled c hc) rfl fun _ _ hleaves => hleaves
  · next hnone => exact absurd (sClient_eq_none.1 hnone) hclients

lemma Clients.settled_of_worker (h : Clients s)
    (hworker : ∃ c, s.sClient = some c ∧ .onConnected ∈ c.callbacks) :
    ∀ c, s.sClient = some c → Settled c := by
  obtain ⟨c, hc, htold⟩ := hworker
  intro c' hc'
  rw [Option.some_inj.1 (hc'.symm.trans hc)]
  exact (h.healthy c (sClient_mem hc)).settled_of_told htold

lemma Safe.connect (h : Safe s) (hcall : s.call = none) (role : Role) (answers : WorkspaceAnswers) :
    Safe (s.connect role answers) := by
  have hsettled : Stage s none := hcall ▸ h.stage
  unfold WorkspaceConnection.connect
  split
  · next hworker => exact ⟨⟨h.crashed, h.healthy, h.earlier⟩, h.task, h.worker, hworker⟩
  · exact h.replaceClient hsettled role answers

lemma Safe.disconnect (h : Safe s) (hcall : s.call = none) (hclients : s.clients ≠ []) :
    Safe s.disconnect := by
  have hsettled : Stage s none := hcall ▸ h.stage
  unfold WorkspaceConnection.disconnect
  split
  · next hnone => exact absurd (h.task hnone) hclients
  · next hworker => exact ⟨⟨h.crashed, h.healthy, h.earlier⟩, h.task, h.worker, hworker⟩
  · exact h.leave hsettled hclients

/-- Whatever a call waits for, it goes on from there. -/
lemma Safe.proceed (h : Safe s) (answers : WorkspaceAnswers) : Safe (s.proceed answers) := by
  have hstage := h.stage
  unfold WorkspaceConnection.proceed
  cases hcall : s.call with
  | none => exact h
  | some call =>
    rw [hcall] at hstage
    cases call with
    | stoppingTask role =>
      exact h.replaceClient (h.settled_of_worker (h.worker hstage)) role answers
    | replacingClient role promise =>
      dsimp only
      split_ifs
      · exact (Leaves.ready hstage h.toClients).guards role answers
      · exact h
    | joining =>
      dsimp only
      split
      · exact h
      · next hfuture => exact h.startTask hfuture
      · next hfuture => exact (h.ready_of_refused hstage.1 hfuture).launch answers
    | leavingFailed promise =>
      dsimp only
      split_ifs
      · exact (Leaves.ready hstage h.toClients).createClient fun _ hstage => hstage
      · exact h
    | attempting attempt =>
      dsimp only
      split
      · exact h
      · next hfuture => exact h.startTask hfuture
      · next hfuture =>
        have hready := h.ready_of_refused hstage.1 hfuture
        split_ifs
        · exact hready.createClient fun _ hstage => hstage
        · exact hready.returned
    | stopping =>
      obtain ⟨c, hc, -⟩ := h.worker hstage
      exact h.leave (h.settled_of_worker (h.worker hstage)) (List.ne_nil_of_mem (sClient_mem hc))
    | disconnecting promise =>
      dsimp only
      split_ifs
      · obtain ⟨hcrashed, hhealthy, hearlier⟩ := (Leaves.ready hstage h.toClients).clients
        exact ⟨⟨hcrashed, hhealthy, hearlier⟩, h.task, h.worker,
          fun c hc => ((Leaves.ready hstage h.toClients).spent c (sClient_mem hc)).1⟩
      · exact h

/-- `Workspace::Disconnect` is not called before there is a client. -/
def Admitted (s : WorkspaceConnection) (step : WorkspaceStep) : Prop :=
  step = .disconnect → s.call = none → s.clients ≠ []

lemma Safe.perform (h : Safe s) {step : WorkspaceStep} (hadmitted : Admitted s step) :
    Safe (s.perform step) := by
  unfold WorkspaceConnection.perform
  rw [if_neg (Bool.eq_false_iff.1 h.crashed)]
  cases step with
  | setWorkspaceUrl url =>
    dsimp only
    split_ifs
    · exact h
    · exact ⟨⟨h.crashed, h.healthy, h.earlier⟩, h.task, h.worker, h.stage⟩
  | connect role answers =>
    dsimp only
    split_ifs with hcall
    · exact h
    · exact h.connect (Option.not_isSome_iff_eq_none.1 hcall) role answers
  | disconnect =>
    dsimp only
    split_ifs with hcall
    · exact h
    · have hnone := Option.not_isSome_iff_eq_none.1 hcall
      exact h.disconnect hnone (hadmitted rfl hnone)
  | send text =>
    dsimp only
    split_ifs
    · exact h
    · exact h.modify (keeps_send text) _
  | proceed answers => exact h.proceed answers
  | ping =>
    dsimp only
    split_ifs with hworker
    · obtain ⟨c, hc, -⟩ := h.worker hworker
      simp only [hc]
      exact h.modify (keeps_send "ping") _
    · exact h
  | complete client i completion => exact h.modify (keeps_complete i completion) client

lemma Safe.crashes (h : Safe s) {step : WorkspaceStep} (hadmitted : ¬ Admitted s step) :
    (s.perform step).crashed = true := by
  unfold Admitted at hadmitted
  push Not at hadmitted
  obtain ⟨rfl, hcall, hclients⟩ := hadmitted
  have hnone := sClient_eq_none.2 hclients
  unfold WorkspaceConnection.perform
  rw [if_neg (Bool.eq_false_iff.1 h.crashed)]
  simp only [hcall, Option.isSome_none, Bool.false_eq_true, if_false]
  unfold WorkspaceConnection.disconnect
  split
  · rfl
  · next hworker =>
    obtain ⟨c, hc, -⟩ := h.worker hworker
    cases hnone.symm.trans hc
  · unfold WorkspaceConnection.leave
    dsimp only
    split
    · next c hc => cases hnone.symm.trans hc
    · rfl

/-- The promise of `sClient` whose future a call waits for. -/
def waitsFor : WorkspaceCall → Option Nat
  | .replacingClient _ promise => some promise
  | .joining => some 0
  | .leavingFailed promise => some promise
  | .attempting _ => some 0
  | .disconnecting promise => some promise
  | _ => none

/-- Nothing has ended the process, at most the last client is connected and is pinged only after it
was, and the future that a call waits for has its value or is that of one pending operation. -/
structure Sound (s : WorkspaceConnection) : Prop where
  crashed : s.crashed = false
  clients : ∀ c ∈ s.clients, c.crash = none
  earlier : ∀ c ∈ s.clients.dropLast, c.mConnected = false
  worker : s.sPingTask = some true → ∃ c, s.sClient = some c ∧ .onConnected ∈ c.callbacks
  waits : ∀ call promise, s.call = some call → waitsFor call = some promise →
    ∃ c, s.sClient = some c ∧
      ((∃ value, c.promises[promise]? = some (some value)) ∨ carriers c promise = 1)

lemma Safe.sound (h : Safe s) : Sound s := by
  refine ⟨h.crashed, fun c hc => (h.healthy c hc).crash, fun c hc => (h.earlier c hc).2, h.worker, ?_⟩
  have hstage := h.stage
  have hleaves : ∀ {promise}, Leaves s promise → ∃ c, s.sClient = some c ∧
      ((∃ value, c.promises[promise]? = some (some value)) ∨ carriers c promise = 1) := by
    rintro promise ⟨-, c, hc, -, hpromise⟩
    exact ⟨c, hc, (h.healthy c (sClient_mem hc)).resolved hpromise⟩
  have hconnects : s.clients ≠ [] → ∃ c, s.sClient = some c ∧
      ((∃ value, c.promises[0]? = some (some value)) ∨ carriers c 0 = 1) := by
    intro hclients
    obtain ⟨c, hc⟩ := Option.ne_none_iff_exists'.1 (mt sClient_eq_none.1 hclients)
    have hhealthy := h.healthy c (sClient_mem hc)
    exact ⟨c, hc, hhealthy.resolved hhealthy.futures.first⟩
  intro call promise hcall hwaits
  rw [hcall] at hstage
  cases call with
  | stoppingTask | stopping => cases hwaits
  | replacingClient | leavingFailed | disconnecting =>
    obtain rfl := Option.some_inj.1 hwaits
    exact hleaves hstage
  | joining | attempting =>
    obtain rfl := Option.some_inj.1 hwaits
    exact hconnects hstage.2

lemma safe_start : Safe {} := by
  refine ⟨⟨rfl, ?_, ?_⟩, fun _ => rfl, ?_, ?_⟩
  · simp
  · simp
  · intro htrue
    cases htrue
  · intro c hc
    cases hc

/-- In every run in which one thread calls `Connect`, `Disconnect`, `Pause` and `Resume` while the
worker of the ping task and the operations of the clients go on in any order, the process runs on
exactly if `Disconnect` is never called before there is a client. Then no client ends it either, at most
the last one is connected, it is pinged only after it was, and no call waits for a future that nobody
satisfies. -/
theorem workspace_calls_sound (run : List WorkspaceStep) :
    (Runs.AllStates perform (fun s => s.crashed = false) {} run ↔
        Runs.AllSteps perform Admitted {} run) ∧
      (Runs.AllStates perform Sound {} run ↔ Runs.AllSteps perform Admitted {} run) := by
  constructor
  · refine Runs.allStates_iff_allSteps (fun _ (h : Safe _) => h.crashed) ?_ ?_ safe_start
    · exact fun _ _ h hadmitted => h.perform hadmitted
    · intro _ _ h hadmitted
      rw [h.crashes hadmitted]
      simp
  · refine Runs.allStates_iff_allSteps (fun _ (h : Safe _) => h.sound) ?_ ?_ safe_start
    · exact fun _ _ h hadmitted => h.perform hadmitted
    · intro _ _ h hadmitted hsound
      cases (h.crashes hadmitted).symm.trans hsound.crashed

/-- A workspace that runs is joined and left again; a server whose port is in use gets no client, and
then there is nobody to disconnect. -/
example :
    let join : List WorkspaceStep := [.connect .client { running := true },
      .complete 0 0 {}, .complete 0 0 { port := 52700 }, .complete 0 0 {}, .proceed {}]
    let leave : List WorkspaceStep := [.ping, .disconnect, .proceed {}, .complete 0 3 {}, .proceed {}]
    (Runs.final perform {} join).sPingTask = some true ∧
      (Runs.final perform {} (join ++ leave)).notices = [.workspaceConnectionChanged false] ∧
      (Runs.final perform {} [.connect .server { guard := true }, .disconnect]).crashed = true := by
  decide

end

end RenderStudioKit.Proofs.WorkspaceCalls
