import RenderStudioKit.Proofs.ClientLink
import RenderStudioKit.Lib.Runs

/-!
# The futures of the client

`Connect` and `Disconnect` return futures. Their promises travel with the operations they start; a
promise that is satisfied twice ends the process, and one that is dropped leaves its caller waiting.
-/

namespace RenderStudioKit.Proofs

open WebsocketClient

variable {Message : Type}

/-- The promise an operation carries. -/
def promiseOf : Operation Message → Option Nat
  | .resolve _ _ promise => some promise
  | .connect promise => some promise
  | .sslHandshake promise => some promise
  | .handshake _ _ promise => some promise
  | .close promise => some promise
  | _ => none

/-- How many pending operations carry a promise. -/
def carriers (c : WebsocketClient Message) (promise : Nat) : Nat :=
  c.pending.countP fun op => promiseOf op == some promise

/-- The same while a handler has the promise `hand`. -/
def holders (c : WebsocketClient Message) (hand : Option Nat) (promise : Nat) : Nat :=
  carriers c promise + if hand = some promise then 1 else 0

/-- The connection phase carries the promise of `Connect`, the first one; a close carries another. -/
def Rightful : Operation Message → Prop
  | .resolve _ _ promise => promise = 0
  | .connect promise => promise = 0
  | .sslHandshake promise => promise = 0
  | .handshake _ _ promise => promise = 0
  | .close promise => promise ≠ 0
  | _ => True

/-- Whoever has a promise may satisfy it, and nobody else has it. -/
structure Futures (c : WebsocketClient Message) (hand : Option Nat) : Prop where
  once : ∀ promise, holders c hand promise ≤ 1
  unsatisfied : ∀ promise, 0 < holders c hand promise → c.promises[promise]? = some none
  held : c.crash = none → ∀ promise, c.promises[promise]? = some none → 0 < holders c hand promise
  crash : c.crash ≠ some .promiseAlreadySatisfied
  rightful : ∀ op ∈ c.pending, Rightful op
  first : 0 < c.promises.length
  opened : c.promises[0]? = some (some true) ↔ .onConnected ∈ c.callbacks
  closed : ∀ promise ≠ 0, c.promises[promise]? ≠ some (some false)

section

variable {c c' : WebsocketClient Message} {hand : Option Nat} {promise : Nat}

lemma holders_start (c : WebsocketClient Message) (op : Operation Message) (hand : Option Nat)
    (promise : Nat) : holders (c.start op) hand promise =
      holders c hand promise + if promiseOf op = some promise then 1 else 0 := by
  simp only [holders, carriers, WebsocketClient.start, List.countP_append, List.countP_singleton,
    beq_iff_eq]
  omega

namespace Futures

lemma of_eq (h : Futures c hand) (hpromises : c'.promises = c.promises)
    (hpending : c'.pending = c.pending) (hcrash : c'.crash = c.crash)
    (hcallbacks : .onConnected ∈ c'.callbacks ↔ .onConnected ∈ c.callbacks) : Futures c' hand := by
  have hholders : ∀ promise, holders c' hand promise = holders c hand promise := by
    intro promise
    rw [holders, holders, carriers, carriers, hpending]
  refine ⟨?_, ?_, ?_, ?_, ?_, ?_, ?_, ?_⟩
  · exact fun promise => (hholders promise).trans_le (h.once promise)
  · intro promise hholds
    rw [hpromises]
    exact h.unsatisfied promise (hholders promise ▸ hholds)
  · intro hnone promise hopen
    rw [hholders]
    exact h.held (hcrash ▸ hnone) promise (hpromises ▸ hopen)
  · rw [hcrash]
    exact h.crash
  · rw [hpending]
    exact h.rightful
  · rw [hpromises]
    exact h.first
  · rw [hpromises, hcallbacks]
    exact h.opened
  · rw [hpromises]
    exact h.closed

lemma call (h : Futures c hand) {callback : ClientCallback Message}
    (hcallback : callback ≠ .onConnected) : Futures (c.call callback) hand := by
  refine h.of_eq rfl rfl rfl ?_
  rw [WebsocketClient.call, List.mem_append, List.mem_singleton]
  exact or_iff_left fun heq => hcallback heq.symm

lemma start_hand (h : Futures c hand) (op : Operation Message) (hop : promiseOf op = hand)
    (hrightful : Rightful op) : Futures (c.start op) none := by
  have hholders : ∀ promise, holders (c.start op) none promise = holders c hand promise := by
    intro promise
    rw [holders_start, hop, holders, holders]
    simp
  refine ⟨?_, ?_, ?_, h.crash, ?_, h.first, h.opened, h.closed⟩
  · exact fun promise => (hholders promise).trans_le (h.once promise)
  · exact fun promise hholds => h.unsatisfied promise (hholders promise ▸ hholds)
  · exact fun hnone promise hopen => hholders promise ▸ h.held hnone promise hopen
  · intro op' hmem
    rcases List.mem_append.1 hmem with hmem | hmem
    · exact h.rightful op' hmem
    · rw [List.mem_singleton.1 hmem]
      exact hrightful

lemma start (h : Futures c none) {op : Operation Message} (hop : promiseOf op = none)
    (hrightful : Rightful op) : Futures (c.start op) none := h.start_hand op hop hrightful

/-- Any change that takes the promise in hand away from its holder and records its value. -/
lemma satisfied (h : Futures c (some promise)) (value : Bool)
    (hpromises : c'.promises = c.promises.set promise (some value))
    (hpending : c'.pending = c.pending) (hcrash : c'.crash = c.crash)
    (hopened : c'.promises[0]? = some (some true) ↔ .onConnected ∈ c'.callbacks)
    (hvalue : promise ≠ 0 → value = true) : Futures c' none := by
  have hone : holders c (some promise) promise = 1 := by
    have hle := h.once promise
    have hhand : holders c (some promise) promise = carriers c promise + 1 := by simp [holders]
    omega
  have hother : ∀ k ≠ promise, holders c' none k = holders c (some promise) k := by
    intro k hk
    simp [holders, carriers, hpending, Ne.symm hk]
  have hnobody : holders c' none promise = 0 := by
    have hhand : holders c (some promise) promise = holders c' none promise + 1 := by
      simp [holders, carriers, hpending]
    omega
  have hlength : promise < c.promises.length := by
    have hsome := h.unsatisfied promise (by omega)
    exact (List.getElem?_eq_some_iff.1 hsome).1
  have hset : c'.promises[promise]? = some (some value) := by
    rw [hpromises, List.getElem?_set_self hlength]
  have hkept : ∀ k ≠ promise, c'.promises[k]? = c.promises[k]? := by
    intro k hk
    rw [hpromises, List.getElem?_set_ne (Ne.symm hk)]
  refine ⟨?_, ?_, ?_, hcrash ▸ h.crash, hpending ▸ h.rightful, ?_, hopened, ?_⟩
  · intro k
    by_cases hk : k = promise
    · subst hk
      omega
    · rw [hother k hk]
      exact h.once k
  · intro k hholds
    by_cases hk : k = promise
    · subst hk
      omega
    · rw [hkept k hk]
      exact h.unsatisfied k (hother k hk ▸ hholds)
  · intro hnone k hopen
    by_cases hk : k = promise
    · subst hk
      rw [hset] at hopen
      simp at hopen
    · rw [hother k hk]
      exact h.held (hcrash ▸ hnone) k (hkept k hk ▸ hopen)
  · rw [hpromises, List.length_set]
    exact h.first
  · intro k hk
    by_cases hsame : k = promise
    · subst hsame
      rw [hset, hvalue hk]
      simp
    · rw [hkept k hsame]
      exact h.closed k hk

lemma setValue_eq (h : Futures c (some promise)) (value : Bool) :
    c.setValue promise value = { c with promises := c.promises.set promise (some value) } := by
  have hhand : 0 < holders c (some promise) promise := by simp [holders]
  simp only [setValue, h.unsatisfied promise hhand]

lemma not_opened (h : Futures c (some 0)) : .onConnected ∉ c.callbacks := by
  have hopen := h.unsatisfied 0 (by simp [holders])
  rw [← h.opened, hopen]
  simp

lemma refuse (h : Futures c (some 0)) : Futures (c.setValue 0 false) none := by
  rw [h.setValue_eq]
  refine h.satisfied false rfl rfl rfl ?_ (fun hne => absurd rfl hne)
  have hno := h.not_opened
  have hset : (c.promises.set 0 (some false))[0]? = some (some false) :=
    List.getElem?_set_self h.first
  simp [hset, hno]

lemma finish (h : Futures c (some promise)) (hpromise : promise ≠ 0) :
    Futures ((c.call .onDisconnected).setValue promise true) none := by
  have hcall : Futures (c.call .onDisconnected) (some promise) := h.call (by simp)
  rw [hcall.setValue_eq]
  refine hcall.satisfied true rfl rfl rfl ?_ fun _ => rfl
  rw [List.getElem?_set_ne hpromise]
  exact hcall.opened

lemma accept (h : Futures c (some 0)) : Futures ((c.call .onConnected).setValue 0 true) none := by
  have hopen : c.promises[0]? = some none := h.unsatisfied 0 (by simp [holders])
  have hvalue : (c.call .onConnected).setValue 0 true =
      { c.call .onConnected with promises := c.promises.set 0 (some true) } := by
    have hcalled : (c.call .onConnected).promises[0]? = some none := hopen
    simp only [setValue, hcalled]
    rfl
  rw [hvalue]
  refine h.satisfied true rfl rfl rfl ?_ fun _ => rfl
  have hset : (c.promises.set 0 (some true))[0]? = some (some true) :=
    List.getElem?_set_self h.first
  simp [hset, WebsocketClient.call]

/-- A new promise in hand. -/
lemma promised (h : Futures c none) :
    Futures { c with promises := c.promises ++ [none] } (some c.promises.length) := by
  have hnobody : carriers c c.promises.length = 0 := by
    by_contra hne
    have hsome := h.unsatisfied c.promises.length (by simp [holders]; omega)
    simp at hsome
  have hkept : ∀ k ≠ c.promises.length, (c.promises ++ [none])[k]? = c.promises[k]? := by
    intro k hk
    by_cases hlt : k < c.promises.length
    · exact List.getElem?_append_left hlt
    · rw [List.getElem?_eq_none (by simp; omega), List.getElem?_eq_none (by omega)]
  have hholders : ∀ k, holders { c with promises := c.promises ++ [none] }
      (some c.promises.length) k =
        holders c none k + if c.promises.length = k then 1 else 0 := by
    intro k
    simp [holders, carriers]
  have hnew : (c.promises ++ [none])[c.promises.length]? = some none := by simp
  refine ⟨?_, ?_, ?_, h.crash, h.rightful, ?_, ?_, ?_⟩
  · intro k
    rw [hholders]
    split_ifs with hk
    · subst hk
      simp [holders, hnobody]
    · exact h.once k
  · intro k hholds
    by_cases hk : k = c.promises.length
    · subst hk
      exact hnew
    · rw [hholders, if_neg (Ne.symm hk)] at hholds
      exact (hkept k hk).trans (h.unsatisfied k hholds)
  · intro hnone k hopen
    rw [hholders]
    by_cases hk : k = c.promises.length
    · rw [if_pos hk.symm]
      omega
    · exact Nat.lt_add_right _ (h.held hnone k ((hkept k hk).symm.trans hopen))
  · simp
  · rw [hkept 0 (Nat.ne_of_lt h.first)]
    exact h.opened
  · intro k hk
    by_cases hsame : k = c.promises.length
    · subst hsame
      rw [hnew]
      simp
    · rw [hkept k hsame]
      exact h.closed k hk

lemma disconnect (h : Futures c none) : Futures c.disconnect none := by
  have hnew := h.promised
  have hpromise : c.promises.length ≠ 0 := Nat.pos_iff_ne_zero.1 h.first
  unfold WebsocketClient.disconnect
  dsimp only
  split_ifs
  · exact (hnew.start_hand (.close c.promises.length) rfl hpromise).of_eq rfl rfl rfl Iff.rfl
  · exact (hnew.finish hpromise).of_eq rfl rfl rfl Iff.rfl

lemma crashed (h : Futures c hand) {reason : Crash} (hreason : reason ≠ .promiseAlreadySatisfied) :
    Futures { c with crash := some reason } none := by
  have hless : ∀ promise, holders { c with crash := some reason } none promise ≤
      holders c hand promise := by
    intro promise
    simp [holders, carriers]
  refine ⟨?_, ?_, ?_, ?_, h.rightful, h.first, h.opened, h.closed⟩
  · exact fun promise => Nat.le_trans (hless promise) (h.once promise)
  · exact fun promise hholds => h.unsatisfied promise (Nat.lt_of_lt_of_le hholds (hless promise))
  · exact fun hnone => absurd hnone (Option.some_ne_none reason)
  · exact fun heq => hreason (Option.some_inj.1 heq)

lemma send (h : Futures c none) (message : Message) : Futures (c.send message) none := by
  unfold WebsocketClient.send
  split
  · exact h.crashed (by simp)
  · exact h.start rfl trivial

lemma handling (h : Futures c none) {i : Nat} {op : Operation Message}
    (hop : c.pending[i]? = some op) : Futures (handling c i) (promiseOf op) := by
  have hholders : ∀ promise, holders (Proofs.handling c i) (promiseOf op) promise =
      holders c none promise := by
    intro promise
    have hcount := countP_eraseIdx (fun op => promiseOf op == some promise) hop
    simp only [beq_iff_eq] at hcount
    simpa [holders, carriers, Proofs.handling] using hcount
  refine ⟨?_, ?_, ?_, h.crash, ?_, h.first, h.opened, h.closed⟩
  · exact fun promise => (hholders promise).trans_le (h.once promise)
  · exact fun promise hholds => h.unsatisfied promise (hholders promise ▸ hholds)
  · exact fun hnone promise hopen => hholders promise ▸ h.held hnone promise hopen
  · exact fun op' hmem => h.rightful op' (List.mem_of_mem_eraseIdx hmem)

lemma writeBack (h : Futures c none) : Futures c.writeBack none := by
  unfold WebsocketClient.writeBack
  split
  · exact h
  · exact h.start rfl trivial

lemma write (h : Futures c none) (message : Message) : Futures (c.write message) none := by
  have hqueued : Futures { c with mWriteQueue := c.mWriteQueue ++ [message] } none :=
    h.of_eq rfl rfl rfl Iff.rfl
  unfold WebsocketClient.write
  dsimp only
  split_ifs
  · exact hqueued
  · exact hqueued
  · exact hqueued.writeBack

lemma onWrite (h : Futures c none) (ec : Bool) : Futures (c.onWrite ec) none := by
  have hpopped : Futures { c with mWriteQueue := c.mWriteQueue.tail } none :=
    h.of_eq rfl rfl rfl Iff.rfl
  unfold WebsocketClient.onWrite
  dsimp only
  split_ifs
  · exact h.disconnect
  · exact hpopped.writeBack
  · exact hpopped

lemma ping (h : Futures c none) (ec : Bool) : Futures (c.ping ec) none := by
  unfold WebsocketClient.ping
  split_ifs
  · exact h
  · exact h.disconnect
  · exact h.start rfl trivial

lemma onPing (h : Futures c none) (ec : Bool) : Futures (c.onPing ec) none := by
  unfold WebsocketClient.onPing
  split_ifs
  · exact h
  · exact h.disconnect
  · exact h.start rfl trivial

lemma onRead (h : Futures c none) (ec : Bool) (received : Option Message) :
    Futures (c.onRead ec received) none := by
  unfold WebsocketClient.onRead
  split_ifs
  · exact h
  · exact h.disconnect
  · cases received with
    | none => exact h.start rfl trivial
    | some message => exact (h.call (by simp)).start rfl trivial

lemma onSetup (h : Futures c (some 0)) (next : Operation Message) (hnext : promiseOf next = some 0)
    (hrightful : Rightful next) (ec : Bool) :
    Futures (if ec then (c.setValue 0 false).disconnect else c.start next) none := by
  split_ifs
  · exact h.refuse.disconnect
  · exact h.start_hand next hnext hrightful

lemma onConnect (h : Futures c (some 0)) (ec : Bool) (port : Nat) (hostNameSet : Bool) :
    Futures (c.onConnect 0 ec port hostNameSet) none := by
  have hhost : ∀ sslHost, Futures { c with mSslHost := sslHost } (some 0) :=
    fun _ => h.of_eq rfl rfl rfl Iff.rfl
  unfold WebsocketClient.onConnect
  dsimp only
  split_ifs
  · exact h.refuse.disconnect
  all_goals
    split
    · exact h.crashed (by simp)
    · first
        | exact h.crashed (by simp)
        | exact (hhost _).start_hand _ rfl rfl
    · exact (hhost _).start_hand _ rfl rfl

lemma onHandshake (h : Futures c (some 0)) (ec : Bool) : Futures (c.onHandshake 0 ec) none := by
  unfold WebsocketClient.onHandshake
  split_ifs
  · exact h.refuse.disconnect
  · have hconnected : Futures { c with mConnected := true } (some 0) :=
      h.of_eq rfl rfl rfl Iff.rfl
    exact (hconnected.accept.onPing false).onRead false none

lemma onClose (h : Futures c (some promise)) (hpromise : promise ≠ 0)
    (hdisconnected : c.mConnected = false) (ec : Bool) : Futures (c.onClose promise ec) none := by
  rw [onClose_unconnected hdisconnected]
  exact h.finish hpromise

/-- Whatever completes, with whatever result. -/
lemma complete (h : Futures c none) (hphase : (link c).Phase) (i : Nat)
    (completion : Completion Message) : Futures (c.complete i completion) none := by
  cases hop : c.pending[i]? with
  | none =>
    rw [complete_nothing hop]
    exact h
  | some op =>
    have hhand := h.handling hop
    have hrightful := h.rightful op (List.mem_of_getElem? hop)
    rw [complete_eq hop]
    cases op with
    | post message => exact hhand.write message
    | write message => exact hhand.onWrite completion.ec
    | read => exact hhand.onRead completion.ec completion.received
    | wait => exact hhand.ping completion.ec
    | ping => exact hhand.onPing completion.ec
    | resolve host port promise =>
      obtain rfl : promise = 0 := hrightful
      exact hhand.onSetup (.connect 0) rfl rfl completion.ec
    | connect promise =>
      obtain rfl : promise = 0 := hrightful
      exact hhand.onConnect completion.ec completion.port completion.hostNameSet
    | sslHandshake promise =>
      obtain rfl : promise = 0 := hrightful
      exact hhand.onSetup (.handshake _ _ 0) rfl rfl completion.ec
    | handshake host target promise =>
      obtain rfl : promise = 0 := hrightful
      exact hhand.onHandshake completion.ec
    | close promise =>
      obtain ⟨-, -, -, -, -, hdisconnected⟩ := complete_closes hphase hop completion
      exact hhand.onClose hrightful hdisconnected completion.ec

lemma waits (h : Futures c none) (hnone : c.crash = none) (promise : Nat) :
    c.promises[promise]? = some none ↔ carriers c promise = 1 := by
  have hle := h.once promise
  have hholders : holders c none promise = carriers c promise := by simp [holders]
  constructor
  · intro hopen
    have hpos := h.held hnone promise hopen
    omega
  · intro hone
    exact h.unsatisfied promise (by omega)

end Futures

end

section

variable {c : WebsocketClient Message}

lemma phase_disconnect (h : (link c).Phase) : (link c.disconnect).Phase := by
  cases hconnected : c.mConnected with
  | false => exact (effect_disconnect_unconnected hconnected).2 ▸ h
  | true =>
    rw [(effect_disconnect_connected hconnected).2]
    exact (closing_of_connected h hconnected rfl rfl).1

lemma complete_effect (h : (link c).Phase) (i : Nat) (completion : Completion Message) :
    ∃ told v, Effect c (c.complete i completion) told v ∧ v.Phase ∧
      (v.Live → (link c).Live ∨ true ∈ told) := by
  cases hop : c.pending[i]? with
  | none =>
    rw [complete_nothing hop]
    exact ⟨[], link c, effect_refl c, h, fun hlive => .inl hlive⟩
  | some op =>
    by_cases hfails : Fails c completion op
    · obtain ⟨v, heffect, hphase, -, -, hlive⟩ := complete_fails h hop hfails
      exact ⟨[false], v, heffect, hphase, fun hv => .inl (hlive.1 hv)⟩
    · by_cases hhandshake : ∃ host target promise, op = .handshake host target promise
      · obtain ⟨host, target, promise, rfl⟩ := hhandshake
        obtain ⟨v, heffect, hphase, -⟩ := complete_opens h hop (Bool.eq_false_iff.2 hfails)
        exact ⟨[true], v, heffect, hphase, fun _ => .inr List.mem_cons_self⟩
      · by_cases hclose : ∃ promise, op = .close promise
        · obtain ⟨promise, rfl⟩ := hclose
          obtain ⟨v, heffect, hphase, hdead, -⟩ := complete_closes h hop completion
          exact ⟨[false], v, heffect, hphase, fun hv => absurd hv hdead⟩
        · push Not at hhandshake hclose
          obtain ⟨v, heffect, hphase, hlive⟩ := complete_quiet h hop hfails hhandshake hclose
          exact ⟨[], v, heffect, hphase, fun hv => .inl (hlive.1 hv)⟩

lemma phase_complete (h : (link c).Phase) (i : Nat) (completion : Completion Message) :
    (link (c.complete i completion)).Phase := by
  obtain ⟨told, v, heffect, hphase, -⟩ := complete_effect h i completion
  exact heffect.2 ▸ hphase

lemma futures_perform (h : (link c).Phase ∧ Futures c none) (event : ClientEvent Message) :
    (link (event.perform c)).Phase ∧ Futures (event.perform c) none := by
  obtain ⟨hphase, hfutures⟩ := h
  cases event with
  | send message => exact ⟨(effect_send c message).2 ▸ hphase, hfutures.send message⟩
  | disconnect => exact ⟨phase_disconnect hphase, hfutures.disconnect⟩
  | complete i completion =>
    exact ⟨phase_complete hphase i completion, hfutures.complete hphase i completion⟩

lemma futures_connect (endpoint : Url) :
    (link (({} : WebsocketClient Message).connect endpoint)).Phase ∧
      Futures (({} : WebsocketClient Message).connect endpoint) none := by
  have hpromises : (({} : WebsocketClient Message).connect endpoint).promises = [none] := rfl
  refine ⟨.connecting rfl rfl rfl, ?_, ?_, ?_, ?_, ?_, ?_, ?_, ?_⟩
  · intro promise
    simp only [holders, carriers, WebsocketClient.connect, WebsocketClient.start, List.nil_append,
      List.countP_singleton, reduceCtorEq, if_false, Nat.add_zero]
    split_ifs <;> omega
  · intro promise hholds
    have hzero : promise = 0 := by
      by_contra hne
      simp [holders, carriers, WebsocketClient.connect, WebsocketClient.start, promiseOf,
        Ne.symm hne] at hholds
    rw [hpromises, hzero]
    rfl
  · intro _ promise hopen
    rw [hpromises, List.getElem?_singleton] at hopen
    obtain rfl : promise = 0 := by
      by_contra hne
      simp [hne] at hopen
    exact Nat.succ_pos 0
  · simp [WebsocketClient.connect, WebsocketClient.start]
  · simp [WebsocketClient.connect, WebsocketClient.start, Rightful]
  · simp [hpromises]
  · simp [WebsocketClient.connect, WebsocketClient.start]
  · intro promise hne
    simp [hpromises, hne]

/-- In every run after one `Connect`, with completions that succeed or fail in any order and
`Send` and `Disconnect` called at any time, no promise is satisfied twice. While the process runs, a
future waits exactly if one pending operation carries its promise, so that none waits when nothing is
pending. The future of `Connect` is true exactly if the connection was told, and no future of
`Disconnect` is false. -/
theorem futures_resolved (endpoint : Url) (run : List (ClientEvent Message)) :
    let c := Runs.final ClientEvent.perform (({} : WebsocketClient Message).connect endpoint) run
    c.crash ≠ some .promiseAlreadySatisfied ∧
      (c.crash = none → ∀ promise, c.promises[promise]? = some none ↔ carriers c promise = 1) ∧
      (c.crash = none → c.pending = [] → none ∉ c.promises) ∧
      (c.promises[0]? = some (some true) ↔ .onConnected ∈ c.callbacks) ∧
      ∀ promise ≠ 0, c.promises[promise]? ≠ some (some false) := by
  intro c
  obtain ⟨-, h⟩ : (link c).Phase ∧ Futures c none :=
    Runs.final_of_invariant (fun c => (link c).Phase ∧ Futures c none)
      (fun _ event h => futures_perform h event) (futures_connect endpoint) run
  refine ⟨h.crash, h.waits, ?_, h.opened, h.closed⟩
  intro hnone hidle hopen
  obtain ⟨promise, hpromise⟩ := List.mem_iff_getElem?.1 hopen
  have hone := (h.waits hnone promise).1 hpromise
  simp [carriers, hidle] at hone

end

end RenderStudioKit.Proofs
