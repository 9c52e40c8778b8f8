import RenderStudioKit.Proofs.ClientLink

/-!
# Truth of the connection notices

The notices of all clients, the current one and those that were replaced, go to one listener. They
are true as long as a client disconnects only from a connection, is not destroyed, and connects only
when it is the current one and no other client has a connection.
-/

namespace RenderStudioKit.Proofs

variable {Message : Type}

open ConnectionListener

/-- The items are `b`, not `b`, `b` and so on. -/
def AlternatesFrom : Bool → List Bool → Prop
  | _, [] => True
  | b, v :: l => v = b ∧ AlternatesFrom (!b) l

instance AlternatesFrom.decide : (b : Bool) → (l : List Bool) → Decidable (AlternatesFrom b l)
  | _, [] => .isTrue trivial
  | b, v :: l =>
    have := AlternatesFrom.decide (!b) l
    inferInstanceAs (Decidable (v = b ∧ AlternatesFrom (!b) l))

/-- The notices alternate, `OnConnected` first, and each tells whether the current client is
connected. -/
structure Truthful (s : ConnectionListener Message) : Prop where
  alternate : AlternatesFrom true (s.notices.map (·.connected))
  current : ∀ notice ∈ s.notices, notice.current = notice.connected

/-- `Disconnect` runs only on a connected client, a client that is not the current one has a pending
handler or its handler starts another operation, and a handshake succeeds only for the current client,
when no client is connected or closes its connection. -/
def WellTimed (s : ConnectionListener Message) : ListenerEvent Message → Prop
  | .connect _ => ∀ (id : Nat) c, s.mWebsocketClient = some id → s.clients[id]? = some c → c.pending ≠ []
  | .disconnect => ∀ (id : Nat) c, s.mWebsocketClient = some id → s.clients[id]? = some c →
      c.mConnected = true
  | .send _ => True
  | .complete id i completion => ∀ c, s.clients[id]? = some c →
      (s.mWebsocketClient = some id ∨ c.pending.eraseIdx i ≠ [] ∨
        ∃ op, c.pending[i]? = some op ∧ Continues c completion op) ∧
      ∀ op, c.pending[i]? = some op → ¬ Fails c completion op ∧
        ∀ host target promise, op = .handshake host target promise →
          s.mWebsocketClient = some id ∧ ∀ c' ∈ s.clients, ¬ (link c').Live

/-- Any client that is connected or closes its connection is the current one, and connected. -/
def NoOverlap (s : ConnectionListener Message) : Prop :=
  ∀ (id : Nat) c, s.clients[id]? = some c → (link c).Live →
    s.mWebsocketClient = some id ∧ c.mConnected = true

/-- What the last notice told; before the first one there is no connection. -/
def lastTold (s : ConnectionListener Message) : Bool :=
  (s.notices.map (·.connected)).getLast?.getD false

/-- The notices are true, and the last one tells whether some client, which is the only one, is
connected or closes its connection. -/
structure Announced (s : ConnectionListener Message) : Prop where
  truthful : Truthful s
  phases : ∀ (id : Nat) c, s.clients[id]? = some c → (link c).Phase
  undestroyed : s.destroyed = []
  single : ∀ (id id' : Nat) c c', s.clients[id]? = some c → s.clients[id']? = some c' → (link c).Live →
    (link c').Live → id = id'
  last : lastTold s = true ↔ ∃ (id : Nat) (c : _), s.clients[id]? = some c ∧ (link c).Live
  known : ∀ id, s.mWebsocketClient = some id → id < s.clients.length

lemma alternatesFrom_append (b : Bool) (l : List Bool) (v : Bool) :
    AlternatesFrom b (l ++ [v]) ↔ AlternatesFrom b l ∧ v = !(l.getLast?.getD (!b)) := by
  induction l generalizing b with
  | nil => cases b <;> simp [AlternatesFrom]
  | cons v' l ih =>
    rw [List.cons_append, AlternatesFrom, AlternatesFrom, ih, and_assoc]
    refine and_congr_right fun hv => and_congr_right fun _ => ?_
    cases l with
    | nil => rw [hv]; cases b <;> simp
    | cons v'' l => rw [List.getLast?_cons_cons, List.getLast?_cons]; simp

lemma AlternatesFrom.of_append {b : Bool} {l l' : List Bool} (h : AlternatesFrom b (l ++ l')) :
    AlternatesFrom b l := by
  induction l generalizing b with
  | nil => trivial
  | cons v l ih => exact ⟨h.1, ih h.2⟩

lemma Truthful.of_earlier {s s' : ConnectionListener Message} (h : Truthful s')
    (hearlier : s.notices <+: s'.notices) : Truthful s := by
  obtain ⟨more, hmore⟩ := hearlier
  have halternate := h.alternate
  rw [← hmore, List.map_append] at halternate
  exact ⟨halternate.of_append,
    fun notice hnotice => h.current notice (hmore ▸ List.mem_append_left _ hnotice)⟩

lemma truthful_append_iff {s s' : ConnectionListener Message} {connected current : Bool}
    (h : s'.notices = s.notices ++ [⟨connected, current⟩]) :
    Truthful s' ↔ Truthful s ∧ connected = !lastTold s ∧ current = connected := by
  constructor
  · intro h'
    have halternate := h'.alternate
    rw [h, List.map_append, List.map_singleton, alternatesFrom_append] at halternate
    refine ⟨h'.of_earlier ⟨_, h.symm⟩, halternate.2, ?_⟩
    exact h'.current ⟨connected, current⟩ (by rw [h]; simp)
  · rintro ⟨hs, hdue, htrue⟩
    refine ⟨?_, fun notice hnotice => ?_⟩
    · rw [h, List.map_append, List.map_singleton, alternatesFrom_append]
      exact ⟨hs.alternate, hdue⟩
    · rw [h, List.mem_append, List.mem_singleton] at hnotice
      obtain hnotice | rfl := hnotice
      · exact hs.current notice hnotice
      · exact htrue

section

variable {s : ConnectionListener Message} {id : Nat} {c : WebsocketClient Message}
  {f : WebsocketClient Message → WebsocketClient Message} {told : List Bool} {v : Link}

lemma call_none (h : s.clients[id]? = none) : s.call id f = s := by
  rw [call, h]

lemma call_notices (hc : s.clients[id]? = some c) (h : Effect c (f c) told v) :
    (s.call id f).notices =
      s.notices ++ told.map fun connected => ⟨connected, (s.call id f).currentConnected⟩ := by
  rw [call, hc]
  dsimp only
  rw [h.drop]
  rfl

lemma call_clients (hc : s.clients[id]? = some c) :
    (s.call id f).clients = s.clients.set id (f c) := by
  rw [call, hc]

lemma call_mWebsocketClient : (s.call id f).mWebsocketClient = s.mWebsocketClient := by
  unfold call
  split <;> rfl

lemma call_destroyed : (s.call id f).destroyed = s.destroyed := by
  unfold call
  split <;> rfl

lemma notices_prefix_call : s.notices <+: (s.call id f).notices := by
  unfold call
  split
  · exact List.prefix_refl _
  · exact List.prefix_append _ _

lemma notices_prefix_release : s.notices <+: (s.release id).notices := by
  unfold release
  split
  · exact notices_prefix_call (s := { s with destroyed := id :: s.destroyed })
  · exact List.prefix_refl _

lemma call_getElem_self (hc : s.clients[id]? = some c) : (s.call id f).clients[id]? = some (f c) := by
  rw [call_clients hc]
  exact List.getElem?_set_self (List.getElem?_eq_some_iff.1 hc).1

lemma call_getElem_ne {id' : Nat} (hne : id ≠ id') :
    (s.call id f).clients[id']? = s.clients[id']? := by
  unfold call
  split
  · rfl
  · exact List.getElem?_set_ne hne

lemma currentConnected_of (hcurrent : s.mWebsocketClient = some id) (hc : s.clients[id]? = some c) :
    s.currentConnected = c.mConnected := by
  rw [currentConnected, hcurrent, Option.bind_some, hc]

lemma not_currentConnected (h : ∀ (id : Nat) c, s.clients[id]? = some c →
    s.mWebsocketClient = some id → c.mConnected = false) : s.currentConnected = false := by
  unfold currentConnected
  cases hcurrent : s.mWebsocketClient with
  | none => rfl
  | some id =>
    rw [Option.bind_some]
    cases hc : s.clients[id]? with
    | none => rfl
    | some c => exact h id c hc hcurrent

lemma Announced.frame (h : Announced s) (hc : s.clients[id]? = some c) (heffect : Effect c (f c) told v)
    (hphase : v.Phase) :
    (∀ (id' : Nat) c', (s.call id f).clients[id']? = some c' → (link c').Phase) ∧
      (s.call id f).destroyed = [] ∧
      ∀ id', (s.call id f).mWebsocketClient = some id' → id' < (s.call id f).clients.length := by
  refine ⟨fun id' c' hc' => ?_, call_destroyed.trans h.undestroyed, fun id' hid' => ?_⟩
  · by_cases hid : id = id'
    · rw [← hid, call_getElem_self hc, Option.some_inj] at hc'
      rw [← hc', heffect.2]
      exact hphase
    · rw [call_getElem_ne hid] at hc'
      exact h.phases id' c' hc'
  · rw [call_mWebsocketClient] at hid'
    rw [call_clients hc, List.length_set]
    exact h.known id' hid'

lemma live_call_iff (hc : s.clients[id]? = some c) (heffect : Effect c (f c) told v)
    (hlive : v.Live ↔ (link c).Live) (id' : Nat) :
    (∃ c', (s.call id f).clients[id']? = some c' ∧ (link c').Live) ↔
      ∃ c', s.clients[id']? = some c' ∧ (link c').Live := by
  by_cases hid : id = id'
  · rw [← hid, call_getElem_self hc, hc]
    simp only [Option.some_inj, exists_eq_left']
    rw [heffect.2]
    exact hlive
  · rw [call_getElem_ne hid]

lemma Announced.quiet (h : Announced s) (hc : s.clients[id]? = some c) (heffect : Effect c (f c) [] v)
    (hphase : v.Phase) (hlive : v.Live ↔ (link c).Live) : Announced (s.call id f) := by
  obtain ⟨hphases, hdestroyed, hknown⟩ := h.frame hc heffect hphase
  have hnotices : (s.call id f).notices = s.notices := by
    rw [call_notices hc heffect, List.map_nil, List.append_nil]
  have hlives := live_call_iff hc heffect hlive
  refine ⟨⟨hnotices ▸ h.truthful.alternate, hnotices ▸ h.truthful.current⟩, hphases, hdestroyed,
    fun id₁ id₂ c₁ c₂ h₁ h₂ hlive₁ hlive₂ => ?_, ?_, hknown⟩
  · obtain ⟨c₁', h₁', hlive₁'⟩ := (hlives id₁).1 ⟨c₁, h₁, hlive₁⟩
    obtain ⟨c₂', h₂', hlive₂'⟩ := (hlives id₂).1 ⟨c₂, h₂, hlive₂⟩
    exact h.single id₁ id₂ c₁' c₂' h₁' h₂' hlive₁' hlive₂'
  · rw [lastTold, hnotices, ← lastTold, h.last]
    exact (exists_congr hlives).symm

/-- The current client connects, and there was no connection. -/
lemma Announced.opened (h : Announced s) (hc : s.clients[id]? = some c)
    (heffect : Effect c (f c) [true] v) (hphase : v.Phase) (hconnected : v.connected = true)
    (hcurrent : s.mWebsocketClient = some id) (hnone : ∀ c' ∈ s.clients, ¬ (link c').Live) :
    Announced (s.call id f) := by
  obtain ⟨hphases, hdestroyed, hknown⟩ := h.frame hc heffect hphase
  have hself := call_getElem_self (f := f) hc
  have hdead : ∀ (id' : Nat) c', s.clients[id']? = some c' → ¬ (link c').Live :=
    fun id' c' hc' => hnone c' (List.mem_of_getElem? hc')
  have honly : ∀ (id' : Nat) c', (s.call id f).clients[id']? = some c' → (link c').Live → id = id' := by
    intro id' c' hc' hlive'
    by_contra hid
    rw [call_getElem_ne hid] at hc'
    exact hdead id' c' hc' hlive'
  have hlive : (link (f c)).Live := by
    rw [heffect.2]
    exact .inl hconnected
  have htold : lastTold s = false := by
    by_contra hlast
    obtain ⟨id', c', hc', hlive'⟩ := h.last.1 (by simpa using hlast)
    exact hdead id' c' hc' hlive'
  have hnow : (s.call id f).currentConnected = true := by
    rw [currentConnected_of (call_mWebsocketClient.trans hcurrent) hself]
    exact (congrArg Link.connected heffect.2).trans hconnected
  have hnotices := call_notices hc heffect
  refine ⟨(truthful_append_iff hnotices).2 ⟨h.truthful, by rw [htold]; rfl, hnow⟩, hphases,
    hdestroyed, fun id₁ id₂ c₁ c₂ h₁ h₂ hlive₁ hlive₂ => ?_, ?_, hknown⟩
  · exact (honly id₁ c₁ h₁ hlive₁).symm.trans (honly id₂ c₂ h₂ hlive₂)
  · refine iff_of_true ?_ ⟨id, f c, hself, hlive⟩
    rw [lastTold, hnotices, List.map_append]
    simp

lemma Announced.closed (h : Announced s) (hc : s.clients[id]? = some c)
    (heffect : Effect c (f c) [false] v) (hphase : v.Phase) (hdead : ¬ v.Live)
    (hlive : (link c).Live) : Announced (s.call id f) := by
  obtain ⟨hphases, hdestroyed, hknown⟩ := h.frame hc heffect hphase
  have hself := call_getElem_self (f := f) hc
  have hall : ∀ (id' : Nat) c', (s.call id f).clients[id']? = some c' → ¬ (link c').Live := by
    intro id' c' hc' hlive'
    by_cases hid : id = id'
    · rw [← hid, hself, Option.some_inj] at hc'
      rw [← hc', heffect.2] at hlive'
      exact hdead hlive'
    · rw [call_getElem_ne hid] at hc'
      exact hid (h.single id id' c c' hc hc' hlive hlive')
  have htold : lastTold s = true := h.last.2 ⟨id, c, hc, hlive⟩
  have hnow : (s.call id f).currentConnected = false := by
    refine not_currentConnected fun id' c' hc' _ => ?_
    by_contra hconnected
    exact hall id' c' hc' (.inl (eq_true_of_ne_false hconnected))
  have hnotices := call_notices hc heffect
  refine ⟨(truthful_append_iff hnotices).2 ⟨h.truthful, by rw [htold]; rfl, hnow⟩, hphases,
    hdestroyed, fun id₁ id₂ c₁ c₂ h₁ _ hlive₁ _ => absurd hlive₁ (hall id₁ c₁ h₁), ?_, hknown⟩
  refine iff_of_false ?_ fun ⟨id', c', hc', hlive'⟩ => hall id' c' hc' hlive'
  rw [lastTold, hnotices, List.map_append]
  simp

end

section

variable {s : ConnectionListener Message}

lemma release_referenced {id : Nat} (h : s.mWebsocketClient = some id ∨
    ∀ c, s.clients[id]? = some c → c.pending ≠ []) : s.release id = s := by
  refine if_neg fun ⟨hcurrent, hpending, _⟩ => ?_
  obtain h | h := h
  · exact hcurrent h
  · cases hc : s.clients[id]? with
    | none =>
      rw [hc] at hpending
      cases hpending
    | some c =>
      rw [hc, Option.map_some, Option.some_inj] at hpending
      exact h c hc (List.length_eq_zero_iff.1 hpending)

lemma Announced.create (h : Announced s) :
    Announced { s with clients := s.clients ++ [{}], mWebsocketClient := some s.clients.length } := by
  have hnew : ∀ (id : Nat) c, (s.clients ++ [({} : WebsocketClient Message)])[id]? = some c →
      s.clients[id]? = some c ∨ c = {} := by
    intro id c hc
    rw [List.getElem?_append] at hc
    split at hc
    · exact .inl hc
    · exact .inr (by simpa using List.mem_of_getElem? hc)
  have hdead : ¬ (link ({} : WebsocketClient Message)).Live :=
    fun h => h.elim nofun (Nat.lt_irrefl 0)
  have hlive : ∀ (id : Nat) c, (s.clients ++ [({} : WebsocketClient Message)])[id]? = some c →
      (link c).Live → s.clients[id]? = some c := by
    intro id c hc hlive
    obtain hc | rfl := hnew id c hc
    · exact hc
    · exact absurd hlive hdead
  refine ⟨⟨h.truthful.alternate, h.truthful.current⟩, fun id c hc => ?_, h.undestroyed,
    fun id₁ id₂ c₁ c₂ h₁ h₂ hlive₁ hlive₂ => ?_, ?_, fun id hid => ?_⟩
  · obtain hc | rfl := hnew id c hc
    · exact h.phases id c hc
    · exact .closed rfl rfl rfl
  · exact h.single id₁ id₂ c₁ c₂ (hlive id₁ c₁ h₁ hlive₁) (hlive id₂ c₂ h₂ hlive₂) hlive₁ hlive₂
  · refine h.last.trans ⟨fun ⟨id, c, hc, hl⟩ => ⟨id, c, ?_, hl⟩,
      fun ⟨id, c, hc, hl⟩ => ⟨id, c, hlive id c hc hl, hl⟩⟩
    exact (List.getElem?_append_left (List.getElem?_eq_some_iff.1 hc).1).trans hc
  · obtain rfl := Option.some_inj.1 hid
    simp

/-- The state after `Create`, when the new client has taken the place of the old one. -/
def created (s : ConnectionListener Message) : ConnectionListener Message :=
  { s with clients := s.clients ++ [{}], mWebsocketClient := some s.clients.length }

lemma connect_created (endpoint : Option Url)
    (h : ∀ old, s.mWebsocketClient = some old → (created s).release old = created s) :
    s.connect endpoint = match endpoint with
      | none => created s
      | some endpoint => (created s).call s.clients.length fun c => c.connect endpoint := by
  unfold ConnectionListener.connect
  cases hold : s.mWebsocketClient with
  | none => cases endpoint <;> rfl
  | some old =>
    dsimp only
    have hrelease := h old hold
    rw [created] at hrelease
    rw [hrelease]
    rfl

lemma Announced.connect (h : Announced s) {endpoint : Option Url}
    (hok : WellTimed s (.connect endpoint)) : Announced (s.connect endpoint) := by
  have hcreated : Announced (created s) := h.create
  have hreplaced : ∀ old, s.mWebsocketClient = some old → (created s).release old = created s := by
    refine fun old hold => release_referenced (.inr fun c hc => ?_)
    exact hok old c hold ((List.getElem?_append_left (h.known old hold)).symm.trans hc)
  rw [connect_created endpoint hreplaced]
  cases endpoint with
  | none => exact hcreated
  | some endpoint =>
    have hfresh : (created s).clients[s.clients.length]? = some {} := by simp [created]
    refine hcreated.quiet hfresh (effect_connect _ endpoint) (.connecting rfl rfl rfl) ?_
    exact Iff.rfl

lemma Announced.disconnect (h : Announced s) (hok : WellTimed s .disconnect) :
    Announced s.disconnect := by
  unfold ConnectionListener.disconnect
  cases hcurrent : s.mWebsocketClient with
  | none => exact h
  | some id =>
    obtain ⟨c, hc⟩ : ∃ c, s.clients[id]? = some c :=
      ⟨_, List.getElem?_eq_getElem (h.known id hcurrent)⟩
    have hconnected := hok id c hcurrent hc
    have heffect := effect_disconnect_connected hconnected
    obtain ⟨hphase, hlive⟩ := closing_of_connected (h.phases id c hc) hconnected rfl rfl
    have hcall := h.quiet (f := WebsocketClient.disconnect) hc heffect hphase hlive
    have hkept : ∀ c', (s.call id WebsocketClient.disconnect).clients[id]? = some c' →
        c'.pending ≠ [] := by
      intro c' hc' hpending
      rw [call_getElem_self hc, Option.some_inj] at hc'
      have hcloses := congrArg Link.closes heffect.2
      rw [hc', link, hpending] at hcloses
      cases hcloses
    have hrelease : ({ s.call id WebsocketClient.disconnect with mWebsocketClient := none } :
        ConnectionListener Message).release id =
          { s.call id WebsocketClient.disconnect with mWebsocketClient := none } :=
      release_referenced (.inr hkept)
    dsimp only at hrelease ⊢
    rw [hrelease]
    refine ⟨⟨hcall.truthful.alternate, hcall.truthful.current⟩, hcall.phases, hcall.undestroyed,
      hcall.single, hcall.last, fun id hid => ?_⟩
    cases hid

lemma Announced.send (h : Announced s) (message : Message) : Announced (s.send message) := by
  unfold ConnectionListener.send
  cases hcurrent : s.mWebsocketClient with
  | none => exact h
  | some id =>
    obtain ⟨c, hc⟩ : ∃ c, s.clients[id]? = some c :=
      ⟨_, List.getElem?_eq_getElem (h.known id hcurrent)⟩
    exact h.quiet hc (effect_send c message) (h.phases id c hc) Iff.rfl

lemma Announced.handler (h : Announced s) {id i : Nat} {completion : Completion Message}
    {c : WebsocketClient Message} (hc : s.clients[id]? = some c)
    (hop : ∀ op, c.pending[i]? = some op → ¬ Fails c completion op ∧
      ∀ host target promise, op = .handshake host target promise →
        s.mWebsocketClient = some id ∧ ∀ c' ∈ s.clients, ¬ (link c').Live) :
    Announced (s.call id fun c => c.complete i completion) := by
  have hphase := h.phases id c hc
  cases hpending : c.pending[i]? with
  | none =>
    have heffect : Effect c (c.complete i completion) [] (link c) := by
      rw [complete_nothing hpending]
      exact effect_refl c
    exact h.quiet hc heffect hphase Iff.rfl
  | some op =>
    obtain ⟨hfails, hhandshake⟩ := hop op hpending
    by_cases hopens : ∃ host target promise, op = .handshake host target promise
    · obtain ⟨host, target, promise, rfl⟩ := hopens
      obtain ⟨hcurrent, hnone⟩ := hhandshake host target promise rfl
      have hec : completion.ec = false := by simpa [Fails] using hfails
      obtain ⟨v, heffect, hphase', hconnected, -⟩ := complete_opens hphase hpending hec
      exact h.opened hc heffect hphase' hconnected hcurrent hnone
    · by_cases hcloses : ∃ promise, op = .close promise
      · obtain ⟨promise, rfl⟩ := hcloses
        obtain ⟨v, heffect, hphase', hdead, hlive, -⟩ := complete_closes hphase hpending completion
        exact h.closed hc heffect hphase' hdead hlive
      · obtain ⟨v, heffect, hphase', hlive⟩ := complete_quiet hphase hpending hfails
          (fun host target promise heq => hopens ⟨host, target, promise, heq⟩)
          (fun promise heq => hcloses ⟨promise, heq⟩)
        exact h.quiet hc heffect hphase' hlive

lemma Announced.complete (h : Announced s) {id i : Nat} {completion : Completion Message}
    (hok : WellTimed s (.complete id i completion)) : Announced (s.complete id i completion) := by
  unfold ConnectionListener.complete
  cases hc : s.clients[id]? with
  | none =>
    rw [call_none hc, release_referenced (.inr fun c hc' => absurd (hc.symm.trans hc') nofun)]
    exact h
  | some c =>
    obtain ⟨hkept, hop⟩ := hok c hc
    have hhandler := h.handler hc hop
    rw [release_referenced]
    · exact hhandler
    · obtain hcurrent | hpending := hkept
      · exact .inl (call_mWebsocketClient.trans hcurrent)
      · refine .inr fun c' hc' => ?_
        rw [call_getElem_self hc, Option.some_inj] at hc'
        rw [← hc']
        exact (pending_complete_iff (h.phases id c hc) fun op hpending' => (hop op hpending').1).2 hpending

/-- What a well timed step preserves. -/
theorem Announced.perform (h : Announced s) {event : ListenerEvent Message}
    (hok : WellTimed s event) : Announced (s.perform event) := by
  cases event with
  | connect endpoint => exact h.connect hok
  | disconnect => exact h.disconnect hok
  | send message => exact h.send message
  | complete id i completion => exact h.complete hok

lemma announced_start : Announced ({} : ConnectionListener Message) where
  truthful := ⟨trivial, nofun⟩
  phases := fun _ _ hc => nomatch hc
  undestroyed := rfl
  single := fun _ _ _ _ hc => nomatch hc
  last := iff_of_false nofun fun ⟨_, _, hc, _⟩ => nomatch hc
  known := nofun

end

section

variable {s : ConnectionListener Message} {id : Nat} {c : WebsocketClient Message}
  {f : WebsocketClient Message → WebsocketClient Message} {v : Link}

lemma untruthful_disconnected
    (hlast : lastTold s = true → ∃ (id : Nat) (c : _), s.clients[id]? = some c ∧ (link c).Live)
    (hoverlap : NoOverlap s) (hc : s.clients[id]? = some c) (heffect : Effect c (f c) [false] v)
    (hconnected : c.mConnected = false) : ¬ Truthful (s.call id f) := by
  rw [truthful_append_iff (call_notices hc heffect)]
  rintro ⟨-, hdue, hnow⟩
  have htold : lastTold s = true := by simpa using hdue
  obtain ⟨id', c', hc', hlive⟩ := hlast htold
  obtain ⟨hcurrent, hyes⟩ := hoverlap id' c' hc' hlive
  have hid : id ≠ id' := by
    rintro rfl
    rw [hc, Option.some_inj] at hc'
    rw [← hc', hconnected] at hyes
    cases hyes
  rw [currentConnected_of (call_mWebsocketClient.trans hcurrent)
    ((call_getElem_ne hid).trans hc'), hyes] at hnow
  cases hnow

lemma Truthful.of_call (h : Truthful (s.call id f)) : Truthful s :=
  h.of_earlier notices_prefix_call

lemma Truthful.of_release (h : Truthful (s.release id)) : Truthful s :=
  h.of_earlier notices_prefix_release

lemma not_live_of_idle (h : (link c).Phase) (hidle : c.pending = []) :
    c.mConnected = false ∧ ¬ (link c).Live := by
  have hreads : (link c).reads = 0 := by rw [link, hidle]; rfl
  have hcloses : (link c).closes = 0 := by rw [link, hidle]; rfl
  have hconnected : c.mConnected = false := by
    cases h with
    | connecting _ hno _ => exact hno
    | connected _ _ _ hpos => omega
    | closing _ hno _ => exact hno
    | closed _ hno _ => exact hno
  refine ⟨hconnected, fun hlive => ?_⟩
  obtain hyes | hpos := hlive
  · cases hyes.symm.trans hconnected
  · omega

lemma untruthful_destroyed (h : Announced s) (hoverlap : NoOverlap s)
    (hcurrent : s.mWebsocketClient ≠ some id) (hc : s.clients[id]? = some c)
    (hidle : c.pending = []) : ¬ Truthful (s.release id) := by
  have hunreferenced : s.Unreferenced id := by
    refine ⟨hcurrent, ?_, by rw [h.undestroyed]; exact List.not_mem_nil⟩
    rw [hc, Option.map_some, hidle, List.length_nil]
  obtain ⟨hconnected, -⟩ := not_live_of_idle (h.phases id c hc) hidle
  have hdestroyed : s.release id =
      ({ s with destroyed := id :: s.destroyed } : ConnectionListener Message).call id
        WebsocketClient.disconnect := if_pos hunreferenced
  rw [hdestroyed]
  exact untruthful_disconnected h.last.1 hoverlap hc (effect_disconnect_unconnected hconnected)
    hconnected

lemma untruthful_connect (h : Announced s) (hoverlap : NoOverlap s) {endpoint : Option Url}
    (hbad : ¬ WellTimed s (.connect endpoint)) : ¬ Truthful (s.connect endpoint) := by
  unfold WellTimed at hbad
  push Not at hbad
  obtain ⟨id, c, hcurrent, hc, hidle⟩ := hbad
  have hlength := h.known id hcurrent
  have hcreated : Announced (created s) := h.create
  have hdead := (not_live_of_idle (h.phases id c hc) hidle).2
  have hoverlap' : NoOverlap (created s) := by
    intro id' c' hc' hlive
    rw [created, List.getElem?_append] at hc'
    split at hc'
    · obtain ⟨hcurrent', -⟩ := hoverlap id' c' hc' hlive
      obtain rfl := Option.some_inj.1 (hcurrent.symm.trans hcurrent')
      rw [hc, Option.some_inj] at hc'
      exact absurd (hc' ▸ hlive) hdead
    · obtain rfl : c' = {} := by simpa using List.mem_of_getElem? hc'
      exact absurd hlive fun hlive => hlive.elim nofun (Nat.lt_irrefl 0)
  have hne : (created s).mWebsocketClient ≠ some id := by
    intro heq
    exact absurd (Option.some_inj.1 heq) (Nat.ne_of_gt hlength)
  have hreleased := untruthful_destroyed hcreated hoverlap' hne
    ((List.getElem?_append_left hlength).trans hc) hidle
  have hconnect : s.connect endpoint = match endpoint with
      | none => (created s).release id
      | some endpoint => ((created s).release id).call s.clients.length fun c => c.connect endpoint := by
    unfold ConnectionListener.connect
    rw [hcurrent]
    rfl
  rw [hconnect]
  intro htruthful
  cases endpoint with
  | none => exact hreleased htruthful
  | some endpoint => exact hreleased htruthful.of_call

lemma untruthful_disconnect (h : Announced s) (hoverlap : NoOverlap s)
    (hbad : ¬ WellTimed s .disconnect) : ¬ Truthful s.disconnect := by
  unfold WellTimed at hbad
  push Not at hbad
  obtain ⟨id, c, hcurrent, hc, hconnected⟩ := hbad
  have hno : c.mConnected = false := by simpa using hconnected
  have hcall := untruthful_disconnected h.last.1 hoverlap hc (effect_disconnect_unconnected hno) hno
  unfold ConnectionListener.disconnect
  rw [hcurrent]
  intro htruthful
  exact hcall (htruthful.of_release.of_earlier (List.prefix_refl _))

lemma untruthful_handshake (h : Announced s) {i : Nat}
    {completion : Completion Message} (hc : s.clients[id]? = some c) {host target : String}
    {promise : Nat} (hop : c.pending[i]? = some (.handshake host target promise))
    (hec : completion.ec = false)
    (hbad : ¬ (s.mWebsocketClient = some id ∧ ∀ c' ∈ s.clients, ¬ (link c').Live)) :
    ¬ Truthful (s.call id fun c => c.complete i completion) := by
  obtain ⟨v, heffect, -, hconnected, hdead⟩ := complete_opens (h.phases id c hc) hop hec
  rw [truthful_append_iff (call_notices (f := fun c => c.complete i completion) hc heffect)]
  rintro ⟨-, hdue, hnow⟩
  have hnone : ∀ (id' : Nat) c', s.clients[id']? = some c' → ¬ (link c').Live := by
    intro id' c' hc' hlive
    rw [h.last.2 ⟨id', c', hc', hlive⟩] at hdue
    cases hdue
  have hnone' : ∀ c' ∈ s.clients, ¬ (link c').Live := by
    intro c' hc'
    obtain ⟨id', hid'⟩ := List.mem_iff_getElem?.1 hc'
    exact hnone id' c' hid'
  have hother : s.mWebsocketClient ≠ some id := fun hcurrent => hbad ⟨hcurrent, hnone'⟩
  have hunconnected : (s.call id fun c => c.complete i completion).currentConnected = false := by
    refine not_currentConnected fun id' c' hc' hcurrent => ?_
    rw [call_mWebsocketClient] at hcurrent
    have hid : id ≠ id' := by
      rintro rfl
      exact hother hcurrent
    rw [call_getElem_ne hid] at hc'
    by_contra hyes
    exact hnone id' c' hc' (.inl (eq_true_of_ne_false hyes))
  rw [hunconnected] at hnow
  cases hnow

lemma untruthful_last (h : Announced s) (hoverlap : NoOverlap s) (hc : s.clients[id]? = some c)
    (heffect : Effect c (f c) [] v) (hphase : v.Phase) (hlive : v.Live ↔ (link c).Live)
    (hcurrent : s.mWebsocketClient ≠ some id) (hidle : (f c).pending = []) :
    ¬ Truthful ((s.call id f).release id) := by
  have hcalled : Announced (s.call id f) := h.quiet hc heffect hphase hlive
  have hself := call_getElem_self (f := f) hc
  have hdead := (not_live_of_idle (hcalled.phases id (f c) hself) hidle).2
  have hoverlap' : NoOverlap (s.call id f) := by
    intro id' c' hc' hlive'
    by_cases hid : id = id'
    · rw [← hid, hself, Option.some_inj] at hc'
      exact absurd (hc' ▸ hlive') hdead
    · rw [call_getElem_ne hid] at hc'
      rw [call_mWebsocketClient]
      exact hoverlap id' c' hc' hlive'
  exact untruthful_destroyed hcalled hoverlap'
    (fun heq => hcurrent (call_mWebsocketClient.symm.trans heq)) hself hidle

lemma untruthful_complete (h : Announced s) (hoverlap : NoOverlap s) {i : Nat}
    {completion : Completion Message} (hbad : ¬ WellTimed s (.complete id i completion)) :
    ¬ Truthful (s.complete id i completion) := by
  unfold WellTimed at hbad
  rw [not_forall₂] at hbad
  obtain ⟨c, hc, hbad⟩ := hbad
  have hphase := h.phases id c hc
  by_cases hop : ∀ op, c.pending[i]? = some op → ¬ Fails c completion op ∧
      ∀ host target promise, op = .handshake host target promise →
        s.mWebsocketClient = some id ∧ ∀ c' ∈ s.clients, ¬ (link c').Live
  · obtain ⟨hcurrent, hidle⟩ := not_or.1 fun hkept => hbad ⟨hkept, hop⟩
    have hidle : (c.complete i completion).pending = [] := by
      rw [← pending_complete_iff hphase fun op hpending => (hop op hpending).1, not_not] at hidle
      exact hidle
    cases hpending : c.pending[i]? with
    | none =>
      have heffect : Effect c (c.complete i completion) [] (link c) := by
        rw [complete_nothing hpending]
        exact effect_refl c
      exact untruthful_last h hoverlap hc heffect hphase Iff.rfl hcurrent hidle
    | some op =>
      obtain ⟨hfails, hhandshake⟩ := hop op hpending
      have hcloses : ∀ promise, op ≠ .close promise := by
        rintro promise rfl
        obtain ⟨-, -, -, -, hlive, -⟩ := complete_closes hphase hpending completion
        exact hcurrent (hoverlap id c hc hlive).1
      obtain ⟨v, heffect, hphase', hlive⟩ := complete_quiet hphase hpending hfails
        (fun host target promise heq => hcurrent (hhandshake host target promise heq).1) hcloses
      exact untruthful_last h hoverlap hc heffect hphase' hlive hcurrent hidle
  · rw [not_forall₂] at hop
    obtain ⟨op, hpending, hop⟩ := hop
    refine fun htruthful => ?_
    have hcalled : Truthful (s.call id fun c => c.complete i completion) := htruthful.of_release
    by_cases hfails : Fails c completion op
    · obtain ⟨v, heffect, -, -, hconnected, -⟩ := complete_fails hphase hpending hfails
      exact untruthful_disconnected h.last.1 hoverlap hc heffect hconnected hcalled
    · have hhandshake : ¬ ∀ host target promise, op = .handshake host target promise →
          s.mWebsocketClient = some id ∧ ∀ c' ∈ s.clients, ¬ (link c').Live :=
        fun h => hop ⟨hfails, h⟩
      push Not at hhandshake
      obtain ⟨host, target, promise, rfl, hbad⟩ := hhandshake
      have hec : completion.ec = false := by simpa [Fails] using hfails
      exact untruthful_handshake h hc hpending hec (by simpa using hbad) hcalled

lemma untruthful_perform (h : Announced s) (hoverlap : NoOverlap s) {event : ListenerEvent Message}
    (hbad : ¬ WellTimed s event) : ¬ Truthful (s.perform event) := by
  cases event with
  | connect endpoint => exact untruthful_connect h hoverlap hbad
  | disconnect => exact untruthful_disconnect h hoverlap hbad
  | send message => exact absurd trivial hbad
  | complete id i completion => exact untruthful_complete h hoverlap hbad

end

/-- The notices are true throughout a run of well timed steps; and where the connections of two
clients do not overlap, the first step that is not well timed makes them untrue. -/
theorem notices_truthful (run : List (ListenerEvent Message)) :
    let start : ConnectionListener Message := {}
    (Runs.AllSteps perform WellTimed start run → Runs.AllStates perform Truthful start run) ∧
      ∀ event, Runs.AllSteps perform WellTimed start run →
        NoOverlap (Runs.final perform start run) →
        ¬ WellTimed (Runs.final perform start run) event →
        ¬ Truthful (perform (Runs.final perform start run) event) := by
  intro start
  have hannounced : Runs.AllSteps perform WellTimed start run →
      Runs.AllStates perform Announced start run :=
    Runs.allStates_of_invariant (fun _ _ h hok => h.perform hok) announced_start
  refine ⟨fun hrun => (hannounced hrun).mono fun _ h => h.truthful,
    fun event hrun hoverlap hbad => ?_⟩
  exact untruthful_perform (hannounced hrun).last hoverlap hbad

lemma wellTimed_complete {s : ConnectionListener Message} {c : WebsocketClient Message} {i : Nat}
    {completion : Completion Message} {op : Operation Message} (hclients : s.clients = [c])
    (hcurrent : s.mWebsocketClient = some 0) (hop : c.pending[i]? = some op)
    (hfails : ¬ Fails c completion op) (hlive : ¬ (link c).Live) :
    WellTimed s (.complete 0 i completion) := by
  intro c' hc'
  rw [hclients] at hc'
  obtain rfl : c = c' := Option.some.inj hc'
  refine ⟨.inl hcurrent, fun op' hop' => ?_⟩
  obtain rfl : op = op' := Option.some.inj (hop.symm.trans hop')
  refine ⟨hfails, fun _ _ _ _ => ⟨hcurrent, fun c'' hc'' => ?_⟩⟩
  rw [hclients, List.mem_singleton] at hc''
  rwa [hc'']

/-- A client connects, and its user disconnects it. -/
theorem notices_truthful_closed :
    let run : List (ListenerEvent Unit) := [.connect (some {}), .complete 0 0 {}, .complete 0 0 {},
      .complete 0 0 {}, .disconnect, .complete 0 2 {}]
    Runs.AllStates perform Truthful {} run ∧
      (Runs.final perform {} run).notices = [⟨true, true⟩, ⟨false, false⟩] := by
  intro run
  refine ⟨(notices_truthful run).1 ?_, by decide⟩
  refine ⟨?_, ?_, ?_, ?_, ?_, ?_, trivial⟩
  · intro id c hcurrent
    cases hcurrent
  · exact wellTimed_complete rfl rfl rfl (by simp [Fails]) (by decide)
  · exact wellTimed_complete rfl rfl rfl (by simp [Fails]) (by decide)
  · exact wellTimed_complete rfl rfl rfl (by simp [Fails]) (by decide)
  · intro id c hcurrent hc
    cases hcurrent
    cases hc
    rfl
  · intro c hc
    cases hc
    refine ⟨.inr (.inl (List.cons_ne_nil _ _)), fun op hop => ?_⟩
    cases hop
    exact ⟨id, fun host target promise h => by cases h⟩

/-- A connection that cannot be made is told to be lost, and a connection that the user ends is told
to be lost twice, the second time by the destructor of the client. -/
theorem notices_untruthful :
    let connecting : List (ListenerEvent Unit) := [.connect (some {})]
    let failed := connecting ++ [.complete 0 0 { ec := true }]
    let ended := connecting ++ [.complete 0 0 {}, .complete 0 0 {}, .complete 0 0 {}, .disconnect,
      .complete 0 0 { ec := true }, .complete 0 0 { ec := true }, .complete 0 0 {}]
    (Runs.final perform {} failed).notices = [⟨false, false⟩] ∧
      ¬ Truthful (Runs.final perform {} failed) ∧
      (Runs.final perform {} ended).notices = [⟨true, true⟩, ⟨false, false⟩, ⟨false, false⟩] ∧
      ¬ Truthful (Runs.final perform {} ended) := by
  have hfailed : (Runs.final perform ({} : ConnectionListener Unit)
      [.connect (some {}), .complete 0 0 { ec := true }]).notices = [⟨false, false⟩] := by decide
  have hended : (Runs.final perform ({} : ConnectionListener Unit)
      [.connect (some {}), .complete 0 0 {}, .complete 0 0 {}, .complete 0 0 {}, .disconnect,
        .complete 0 0 { ec := true }, .complete 0 0 { ec := true }, .complete 0 0 {}]).notices =
      [⟨true, true⟩, ⟨false, false⟩, ⟨false, false⟩] := by decide
  refine ⟨hfailed, fun h => ?_, hended, fun h => ?_⟩
  · have halternate := h.alternate
    rw [List.singleton_append, hfailed] at halternate
    exact absurd halternate (by decide)
  · have halternate := h.alternate
    rw [List.singleton_append, hended] at halternate
    exact absurd halternate (by decide)

end RenderStudioKit.Proofs
