import RenderStudioKit.Lib.Runs
import RenderStudioKit.Model.ConnectionManager

/-!
# What the clients are told of the events of Syncthing

The poll job awaits every send of a broadcast, and clients come and go meanwhile. Each client is told of
the events in their order all the same, and of all of them while it stays and no broadcast is disturbed.
-/

namespace RenderStudioKit.Proofs

namespace PollBroadcasts

open ConnectionManager

/-- The manager, the events its poll job was given, what the job has sent and, while it broadcasts, the
clients whose sends of this broadcast are over. -/
structure PollRecord where
  manager : ConnectionManager
  fetched : List SyncthingEvent := []
  sent : List (WebSocket × WorkspaceEvent) := []
  passed : List WebSocket := []

/-- The broadcast whose send the poll job awaits. -/
def sending (m : ConnectionManager) : Option Broadcast :=
  match m.autoPoll with
  | some (.broadcasting b _) => some b
  | _ => none

/-- The events that the poll job has not come to. -/
def remaining (m : ConnectionManager) : List SyncthingEvent :=
  match m.autoPoll with
  | some (.broadcasting _ events) => events
  | some (.configuring _ events) => events
  | _ => []

/-- The events that an action brings to the poll job. -/
def fetches (m : ConnectionManager) : WorkspaceAction → List SyncthingEvent
  | .autoPoll r => if m.autoPoll = some .requesting then r.events else []
  | _ => []

/-- What has been sent when the poll job resumes. -/
def sends (m : ConnectionManager) : WorkspaceAction → List (WebSocket × WorkspaceEvent)
  | .autoPoll r =>
    match sending m with
    | some b => if r.raises then [] else [(b.connection, b.message)]
    | none => []
  | _ => []

/-- The clients that are behind the broadcast after an action. -/
def passes (s : PollRecord) : WorkspaceAction → List WebSocket
  | .autoPoll r =>
    match sending s.manager with
    | some b =>
      match b.resume s.manager.activeConnections r with
      | .sending _ => s.passed ++ [b.connection]
      | _ => []
    | none => []
  | _ => s.passed

def record (settings : WorkspaceSettings) (s : PollRecord) (action : WorkspaceAction) : PollRecord :=
  if s.manager.exited then s
  else
    { manager := perform settings s.manager action
      fetched := s.fetched ++ fetches s.manager action
      sent := s.sent ++ sends s.manager action
      passed := passes s action }

/-- The messages for some events. -/
def messages (events : List SyncthingEvent) : List WorkspaceEvent :=
  events.filterMap SyncthingEvent.message

/-- What a client was told by the poll job. -/
def told (s : PollRecord) (websocket : WebSocket) : List WorkspaceEvent :=
  (s.sent.filter (·.1 = websocket)).map Prod.snd

/-- An iterator over a dictionary that changed may miss keys, but gives none twice. -/
def Steady (s : PollRecord) : WorkspaceAction → Prop
  | .autoPoll r => ∀ b ∈ sending s.manager, b.changes ≠ s.manager.activeConnections.changes →
      ∀ websocket, r.pick = .next websocket → websocket ∉ s.passed ++ [b.connection]
  | _ => True

/-- No send of a broadcast fails, and nobody came or went when it is over. -/
def Undisturbed (s : PollRecord) : WorkspaceAction → Prop
  | .autoPoll r => ∀ b ∈ sending s.manager, b.changes = s.manager.activeConnections.changes ∧
      b.resume s.manager.activeConnections r ≠ .raised
  | _ => True

instance (s : PollRecord) : (action : WorkspaceAction) → Decidable (Undisturbed s action)
  | .autoPoll r => inferInstanceAs (Decidable (∀ b ∈ sending s.manager,
      b.changes = s.manager.activeConnections.changes ∧
        b.resume s.manager.activeConnections r ≠ .raised))
  | .request _ => .isTrue trivial
  | .endpoint _ _ => .isTrue trivial
  | .autoDisconnect => .isTrue trivial
  | .tick _ => .isTrue trivial
  | .terminate => .isTrue trivial
  | .exit => .isTrue trivial

/-- What is being broadcast. -/
def current (m : ConnectionManager) : List WorkspaceEvent :=
  ((sending m).map Broadcast.message).toList

/-- What a broadcast owes a client that it may have passed. -/
def due (passed : List WebSocket) (current : List WorkspaceEvent) (websocket : WebSocket) :
    List WorkspaceEvent :=
  if websocket ∈ passed then [] else current

/-- What a client was told and is to be told yet. -/
def owed (s : PollRecord) (websocket : WebSocket) : List WorkspaceEvent :=
  told s websocket ++
    (due s.passed (current s.manager) websocket ++ messages (remaining s.manager))

lemma nodup_assign {d : ActiveConnections} (h : d.keys.Nodup) (websocket : WebSocket) (time : Nat) :
    (d.assign websocket time).keys.Nodup := by
  unfold ActiveConnections.assign
  split_ifs with hmem
  · have hkeys : (({ d with items := d.items.map fun item =>
        if item.1 = websocket then (websocket, time) else item } : ActiveConnections)).keys = d.keys := by
      rw [ActiveConnections.keys, ActiveConnections.keys, List.map_map]
      apply List.map_congr_left
      intro item _
      by_cases hitem : item.1 = websocket <;> simp [hitem]
    rw [hkeys]
    exact h
  · rw [ActiveConnections.keys, List.map_append]
    refine List.nodup_append.2 ⟨h, List.nodup_cons.2 ⟨List.not_mem_nil, List.nodup_nil⟩, ?_⟩
    intro key hkey key' hkey' heq
    obtain rfl := List.mem_singleton.1 hkey'
    rw [heq] at hkey
    exact hmem hkey

lemma nodup_del {d d' : ActiveConnections} {websocket : WebSocket} (h : d.keys.Nodup)
    (hdel : d.del websocket = some d') : d'.keys.Nodup := by
  unfold ActiveConnections.del at hdel
  split_ifs at hdel
  obtain rfl := Option.some.inj hdel
  exact h.sublist (List.Sublist.map _ List.filter_sublist)

section

variable {m : ConnectionManager}

/-- The keys are apart, and the jobs run only once they are started. -/
structure Started (m : ConnectionManager) : Prop where
  nodup : m.activeConnections.keys.Nodup
  started : m.syncthingWasLaunched = false → m.autoPoll = none

/-- An action of another task. -/
structure Elsewhere (m m' : ConnectionManager) : Prop where
  started : Started m'
  autoPoll : m'.autoPoll = m.autoPoll ∨ m.autoPoll = none ∧ m'.autoPoll = some .waiting

namespace Started

lemma elsewhere (h : Started m) {m' : ConnectionManager}
    (hnodup : m'.activeConnections.keys.Nodup)
    (hlaunched : m'.syncthingWasLaunched = m.syncthingWasLaunched) (hjob : m'.autoPoll = m.autoPoll) :
    Elsewhere m m' :=
  ⟨⟨hnodup, by rw [hlaunched, hjob]; exact h.started⟩, .inl hjob⟩

lemma same (h : Started m) {m' : ConnectionManager}
    (hclients : m'.activeConnections = m.activeConnections)
    (hlaunched : m'.syncthingWasLaunched = m.syncthingWasLaunched) (hjob : m'.autoPoll = m.autoPoll) :
    Elsewhere m m' :=
  h.elsewhere (by rw [hclients]; exact h.nodup) hlaunched hjob

lemma connect (h : Started m) (websocket : WebSocket) : Elsewhere m (m.connect websocket) := by
  have hassign := nodup_assign h.nodup websocket m.time
  unfold ConnectionManager.connect
  dsimp only
  split_ifs with hfirst
  · simp only [Bool.and_eq_true, Bool.not_eq_true'] at hfirst
    exact ⟨⟨hassign, fun hlaunched => absurd hlaunched Bool.noConfusion⟩,
      .inr ⟨h.started hfirst.2, rfl⟩⟩
  · exact h.elsewhere hassign rfl rfl

lemma receiveText (h : Started m) (websocket : WebSocket) (text : String) :
    Elsewhere m (m.receiveText websocket text) := by
  have hassign := nodup_assign h.nodup websocket m.time
  unfold ConnectionManager.receiveText
  dsimp only
  split_ifs
  · exact h.elsewhere hassign rfl rfl
  · exact h.elsewhere hassign rfl rfl

lemma resumeEndpoint (h : Started m) (websocket : WebSocket) (r : Resumption) :
    Elsewhere m (m.resumeEndpoint websocket r) := by
  have hset : ∀ endpoint, Elsewhere m (m.setEndpoint websocket endpoint) :=
    fun _ => h.same rfl rfl rfl
  unfold ConnectionManager.resumeEndpoint
  split
  · split_ifs
    · exact hset _
    · exact h.connect websocket
  · split
    · exact hset _
    · exact hset _
    · exact hset _
  · split_ifs
    · exact hset _
    · split
      · exact hset _
      · exact h.receiveText websocket _
  · exact hset _
  · split
    · exact hset _
    · rename_i hdel
      exact h.elsewhere (nodup_del h.nodup hdel) rfl rfl
  · split_ifs
    · exact h.same rfl rfl rfl
    · exact hset _
  · exact h.same rfl rfl rfl

lemma disconnectNext (h : Started m) (rest : List WebSocket) : Elsewhere m (m.disconnectNext rest) := by
  cases rest with
  | nil => exact h.same rfl rfl rfl
  | cons websocket rest => exact h.same rfl rfl rfl

lemma resumeAutoDisconnect (h : Started m) (settings : WorkspaceSettings) :
    Elsewhere m (m.resumeAutoDisconnect settings) := by
  unfold ConnectionManager.resumeAutoDisconnect
  split
  · exact h.disconnectNext _
  · split
    · exact h.same rfl rfl rfl
    · rename_i hdel
      exact h.elsewhere (nodup_del h.nodup hdel) rfl rfl
  · split_ifs
    · exact h.same rfl rfl rfl
    · exact h.disconnectNext _
  · exact h.same rfl rfl rfl

lemma perform (h : Started m) (settings : WorkspaceSettings) {action : WorkspaceAction}
    (hexited : m.exited = false) (haction : ∀ r, action ≠ .autoPoll r) :
    Elsewhere m (perform settings m action) := by
  unfold ConnectionManager.perform
  rw [hexited, if_neg Bool.false_ne_true]
  cases action with
  | autoPoll r => exact absurd rfl (haction r)
  | request websocket =>
    dsimp only
    split_ifs
    · exact h.same rfl rfl rfl
    · exact h.same rfl rfl rfl
  | endpoint websocket r => exact h.resumeEndpoint websocket r
  | autoDisconnect => exact h.resumeAutoDisconnect settings
  | tick seconds => exact h.same rfl rfl rfl
  | terminate =>
    dsimp only
    split_ifs
    · exact h.same rfl rfl rfl
    · exact h.same rfl rfl rfl
  | exit => exact h.same rfl rfl rfl

end Started

/-- What the loop over the events makes of the job. -/
structure Handled (m : ConnectionManager) (events : List SyncthingEvent) (m' : ConnectionManager) :
    Prop where
  clients : m'.activeConnections = m.activeConnections
  launched : m'.syncthingWasLaunched = m.syncthingWasLaunched
  later : (current m' ++ messages (remaining m')).Sublist (messages events)
  all : m.activeConnections.keys ≠ [] → current m' ++ messages (remaining m') = messages events
  keys : ∀ b ∈ sending m', b.connection :: b.rest = m.activeConnections.keys

lemma messages_cons (event : SyncthingEvent) (events : List SyncthingEvent) :
    messages (event :: events) = event.message.toList ++ messages events := by
  rw [messages, List.filterMap_cons, messages]
  cases event.message <;> rfl

lemma Handled.cons {event : SyncthingEvent} {events : List SyncthingEvent} {m' : ConnectionManager}
    (h : Handled m events m')
    (hquiet : m.activeConnections.keys ≠ [] → event.message = none) :
    Handled m (event :: events) m' := by
  refine ⟨h.clients, h.launched, ?_, fun hkeys => ?_, h.keys⟩
  · rw [messages_cons]
    exact h.later.trans (List.sublist_append_right _ _)
  · rw [messages_cons, hquiet hkeys]
    exact h.all hkeys

lemma broadcast_spec {d : ActiveConnections} {message : WorkspaceEvent} {b : Broadcast}
    (h : d.broadcast message = some b) : b.message = message ∧ b.connection :: b.rest = d.keys := by
  unfold ActiveConnections.broadcast at h
  split at h
  · exact nomatch h
  · rename_i hkeys
    obtain rfl := Option.some.inj h
    exact ⟨rfl, hkeys.symm⟩

lemma keys_of_broadcast {d : ActiveConnections} {message : WorkspaceEvent}
    (h : d.broadcast message = none) : d.keys = [] := by
  unfold ActiveConnections.broadcast at h
  split at h
  · assumption
  · exact nomatch h

lemma handled (m : ConnectionManager) (events : List SyncthingEvent) :
    Handled m events (m.handleEvents events) := by
  induction events generalizing m with
  | nil => exact ⟨rfl, rfl, List.Sublist.refl _, fun _ => rfl, fun b hb => nomatch hb⟩
  | cons event events ih =>
    have hclients : (m.record event).activeConnections = m.activeConnections := by
      cases event <;> rfl
    have hlaunched : (m.record event).syncthingWasLaunched = m.syncthingWasLaunched := by
      cases event <;> rfl
    unfold handleEvents
    cases hbroadcast : event.message.bind (m.record event).activeConnections.broadcast with
    | some b =>
      obtain ⟨message, hmessage, hb⟩ := Option.bind_eq_some_iff.1 hbroadcast
      obtain ⟨rfl, hkeys⟩ := broadcast_spec hb
      have hall : b.message :: messages events = messages (event :: events) := by
        rw [messages_cons, hmessage]
        rfl
      simp only [hbroadcast]
      refine ⟨hclients, hlaunched, hall ▸ List.Sublist.refl _, fun _ => hall, ?_⟩
      intro b' hb'
      obtain rfl := Option.some.inj hb'
      rw [← hclients]
      exact hkeys
    | none =>
      have hquiet : m.activeConnections.keys ≠ [] → event.message = none := by
        intro hkeys
        cases hmessage : event.message with
        | none => rfl
        | some message =>
          rw [hmessage, hclients] at hbroadcast
          exact absurd (keys_of_broadcast hbroadcast) hkeys
      simp only [hbroadcast]
      cases event.calls with
      | zero =>
        have hnext := ih (m.record event)
        refine Handled.cons ⟨?_, ?_, hnext.later, ?_, ?_⟩ hquiet
        · exact hnext.clients.trans hclients
        · exact hnext.launched.trans hlaunched
        · rw [← hclients]
          exact hnext.all
        · rw [← hclients]
          exact hnext.keys
      | succ calls =>
        refine Handled.cons ⟨hclients, hlaunched, List.Sublist.refl _, fun _ => rfl, ?_⟩ hquiet
        exact fun b hb => nomatch hb

end

/-- Every client is once in the dictionary and once in a broadcast. -/
structure Sound (s : PollRecord) : Prop where
  started : Started s.manager
  ahead : ∀ b ∈ sending s.manager, (s.passed ++ b.connection :: b.rest).Nodup

/-- A client is behind the broadcast or ahead of it. -/
def Reached (s : PollRecord) (websocket : WebSocket) : Prop :=
  ∀ b ∈ sending s.manager, websocket ∈ s.passed ++ b.connection :: b.rest

lemma due_passed {passed : List WebSocket} {connection : WebSocket} (h : connection ∉ passed)
    (current : List WorkspaceEvent) (websocket : WebSocket) :
    (if connection = websocket then current else []) ++
        due (passed ++ [connection]) current websocket =
      due passed current websocket := by
  unfold due
  by_cases hsame : connection = websocket
  · subst hsame
    simp [h]
  · simp [hsame, Ne.symm hsame]

lemma resume_sending {b b' : Broadcast} {d : ActiveConnections} {r : Resumption}
    (h : b.resume d r = .sending b') :
    r.raises = false ∧ b'.message = b.message ∧
      (b.changes = d.changes ∧ b.rest = b'.connection :: b'.rest ∨
        b.changes ≠ d.changes ∧ r.pick = .next b'.connection ∧ b'.rest = []) := by
  unfold Broadcast.resume at h
  split_ifs at h with hraises hsize hchanges
  · rw [Bool.not_eq_true] at hraises
    split at h
    · exact nomatch h
    · rename_i hrest
      obtain rfl := BroadcastStep.sending.inj h
      exact ⟨hraises, rfl, .inl ⟨hchanges.symm, hrest⟩⟩
  · rw [Bool.not_eq_true] at hraises
    split at h
    · exact nomatch h
    · exact nomatch h
    · rename_i hpick
      obtain rfl := BroadcastStep.sending.inj h
      exact ⟨hraises, rfl, .inr ⟨Ne.symm hchanges, hpick, rfl⟩⟩

lemma resume_finished {b : Broadcast} {d : ActiveConnections} {r : Resumption}
    (h : b.resume d r = .finished) : r.raises = false ∧ (b.changes = d.changes → b.rest = []) := by
  unfold Broadcast.resume at h
  split_ifs at h with hraises hsize hchanges
  · split at h
    · rename_i hrest
      exact ⟨Bool.not_eq_true _ ▸ hraises, fun _ => hrest⟩
    · exact nomatch h
  · exact ⟨Bool.not_eq_true _ ▸ hraises, fun hsame => absurd hsame.symm hchanges⟩

lemma told_append (s : PollRecord) (sent : List (WebSocket × WorkspaceEvent)) (websocket : WebSocket) :
    told { s with sent := s.sent ++ sent } websocket =
      told s websocket ++ (sent.filter (·.1 = websocket)).map Prod.snd := by
  rw [told, List.filter_append, List.map_append]
  rfl

/-- What a step keeps, and what it adds for new events. -/
structure Advanced (s : PollRecord) (action : WorkspaceAction) (s' : PollRecord)
    (new : List SyncthingEvent) : Prop where
  sound : Sound s'
  fetched : s'.fetched = s.fetched ++ new
  later : ∀ websocket, (owed s' websocket).Sublist (owed s websocket ++ messages new)
  all : Undisturbed s action → ∀ websocket ∈ s.manager.activeConnections.keys, Reached s websocket →
    Reached s' websocket ∧ owed s' websocket = owed s websocket ++ messages new

section

variable {s s' : PollRecord} {action : WorkspaceAction}

lemma Advanced.quiet (h : Sound s) (hfetched : s'.fetched = s.fetched)
    (hstarted : Started s'.manager) (hsent : s'.sent = s.sent)
    (hsending : sending s'.manager = sending s.manager)
    (hremaining : remaining s'.manager = remaining s.manager)
    (hpassed : ∀ b ∈ sending s.manager, s'.passed = s.passed) : Advanced s action s' [] := by
  have howed : ∀ websocket, owed s' websocket = owed s websocket ++ messages [] := by
    intro websocket
    have hdue : due s'.passed (current s.manager) websocket =
        due s.passed (current s.manager) websocket := by
      cases hb : sending s.manager with
      | none => simp [due, current, hb]
      | some b => rw [hpassed b hb]
    have hcurrent : current s'.manager = current s.manager := by rw [current, hsending, current]
    rw [owed, owed, told, told, hsent, hremaining, hcurrent, hdue]
    exact (List.append_nil _).symm
  have hnew : s'.fetched = s.fetched ++ [] := by rw [hfetched, List.append_nil]
  refine ⟨⟨hstarted, fun b hb => ?_⟩, hnew, fun websocket => ?_, fun _ websocket _ hreached => ⟨?_, ?_⟩⟩
  · rw [hsending] at hb
    rw [hpassed b hb]
    exact h.ahead b hb
  · rw [howed]
  · intro b hb
    rw [hsending] at hb
    rw [hpassed b hb]
    exact hreached b hb
  · exact howed websocket

lemma Advanced.handle (h : Sound s) {events new : List SyncthingEvent}
    (hjob : s.manager.autoPoll ≠ none) (hfetched : s'.fetched = s.fetched ++ new)
    (hpassed : s'.passed = []) (hm : Handled s.manager events s'.manager)
    (hlater : ∀ websocket, (told s' websocket ++ messages events).Sublist
      (owed s websocket ++ messages new))
    (hall : Undisturbed s action → ∀ websocket, Reached s websocket →
      told s' websocket ++ messages events = owed s websocket ++ messages new) :
    Advanced s action s' new := by
  have howed : ∀ websocket, owed s' websocket =
      told s' websocket ++ (current s'.manager ++ messages (remaining s'.manager)) := by
    intro websocket
    rw [owed, due, hpassed, if_neg List.not_mem_nil]
  refine ⟨⟨⟨?_, fun hlaunched => ?_⟩, fun b hb => ?_⟩, hfetched, fun websocket => ?_, ?_⟩
  · rw [hm.clients]
    exact h.started.nodup
  · rw [hm.launched] at hlaunched
    exact absurd (h.started.started hlaunched) hjob
  · rw [hpassed, hm.keys b hb]
    exact h.started.nodup
  · rw [howed]
    exact ((List.Sublist.refl _).append hm.later).trans (hlater websocket)
  · intro hundisturbed websocket hmem hreached
    refine ⟨fun b hb => ?_, ?_⟩
    · rw [hpassed, hm.keys b hb]
      exact hmem
    · rw [howed, hm.all (List.ne_nil_of_mem hmem)]
      exact hall hundisturbed websocket hreached

lemma told_resumed (s : PollRecord) (b : Broadcast) (hb : sending s.manager = some b)
    (hpassed : b.connection ∉ s.passed) (websocket : WebSocket) :
    told s websocket ++ ((if b.connection = websocket then [b.message] else []) ++
        due (s.passed ++ [b.connection]) [b.message] websocket) =
      told s websocket ++ due s.passed (current s.manager) websocket := by
  rw [due_passed hpassed, current, hb]
  rfl

lemma told_sent (s : PollRecord) {b : Broadcast} (hb : sending s.manager = some b)
    (hpassed : b.connection ∉ s.passed) (r : Resumption) (websocket : WebSocket) :
    (told { s with sent := s.sent ++ sends s.manager (.autoPoll r) } websocket).Sublist
        (told s websocket ++ due s.passed (current s.manager) websocket) ∧
      (r.raises = false →
        told { s with sent := s.sent ++ sends s.manager (.autoPoll r) } websocket ++
            due (s.passed ++ [b.connection]) [b.message] websocket =
          told s websocket ++ due s.passed (current s.manager) websocket) := by
  have hfilter : (([(b.connection, b.message)].filter (·.1 = websocket)).map Prod.snd) =
      if b.connection = websocket then [b.message] else [] := by
    by_cases hsame : b.connection = websocket <;> simp [hsame]
  have hdue := told_resumed s b hb hpassed websocket
  rw [told_append]
  cases hraises : r.raises with
  | true =>
    simp only [sends, hb, hraises, if_true, List.filter_nil, List.map_nil, List.append_nil]
    exact ⟨List.sublist_append_left _ _, fun h => nomatch h⟩
  | false =>
    simp only [sends, hb, hraises, Bool.false_eq_true, if_false, hfilter]
    rw [← List.append_assoc] at hdue
    rw [← hdue]
    exact ⟨List.sublist_append_left _ _, fun _ => rfl⟩

/-- The poll job resumes from the await of a send. -/
lemma Advanced.broadcast (h : Sound s) {b : Broadcast} {events : List SyncthingEvent} {r : Resumption}
    (hjob : s.manager.autoPoll = some (.broadcasting b events)) (hsteady : Steady s (.autoPoll r)) :
    Advanced s (.autoPoll r)
      { manager := s.manager.resumeAutoPoll r
        fetched := s.fetched ++ fetches s.manager (.autoPoll r)
        sent := s.sent ++ sends s.manager (.autoPoll r)
        passed := passes s (.autoPoll r) } [] := by
  have hb : sending s.manager = some b := by rw [sending, hjob]
  have hevents : remaining s.manager = events := by rw [remaining, hjob]
  have hfetches : fetches s.manager (.autoPoll r) = [] := by simp [fetches, hjob]
  have hahead := h.ahead b hb
  have hpassed : b.connection ∉ s.passed := fun hmem =>
    (List.nodup_append.1 hahead).2.2 _ hmem _ List.mem_cons_self rfl
  have hsent := told_sent s hb hpassed r
  have hrunning : s.manager.autoPoll ≠ none := by rw [hjob]; exact Option.some_ne_none _
  have howed : ∀ websocket, owed s websocket ++ messages [] =
      told s websocket ++ due s.passed (current s.manager) websocket ++ messages events := by
    intro websocket
    rw [owed, hevents, ← List.append_assoc]
    exact List.append_nil _
  rw [hfetches]
  cases hresume : b.resume s.manager.activeConnections r with
  | raised =>
    have hresumed : s.manager.resumeAutoPoll r =
        { s.manager.terminateAll with autoPoll := some .terminating } := by
      simp only [resumeAutoPoll, hjob, hresume]
    rw [hresumed]
    refine ⟨⟨⟨h.started.nodup, fun hlaunched => ?_⟩, fun b' hb' => nomatch hb'⟩, rfl,
      fun websocket => ?_, fun hundisturbed => absurd hresume (hundisturbed b hb).2⟩
    · exact absurd (h.started.started hlaunched) hrunning
    · have hnone : due (passes s (.autoPoll r)) [] websocket = [] := by
        unfold due
        split_ifs <;> rfl
      change (told { s with sent := s.sent ++ sends s.manager (.autoPoll r) } websocket ++
        (due (passes s (.autoPoll r)) [] websocket ++ [])).Sublist _
      rw [hnone, howed, List.append_nil, List.append_nil]
      exact (hsent websocket).1.trans (List.sublist_append_left _ _)
  | finished =>
    have hresumed : s.manager.resumeAutoPoll r = s.manager.handleEvents events := by
      simp only [resumeAutoPoll, hjob, hresume]
    obtain ⟨hraises, hrest⟩ := resume_finished hresume
    rw [hresumed]
    have hnone : passes s (.autoPoll r) = [] := by simp [passes, hb, hresume]
    refine Advanced.handle h hrunning rfl hnone (handled s.manager events) ?_ ?_
    · intro websocket
      rw [howed]
      exact (hsent websocket).1.append (List.Sublist.refl _)
    · intro hundisturbed websocket hreached
      have hmem := hreached b hb
      rw [hrest (hundisturbed b hb).1] at hmem
      have hall := (hsent websocket).2 hraises
      rw [due, if_pos hmem, List.append_nil] at hall
      rw [howed, ← hall]
      rfl
  | sending b' =>
    have hresumed : s.manager.resumeAutoPoll r =
        { s.manager with autoPoll := some (.broadcasting b' events) } := by
      simp only [resumeAutoPoll, hjob, hresume]
    obtain ⟨hraises, hmessage, hnext⟩ := resume_sending hresume
    rw [hresumed]
    have hpasses : passes s (.autoPoll r) = s.passed ++ [b.connection] := by
      simp [passes, hb, hresume]
    have hsame : ∀ websocket, owed
        { manager := { s.manager with autoPoll := some (.broadcasting b' events) }
          fetched := s.fetched ++ []
          sent := s.sent ++ sends s.manager (.autoPoll r)
          passed := passes s (.autoPoll r) } websocket = owed s websocket ++ messages [] := by
      intro websocket
      change told { s with sent := s.sent ++ sends s.manager (.autoPoll r) } websocket ++
        (due (passes s (.autoPoll r)) [b'.message] websocket ++ messages events) = _
      rw [hpasses, hmessage, ← List.append_assoc, (hsent websocket).2 hraises, howed]
    refine ⟨⟨⟨h.started.nodup, fun hlaunched => ?_⟩, ?_⟩, rfl, fun websocket => ?_,
      fun hundisturbed websocket _ hreached => ⟨?_, hsame websocket⟩⟩
    · exact absurd (h.started.started hlaunched) hrunning
    · intro b'' hb''
      obtain rfl := Option.some.inj hb''
      change (passes s (.autoPoll r) ++ _).Nodup
      rw [hpasses]
      rcases hnext with ⟨_, hrest⟩ | ⟨hchanged, hpick, hrest⟩
      · rw [← hrest, List.append_assoc]
        exact hahead
      · have hfresh := hsteady b hb hchanged _ hpick
        rw [hrest]
        have hbefore : (s.passed ++ [b.connection]).Nodup :=
          hahead.sublist ((List.Sublist.refl _).append (List.singleton_sublist.2 List.mem_cons_self))
        refine List.nodup_append.2 ⟨hbefore, List.nodup_cons.2 ⟨List.not_mem_nil, List.nodup_nil⟩, ?_⟩
        intro connection hconnection connection' hconnection' heq
        obtain rfl := List.mem_singleton.1 hconnection'
        rw [heq] at hconnection
        exact hfresh hconnection
    · rw [hsame]
    · intro b'' hb''
      obtain rfl := Option.some.inj hb''
      have hmem := hreached b hb
      change websocket ∈ passes s (.autoPoll r) ++ _
      rw [hpasses]
      rcases hnext with ⟨_, hrest⟩ | ⟨hchanged, _⟩
      · rw [← hrest, List.append_assoc]
        exact hmem
      · exact absurd (hundisturbed b hb).1 hchanged

lemma Advanced.elsewhere (h : Sound s) {r : Resumption} {m' : ConnectionManager} (hstarted : Started m')
    (hsending : sending s.manager = none) (hsending' : sending m' = none)
    (hremaining : remaining m' = remaining s.manager) :
    Advanced s (.autoPoll r)
      { manager := m'
        fetched := s.fetched ++ []
        sent := s.sent ++ sends s.manager (.autoPoll r)
        passed := passes s (.autoPoll r) } [] := by
  refine Advanced.quiet h (List.append_nil _) hstarted ?_ (hsending'.trans hsending.symm) hremaining ?_
  · rw [sends, hsending]
    exact List.append_nil _
  · intro b hb
    rw [hsending] at hb
    exact nomatch hb

lemma Advanced.begin (h : Sound s) {r : Resumption} {events new : List SyncthingEvent}
    (hjob : s.manager.autoPoll ≠ none) (hsending : sending s.manager = none)
    (hevents : messages (remaining s.manager) ++ messages new = messages events) :
    Advanced s (.autoPoll r)
      { manager := s.manager.handleEvents events
        fetched := s.fetched ++ new
        sent := s.sent ++ sends s.manager (.autoPoll r)
        passed := passes s (.autoPoll r) } new := by
  have hdue : ∀ websocket, due s.passed (current s.manager) websocket = [] := by
    intro websocket
    simp [due, current, hsending]
  have htold : ∀ websocket,
      told { s with sent := s.sent ++ sends s.manager (.autoPoll r) } websocket ++ messages events =
        owed s websocket ++ messages new := by
    intro websocket
    rw [owed, hdue, List.nil_append, List.append_assoc, hevents, told_append, sends, hsending]
    exact congrArg (· ++ messages events) (List.append_nil _)
  refine .handle h hjob rfl (by rw [passes, hsending]) (handled s.manager events) ?_ ?_
  · exact fun websocket => htold websocket ▸ List.Sublist.refl _
  · exact fun _ websocket _ => htold websocket

/-- The poll job resumes. -/
lemma advanced_autoPoll (h : Sound s) (r : Resumption) (hsteady : Steady s (.autoPoll r)) :
    ∃ new, Advanced s (.autoPoll r)
      { manager := s.manager.resumeAutoPoll r
        fetched := s.fetched ++ fetches s.manager (.autoPoll r)
        sent := s.sent ++ sends s.manager (.autoPoll r)
        passed := passes s (.autoPoll r) } new := by
  by_cases hnone : s.manager.autoPoll = none
  · refine ⟨[], ?_⟩
    have hsame : s.manager.resumeAutoPoll r = s.manager := by simp only [resumeAutoPoll, hnone]
    have hfetches : fetches s.manager (.autoPoll r) = [] := by simp [fetches, hnone]
    have hsending : sending s.manager = none := by rw [sending, hnone]
    rw [hsame, hfetches]
    exact .elsewhere h h.started hsending hsending rfl
  obtain ⟨job, hjob⟩ := Option.ne_none_iff_exists'.1 hnone
  have hlaunched : ∀ {m' : ConnectionManager},
      m'.activeConnections = s.manager.activeConnections →
      m'.syncthingWasLaunched = s.manager.syncthingWasLaunched → Started m' := by
    intro m' hclients hlaunched
    refine ⟨by rw [hclients]; exact h.started.nodup, fun hfalse => ?_⟩
    rw [hlaunched] at hfalse
    exact absurd (h.started.started hfalse) hnone
  cases job with
  | broadcasting b events => exact ⟨[], .broadcast h hjob hsteady⟩
  | waiting =>
    refine ⟨[], ?_⟩
    have hresumed : s.manager.resumeAutoPoll r = { s.manager with autoPoll := some .requesting } := by
      simp only [resumeAutoPoll, hjob]
    have hfetches : fetches s.manager (.autoPoll r) = [] := by simp [fetches, hjob]
    rw [hresumed, hfetches]
    exact .elsewhere h (hlaunched rfl rfl) (by rw [sending, hjob]) rfl (by rw [remaining, remaining, hjob])
  | terminating =>
    refine ⟨[], ?_⟩
    have hsame : s.manager.resumeAutoPoll r = s.manager := by simp only [resumeAutoPoll, hjob]
    have hfetches : fetches s.manager (.autoPoll r) = [] := by simp [fetches, hjob]
    have hsending : sending s.manager = none := by rw [sending, hjob]
    rw [hsame, hfetches]
    exact .elsewhere h h.started hsending hsending rfl
  | requesting =>
    refine ⟨r.events, ?_⟩
    have hresumed : s.manager.resumeAutoPoll r = s.manager.handleEvents r.events := by
      simp only [resumeAutoPoll, hjob]
    have hfetches : fetches s.manager (.autoPoll r) = r.events := by simp [fetches, hjob]
    have hsending : sending s.manager = none := by rw [sending, hjob]
    rw [hresumed, hfetches]
    exact .begin h hnone hsending (by rw [remaining, hjob]; rfl)
  | configuring calls events =>
    refine ⟨[], ?_⟩
    have hfetches : fetches s.manager (.autoPoll r) = [] := by simp [fetches, hjob]
    have hsending : sending s.manager = none := by rw [sending, hjob]
    have hremaining : remaining s.manager = events := by rw [remaining, hjob]
    cases calls with
    | succ calls =>
      have hresumed : s.manager.resumeAutoPoll r =
          { s.manager with autoPoll := some (.configuring calls events) } := by
        simp only [resumeAutoPoll, hjob]
      rw [hresumed, hfetches]
      exact .elsewhere h (hlaunched rfl rfl) hsending rfl hremaining.symm
    | zero =>
      have hresumed : s.manager.resumeAutoPoll r = s.manager.handleEvents events := by
        simp only [resumeAutoPoll, hjob]
      rw [hresumed, hfetches]
      exact .begin h hnone hsending (by rw [hremaining]; exact List.append_nil _)

/-- One step of the service. -/
lemma advanced_record (h : Sound s) (settings : WorkspaceSettings) (action : WorkspaceAction)
    (hsteady : Steady s action) : ∃ new, Advanced s action (record settings s action) new := by
  unfold record
  cases hexited : s.manager.exited with
  | true => exact ⟨[], .quiet h rfl h.started rfl rfl rfl fun _ _ => rfl⟩
  | false =>
    rw [if_neg Bool.false_ne_true]
    by_cases haction : ∃ r, action = .autoPoll r
    · obtain ⟨r, rfl⟩ := haction
      have hresumed : perform settings s.manager (.autoPoll r) = s.manager.resumeAutoPoll r := by
        simp only [perform, hexited, Bool.false_eq_true, if_false]
      rw [hresumed]
      exact advanced_autoPoll h r hsteady
    · have hother : ∀ r, action ≠ .autoPoll r := fun r hr => haction ⟨r, hr⟩
      have hstep := h.started.perform settings hexited hother
      have hfetches : fetches s.manager action = [] := by
        unfold fetches
        split
        · exact absurd rfl (hother _)
        · rfl
      have hsends : sends s.manager action = [] := by
        unfold sends
        split
        · exact absurd rfl (hother _)
        · rfl
      have hpasses : passes s action = s.passed := by
        unfold passes
        split
        · exact absurd rfl (hother _)
        · rfl
      refine ⟨[], .quiet h ?_ hstep.started ?_ ?_ ?_ fun _ _ => hpasses⟩
      · rw [hfetches, List.append_nil]
      · rw [hsends, List.append_nil]
      · rcases hstep.autoPoll with hsame | ⟨hnone, hwaiting⟩
        · rw [sending, hsame, sending]
        · rw [sending, hwaiting, sending, hnone]
      · rcases hstep.autoPoll with hsame | ⟨hnone, hwaiting⟩
        · rw [remaining, hsame, remaining]
        · rw [remaining, hwaiting, remaining, hnone]

end

variable {s : PollRecord}

lemma told_sublist_owed (s : PollRecord) (websocket : WebSocket) :
    (told s websocket).Sublist (owed s websocket) :=
  List.sublist_append_left _ _

lemma owed_waiting (h : s.manager.autoPoll = some .waiting) (websocket : WebSocket) :
    owed s websocket = told s websocket := by
  have hsending : sending s.manager = none := by rw [sending, h]
  have hdue : due s.passed (current s.manager) websocket = [] := by simp [due, current, hsending]
  rw [owed, hdue, remaining, h]
  exact List.append_nil _

lemma messages_append (events new : List SyncthingEvent) :
    messages (events ++ new) = messages events ++ messages new :=
  List.filterMap_append

lemma steady_of_undisturbed (s : PollRecord) (action : WorkspaceAction)
    (h : Undisturbed s action) : Steady s action := by
  cases action with
  | autoPoll r => exact fun b hb hchanged => absurd (h b hb).1 hchanged
  | _ => trivial

lemma owed_run (h : Sound s) (settings : WorkspaceSettings) {websocket : WebSocket}
    (hreached : Reached s websocket) {run : List WorkspaceAction}
    (hkeys : Runs.AllStates (record settings) (fun s => websocket ∈ s.manager.activeConnections.keys) s
      run)
    (hrun : Runs.AllSteps (record settings) Undisturbed s run) :
    ∃ new, (Runs.final (record settings) s run).fetched = s.fetched ++ new ∧
      owed (Runs.final (record settings) s run) websocket = owed s websocket ++ messages new := by
  induction run generalizing s with
  | nil => exact ⟨[], (List.append_nil _).symm, (List.append_nil _).symm⟩
  | cons action run ih =>
    obtain ⟨new, hstep⟩ :=
      advanced_record h settings action (steady_of_undisturbed s action hrun.1)
    obtain ⟨hreached', howed⟩ := hstep.all hrun.1 websocket hkeys.1 hreached
    obtain ⟨later, hfetched, hlater⟩ := ih hstep.sound hreached' hkeys.2 hrun.2
    refine ⟨new ++ later, ?_, ?_⟩
    · rw [Runs.final_cons, hfetched, hstep.fetched, List.append_assoc]
    · rw [Runs.final_cons, hlater, howed, messages_append, List.append_assoc]

lemma init_autoPoll (settings : WorkspaceSettings) : (init settings).autoPoll = none := by
  unfold ConnectionManager.init
  split_ifs <;> rfl

lemma sound_init (settings : WorkspaceSettings) : Sound { manager := .init settings } := by
  have hkeys : (init settings).activeConnections.keys = [] := by
    unfold ConnectionManager.init
    split_ifs <;> rfl
  refine ⟨⟨?_, fun _ => init_autoPoll settings⟩, fun b hb => ?_⟩
  · rw [hkeys]
    exact List.nodup_nil
  · rw [sending, init_autoPoll] at hb
    exact nomatch hb

lemma owed_init (settings : WorkspaceSettings) (websocket : WebSocket) :
    owed { manager := .init settings } websocket = [] := by
  simp [owed, told, due, current, sending, remaining, init_autoPoll, messages]

lemma sound_run (settings : WorkspaceSettings) {run : List WorkspaceAction}
    (hsteady : Runs.AllSteps (record settings) Steady { manager := .init settings } run) :
    let s := Runs.final (record settings) { manager := .init settings } run
    Sound s ∧ ∀ websocket, (owed s websocket).Sublist (messages s.fetched) := by
  have hkeep : ∀ s action, (Sound s ∧ ∀ websocket, (owed s websocket).Sublist (messages s.fetched)) →
      Steady s action → Sound (record settings s action) ∧ ∀ websocket,
        (owed (record settings s action) websocket).Sublist
          (messages (record settings s action).fetched) := by
    intro s action h hok
    obtain ⟨new, hstep⟩ := advanced_record h.1 settings action hok
    refine ⟨hstep.sound, fun websocket => ?_⟩
    rw [hstep.fetched, messages_append]
    exact (hstep.later websocket).trans ((h.2 websocket).append (List.Sublist.refl _))
  have hinit : ∀ websocket, (owed { manager := .init settings } websocket).Sublist [] :=
    fun websocket => owed_init settings websocket ▸ List.Sublist.refl _
  exact (Runs.allStates_of_invariant hkeep ⟨sound_init settings, hinit⟩ hsteady).last

lemma told_run (h : Sound s) (settings : WorkspaceSettings) {websocket : WebSocket}
    {more : List WorkspaceAction} (hwaiting : s.manager.autoPoll = some .waiting)
    (hkeys : Runs.AllStates (record settings) (fun s => websocket ∈ s.manager.activeConnections.keys) s
      more)
    (hrun : Runs.AllSteps (record settings) Undisturbed s more)
    (hwaiting' : (Runs.final (record settings) s more).manager.autoPoll = some .waiting) :
    ∃ new, (Runs.final (record settings) s more).fetched = s.fetched ++ new ∧
      told (Runs.final (record settings) s more) websocket = told s websocket ++ messages new := by
  have hreached : Reached s websocket := by
    intro b hb
    rw [sending, hwaiting] at hb
    cases hb
  obtain ⟨new, hfetched, howed⟩ := owed_run h settings hreached hkeys hrun
  rw [owed_waiting hwaiting, owed_waiting hwaiting'] at howed
  exact ⟨new, hfetched, howed⟩

/-- For every order of the awaits, of clients that come and go and of failures: what the poll job tells
a client are messages of the events it was given, in their order and none twice. From a state in which
the job waits to the next one a client that stays connected is told the messages of all events in
between, if no broadcast is disturbed. -/
theorem polled_events_told (settings : WorkspaceSettings) (run : List WorkspaceAction)
    (hsteady : Runs.AllSteps (record settings) Steady { manager := .init settings } run) :
    let s := Runs.final (record settings) { manager := .init settings } run
    (∀ websocket, (told s websocket).Sublist (messages s.fetched)) ∧
      ∀ websocket more, s.manager.autoPoll = some .waiting →
        Runs.AllStates (record settings) (fun s => websocket ∈ s.manager.activeConnections.keys) s more →
        Runs.AllSteps (record settings) Undisturbed s more →
        (Runs.final (record settings) s more).manager.autoPoll = some .waiting →
        ∃ new, (Runs.final (record settings) s more).fetched = s.fetched ++ new ∧
          told (Runs.final (record settings) s more) websocket =
            told s websocket ++ messages new := by
  obtain ⟨hsound, howed⟩ := sound_run settings hsteady
  refine ⟨fun websocket => (told_sublist_owed _ websocket).trans (howed websocket), ?_⟩
  exact fun websocket more hwaiting hkeys hrun hwaiting' =>
    told_run hsound settings hwaiting hkeys hrun hwaiting'

/-- Two clients while Syncthing reports a pause, folder errors and a device. -/
theorem polled_events_told_two :
    let settings : WorkspaceSettings := ⟨30, false⟩
    let s := Runs.final (record settings) { manager := .init settings }
      [.request 0, .endpoint 0 {}, .request 1, .endpoint 1 {}]
    let more := [.autoPoll {}, .autoPoll { events := [.folderPaused, .folderErrors, .deviceConnected] },
      .autoPoll {}, .autoPoll {}, .autoPoll {}, .autoPoll {}, .autoPoll {}]
    told (Runs.final (record settings) s more) 0 = [.paused, .connection true] ∧
      ∃ new, (Runs.final (record settings) s more).fetched = s.fetched ++ new ∧
        told (Runs.final (record settings) s more) 1 = told s 1 ++ messages new := by
  have hsteady : Runs.AllSteps (record ⟨30, false⟩) Steady { manager := .init ⟨30, false⟩ }
      [.request 0, .endpoint 0 {}, .request 1, .endpoint 1 {}] :=
    ⟨trivial, trivial, trivial, trivial, trivial⟩
  have htold := (polled_events_told _ _ hsteady).2 1 [.autoPoll {},
    .autoPoll { events := [.folderPaused, .folderErrors, .deviceConnected] },
    .autoPoll {}, .autoPoll {}, .autoPoll {}, .autoPoll {}, .autoPoll {}]
  exact ⟨by decide, htold (by decide) (by decide) (by decide) (by decide)⟩

end PollBroadcasts

end RenderStudioKit.Proofs
