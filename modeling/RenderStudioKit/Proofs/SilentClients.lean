import RenderStudioKit.Proofs.WorkspaceLifetime

/-!
# Silent clients

The job that disconnects clients detects those that are gone. A client that is heard in time is never
chosen, and once all clients have been silent for too long the service ends, also where an endpoint died
without removing its client.
-/

namespace RenderStudioKit.Proofs

namespace SilentClients

open ConnectionManager

variable {m m' : ConnectionManager} {settings : WorkspaceSettings}

/-- No client is accepted and none that the service listens to says anything. -/
def SilentStep (m : ConnectionManager) : WorkspaceAction → Prop
  | .endpoint websocket r =>
    (m.endpoints.lookup websocket = some .accepting → r.raises = true) ∧
      (m.endpoints.lookup websocket = some .receiving → r.raises = true ∨ r.text = none)
  | _ => True

/-- Every client has been silent for too long. -/
def AllSilent (settings : WorkspaceSettings) (m : ConnectionManager) : Prop :=
  ∀ item ∈ m.activeConnections.items, item.2 + settings.requiredPingIntervalSeconds < m.time

instance (settings : WorkspaceSettings) (m : ConnectionManager) : Decidable (AllSilent settings m) :=
  inferInstanceAs (Decidable (∀ item ∈ _, _))

/-- The client is not connected or was heard in time. -/
def InTime (settings : WorkspaceSettings) (websocket : WebSocket) (m : ConnectionManager) : Prop :=
  ∀ item ∈ m.activeConnections.items, item.1 = websocket →
    m.time ≤ item.2 + settings.requiredPingIntervalSeconds

/-- The clients that the job has chosen and not removed yet. -/
def chosen : AutoDisconnect → List WebSocket
  | .waiting => []
  | .closing websocket rest => websocket :: rest
  | .sleeping rest => rest
  | .terminating => []

/-- The job is not about to close the client. -/
def Spared (websocket : WebSocket) (m : ConnectionManager) : Prop :=
  ∀ job, m.autoDisconnect = some job → websocket ∉ chosen job

/-- The turns that the job takes until it waits again. -/
def turnsLeft : AutoDisconnect → Nat
  | .waiting => 0
  | .closing _ rest => 2 * rest.length + 2
  | .sleeping rest => 2 * rest.length + 1
  | .terminating => 0

/-- The turns in which the job ends its round and makes another one for all clients. -/
def turnsNeeded (m : ConnectionManager) : Nat :=
  (m.autoDisconnect.map turnsLeft).getD 0 + 2 * m.activeConnections.items.length + 1

def isTurn : WorkspaceAction → Bool
  | .autoDisconnect => true
  | _ => false

/-- `terminate_all` was called, or no client is left and an endpoint is about to notice. -/
def Deserted (m : ConnectionManager) : Prop :=
  m.terminated ≠ [] ∨
    m.activeConnections.keys = [] ∧ ∃ websocket, m.endpoints.lookup websocket = some .sleeping

/-- The job runs from the first client on, and whoever removes the last client is about to notice. -/
structure Watched (m : ConnectionManager) : Prop where
  running : m.syncthingWasLaunched = true → m.autoDisconnect ≠ none
  stopped : m.autoDisconnect = some .terminating → m.terminated ≠ []
  exited : m.exited = true → m.terminated ≠ []
  empty : m.autoDisconnect ≠ none → m.activeConnections.keys = [] →
    Deserted m ∨ ∃ rest, m.autoDisconnect = some (.sleeping rest)

/-- The step changes neither the clients nor the job, and wakes no endpoint up that notices that there
are no clients. -/
structure LeavesClients (m m' : ConnectionManager) : Prop where
  connections : m'.activeConnections = m.activeConnections
  launched : m'.syncthingWasLaunched = m.syncthingWasLaunched
  job : m'.autoDisconnect = m.autoDisconnect
  sleeping : m.activeConnections.keys = [] → ∀ websocket,
    m.endpoints.lookup websocket = some .sleeping → m'.endpoints.lookup websocket = some .sleeping
  terminated : m.terminated ≠ [] → m'.terminated ≠ []
  exited : (m.exited = true → m.terminated ≠ []) → m'.exited = true → m'.terminated ≠ []
  time : m.time ≤ m'.time

lemma Deserted.leavesClients (h : Deserted m) (hleaves : LeavesClients m m') : Deserted m' := by
  rcases h with hterminated | ⟨hkeys, websocket, hsleeping⟩
  · exact .inl (hleaves.terminated hterminated)
  · exact .inr ⟨by rw [hleaves.connections, hkeys], websocket, hleaves.sleeping hkeys _ hsleeping⟩

lemma Watched.leavesClients (h : Watched m) (hleaves : LeavesClients m m') : Watched m' := by
  refine ⟨?_, ?_, ?_, ?_⟩
  · rw [hleaves.launched, hleaves.job]
    exact h.running
  · intro hjob
    rw [hleaves.job] at hjob
    exact hleaves.terminated (h.stopped hjob)
  · exact hleaves.exited h.exited
  · rw [hleaves.connections, hleaves.job]
    intro hjob hkeys
    exact (h.empty hjob hkeys).imp_left fun hdeserted => hdeserted.leavesClients hleaves

lemma AllSilent.leavesClients (h : AllSilent settings m) (hleaves : LeavesClients m m') :
    AllSilent settings m' := by
  unfold AllSilent
  rw [hleaves.connections]
  exact fun item hitem => Nat.lt_of_lt_of_le (h item hitem) hleaves.time

lemma LeavesClients.refl : LeavesClients m m :=
  ⟨rfl, rfl, rfl, fun _ _ => id, id, id, Nat.le_refl _⟩

lemma LeavesClients.trans {m'' : ConnectionManager} (h : LeavesClients m m')
    (h' : LeavesClients m' m'') : LeavesClients m m'' := by
  refine ⟨h'.connections.trans h.connections, h'.launched.trans h.launched, h'.job.trans h.job, ?_,
    h'.terminated ∘ h.terminated, h'.exited ∘ h.exited, Nat.le_trans h.time h'.time⟩
  intro hkeys websocket hsleeping
  apply h'.sleeping
  · rw [h.connections, hkeys]
  · exact h.sleeping hkeys websocket hsleeping

lemma lookup_setEndpoint {websocket : WebSocket} (endpoint : Endpoint) (other : WebSocket) :
    (m.setEndpoint websocket endpoint).endpoints.lookup other =
      if other = websocket then (m.endpoints.lookup other).map fun _ => endpoint
      else m.endpoints.lookup other := by
  unfold setEndpoint
  dsimp only
  induction m.endpoints with
  | nil => simp
  | cons e endpoints ih =>
    obtain ⟨key, value⟩ := e
    have hfirst : (if key = websocket then (websocket, endpoint) else (key, value)) =
        (key, if key = websocket then endpoint else value) := by
      split_ifs with hkey
      · rw [hkey]
      · rfl
    rw [List.map_cons, hfirst, List.lookup_cons, List.lookup_cons]
    by_cases hother : other = key
    · subst hother
      simp only [beq_self_eq_true]
      split_ifs <;> rfl
    · rw [beq_eq_false_iff_ne.2 hother]
      exact ih

lemma leavesClients_setEndpoint {websocket : WebSocket} (endpoint : Endpoint)
    (h : m.endpoints.lookup websocket ≠ some .sleeping ∨ m.activeConnections.keys ≠ []) :
    LeavesClients m (m.setEndpoint websocket endpoint) := by
  refine ⟨rfl, rfl, rfl, ?_, id, id, Nat.le_refl _⟩
  intro hkeys other hsleeping
  rw [lookup_setEndpoint]
  by_cases hother : other = websocket
  · subst hother
    exact absurd hsleeping (h.resolve_right fun hne => hne hkeys)
  · rwa [if_neg hother]

/-- What an endpoint does when it resumes. -/
inductive EndpointStep (m : ConnectionManager) (websocket : WebSocket) (r : Resumption) :
    ConnectionManager → Prop
  | accepts (hlookup : m.endpoints.lookup websocket = some .accepting) (hraises : r.raises = false) :
    EndpointStep m websocket r (m.connect websocket)
  | hears (hlookup : m.endpoints.lookup websocket = some .receiving) (hraises : r.raises = false)
    {text : String} (htext : r.text = some text) :
    EndpointStep m websocket r (m.receiveText websocket text)
  | removes (hlookup : m.endpoints.lookup websocket = some .closing) {d : ActiveConnections}
    (hdel : m.activeConnections.del websocket = some d) :
    EndpointStep m websocket r ({ m with activeConnections := d }.setEndpoint websocket .sleeping)
  | terminates : EndpointStep m websocket r (m.terminateAll.setEndpoint websocket .terminating)
  | moves {m' : ConnectionManager} (hleaves : LeavesClients m m') : EndpointStep m websocket r m'

lemma endpointStep (m : ConnectionManager) (websocket : WebSocket) (r : Resumption) :
    EndpointStep m websocket r (m.resumeEndpoint websocket r) := by
  unfold resumeEndpoint
  cases hlookup : m.endpoints.lookup websocket with
  | none => exact .moves .refl
  | some endpoint =>
    have hmoves : ∀ next, endpoint ≠ .sleeping ∨ m.activeConnections.keys ≠ [] →
        EndpointStep m websocket r (m.setEndpoint websocket next) := by
      intro next h
      refine .moves (leavesClients_setEndpoint next (h.imp_left fun hne => ?_))
      rw [hlookup]
      exact fun heq => hne (Option.some.inj heq)
    cases endpoint with
    | accepting =>
      dsimp only
      cases hraises : r.raises with
      | true => exact hmoves _ (.inl (by simp))
      | false => exact .accepts hlookup hraises
    | broadcasting b summary =>
      dsimp only
      cases b.resume m.activeConnections r <;> exact hmoves _ (.inl (by simp))
    | receiving =>
      dsimp only
      cases hraises : r.raises with
      | true => exact hmoves _ (.inl (by simp))
      | false =>
        cases htext : r.text with
        | none => exact hmoves _ (.inl (by simp))
        | some text => exact .hears hlookup hraises htext
    | configuring => exact hmoves _ (.inl (by simp))
    | closing =>
      dsimp only
      cases hdel : m.activeConnections.del websocket with
      | none => exact hmoves _ (.inl (by simp))
      | some d => exact .removes hlookup hdel
    | sleeping =>
      dsimp only
      split
      · exact .terminates
      · rename_i hsome
        exact hmoves _ (.inr (mt (keys_eq_nil_iff _).1 hsome))
    | terminating => exact .moves .refl
    | ended => exact .moves .refl

lemma leavesClients_handleEvents (events : List SyncthingEvent) :
    LeavesClients m (m.handleEvents events) := by
  induction events generalizing m with
  | nil => exact ⟨rfl, rfl, rfl, fun _ _ => id, id, id, Nat.le_refl _⟩
  | cons event events ih =>
    have hrecord : LeavesClients m (m.record event) := by
      cases event <;> exact ⟨rfl, rfl, rfl, fun _ _ => id, id, id, Nat.le_refl _⟩
    have hwaits : ∀ job, LeavesClients m { m.record event with autoPoll := job } := fun _ =>
      hrecord.trans ⟨rfl, rfl, rfl, fun _ _ => id, id, id, Nat.le_refl _⟩
    unfold handleEvents
    dsimp only
    split
    · exact hwaits _
    · split
      · exact hrecord.trans ih
      · exact hwaits _

lemma leavesClients_resumeAutoPoll (r : Resumption) : LeavesClients m (m.resumeAutoPoll r) := by
  have hwaits : ∀ job, LeavesClients m { m with autoPoll := job } := fun _ =>
    ⟨rfl, rfl, rfl, fun _ _ => id, id, id, Nat.le_refl _⟩
  unfold resumeAutoPoll
  split
  · exact hwaits _
  · exact leavesClients_handleEvents _
  · split
    · refine ⟨rfl, rfl, rfl, fun _ _ => id, ?_, ?_, Nat.le_refl _⟩
      · simp
      · simp
    · exact hwaits _
    · exact leavesClients_handleEvents _
  · exact hwaits _
  · exact leavesClients_handleEvents _
  · exact .refl

/-- What a step of the service does, as far as the clients are concerned. -/
inductive ServiceStep (settings : WorkspaceSettings) (m : ConnectionManager) :
    WorkspaceAction → ConnectionManager → Prop
  | endpoint {websocket : WebSocket} {r : Resumption} {m' : ConnectionManager}
    (hstep : EndpointStep m websocket r m') : ServiceStep settings m (.endpoint websocket r) m'
  | turn : ServiceStep settings m .autoDisconnect (m.resumeAutoDisconnect settings)
  | leaves {action : WorkspaceAction} {m' : ConnectionManager} (hleaves : LeavesClients m m')
    (hturn : isTurn action = false ∨ m.exited = true) : ServiceStep settings m action m'

lemma serviceStep (settings : WorkspaceSettings) (m : ConnectionManager) (action : WorkspaceAction) :
    ServiceStep settings m action (perform settings m action) := by
  unfold perform
  by_cases hexited : m.exited = true
  · rw [if_pos hexited]
    exact .leaves .refl (.inr hexited)
  · rw [if_neg hexited]
    cases action with
    | request websocket =>
      refine .leaves ?_ (.inl rfl)
      dsimp only
      split
      · exact .refl
      · refine ⟨rfl, rfl, rfl, fun _ other hsleeping => ?_, id, id, Nat.le_refl _⟩
        dsimp only
        rw [List.lookup_append, hsleeping, Option.some_or]
    | endpoint websocket r => exact .endpoint (endpointStep m websocket r)
    | autoDisconnect => exact .turn
    | autoPoll r => exact .leaves (leavesClients_resumeAutoPoll r) (.inl rfl)
    | tick seconds =>
      exact .leaves ⟨rfl, rfl, rfl, fun _ _ => id, id, id, Nat.le_add_right _ _⟩ (.inl rfl)
    | terminate =>
      refine .leaves ?_ (.inl rfl)
      dsimp only
      split
      · exact .refl
      · exact ⟨rfl, rfl, rfl, fun _ _ => id, id, id, Nat.le_refl _⟩
    | exit =>
      refine .leaves ⟨rfl, rfl, rfl, fun _ _ => id, id, ?_, Nat.le_refl _⟩ (.inl rfl)
      intro _ hset
      simpa using hset

/-- Where the job waits when it has these clients to close. -/
def inRound : List WebSocket → AutoDisconnect
  | [] => .waiting
  | websocket :: rest => .closing websocket rest

lemma disconnectNext_eq (m : ConnectionManager) (rest : List WebSocket) :
    m.disconnectNext rest = { m with autoDisconnect := some (inRound rest) } := by
  cases rest <;> rfl

lemma inRound_ne_terminating (rest : List WebSocket) : inRound rest ≠ .terminating := by
  cases rest <;> simp [inRound]

lemma inRound_ne_waiting {rest : List WebSocket} (h : rest ≠ []) : inRound rest ≠ .waiting := by
  cases rest with
  | nil => exact absurd rfl h
  | cons websocket rest => simp [inRound]

lemma chosen_inRound (rest : List WebSocket) : chosen (inRound rest) = rest := by
  cases rest <;> rfl

lemma turnsLeft_inRound (rest : List WebSocket) : turnsLeft (inRound rest) = 2 * rest.length := by
  cases rest with
  | nil => rfl
  | cons websocket rest =>
    rw [inRound, turnsLeft, List.length_cons]
    omega

lemma del_eq_some {d d' : ActiveConnections} {websocket : WebSocket}
    (h : d.del websocket = some d') :
    websocket ∈ d.keys ∧ d'.items = d.items.filter (·.1 ≠ websocket) := by
  unfold ActiveConnections.del at h
  split at h
  · rename_i hmem
    obtain rfl := Option.some.inj h
    exact ⟨hmem, rfl⟩
  · simp at h

lemma items_subset_of_del {d d' : ActiveConnections} {websocket : WebSocket}
    (h : d.del websocket = some d') : d'.items ⊆ d.items := by
  rw [(del_eq_some h).2]
  exact List.filter_subset_self _

lemma keys_assign_ne_nil (d : ActiveConnections) (websocket : WebSocket) (time : Nat) :
    (d.assign websocket time).keys ≠ [] := by
  unfold ActiveConnections.assign
  split
  · rename_i hmem
    intro hempty
    have hitems : d.items = [] := by simpa [ActiveConnections.keys] using hempty
    simp [ActiveConnections.keys, hitems] at hmem
  · simp [ActiveConnections.keys]

namespace Watched

lemma init (settings : WorkspaceSettings) : Watched (.init settings) := by
  unfold ConnectionManager.init
  split <;> exact ⟨by simp, by simp, by simp, by simp⟩

lemma assign (h : Watched m) (websocket : WebSocket) (time : Nat) :
    Watched { m with activeConnections := m.activeConnections.assign websocket time } :=
  ⟨h.running, h.stopped, h.exited, fun _ hkeys => absurd hkeys (keys_assign_ne_nil _ _ _)⟩

lemma connect (h : Watched m) (websocket : WebSocket) : Watched (m.connect websocket) := by
  have hassigned := h.assign websocket m.time
  have hkeys := keys_assign_ne_nil m.activeConnections websocket m.time
  unfold ConnectionManager.connect
  dsimp only
  split
  · refine Watched.leavesClients ?_ (leavesClients_setEndpoint _ (.inr hkeys))
    exact ⟨by simp, by simp, hassigned.exited, fun _ hempty => absurd hempty hkeys⟩
  · exact hassigned.leavesClients (leavesClients_setEndpoint _ (.inr hkeys))

lemma receiveText (h : Watched m) (websocket : WebSocket) (text : String) :
    Watched (m.receiveText websocket text) := by
  have hassigned := h.assign websocket m.time
  have hkeys := keys_assign_ne_nil m.activeConnections websocket m.time
  unfold ConnectionManager.receiveText
  dsimp only
  split <;> exact hassigned.leavesClients (leavesClients_setEndpoint _ (.inr hkeys))

lemma of_terminated (h : Watched m) (hlaunched : m'.syncthingWasLaunched = m.syncthingWasLaunched)
    (hjob : m.autoDisconnect ≠ none → m'.autoDisconnect ≠ none) (hterminated : m'.terminated ≠ []) :
    Watched m' := by
  refine ⟨?_, fun _ => hterminated, fun _ => hterminated, fun _ _ => .inl (.inl hterminated)⟩
  rw [hlaunched]
  exact fun hstarted => hjob (h.running hstarted)

lemma endpoint (h : Watched m) {websocket : WebSocket} {r : Resumption}
    (hstep : EndpointStep m websocket r m') : Watched m' := by
  cases hstep with
  | accepts => exact h.connect websocket
  | hears => exact h.receiveText websocket _
  | removes hlookup hdel =>
    refine ⟨h.running, h.stopped, h.exited, fun _ hkeys => .inl (.inr ⟨hkeys, websocket, ?_⟩)⟩
    rw [lookup_setEndpoint, if_pos rfl]
    dsimp only
    rw [hlookup]
    rfl
  | terminates => exact h.of_terminated rfl id (by simp)
  | moves hleaves => exact h.leavesClients hleaves

lemma turn (h : Watched m) : Watched (m.resumeAutoDisconnect settings) := by
  have hround : ∀ rest, (m.activeConnections.keys = [] → Deserted m) →
      Watched (m.disconnectNext rest) := by
    intro rest hempty
    rw [disconnectNext_eq]
    refine ⟨by simp, ?_, h.exited, fun _ hkeys => .inl (hempty hkeys)⟩
    intro hstopped
    exact absurd (Option.some.inj hstopped) (inRound_ne_terminating rest)
  unfold resumeAutoDisconnect
  cases hjob : m.autoDisconnect with
  | none => exact h
  | some job =>
    cases job with
    | waiting =>
      apply hround
      intro hkeys
      refine (h.empty (by simp [hjob]) hkeys).resolve_right ?_
      rintro ⟨rest, hsleeping⟩
      simp [hjob] at hsleeping
    | closing websocket rest =>
      dsimp only
      split
      · exact h.of_terminated rfl (by simp) (by simp)
      · exact ⟨by simp, by simp, h.exited, fun _ _ => .inr ⟨rest, rfl⟩⟩
    | sleeping rest =>
      dsimp only
      split
      · exact h.of_terminated rfl (by simp) (by simp)
      · rename_i hsome
        exact hround rest fun hkeys => absurd ((keys_eq_nil_iff _).1 hkeys) hsome
    | terminating => exact h

lemma perform (h : Watched m) (action : WorkspaceAction) :
    Watched (ConnectionManager.perform settings m action) := by
  have hservice := serviceStep settings m action
  generalize ConnectionManager.perform settings m action = m' at hservice ⊢
  cases hservice with
  | endpoint hstep => exact h.endpoint hstep
  | turn => exact h.turn
  | leaves hleaves => exact h.leavesClients hleaves

end Watched

/-- So many turns of the job are enough: those that it takes until it waits again and those of another
round, or without the latter if all clients are chosen already. -/
def Within (k : Nat) (m : ConnectionManager) : Prop :=
  Deserted m ∨ ∃ job, m.autoDisconnect = some job ∧ job ≠ .terminating ∧
    (turnsLeft job + 2 * m.activeConnections.items.length + 1 ≤ k ∨
      job ≠ .waiting ∧ m.activeConnections.keys ⊆ chosen job ∧ turnsLeft job ≤ k)

lemma AllSilent.of_subset (h : AllSilent settings m)
    (hitems : m'.activeConnections.items ⊆ m.activeConnections.items) (htime : m.time ≤ m'.time) :
    AllSilent settings m' :=
  fun item hitem => Nat.lt_of_lt_of_le (h item (hitems hitem)) htime

lemma AllSilent.turn (h : AllSilent settings m) :
    AllSilent settings (m.resumeAutoDisconnect settings) := by
  unfold resumeAutoDisconnect
  split
  · rw [disconnectNext_eq]
    exact h
  · split
    · exact h
    · rename_i hdel
      exact h.of_subset (items_subset_of_del hdel) (Nat.le_refl _)
  · split
    · exact h
    · rw [disconnectNext_eq]
      exact h
  · exact h

/-- What a silent step keeps. -/
structure Fading (settings : WorkspaceSettings) (k : Nat) (m : ConnectionManager) : Prop where
  watched : Watched m
  silent : AllSilent settings m
  within : Within k m

lemma Within.leavesClients {k : Nat} (h : Within k m) (hleaves : LeavesClients m m') :
    Within k m' := by
  unfold Within
  rw [hleaves.job, hleaves.connections]
  exact h.imp_left fun hdeserted => hdeserted.leavesClients hleaves

lemma Within.removes {k : Nat} (h : Within k m) {websocket : WebSocket} {d : ActiveConnections}
    (hdel : m.activeConnections.del websocket = some d) :
    Within k { m with activeConnections := d } := by
  obtain ⟨hmem, hitems⟩ := del_eq_some hdel
  rcases h with (hterminated | ⟨hkeys, -⟩) | ⟨job, hjob, hruns, hturns⟩
  · exact .inl (.inl hterminated)
  · rw [hkeys] at hmem
    cases hmem
  · refine .inr ⟨job, hjob, hruns, hturns.imp ?_ ?_⟩
    · intro hle
      have hless : d.items.length ≤ m.activeConnections.items.length := by
        rw [hitems]
        exact List.length_filter_le _ _
      dsimp only
      omega
    · rintro ⟨hbusy, hall, hle⟩
      exact ⟨hbusy, List.Subset.trans (List.map_subset _ (items_subset_of_del hdel)) hall, hle⟩

lemma expired_of_allSilent (h : AllSilent settings m) :
    m.expired settings = m.activeConnections.keys := by
  unfold expired ActiveConnections.keys
  rw [List.filter_eq_self.2 fun item hitem => decide_eq_true (h item hitem)]

lemma Deserted.turn (h : Deserted m) : Deserted (m.resumeAutoDisconnect settings) := by
  have hcalls : m.terminated ≠ [] → (m.resumeAutoDisconnect settings).terminated ≠ [] := by
    intro hterminated
    unfold resumeAutoDisconnect
    split
    · rwa [disconnectNext_terminated]
    · split
      · simp
      · exact hterminated
    · split
      · simp
      · rwa [disconnectNext_terminated]
    · exact hterminated
  rcases h with hterminated | ⟨hkeys, hsleeping⟩
  · exact .inl (hcalls hterminated)
  · have hdel : ∀ websocket, m.activeConnections.del websocket = none := by
      intro websocket
      rw [del_eq_none_iff, hkeys]
      exact List.not_mem_nil
    unfold resumeAutoDisconnect
    split
    · rw [disconnectNext_eq]
      exact .inr ⟨hkeys, hsleeping⟩
    · rw [hdel]
      exact .inl (by simp)
    · rw [if_pos ((keys_eq_nil_iff _).1 hkeys)]
      exact .inl (by simp)
    · exact .inr ⟨hkeys, hsleeping⟩

namespace Fading

variable {k : Nat}

/-- Every turn of the job brings the end nearer. -/
lemma turn (h : Fading settings k m) : Within (k - 1) (m.resumeAutoDisconnect settings) := by
  rcases h.within with hdeserted | ⟨job, hjob, hruns, hturns⟩
  · exact .inl hdeserted.turn
  by_cases hdeserted : Deserted m
  · exact .inl hdeserted.turn
  have hend : ∀ m' : ConnectionManager, m'.terminated ≠ [] → Within (k - 1) m' :=
    fun _ hterminated => .inl (.inl hterminated)
  unfold resumeAutoDisconnect
  rw [hjob]
  cases job with
  | waiting =>
    -- A new round chooses all clients.
    have hsome : m.activeConnections.keys ≠ [] := by
      intro hempty
      obtain ⟨rest, hsleeping⟩ := (h.watched.empty (by simp [hjob]) hempty).resolve_left hdeserted
      simp [hjob] at hsleeping
    have hle : 2 * m.activeConnections.items.length + 1 ≤ k := by
      simpa [turnsLeft] using hturns
    dsimp only
    rw [expired_of_allSilent h.silent, disconnectNext_eq]
    refine .inr ⟨_, rfl, inRound_ne_terminating _, .inr ⟨inRound_ne_waiting hsome, ?_, ?_⟩⟩
    · rw [chosen_inRound]
      exact List.Subset.refl _
    · rw [turnsLeft_inRound, ActiveConnections.keys, List.length_map]
      omega
  | closing websocket rest =>
    dsimp only
    cases hdel : m.activeConnections.del websocket with
    | none => exact hend _ (by simp)
    | some d =>
      obtain ⟨-, hitems⟩ := del_eq_some hdel
      refine .inr ⟨.sleeping rest, rfl, by simp, hturns.imp ?_ ?_⟩
      · intro hle
        have hless : d.items.length ≤ m.activeConnections.items.length := by
          rw [hitems]
          exact List.length_filter_le _ _
        simp only [turnsLeft] at hle ⊢
        omega
      · rintro ⟨-, hall, hle⟩
        refine ⟨by simp, ?_, by simp only [turnsLeft] at hle ⊢; omega⟩
        intro other hother
        have hmem : other ∈ m.activeConnections.keys ∧ other ≠ websocket := by
          unfold ActiveConnections.keys at hother ⊢
          rw [hitems] at hother
          obtain ⟨item, hitem, rfl⟩ := List.mem_map.1 hother
          obtain ⟨hitem, hne⟩ := List.mem_filter.1 hitem
          exact ⟨List.mem_map_of_mem hitem, by simpa using hne⟩
        exact (List.mem_cons.1 (hall hmem.1)).resolve_left hmem.2
  | sleeping rest =>
    dsimp only
    split
    · exact hend _ (by simp)
    · rename_i hsome
      have hkeys : m.activeConnections.keys ≠ [] := mt (keys_eq_nil_iff _).1 hsome
      rw [disconnectNext_eq]
      refine .inr ⟨_, rfl, inRound_ne_terminating _, hturns.imp ?_ ?_⟩
      · intro hle
        rw [turnsLeft_inRound]
        simp only [turnsLeft] at hle ⊢
        omega
      · rintro ⟨-, hall, hle⟩
        have hrest : rest ≠ [] := by
          rintro rfl
          exact hkeys (List.subset_nil.1 hall)
        rw [chosen_inRound, turnsLeft_inRound]
        refine ⟨inRound_ne_waiting hrest, hall, ?_⟩
        simp only [turnsLeft] at hle
        omega
  | terminating => exact absurd rfl hruns

lemma leavesClients (h : Fading settings k m) (hleaves : LeavesClients m m') :
    Fading settings k m' :=
  ⟨h.watched.leavesClients hleaves, h.silent.leavesClients hleaves, h.within.leavesClients hleaves⟩

lemma endpoint (h : Fading settings k m) {websocket : WebSocket} {r : Resumption}
    (hsilent : SilentStep m (.endpoint websocket r)) (hstep : EndpointStep m websocket r m') :
    Fading settings k m' := by
  have hwatched := h.watched.endpoint hstep
  cases hstep with
  | accepts hlookup hraises => simp [hsilent.1 hlookup] at hraises
  | hears hlookup hraises htext =>
    rcases hsilent.2 hlookup with hraised | hnone
    · simp [hraised] at hraises
    · simp [hnone] at htext
  | @removes hlookup d hdel =>
    have hsilent' : AllSilent settings { m with activeConnections := d } :=
      h.silent.of_subset (items_subset_of_del hdel) (Nat.le_refl _)
    have hwaking : m.endpoints.lookup websocket ≠ some .sleeping := by simp [hlookup]
    refine ⟨hwatched, hsilent', ?_⟩
    exact (h.within.removes hdel).leavesClients (leavesClients_setEndpoint _ (.inl hwaking))
  | terminates => exact ⟨hwatched, h.silent, .inl (.inl (by simp))⟩
  | moves hleaves => exact h.leavesClients hleaves

lemma step (h : Fading settings k m) {action : WorkspaceAction} (hsilent : SilentStep m action) :
    Fading settings (if isTurn action then k - 1 else k) (perform settings m action) := by
  have hservice := serviceStep settings m action
  generalize perform settings m action = m' at hservice ⊢
  cases hservice with
  | endpoint hstep => exact h.endpoint hsilent hstep
  | turn => exact ⟨h.watched.turn, h.silent.turn, h.turn⟩
  | leaves hleaves hturn =>
    rcases hturn with hother | hexited
    · rw [if_neg (by simp [hother])]
      exact h.leavesClients hleaves
    · obtain ⟨hwatched, hall, -⟩ := h.leavesClients hleaves
      exact ⟨hwatched, hall, .inl (.inl (hleaves.terminated (h.watched.exited hexited)))⟩

lemma deserted (h : Fading settings 0 m) : Deserted m := by
  rcases h.within with hdeserted | ⟨job, -, hruns, hle | ⟨hbusy, -, hle⟩⟩
  · exact hdeserted
  · omega
  · cases job with
    | waiting => exact absurd rfl hbusy
    | terminating => exact absurd rfl hruns
    | closing | sleeping => simp [turnsLeft] at hle

end Fading

lemma Spared.turn {websocket : WebSocket} (h : Spared websocket m)
    (htime : InTime settings websocket m) : Spared websocket (m.resumeAutoDisconnect settings) := by
  have hround : ∀ rest, websocket ∉ rest → Spared websocket (m.disconnectNext rest) := by
    intro rest hrest job hjob
    rw [disconnectNext_eq] at hjob
    obtain rfl := Option.some.inj hjob
    rwa [chosen_inRound]
  unfold resumeAutoDisconnect
  split
  · apply hround
    intro hexpired
    obtain ⟨item, hitem, rfl⟩ := List.mem_map.1 hexpired
    obtain ⟨hitem, hlate⟩ := List.mem_filter.1 hitem
    have hheard := htime item hitem rfl
    have hsilent := of_decide_eq_true hlate
    omega
  · rename_i other rest hjob
    have hrest := h _ hjob
    split
    · intro job hterminating
      obtain rfl := Option.some.inj hterminating
      exact List.not_mem_nil
    · intro job hsleeping
      obtain rfl := Option.some.inj hsleeping
      exact fun hmem => hrest (List.mem_cons_of_mem other hmem)
  · rename_i rest hjob
    split
    · intro job hterminating
      obtain rfl := Option.some.inj hterminating
      exact List.not_mem_nil
    · exact hround rest (h _ hjob)
  · exact h

lemma Spared.of_job {websocket : WebSocket} (h : Spared websocket m)
    (hjob : m'.autoDisconnect = m.autoDisconnect ∨ m'.autoDisconnect = some .waiting) :
    Spared websocket m' := by
  intro job hjob'
  rcases hjob with hsame | hwaiting
  · exact h job (hsame ▸ hjob')
  · rw [hwaiting] at hjob'
    obtain rfl := Option.some.inj hjob'
    exact List.not_mem_nil

lemma Spared.perform {websocket : WebSocket} (h : Spared websocket m) (action : WorkspaceAction)
    (htime : InTime settings websocket m) :
    Spared websocket (ConnectionManager.perform settings m action) := by
  have hservice := serviceStep settings m action
  generalize ConnectionManager.perform settings m action = m' at hservice ⊢
  cases hservice with
  | turn => exact h.turn htime
  | leaves hleaves => exact h.of_job (.inl hleaves.job)
  | endpoint hstep =>
    apply h.of_job
    cases hstep with
    | accepts =>
      unfold connect
      dsimp only
      split
      · exact .inr rfl
      · exact .inl rfl
    | hears =>
      unfold receiveText
      dsimp only
      split <;> exact .inl rfl
    | removes | terminates => exact .inl rfl
    | moves hleaves => exact .inl hleaves.job

/-- The job tells clients that are gone from those that are not, whatever else happens between its
awaits. A client that is heard in time is never chosen. Once all clients have been silent for too long
and nobody is heard any more, a round that runs and another one for all clients are enough: the service
is terminated, or the endpoint of the last client has removed it and terminates the service when it
wakes up. -/
theorem job_detects_silence (settings : WorkspaceSettings) (run : List WorkspaceAction) :
    let start := ConnectionManager.init settings
    let m := Runs.final (perform settings) start run
    (∀ websocket, Runs.AllStates (perform settings) (InTime settings websocket) start run →
      Runs.AllStates (perform settings) (Spared websocket) start run) ∧
    ∀ silence, m.syncthingWasLaunched = true → AllSilent settings m →
      Runs.AllSteps (perform settings) SilentStep m silence →
      turnsNeeded m ≤ silence.countP isTurn →
      let s := Runs.final (perform settings) m silence
      s.terminated ≠ [] ∨
        ∃ websocket, ∀ r, (perform settings s (.endpoint websocket r)).terminated ≠ [] := by
  intro start m
  have hwatched : Watched m :=
    Runs.final_of_invariant Watched (fun _ action h => h.perform action) (.init settings) run
  constructor
  · intro websocket htime
    have hstart : Spared websocket start := by
      refine fun job hjob => absurd hjob ?_
      unfold start ConnectionManager.init
      split <;> simp
    exact Runs.allStates_of_invariant (fun _ action h hstep => h.perform action hstep) hstart
      htime.allSteps
  · intro silence hlaunched hsilent hquiet hturns s
    have hfading : Fading settings (turnsNeeded m) m := by
      refine ⟨hwatched, hsilent, ?_⟩
      cases hjob : m.autoDisconnect with
      | none => exact absurd hjob (hwatched.running hlaunched)
      | some job =>
        by_cases hended : job = .terminating
        · subst hended
          exact .inl (.inl (hwatched.stopped hjob))
        · refine .inr ⟨job, hjob, hended, .inl (Nat.le_of_eq ?_)⟩
          rw [turnsNeeded, hjob]
          rfl
    have hend := Runs.final_of_progress (fun _ _ _ h hstep => h.step hstep) hfading hquiet
    rw [Nat.sub_eq_zero_of_le hturns] at hend
    rcases hend.deserted with hterminated | ⟨hkeys, websocket, hsleeping⟩
    · exact .inl hterminated
    · by_cases hexited : s.exited = true
      · exact .inl (hend.watched.exited hexited)
      · refine .inr ⟨websocket, fun r => ?_⟩
        have hresume : s.resumeEndpoint websocket r =
            s.terminateAll.setEndpoint websocket .terminating := by
          simp only [resumeEndpoint, s, hsleeping, (keys_eq_nil_iff _).1 hkeys, if_true]
        rw [ConnectionManager.perform, if_neg hexited]
        simp [hresume]

section

/-- Two clients connect, and the endpoint of the first one dies. -/
def strayClient : List WorkspaceAction :=
  sampleClients ++ [.endpoint 1 { raises := true }, .tick 11]

/-- The job closes both clients. -/
theorem job_detects_silence_stray :
    let settings : WorkspaceSettings := ⟨10, false⟩
    let m := Runs.final (perform settings) (.init settings) strayClient
    let s := Runs.final (perform settings) m (List.replicate 5 .autoDisconnect)
    m.activeConnections.keys = [1, 2] ∧ s.terminated = [[]] ∧
      (s.terminated ≠ [] ∨
        ∃ websocket, ∀ r, (perform settings s (.endpoint websocket r)).terminated ≠ []) := by
  intro settings m s
  have hsilent : AllSilent settings m := by decide
  have hquiet : Runs.AllSteps (perform settings) SilentStep m (List.replicate 5 .autoDisconnect) :=
    ⟨trivial, trivial, trivial, trivial, trivial, trivial⟩
  refine ⟨by decide, by decide, ?_⟩
  exact (job_detects_silence settings strayClient).2 _ (by decide) hsilent hquiet (by decide)

end

end SilentClients

end RenderStudioKit.Proofs
