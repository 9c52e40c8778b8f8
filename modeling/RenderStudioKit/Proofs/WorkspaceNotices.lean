import RenderStudioKit.Model.Workspace
import RenderStudioKit.Model.WorkspacePath
import RenderStudioKit.Proofs.PollBroadcasts
import RenderStudioKit.Proofs.SilentClients

/-!
# What the kit knows of the workspace

The service tells its clients in several tasks at once: the poll job tells what Syncthing did, and each
endpoint tells the last states when a client joins. The two kinds do not meet: the updated files and the
pauses that the kit knows of are those that the poll job was given.
-/

namespace RenderStudioKit.Proofs.PollBroadcasts

open ConnectionManager RenderStudioNotice

/-- The service with what the poll job and what all tasks here have sent. `auto_check_connected_device`
and the farewell of `terminate`, which send `Event::Connection` and nothing else, are not among them. -/
structure KitRecord where
  poll : PollRecord
  heard : List (WebSocket × WorkspaceEvent) := []

/-- What has been sent when a task resumes. -/
def hears (m : ConnectionManager) : WorkspaceAction → List (WebSocket × WorkspaceEvent)
  | .endpoint websocket r =>
    match m.endpoints.lookup websocket with
    | some (.broadcasting b _) => if r.raises then [] else [(b.connection, b.message)]
    | _ => []
  | action => sends m action

def listen (settings : WorkspaceSettings) (s : KitRecord) (action : WorkspaceAction) : KitRecord :=
  { poll := record settings s.poll action
    heard := if s.poll.manager.exited then s.heard else s.heard ++ hears s.poll.manager action }

/-- What a client was told by all tasks, in this order. -/
def heardBy (s : KitRecord) (websocket : WebSocket) : List WorkspaceEvent :=
  (s.heard.filter (·.1 = websocket)).map Prod.snd

/-- Only the poll job tells it. -/
def isNews : WorkspaceEvent → Bool
  | .fileUpdated _ => true
  | .paused => true
  | .resumed => true
  | _ => false

/-- The state of a message is one of those that the kit has a name for. -/
def Known : WorkspaceEvent → Prop
  | .stateChanged state => WorkspaceState.of state ≠ .other
  | _ => True

def IsStatus (e : WorkspaceEvent) : Prop := isNews e = false ∧ Known e

/-- What the endpoints tell or will tell are states that the kit has a name for. -/
structure Statuses (m : ConnectionManager) : Prop where
  folder : ∀ e, m.lastFolderSummaryEvent = some e → IsStatus e
  device : ∀ e, m.lastDeviceConnectedEvent = some e → IsStatus e
  endpoints : ∀ websocket b summary,
    m.endpoints.lookup websocket = some (.broadcasting b summary) → IsStatus b.message

def noticeOf : WorkspaceEvent → Option WorkspaceNotice
  | .fileUpdated path => some (.fileUpdated path)
  | .stateChanged state => some (.workspaceState (.of state))
  | .connection connected => some (.workspaceConnectionChanged connected)
  | _ => none

def stateOf : WorkspaceEvent → Option String
  | .stateChanged state => some state
  | _ => none

def connectionOf : WorkspaceEvent → Option Bool
  | .connection connected => some connected
  | _ => none

def pauseOf : WorkspaceEvent → Option Bool
  | .paused => some true
  | .resumed => some false
  | _ => none

def pathOf : WorkspaceEvent → Option String
  | .fileUpdated path => some path
  | _ => none

/-- The last of some values, or the one before them. -/
def lastOr {α : Type} (before : α) (values : List α) : α := values.getLast?.getD before

lemma lastOr_cons {α : Type} (before : α) (value : Option α) (values : List α) :
    lastOr before (value.toList ++ values) = lastOr (value.getD before) values := by
  cases value with
  | none => rfl
  | some a =>
    cases values with
    | nil => rfl
    | cons b values => simp [lastOr, List.getLast?_cons]

lemma filterMap_cons_toList {α β : Type} (f : α → Option β) (a : α) (l : List α) :
    (a :: l).filterMap f = (f a).toList ++ l.filterMap f := by
  cases h : f a with
  | none => simp [h]
  | some b => simp [h]

section

variable [Usd]

/-- The kit after some messages. -/
def hear (w : Workspace) (heard : List WorkspaceEvent) : Workspace :=
  heard.foldl (fun w e => w.onMessage e.toJson) w

/-- The paths of the notices about updated files. -/
def updatedFiles (w : Workspace) : List String :=
  w.notices.filterMap fun notice =>
    match notice with
    | .fileUpdated path => some path
    | _ => none

lemma onMessage_toJson (w : Workspace) (e : WorkspaceEvent) :
    w.onMessage e.toJson =
      { w with
        sLastState := (stateOf e).getD w.sLastState
        sPaused := (pauseOf e).getD w.sPaused
        sConnected := (connectionOf e).getD w.sConnected
        notices := w.notices ++ (noticeOf e).toList } := by
  cases e with
  | fileUpdated path => rfl
  | stateChanged state => rfl
  | connection connected => rfl
  | paused =>
    have hpaused : w.onMessage WorkspaceEvent.paused.toJson = { w with sPaused := true } := rfl
    simp [hpaused, stateOf, pauseOf, connectionOf, noticeOf]
  | resumed =>
    have hresumed : w.onMessage WorkspaceEvent.resumed.toJson = { w with sPaused := false } := rfl
    simp [hresumed, stateOf, pauseOf, connectionOf, noticeOf]

lemma hear_eq (w : Workspace) (heard : List WorkspaceEvent) :
    hear w heard =
      { w with
        sLastState := lastOr w.sLastState (heard.filterMap stateOf)
        sPaused := lastOr w.sPaused (heard.filterMap pauseOf)
        sConnected := lastOr w.sConnected (heard.filterMap connectionOf)
        notices := w.notices ++ heard.filterMap noticeOf } := by
  induction heard generalizing w with
  | nil => simp [hear, lastOr]
  | cons e heard ih =>
    have hstep : hear w (e :: heard) = hear (w.onMessage e.toJson) heard := rfl
    rw [hstep, ih, onMessage_toJson]
    simp only [filterMap_cons_toList, lastOr_cons, List.append_assoc]

end

section

variable {m m' : ConnectionManager}

lemma Statuses.of_eq (h : Statuses m) (hfolder : m'.lastFolderSummaryEvent = m.lastFolderSummaryEvent)
    (hdevice : m'.lastDeviceConnectedEvent = m.lastDeviceConnectedEvent)
    (hendpoints : m'.endpoints = m.endpoints) : Statuses m' := by
  refine ⟨?_, ?_, ?_⟩
  · rw [hfolder]
    exact h.folder
  · rw [hdevice]
    exact h.device
  · rw [hendpoints]
    exact h.endpoints

/-- What an endpoint broadcasts is a state that the kit has a name for. -/
def Tells (endpoint : Endpoint) : Prop :=
  ∀ b summary, endpoint = .broadcasting b summary → IsStatus b.message

lemma Statuses.setEndpoint (h : Statuses m) (websocket : WebSocket) {endpoint : Endpoint}
    (htells : Tells endpoint) : Statuses (m.setEndpoint websocket endpoint) := by
  refine ⟨h.folder, h.device, ?_⟩
  intro other b summary hlookup
  rw [SilentClients.lookup_setEndpoint] at hlookup
  by_cases hother : other = websocket
  · rw [if_pos hother, Option.map_eq_some_iff] at hlookup
    obtain ⟨_, -, heq⟩ := hlookup
    exact htells b summary heq
  · rw [if_neg hother] at hlookup
    exact h.endpoints other b summary hlookup

lemma Statuses.quiet (h : Statuses m) (websocket : WebSocket) {endpoint : Endpoint}
    (hne : ∀ b summary, endpoint ≠ .broadcasting b summary)
    (hfolder : m'.lastFolderSummaryEvent = m.lastFolderSummaryEvent)
    (hdevice : m'.lastDeviceConnectedEvent = m.lastDeviceConnectedEvent)
    (hendpoints : m'.endpoints = m.endpoints) : Statuses (m'.setEndpoint websocket endpoint) :=
  (h.of_eq hfolder hdevice hendpoints).setEndpoint websocket fun b summary heq =>
    absurd heq (hne b summary)

lemma Statuses.broadcastSummary (h : Statuses m) : Tells m.broadcastSummary := by
  unfold ConnectionManager.broadcastSummary
  cases hb : m.lastFolderSummaryEvent.bind m.activeConnections.broadcast with
  | none =>
    rintro _ _ heq
    cases heq
  | some b =>
    rintro _ _ heq
    cases heq
    obtain ⟨e, he, hbroadcast⟩ := Option.bind_eq_some_iff.1 hb
    rw [(broadcast_spec hbroadcast).1]
    exact h.folder e he

lemma Statuses.broadcastConnected (h : Statuses m) : Tells m.broadcastConnected := by
  unfold ConnectionManager.broadcastConnected
  cases hb : m.lastDeviceConnectedEvent.bind m.activeConnections.broadcast with
  | none => exact h.broadcastSummary
  | some b =>
    rintro _ _ heq
    cases heq
    obtain ⟨e, he, hbroadcast⟩ := Option.bind_eq_some_iff.1 hb
    rw [(broadcast_spec hbroadcast).1]
    exact h.device e he

lemma Statuses.connect (h : Statuses m) (websocket : WebSocket) : Statuses (m.connect websocket) := by
  unfold ConnectionManager.connect
  dsimp only
  split
  · exact h.quiet websocket (by simp) rfl rfl rfl
  · have hassigned : Statuses { m with
        activeConnections := m.activeConnections.assign websocket m.time } := h.of_eq rfl rfl rfl
    exact hassigned.setEndpoint websocket hassigned.broadcastConnected

lemma Statuses.receiveText (h : Statuses m) (websocket : WebSocket) (text : String) :
    Statuses (m.receiveText websocket text) := by
  unfold ConnectionManager.receiveText
  dsimp only
  split
  · exact h.quiet websocket (by simp) rfl rfl rfl
  · exact h.quiet websocket (by simp) rfl rfl rfl

lemma Statuses.resumeEndpoint (h : Statuses m) (websocket : WebSocket) (r : Resumption) :
    Statuses (m.resumeEndpoint websocket r) := by
  unfold ConnectionManager.resumeEndpoint
  cases hlookup : m.endpoints.lookup websocket with
  | none => exact h
  | some endpoint =>
    cases endpoint with
    | accepting =>
      dsimp only
      split
      · exact h.quiet websocket (by simp) rfl rfl rfl
      · exact h.connect websocket
    | broadcasting b summary =>
      dsimp only
      cases hresume : b.resume m.activeConnections r with
      | raised => exact h.quiet websocket (by simp) rfl rfl rfl
      | finished =>
        cases summary with
        | true => exact h.setEndpoint websocket h.broadcastSummary
        | false => exact h.quiet websocket (by simp) rfl rfl rfl
      | sending next =>
        -- the broadcast goes on with the same message
        refine h.setEndpoint websocket fun b' summary' heq => ?_
        cases heq
        rw [(resume_sending hresume).2.1]
        exact h.endpoints websocket b summary hlookup
    | receiving =>
      dsimp only
      split
      · exact h.quiet websocket (by simp) rfl rfl rfl
      · split
        · exact h.quiet websocket (by simp) rfl rfl rfl
        · exact h.receiveText websocket _
    | configuring => exact h.quiet websocket (by simp) rfl rfl rfl
    | closing =>
      dsimp only
      split
      · exact h.quiet websocket (by simp) rfl rfl rfl
      · exact h.quiet websocket (by simp) rfl rfl rfl
    | sleeping =>
      dsimp only
      split
      · exact h.quiet websocket (by simp) rfl rfl rfl
      · exact h.quiet websocket (by simp) rfl rfl rfl
    | terminating => exact h
    | ended => exact h

lemma Statuses.resumeAutoDisconnect (h : Statuses m) (settings : WorkspaceSettings) :
    Statuses (m.resumeAutoDisconnect settings) := by
  have hnext : ∀ rest, Statuses (m.disconnectNext rest) := by
    intro rest
    cases rest with
    | nil => exact h.of_eq rfl rfl rfl
    | cons websocket rest => exact h.of_eq rfl rfl rfl
  unfold ConnectionManager.resumeAutoDisconnect
  cases m.autoDisconnect with
  | none => exact h
  | some job =>
    cases job with
    | waiting => exact hnext _
    | closing websocket rest =>
      dsimp only
      split
      · exact h.of_eq rfl rfl rfl
      · exact h.of_eq rfl rfl rfl
    | sleeping rest =>
      dsimp only
      split
      · exact h.of_eq rfl rfl rfl
      · exact hnext rest
    | terminating => exact h

lemma known_message (event : SyncthingEvent) {e : WorkspaceEvent} (h : event.message = some e) :
    Known e := by
  cases event with
  | stateChanged state =>
    simp only [SyncthingEvent.message, Option.ite_none_right_eq_some, Option.some_inj] at h
    obtain ⟨rfl, rfl⟩ := h
    simp [Known, WorkspaceState.of]
  | folderSummary globalBytes inSyncBytes =>
    obtain rfl := Option.some.inj h
    unfold Known SyncthingEvent.summaryState
    dsimp only
    split_ifs <;> simp [WorkspaceState.of]
  | itemFinished item =>
    obtain rfl := Option.some.inj h
    trivial
  | deviceConnected =>
    obtain rfl := Option.some.inj h
    trivial
  | folderPaused =>
    obtain rfl := Option.some.inj h
    trivial
  | folderResumed =>
    obtain rfl := Option.some.inj h
    trivial
  | pendingDevicesChanged added => cases h
  | pendingFoldersChanged added => cases h
  | folderErrors => cases h
  | other => cases h

lemma Statuses.record (h : Statuses m) (event : SyncthingEvent) : Statuses (m.record event) := by
  cases event with
  | deviceConnected =>
    refine ⟨h.folder, fun e he => ?_, h.endpoints⟩
    obtain rfl := Option.some.inj he
    exact ⟨rfl, trivial⟩
  | folderSummary globalBytes inSyncBytes =>
    refine ⟨fun e he => ?_, h.device, h.endpoints⟩
    have hknown := known_message (.folderSummary globalBytes inSyncBytes) he
    obtain rfl := Option.some.inj he
    exact ⟨rfl, hknown⟩
  | _ => exact h

lemma Statuses.handleEvents (h : Statuses m) (events : List SyncthingEvent) :
    Statuses (m.handleEvents events) := by
  induction events generalizing m with
  | nil => exact h.of_eq rfl rfl rfl
  | cons event events ih =>
    have hrecord := h.record event
    unfold ConnectionManager.handleEvents
    dsimp only
    split
    · exact hrecord.of_eq rfl rfl rfl
    · split
      · exact ih hrecord
      · exact hrecord.of_eq rfl rfl rfl

lemma Statuses.resumeAutoPoll (h : Statuses m) (r : Resumption) : Statuses (m.resumeAutoPoll r) := by
  unfold ConnectionManager.resumeAutoPoll
  cases m.autoPoll with
  | none => exact h
  | some job =>
    cases job with
    | waiting => exact h.of_eq rfl rfl rfl
    | requesting => exact h.handleEvents r.events
    | broadcasting b events =>
      dsimp only
      cases b.resume m.activeConnections r with
      | raised => exact h.of_eq rfl rfl rfl
      | finished => exact h.handleEvents events
      | sending next => exact h.of_eq rfl rfl rfl
    | configuring calls events =>
      cases calls with
      | zero => exact h.handleEvents events
      | succ calls => exact h.of_eq rfl rfl rfl
    | terminating => exact h

/-- One step of the service. -/
lemma Statuses.perform (h : Statuses m) (settings : WorkspaceSettings) (action : WorkspaceAction) :
    Statuses (perform settings m action) := by
  unfold ConnectionManager.perform
  split
  · exact h
  · cases action with
    | request websocket =>
      dsimp only
      split
      · exact h
      · refine ⟨h.folder, h.device, fun other b summary hlookup => ?_⟩
        rw [List.lookup_append] at hlookup
        cases hother : m.endpoints.lookup other with
        | some endpoint =>
          rw [hother, Option.some_or] at hlookup
          exact h.endpoints other b summary (hother.trans hlookup)
        | none =>
          rw [hother, Option.none_or, List.lookup_cons] at hlookup
          split at hlookup
          · cases hlookup
          · cases hlookup
    | endpoint websocket r => exact h.resumeEndpoint websocket r
    | autoDisconnect => exact h.resumeAutoDisconnect settings
    | autoPoll r => exact h.resumeAutoPoll r
    | tick seconds => exact h.of_eq rfl rfl rfl
    | terminate =>
      dsimp only
      split
      · exact h
      · refine ⟨h.folder, fun e he => ?_, h.endpoints⟩
        obtain rfl := Option.some.inj he
        exact ⟨rfl, trivial⟩
    | exit => exact h.of_eq rfl rfl rfl

end

section

variable {s : KitRecord} (settings : WorkspaceSettings)

lemma poll_final (s : KitRecord) (run : List WorkspaceAction) :
    (Runs.final (listen settings) s run).poll = Runs.final (record settings) s.poll run := by
  induction run generalizing s with
  | nil => rfl
  | cons action run ih =>
    rw [Runs.final_cons, ih, Runs.final_cons]
    rfl

lemma hears_cases {m : ConnectionManager} (h : Statuses m) (action : WorkspaceAction) :
    hears m action = sends m action ∨
      sends m action = [] ∧ ∀ item ∈ hears m action, IsStatus item.2 := by
  cases action with
  | endpoint websocket r =>
    refine .inr ⟨rfl, fun item hitem => ?_⟩
    unfold hears at hitem
    dsimp only at hitem
    split at hitem
    · rename_i b summary hlookup
      split at hitem
      · exact absurd hitem List.not_mem_nil
      · rw [List.mem_singleton.1 hitem]
        exact h.endpoints websocket b summary hlookup
    · exact absurd hitem List.not_mem_nil
  | _ => exact .inl rfl

/-- What a client is told is what the poll job tells it and states between. -/
structure Mixed (s : KitRecord) : Prop where
  statuses : Statuses s.poll.manager
  news : ∀ websocket, (heardBy s websocket).filter isNews = (told s.poll websocket).filter isNews
  known : ∀ websocket, ∀ e ∈ heardBy s websocket, e ∈ told s.poll websocket ∨ IsStatus e

lemma Mixed.listen (h : Mixed s) (action : WorkspaceAction) : Mixed (listen settings s action) := by
  unfold PollBroadcasts.listen
  cases hexited : s.poll.manager.exited with
  | true =>
    have hsame : record settings s.poll action = s.poll := by rw [record, hexited, if_pos rfl]
    rw [hsame, if_pos rfl]
    exact h
  | false =>
    rw [if_neg Bool.false_ne_true]
    have hrecord : record settings s.poll action =
        { manager := perform settings s.poll.manager action
          fetched := s.poll.fetched ++ fetches s.poll.manager action
          sent := s.poll.sent ++ sends s.poll.manager action
          passed := passes s.poll action } := by
      rw [record, hexited, if_neg Bool.false_ne_true]
    have htold : ∀ websocket, told (record settings s.poll action) websocket =
        told s.poll websocket ++
          ((sends s.poll.manager action).filter (·.1 = websocket)).map Prod.snd := by
      intro websocket
      rw [hrecord]
      exact told_append s.poll _ websocket
    have hheard : ∀ websocket, heardBy
        { poll := record settings s.poll action
          heard := s.heard ++ hears s.poll.manager action } websocket =
        heardBy s websocket ++
          ((hears s.poll.manager action).filter (·.1 = websocket)).map Prod.snd := by
      intro websocket
      rw [heardBy, List.filter_append, List.map_append]
      rfl
    refine ⟨?_, fun websocket => ?_, fun websocket e he => ?_⟩
    · rw [hrecord]
      exact h.statuses.perform settings action
    · rw [hheard, htold, List.filter_append, List.filter_append, h.news]
      rcases hears_cases h.statuses action with hsame | ⟨hnone, hstatus⟩
      · rw [hsame]
      · -- the states that an endpoint tells are no news
        have hquiet : (((hears s.poll.manager action).filter (·.1 = websocket)).map Prod.snd).filter
            isNews = [] := by
          apply List.filter_eq_nil_iff.2
          intro e he
          obtain ⟨item, hitem, rfl⟩ := List.mem_map.1 he
          rw [(hstatus item (List.mem_filter.1 hitem).1).1]
          exact Bool.false_ne_true
        rw [hquiet, hnone]
        rfl
    · rw [hheard, List.mem_append] at he
      rw [htold]
      rcases he with he | he
      · exact (h.known websocket e he).imp_left (List.mem_append_left _)
      · rcases hears_cases h.statuses action with hsame | ⟨-, hstatus⟩
        · rw [hsame] at he
          exact .inl (List.mem_append_right _ he)
        · obtain ⟨item, hitem, rfl⟩ := List.mem_map.1 he
          exact .inr (hstatus item (List.mem_filter.1 hitem).1)

lemma mixed_init : Mixed { poll := { manager := .init settings } } := by
  refine ⟨?_, fun _ => rfl, fun _ e he => absurd he List.not_mem_nil⟩
  unfold ConnectionManager.init
  split
  · refine ⟨fun e he => ?_, fun e he => ?_, fun _ _ _ hlookup => ?_⟩
    · obtain rfl := Option.some.inj he
      exact ⟨rfl, by simp [Known, WorkspaceState.of]⟩
    · obtain rfl := Option.some.inj he
      exact ⟨rfl, trivial⟩
    · cases hlookup
  · refine ⟨fun _ he => ?_, fun _ he => ?_, fun _ _ _ hlookup => ?_⟩
    · cases he
    · cases he
    · cases hlookup

lemma Mixed.final (h : Mixed s) (run : List WorkspaceAction) :
    Mixed (Runs.final (PollBroadcasts.listen settings) s run) := by
  induction run generalizing s with
  | nil => exact h
  | cons action run ih => exact ih (h.listen settings action)

end

/-- The studio path of a file that Syncthing has updated. -/
def finished : SyncthingEvent → Option String
  | .itemFinished item => some ("studio:/" ++ .ofList (item.toList.map forwardSlash))
  | _ => none

def pauses : SyncthingEvent → Option Bool
  | .folderPaused => some true
  | .folderResumed => some false
  | _ => none

lemma filterMap_messages {α : Type} {f : WorkspaceEvent → Option α} {g : SyncthingEvent → Option α}
    (h : ∀ event : SyncthingEvent, event.message.bind f = g event) (events : List SyncthingEvent) :
    (messages events).filterMap f = events.filterMap g := by
  rw [messages, List.filterMap_filterMap]
  congr 1
  funext event
  exact h event

lemma pathOf_message (event : SyncthingEvent) : event.message.bind pathOf = finished event := by
  cases event with
  | stateChanged state =>
    simp only [SyncthingEvent.message, finished]
    split <;> rfl
  | _ => rfl

lemma pauseOf_message (event : SyncthingEvent) : event.message.bind pauseOf = pauses event := by
  cases event with
  | stateChanged state =>
    simp only [SyncthingEvent.message, pauses]
    split <;> rfl
  | _ => rfl

lemma filterMap_news {α : Type} {f : WorkspaceEvent → Option α} (h : ∀ e, isNews e = false → f e = none)
    (heard : List WorkspaceEvent) : heard.filterMap f = (heard.filter isNews).filterMap f := by
  induction heard with
  | nil => rfl
  | cons e heard ih =>
    cases hnews : isNews e with
    | true => rw [List.filter_cons_of_pos hnews, List.filterMap_cons, List.filterMap_cons, ih]
    | false =>
      rw [List.filter_cons_of_neg (by simp [hnews]), List.filterMap_cons_none (h e hnews), ih]

lemma pathOf_status (e : WorkspaceEvent) (h : isNews e = false) : pathOf e = none := by
  cases e with
  | fileUpdated path => cases h
  | _ => rfl

lemma pauseOf_status (e : WorkspaceEvent) (h : isNews e = false) : pauseOf e = none := by
  cases e with
  | paused => cases h
  | resumed => cases h
  | _ => rfl

lemma filterMap_heard {α : Type} {f : WorkspaceEvent → Option α} (h : ∀ e, isNews e = false → f e = none)
    {s : KitRecord} (hs : Mixed s) (websocket : WebSocket) :
    (heardBy s websocket).filterMap f = (told s.poll websocket).filterMap f := by
  rw [filterMap_news h, hs.news, ← filterMap_news h]

lemma updatedFiles_hear [Usd] (w : Workspace) (heard : List WorkspaceEvent) :
    updatedFiles (hear w heard) = updatedFiles w ++ heard.filterMap pathOf := by
  rw [hear_eq, updatedFiles, List.filterMap_append, List.filterMap_filterMap]
  congr 2
  funext e
  cases e <;> rfl

lemma lastOr_append {α : Type} (before : α) (values later : List α) :
    lastOr before (values ++ later) = lastOr (lastOr before values) later := by
  cases hlater : later.getLast? with
  | none => simp [lastOr, List.getLast?_append, hlater]
  | some a => simp [lastOr, List.getLast?_append, hlater]

lemma sPaused_hear [Usd] {s : KitRecord} (hs : Mixed s) (w : Workspace) (websocket : WebSocket) :
    (hear w (heardBy s websocket)).sPaused =
      lastOr w.sPaused ((told s.poll websocket).filterMap pauseOf) := by
  rw [hear_eq, filterMap_heard pauseOf_status hs]

/-- For every order of the awaits of the service, of clients that come and go and of failures: the kit
understands every message and has a name for every state, and the updated files that it gives notice of
are items that Syncthing has finished, in their order and none twice. From a state in which the poll job
waits to the next one, a kit that stays connected gives notice of all files that were finished in
between, and knows whether the folder was paused or resumed last, if no broadcast is disturbed. -/
theorem kit_follows_syncthing [Usd] (settings : WorkspaceSettings) (w : Workspace)
    (run : List WorkspaceAction)
    (hsteady : Runs.AllSteps (record settings) Steady { manager := .init settings } run) :
    let s := Runs.final (listen settings) { poll := { manager := .init settings } } run
    ∀ websocket,
      (hear w (heardBy s websocket)).notices =
        w.notices ++ (heardBy s websocket).filterMap noticeOf ∧
      (∀ state, .stateChanged state ∈ heardBy s websocket → WorkspaceState.of state ≠ .other) ∧
      (∃ files, updatedFiles (hear w (heardBy s websocket)) = updatedFiles w ++ files ∧
        files.Sublist (s.poll.fetched.filterMap finished)) ∧
      ∀ more, s.poll.manager.autoPoll = some .waiting →
        Runs.AllStates (record settings) (fun s => websocket ∈ s.manager.activeConnections.keys)
          s.poll more →
        Runs.AllSteps (record settings) Undisturbed s.poll more →
        let s' := Runs.final (listen settings) s more
        s'.poll.manager.autoPoll = some .waiting →
        ∃ new, s'.poll.fetched = s.poll.fetched ++ new ∧
          updatedFiles (hear w (heardBy s' websocket)) =
            updatedFiles (hear w (heardBy s websocket)) ++ new.filterMap finished ∧
          (hear w (heardBy s' websocket)).sPaused =
            lastOr (hear w (heardBy s websocket)).sPaused (new.filterMap pauses) := by
  intro s websocket
  have hmixed : Mixed s := (mixed_init settings).final settings run
  have hpoll : s.poll = Runs.final (record settings) { manager := .init settings } run :=
    poll_final settings _ run
  obtain ⟨hsound, howed⟩ := sound_run settings hsteady
  rw [← hpoll] at hsound
  have htold : (told s.poll websocket).Sublist (messages s.poll.fetched) := by
    rw [hpoll]
    exact (told_sublist_owed _ websocket).trans (howed websocket)
  refine ⟨by rw [hear_eq], ?_, ?_, ?_⟩
  · intro state hstate
    rcases hmixed.known websocket _ hstate with hmem | hstatus
    · obtain ⟨event, -, hevent⟩ := List.mem_filterMap.1 (htold.subset hmem)
      exact known_message event hevent
    · exact hstatus.2
  · refine ⟨_, updatedFiles_hear w _, ?_⟩
    rw [filterMap_heard pathOf_status hmixed, ← filterMap_messages pathOf_message]
    exact htold.filterMap pathOf
  · intro more hwaiting hkeys hrun s' hwaiting'
    have hmixed' : Mixed s' := hmixed.final settings more
    have hpoll' : s'.poll = Runs.final (record settings) s.poll more := poll_final settings s more
    rw [hpoll'] at hwaiting'
    obtain ⟨new, hfetched, hnew⟩ := told_run hsound settings hwaiting hkeys hrun hwaiting'
    refine ⟨new, ?_, ?_, ?_⟩
    · rw [hpoll', hfetched]
    · rw [updatedFiles_hear, updatedFiles_hear, filterMap_heard pathOf_status hmixed',
        filterMap_heard pathOf_status hmixed, hpoll', hnew, List.filterMap_append,
        filterMap_messages pathOf_message, List.append_assoc]
    · rw [sPaused_hear hmixed', sPaused_hear hmixed, hpoll', hnew, List.filterMap_append,
        filterMap_messages pauseOf_message, lastOr_append]

section

attribute [local instance] Usd.sample

/-- Two clients while Syncthing finishes a file and the folder is paused. -/
theorem kit_follows_syncthing_two :
    let settings : WorkspaceSettings := ⟨30, false⟩
    let s := Runs.final (listen settings) { poll := { manager := .init settings } }
      [.request 0, .endpoint 0 {}, .request 1, .endpoint 1 {}]
    let more := [.autoPoll {}, .autoPoll { events := [.itemFinished "d\\a.usda", .folderPaused] },
      .autoPoll {}, .autoPoll {}, .autoPoll {}, .autoPoll {}]
    let s' := Runs.final (listen settings) s more
    (hear {} (heardBy s' 1)).notices = [.fileUpdated "studio:/d/a.usda"] ∧
      ∃ new, s'.poll.fetched = s.poll.fetched ++ new ∧
        updatedFiles (hear {} (heardBy s' 1)) =
          updatedFiles (hear {} (heardBy s 1)) ++ new.filterMap finished ∧
        (hear {} (heardBy s' 1)).sPaused =
          lastOr (hear {} (heardBy s 1)).sPaused (new.filterMap pauses) := by
  have hsteady : Runs.AllSteps (record ⟨30, false⟩) Steady { manager := .init ⟨30, false⟩ }
      [.request 0, .endpoint 0 {}, .request 1, .endpoint 1 {}] :=
    ⟨trivial, trivial, trivial, trivial, trivial⟩
  obtain ⟨-, -, -, hfollows⟩ := kit_follows_syncthing _ {} _ hsteady 1
  exact ⟨by decide, hfollows _ (by decide) (by decide) (by decide) (by decide)⟩

end

end RenderStudioKit.Proofs.PollBroadcasts
