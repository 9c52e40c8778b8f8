import RenderStudioKit.Model.Syncthing

/-!
# The connections of the workspace service

`ConnectionManager` runs on one event loop: a task runs to its next await and the others take steps
before it resumes. The tasks are one endpoint for each websocket, the job that disconnects clients
that no longer ping and the job that polls Syncthing. Calls to Syncthing succeed.
-/

namespace RenderStudioKit

/-- A websocket object. -/
abbrev WebSocket := Nat

/-- The messages that are broadcast to the clients. -/
inductive WorkspaceEvent where
  | fileUpdated (path : String)
  | stateChanged (state : String)
  | connection (connected : Bool)
  | paused
  | resumed
deriving DecidableEq

inductive SyncthingEvent where
  | itemFinished (item : String)
  | stateChanged (state : String)
  | deviceConnected
  | folderSummary (globalBytes inSyncBytes : Nat)
  | pendingDevicesChanged (added : List SyncthingDevice)
  /-- The folder IDs and device IDs. -/
  | pendingFoldersChanged (added : List (String × String))
  | folderErrors
  | folderPaused
  | folderResumed
  | other
deriving DecidableEq

/-- The dictionary `active_connections` in insertion order, with the time of the last sign of life
of each client. `changes` counts the keys that were added and removed. -/
structure ActiveConnections where
  items : List (WebSocket × Nat) := []
  changes : Nat := 0
deriving DecidableEq

namespace ActiveConnections

def keys (d : ActiveConnections) : List WebSocket := d.items.map Prod.fst

/-- `active_connections[websocket] = time` -/
def assign (d : ActiveConnections) (websocket : WebSocket) (time : Nat) : ActiveConnections :=
  if websocket ∈ d.keys then
    { d with items := d.items.map fun item =>
        if item.1 = websocket then (websocket, time) else item }
  else
    { items := d.items ++ [(websocket, time)], changes := d.changes + 1 }

/-- `del active_connections[websocket]`, none for the `KeyError`. -/
def del (d : ActiveConnections) (websocket : WebSocket) : Option ActiveConnections :=
  if websocket ∈ d.keys then
    some { items := d.items.filter (·.1 ≠ websocket), changes := d.changes + 1 }
  else
    none

end ActiveConnections

/-- What an iterator over a dictionary does that has as many keys as when the iterator was made, but
not the same ones: Python leaves this open. -/
inductive Pick where
  | raise
  | stop
  | next (websocket : WebSocket)
deriving DecidableEq

/-- What an await brings: whether it raises, and for the awaits that look at more the text that
was received, none for a disconnect, the events of Syncthing and the pick of an iterator. -/
structure Resumption where
  raises : Bool := false
  text : Option String := some "ping"
  events : List SyncthingEvent := []
  pick : Pick := .stop

/-- A broadcast that awaits the send to `connection`; `rest` are the keys the iterator has not
reached. -/
structure Broadcast where
  message : WorkspaceEvent
  connection : WebSocket
  rest : List WebSocket
  size : Nat
  changes : Nat
deriving DecidableEq

/-- What a broadcast does when its send is over. -/
inductive BroadcastStep where
  | raised
  | finished
  | sending (broadcast : Broadcast)
deriving DecidableEq

/-- The first send of a broadcast, if there is a client. -/
def ActiveConnections.broadcast (d : ActiveConnections) (message : WorkspaceEvent) :
    Option Broadcast :=
  match d.keys with
  | [] => none
  | connection :: rest => some ⟨message, connection, rest, d.items.length, d.changes⟩

def Broadcast.resume (b : Broadcast) (d : ActiveConnections) (r : Resumption) : BroadcastStep :=
  if r.raises then .raised
  -- "dictionary changed size during iteration"
  else if d.items.length ≠ b.size then .raised
  else if d.changes = b.changes then
    match b.rest with
    | [] => .finished
    | connection :: rest => .sending { b with connection := connection, rest := rest }
  else
    match r.pick with
    | .raise => .raised
    | .stop => .finished
    | .next connection => .sending { b with connection := connection, rest := [] }

/-- Where the endpoint of a websocket waits; `summary` tells whether the folder summary event is to
be broadcast next. -/
inductive Endpoint where
  | accepting
  | broadcasting (broadcast : Broadcast) (summary : Bool)
  | receiving
  | configuring
  | closing
  | sleeping
  | terminating
  | ended
deriving DecidableEq

/-- Where `auto_disconnect_clients_job` waits; `rest` is what is left of `remove_list`. -/
inductive AutoDisconnect where
  | waiting
  | closing (websocket : WebSocket) (rest : List WebSocket)
  | sleeping (rest : List WebSocket)
  | terminating
deriving DecidableEq

/-- Where `auto_poll_syncthing_job` waits; `calls` more calls change the configuration for the
event at hand. -/
inductive AutoPoll where
  | waiting
  | requesting
  | broadcasting (broadcast : Broadcast) (events : List SyncthingEvent)
  | configuring (calls : Nat) (events : List SyncthingEvent)
  | terminating
deriving DecidableEq

structure WorkspaceSettings where
  requiredPingIntervalSeconds : Nat
  /-- `REMOTE_URL == 'localhost'` -/
  localhost : Bool

/-- `terminated` holds for each call of `terminate_all` the clients that were connected then;
`exited` is set once one of these calls has ended the process. -/
structure ConnectionManager where
  activeConnections : ActiveConnections := {}
  syncthingWasLaunched : Bool := false
  lastFolderSummaryEvent : Option WorkspaceEvent
  lastDeviceConnectedEvent : Option WorkspaceEvent
  endpoints : List (WebSocket × Endpoint) := []
  autoDisconnect : Option AutoDisconnect := none
  autoPoll : Option AutoPoll := none
  time : Nat := 0
  terminated : List (List WebSocket) := []
  exited : Bool := false

inductive WorkspaceAction where
  /-- A client asks for the endpoint. -/
  | request (websocket : WebSocket)
  | endpoint (websocket : WebSocket) (r : Resumption)
  | autoDisconnect
  | autoPoll (r : Resumption)
  | tick (seconds : Nat)
  /-- `terminate` of the connection manager, called from `terminate_all`. -/
  | terminate
  | exit

namespace ConnectionManager

def init (settings : WorkspaceSettings) : ConnectionManager :=
  if settings.localhost then
    { lastFolderSummaryEvent := some (.stateChanged "idle")
      lastDeviceConnectedEvent := some (.connection true) }
  else
    { lastFolderSummaryEvent := none, lastDeviceConnectedEvent := none }

def terminateAll (m : ConnectionManager) : ConnectionManager :=
  { m with terminated := m.terminated ++ [m.activeConnections.keys] }

def setEndpoint (m : ConnectionManager) (websocket : WebSocket) (endpoint : Endpoint) :
    ConnectionManager :=
  { m with endpoints := m.endpoints.map fun e =>
      if e.1 = websocket then (websocket, endpoint) else e }

/-- The second broadcast of `connect`. -/
def broadcastSummary (m : ConnectionManager) : Endpoint :=
  match m.lastFolderSummaryEvent.bind m.activeConnections.broadcast with
  | some b => .broadcasting b false
  | none => .receiving

/-- The first broadcast of `connect`. -/
def broadcastConnected (m : ConnectionManager) : Endpoint :=
  match m.lastDeviceConnectedEvent.bind m.activeConnections.broadcast with
  | some b => .broadcasting b true
  | none => m.broadcastSummary

/-- `connect` after the accept. -/
def connect (m : ConnectionManager) (websocket : WebSocket) : ConnectionManager :=
  let firstConnection := m.activeConnections.items.isEmpty
  let m := { m with activeConnections := m.activeConnections.assign websocket m.time }
  if firstConnection && !m.syncthingWasLaunched then
    let m := { m with
      syncthingWasLaunched := true
      autoDisconnect := some .waiting
      autoPoll := some .waiting }
    m.setEndpoint websocket .receiving
  else
    m.setEndpoint websocket m.broadcastConnected

def receiveText (m : ConnectionManager) (websocket : WebSocket) (text : String) :
    ConnectionManager :=
  let m := { m with activeConnections := m.activeConnections.assign websocket m.time }
  if text = "pause" ∨ text = "resume" then m.setEndpoint websocket .configuring
  else m.setEndpoint websocket .receiving

/-- An exception ends the endpoint; only a disconnect that `receive_text` reports is handled. -/
def resumeEndpoint (m : ConnectionManager) (websocket : WebSocket) (r : Resumption) :
    ConnectionManager :=
  match m.endpoints.lookup websocket with
  | some .accepting => if r.raises then m.setEndpoint websocket .ended else m.connect websocket
  | some (.broadcasting b summary) =>
    match b.resume m.activeConnections r with
    | .raised => m.setEndpoint websocket .ended
    | .sending b => m.setEndpoint websocket (.broadcasting b summary)
    | .finished =>
      m.setEndpoint websocket (if summary then m.broadcastSummary else .receiving)
  | some .receiving =>
    if r.raises then m.setEndpoint websocket .ended
    else match r.text with
      | none => m.setEndpoint websocket .closing
      | some text => m.receiveText websocket text
  | some .configuring => m.setEndpoint websocket .receiving
  | some .closing =>
    match m.activeConnections.del websocket with
    | none => m.setEndpoint websocket .ended
    | some d => { m with activeConnections := d }.setEndpoint websocket .sleeping
  | some .sleeping =>
    if m.activeConnections.items.isEmpty then m.terminateAll.setEndpoint websocket .terminating
    else m.setEndpoint websocket .ended
  | _ => m

def expired (m : ConnectionManager) (settings : WorkspaceSettings) : List WebSocket :=
  (m.activeConnections.items.filter fun item =>
    item.2 + settings.requiredPingIntervalSeconds < m.time).map Prod.fst

/-- The next round of the loop over `remove_list`. -/
def disconnectNext (m : ConnectionManager) : List WebSocket → ConnectionManager
  | [] => { m with autoDisconnect := some .waiting }
  | websocket :: rest => { m with autoDisconnect := some (.closing websocket rest) }

/-- Whether a close raises makes no difference, a missing key raises, and every exception calls
`terminate_all`. -/
def resumeAutoDisconnect (m : ConnectionManager) (settings : WorkspaceSettings) :
    ConnectionManager :=
  match m.autoDisconnect with
  | some .waiting => m.disconnectNext (m.expired settings)
  | some (.closing websocket rest) =>
    match m.activeConnections.del websocket with
    | none => { m.terminateAll with autoDisconnect := some .terminating }
    | some d => { m with activeConnections := d, autoDisconnect := some (.sleeping rest) }
  | some (.sleeping rest) =>
    if m.activeConnections.items.isEmpty then
      { m.terminateAll with autoDisconnect := some .terminating }
    else
      m.disconnectNext rest
  | _ => m

end ConnectionManager

namespace SyncthingEvent

/-- The state that a folder summary tells. -/
def summaryState (globalBytes inSyncBytes : Nat) : String :=
  if globalBytes = 0 then "syncing"
  else if globalBytes ≠ inSyncBytes then "syncing"
  else "idle"

/-- What is broadcast for an event. -/
def message : SyncthingEvent → Option WorkspaceEvent
  | itemFinished item =>
    some (.fileUpdated ("studio:/" ++
      .ofList (item.toList.map fun c => if c = '\\' then '/' else c)))
  | stateChanged state => if state = "error" then some (.stateChanged state) else none
  | deviceConnected => some (.connection true)
  | folderSummary globalBytes inSyncBytes =>
    some (.stateChanged (summaryState globalBytes inSyncBytes))
  | folderPaused => some .paused
  | folderResumed => some .resumed
  | _ => none

/-- The number of calls that change the configuration for an event. -/
def calls : SyncthingEvent → Nat
  | pendingDevicesChanged added => added.length
  | pendingFoldersChanged added => added.length
  | folderErrors => 1
  | _ => 0

end SyncthingEvent

namespace ConnectionManager

/-- The events that later clients are told. -/
def record (m : ConnectionManager) (event : SyncthingEvent) : ConnectionManager :=
  match event with
  | .deviceConnected => { m with lastDeviceConnectedEvent := event.message }
  | .folderSummary _ _ => { m with lastFolderSummaryEvent := event.message }
  | _ => m

/-- The loop over the events, up to its next await. -/
def handleEvents (m : ConnectionManager) : List SyncthingEvent → ConnectionManager
  | [] => { m with autoPoll := some .waiting }
  | event :: events =>
    let m := m.record event
    match event.message.bind m.activeConnections.broadcast with
    | some b => { m with autoPoll := some (.broadcasting b events) }
    | none =>
      match event.calls with
      | 0 => m.handleEvents events
      | calls + 1 => { m with autoPoll := some (.configuring calls events) }

/-- Every exception of a round calls `terminate_all`. -/
def resumeAutoPoll (m : ConnectionManager) (r : Resumption) : ConnectionManager :=
  match m.autoPoll with
  | some .waiting => { m with autoPoll := some .requesting }
  | some .requesting => m.handleEvents r.events
  | some (.broadcasting b events) =>
    match b.resume m.activeConnections r with
    | .raised => { m.terminateAll with autoPoll := some .terminating }
    | .sending b => { m with autoPoll := some (.broadcasting b events) }
    | .finished => m.handleEvents events
  | some (.configuring (calls + 1) events) =>
    { m with autoPoll := some (.configuring calls events) }
  | some (.configuring 0 events) => m.handleEvents events
  | _ => m

/-- The broadcast and the closes of `terminate` change nothing here, whether they raise or not. -/
def terminate (m : ConnectionManager) : ConnectionManager :=
  { m with lastDeviceConnectedEvent := some (.connection false) }

def perform (settings : WorkspaceSettings) (m : ConnectionManager) (action : WorkspaceAction) :
    ConnectionManager :=
  if m.exited then m
  else match action with
    | .request websocket =>
      if (m.endpoints.lookup websocket).isSome then m
      else { m with endpoints := m.endpoints ++ [(websocket, .accepting)] }
    | .endpoint websocket r => m.resumeEndpoint websocket r
    | .autoDisconnect => m.resumeAutoDisconnect settings
    | .autoPoll r => m.resumeAutoPoll r
    | .tick seconds => { m with time := m.time + seconds }
    | .terminate => if m.terminated.isEmpty then m else m.terminate
    | .exit => { m with exited := !m.terminated.isEmpty }

end ConnectionManager

end RenderStudioKit
