import Mathlib.Data.List.Infix
import RenderStudioKit.Model.WebsocketClient
import RenderStudioKit.Model.Workspace

/-!
# Connecting the workspace

The calls of `Workspace::Connect` and `Workspace::Disconnect` by one thread, which wait for futures of
the websocket client, while the worker of the ping task and the operations of the clients go on.
-/

namespace RenderStudioKit

inductive Role where
  | server
  | client
deriving DecidableEq

/-- What a call of the workspace waits for: the end of the worker, or the future of a promise of the
client. -/
inductive WorkspaceCall where
  | stoppingTask (role : Role)
  | replacingClient (role : Role) (promise : Nat)
  | joining
  | leavingFailed (promise : Nat)
  | attempting (attempt : Nat)
  | stopping
  | disconnecting (promise : Nat)
deriving DecidableEq

/-- What `Connect` finds out: whether the port is in use when it guards its role and when it looks for
a workspace, and whether the process could be launched. -/
structure WorkspaceAnswers where
  guard : Bool := false
  running : Bool := false
  launches : Bool := true

/-- The members for the connection. `sPingTask` tells of a task whether it has a worker, and the last
of the `clients` is `sClient`. Where an earlier one is not connected, its destructor only logs. -/
structure WorkspaceConnection where
  sWorkspaceUrl : String := ""
  sPingTask : Option Bool := none
  clients : List (WebsocketClient String) := []
  call : Option WorkspaceCall := none
  launched : Nat := 0
  notices : List WorkspaceNotice := []
  crashed : Bool := false

inductive WorkspaceStep where
  | setWorkspaceUrl (url : String)
  | connect (role : Role) (answers : WorkspaceAnswers)
  | disconnect
  /-- `Pause` and `Resume` send before they wait for an answer. -/
  | send (text : String)
  /-- The call goes on if what it waits for is there. -/
  | proceed (answers : WorkspaceAnswers)
  /-- The worker runs its task. -/
  | ping
  | complete (client i : Nat) (completion : Completion String)

namespace WorkspaceConnection

/-- What `Url::Parse` makes of the address of the workspace. -/
def endpoint : Url := ⟨"127.0.0.1", "52700", "/workspace/ws", false⟩

def isLocal (url : String) : Bool :=
  "127.0.0.1".toList <:+: url.toList || "localhost".toList <:+: url.toList

variable (s : WorkspaceConnection)

def sClient : Option (WebsocketClient String) := s.clients.getLast?

/-- A call on `sClient`. -/
def callClient (f : WebsocketClient String → WebsocketClient String) : WorkspaceConnection :=
  { s with clients := s.clients.modify (s.clients.length - 1) f }

/-- `WebsocketClient::Create` and `Connect`, whose future is waited for. -/
def createClient (call : WorkspaceCall) : WorkspaceConnection :=
  { s with
    clients := s.clients ++ [({} : WebsocketClient String).connect endpoint]
    call := some call }

/-- `sClient->Disconnect()`, whose future is waited for. -/
def disconnectClient (c : WebsocketClient String) (call : Nat → WorkspaceCall) : WorkspaceConnection :=
  { s.callClient (·.disconnect) with call := some (call c.promises.length) }

def returned : WorkspaceConnection := { s with call := none }

def startTask : WorkspaceConnection := { s with sPingTask := some true, call := none }

/-- The value of a future of `sClient`. -/
def future (promise : Nat) : Option Bool :=
  (s.sClient.bind fun c => c.promises[promise]?).join

/-- `Connect` from the launch on. -/
def launch (answers : WorkspaceAnswers) : WorkspaceConnection :=
  if !answers.launches then s.returned
  else
    let s := { s with launched := s.launched + 1 }
    match s.sClient with
    | some c => s.disconnectClient c .leavingFailed
    | none => s.createClient (.attempting 0)

/-- `Connect` from the guards on. -/
def guards (role : Role) (answers : WorkspaceAnswers) : WorkspaceConnection :=
  if role = .server ∧ answers.guard then s.returned
  else if role = .client ∧ isLocal s.sWorkspaceUrl ∧ !answers.guard then s.returned
  else if answers.running then s.createClient .joining
  else s.launch answers

/-- `Connect` when no worker runs. -/
def replaceClient (role : Role) (answers : WorkspaceAnswers) : WorkspaceConnection :=
  let s := { s with sPingTask := some false }
  match s.sClient with
  | some c => s.disconnectClient c (.replacingClient role)
  | none => s.guards role answers

def connect (role : Role) (answers : WorkspaceAnswers) : WorkspaceConnection :=
  match s.sPingTask with
  | some true => { s with call := some (.stoppingTask role) }
  | _ => s.replaceClient role answers

/-- `Disconnect` when no worker runs. -/
def leave : WorkspaceConnection :=
  let s := { s with sPingTask := some false }
  match s.sClient with
  | some c => s.disconnectClient c .disconnecting
  | none => { s with crashed := true }

def disconnect : WorkspaceConnection :=
  match s.sPingTask with
  | none => { s with crashed := true }
  | some true => { s with call := some .stopping }
  | some false => s.leave

def proceed (answers : WorkspaceAnswers) : WorkspaceConnection :=
  match s.call with
  | none => s
  | some (.stoppingTask role) => s.replaceClient role answers
  | some (.replacingClient role promise) =>
    if (s.future promise).isSome then s.guards role answers else s
  | some .joining =>
    match s.future 0 with
    | none => s
    | some true => s.startTask
    | some false => s.launch answers
  | some (.leavingFailed promise) =>
    if (s.future promise).isSome then s.createClient (.attempting 0) else s
  | some (.attempting attempt) =>
    match s.future 0 with
    | none => s
    | some true => s.startTask
    | some false =>
      if attempt + 1 < 5 then s.createClient (.attempting (attempt + 1)) else s.returned
  | some .stopping => s.leave
  | some (.disconnecting promise) =>
    if (s.future promise).isSome then
      { s with call := none, notices := s.notices ++ [.workspaceConnectionChanged false] }
    else s

/-- `Pause` and `Resume` look whether there is a `sClient`; the worker does not. -/
def send (text : String) : WorkspaceConnection := s.callClient (·.send text)

def perform (step : WorkspaceStep) : WorkspaceConnection :=
  if s.crashed then s
  else match step with
  | .setWorkspaceUrl url => if s.call.isSome then s else { s with sWorkspaceUrl := url }
  | .connect role answers => if s.call.isSome then s else s.connect role answers
  | .disconnect => if s.call.isSome then s else s.disconnect
  | .send text => if s.call.isSome ∨ s.sClient.isNone then s else s.send text
  | .proceed answers => s.proceed answers
  | .ping =>
    if s.sPingTask = some true then
      match s.sClient with
      | some _ => s.send "ping"
      | none => { s with crashed := true }
    else s
  | .complete client i completion =>
    { s with clients := s.clients.modify client fun c => c.complete i completion }

end WorkspaceConnection

end RenderStudioKit
