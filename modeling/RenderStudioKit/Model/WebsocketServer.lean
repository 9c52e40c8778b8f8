import RenderStudioKit.Model.Server
import RenderStudioKit.Model.Url
import RenderStudioKit.Model.WebsocketSession

/-!
# The sockets of the live server

`WebsocketServer` accepts connections, `HttpSession` reads the one request of each, and a request for
an upgrade becomes a `WebsocketSession`, whose calls go to `Logic`. `Logic` locks its mutex, so its calls
come one after the other, and what it sends is posted to the strands of the sessions.
-/

namespace RenderStudioKit

open API

variable [Usd]

/-- What `HttpSession::OnRead` is told. `remote` is the text of `remote_endpoint()`, none if that
throws. -/
inductive HttpRead where
  | endOfStream
  | error
  | request (upgrade : Bool) (target : String) (remote : Option String)

/-- What ends the process: an exception that leaves a handler. -/
inductive ServerCrash where
  | noRemoteEndpoint
  | logic (fault : Fault)

/-- `acceptor` tells that an `async_accept` is pending and `http` counts the sessions whose request is
being read. A connection is known by its position among `sessions`. `calls` are all calls of the logic
and `sent` is all it handed to `Send`. -/
structure WebsocketServer where
  acceptor : Bool := true
  http : Nat := 0
  sessions : List (Connection × WebsocketSession Json) := []
  logic : Logic := {}
  calls : List (Connection × LogicCall Json) := []
  sent : List (Connection × Event) := []
  crash : Option ServerCrash := none

inductive NetworkEvent where
  | accept (ec : Bool)
  | read (result : HttpRead)
  | session (id i : Nat) (ec : Bool) (received : Json)

def LogicCall.perform (l : Logic) (connection : Connection) : LogicCall Json → Outcome
  | .onConnected => l.onConnected connection
  | .onDisconnected => l.onDisconnected connection
  | .onMessage message => l.onMessage connection message

namespace WebsocketServer

/-- A failed accept is not followed by another one. -/
def onAccept (s : WebsocketServer) (ec : Bool) : WebsocketServer :=
  if !s.acceptor then s
  else if ec then { s with acceptor := false }
  else { s with http := s.http + 1 }

/-- The constructor of `WebsocketSession`, and its `Run`. -/
def createSession (s : WebsocketServer) (target : String) (remote : Option String) :
    WebsocketServer :=
  let (channel, debugName) := extractChannelAndUserNames target
  let add (debugName : String) : WebsocketServer := { s with
    sessions := s.sessions ++
      [(⟨s.sessions.length, channel, debugName⟩, ({} : WebsocketSession Json).onRun)] }
  if debugName.isEmpty then
    match remote with
    | none => { s with crash := some .noRemoteEndpoint }
    | some remote => add remote
  else add debugName

def onRead (s : WebsocketServer) (result : HttpRead) : WebsocketServer :=
  match s.http with
  | 0 => s
  | http + 1 =>
    let s := { s with http := http }
    match result with
    | .endOfStream => s
    | .error => s
    | .request upgrade target remote => if upgrade then s.createSession target remote else s

/-- `Send` of a connection, with the text of an event. -/
def send (s : WebsocketServer) (message : Connection × Event) : WebsocketServer :=
  match message.2.toJson with
  | .error _ => s
  | .ok text => { s with
      sessions := s.sessions.modify message.1.id fun entry => (entry.1, entry.2.send text) }

/-- A call of the logic. What it sends reaches the strands while the mutex is locked. -/
def call (s : WebsocketServer) (connection : Connection) (call : LogicCall Json) : WebsocketServer :=
  let o := call.perform s.logic connection
  o.sent.foldl send { s with
    logic := o.logic
    calls := s.calls ++ [(connection, call)]
    sent := s.sent ++ o.sent
    crash := s.crash.or (o.fault.map .logic) }

/-- A handler of a session runs, and the logic with it. -/
def onSession (s : WebsocketServer) (id i : Nat) (ec : Bool) (received : Json) : WebsocketServer :=
  match s.sessions[id]? with
  | none => s
  | some (connection, session) =>
    let session' := session.complete i ec received
    (session'.calls.drop session.calls.length).foldl (fun s call => s.call connection call)
      { s with sessions := s.sessions.set id (connection, session') }

/-- Nothing happens after a crash. -/
def perform (s : WebsocketServer) (event : NetworkEvent) : WebsocketServer :=
  if s.crash.isSome then s
  else match event with
    | .accept ec => s.onAccept ec
    | .read result => s.onRead result
    | .session id i ec received => s.onSession id i ec received

end WebsocketServer

end RenderStudioKit
