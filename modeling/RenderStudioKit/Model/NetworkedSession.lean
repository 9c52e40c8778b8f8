import RenderStudioKit.Model.Session
import RenderStudioKit.Model.WebsocketClient
import RenderStudioKit.Model.WebsocketServer

/-!
# A live session over its sockets

The clients of one room with their websocket clients, and the server with its sessions. A connection
carries what was handed to `async_write` at one end to the reads at the other end, in order.
-/

namespace RenderStudioKit

open API

variable [Usd]

/-- `passed` are the texts a member passed to `Send`; `up` and `down` count the texts that were read at
the end of the server and at the end of the member. -/
structure NetworkedSession where
  server : WebsocketServer
  client : String → RenderStudioFileFormat
  socket : String → WebsocketClient Json
  passed : String → List Json := fun _ => []
  up : String → Nat := fun _ => 0
  down : String → Nat := fun _ => 0

/-- `receive` completes a read of a member and `hear` a read of its session with the next text. All
other completions are those of `socket` and `server`. -/
inductive NetworkAction where
  | set (user layer : String) (path : SdfPath) (field : TfToken) (value : VtValue)
  | update (user : String) (files : String → Option HashTable)
  | reload (user layer : String) (file : HashTable)
  | socket (user : String) (i : Nat) (completion : Completion Json)
  | receive (user : String) (i : Nat)
  | server (event : NetworkEvent)
  | hear (user : String) (i : Nat)

/-- The texts handed to `async_write` by a client. -/
def WebsocketClient.writes (c : WebsocketClient Json) : List Json :=
  c.started.filterMap fun
    | .write text => some text
    | _ => none

/-- The texts handed to `async_write` by a session. -/
def WebsocketSession.writes (c : WebsocketSession Json) : List Json :=
  c.started.filterMap fun
    | .write text => some text
    | _ => none

/-- The live client is the listener of its websocket client. -/
def RenderStudioFileFormat.listen (f : RenderStudioFileFormat) :
    ClientCallback Json → RenderStudioFileFormat
  | .onMessage message => f.onMessage message
  | .onConnected => f
  | .onDisconnected => f

namespace NetworkedSession

/-- What a call of the live client leaves behind; each message is passed to `Send`. -/
def withClient (n : NetworkedSession) (user : String) (o : LiveOutcome) : NetworkedSession :=
  { n with
    client := Function.update n.client user o.format
    socket := Function.update n.socket user (o.sent.foldl WebsocketClient.send (n.socket user))
    passed := Function.update n.passed user (n.passed user ++ o.sent) }

/-- A handler of a websocket client runs, and its listener with it. -/
def complete (n : NetworkedSession) (user : String) (i : Nat) (completion : Completion Json) :
    NetworkedSession :=
  let socket := (n.socket user).complete i completion
  { n with
    client := Function.update n.client user
      ((socket.callbacks.drop (n.socket user).callbacks.length).foldl RenderStudioFileFormat.listen
        (n.client user))
    socket := Function.update n.socket user socket }

/-- The next text for a member completes the read at position `i`, if there are both. -/
def receive (room : Room) (n : NetworkedSession) (user : String) (i : Nat) : NetworkedSession :=
  match (n.socket user).pending[i]?,
      (n.server.sessions[(room.connection user).id]?).bind fun entry =>
        entry.2.writes[n.down user]? with
  | some .read, some text =>
    { n.complete user i { received := some text } with
      down := Function.update n.down user (n.down user + 1) }
  | _, _ => n

/-- The next text of a member completes the read at position `i` of its session. -/
def hear (room : Room) (n : NetworkedSession) (user : String) (i : Nat) : NetworkedSession :=
  match (n.server.sessions[(room.connection user).id]?).bind fun entry => entry.2.pending[i]?,
      (n.socket user).writes[n.up user]? with
  | some .read, some text =>
    { n with
      server := n.server.perform (.session (room.connection user).id i false text)
      up := Function.update n.up user (n.up user + 1) }
  | _, _ => n

/-- One step. Nobody but the members acts. -/
def perform (room : Room) (n : NetworkedSession) (action : NetworkAction) : NetworkedSession :=
  match action with
  | .server event => { n with server := n.server.perform event }
  | .set user layer path field value =>
    if user ∉ room.members then n
    else n.withClient user { format := (n.client user).setField layer path field value }
  | .update user files =>
    if user ∉ room.members then n
    else n.withClient user ((n.client user).processLiveUpdates files)
  | .reload user layer file =>
    if user ∉ room.members then n else n.withClient user ((n.client user).read layer file)
  | .socket user i completion => if user ∉ room.members then n else n.complete user i completion
  | .receive user i => if user ∉ room.members then n else n.receive room user i
  | .hear user i => if user ∉ room.members then n else n.hear room user i

end NetworkedSession

end RenderStudioKit
