import RenderStudioKit.Model.FileFormat
import RenderStudioKit.Model.Server

/-!
# A live session

The clients of one room and the server, with a link in each direction that delivers every
message once and in order. A client is known by its user name, which is also the name of its
connection.
-/

namespace RenderStudioKit

open API

/-- A room whose members have pairwise different user names. -/
structure Room where
  channel : String
  members : List String
  nodup : members.Nodup

def Room.connection (room : Room) (user : String) : Connection :=
  ⟨room.members.idxOf user, room.channel, user⟩

variable [Usd]

structure Session where
  server : Logic := {}
  client : String → RenderStudioFileFormat
  uplink : String → List Json := fun _ => []
  downlink : String → List Json := fun _ => []

/-- `serve` lets the server handle the next message of a member and `deliver` hands the next
message of the server to a member. `files` is what the files contain at that time. -/
inductive SessionAction where
  | set (user layer : String) (path : SdfPath) (field : TfToken) (value : VtValue)
  | update (user : String) (files : String → Option HashTable)
  | reload (user layer : String) (file : HashTable)
  | serve (user : String)
  | deliver (user : String)

def SessionAction.user : SessionAction → String
  | .set user _ _ _ _ | .update user _ | .reload user _ _ | .serve user | .deliver user => user

namespace Session

/-- The texts of the events sent to one connection. -/
def received (sent : List (Connection × Event)) (connection : Connection) : List Json :=
  (sent.filter (·.1 = connection)).filterMap (·.2.toJson.toOption)

def withClient (s : Session) (user : String) (o : LiveOutcome) : Session :=
  { s with
    client := Function.update s.client user o.format
    uplink := Function.update s.uplink user (s.uplink user ++ o.sent) }

def withServer (s : Session) (room : Room) (o : Outcome) : Session :=
  { s with
    server := o.logic
    downlink := fun user => s.downlink user ++ received o.sent (room.connection user) }

/-- A member opens its connection. -/
def join (room : Room) (s : Session) (user : String) : Session :=
  s.withServer room (s.server.onConnected (room.connection user))

/-- The session in which the members have joined one after the other. -/
def start (room : Room) (client : String → RenderStudioFileFormat) : Session :=
  room.members.foldl (join room) { client := client }

def serve (room : Room) (s : Session) (user : String) : Session :=
  match s.uplink user with
  | [] => s
  | message :: rest =>
    { s with uplink := Function.update s.uplink user rest }.withServer room
      (s.server.onMessage (room.connection user) message)

def deliver (s : Session) (user : String) : Session :=
  match s.downlink user with
  | [] => s
  | message :: rest => { s with
      client := Function.update s.client user ((s.client user).onMessage message)
      downlink := Function.update s.downlink user rest }

/-- One step of the session. Nobody but the members acts. -/
def perform (room : Room) (s : Session) (action : SessionAction) : Session :=
  if action.user ∉ room.members then s
  else match action with
    | .set user layer path field value =>
      s.withClient user { format := (s.client user).setField layer path field value }
    | .update user files => s.withClient user ((s.client user).processLiveUpdates files)
    | .reload user layer file => s.withClient user ((s.client user).read layer file)
    | .serve user => s.serve room user
    | .deliver user => s.deliver user

end Session

end RenderStudioKit
