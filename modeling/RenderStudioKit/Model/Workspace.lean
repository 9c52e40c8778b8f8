import RenderStudioKit.Model.ConnectionManager
import RenderStudioKit.Model.Json

/-!
# The workspace of the kit

What `Networking::Workspace` knows of the workspace service. A message is the value of its JSON text.
-/

namespace RenderStudioKit

variable [Usd]

/-- The dictionary of a message. -/
def WorkspaceEvent.toJson : WorkspaceEvent → Json
  | .fileUpdated path =>
    .object [("event", .string "Event::FileUpdated"), ("path", .string path)]
  | .stateChanged state =>
    .object [("event", .string "Event::StateChanged"), ("state", .string state)]
  | .connection connected =>
    .object [("event", .string "Event::Connection"), ("connected", .bool connected)]
  | .paused => .object [("event", .string "Event::Paused")]
  | .resumed => .object [("event", .string "Event::Resumed")]

namespace RenderStudioNotice

inductive WorkspaceState where
  | idle
  | syncing
  | error
  | other
deriving DecidableEq

def WorkspaceState.of (state : String) : WorkspaceState :=
  if state = "idle" then .idle
  else if state = "syncing" then .syncing
  else if state = "error" then .error
  else .other

end RenderStudioNotice

/-- The notices that the workspace sends. -/
inductive WorkspaceNotice where
  | fileUpdated (path : String)
  | workspaceState (state : RenderStudioNotice.WorkspaceState)
  | workspaceConnectionChanged (status : Bool)
deriving DecidableEq

/-- The static members; `notices` are those that were sent. -/
structure Workspace where
  sWorkspaceUrl : String := ""
  sLastState : String := ""
  sPaused : Bool := false
  sConnected : Bool := false
  notices : List WorkspaceNotice := []
deriving DecidableEq

namespace Workspace

def send (w : Workspace) (notice : WorkspaceNotice) : Workspace :=
  { w with notices := w.notices ++ [notice] }

/-- The body of `OnMessage`; whatever throws does so before anything is changed. -/
def handleMessage (w : Workspace) (message : Json) : Except Fault Workspace := do
  let json ← message.asObject
  let event ← (← Json.memberAt json "event").toString
  if event = "Event::FileUpdated" then
    let path ← (← Json.memberAt json "path").toString
    .ok (w.send (.fileUpdated path))
  else if event = "Event::StateChanged" then
    let state ← (← Json.memberAt json "state").toString
    .ok { w.send (.workspaceState (.of state)) with sLastState := state }
  else if event = "Event::Connection" then
    let connected ← (← Json.memberAt json "connected").toBool
    .ok { w.send (.workspaceConnectionChanged connected) with sConnected := connected }
  else if event = "Event::Paused" then .ok { w with sPaused := true }
  else if event = "Event::Resumed" then .ok { w with sPaused := false }
  else .ok w

/-- `OnMessage` logs what is thrown. -/
def onMessage (w : Workspace) (message : Json) : Workspace :=
  match w.handleMessage message with
  | .ok w => w
  | .error _ => w

end Workspace

end RenderStudioKit
