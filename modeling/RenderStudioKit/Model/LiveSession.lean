import RenderStudioKit.Model.FileFormat
import RenderStudioKit.Model.WebsocketClient

/-!
# The live session of one process

The live session functions of the kit, with the file format they drive and the websocket clients
that `Connect` creates. `mWebsocketClient` is the position of a client among those created.
-/

namespace RenderStudioKit

variable [Usd]

open API

/-- What a call of `Send` goes through. -/
inductive SendTarget where
  | nullClient
  | nullStream
  | stream
deriving DecidableEq

/-- `clients` are all clients that were created; `sends` are the calls of `Send` that the last
operation made. -/
structure LiveSession where
  format : RenderStudioFileFormat
  clients : List (WebsocketClient Json) := []
  sends : List SendTarget := []

/-- The operations of the user, and what the network thread does. -/
inductive LiveOperation where
  /-- `endpoint` is what `Url::Parse` makes of the URL, none if it throws. -/
  | liveSessionConnect (userId : String) (endpoint : Option Url)
  /-- `files` are the contents of the files that can be read. -/
  | liveSessionUpdate (files : String → Option HashTable)
  | liveSessionDisconnect
  /-- A layer is opened or reloaded. -/
  | read (layer : String) (file : HashTable)
  | set (layer : String) (path : SdfPath) (field : TfToken) (value : VtValue)
  | onMessage (message : Json)
  | complete (client : Nat) (i : Nat) (completion : Completion Json)

namespace LiveSession

/-- No layer is open and nothing was connected. -/
def start : LiveSession := { format := { userId := "" } }

/-- The client the pointer points to. -/
def websocketClient (s : LiveSession) : Option (WebsocketClient Json) :=
  s.format.mWebsocketClient.bind fun id => s.clients[id]?

def sendTarget (s : LiveSession) : SendTarget :=
  match s.websocketClient with
  | none => .nullClient
  | some client => if client.mWebsocketStream.isNone then .nullStream else .stream

/-- `mWebsocketClient->Send(message)` -/
def send (s : LiveSession) (message : Json) : LiveSession :=
  { s with
    clients := match s.format.mWebsocketClient with
      | none => s.clients
      | some id => s.clients.modify id fun client => client.send message
    sends := s.sends ++ [s.sendTarget] }

/-- The messages that an operation of the file format passes to `Send`. -/
def sendAll (s : LiveSession) (messages : List Json) : LiveSession :=
  messages.foldl send s

/-- `StartLiveMode` and `Connect`: the new client takes the place of the old one before the URL is
parsed, and an exception is only logged. -/
def connect (s : LiveSession) (userId : String) (endpoint : Option Url) : LiveSession :=
  let client : WebsocketClient Json := match endpoint with
    | none => {}
    | some endpoint => WebsocketClient.connect {} endpoint
  { s with
    format := { s.format with userId := userId, mWebsocketClient := some s.clients.length }
    clients := s.clients ++ [client] }

def disconnect (s : LiveSession) : LiveSession :=
  match s.format.mWebsocketClient with
  | none => s
  | some id => { s with
      format := { s.format with mWebsocketClient := none }
      clients := s.clients.modify id fun client => client.disconnect }

def processLiveUpdates (s : LiveSession) (files : String → Option HashTable) : LiveSession :=
  let o := s.format.processLiveUpdates files
  { s with format := o.format }.sendAll o.sent

def read (s : LiveSession) (layer : String) (file : HashTable) : LiveSession :=
  let o := s.format.read layer file
  { s with format := o.format }.sendAll o.sent

def perform (s : LiveSession) (operation : LiveOperation) : LiveSession :=
  let s := { s with sends := [] }
  match operation with
  | .liveSessionConnect userId endpoint => s.connect userId endpoint
  | .liveSessionUpdate files => s.processLiveUpdates files
  | .liveSessionDisconnect => s.disconnect
  | .read layer file => s.read layer file
  | .set layer path field value => { s with format := s.format.setField layer path field value }
  | .onMessage message => { s with format := s.format.onMessage message }
  | .complete client i completion =>
    { s with clients := s.clients.modify client fun c => c.complete i completion }

end LiveSession

end RenderStudioKit
