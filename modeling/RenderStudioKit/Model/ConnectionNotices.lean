import RenderStudioKit.Model.WebsocketClient

/-!
# Connection notices

`RenderStudioFileFormat` is the listener of its websocket clients: their connection callbacks become
`LiveConnectionChanged` notices. A client that the file format lets go of lives on while a handler
of it is pending, and its destructor disconnects it.
-/

namespace RenderStudioKit

variable {Message : Type}

/-- A `LiveConnectionChanged` notice, and whether the current client is connected when it is sent. -/
structure ConnectionNotice where
  connected : Bool
  current : Bool
deriving DecidableEq

/-- What `OnConnected` and `OnDisconnected` tell. -/
def ClientCallback.told : ClientCallback Message → Option Bool
  | .onConnected => some true
  | .onDisconnected => some false
  | .onMessage _ => none

/-- `clients` are all clients that were created, `destroyed` the positions of those whose destructor
has run, and `mWebsocketClient` is the position of the current one. -/
structure ConnectionListener (Message : Type) where
  clients : List (WebsocketClient Message) := []
  destroyed : List Nat := []
  mWebsocketClient : Option Nat := none
  notices : List ConnectionNotice := []

/-- The calls of the file format, and the completions of the network threads. -/
inductive ListenerEvent (Message : Type) where
  /-- `endpoint` is what `Url::Parse` makes of the URL, none if it throws. -/
  | connect (endpoint : Option Url)
  | disconnect
  | send (message : Message)
  | complete (client i : Nat) (completion : Completion Message)

namespace ConnectionListener

def currentConnected (s : ConnectionListener Message) : Bool :=
  match s.mWebsocketClient.bind fun id => s.clients[id]? with
  | some client => client.mConnected
  | none => false

/-- A member function of a client runs; its callbacks reach the listener. The connection is as the
callback left it when the function returns. -/
def call (s : ConnectionListener Message) (id : Nat)
    (f : WebsocketClient Message → WebsocketClient Message) : ConnectionListener Message :=
  match s.clients[id]? with
  | none => s
  | some client =>
    let told := ((f client).callbacks.drop client.callbacks.length).filterMap ClientCallback.told
    let s := { s with clients := s.clients.set id (f client) }
    { s with notices := s.notices ++ told.map fun connected => ⟨connected, s.currentConnected⟩ }

/-- Nothing refers to the client: it is not the current one and no handler of it is pending. -/
def Unreferenced (s : ConnectionListener Message) (id : Nat) : Prop :=
  s.mWebsocketClient ≠ some id ∧ (s.clients[id]?.map (·.pending.length)) = some 0 ∧ id ∉ s.destroyed

instance (s : ConnectionListener Message) (id : Nat) : Decidable (s.Unreferenced id) :=
  inferInstanceAs (Decidable (_ ∧ _ ∧ _))

/-- A reference to the client is given up; the last one runs `~WebsocketClient`. -/
def release (s : ConnectionListener Message) (id : Nat) : ConnectionListener Message :=
  if s.Unreferenced id then
    { s with destroyed := id :: s.destroyed }.call id WebsocketClient.disconnect
  else s

/-- `Connect`: the new client takes the place of the old one before the URL is parsed, and an
exception is only logged. -/
def connect (s : ConnectionListener Message) (endpoint : Option Url) : ConnectionListener Message :=
  let client := s.clients.length
  let created := { s with clients := s.clients ++ [{}], mWebsocketClient := some client }
  let replaced := match s.mWebsocketClient with
    | none => created
    | some old => created.release old
  match endpoint with
  | none => replaced
  | some endpoint => replaced.call client fun c => c.connect endpoint

def disconnect (s : ConnectionListener Message) : ConnectionListener Message :=
  match s.mWebsocketClient with
  | none => s
  | some id => { s.call id WebsocketClient.disconnect with mWebsocketClient := none }.release id

/-- A message for the current client. -/
def send (s : ConnectionListener Message) (message : Message) : ConnectionListener Message :=
  match s.mWebsocketClient with
  | none => s
  | some id => s.call id fun c => c.send message

/-- A handler refers to its client until it has run. -/
def complete (s : ConnectionListener Message) (id i : Nat) (completion : Completion Message) :
    ConnectionListener Message :=
  (s.call id fun c => c.complete i completion).release id

def perform (s : ConnectionListener Message) : ListenerEvent Message → ConnectionListener Message
  | .connect endpoint => s.connect endpoint
  | .disconnect => s.disconnect
  | .send message => s.send message
  | .complete id i completion => s.complete id i completion

end ConnectionListener

end RenderStudioKit
