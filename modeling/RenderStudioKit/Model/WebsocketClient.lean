import Mathlib.Logic.Basic

/-!
# The socket of the live client

`WebsocketClient` runs on completion handlers. An asynchronous operation that was started is
`pending` until its completion runs its handler; the handlers of one client run one at a time.
The texts that are sent and received are values of an arbitrary type `Message`.
-/

namespace RenderStudioKit

/-- The parts of an address that the client uses. -/
structure Url where
  mHost : String := ""
  mPort : String := ""
  mTarget : String := ""
  mSsl : Bool := false

inductive WebsocketStream where
  | ssl
  | tcp

/-- The operations the client starts. `post` is a `Write` handed to the strand by `Send`;
the operations of `Connect` and `Disconnect` carry the promise they fulfil. -/
inductive Operation (Message : Type) where
  | post (message : Message)
  | resolve (host port : String) (promise : Nat)
  | connect (promise : Nat)
  | sslHandshake (promise : Nat)
  | handshake (host target : String) (promise : Nat)
  | write (message : Message)
  | read
  | wait
  | ping
  | close (promise : Nat)

/-- The calls on `IClientLogic`. -/
inductive ClientCallback (Message : Type) where
  | onConnected
  | onDisconnected
  | onMessage (message : Message)

/-- What ends the process: a null stream was used, an exception left a handler, or a promise
was fulfilled twice. -/
inductive Crash where
  | nullStream
  | hostName
  | promiseAlreadySatisfied

/-- What a completion brings: its error code, and for the handlers that look at more the port
of the endpoint, the result of `SSL_set_tlsext_host_name` and the text that was read. -/
structure Completion (Message : Type) where
  ec : Bool := false
  port : Nat := 0
  hostNameSet : Bool := true
  received : Option Message := none

structure WebsocketClient (Message : Type) where
  mEndpoint : Url := {}
  mWebsocketStream : Option WebsocketStream := none
  mConnected : Bool := false
  mSslHost : String := ""
  mWriteQueue : List Message := []
  promises : List (Option Bool) := []
  pending : List (Operation Message) := []
  started : List (Operation Message) := []
  callbacks : List (ClientCallback Message) := []
  crash : Option Crash := none

namespace WebsocketClient

variable {Message : Type}

def start (c : WebsocketClient Message) (operation : Operation Message) : WebsocketClient Message :=
  { c with pending := c.pending ++ [operation], started := c.started ++ [operation] }

def call (c : WebsocketClient Message) (callback : ClientCallback Message) :
    WebsocketClient Message :=
  { c with callbacks := c.callbacks ++ [callback] }

def setValue (c : WebsocketClient Message) (promise : Nat) (value : Bool) :
    WebsocketClient Message :=
  match c.promises[promise]? with
  | some none => { c with promises := c.promises.set promise (some value) }
  | _ => { c with crash := some .promiseAlreadySatisfied }

def connect (c : WebsocketClient Message) (endpoint : Url) : WebsocketClient Message :=
  let promise := c.promises.length
  let stream : WebsocketStream := if endpoint.mSsl then .ssl else .tcp
  { c with
    mEndpoint := endpoint
    mWebsocketStream := some stream
    promises := c.promises ++ [none] }.start (.resolve endpoint.mHost endpoint.mPort promise)

/-- `mPingTimer.cancel()` lets the pending wait complete with an error. -/
def disconnect (c : WebsocketClient Message) : WebsocketClient Message :=
  let promise := c.promises.length
  let c := { c with promises := c.promises ++ [none] }
  let c := if c.mConnected then c.start (.close promise)
    else (c.call .onDisconnected).setValue promise true
  { c with mConnected := false }

def send (c : WebsocketClient Message) (message : Message) : WebsocketClient Message :=
  match c.mWebsocketStream with
  | none => { c with crash := some .nullStream }
  | some _ => c.start (.post message)

/-- Hands `mWriteQueue.back()` to `async_write`. -/
def writeBack (c : WebsocketClient Message) : WebsocketClient Message :=
  match c.mWriteQueue.getLast? with
  | none => c
  | some message => c.start (.write message)

def write (c : WebsocketClient Message) (message : Message) : WebsocketClient Message :=
  let c := { c with mWriteQueue := c.mWriteQueue ++ [message] }
  if !c.mConnected then c
  else if c.mWriteQueue.length > 1 then c
  else c.writeBack

def ping (c : WebsocketClient Message) (ec : Bool) : WebsocketClient Message :=
  if !c.mConnected then c
  else if ec then c.disconnect
  else c.start .ping

def onResolve (c : WebsocketClient Message) (promise : Nat) (ec : Bool) : WebsocketClient Message :=
  if ec then (c.setValue promise false).disconnect
  else c.start (.connect promise)

def onConnect (c : WebsocketClient Message) (promise : Nat) (ec : Bool) (port : Nat)
    (hostNameSet : Bool) : WebsocketClient Message :=
  if ec then (c.setValue promise false).disconnect
  else
    let sslHost := c.mEndpoint.mHost ++ ":" ++ toString port
    match c.mWebsocketStream with
    | none => { c with crash := some .nullStream }
    | some .ssl =>
      if !hostNameSet then { c with crash := some .hostName }
      else { c with mSslHost := sslHost }.start (.sslHandshake promise)
    | some .tcp =>
      { c with mSslHost := sslHost }.start (.handshake sslHost c.mEndpoint.mTarget promise)

def onSslHandshake (c : WebsocketClient Message) (promise : Nat) (ec : Bool) :
    WebsocketClient Message :=
  if ec then (c.setValue promise false).disconnect
  else c.start (.handshake c.mSslHost c.mEndpoint.mTarget promise)

def onPing (c : WebsocketClient Message) (ec : Bool) : WebsocketClient Message :=
  if !c.mConnected then c
  else if ec then c.disconnect
  else c.start .wait

/-- A read that transferred nothing has no text. -/
def onRead (c : WebsocketClient Message) (ec : Bool) (received : Option Message) :
    WebsocketClient Message :=
  if !c.mConnected then c
  else if ec then c.disconnect
  else
    let c := match received with
      | some message => c.call (.onMessage message)
      | none => c
    c.start .read

def onHandshake (c : WebsocketClient Message) (promise : Nat) (ec : Bool) :
    WebsocketClient Message :=
  if ec then (c.setValue promise false).disconnect
  else
    let c := { c with mConnected := true }
    ((((c.call .onConnected).setValue promise true).onPing false).onRead false none)

def onWrite (c : WebsocketClient Message) (ec : Bool) : WebsocketClient Message :=
  if ec then c.disconnect
  else
    let c := { c with mWriteQueue := c.mWriteQueue.tail }
    if !c.mWriteQueue.isEmpty then c.writeBack else c

def onClose (c : WebsocketClient Message) (promise : Nat) (ec : Bool) : WebsocketClient Message :=
  let c := c.call .onDisconnected
  if !c.mConnected then c.setValue promise true
  else if ec then (c.setValue promise false).disconnect
  else c

/-- Runs the handler of an operation. -/
def handle (c : WebsocketClient Message) (completion : Completion Message) :
    Operation Message → WebsocketClient Message
  | .post message => c.write message
  | .resolve _ _ promise => c.onResolve promise completion.ec
  | .connect promise => c.onConnect promise completion.ec completion.port completion.hostNameSet
  | .sslHandshake promise => c.onSslHandshake promise completion.ec
  | .handshake _ _ promise => c.onHandshake promise completion.ec
  | .write _ => c.onWrite completion.ec
  | .read => c.onRead completion.ec completion.received
  | .wait => c.ping completion.ec
  | .ping => c.onPing completion.ec
  | .close promise => c.onClose promise completion.ec

/-- The pending operation at position `i` completes. -/
def complete (c : WebsocketClient Message) (i : Nat) (completion : Completion Message) :
    WebsocketClient Message :=
  match c.pending[i]? with
  | none => c
  | some operation => { c with pending := c.pending.eraseIdx i }.handle completion operation

end WebsocketClient

end RenderStudioKit
