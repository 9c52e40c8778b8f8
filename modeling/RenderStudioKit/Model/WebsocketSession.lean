import Mathlib.Logic.Basic

/-!
# The socket of one server session

`WebsocketSession` runs on completion handlers like the client does. An operation that was started
is `pending` until its completion runs its handler, and the handlers of one session run one at a
time.
-/

namespace RenderStudioKit

/-- The operations a session starts. `post` is a `Write` handed to the strand by `Send`. -/
inductive SessionOperation (Message : Type) where
  | accept
  | post (message : Message)
  | read
  | write (message : Message)

/-- The calls on `IServerLogic`. -/
inductive LogicCall (Message : Type) where
  | onConnected
  | onDisconnected
  | onMessage (message : Message)

structure WebsocketSession (Message : Type) where
  mConnected : Bool := false
  mWriteQueue : List Message := []
  pending : List (SessionOperation Message) := []
  started : List (SessionOperation Message) := []
  calls : List (LogicCall Message) := []

namespace WebsocketSession

variable {Message : Type}

def start (c : WebsocketSession Message) (operation : SessionOperation Message) :
    WebsocketSession Message :=
  { c with pending := c.pending ++ [operation], started := c.started ++ [operation] }

def call (c : WebsocketSession Message) (call : LogicCall Message) : WebsocketSession Message :=
  { c with calls := c.calls ++ [call] }

def onRun (c : WebsocketSession Message) : WebsocketSession Message :=
  c.start .accept

def send (c : WebsocketSession Message) (message : Message) : WebsocketSession Message :=
  c.start (.post message)

/-- Hands `mWriteQueue.back()` to `async_write` if it is alone in the queue. -/
def write (c : WebsocketSession Message) (message : Message) : WebsocketSession Message :=
  let c := { c with mWriteQueue := c.mWriteQueue ++ [message] }
  if c.mWriteQueue.length > 1 then c
  else match c.mWriteQueue.getLast? with
    | none => c
    | some back => c.start (.write back)

def read (c : WebsocketSession Message) : WebsocketSession Message :=
  if !c.mConnected then c
  else c.start .read

def onAccept (c : WebsocketSession Message) (ec : Bool) : WebsocketSession Message :=
  if ec then { c with mConnected := false }
  else ({ c with mConnected := true }.call .onConnected).read

def onRead (c : WebsocketSession Message) (ec : Bool) (received : Message) :
    WebsocketSession Message :=
  if !c.mConnected then c
  else if ec then { c with mConnected := false }.call .onDisconnected
  else (c.call (.onMessage received)).read

/-- Hands `mWriteQueue.front()` to `async_write` if the queue is not empty after the pop. -/
def onWrite (c : WebsocketSession Message) (ec : Bool) : WebsocketSession Message :=
  if !c.mConnected then c
  else if ec then { c with mConnected := false }.call .onDisconnected
  else
    let c := { c with mWriteQueue := c.mWriteQueue.tail }
    match c.mWriteQueue.head? with
    | none => c
    | some front => c.start (.write front)

/-- Runs the handler of an operation; `received` is what a successful read brings. -/
def handle (c : WebsocketSession Message) (ec : Bool) (received : Message) :
    SessionOperation Message → WebsocketSession Message
  | .accept => c.onAccept ec
  | .post message => c.write message
  | .read => c.onRead ec received
  | .write _ => c.onWrite ec

/-- The pending operation at position `i` completes. -/
def complete (c : WebsocketSession Message) (i : Nat) (ec : Bool) (received : Message) :
    WebsocketSession Message :=
  match c.pending[i]? with
  | none => c
  | some operation => { c with pending := c.pending.eraseIdx i }.handle ec received operation

end WebsocketSession

end RenderStudioKit
