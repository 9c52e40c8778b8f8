import RenderStudioKit.Model.Api

/-!
# The live server

`Logic` keeps one `Channel` per room and relays the events of its connections. What is
handed to `Send` of a connection is recorded as the event whose text it is.
-/

namespace RenderStudioKit

open API

/-- A session; two sessions may have the same name and channel. -/
structure Connection where
  id : Nat
  channel : String
  debugName : String
deriving DecidableEq

variable [Usd]

structure Channel where
  mName : String
  mConnections : List Connection := []
  mHistory : AList (fun _ : String => List DeltaEvent) := ∅

namespace Channel

def addConnection (channel : Channel) (connection : Connection) : Channel :=
  { channel with mConnections := channel.mConnections ++ [connection] }

def removeConnection (channel : Channel) (connection : Connection) : Channel :=
  { channel with mConnections := channel.mConnections.filter (·.debugName ≠ connection.debugName) }

/-- The entries `Send` does not skip. -/
def receivers (channel : Channel) (connection : Connection) : List Connection :=
  channel.mConnections.filter (·.debugName ≠ connection.debugName)

def addToHistory (channel : Channel) (v : DeltaEvent) : Channel :=
  { channel with
    mHistory := channel.mHistory.insert v.layer ((channel.mHistory.lookup v.layer).getD [] ++ [v]) }

def clearHistory (channel : Channel) (layer : String) : Channel :=
  match channel.mHistory.lookup layer with
  | none => channel
  | some _ => { channel with mHistory := channel.mHistory.insert layer [] }

def empty (channel : Channel) : Bool := channel.mConnections.isEmpty

def getSequenceNumber (channel : Channel) (layer : String) : Nat :=
  match channel.mHistory.lookup layer with
  | none => 1
  | some history => history.length + 1

end Channel

structure Logic where
  mChannels : AList (fun _ : String => Channel) := ∅

/-- What a call leaves behind: the state, the events sent and what ended it, an exception or a write
outside a matrix. -/
structure Outcome where
  logic : Logic
  sent : List (Connection × Event) := []
  fault : Option Fault := none

/-- Serializes the event once and sends it to the receivers; nothing happens after an
exception. -/
def Outcome.send (o : Outcome) (receivers : List Connection) (event : Event) : Outcome :=
  match o.fault with
  | some _ => o
  | none =>
    match event.toJson with
    | .error fault => { o with fault := some fault }
    | .ok _ => { o with sent := o.sent ++ receivers.map (·, event) }

namespace Logic

/-- The layers of the history come in the order of their last deltas; that of the keys of a `std::map` is
not modelled. -/
def onConnected (l : Logic) (connection : Connection) : Outcome :=
  let channel := ((l.mChannels.lookup connection.channel).getD { mName := connection.channel })
    |>.addConnection connection
  let o : Outcome := { logic := ⟨l.mChannels.insert connection.channel channel⟩ }
  let o := channel.mHistory.entries.foldl (fun o layer =>
    layer.2.foldl (fun o delta => o.send [connection] delta.event) o) o
  o.send [connection] historyEvent

def onDisconnected (l : Logic) (connection : Connection) : Outcome :=
  match l.mChannels.lookup connection.channel with
  | none => { logic := l }
  | some channel =>
    let channel := channel.removeConnection connection
    if channel.empty then { logic := ⟨l.mChannels.erase connection.channel⟩ }
    else { logic := ⟨l.mChannels.insert connection.channel channel⟩ }

/-- The visitor for a delta. -/
def onDelta (l : Logic) (connection : Connection) (v : DeltaEvent) : Outcome :=
  match l.mChannels.lookup connection.channel with
  | none => { logic := l }
  | some channel =>
    let sequence := channel.getSequenceNumber v.layer
    let acknowledgedDelta := { v with sequence := some sequence }
    let channel := channel.addToHistory acknowledgedDelta
    let o : Outcome := { logic := ⟨l.mChannels.insert connection.channel channel⟩ }
    let o := o.send (channel.receivers connection) acknowledgedDelta.event
    o.send [connection] (AcknowledgeEvent.event ⟨v.layer, v.updates.keys, sequence⟩)

/-- The visitor for a reload. -/
def onReload (l : Logic) (connection : Connection) (v : ReloadEvent) : Outcome :=
  match l.mChannels.lookup connection.channel with
  | none => { logic := l }
  | some channel =>
    let acknowledgedReload := { v with sequence := some (channel.getSequenceNumber v.layer) }
    let channel := channel.clearHistory v.layer
    let o : Outcome := { logic := ⟨l.mChannels.insert connection.channel channel⟩ }
    o.send (channel.receivers connection) acknowledgedReload.event

def onMessage (l : Logic) (connection : Connection) (message : Json) : Outcome :=
  match parseEvent message with
  | none => { logic := l, fault := parseFault message }
  | some event =>
    match event.body with
    | .delta v => l.onDelta connection v
    | .reload v => l.onReload connection v
    | .history => { logic := l }
    | .acknowledge _ => { logic := l }

end Logic

end RenderStudioKit
