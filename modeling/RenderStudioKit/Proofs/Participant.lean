import RenderStudioKit.Proofs.LayerNews
import RenderStudioKit.Proofs.LayerQueue

/-!
# One user of a channel

A user that enters a channel, leaves it and enters it again keeps its layers. Each time it holds a
new connection under the same name; what the server does about the old one can come late. The other
users do whatever they like.
-/

namespace RenderStudioKit.Proofs

open API

/-- The name of a user and the channel it enters. -/
structure Account where
  channel : String
  user : String

def Account.connection (account : Account) (id : Nat) : Connection :=
  ⟨id, account.channel, account.user⟩

section

variable [Usd]

/-- `opened` are the connections of the user that the server has not dropped, `current` is the one
the client holds. -/
structure Participant where
  server : Logic := {}
  client : RenderStudioFileFormat
  created : Nat := 0
  opened : List Nat := []
  current : Option Nat := none
  uplink : Nat → List Json := fun _ => []
  downlink : List Json := []

/-- `disconnect` is a call of the client and `lose` the end of its connection on its side; `drop` is
the end of a connection on the side of the server. `call` is a call of another connection. -/
inductive ParticipantAction where
  | set (layer : String) (path : SdfPath) (field : TfToken) (value : VtValue)
  | update (files : String → Option HashTable)
  | read (layer : String) (file : HashTable)
  | connect
  | disconnect
  | lose
  | deliver
  | serve (id : Nat)
  | drop (id : Nat)
  | call (call : ServerCall)

namespace Participant

/-- What is sent without a connection is lost. -/
def withClient (p : Participant) (o : LiveOutcome) : Participant :=
  { p with
    client := o.format
    uplink := p.current.elim p.uplink fun id =>
      Function.update p.uplink id (p.uplink id ++ o.sent) }

/-- What is sent to an old connection is lost. -/
def withServer (account : Account) (p : Participant) (o : Outcome) : Participant :=
  { p with
    server := o.logic
    downlink := p.current.elim p.downlink fun id =>
      p.downlink ++ Session.received o.sent (account.connection id) }

def connect (account : Account) (p : Participant) : Participant :=
  match p.current with
  | some _ => p
  | none => { p with
      client := { p.client with mWebsocketClient := some p.created }
      created := p.created + 1
      opened := p.opened ++ [p.created]
      current := some p.created
      uplink := Function.update p.uplink p.created []
      downlink := [] }.withServer account
        (p.server.onConnected (account.connection p.created))

def disconnect (p : Participant) : Participant :=
  { p with
    client := { p.client with mWebsocketClient := none }
    current := none
    downlink := [] }

def lose (p : Participant) : Participant :=
  { p with
    current := none
    downlink := [] }

def deliver (p : Participant) : Participant :=
  match p.downlink with
  | [] => p
  | message :: rest => { p with
      client := p.client.onMessage message
      downlink := rest }

def serve (account : Account) (p : Participant) (id : Nat) : Participant :=
  if id ∉ p.opened then p
  else match p.uplink id with
    | [] => p
    | message :: rest => { p with
        uplink := Function.update p.uplink id rest }.withServer account
          (p.server.onMessage (account.connection id) message)

def drop (account : Account) (p : Participant) (id : Nat) : Participant :=
  if id ∉ p.opened then p
  else { p with
    opened := p.opened.filter (· ≠ id) }.withServer account
      (p.server.onDisconnected (account.connection id))

def perform (account : Account) (p : Participant) : ParticipantAction → Participant
  | .set layer path field value =>
    p.withClient { format := p.client.setField layer path field value }
  | .update files => p.withClient (p.client.processLiveUpdates files)
  | .read layer file => p.withClient (p.client.read layer file)
  | .connect => p.connect account
  | .disconnect => p.disconnect
  | .lose => p.lose
  | .deliver => p.deliver
  | .serve id => p.serve account id
  | .drop id => p.drop account id
  | .call call => p.withServer account (call.perform p.server)

/-- A user that has not opened a layer and not entered a channel. -/
def init (account : Account) : Participant :=
  { client := { userId := account.user } }

/-- The history the server has for a layer. -/
def history (account : Account) (layer : String) (p : Participant) : List DeltaEvent :=
  historyOf (p.server.mChannels.lookup account.channel) layer

/-- The data of a layer, empty if the layer was not read. -/
def data (layer : String) (p : Participant) : RenderStudioData := layerData p.client layer

/-- The update is on its way to the client, accumulated or queued. -/
def Holds (layer : String) (p : Participant) (number : Nat) (table : HashTable) : Prop :=
  (number, table) ∈ p.downlink.filterMap (layerUpdate layer) ∨
    (number, table) ∈ accumulatedUpdates p.client layer ∨
    (p.data layer).mRemoteDeltasQueue.lookup number = some table

/-- The client holds a connection that the server has not dropped. -/
def Working (p : Participant) (id : Nat) : Prop := p.current = some id ∧ id ∈ p.opened

/-- No layer is reloaded, and in the channel the other clients have other names. -/
def Admitted (account : Account) (p : Participant) : ParticipantAction → Prop
  | .read layer _ => p.client.mLayerRegistry.lookup layer = none
  | .call call => Peaceful call ∧
    (call.connection.channel = account.channel → call.connection.debugName ≠ account.user)
  | _ => True

/-- The step ends the connection on the side of the server. -/
def Leaving (account : Account) (p : Participant) (leaver : Connection) : ParticipantAction → Prop
  | .drop id => id ∈ p.opened ∧ leaver = account.connection id
  | .call call => call = .disconnected leaver
  | _ => False

end Participant

/-- A participant with what was observed of it about a layer: the tables applied to the data since
it was read, and the numbered deltas `OnMessage` was called with. -/
structure Watched where
  participant : Participant
  applied : List HashTable := []
  received : List DeltaEvent := []

namespace Watched

def perform (account : Account) (layer : String) (w : Watched) (action : ParticipantAction) :
    Watched where
  participant := w.participant.perform account action
  applied := match action with
    | .update files => w.applied ++ tablesUpTo w.participant.client layer
        (layerData (w.participant.client.processLiveUpdates files).format layer).mLatestAppliedSequence
    | .read read _ => if read = layer then [] else w.applied
    | _ => w.applied
  received := match action with
    | .deliver => w.received ++ ((w.participant.downlink.head?.bind (layerDelta layer)).filter
        (·.sequence.isSome)).toList
    | _ => w.received

def init (account : Account) : Watched := { participant := .init account }

end Watched

section

variable {account : Account} {layer : String} {p : Participant}

open Participant

@[simp] lemma withServer_client (o : Outcome) : (p.withServer account o).client = p.client := rfl

@[simp] lemma withServer_server (o : Outcome) : (p.withServer account o).server = o.logic := rfl

@[simp] lemma withClient_client (o : LiveOutcome) : (p.withClient o).client = o.format := rfl

lemma holds_withServer (o : Outcome) (number : Nat) (table : HashTable) :
    (p.withServer account o).Holds layer number table ↔ p.Holds layer number table ∨
      ∃ id, p.current = some id ∧ (number, table) ∈ told o.sent (account.connection id) layer := by
  unfold Holds withServer told
  cases hcurrent : p.current with
  | none => simp [data]
  | some id =>
    simp only [Option.elim_some, List.filterMap_append, List.mem_append, Option.some.injEq,
      exists_eq_left', data]
    tauto

/-- The two data have taken the same remote updates. -/
structure SameQueue (d d' : RenderStudioData) : Prop where
  idle : d'.mIsProcessingRemoteUpdates = d.mIsProcessingRemoteUpdates
  latest : d'.mLatestAppliedSequence = d.mLatestAppliedSequence
  queue : d'.mRemoteDeltasQueue = d.mRemoteDeltasQueue

lemma set_sameQueue (f : RenderStudioFileFormat) (edited : String) (path : SdfPath)
    (field : TfToken) (value : VtValue) (layer : String) :
    SameQueue (layerData f layer) (layerData (f.setField edited path field value) layer) := by
  by_cases hlayer : edited = layer
  · subst hlayer
    cases hregistered : f.mLayerRegistry.lookup edited with
    | none =>
      have hsame : f.setField edited path field value = f := by
        simp [RenderStudioFileFormat.setField, hregistered]
      rw [hsame]
      exact ⟨rfl, rfl, rfl⟩
    | some d =>
      rw [layerData_setField (by rw [hregistered]; rfl)]
      obtain ⟨-, hidle, hlatest, hqueue⟩ :=
        set_frame_loaded (layerData f edited) path field value
      exact ⟨hidle, hlatest, hqueue⟩
  · have hsame : layerData (f.setField edited path field value) layer = layerData f layer := by
      rw [layerData, lookup_setField_ne hlayer]
      rfl
    rw [hsame]
    exact ⟨rfl, rfl, rfl⟩

lemma layerData_unregistered {f : RenderStudioFileFormat} {layer : String}
    (h : f.mLayerRegistry.lookup layer = none) : layerData f layer = {} := by
  rw [layerData, h, Option.getD_none]

lemma read_sameQueue {f : RenderStudioFileFormat} {opened : String}
    (hfirst : f.mLayerRegistry.lookup opened = none) (file : HashTable) (layer : String) :
    SameQueue (layerData f layer) (layerData (f.read opened file).format layer) := by
  by_cases hlayer : opened = layer
  · subst hlayer
    have hread : layerData (f.read opened file).format opened = loaded file := by
      simp [layerData, RenderStudioFileFormat.read, loaded]
    rw [layerData_unregistered hfirst, hread]
    exact ⟨rfl, rfl, rfl⟩
  · have hsame : layerData (f.read opened file).format layer = layerData f layer := by
      simp [layerData, RenderStudioFileFormat.read, Ne.symm hlayer]
    rw [hsame]
    exact ⟨rfl, rfl, rfl⟩

lemma holds_congr {p' : Participant} (hdownlink : p'.downlink = p.downlink)
    (haccumulated : accumulatedUpdates p'.client layer = accumulatedUpdates p.client layer)
    (hdata : SameQueue (p.data layer) (p'.data layer)) (number : Nat) (table : HashTable) :
    p'.Holds layer number table ↔ p.Holds layer number table := by
  unfold Holds
  rw [hdownlink, haccumulated, hdata.queue]

lemma holds_of_queueOf {number : Nat} {table : HashTable}
    (h : (queueOf p.client layer).lookup number = some table) : p.Holds layer number table := by
  rcases lookup_queueOf h with harrived | ⟨hold, -⟩
  · exact .inr (.inl harrived)
  · exact .inr (.inr hold)

lemma mem_uplink_withClient {o : LiveOutcome} {id : Nat} {text : Json}
    (h : text ∈ (p.withClient o).uplink id) :
    text ∈ p.uplink id ∨ p.current = some id ∧ text ∈ o.sent := by
  change text ∈ (p.current.elim p.uplink fun id =>
    Function.update p.uplink id (p.uplink id ++ o.sent)) id at h
  cases hcurrent : p.current with
  | none =>
    rw [hcurrent] at h
    exact .inl h
  | some current =>
    rw [hcurrent, Option.elim_some] at h
    by_cases hid : id = current
    · subst hid
      rw [Function.update_self] at h
      rcases List.mem_append.1 h with hold | hnew
      · exact .inl hold
      · exact .inr ⟨rfl, hnew⟩
    · rw [Function.update_of_ne hid] at h
      exact .inl h

lemma deliver_eq {message : Json} {rest : List Json} (h : p.downlink = message :: rest) :
    p.deliver = { p with client := p.client.onMessage message, downlink := rest } := by
  unfold deliver
  rw [h]

lemma holds_deliver {message : Json} {rest : List Json} (h : p.downlink = message :: rest)
    (hreload : ¬IsReload message) (number : Nat) (table : HashTable) :
    p.deliver.Holds layer number table ↔ p.Holds layer number table := by
  have hperm := accumulatedUpdates_onMessage hreload p.client layer
  have hregistry := (onMessage_frame hreload p.client).2.1
  have hdata : layerData (p.client.onMessage message) layer = layerData p.client layer := by
    rw [layerData, hregistry]
    rfl
  rw [deliver_eq h]
  unfold Holds data
  rw [h, hdata, hperm.mem_iff, List.mem_append]
  cases hupdate : layerUpdate layer message with
  | none =>
    rw [List.filterMap_cons_none hupdate]
    simp
  | some update =>
    rw [List.filterMap_cons_some hupdate, List.mem_cons, Option.toList_some, List.mem_singleton]
    tauto

lemma serve_cases (account : Account) (p : Participant) (id : Nat) :
    p.serve account id = p ∨
      id ∈ p.opened ∧ ∃ text rest, p.uplink id = text :: rest ∧
        p.serve account id = { p with uplink := Function.update p.uplink id rest }.withServer account
          ((ServerCall.message (account.connection id) text).perform p.server) := by
  unfold Participant.serve
  by_cases hopened : id ∈ p.opened
  · rw [if_neg (not_not.2 hopened)]
    cases huplink : p.uplink id with
    | nil => exact .inl rfl
    | cons text rest => exact .inr ⟨hopened, text, rest, rfl, rfl⟩
  · exact .inl (if_pos hopened)

lemma connect_eq (hcurrent : p.current = none) :
    p.connect account = { p with
      client := { p.client with mWebsocketClient := some p.created }
      created := p.created + 1
      opened := p.opened ++ [p.created]
      current := some p.created
      uplink := Function.update p.uplink p.created []
      downlink := [] }.withServer account
        ((ServerCall.connected (account.connection p.created)).perform p.server) := by
  rw [connect, hcurrent]
  rfl

/-- A step leaves the server alone or is one call of it. -/
lemma perform_server (account : Account) (p : Participant) (action : ParticipantAction) :
    (p.perform account action).server = p.server ∨
      ∃ call, (p.perform account action).server = serve p.server call ∧
        ∀ leaver, call = .disconnected leaver → p.Leaving account leaver action := by
  cases action with
  | set | update | read | disconnect | lose => exact .inl rfl
  | connect =>
    have hperform : p.perform account .connect = p.connect account := rfl
    rw [hperform, connect]
    cases p.current with
    | some current => exact .inl rfl
    | none => exact .inr ⟨.connected (account.connection p.created), rfl, nofun⟩
  | deliver =>
    have hperform : p.perform account .deliver = p.deliver := rfl
    rw [hperform, deliver]
    cases p.downlink with
    | nil => exact .inl rfl
    | cons message rest => exact .inl rfl
  | serve id =>
    have hperform : p.perform account (.serve id) = p.serve account id := rfl
    rw [hperform]
    rcases serve_cases account p id with hsame | ⟨-, text, rest, -, hserve⟩
    · exact .inl (congrArg server hsame)
    · exact .inr ⟨.message (account.connection id) text, congrArg server hserve, nofun⟩
  | drop id =>
    have hperform : p.perform account (.drop id) = p.drop account id := rfl
    rw [hperform, drop]
    by_cases hopened : id ∈ p.opened
    · rw [if_neg (not_not.2 hopened)]
      refine .inr ⟨.disconnected (account.connection id), rfl, fun leaver hleaver => ?_⟩
      exact ⟨hopened, (ServerCall.disconnected.inj hleaver).symm⟩
    · exact .inl (congrArg server (if_pos hopened))
  | call call => exact .inr ⟨call, rfl, fun _ hleaver => hleaver⟩

end

end

end RenderStudioKit.Proofs
