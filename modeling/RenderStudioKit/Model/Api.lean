import RenderStudioKit.Model.Data
import RenderStudioKit.Model.Serialization

/-!
# Events

The messages of a live session and their JSON form.
-/

namespace RenderStudioKit

variable [Usd]

namespace SdfSpecType

def toJson (v : SdfSpecType) : Json := .ofInt32 v.value

def ofJson (json : Json) : Except Fault SdfSpecType := do
  .ok ⟨← json.toInt32⟩

end SdfSpecType

namespace API

structure DeltaEvent where
  layer : String
  user : String
  sequence : Option Nat
  updates : HashTable

structure AcknowledgeEvent where
  layer : String
  paths : List SdfPath
  sequence : Nat := 0

structure ReloadEvent where
  layer : String
  user : String
  sequence : Option Nat

/-- The variant an event carries; a history event has no content. -/
inductive Body where
  | delta (v : DeltaEvent)
  | acknowledge (v : AcknowledgeEvent)
  | history
  | reload (v : ReloadEvent)

structure Event where
  event : String
  body : Body

/-- `Extract` of an optional number. -/
def extractSequence (root : List (String × Json)) : Except Fault (Option Nat) :=
  match root.lookup "sequence" with
  | some json => some <$> json.toSize
  | none => .ok none

/-- The member `sequence`, present only with a value. -/
def sequenceMember : Option Nat → List (String × Json)
  | some sequence => [("sequence", .int sequence)]
  | none => []

def fieldToJson (field : TfToken × VtValue) : Except Fault Json := do
  .ok (.object [("key", .string field.1), ("value", ← field.2.toJson)])

def fieldOfJson (jsonField : Json) : Except Fault (TfToken × VtValue) := do
  let key ← (← jsonField.valueAt "key").toString
  let value ← VtValue.ofJson (← jsonField.valueAt "value")
  .ok (key, value)

def updateToJson (path : SdfPath) (spec : SpecData) : Except Fault Json := do
  let jsonFields ← spec.fields.mapM fieldToJson
  .ok (.object [("path", SdfPath.toJson path), ("spec", spec.specType.toJson),
    ("fields", .array jsonFields)])

/-- Decodes one update. The fields of a path that was named before are appended to it. -/
def updateOfJson (updates : HashTable) (jsonUpdate : Json) : Except Fault HashTable := do
  let path ← SdfPath.ofJson (← jsonUpdate.valueAt "path")
  let fields ← (← jsonUpdate.valueAt "fields").toList fieldOfJson
  let specType ← SdfSpecType.ofJson (← jsonUpdate.valueAt "spec")
  let known := ((updates.lookup path).getD {}).fields
  .ok (updates.insert path { specType := specType, fields := known ++ fields })

namespace DeltaEvent

def toJson (v : DeltaEvent) : Except Fault Json := do
  let jsonUpdates ← v.updates.entries.mapM fun update => updateToJson update.1 update.2
  .ok (.object ([("layer", .string v.layer), ("user", .string v.user)] ++
    sequenceMember v.sequence ++ [("updates", .array jsonUpdates)]))

def ofJson (json : Json) : Except Fault DeltaEvent := do
  let root ← json.asObject
  let layer ← (← Json.memberAt root "layer").toString
  let user ← (← Json.memberAt root "user").toString
  let sequence ← extractSequence root
  let jsonUpdates ← (← json.valueAt "updates").asArray
  .ok ⟨layer, user, sequence, ← jsonUpdates.foldlM updateOfJson ∅⟩

end DeltaEvent

namespace AcknowledgeEvent

def toJson (v : AcknowledgeEvent) : Json :=
  .object [("layer", .string v.layer), ("paths", .ofList SdfPath.toJson v.paths),
    ("sequence", .int v.sequence)]

def ofJson (json : Json) : Except Fault AcknowledgeEvent := do
  let root ← json.asObject
  let layer ← (← Json.memberAt root "layer").toString
  let paths ← (← Json.memberAt root "paths").toList SdfPath.ofJson
  .ok ⟨layer, paths, ← (← Json.memberAt root "sequence").toSize⟩

end AcknowledgeEvent

namespace ReloadEvent

def toJson (v : ReloadEvent) : Json :=
  .object ([("layer", .string v.layer), ("user", .string v.user)] ++ sequenceMember v.sequence)

def ofJson (json : Json) : Except Fault ReloadEvent := do
  let root ← json.asObject
  let layer ← (← Json.memberAt root "layer").toString
  let user ← (← Json.memberAt root "user").toString
  .ok ⟨layer, user, ← extractSequence root⟩

end ReloadEvent

namespace Event

/-- `std::get` on the variant. -/
def getDelta : Body → Except Fault DeltaEvent
  | .delta v => .ok v
  | _ => .error .badVariantAccess

def getAcknowledge : Body → Except Fault AcknowledgeEvent
  | .acknowledge v => .ok v
  | _ => .error .badVariantAccess

def getHistory : Body → Except Fault Unit
  | .history => .ok ()
  | _ => .error .badVariantAccess

def getReload : Body → Except Fault ReloadEvent
  | .reload v => .ok v
  | _ => .error .badVariantAccess

def bodyToJson (v : Event) : Except Fault Json :=
  if v.event = "Delta::Event" then do (← getDelta v.body).toJson
  else if v.event = "Acknowledge::Event" then AcknowledgeEvent.toJson <$> getAcknowledge v.body
  else if v.event = "History::Event" then (fun _ => .object []) <$> getHistory v.body
  else if v.event = "Reload::Event" then ReloadEvent.toJson <$> getReload v.body
  else .error (.runtimeError ("JSON event is unsupported: " ++ v.event))

def toJson (v : Event) : Except Fault Json := do
  .ok (.object [("event", .string v.event), ("body", ← v.bodyToJson)])

def ofJson (json : Json) : Except Fault Event := do
  let jsonObject ← json.asObject
  let jsonEvent ← (← Json.memberAt jsonObject "event").toString
  if jsonEvent = "Delta::Event" then
    .ok ⟨jsonEvent, .delta (← DeltaEvent.ofJson (← Json.memberAt jsonObject "body"))⟩
  else if jsonEvent = "Acknowledge::Event" then
    .ok ⟨jsonEvent, .acknowledge (← AcknowledgeEvent.ofJson (← Json.memberAt jsonObject "body"))⟩
  else if jsonEvent = "History::Event" then do
    let _ ← Json.memberAt jsonObject "body"
    .ok ⟨jsonEvent, .history⟩
  else if jsonEvent = "Reload::Event" then
    .ok ⟨jsonEvent, .reload (← ReloadEvent.ofJson (← Json.memberAt jsonObject "body"))⟩
  else .error (.runtimeError "JSON event is unsupported")

end Event

def DeltaEvent.event (v : DeltaEvent) : Event := ⟨"Delta::Event", .delta v⟩

def AcknowledgeEvent.event (v : AcknowledgeEvent) : Event := ⟨"Acknowledge::Event", .acknowledge v⟩

def ReloadEvent.event (v : ReloadEvent) : Event := ⟨"Reload::Event", .reload v⟩

def historyEvent : Event := ⟨"History::Event", .history⟩

/-- `ParseEvent`: a message that does not decode is dropped, for it catches every exception. One that is
no exception, `parseFault` tells. -/
def parseEvent (message : Json) : Option Event :=
  (Event.ofJson message).toOption

/-- What `ParseEvent` cannot catch: the decoder of a matrix writes outside its result. -/
def parseFault (message : Json) : Option Fault :=
  match Event.ofJson message with
  | .error .undefinedBehavior => some .undefinedBehavior
  | _ => none

end API

end RenderStudioKit
