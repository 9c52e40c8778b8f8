import RenderStudioKit.Model.Json

/-!
# Serialization of values

The two dispatch tables of `VtValue`, by held type when encoding and by type name when
decoding, and the conversions of the types they name.
-/

namespace RenderStudioKit

variable [Usd]

def SdfPath.toJson (v : SdfPath) : Json := .string (Usd.getString v)

def SdfPath.ofJson (json : Json) : Except Fault SdfPath := do
  let path ← json.toString
  .ok (if path = "" then Usd.emptyPath else Usd.parsePath path)

def SdfAssetPath.toJson (v : SdfAssetPath) : Json :=
  .object [("asset", .string v.assetPath), ("resolved", .string v.resolvedPath)]

def SdfAssetPath.ofJson (json : Json) : Except Fault SdfAssetPath := do
  let jsonObject ← json.asObject
  .ok ⟨← (Json.member jsonObject "asset").toString, ← (Json.member jsonObject "resolved").toString⟩

def SdfLayerOffset.toJson (v : SdfLayerOffset) : Json :=
  .object [("offset", .double v.offset), ("scale", .double v.scale)]

def SdfLayerOffset.ofJson (json : Json) : Except Fault SdfLayerOffset := do
  let jsonObject ← json.asObject
  .ok ⟨← (Json.member jsonObject "offset").toDouble, ← (Json.member jsonObject "scale").toDouble⟩

/-- The custom data is not sent. -/
def SdfReference.toJson {V : Type} (v : SdfReference V) : Json :=
  .object [("asset", .string v.assetPath), ("prim", SdfPath.toJson v.primPath),
    ("offset", v.layerOffset.toJson)]

def SdfReference.ofJson {V : Type} (json : Json) : Except Fault (SdfReference V) := do
  let jsonObject ← json.asObject
  .ok ⟨← (Json.member jsonObject "asset").toString, ← SdfPath.ofJson (Json.member jsonObject "prim"),
    ← SdfLayerOffset.ofJson (Json.member jsonObject "offset"), []⟩

def GfVec3d.toJson (v : GfVec3d) : Json := .array [.double v.x, .double v.y, .double v.z]

def GfVec3d.ofJson (json : Json) : Except Fault GfVec3d := do
  let jsonArray ← json.asArray
  .ok ⟨← (← Json.itemAt jsonArray 0).toDouble, ← (← Json.itemAt jsonArray 1).toDouble,
    ← (← Json.itemAt jsonArray 2).toDouble⟩

def GfVec2f.toJson (v : GfVec2f) : Json := .array [.ofFloat v.x, .ofFloat v.y]

def GfVec2f.ofJson (json : Json) : Except Fault GfVec2f := do
  let jsonArray ← json.asArray
  .ok ⟨← (← Json.itemAt jsonArray 0).toFloat, ← (← Json.itemAt jsonArray 1).toFloat⟩

def GfVec3f.toJson (v : GfVec3f) : Json := .array [.ofFloat v.x, .ofFloat v.y, .ofFloat v.z]

def GfVec3f.ofJson (json : Json) : Except Fault GfVec3f := do
  let jsonArray ← json.asArray
  .ok ⟨← (← Json.itemAt jsonArray 0).toFloat, ← (← Json.itemAt jsonArray 1).toFloat,
    ← (← Json.itemAt jsonArray 2).toFloat⟩

/-- `*v[i]`: the row index is the number of the element, so the offset is `4 * i` and
leaves the matrix from the fourth element on. -/
def GfMatrix4d.toJson (v : Fin 16 → Usd.Double) : Json :=
  .ofList (fun i => .double (if h : 4 * i < 16 then v ⟨4 * i, h⟩ else Usd.outOfBounds (4 * i)))
    (List.range 16)

/-- Writes the elements with the same offsets as `toJson` reads. -/
def GfMatrix4d.ofJson (json : Json) : Except Fault (Fin 16 → Usd.Double) := do
  let jsonArray ← json.asArray
  jsonArray.zipIdx.foldlM (fun result item => do
    let x ← item.1.toDouble
    if h : 4 * item.2 < 16 then .ok (Function.update result ⟨4 * item.2, h⟩ x)
    else .error .undefinedBehavior) fun _ => Usd.zero

def SdfListOp.toJson {T : Type} (item : T → Json) (v : SdfListOp T) : Json :=
  .object [("explicit", .ofList item v.explicitItems), ("added", .ofList item v.addedItems),
    ("prepended", .ofList item v.prependedItems), ("appended", .ofList item v.appendedItems),
    ("deleted", .ofList item v.deletedItems), ("ordered", .ofList item v.orderedItems)]

/-- The added and ordered items are read and dropped. -/
def SdfListOp.ofJson {T : Type} (item : Json → Except Fault T) (json : Json) :
    Except Fault (SdfListOp T) := do
  let explicitItems ← (← json.valueAt "explicit").toList item
  let _ ← (← json.valueAt "added").toList item
  let prependedItems ← (← json.valueAt "prepended").toList item
  let appendedItems ← (← json.valueAt "appended").toList item
  let deletedItems ← (← json.valueAt "deleted").toList item
  let _ ← (← json.valueAt "ordered").toList item
  if explicitItems ≠ [] then .ok (.createExplicit explicitItems)
  else .ok (.create prependedItems appendedItems deletedItems)

/-- `map[key] = value` for the entries of a map in the order of their keys. -/
def VtDictionary.assign {V : Type} (key : String) (value : V) :
    List (String × V) → List (String × V)
  | [] => [(key, value)]
  | e :: entries =>
    if key < e.1 then (key, value) :: e :: entries
    else if key = e.1 then (key, value) :: entries
    else e :: assign key value entries

namespace VtValue

/-- The name USD has for the held type. -/
def getTypeName : VtValue → String
  | .empty => "void"
  | .vec3d _ => "GfVec3d"
  | .vec3f _ => "GfVec3f"
  | .bool _ => "bool"
  | .specifier _ => "SdfSpecifier"
  | .token _ => "TfToken"
  | .string _ => "string"
  | .variability _ => "SdfVariability"
  | .intArray _ => "VtArray<int>"
  | .floatArray _ => "VtArray<float>"
  | .tokenArray _ => "VtArray<TfToken>"
  | .vec2fArray _ => "VtArray<GfVec2f>"
  | .vec3fArray _ => "VtArray<GfVec3f>"
  | .double _ => "double"
  | .float _ => "float"
  | .tokenVector _ => "vector<TfToken,allocator<TfToken> >"
  | .matrix4d _ => "GfMatrix4d"
  | .pathListOp _ => "SdfListOp<SdfPath>"
  | .referenceListOp _ => "SdfListOp<SdfReference>"
  | .tokenListOp _ => "SdfListOp<TfToken>"
  | .pathVector _ => "vector<SdfPath,allocator<SdfPath> >"
  | .int _ => "int"
  | .dictionary _ => "VtDictionary"
  | .assetPath _ => "SdfAssetPath"
  | .valueBlock => "SdfValueBlock"
  | .timeSampleMap _ => "map<double,VtValue,less<double>,allocator<pair<double const ,VtValue> > >"
  | .other typeName => typeName

/-- `erase` and `remove` of the blanks. -/
def removeBlanks (typeName : String) : String :=
  String.ofList (typeName.toList.filter (· ≠ ' '))

def typeText (v : VtValue) : String := removeBlanks v.getTypeName

/-- The object around the encoded data. -/
def envelope (v : VtValue) (data : Json) : Json :=
  .object [("type", .string v.typeText), ("data", data)]

mutual

/-- The dispatch on the held type. -/
def dataToJson : VtValue → Except Fault Json
  | .vec3d v => .ok v.toJson
  | .vec3f v => .ok v.toJson
  | .bool v => .ok (.bool v)
  | .specifier v => .ok (.ofInt32 v.value)
  | .token v => .ok (.string v)
  | .string v => .ok (.string v)
  | .variability v => .ok (.ofInt32 v.value)
  | .intArray v => .ok (.ofList .ofInt32 v)
  | .floatArray v => .ok (.ofList .ofFloat v)
  | .tokenArray v => .ok (.ofList .string v)
  | .vec2fArray v => .ok (.ofList GfVec2f.toJson v)
  | .vec3fArray v => .ok (.ofList GfVec3f.toJson v)
  | .double v => .ok (.double v)
  | .float v => .ok (.ofFloat v)
  | .tokenVector v => .ok (.ofList .string v)
  | .matrix4d v => .ok (GfMatrix4d.toJson v)
  | .pathListOp v => .ok (v.toJson SdfPath.toJson)
  | .referenceListOp v => .ok (v.toJson SdfReference.toJson)
  | .tokenListOp v => .ok (v.toJson .string)
  | .pathVector v => .ok (.ofList SdfPath.toJson v)
  | .int v => .ok (.ofInt32 v)
  | .dictionary v => do .ok (.object (← entriesToJson v))
  | .assetPath v => .ok v.toJson
  | .valueBlock => .ok (.object [])
  | .empty => .error (.runtimeError ("Can't serialize type: " ++ VtValue.empty.getTypeName))
  | .timeSampleMap v =>
    .error (.runtimeError ("Can't serialize type: " ++ (VtValue.timeSampleMap v).getTypeName))
  | .other typeName =>
    .error (.runtimeError ("Can't serialize type: " ++ (VtValue.other typeName).getTypeName))

/-- The members of an encoded dictionary. -/
def entriesToJson : List (String × VtValue) → Except Fault (List (String × Json))
  | [] => .ok []
  | (key, value) :: entries => do
    let data ← dataToJson value
    .ok ((key, value.envelope data) :: (← entriesToJson entries))

end

def toJson (v : VtValue) : Except Fault Json := do
  .ok (v.envelope (← v.dataToJson))

/-- The dispatch on the names of the types that contain no other values. -/
def leafOfJson (type : String) (data : Json) : Except Fault VtValue :=
  if type = "GfVec3d" then VtValue.vec3d <$> GfVec3d.ofJson data
  else if type = "GfVec3f" then VtValue.vec3f <$> GfVec3f.ofJson data
  else if type = "bool" then VtValue.bool <$> data.toBool
  else if type = "SdfSpecifier" then (VtValue.specifier ⟨·⟩) <$> data.toInt32
  else if type = "TfToken" then VtValue.token <$> data.toString
  else if type = "string" then VtValue.string <$> data.toString
  else if type = "SdfVariability" then (VtValue.variability ⟨·⟩) <$> data.toInt32
  else if type = "VtArray<int>" then VtValue.intArray <$> data.toList Json.toInt32
  else if type = "VtArray<TfToken>" then VtValue.tokenArray <$> data.toList Json.toString
  else if type = "VtArray<GfVec2f>" then VtValue.vec2fArray <$> data.toList GfVec2f.ofJson
  else if type = "VtArray<GfVec3f>" then VtValue.vec3fArray <$> data.toList GfVec3f.ofJson
  else if type = "double" then VtValue.double <$> data.toDouble
  else if type = "vector<TfToken,allocator<TfToken>>" then
    VtValue.tokenVector <$> data.toList Json.toString
  else if type = "vector<SdfPath,allocator<SdfPath>>" then
    VtValue.pathVector <$> data.toList SdfPath.ofJson
  else if type = "GfMatrix4d" then VtValue.matrix4d <$> GfMatrix4d.ofJson data
  else if type = "float" then VtValue.float <$> data.toFloat
  else if type = "int" then VtValue.int <$> data.toInt32
  else if type = "VtArray<float>" then VtValue.floatArray <$> data.toList Json.toFloat
  else if type = "SdfAssetPath" then VtValue.assetPath <$> SdfAssetPath.ofJson data
  else if type = "SdfListOp<SdfPath>" then
    VtValue.pathListOp <$> SdfListOp.ofJson SdfPath.ofJson data
  else if type = "SdfListOp<SdfReference>" then
    VtValue.referenceListOp <$> SdfListOp.ofJson SdfReference.ofJson data
  else if type = "SdfListOp<TfToken>" then
    VtValue.tokenListOp <$> SdfListOp.ofJson Json.toString data
  else if type = "SdfValueBlock" then .ok .valueBlock
  else .error (.runtimeError ("Can't parse type: " ++ type))

mutual

def ofJson : Json → Except Fault VtValue
  | .object jsonObject => do
    let type ← (Json.member jsonObject "type").toString
    memberOfJson type jsonObject
  | _ => .error .jsonError

/-- Looks up the member `data`, which is null when it is missing. -/
def memberOfJson (type : String) : List (String × Json) → Except Fault VtValue
  | [] => if type = "VtDictionary" then .error .jsonError else leafOfJson type .null
  | (key, data) :: jsonObject =>
    if key = "data" then dataOfJson type data else memberOfJson type jsonObject

/-- The dispatch on the type name. -/
def dataOfJson (type : String) : Json → Except Fault VtValue
  | .object jsonObject =>
    if type = "VtDictionary" then do .ok (.dictionary (← entriesOfJson [] jsonObject))
    else leafOfJson type (.object jsonObject)
  | data => if type = "VtDictionary" then .error .jsonError else leafOfJson type data

/-- The entries of a dictionary, assigned one after the other. -/
def entriesOfJson (result : List (String × VtValue)) :
    List (String × Json) → Except Fault (List (String × VtValue))
  | [] => .ok result
  | (key, item) :: jsonObject => do
    let value ← ofJson item
    entriesOfJson (VtDictionary.assign key value result) jsonObject

end

end VtValue

end RenderStudioKit
