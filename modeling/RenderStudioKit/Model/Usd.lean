import Mathlib.Logic.Function.Basic

/-!
# USD values

The value types of USD that the live session moves between clients. USD itself, the
hardware floating point formats and their conversions are outside the repository, so
they enter as the class `Usd`; everything the repository builds from them is concrete.
-/

namespace RenderStudioKit

/-- The types and operations of USD and of the machine that the code uses without
defining them. No law is assumed here; results that need one state it. -/
class Usd where
  SdfPath : Type
  [decidableEqSdfPath : DecidableEq SdfPath]
  /-- `SdfPath {}` -/
  emptyPath : SdfPath
  /-- `SdfPath { text }` for a non-empty text -/
  parsePath : String → SdfPath
  getString : SdfPath → String
  getNameToken : SdfPath → String
  getPrimPath : SdfPath → SdfPath
  isPrimPath : SdfPath → Bool
  isAbsoluteRootPath : SdfPath → Bool
  Double : Type
  [decidableEqDouble : DecidableEq Double]
  Float : Type
  /-- `GfMatrix4d {}` is filled with this value. -/
  zero : Double
  /-- `static_cast<double>(float)` -/
  widen : Float → Double
  /-- `static_cast<float>(double)` -/
  narrow : Double → Float
  /-- `static_cast<double>(std::int64_t)` -/
  doubleOfInt : Int → Double
  /-- `static_cast<float>(std::int64_t)` -/
  floatOfInt : Int → Float
  /-- The integer a double is exactly equal to, if there is one. -/
  doubleToInt : Double → Option Int
  /-- What a read finds that many doubles past the first element of a matrix, for an
  offset outside the matrix. -/
  outOfBounds : Nat → Double

/-- The part of a path behind its last separator. -/
def lastElement : List Char → List Char → List Char
  | name, [] => name
  | name, c :: text => if c = '/' ∨ c = '.' then lastElement [] text
      else lastElement (name ++ [c]) text

/-- An instance to evaluate the model in: a path is its text and a number an integer. -/
@[reducible] def Usd.sample : Usd where
  SdfPath := String
  emptyPath := ""
  parsePath text := text
  getString path := path
  getNameToken path := String.ofList (lastElement [] path.toList)
  getPrimPath path := String.ofList (path.toList.takeWhile (· ≠ '.'))
  isPrimPath path := path.toList ≠ [] && !path.toList.contains '.'
  isAbsoluteRootPath path := path = "/"
  Double := Int
  Float := Int
  zero := 0
  widen x := x
  narrow x := x
  doubleOfInt n := n
  floatOfInt n := n
  doubleToInt x := some x
  outOfBounds _ := 0

instance [Usd] : DecidableEq Usd.SdfPath := Usd.decidableEqSdfPath

instance [Usd] : DecidableEq Usd.Double := Usd.decidableEqDouble

/-- An interned string; USD compares tokens by their text. -/
abbrev TfToken := String

abbrev SdfPath [Usd] : Type := Usd.SdfPath

/-- The field keys the code compares with. -/
abbrev SdfFieldKeys.active : TfToken := "active"
abbrev SdfFieldKeys.customData : TfToken := "customData"
abbrev SdfFieldKeys.typeName : TfToken := "typeName"
abbrev SdfChildrenKeys.primChildren : TfToken := "primChildren"
abbrev SdfDataTokens.timeSamples : TfToken := "timeSamples"

/-- A C++ enumeration: a cast from an integer keeps any value of the underlying type. -/
structure SdfSpecType where
  value : Int32
deriving DecidableEq

abbrev SdfSpecType.unknown : SdfSpecType := ⟨0⟩
abbrev SdfSpecType.attribute : SdfSpecType := ⟨1⟩
abbrev SdfSpecType.prim : SdfSpecType := ⟨6⟩
abbrev SdfSpecType.pseudoRoot : SdfSpecType := ⟨7⟩

structure SdfSpecifier where
  value : Int32
deriving DecidableEq

structure SdfVariability where
  value : Int32
deriving DecidableEq

structure GfVec3d [Usd] where
  x : Usd.Double
  y : Usd.Double
  z : Usd.Double

structure GfVec2f [Usd] where
  x : Usd.Float
  y : Usd.Float

structure GfVec3f [Usd] where
  x : Usd.Float
  y : Usd.Float
  z : Usd.Float

structure SdfAssetPath where
  assetPath : String
  resolvedPath : String
deriving DecidableEq

structure SdfLayerOffset [Usd] where
  offset : Usd.Double
  scale : Usd.Double

/-- A reference; its custom data is a dictionary of values of type `V`. -/
structure SdfReference [Usd] (V : Type) where
  assetPath : String
  primPath : SdfPath
  layerOffset : SdfLayerOffset
  customData : List (String × V)

/-- A list edit. -/
structure SdfListOp (T : Type) where
  isExplicit : Bool
  explicitItems : List T
  addedItems : List T
  prependedItems : List T
  appendedItems : List T
  deletedItems : List T
  orderedItems : List T

/-- `SdfListOp<T>::CreateExplicit` -/
def SdfListOp.createExplicit {T : Type} (explicitItems : List T) : SdfListOp T :=
  ⟨true, explicitItems, [], [], [], [], []⟩

/-- `SdfListOp<T>::Create` -/
def SdfListOp.create {T : Type} (prependedItems appendedItems deletedItems : List T) :
    SdfListOp T :=
  ⟨false, [], [], prependedItems, appendedItems, deletedItems, []⟩

/-- The held types the code distinguishes. A `VtDictionary` is listed in the order of its
keys; `other` stands for every held type the code never names. -/
inductive VtValue [Usd] where
  | empty
  | vec3d (v : GfVec3d)
  | vec3f (v : GfVec3f)
  | bool (v : Bool)
  | specifier (v : SdfSpecifier)
  | token (v : TfToken)
  | string (v : String)
  | variability (v : SdfVariability)
  | intArray (v : List Int32)
  | floatArray (v : List Usd.Float)
  | tokenArray (v : List TfToken)
  | vec2fArray (v : List GfVec2f)
  | vec3fArray (v : List GfVec3f)
  | double (v : Usd.Double)
  | float (v : Usd.Float)
  | tokenVector (v : List TfToken)
  | matrix4d (v : Fin 16 → Usd.Double)
  | pathListOp (v : SdfListOp SdfPath)
  | referenceListOp (v : SdfListOp (SdfReference VtValue))
  | tokenListOp (v : SdfListOp TfToken)
  | pathVector (v : List SdfPath)
  | int (v : Int32)
  | dictionary (v : List (String × VtValue))
  | assetPath (v : SdfAssetPath)
  | valueBlock
  | timeSampleMap (v : List (Usd.Double × VtValue))
  | other (typeName : String)

abbrev VtDictionary [Usd] := List (String × VtValue)

namespace VtValue

variable [Usd]

def isEmpty : VtValue → Bool
  | .empty => true
  | _ => false

/-- `GetWithDefault<std::vector<TfToken>>()` -/
def getTokenVector : VtValue → List TfToken
  | .tokenVector v => v
  | _ => []

/-- `Get<std::string>()`, which yields an empty string for any other held type. -/
def getStdString : VtValue → String
  | .string v => v
  | _ => ""

@[simp] lemma getTokenVector_tokenVector (v : List TfToken) :
    (tokenVector v).getTokenVector = v := rfl

end VtValue

end RenderStudioKit
