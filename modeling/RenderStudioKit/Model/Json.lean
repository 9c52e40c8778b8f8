import Mathlib.Algebra.Group.Int.Defs
import RenderStudioKit.Model.Usd

/-!
# JSON values

The JSON documents events travel in. Their text form belongs to the JSON library: a
message is identified with the document its text parses to. The conversions of the
library for scalars, strings and arrays are given here.
-/

namespace RenderStudioKit

/-- What an operation that does not return does instead. -/
inductive Fault where
  /-- `std::runtime_error` thrown by the code. -/
  | runtimeError (what : String)
  /-- An exception of the JSON library: wrong kind, missing member, inexact number. -/
  | jsonError
  /-- `std::bad_variant_access` -/
  | badVariantAccess
  /-- A write outside the object. -/
  | undefinedBehavior
deriving DecidableEq

/-- `boost::json::value`. An integer is in the range of `std::int64_t` or `std::uint64_t`;
the keys of an object are distinct. -/
inductive Json [Usd] where
  | null
  | bool (b : Bool)
  | int (n : Int)
  | double (x : Usd.Double)
  | string (s : String)
  | array (items : List Json)
  | object (members : List (String × Json))

namespace Json

variable [Usd]

def asObject : Json → Except Fault (List (String × Json))
  | .object members => .ok members
  | _ => .error .jsonError

def asArray : Json → Except Fault (List Json)
  | .array items => .ok items
  | _ => .error .jsonError

/-- `operator[]` of an object, which yields null for a missing key. -/
def member (members : List (String × Json)) (key : String) : Json :=
  (members.lookup key).getD .null

/-- `at` of an object. -/
def memberAt (members : List (String × Json)) (key : String) : Except Fault Json :=
  match members.lookup key with
  | some json => .ok json
  | none => .error .jsonError

/-- `at` of an array. -/
def itemAt (items : List Json) (i : Nat) : Except Fault Json :=
  match items[i]? with
  | some json => .ok json
  | none => .error .jsonError

/-- `value::at` of a key. -/
def valueAt (json : Json) (key : String) : Except Fault Json := do
  memberAt (← json.asObject) key

/-- `value_to<bool>` -/
def toBool : Json → Except Fault Bool
  | .bool b => .ok b
  | _ => .error .jsonError

/-- `value_to<std::string>` -/
def toString : Json → Except Fault String
  | .string s => .ok s
  | _ => .error .jsonError

/-- The integer a number is exactly equal to. -/
def toInteger : Json → Except Fault Int
  | .int n => .ok n
  | .double x =>
    match Usd.doubleToInt x with
    | some n => .ok n
    | none => .error .jsonError
  | _ => .error .jsonError

/-- `value_to<std::int32_t>` -/
def toInt32 (json : Json) : Except Fault Int32 := do
  let n ← json.toInteger
  if -2 ^ 31 ≤ n ∧ n < 2 ^ 31 then .ok (Int32.ofInt n) else .error .jsonError

/-- `value_to<std::size_t>` -/
def toSize (json : Json) : Except Fault Nat := do
  let n ← json.toInteger
  if 0 ≤ n then .ok n.toNat else .error .jsonError

/-- `value_to<double>` -/
def toDouble : Json → Except Fault Usd.Double
  | .int n => .ok (Usd.doubleOfInt n)
  | .double x => .ok x
  | _ => .error .jsonError

/-- `value_to<float>` -/
def toFloat : Json → Except Fault Usd.Float
  | .int n => .ok (Usd.floatOfInt n)
  | .double x => .ok (Usd.narrow x)
  | _ => .error .jsonError

/-- A loop that decodes the items of an array. -/
def toList {α : Type} (item : Json → Except Fault α) (json : Json) : Except Fault (List α) := do
  (← json.asArray).mapM item

/-- `value_from(float)` -/
def ofFloat (x : Usd.Float) : Json := .double (Usd.widen x)

/-- `value_from(std::int32_t)` -/
def ofInt32 (n : Int32) : Json := .int n.toInt

/-- A loop that encodes the items of an array. -/
def ofList {α : Type} (item : α → Json) (items : List α) : Json := .array (items.map item)

end Json

end RenderStudioKit
