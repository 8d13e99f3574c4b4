import Mnemo.Core.Text

/-!
# JSON values

An object is the list of its fields in ascending order of key, each key once.
-/

namespace Mnemo

/-- A JSON value; numbers are kept as they are written. -/
inductive Json where
  | null
  | bool (value : Bool)
  | number (literal : String)
  | string (value : String)
  | array (items : List Json)
  | object (fields : List (String × Json))

namespace Json

/-- Whether the value is an object. -/
def isObject : Json → Bool
  | .object _ => true
  | _ => false

/-- Put a field into its place in a sorted list of fields, over one with the same key. -/
def insertField (key : String) (value : Json) : List (String × Json) → List (String × Json)
  | [] => [(key, value)]
  | (other, old) :: fields =>
      if key < other then (key, value) :: (other, old) :: fields
      else if key = other then (key, value) :: fields
      else (other, old) :: insertField key value fields

end Json
end Mnemo
