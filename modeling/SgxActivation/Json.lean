/-!
# JSON values

The values of JSON with the members of an object in their written order.
Numbers are whole.
-/

namespace SgxActivation

/-- A JSON value. -/
inductive Json where
  | null
  | bool (value : Bool)
  | number (value : Int)
  | text (value : String)
  | array (items : List Json)
  | object (members : List (String × Json))

/-- A number, or null where there is none. -/
def Json.numberOrNull : Option Nat → Json
  | some n => .number n
  | none => .null

end SgxActivation
