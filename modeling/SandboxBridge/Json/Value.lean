import SandboxBridge.Decimal.Layout
import SandboxBridge.Json.Text

/-!
JSON values and their compact text.
-/

namespace SandboxBridge.Json

inductive Value where
  | null
  | bool (value : Bool)
  | integer (value : Int)
  /-- A finite number that is no small integer. -/
  | float (value : Float)
  | string (value : String)
  | array (items : List Value)
  | object (fields : List (String × Value))

namespace Value

/-- Numbers below `2 ^ 53` without a fraction are integers, and what is not finite is null. -/
def ofFloat (x : Float) : Value :=
  if x.isNaN || x.isInf then .null
  else
    match (Decimal.Binary.ofFloat x).whole? with
    | some n => if n < Nat.pow 2 53 then .integer (if x < 0 then -n else n) else .float x
    | none => .float x

mutual

def text : Value → String
  | .null => "null"
  | .bool b => boolText b
  | .integer n => toString n
  | .float x => Decimal.Layout.json.text x
  | .string s => stringText s
  | .array items => "[" ++ ",".intercalate (itemTexts items) ++ "]"
  | .object fields => "\x7b" ++ ",".intercalate (fieldTexts fields) ++ "\x7d"

def itemTexts : List Value → List String
  | [] => []
  | item :: rest => item.text :: itemTexts rest

def fieldTexts : List (String × Value) → List String
  | [] => []
  | (name, value) :: rest => (stringText name ++ ":" ++ value.text) :: fieldTexts rest

end

end Value

end SandboxBridge.Json
