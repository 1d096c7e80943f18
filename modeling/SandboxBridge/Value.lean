import SandboxBridge.Decimal.Layout
import SandboxBridge.Error

/-!
Host values: what module code can reach through handles only. Objects and functions are identities
whose contents live in a store.
-/

namespace SandboxBridge

structure ObjectId where
  index : Nat
  deriving DecidableEq, Repr, Inhabited

/-- Identity of a function: a host function, or a closure of the module behind a trampoline. -/
inductive FunctionId where
  | native (index : Nat)
  | closure (index : Nat)
  deriving DecidableEq, Repr, Inhabited

inductive Value where
  | undefined
  | null
  | bool (value : Bool)
  | number (value : Float)
  | string (value : String)
  | object (id : ObjectId)
  | function (id : FunctionId)
  deriving Inhabited

/-- Text of a number as the host prints it: plain decimal notation, zero without a sign. -/
def numberText (x : Float) : String :=
  if x.isNaN then "NaN"
  else if x.isInf then if x < 0 then "-Infinity" else "Infinity"
  else if x == 0 then "0"
  else Decimal.Layout.plain.text x

namespace Value

def isUndefined : Value → Bool
  | .undefined => true
  | _ => false

def isNull : Value → Bool
  | .null => true
  | _ => false

def isNullish : Value → Bool
  | .undefined | .null => true
  | _ => false

def asString? : Value → Option String
  | .string s => some s
  | _ => none

def asNumber? : Value → Option Float
  | .number x => some x
  | _ => none

def asBool? : Value → Option Bool
  | .bool b => some b
  | _ => none

def asObject? : Value → Option ObjectId
  | .object id => some id
  | _ => none

def asFunction? : Value → Option FunctionId
  | .function id => some id
  | _ => none

def typeName : Value → String
  | .undefined => "undefined"
  | .null | .object _ => "object"
  | .bool _ => "boolean"
  | .number _ => "number"
  | .string _ => "string"
  | .function _ => "function"

/-- Strict equality: primitives by value, objects and functions by identity. A NaN equals nothing.
-/
def strictEquals : Value → Value → Bool
  | .undefined, .undefined | .null, .null => true
  | .bool a, .bool b => a == b
  | .number a, .number b => a == b
  | .string a, .string b => a == b
  | .object a, .object b => a == b
  | .function a, .function b => a == b
  | _, _ => false

end Value

inductive Fault where
  /-- A host exception, which the bridge hands to the module as a value. -/
  | thrown (exception : Value)
  /-- A fatal error, which ends the current path of calls. -/
  | trap (error : Error)

end SandboxBridge
