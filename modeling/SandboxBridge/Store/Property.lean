import SandboxBridge.Store

/-!
Reading and writing properties as the host does. Arrays answer to their indices and to `length`,
strings to `length`, functions to `name`; nullish values throw.
-/

namespace SandboxBridge.Store

/-- A host operation on the store that may throw a value. What was done before stays done. -/
abbrev Completion (α : Type) :=
  ExceptT Value (StateM Store) α

def throwTypeError {α : Type} (message : String) : Completion α := do
  throw (← newError "TypeError" message)

/-- Value of a numeral, if it fits 64 bits. The count stands still once it does not. -/
def decimal? (digits : List Char) : Option Nat :=
  if digits.isEmpty || !digits.all Char.isDigit then none
  else
    let n := digits.foldl
      (fun n c => if n < UInt64.size then n * 10 + (c.toNat - '0'.toNat) else n) 0
    if n < UInt64.size then some n else none

/-- The element that a key names: a decimal numeral, where only zero itself begins with a zero and a
plus sign may come first. -/
def arrayIndex? (key : String) : Option Nat :=
  match key.toList with
  | '0' :: _ :: _ => none
  | '+' :: digits => decimal? digits
  | digits => decimal? digits

def lengthInUnits (text : String) : Nat :=
  text.toList.foldl (fun units c => units + if c.toNat < 0x10000 then 1 else 2) 0

def getProperty (target : Value) (key : String) : Completion Value := do
  let s ← get
  match target with
  | .undefined => throwTypeError s!"Cannot read properties of undefined (reading '{key}')"
  | .null => throwTypeError s!"Cannot read properties of null (reading '{key}')"
  | .object id =>
    let o := s.object id
    let named := (o.get? key).getD .undefined
    if o.isArray then
      if key = "length" then return .number (Float.ofNat o.elements.size)
      match arrayIndex? key with
      | some index => return o.elements.getD index .undefined
      | none => return named
    else return named
  | .string text =>
    return if key = "length" then .number (Float.ofNat (lengthInUnits text)) else .undefined
  | .function id =>
    return if key = "name" then .string ((s.functionName? id).getD "") else .undefined
  | _ => return .undefined

/-- An object after a property has been written, or an element if it is an array and the key names
one. There is no such array if the element has no place in any. -/
def written? (o : Object) (key : String) (value : Value) : Option Object :=
  match arrayIndex? key with
  | some index =>
    if o.isArray then
      if fits : index < elementLimit then some (o.setElement ⟨index, fits⟩ value) else none
    else some (o.put key value)
  | none => some (o.put key value)

/-- Whether a value is an instance of a class. Every object is an `Object`, and so is a function. -/
def isInstance (s : Store) (value : Value) (className : String) : Bool :=
  match value with
  | .object id => className = "Object" || (s.object id).isInstanceOf className
  | .function _ => className = "Function" || className = "Object"
  | _ => false

end SandboxBridge.Store
