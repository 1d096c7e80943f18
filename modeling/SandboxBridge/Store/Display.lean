import SandboxBridge.Store
import SandboxBridge.Text.Quoted

/-!
Conversion of values to text, as for property keys and stored items, and the one-line descriptions
of values in diagnostics.
-/

namespace SandboxBridge.Store

def functionText (s : Store) (id : FunctionId) : String :=
  "function " ++ (s.functionName? id).getD "" ++ "() \x7b [native code] \x7d"

/-- Text of a value whose objects nest at most `depth` deep. Arrays join their elements, of which
nullish ones are empty; errors give their name and message. -/
def displayWithin (s : Store) : Nat → Value → Option String
  | _, .undefined => some "undefined"
  | _, .null => some "null"
  | _, .bool b => some (toString b)
  | _, .number x => some (numberText x)
  | _, .string text => some text
  | _, .function id => some (s.functionText id)
  | 0, .object _ => none
  | depth + 1, .object id =>
    let o := s.object id
    if o.isArray then do
      let texts ← o.elements.toList.mapM fun element =>
        if element.isNullish then some "" else s.displayWithin depth element
      return ",".intercalate texts
    else if o.isInstanceOf "Error" then do
      let text (key : String) := (o.get? key).elim (some "") (s.displayWithin depth)
      return (← text "name") ++ ": " ++ (← text "message")
    else some "[object Object]"

/-- Text of a value, which an array or an error inside itself has not. A chain of nested objects that
does not return to itself has no more members than the store has objects. -/
def display? (s : Store) (value : Value) : Option String :=
  s.displayWithin (s.objects.size + 1) value

def describeContext : Context → String
  | .owned word => s!"Owned({word.toNat})"
  | .borrowed => "Borrowed"
  | .released => "Released"

def describeFunction (s : Store) : FunctionId → String
  | .native index => s!"Function({(s.native index).name})"
  | .closure index =>
    let context := (s.closures[index]?).elim .released Closure.context
    s!"Closure({describeContext context})"

def describeObject (o : Object) : String :=
  "HostObject \x7b class: " ++ Text.quotedOption o.classes.head? ++
    s!", properties: {o.properties.size}, elements: {o.elements.size} \x7d"

def describe (s : Store) : Value → String
  | .undefined => "undefined"
  | .null => "null"
  | .bool b => toString b
  | .number x => numberText x
  | .string text => Text.quoted text
  | .object id => describeObject (s.object id)
  | .function id => s.describeFunction id

end SandboxBridge.Store
