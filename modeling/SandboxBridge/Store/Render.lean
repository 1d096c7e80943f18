import SandboxBridge.Json.Value
import SandboxBridge.Store.Display

/-!
Rendering of values for people: primitives as literals, arrays with their elements, errors with
their stack, plain objects as JSON, anything else by its class. Arrays inside themselves are cut
short, and an object that has no JSON form because it contains itself is named by its class.
-/

namespace SandboxBridge.Store

inductive Obstacle where
  /-- The value contains itself. -/
  | cycle
  /-- Objects nest deeper than asked for. -/
  | depth
  deriving DecidableEq, Repr

/-- JSON form of a value inside the objects `seen`, or nothing for what JSON leaves out. Objects may
nest `depth` deep. -/
def json (s : Store) : Nat → List ObjectId → Value → Except Obstacle (Option Json.Value)
  | _, _, .undefined | _, _, .function _ => .ok none
  | _, _, .null => .ok (some .null)
  | _, _, .bool b => .ok (some (.bool b))
  | _, _, .number x => .ok (some (.ofFloat x))
  | _, _, .string text => .ok (some (.string text))
  | 0, _, .object _ => .error .depth
  | depth + 1, seen, .object id =>
    if id ∈ seen then .error .cycle
    else do
      let o := s.object id
      if o.isArray then
        let items ← o.elements.toList.mapM (s.json depth (id :: seen))
        return some (.array (items.map (·.getD .null)))
      else
        let fields ← o.properties.entries.mapM fun (key, value) => do
          return (← s.json depth (id :: seen) value).map (key, ·)
        return some (.object (fields.filterMap fun field => field))

def inner (s : Store) (value : Value) : Except Obstacle String :=
  (s.display? value).elim (.error .cycle) .ok

/-- Rendering of a value inside the arrays `seen`. Arrays may nest `depth` deep. -/
def renderWithin (s : Store) : Nat → List ObjectId → Value → Except Obstacle String
  | _, _, .undefined => .ok "undefined"
  | _, _, .null => .ok "null"
  | _, _, .bool b => .ok (toString b)
  | _, _, .number x => .ok (numberText x)
  | _, _, .string text => .ok s!"\"{text}\""
  | _, _, .function id =>
    .ok ((s.functionName? id).elim "Function" fun name => s!"Function({name})")
  | 0, _, .object _ => .error .depth
  | depth + 1, seen, .object id =>
    let o := s.object id
    if o.isArray then
      if id ∈ seen then .ok "[...]"
      else do
        let elements ← o.elements.toList.mapM (s.renderWithin depth (id :: seen))
        return "[" ++ ", ".intercalate elements ++ "]"
    else if o.isInstanceOf "Error" then do
      let name ← (o.get? "name").elim (.ok o.className) s.inner
      let message ← (o.get? "message").elim (.ok "") s.inner
      let stack ← (o.get? "stack").elim (.ok "") s.inner
      return name ++ ": " ++ message ++ "\n" ++ stack
    else if o.className = "Object" then
      match s.json (s.objects.size + 1) [] (.object id) with
      | .ok (some json) => .ok ("Object(" ++ json.text ++ ")")
      | _ => .ok "Object"
    else .ok o.className

/-- Rendering of a value, which an error has not whose name, message or stack has no text. Arrays
nest no deeper than the store has objects before one repeats, and the repeated one needs one level
more. -/
def render? (s : Store) (value : Value) : Option String :=
  (s.renderWithin (s.objects.size + 1) [] value).toOption

end SandboxBridge.Store
