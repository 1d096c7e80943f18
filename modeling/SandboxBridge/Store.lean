import SandboxBridge.Closure
import SandboxBridge.Dict
import SandboxBridge.Value

/-!
The store: contents of everything with an identity. Objects hold a class chain, named properties and
indexed elements; functions of the host have a name and a behaviour; closures have their state.
Listener lists and key-value items belong to the built-in behaviours that use them.
-/

namespace SandboxBridge

structure Object where
  /-- The most derived class first; may be empty. -/
  classes : List String := []
  properties : Dict Value := ∅
  elements : Array Value := #[]
  deriving Inhabited

inductive Behaviour where
  | addListener (table : Nat)
  | removeListener (table : Nat)
  | dispatch (table : Nat)
  | getItem (storage : Nat)
  | setItem (storage : Nat)
  | removeItem (storage : Nat)
  | clear (storage : Nat)
  | preventDefault
  /-- Code of the embedder, known to it by a key. -/
  | hosted (key : Nat)
  deriving DecidableEq, Repr, Inhabited

structure NativeFunction where
  /-- Empty for an anonymous function. -/
  name : String
  behaviour : Behaviour
  deriving Inhabited

/-- Items of a key-value storage, and how many bytes their keys and values may take together. -/
structure Storage where
  quota : Nat
  items : Dict String
  deriving Inhabited

structure Store where
  objects : Array Object := #[]
  natives : Array NativeFunction := #[]
  closures : Array Closure := #[]
  /-- For each listener table, the listeners of each event type in the order of their calls. -/
  listeners : Array (Dict (List FunctionId)) := #[]
  storages : Array Storage := #[]
  deriving Inhabited

/-- How many elements fit into an array at most: they take 24 bytes each, and no block of memory has
`2 ^ 63` bytes. -/
def elementLimit : Nat :=
  (Nat.pow 2 63 - 1) / 24

abbrev Position :=
  Fin elementLimit

def Position.ofUInt32 (index : UInt32) : Position :=
  ⟨index.toNat, Nat.lt_trans index.toNat_lt (by decide)⟩

namespace Object

def className (o : Object) : String :=
  o.classes.head?.getD "Object"

def isInstanceOf (o : Object) (className : String) : Bool :=
  o.classes.contains className

def isArray (o : Object) : Bool :=
  o.isInstanceOf "Array"

def get? (o : Object) (key : String) : Option Value :=
  o.properties.get? key

def put (o : Object) (key : String) (value : Value) : Object :=
  { o with properties := o.properties.insert key value }

def erase (o : Object) (key : String) : Object :=
  { o with properties := o.properties.erase key }

def setElement (o : Object) (index : Position) (value : Value) : Object :=
  let padding := Array.replicate (index + 1 - o.elements.size) Value.undefined
  { o with elements := (o.elements ++ padding).set! index value }

def flag? (o : Object) (key : String) : Option Bool :=
  (o.get? key).bind Value.asBool?

end Object

namespace Store

def object (s : Store) (id : ObjectId) : Object :=
  s.objects.getD id.index {}

def modifyObject (s : Store) (id : ObjectId) (f : Object → Object) : Store :=
  { s with objects := s.objects.modify id.index f }

def addObject (s : Store) (o : Object) : ObjectId × Store :=
  (⟨s.objects.size⟩, { s with objects := s.objects.push o })

def put (s : Store) (id : ObjectId) (key : String) (value : Value) : Store :=
  s.modifyObject id (·.put key value)

def setElement (s : Store) (id : ObjectId) (index : Position) (value : Value) : Store :=
  s.modifyObject id (·.setElement index value)

/-- Construction of values, which only ever adds to a store. -/
abbrev Build (α : Type) :=
  StateM Store α

def newObject (o : Object) : Build ObjectId :=
  modifyGet (·.addObject o)

def newPlain : Build ObjectId :=
  newObject { classes := ["Object"] }

def newArray (elements : Array Value) : Build ObjectId :=
  newObject { classes := ["Array"], elements }

def stackText (name message : String) : String :=
  s!"{name}: {message}\n    at <host>"

def newError (name message : String) : Build Value := do
  let id ← newObject {
    classes := if name = "Error" then ["Error"] else [name, "Error"]
    properties := .ofList [
      ("name", .string name), ("message", .string message),
      ("stack", .string (stackText name message))] }
  return .object id

def native (s : Store) (index : Nat) : NativeFunction :=
  s.natives.getD index default

def addNative (s : Store) (f : NativeFunction) : FunctionId × Store :=
  (.native s.natives.size, { s with natives := s.natives.push f })

def newNative (name : String) (behaviour : Behaviour) : Build FunctionId :=
  modifyGet (·.addNative ⟨name, behaviour⟩)

/-- Installs a host function as a property of an object, under its own name. -/
def defineMethod (id : ObjectId) (name : String) (behaviour : Behaviour) : Build Unit := do
  let f ← newNative name behaviour
  modify (·.put id name (.function f))

def addClosure (s : Store) (c : Closure) : Nat × Store :=
  (s.closures.size, { s with closures := s.closures.push c })

def newClosure (word environment invoke destructor : UInt32) : Build Nat :=
  modifyGet (·.addClosure (.wrap word environment invoke destructor))

def functionName? (s : Store) : FunctionId → Option String
  | .native index =>
    let name := (s.native index).name
    if name = "" then none else some name
  | .closure _ => none

def newListeners : Build Nat :=
  modifyGet fun s => (s.listeners.size, { s with listeners := s.listeners.push ∅ })

def listenersOf (s : Store) (table : Nat) (type : String) : List FunctionId :=
  ((s.listeners.getD table ∅).get? type).getD []

def setListeners (s : Store) (table : Nat) (type : String) (functions : List FunctionId) : Store :=
  { s with listeners := s.listeners.modify table (·.insert type functions) }

def newItems (quota : Nat) : Build Nat :=
  modifyGet fun s => (s.storages.size, { s with storages := s.storages.push ⟨quota, ∅⟩ })

def storage (s : Store) (index : Nat) : Storage :=
  s.storages.getD index default

def modifyItems (s : Store) (index : Nat) (f : Dict String → Dict String) : Store :=
  { s with
    storages := s.storages.modify index fun storage => { storage with items := f storage.items } }

end Store

end SandboxBridge
