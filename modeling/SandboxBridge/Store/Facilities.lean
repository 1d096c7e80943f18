import SandboxBridge.Store.Property

/-!
Built-in host objects: event targets, custom events, key-value storages with a byte quota, and a
window that ties them together as a global object. The behaviours that call nobody are run here.
-/

namespace SandboxBridge.Store

def installEventTarget (id : ObjectId) : Build Unit := do
  let table ← newListeners
  defineMethod id "addEventListener" (.addListener table)
  defineMethod id "removeEventListener" (.removeListener table)
  defineMethod id "dispatchEvent" (.dispatch table)

def newEventTarget : Build ObjectId := do
  let id ← newObject { classes := ["EventTarget"] }
  installEventTarget id
  return id

def newStorage (quota : Nat) : Build ObjectId := do
  let items ← newItems quota
  let id ← newObject { classes := ["Storage"] }
  defineMethod id "getItem" (.getItem items)
  defineMethod id "setItem" (.setItem items)
  defineMethod id "removeItem" (.removeItem items)
  defineMethod id "clear" (.clear items)
  return id

def newWindow (quota : Nat) : Build ObjectId := do
  let window ← newObject { classes := ["Window", "EventTarget"] }
  installEventTarget window
  let document ← newObject { classes := ["Document", "Node", "EventTarget"] }
  installEventTarget document
  modify (·.put window "document" (.object document))
  let storage ← newStorage quota
  modify (·.put window "localStorage" (.object storage))
  return window

def defaultQuota : Nat :=
  5 * 1024 * 1024

def eventDetail (s : Store) (init : Value) : Completion Value :=
  match init with
  | .undefined | .null => return .null
  | .object id => return ((s.object id).get? "detail").getD .null
  | _ => throwTypeError "CustomEvent: parameter 2 is not of type 'CustomEventInit'"

/-- A custom event. The options are an object, or nullish for none. -/
def newCustomEvent (type : String) (init : Value) : Completion ObjectId := do
  let s ← get
  let detail ← s.eventDetail init
  let cancelable := (init.asObject?.bind fun id => (s.object id).flag? "cancelable").getD false
  let id ← newObject {
    classes := ["CustomEvent", "Event"]
    properties := .ofList [
      ("type", .string type), ("detail", detail), ("cancelable", .bool cancelable),
      ("defaultPrevented", .bool false)] }
  defineMethod id "preventDefault" .preventDefault
  return id

/-- Registers a listener for a type of event, once, if it is a function. -/
def addListener (s : Store) (table : Nat) (type : String) (listener : Option Value) : Store :=
  match listener.bind Value.asFunction? with
  | some listener =>
    let listeners := s.listenersOf table type
    if listener ∈ listeners then s else s.setListeners table type (listeners ++ [listener])
  | none => s

def removeListener (s : Store) (table : Nat) (type : String) (listener : Option Value) : Store :=
  match listener.bind Value.asFunction? with
  | some listener =>
    s.setListeners table type ((s.listenersOf table type).filter (· ≠ listener))
  | none => s

def entryBytes : List (String × String) → Nat
  | [] => 0
  | (key, value) :: rest => key.utf8ByteSize + value.utf8ByteSize + entryBytes rest

def getItem (s : Store) (items : Nat) (key : String) : Value :=
  (((s.storage items).items.get? key).map Value.string).getD .null

/-- Stores an item, unless all items together would then exceed the quota. -/
def setItem (items : Nat) (key value : String) : Completion Unit := do
  let s ← get
  let storage := s.storage items
  let others := storage.items.erase key
  if storage.quota < entryBytes others.entries + key.utf8ByteSize + value.utf8ByteSize then
    throw (← newError "QuotaExceededError" "The quota has been exceeded.")
  set (s.modifyItems items (·.insert key value))

def preventDefault (s : Store) (receiver : Value) : Store :=
  match receiver with
  | .object id =>
    if ((s.object id).flag? "cancelable").getD false then
      s.put id "defaultPrevented" (.bool true)
    else s
  | _ => s

def eventArgument (args : List Value) : Completion ObjectId := do
  let s ← get
  match args.head? with
  | some (.object id) =>
    if (s.object id).isInstanceOf "Event" then return id
    else throwTypeError "dispatchEvent: parameter 1 is not of type 'Event'"
  | _ => throwTypeError "dispatchEvent: parameter 1 is not of type 'Event'"

def eventType (s : Store) (event : ObjectId) : Value :=
  ((s.object event).get? "type").getD .undefined

def defaultStands (s : Store) (event : ObjectId) : Bool :=
  !((s.object event).flag? "defaultPrevented").getD false

end SandboxBridge.Store
