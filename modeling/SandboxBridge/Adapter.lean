import SandboxBridge.Call

/-!
The import functions of a bridge. Each resolves its arguments first: handles, addresses and
lengths come as 32-bit integers, numbers as floats. Host work that may throw runs under the guard,
so module code gets a neutral value and finds the exception parked. Handles are borrowed unless a
function says that it consumes one.
-/

namespace SandboxBridge

open Machine

namespace Adapter

def stringNew (start length : Nat) : Local Handle := do
  allocate (.string (← decode start length))

def numberNew (x : Float) : Local Handle :=
  allocate (.number x)

/-- The number behind a handle; a NaN for anything else. -/
def numberGet (handle : Handle) : Local Float := do
  return (← object handle).asNumber?.getD (0.0 / 0.0)

/-- The boolean behind a handle: 1 for true, 0 for false, 2 for anything else. -/
def boolGet (handle : Handle) : Local Nat := do
  match (← object handle).asBool? with
  | some true => return 1
  | some false => return 0
  | none => return 2

/-- Copies a string to module memory and its place to a return slot; what is no string becomes a
pair of zeros. -/
def stringGet (slot : Nat) (handle : Handle) : Local Unit := do
  writeResult slot (← object handle).asString?

def debugString (slot : Nat) (handle : Handle) : Op Unit := do
  let value ← object handle
  let text ← rendered value
  writeResult slot (some text)

def raise (start length : Nat) : Local (List Word) := do
  let message ← decode start length
  note .error (← get).settings.logTarget s!"module threw: {message}"
  modify ({ · with lastThrow := some message })
  throw .moduleThrew

def logInfo (start length : Nat) : Local Unit := do
  logModule .info (← decode start length)

/-- Passes a message on and returns its memory to the module, which happens also when it cannot be
decoded. Of two failures the first is reported. -/
def logError (start length : Nat) : Local Unit := do
  let logged ← settle do
    logModule .error (← decode start length)
  let freed ← settle (free start length)
  logged
  freed

def closureWrapper (word environment invoke destructor : UInt32) : Op Handle := do
  let id ← wrapClosure word environment invoke destructor
  let handle ← allocate (.function id)
  note .debug LogTarget.intrinsics
    s!"closure ({word.toNat}, {environment.toNat}) wrapped as {handle.display}"
  return handle

/-- Releases the handle of a closure and drops the host's reference to it. The answer tells whether
the destructor has run. -/
def cbDrop (handle : Handle) : Op Bool := do
  match ← object handle with
  | .function (.closure index) =>
    release handle
    dropClosure index
  | _ => throw .notAClosure

def exnTake : StateM Machine Handle := do
  return (← takePending).getD .undefined

def global : Local Handle := do
  allocate (.object (← get).global)

def objectNew : Local Handle := do
  allocate (.object (← construct Store.newPlain))

def arrayNew (length : Nat) : Local Handle := do
  allocate (.object (← construct (Store.newArray (.replicate length .undefined))))

def arraySet (array : Handle) (index : Position) (value : Handle) : Local Unit := do
  match ← object array with
  | .object id =>
    let element ← take value
    modifyStore (·.setElement id index element)
  | _ => throw .arraySetTarget

def getProperty (target : Handle) (start length : Nat) : Op Handle := do
  let target ← object target
  let name ← decode start length
  guarded "get_property" .undefined do
    allocateOptional (← attempt (Store.getProperty target name))

def setProperty (target : Handle) (start length : Nat) (value : Handle) : Op Unit := do
  let target ← object target
  let name ← decode start length
  let value ← object value
  guarded "set_property" () (SandboxBridge.setProperty target name value)

/-- Sets a property named by a value; `false` when that throws. Guarded. -/
def reflectSet (target key value : Handle) : Op Bool := do
  let target ← object target
  let key ← object key
  let name ← displayed key
  let value ← object value
  guarded "reflect_set" false do
    match target with
    | .object _ =>
      SandboxBridge.setProperty target name value
      return true
    | _ => attempt (Store.throwTypeError "Reflect.set called on non-object")

def instanceOf (handle : Handle) (start length : Nat) : Local Bool := do
  let value ← object handle
  let className ← decode start length
  return (← get).store.isInstance value className

def call (function receiver : Handle) : Op Handle := do
  let function ← object function
  let receiver ← object receiver
  guarded "call" .undefined do
    match function with
    | .function id => allocate (← callFunction id receiver [])
    | _ => attempt (Store.throwTypeError s!"{function.typeName} is not a function")

/-- Arguments of a method call: the elements of an array, or none for `undefined`. -/
def methodArguments (handle : Handle) : Local (List Value) := do
  match ← object handle with
  | .undefined => return []
  | .object id =>
    let o := (← get).store.object id
    if o.isArray then return o.elements.toList else throw .argumentsNotArray
  | _ => throw .argumentsNotArray

def callMethod (target : Handle) (start length : Nat) (args : Handle) : Op Handle := do
  let target ← object target
  let name ← decode start length
  let args ← methodArguments args
  guarded "call_method" .undefined do
    allocateOptional (← invokeMethod target name args)

def customEventNew (start length : Nat) (init : Handle) : Op Handle := do
  let type ← decode start length
  let init ← object init
  guarded "custom_event_new" .undefined do
    allocate (.object (← attempt (Store.newCustomEvent type init)))

def addEventListener (target : Handle) (start length : Nat) (listener : Handle) : Op Unit := do
  let target ← object target
  let type ← decode start length
  let listener ← object listener
  guarded "add_event_listener" () do
    let _ ← invokeMethod target "addEventListener" [.string type, listener]

def dispatchEvent (target event : Handle) : Op Bool := do
  let target ← object target
  let event ← object event
  guarded "dispatch_event" false do
    return (← invokeMethod target "dispatchEvent" [event]).asBool?.getD false

/-- Copies a stored item to module memory and its place to a return slot, where nothing is written
when that throws. Guarded. -/
def storageGetItem (slot : Nat) (storage : Handle) (start length : Nat) : Op Unit := do
  let storage ← object storage
  let key ← decode start length
  guarded "storage_get_item" () do
    let item ← invokeMethod storage "getItem" [.string key]
    let text ← if item.isNullish then pure none else some <$> displayed item
    writeResult slot text

def storageSetItem (storage : Handle) (keyStart keyLength valueStart valueLength : Nat) :
    Op Unit := do
  let storage ← object storage
  let key ← decode keyStart keyLength
  let value ← decode valueStart valueLength
  guarded "storage_set_item" () do
    let _ ← invokeMethod storage "setItem" [.string key, .string value]

/-! Dispatch by import. -/

def number (args : List Word) (index : Nat) : Except Error Nat :=
  (Word.argUInt32 args index).map UInt32.toNat

def position (args : List Word) (index : Nat) : Except Error Position :=
  (Word.argUInt32 args index).map Position.ofUInt32

def handle (args : List Word) (index : Nat) : Except Error Handle :=
  (Word.argUInt32 args index).map Handle.ofWord

def handleResult (h : Handle) : List Word :=
  [.ofNat h.index]

def flagResult (flag : Bool) : List Word :=
  [.ofBool flag]

/-- Runs an import on argument words. Words past those it reads do not matter. -/
def run (args : List Word) : Import → Op (List Word)
  | .stringNew => do return handleResult (← stringNew (← number args 0) (← number args 1))
  | .numberNew => do return handleResult (← numberNew (← Word.argFloat args 0))
  | .numberGet => do return [.f64 (← numberGet (← handle args 0))]
  | .boolGet => do return [.ofNat (← boolGet (← handle args 0))]
  | .stringGet => do
    stringGet (← number args 0) (← handle args 1)
    return []
  | .objectCloneRef => do return handleResult (← duplicate (← handle args 0))
  | .objectDropRef => do
    release (← handle args 0)
    return []
  | .isUndefined => do return flagResult (← object (← handle args 0)).isUndefined
  | .isNull => do return flagResult (← object (← handle args 0)).isNull
  | .isObject => do return flagResult (← object (← handle args 0)).asObject?.isSome
  | .isFunction => do return flagResult (← object (← handle args 0)).asFunction?.isSome
  | .debugString => do
    debugString (← number args 0) (← handle args 1)
    return []
  | .throw => do raise (← number args 0) (← number args 1)
  | .log => do
    logInfo (← number args 0) (← number args 1)
    return []
  | .error => do
    logError (← number args 0) (← number args 1)
    return []
  | .closureWrapper => do
    let id ← closureWrapper (← Word.argUInt32 args 0) (← Word.argUInt32 args 1)
      (← Word.argUInt32 args 2) (← Word.argUInt32 args 3)
    return handleResult id
  | .cbDrop => do return flagResult (← cbDrop (← handle args 0))
  | .exnTake => do return handleResult (← exnTake)
  | .global => do return handleResult (← global)
  | .objectNew => do return handleResult (← objectNew)
  | .arrayNew => do return handleResult (← arrayNew (← number args 0))
  | .arraySet => do
    arraySet (← handle args 0) (← position args 1) (← handle args 2)
    return []
  | .getProperty => do
    return handleResult (← getProperty (← handle args 0) (← number args 1) (← number args 2))
  | .setProperty => do
    setProperty (← handle args 0) (← number args 1) (← number args 2) (← handle args 3)
    return []
  | .reflectSet => do
    return flagResult (← reflectSet (← handle args 0) (← handle args 1) (← handle args 2))
  | .instanceOf => do
    return flagResult (← instanceOf (← handle args 0) (← number args 1) (← number args 2))
  | .call => do return handleResult (← call (← handle args 0) (← handle args 1))
  | .callMethod => do
    let result ← callMethod (← handle args 0) (← number args 1) (← number args 2) (← handle args 3)
    return handleResult result
  | .customEventNew => do
    return handleResult (← customEventNew (← number args 0) (← number args 1) (← handle args 2))
  | .addEventListener => do
    addEventListener (← handle args 0) (← number args 1) (← number args 2) (← handle args 3)
    return []
  | .dispatchEvent => do return flagResult (← dispatchEvent (← handle args 0) (← handle args 1))
  | .storageGetItem => do
    storageGetItem (← number args 0) (← handle args 1) (← number args 2) (← number args 3)
    return []
  | .storageSetItem => do
    storageSetItem (← handle args 0) (← number args 1) (← number args 2) (← number args 3)
      (← number args 4)
    return []

end Adapter

def Handler.run (args : List Word) : Handler → Op (List Word)
  | .adapter i => Adapter.run args i
  | .hosted key => .mk (Run.call (.imported key args))

def Registry.callOn (r : Registry Handler) (module function : String) (args : List Word) :
    Op (List Word) :=
  r.call (fun level message => Run.ofState (note level LogTarget.registry message))
    (Handler.run args) module function

/-- Calls an import by its name under the bridge's own module name, as module code does. -/
def callImport (name : String) (args : List Word) : Op (List Word) := do
  let m ← get
  m.imports.callOn m.settings.importModule name args

end SandboxBridge
