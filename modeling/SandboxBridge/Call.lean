import SandboxBridge.Task

/-!
Calls between host and module: exports, closures behind trampolines, host functions, and the guard
that turns a host exception into a parked one.
-/

namespace SandboxBridge

open Machine

def displayed (value : Value) : Run String := do
  Run.ofOption ((← get).store.display? value)

def rendered (value : Value) : Run String := do
  Run.ofOption ((← get).store.render? value)

def callTable (purpose : Purpose) (index : Nat) (args : List Word) : Op (List Word) :=
  .mk (Run.call (.exported purpose index args))

def callExport (index : Nat) (args : List Word) : Op (List Word) :=
  callTable .asked index args

/-- Runs the module's initializer, which is allowed once, whether it succeeds or not. -/
def setUp : Op Unit := do
  let m ← get
  if m.initialized then throw .alreadyInitialized
  set { m with initialized := true }
  if m.guest.hasStart then
    let _ ← ExceptT.mk (Run.call .start)
  note .info LogTarget.bridge "module initialized"

namespace Closure

def missing : Closure :=
  { wrap 0 0 0 0 with context := .released, references := 0, alive := false }

end Closure

namespace Machine

def closure (m : Machine) (index : Nat) : Closure :=
  m.store.closures.getD index .missing

def setClosure (index : Nat) (c : Closure) : StateM Machine Unit :=
  modifyStore fun s => { s with closures := s.closures.set! index c }

def enterClosure (index : Nat) : Local (Option UInt32) := do
  let (lent, entered) ← ((← get).closure index).enter
  setClosure index entered
  return lent

def releaseAll : List Handle → Local Unit
  | [] => return ()
  | handle :: rest => do
    let _ ← settle (release handle)
    releaseAll rest

/-- Puts arguments behind fresh handles, all of them or none. -/
def allocateAll (placed : List Handle) : List Value → Local (List Handle)
  | [] => return placed.reverse
  | arg :: rest => do
    match ← settle (allocate arg) with
    | .ok handle => allocateAll (handle :: placed) rest
    | .error error =>
      releaseAll placed.reverse
      throw error

end Machine

def wrapClosure (word environment invoke destructor : UInt32) : Run FunctionId := do
  let index ← (build (Store.newClosure word environment invoke destructor) : StateM Machine Nat)
  Run.pass (.made index word environment invoke destructor)
  return .closure index

def destroyClosure (index : Nat) (word : UInt32) : Op Unit := do
  let c := (← get).closure index
  note .debug LogTarget.closure s!"closure ({word.toNat}, {c.environment.toNat}) destroyed"
  let _ ← callTable (.destructor index) c.destructor.toNat [.i32 word, .i32 c.environment]

/-- Ends a call of a closure. The last to leave a dropped closure destroys it. -/
def leaveClosure (index : Nat) (lent : Option UInt32) : Op Unit := do
  let (destroy, left) := ((← get).closure index).leave lent
  setClosure index left
  Run.pass (.left index lent)
  if let some word := destroy then
    destroyClosure index word

/-- Drops the host's reference to a closure. The answer tells whether the destructor has run. -/
def dropClosure (index : Nat) : Op Bool := do
  let (result, dropped) := ((← get).closure index).drop
  setClosure index dropped
  let next ← result
  Run.pass (.dropped index)
  match next with
  | .deferred calls =>
    note .debug LogTarget.closure s!"closure drop deferred; {calls} call(s) in flight"
    return false
  | .destroy word =>
    destroyClosure index word
    return true

/-- What a shim has answered. The first word is a handle to the result, which is taken; no word
means `undefined`. -/
def takeResult (results : List Word) : Host Value := do
  match results.head? with
  | none => return .undefined
  | some result => take (.ofWord (← (result.asUInt32 : Op UInt32)))

/-- Calls the shim of a closure with its context pair and a fresh handle for each argument, which
the callee owns. -/
def callShim (index : Nat) (word : UInt32) (args : List Value) : Host Value := do
  let c := (← get).closure index
  let handles ← allocateAll [] args
  let words := handles.map fun handle => Word.ofNat handle.index
  takeResult
    (← callTable (.shim index) c.invoke.toNat (.i32 word :: .i32 c.environment :: words))

/-- Result of a call and of what its end has led to. A fault of the call outweighs one of the
destructor. -/
def settleCall (result : Except Fault Value) (left : Except Error Unit) : Host Value := do
  match result, left with
  | .ok value, .ok () => return value
  | .ok _, .error error => throw (.trap error)
  | .error fault, .ok () => throw fault
  | .error fault, .error error =>
    note .warn LogTarget.closure
      s!"closure cleanup failed after a failed call: {error.display}"
    throw fault

/-- Goes on with a call of a closure that was lent `lent`, and ends it. -/
def serveClosure (index : Nat) (lent : Option UInt32) (args : List Value) : Host Value := do
  let result ← outcome (match lent with
    | some word => callShim index word args
    | none => throw (.trap .invokedRecursively))
  let left ← outcome (leaveClosure index lent)
  settleCall result left

def invokeClosure (index : Nat) (args : List Value) : Host Value := do
  let lent ← enterClosure index
  Run.pass (.entered index lent)
  serveClosure index lent args

def callListener (id : FunctionId) (receiver : Value) (args : List Value) : Host Value :=
  ExceptT.mk (Run.call (.function id receiver args))

/-- Delivers an event to listeners in order. Exceptions are reported and passed over; a trap stops
the delivery. -/
def deliver (type : String) (receiver event : Value) : List FunctionId → Host Unit
  | [] => return ()
  | listener :: rest => do
    match ← outcome (callListener listener receiver [event]) with
    | .ok _ => deliver type receiver event rest
    | .error (.thrown exception) =>
      let text ← displayed exception
      note .warn LogTarget.facilities s!"uncaught exception in '{type}' listener: {text}"
      deliver type receiver event rest
    | .error trap => throw trap

/-- Delivers an event to the listeners of its type at this moment, and tells whether its default
action still stands. -/
def dispatch (table : Nat) (receiver : Value) (args : List Value) : Host Value := do
  let event ← attempt (Store.eventArgument args)
  let type ← displayed ((← get).store.eventType event)
  modifyStore (·.put event "target" receiver)
  let listeners := (← get).store.listenersOf table type
  note .debug LogTarget.facilities s!"dispatching '{type}' to {listeners.length} listener(s)"
  deliver type receiver (.object event) listeners
  return .bool ((← get).store.defaultStands event)

def argumentText (args : List Value) (index : Nat) : Run String :=
  displayed (args[index]?.getD .undefined)

def runBehaviour (receiver : Value) (args : List Value) : Behaviour → Host Value
  | .addListener table => do
    let type ← argumentText args 0
    modifyStore (·.addListener table type args[1]?)
    return .undefined
  | .removeListener table => do
    let type ← argumentText args 0
    modifyStore (·.removeListener table type args[1]?)
    return .undefined
  | .dispatch table => dispatch table receiver args
  | .getItem items => do
    let key ← argumentText args 0
    return (← get).store.getItem items key
  | .setItem items => do
    let key ← argumentText args 0
    let value ← argumentText args 1
    attempt (Store.setItem items key value)
    return .undefined
  | .removeItem items => do
    let key ← argumentText args 0
    modifyStore (·.modifyItems items (·.erase key))
    return .undefined
  | .clear items => do
    modifyStore (·.modifyItems items fun _ => ∅)
    return .undefined
  | .preventDefault => do
    modifyStore (·.preventDefault receiver)
    return .undefined
  | .hosted key => ExceptT.mk (Run.call (.hosted key receiver args))

def callFunction (id : FunctionId) (receiver : Value) (args : List Value) : Host Value := do
  match id with
  | .native index => runBehaviour receiver args ((← get).store.native index).behaviour
  | .closure index => invokeClosure index args

def invokeMethod (target : Value) (name : String) (args : List Value) : Host Value := do
  match ← attempt (Store.getProperty target name) with
  | .function id =>
    note .trace LogTarget.objects s!"invoking {name} on {target.typeName}"
    callFunction id target args
  | _ => attempt (Store.throwTypeError s!"{name} is not a function")

def write (id : ObjectId) (key : String) (value : Value) : Run Unit := do
  let written ← Run.ofOption (Store.written? ((← get).store.object id) key value)
  modifyStore (·.modifyObject id fun _ => written)

/-- Writes to primitives are dropped. -/
def setProperty (target : Value) (key : String) (value : Value) : Host Unit := do
  match target with
  | .undefined =>
    attempt (Store.throwTypeError s!"Cannot set properties of undefined (setting '{key}')")
  | .null => attempt (Store.throwTypeError s!"Cannot set properties of null (setting '{key}')")
  | .object id => write id key value
  | _ => return ()

/-- Runs host work for an import. An exception is parked and the neutral value stands in for the
result; a trap goes on. -/
def guarded {α : Type} (operation : String) (neutral : α) (work : Host α) : Op α := do
  match ← outcome work with
  | .ok value => return value
  | .error (.thrown exception) =>
    let text ← displayed exception
    note .debug LogTarget.bridge s!"{operation}: host threw {text}"
    park exception
    return neutral
  | .error (.trap error) => throw error

end SandboxBridge
