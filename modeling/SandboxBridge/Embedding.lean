import SandboxBridge.Adapter
import SandboxBridge.Memory.Access
import SandboxBridge.Store.Edit

/-!
The embedder: whoever supplies the module's code and host code. Its code is a play, which looks at
the machine, keeps state of its own, and asks the bridge for one thing after another. Asking may
call the embedder's code again, so answers are given up to a depth of nested calls.
-/

namespace SandboxBridge

inductive Request where
  | callImport (name : String) (args : List Word)
  | callExport (index : Nat) (args : List Word)
  | callFunction (id : FunctionId) (receiver : Value) (args : List Value)
  | invokeMethod (target : Value) (name : String) (args : List Value)
  | newCustomEvent (type : String) (init : Value)
  | setUp
  | newClosure (word environment invoke destructor : UInt32)
  | dropClosure (index : Nat)
  /-- Ends guarded work of the embedder's own, which answers a number. -/
  | guarded (operation : String) (result : Except Fault Nat)
  | allocate (value : Value)
  | allocateOptional (value : Value)
  | take (handle : Handle)
  | release (handle : Handle)
  | duplicate (handle : Handle)
  | park (exception : Value)
  | takePending
  | reset
  | encode (text : String)
  | decode (start length : Nat)
  | writeResult (slot : Nat) (text : Option String)
  | malloc (size : Nat)
  | realloc (start oldSize newSize : Nat)
  | free (start size : Nat)
  | place (data : ByteArray)
  | log (level : Level) (message : String)
  | readThreshold
  | memory (access : Memory.Access)
  | store (edit : Store.Edit)

namespace Request

@[reducible] def Answer : Request → Type
  | .callImport .. | .callExport .. => Except Error (List Word)
  | .callFunction .. | .invokeMethod .. | .newCustomEvent .. => Except Fault Value
  | .setUp | .release .. | .park .. | .writeResult .. | .free .. => Except Error Unit
  | .newClosure .. => FunctionId
  | .dropClosure .. => Except Error Bool
  | .guarded .. | .malloc .. | .realloc .. => Except Error Nat
  | .allocate .. | .allocateOptional .. | .duplicate .. => Except Error Handle
  | .take .. => Except Error Value
  | .takePending => Option Handle
  | .reset | .log .. => Unit
  | .encode .. => Except Error Transfer.Extent
  | .decode .. => Except Error String
  | .place .. => Except Error (Nat × Nat)
  | .readThreshold => Except Error Level
  | .memory access => Except Error access.Answer
  | .store .. => Option Value

def quietly {α : Type} (work : Local α) : Run (Except Error α) :=
  Run.ofState work.run

def perform : (request : Request) → Run request.Answer
  | .callImport name args => (SandboxBridge.callImport name args).run
  | .callExport index args => (SandboxBridge.callExport index args).run
  | .callFunction id receiver args => (SandboxBridge.callFunction id receiver args).run
  | .invokeMethod target name args => (SandboxBridge.invokeMethod target name args).run
  | .newCustomEvent type init =>
    (Value.object <$> attempt (Store.newCustomEvent type init)).run
  | .setUp => SandboxBridge.setUp.run
  | .newClosure word environment invoke destructor =>
    wrapClosure word environment invoke destructor
  | .dropClosure index => (SandboxBridge.dropClosure index).run
  | .guarded operation result =>
    (SandboxBridge.guarded operation 0 (.mk (pure result))).run
  | .allocate value => quietly (Machine.allocate value)
  | .allocateOptional value => quietly (Machine.allocateOptional value)
  | .take handle => quietly (Machine.take handle)
  | .release handle => quietly (Machine.release handle)
  | .duplicate handle => quietly (Machine.duplicate handle)
  | .park exception => quietly (Machine.park exception)
  | .takePending => Run.ofState Machine.takePending
  | .reset => Run.ofState Machine.reset
  | .encode text => quietly (Machine.encode text)
  | .decode start length => quietly (Machine.decode start length)
  | .writeResult slot text => quietly (Machine.writeResult slot text)
  | .malloc size => quietly (Machine.malloc size)
  | .realloc start oldSize newSize => quietly (Machine.realloc start oldSize newSize)
  | .free start size => quietly (Machine.free start size)
  | .place data => quietly (Machine.place data)
  | .log level message => Run.ofState (Machine.logModule level message)
  | .readThreshold => quietly do Machine.readThreshold (← get).settings
  | .memory access => quietly (Machine.onMemory access.perform)
  | .store edit => Run.ofState (Machine.build edit.perform)

end Request

/-- Code of an embedder that keeps state of type `γ`. -/
inductive Play (γ α : Type) : Type where
  | finish (value : α)
  | look (next : Machine → γ → Play γ α)
  | keep (own : γ) (next : Play γ α)
  | ask (request : Request) (next : request.Answer → Play γ α)

namespace Play

variable {γ α β : Type}

def bind : Play γ α → (α → Play γ β) → Play γ β
  | .finish value, next => next value
  | .look resume, next => .look fun m own => (resume m own).bind next
  | .keep own rest, next => .keep own (rest.bind next)
  | .ask request resume, next => .ask request fun answer => (resume answer).bind next

instance : Monad (Play γ) where
  pure := .finish
  bind := bind

def machine : Play γ Machine :=
  .look fun m _ => .finish m

def request (request : Request) : Play γ request.Answer :=
  .ask request .finish

instance : MonadStateOf γ (Play γ) where
  get := .look fun _ own => .finish own
  set own := .keep own (.finish ())
  modifyGet f := .look fun _ own =>
    let (value, own) := f own
    .keep own (.finish value)

end Play

/-- Runs a task, with the answers to its calls given by `answer`. Nothing comes of an abort. -/
def Task.run {γ α : Type}
    (answer : (callee : Callee) → Machine → γ → Option (callee.Outcome × Machine × γ)) :
    Task α → γ → Option (α × Machine × γ)
  | .done value m, own => some (value, m, own)
  | .call callee m resume, own =>
    match answer callee m own with
    | none => none
    | some (outcome, m, own) => (resume outcome m).run answer own
  | .pass _ _ rest, own => rest.run answer own
  | .abort, _ => none

def Play.run {γ α : Type}
    (answer : (callee : Callee) → Machine → γ → Option (callee.Outcome × Machine × γ)) :
    Play γ α → Machine → γ → Option (α × Machine × γ)
  | .finish value, m, own => some (value, m, own)
  | .look next, m, own => (next m own).run answer m own
  | .keep own next, m, _ => next.run answer m own
  | .ask request next, m, own =>
    match (request.perform m).run answer own with
    | none => none
    | some (value, m, own) => (next value).run answer m own

structure Embedding (γ : Type) where
  exported : Nat → List Word → Play γ (Except Error (List Word))
  start : Play γ (Except Error (List Word))
  hosted : Nat → Value → List Value → Play γ (Except Fault Value)
  imported : Nat → List Word → Play γ (Except Error (List Word))

namespace Embedding

variable {γ α : Type}

/-- Answers a call while `depth` more calls may be nested in it. The module's table has an end. -/
def answer (e : Embedding γ) : Nat → (callee : Callee) → Machine → γ →
    Option (callee.Outcome × Machine × γ)
  | 0, _, _, _ => none
  | depth + 1, .exported _ index args, m, own =>
    if index < m.guest.functions then (e.exported index args).run (e.answer depth) m own
    else some (.error .unknownExport, m, own)
  | depth + 1, .start, m, own => e.start.run (e.answer depth) m own
  | depth + 1, .hosted key receiver args, m, own =>
    (e.hosted key receiver args).run (e.answer depth) m own
  | depth + 1, .imported key args, m, own => (e.imported key args).run (e.answer depth) m own
  | depth + 1, .function id receiver args, m, own =>
    ((callFunction id receiver args).run m).run (e.answer depth) own

/-- Runs a play of the embedder from outside the bridge. Nothing comes of it if calls nest deeper
than `depth`. -/
def perform (e : Embedding γ) (depth : Nat) (play : Play γ α) (m : Machine) (own : γ) :
    Option (α × Machine × γ) :=
  play.run (e.answer depth) m own

end Embedding

end SandboxBridge
