import SandboxBridge.Machine

/-!
The life of a bridge: parked exceptions, messages of the module, creation, reset, and diagnostics.
-/

namespace SandboxBridge.Machine

/-- Parks a host exception for the module. One that nobody took is released. -/
def park (exception : Value) : Local Unit := do
  let handle ← allocate exception
  let m ← get
  let (previous, pending) := m.pending.store handle
  set { m with pending }
  if let some previous := previous then
    note .warn LogTarget.bridge s!"exception {previous.display} was never taken; discarding it"
    release previous

def takePending : StateM Machine (Option Handle) :=
  modifyGet fun m =>
    let (handle, pending) := m.pending.take
    (handle, { m with pending })

/-- Passes a message of the module on, unless its level is below the threshold. -/
def logModule (level : Level) (message : String) : StateM Machine Unit := do
  let m ← get
  if level.isBelow m.threshold then
    note .trace LogTarget.bridge s!"dropped module {level.name} message below threshold"
  else
    let op : LogOperation := ⟨level, message, m.settings.componentId⟩
    set { m with journal := m.imports.log m.journal op m.settings.logTarget }

def readThreshold (settings : Settings) : Local Level := do
  match settings.threshold with
  | .ok level => return level
  | .error error =>
    note .error LogTarget.settings
      s!"invalid bridge configuration: {Level.unreadable settings.minLogLevel}"
    throw error

def bare (settings : Settings) (memory : Memory) (guest : Guest) (store : Store)
    (global : ObjectId) : Machine :=
  { settings, memory, guest, store, global
    threshold := .trace
    table := .empty (settings.maxHandles.map UInt32.toNat)
    imports := Registry.empty.registerImports settings.importModule
    journal := .empty }

/-- Puts a new bridge to work. Settings whose level names none keep every message. -/
def start : StateM Machine Unit := do
  let m ← get
  let count := (m.imports.functions m.settings.importModule).length
  note .debug LogTarget.bridge
    s!"bridge created with {count} imports under '{m.settings.importModule}'"
  match ← (readThreshold m.settings).run with
  | .ok level => modify ({ · with threshold := level })
  | .error _ =>
    note .warn LogTarget.bridge
      s!"unknown minimum log level '{m.settings.minLogLevel}', keeping all module messages"

def create (settings : Settings) (memory : Memory) (guest : Guest) (store : Store)
    (global : ObjectId) : Machine :=
  (start.run (bare settings memory guest store global)).2

/-- Drops every host value and any parked exception. -/
def reset : StateM Machine Unit := do
  modify fun m => { m with table := m.table.reset, pending := m.pending.take.2, lastThrow := none }
  note .debug LogTarget.bridge "bridge reset"

def describe (m : Machine) : String :=
  "Bridge \x7b config: " ++ m.settings.describe ++ ", heap: " ++ m.table.describe ++
    ", views: " ++ m.memory.describeViews ++
    ", exception: " ++ m.pending.describe ++ ", initialized: " ++ toString m.initialized ++
    ", .. \x7d"

def describeGuest (m : Machine) : String :=
  let a := m.guest.allocator
  s!"NativeModule \x7b top: {a.top}, functions: {m.guest.functions}, " ++
    s!"stats: AllocStats \x7b mallocs: {a.mallocs}, reallocs: {a.reallocs}, " ++
    s!"frees: {a.frees} \x7d \x7d"

end SandboxBridge.Machine
