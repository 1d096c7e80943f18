import SandboxBridge.Allocator
import SandboxBridge.ExceptionSlot
import SandboxBridge.HandleTable
import SandboxBridge.Import
import SandboxBridge.Settings
import SandboxBridge.Store

/-!
The state of one bridge between a host and a module instance, and the work on it that calls neither
host code nor module code: first of all on its memory and its handle table. What is worth a line in
the log is logged here, around operations of the parts that know nothing of a log.
-/

namespace SandboxBridge

inductive AllocatorEntry where
  | malloc
  | realloc
  | free
  deriving DecidableEq, Repr

/-- What a call of the module's allocator does instead of, or before, what it would do. -/
inductive Override where
  | normal
  /-- Answers without asking the allocator. -/
  | answer (value : Nat)
  | fail (error : Error)
  /-- Grows the memory by some pages first. -/
  | growFirst (pages : Nat)
  deriving Repr

/-- A finished call of the module's allocator. A call that frees has no result to speak of and
counts as 0. -/
structure AllocatorCall where
  entry : AllocatorEntry
  args : List Nat
  result : Except Error Nat

/-- The module instance as the bridge sees it, without its code. -/
structure Guest where
  allocator : Allocator := {}
  /-- Whether the module says that blocks can be resized. -/
  offersRealloc : Bool := true
  /-- Entries in the function table. -/
  functions : Nat := 0
  hasStart : Bool := false
  /-- Overrides for the next calls of each allocator entry. -/
  overrides : AllocatorEntry → List Override := fun _ => []
  calls : Array AllocatorCall := #[]

structure Machine where
  settings : Settings
  /-- Module messages below this level are dropped. -/
  threshold : Level
  table : HandleTable
  memory : Memory
  pending : ExceptionSlot := {}
  guest : Guest
  store : Store
  /-- What the module sees as the global object. -/
  global : ObjectId
  imports : Registry Handler
  /-- Message of the last fatal error that the module raised on purpose. -/
  lastThrow : Option String := none
  initialized : Bool := false
  journal : Journal

/-- Work on a machine that may fail halfway; what was done before stays done. -/
abbrev Local (α : Type) :=
  ExceptT Error (StateM Machine) α

namespace Machine

def note (level : Level) (target message : String) : StateM Machine Unit :=
  modify fun m => { m with journal := m.journal.note level target message }

def settle {α : Type} (work : Local α) : Local (Except Error α) := fun m =>
  let (result, m) := work.run m
  (.ok result, m)

def build {α : Type} (work : Store.Build α) : StateM Machine α :=
  modifyGet fun m =>
    let (value, store) := work.run m.store
    (value, { m with store })

def construct {α : Type} (work : Store.Build α) : Local α :=
  ExceptT.lift (build work)

def modifyStore (f : Store → Store) : StateM Machine Unit :=
  modify fun m => { m with store := f m.store }

structure MemoryMark where
  pages : Option Nat
  byteView : Option View
  wordView : Option View

def MemoryMark.of (m : Memory) : MemoryMark :=
  ⟨m.pages, m.byteView, m.wordView⟩

def memoryNotes (before : MemoryMark) (after : Memory) : List (Level × String) :=
  let grown :=
    if before.pages = after.pages then []
    else [(.debug, s!"memory grew from {before.pages.getD 0} to {after.pages.getD 0} pages")]
  let bytes :=
    if before.byteView = after.byteView then []
    else [(.trace, s!"rebuilding byte view over {after.size} bytes")]
  let words :=
    if before.wordView = after.wordView then []
    else [(.trace, s!"rebuilding word view over {after.size} bytes")]
  grown ++ bytes ++ words

/-- Does work and logs what has become of the memory since a mark. -/
@[noinline]
def notingSince {α : Type} (before : MemoryMark) (work : StateM Machine α) : StateM Machine α := do
  let result ← work
  (memoryNotes before (← get).memory).forM fun (level, message) =>
    note level LogTarget.memory message
  return result

/-- Does work and logs what it does to the memory. Only the mark is kept of the memory meanwhile, so
the work may change the memory in place. -/
def notingMemory {α : Type} (work : StateM Machine α) : StateM Machine α := do
  notingSince (.of (← get).memory) work

def onMemory {α : Type} (work : Memory.Action α) : Local α :=
  .mk (notingMemory (modifyGet fun m =>
    let (result, memory) := work.run m.memory
    (result, { m with memory })))

def grow (pages : Nat) : Local Nat :=
  onMemory (Memory.grow pages)

def allocate (value : Value) : Local Handle := do
  let handle ← (← get).table.next
  modify fun m => { m with table := m.table.occupy value }
  note .trace LogTarget.table s!"heap: allocated {handle.display}"
  return handle

/-- Stores a value under a fresh handle; nullish values need none and get the handle 0. -/
def allocateOptional (value : Value) : Local Handle := do
  if value.isNullish then return .undefined
  allocate value

def object (handle : Handle) : Local Value := do
  (← get).table.get handle

def take (handle : Handle) : Local Value := do
  let value ← (← get).table.claim handle
  modify fun m => { m with table := m.table.vacate handle }
  if !handle.isReserved then
    note .trace LogTarget.table s!"heap: released {handle.display}"
  return value

def release (handle : Handle) : Local Unit := do
  let _ ← take handle

def duplicate (handle : Handle) : Local Handle := do
  allocate (← object handle)

end Machine

end SandboxBridge
