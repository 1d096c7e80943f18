import SandboxBridge.Scenario.MemoryStep
import SandboxBridge.Transfer

/-!
Scenarios on a memory alone, and the transfer of one string with an allocator made for it.
-/

namespace SandboxBridge.Scenario

inductive LinearStep where
  | memory (step : MemoryStep Nat)
  | decode (start length : Nat)

namespace LinearStep

def desk : Desk (ExceptT Error (StateM Memory)) :=
  ⟨fun access => access.perform, get⟩

def perform (held : Dict Held) : LinearStep → Memory.Action (Report × Dict Held)
  | .memory step => do
    let (result, held) ← desk.run held step
    return (result.report, held)
  | .decode start length => return (.text (← Transfer.decode start length), held)

def run (m : Memory) (held : Dict Held) : List LinearStep → List Report
  | [] => []
  | step :: rest =>
    match (step.perform held).run m with
    | (.ok (report, held), m) => .fields [("ok", report)] :: run m held rest
    | (.error e, m) => .fields (Report.error e) :: run m held rest

end LinearStep

def decodeBytes (bytes : ByteArray) (target start length : Nat) : Report :=
  let work : Memory.Action String := do
    Memory.write target bytes
    Transfer.decode start length
  .fields (Report.result .text (work.run (.ofPages 1 none)).1)

inductive RehearsalCall where
  | malloc (size : Nat)
  | realloc (start oldSize newSize : Nat)

/-- An allocator without alignment, which resizes its last block in place or moves every block. -/
structure Rehearsal where
  memory : Memory := .ofPages 1 (some 16)
  top : Nat := 8
  moving : Bool
  calls : Array RehearsalCall := #[]

namespace Rehearsal

abbrev Work (α : Type) :=
  ExceptT Error (StateM Rehearsal) α

def onMemory {α : Type} (work : Memory.Action α) : Work α := fun r =>
  let (result, memory) := work.run r.memory
  (result, { r with memory })

def growBy (pages : Nat) : Work Unit := do
  let _ ← onMemory (Memory.grow pages)

def growTo (stop : Nat) : Nat → Work Unit
  | 0 => return ()
  | steps + 1 => do
    if (← get).memory.size < stop then
      growBy 1
      growTo stop steps

def bump (size : Nat) : Work Nat := do
  let start := (← get).top
  modify ({ · with top := start + size })
  growTo (start + size) 65537
  return start

def malloc (size : Nat) : Work Nat := do
  modify fun r => { r with calls := r.calls.push (.malloc size) }
  bump size

def realloc (start oldSize newSize : Nat) : Work Nat := do
  modify fun r => { r with calls := r.calls.push (.realloc start oldSize newSize) }
  if (← get).moving then
    growBy 1
    let moved ← bump newSize
    onMemory (Memory.copyWithin start moved (min oldSize newSize))
    return moved
  else
    modify ({ · with top := start })
    bump newSize

def provider (offersRealloc : Bool) : Transfer.Provider Rehearsal :=
  { malloc
    realloc := if offersRealloc then some realloc else none
    write := fun start data => onMemory (Memory.writeBytes start data)
    growing := fun _ _ _ => pure () }

def callReport : RehearsalCall → Report
  | .malloc size => .list [.text "malloc", .count size]
  | .realloc start oldSize newSize =>
    .list [.text "realloc", .count start, .count oldSize, .count newSize]

def bytesReport (bytes : ByteArray) : Report :=
  if 256 < bytes.size then .count (Desk.byteSum bytes) else .bytes bytes

def run (text : String) (asciiFirst offersRealloc moving : Bool) : Report :=
  let work : Work (Transfer.Extent × ByteArray × Bool) := do
    let extent ← Transfer.encode (provider offersRealloc) asciiFirst text
    let bytes ← (← get).memory.read extent.start extent.length
    let again ← onMemory (Transfer.decode extent.start extent.length)
    return (extent, bytes, again == text)
  let (result, r) := work.run { moving }
  let calls := ("calls", Report.list (r.calls.toList.map callReport))
  match result with
  | .error e => .fields (Report.error e ++ [calls])
  | .ok (extent, bytes, same) =>
    .fields [("ok", .fields [
      ("ptr", .count extent.start), ("len", .count extent.length), ("bytes", bytesReport bytes),
      ("same", .flag same), calls, ("pages", .option .count r.memory.pages),
      ("rebuilds", .count r.memory.rebuilds)])]

end Rehearsal

end SandboxBridge.Scenario
