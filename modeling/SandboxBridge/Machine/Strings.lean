import SandboxBridge.Machine
import SandboxBridge.Transfer

/-!
Calls of the module's allocator by a bridge, and strings in the memory that it provides.
-/

namespace SandboxBridge.Machine

def onAllocator {α : Type} (work : Allocator.Action α) : Local α :=
  .mk (notingMemory (modifyGet fun m =>
    let (result, allocator, memory) := work.run (m.guest.allocator, m.memory)
    (result, { m with guest := { m.guest with allocator }, memory })))

def nextOverride (entry : AllocatorEntry) : StateM Machine Override :=
  modifyGet fun m =>
    match m.guest.overrides entry with
    | [] => (.normal, m)
    | next :: rest =>
      let overrides e := if e = entry then rest else m.guest.overrides e
      (next, { m with guest := { m.guest with overrides } })

def recordCall (call : AllocatorCall) : StateM Machine Unit :=
  modify fun m => { m with guest := { m.guest with calls := m.guest.calls.push call } }

def overridden (work : Local Nat) : Override → Local Nat
  | .normal => work
  | .answer value => return value
  | .fail error => throw error
  | .growFirst pages => do
    let _ ← grow pages
    work

def callAllocator (entry : AllocatorEntry) (args : List Nat) (work : Local Nat) : Local Nat := do
  let next ← nextOverride entry
  let result ← settle do
    let value ← overridden work next
    return if entry = .free then 0 else value
  recordCall ⟨entry, args, result⟩
  result

def malloc (size : Nat) : Local Nat :=
  callAllocator .malloc [size] do
    let start ← onAllocator (Allocator.malloc size)
    note .trace LogTarget.guest s!"native module: malloc({size}) = {start}"
    return start

def realloc (start oldSize newSize : Nat) : Local Nat :=
  callAllocator .realloc [start, oldSize, newSize] do
    let inPlace := (← get).guest.allocator.resizesInPlace start
    let moved ← onAllocator (Allocator.realloc start oldSize newSize)
    if !inPlace then
      note .trace LogTarget.guest s!"native module: realloc moved {start} -> {moved}"
    return moved

def free (start size : Nat) : Local Unit := do
  let _ ← callAllocator .free [start, size] do
    onAllocator Allocator.free
    note .trace LogTarget.guest s!"native module: free({start}, {size})"
    return 0

/-- A block with the given contents, made by the module for itself. -/
def place (data : ByteArray) : Local (Nat × Nat) :=
  onAllocator (Allocator.place data)

def decode (start length : Nat) : Local String :=
  onMemory (Transfer.decode start length)

def provider (offersRealloc : Bool) : Transfer.Provider Machine :=
  { malloc := malloc
    realloc := if offersRealloc then some realloc else none
    write := fun start data => onMemory (Memory.writeBytes start data)
    growing := fun written capacity worst =>
      note .trace LogTarget.transfer
        s!"transcode: non-ASCII at byte {written}, growing {capacity} -> {worst}" }

def encode (s : String) : Local Transfer.Extent := do
  let m ← get
  let extent ←
    Transfer.encode (provider m.guest.offersRealloc) m.settings.asciiFastPath s
  note .trace LogTarget.bridge s!"encoded {extent.length} byte string at {extent.start}"
  return extent

/-- Writes the place of a string to a return slot; no string is a pair of zeros. -/
def writeResult (slot : Nat) (s : Option String) : Local Unit := do
  let extent ← match s with
    | some s => encode s
    | none => pure ⟨0, 0⟩
  onMemory (Memory.writePair slot extent.start.toUInt32 extent.length.toUInt32)

end SandboxBridge.Machine
