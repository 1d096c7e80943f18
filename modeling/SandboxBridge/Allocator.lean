import SandboxBridge.Memory

/-!
The allocator of a module: it hands out memory from the bottom up, grows the memory when it runs
out, and never uses a freed block again. Only the block handed out last is resized in place.
-/

namespace SandboxBridge

structure Allocator where
  /-- End of the last block. Address 0 is never handed out. -/
  top : Nat := 8
  /-- Start of the last block. -/
  last : Option Nat := none
  /-- Whether the module exports a way to resize blocks. -/
  exportsRealloc : Bool := true
  mallocs : Nat := 0
  reallocs : Nat := 0
  frees : Nat := 0
  deriving DecidableEq, Repr, Inhabited

namespace Allocator

def alignment : Nat :=
  8

/-- Work of an allocator on a memory. What was done before a failure stays done. -/
abbrev Action (α : Type) :=
  ExceptT Error (StateM (Allocator × Memory)) α

def checkAddress (n : Nat) : Except Error Nat :=
  if n < UInt32.size then .ok n else .error .addressSpaceExhausted

def alignUp (n : Nat) : Except Error Nat := do
  let padded ← checkAddress (n + (alignment - 1))
  return padded / alignment * alignment

def missingPages (size stop : Nat) : Nat :=
  (stop - size + (pageSize - 1)) / pageSize

def onMemory {α : Type} (work : Memory.Action α) : Action α := fun (allocator, memory) =>
  let (result, memory) := work.run memory
  (result, allocator, memory)

/-- Makes sure that the memory reaches up to `stop`. -/
def ensure (stop : Nat) : Action Unit := do
  let size := (← get).2.size
  if size < stop then
    let _ ← onMemory (Memory.grow (missingPages size stop)) <|> throw .outOfMemory

def update (f : Allocator → Allocator) : Action Unit :=
  modify fun (allocator, memory) => (f allocator, memory)

def bump (size : Nat) : Action Nat := do
  let start ← alignUp (← get).1.top
  let stop ← checkAddress (start + size)
  ensure stop
  update ({ · with top := stop, last := some start })
  return start

def malloc (size : Nat) : Action Nat := do
  update fun a => { a with mallocs := a.mallocs + 1 }
  bump size

def resizesInPlace (a : Allocator) (start : Nat) : Bool :=
  a.last = some start

def realloc (start oldSize newSize : Nat) : Action Nat := do
  if !(← get).1.exportsRealloc then throw .noRealloc
  update fun a => { a with reallocs := a.reallocs + 1 }
  if (← get).1.resizesInPlace start then
    let stop ← checkAddress (start + newSize)
    ensure stop
    update ({ · with top := stop })
    return start
  else
    let moved ← bump newSize
    onMemory (Memory.copyWithin start moved (min oldSize newSize))
    return moved

/-- Freed blocks are only counted. -/
def free : Action Unit :=
  update fun a => { a with frees := a.frees + 1 }

/-- Hands out a block with the given contents, which does not count as a call of `malloc`. -/
def place (data : ByteArray) : Action (Nat × Nat) := do
  if UInt32.size ≤ data.size then throw .allocationTooLarge
  let start ← bump data.size
  onMemory (Memory.write start data)
  return (start, data.size)

end Allocator

end SandboxBridge
