import SandboxBridge.Error

/-!
Linear memory and the views handed out over it. Growth replaces the buffer and detaches the old one,
so whatever was kept of it stops working. Views are cached: the view last built is handed out again
while its buffer is the current one.
-/

namespace SandboxBridge

def pageSize : Nat :=
  65536

structure Buffer where
  bytes : ByteArray
  detached : Bool
  deriving Inhabited

namespace Buffer

def ofBytes (bytes : ByteArray) : Buffer :=
  ⟨bytes, false⟩

def size (b : Buffer) : Nat :=
  b.bytes.size

/-- Whether `length` bytes at `start` may be accessed. -/
def check (b : Buffer) (start length : Nat) : Except Error Unit :=
  if b.detached then .error .detached
  else if start + length ≤ b.size then .ok ()
  else .error .outOfBounds

def read (b : Buffer) (start length : Nat) : Except Error ByteArray := do
  b.check start length
  return b.bytes.extract start (start + length)

def overwrite (b : Buffer) (start : Nat) (data : ByteArray) : Buffer :=
  { b with bytes := data.copySlice 0 b.bytes start data.size }

def duplicate (b : Buffer) (source target length : Nat) : Buffer :=
  b.overwrite target (b.bytes.extract source (source + length))

def gone : Buffer :=
  ⟨.empty, true⟩

end Buffer

def wordBytes (word : UInt32) : ByteArray :=
  ⟨#[word.toUInt8, (word >>> 8).toUInt8, (word >>> 16).toUInt8, (word >>> 24).toUInt8]⟩

def bytesWord (bytes : ByteArray) : UInt32 :=
  let byte (index : Nat) : UInt32 := (bytes.data.getD index 0).toUInt32
  byte 0 ||| (byte 1 <<< 8) ||| (byte 2 <<< 16) ||| (byte 3 <<< 24)

inductive ViewKind where
  | bytes
  | words
  deriving DecidableEq, Repr

/-- A view over one buffer. Views built at different times have different serial numbers. -/
structure View where
  buffer : Nat
  serial : Nat
  deriving DecidableEq, Repr

structure Memory where
  /-- Every buffer so far, the detached ones included. -/
  buffers : Array Buffer
  current : Nat
  /-- Size in pages, for a memory that grows by pages. -/
  pages : Option Nat
  maxPages : Option Nat
  byteView : Option View
  wordView : Option View
  rebuilds : Nat
  deriving Inhabited

namespace Memory

def zeros (count : Nat) : ByteArray :=
  if count = 0 then .empty
  else
    let half := zeros (count / 2)
    if count % 2 = 0 then half ++ half else (half ++ half).push 0
termination_by count
decreasing_by omega

def ofPages (pages : Nat) (maxPages : Option Nat) : Memory :=
  { buffers := #[.ofBytes (zeros (pages * pageSize))], current := 0, pages := some pages, maxPages,
    byteView := none, wordView := none, rebuilds := 0 }

def ofBytes (bytes : ByteArray) : Memory :=
  { buffers := #[.ofBytes bytes], current := 0, pages := none, maxPages := none,
    byteView := none, wordView := none, rebuilds := 0 }

def bufferAt (m : Memory) (buffer : Nat) : Buffer :=
  m.buffers[buffer]?.getD .gone

def buffer (m : Memory) : Buffer :=
  m.bufferAt m.current

def size (m : Memory) : Nat :=
  m.buffer.size

def readAt (m : Memory) (buffer start length : Nat) : Except Error ByteArray :=
  (m.bufferAt buffer).read start length

def read (m : Memory) (start length : Nat) : Except Error ByteArray :=
  m.readAt m.current start length

/-- Offset of a word. Offsets that need more than 32 bits are refused. -/
def wordOffset (index : Nat) : Except Error Nat :=
  if index * 4 < UInt32.size then .ok (index * 4) else .error .wordIndexOutOfRange

def getWordAt (m : Memory) (buffer index : Nat) : Except Error UInt32 := do
  return bytesWord (← m.readAt buffer (← wordOffset index) 4)

/-- Work on a memory that may fail halfway; what was done before stays done. -/
abbrev Action (α : Type) :=
  ExceptT Error (StateM Memory) α

def modifyBuffer (buffer : Nat) (f : Buffer → Buffer) : Action Unit :=
  modify fun m => { m with buffers := m.buffers.modify buffer f }

def writeAt (buffer start : Nat) (data : ByteArray) : Action Unit := do
  ((← get).bufferAt buffer).check start data.size
  modifyBuffer buffer (·.overwrite start data)

/-- Copies within a buffer as if from a snapshot of the source. -/
def copyWithinAt (buffer source target length : Nat) : Action Unit := do
  ((← get).bufferAt buffer).check source length
  ((← get).bufferAt buffer).check target length
  modifyBuffer buffer (·.duplicate source target length)

def setWordAt (buffer index : Nat) (word : UInt32) : Action Unit := do
  writeAt buffer (← wordOffset index) (wordBytes word)

def write (start : Nat) (data : ByteArray) : Action Unit := do
  writeAt (← get).current start data

def copyWithin (source target length : Nat) : Action Unit := do
  copyWithinAt (← get).current source target length

def detachAt (m : Memory) (buffer : Nat) : ByteArray × Memory :=
  ((m.bufferAt buffer).bytes, { m with buffers := m.buffers.set! buffer .gone })

/-- Makes other bytes the contents, in a buffer of their own. -/
def replaceBuffer (m : Memory) (bytes : ByteArray) : Memory :=
  { m with buffers := m.buffers.push (.ofBytes bytes), current := m.buffers.size }

def pageLimit (m : Memory) : Nat :=
  m.maxPages.getD 65536

def room (m : Memory) (count : Nat) : Except Error Nat :=
  match m.pages with
  | none => .error .pastMaximum
  | some previous =>
    if count = 0 then .ok previous
    else if UInt32.size ≤ previous + count then .error .pageCountOverflow
    else if m.pageLimit < previous + count then .error .pastMaximum
    else .ok previous

/-- Moves the contents to a new buffer of `pages` pages, zero-filled at the end. -/
def regrown (m : Memory) (pages : Nat) : Memory :=
  let (bytes, m) := m.detachAt m.current
  { m.replaceBuffer (bytes ++ zeros (pages * pageSize - bytes.size)) with pages := some pages }

/-- Grows by `count` pages and returns the size before. Growing by nothing changes nothing. -/
def grow (count : Nat) : Action Nat := do
  let previous ← (← get).room count
  if count ≠ 0 then
    modify (·.regrown (previous + count))
  return previous

def cached (m : Memory) : ViewKind → Option View
  | .bytes => m.byteView
  | .words => m.wordView

/-- The view of a kind over the current buffer, built anew when the cached one is over another. -/
def view (m : Memory) (kind : ViewKind) : View × Memory :=
  let fresh : View := ⟨m.current, m.rebuilds⟩
  let rebuilt := { m with rebuilds := m.rebuilds + 1 }
  match m.cached kind with
  | some view =>
    if view.buffer = m.current then (view, m)
    else match kind with
      | .bytes => (fresh, { rebuilt with byteView := some fresh })
      | .words => (fresh, { rebuilt with wordView := some fresh })
  | none =>
    match kind with
    | .bytes => (fresh, { rebuilt with byteView := some fresh })
    | .words => (fresh, { rebuilt with wordView := some fresh })

def fetch (kind : ViewKind) : Action View :=
  modifyGet (·.view kind)

def writeBytes (start : Nat) (data : ByteArray) : Action Unit := do
  let view ← fetch .bytes
  writeAt view.buffer start data

def readBytes (start length : Nat) : Action ByteArray := do
  let view ← fetch .bytes
  (← get).readAt view.buffer start length

/-- Word index of a return slot, which must be aligned. -/
def slotIndex (slot : Nat) : Except Error Nat :=
  if slot % 4 = 0 then .ok (slot / 4) else .error .misalignedSlot

def writePair (slot : Nat) (first second : UInt32) : Action Unit := do
  let index ← slotIndex slot
  let view ← fetch .words
  setWordAt view.buffer index first
  setWordAt view.buffer (index + 1) second

def readPair (slot : Nat) : Action (UInt32 × UInt32) := do
  let index ← slotIndex slot
  let view ← fetch .words
  let m ← get
  return (← m.getWordAt view.buffer index, ← m.getWordAt view.buffer (index + 1))

def describeViews (m : Memory) : String :=
  s!"ViewCache \x7b rebuilds: {m.rebuilds} \x7d"

end Memory

end SandboxBridge
