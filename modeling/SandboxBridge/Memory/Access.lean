import SandboxBridge.Memory

/-!
What anyone with a memory at hand can do to it, one operation at a time, whether through the current
buffer or through a buffer or view kept from earlier.
-/

namespace SandboxBridge.Memory

inductive Access where
  | grow (pages : Nat)
  | read (start length : Nat)
  | write (start : Nat) (data : ByteArray)
  | copyWithin (source target length : Nat)
  | writePair (slot : Nat) (first second : UInt32)
  | readPair (slot : Nat)
  | fetch (kind : ViewKind)
  | readAt (buffer start length : Nat)
  | writeAt (buffer start : Nat) (data : ByteArray)
  | copyWithinAt (buffer source target length : Nat)
  | getWordAt (buffer index : Nat)
  | setWordAt (buffer index : Nat) (word : UInt32)
  | detachAt (buffer : Nat)
  | replaceBuffer (bytes : ByteArray)

namespace Access

@[reducible] def Answer : Access → Type
  | .grow .. => Nat
  | .read .. | .readAt .. | .detachAt .. => ByteArray
  | .readPair .. => UInt32 × UInt32
  | .fetch .. => View
  | .getWordAt .. => UInt32
  | .write .. | .copyWithin .. | .writePair .. | .writeAt .. | .copyWithinAt .. | .setWordAt ..
  | .replaceBuffer .. => Unit

def perform : (access : Access) → Action access.Answer
  | .grow pages => Memory.grow pages
  | .read start length => do (← get).read start length
  | .write start data => Memory.write start data
  | .copyWithin source target length => Memory.copyWithin source target length
  | .writePair slot first second => Memory.writePair slot first second
  | .readPair slot => Memory.readPair slot
  | .fetch kind => Memory.fetch kind
  | .readAt buffer start length => do (← get).readAt buffer start length
  | .writeAt buffer start data => Memory.writeAt buffer start data
  | .copyWithinAt buffer source target length => Memory.copyWithinAt buffer source target length
  | .getWordAt buffer index => do (← get).getWordAt buffer index
  | .setWordAt buffer index word => Memory.setWordAt buffer index word
  | .detachAt buffer => modifyGet (·.detachAt buffer)
  | .replaceBuffer bytes => modify (·.replaceBuffer bytes)

end Access

end SandboxBridge.Memory
