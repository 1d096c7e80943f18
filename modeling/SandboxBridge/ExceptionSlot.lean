import SandboxBridge.HandleTable

/-!
The slot for the host exception that waits for the module to take it.
-/

namespace SandboxBridge

structure ExceptionSlot where
  current : Option Handle := none
  deriving DecidableEq, Repr, Inhabited

namespace ExceptionSlot

/-- Puts a handle into the slot and gives back the one that nobody took. -/
def store (slot : ExceptionSlot) (handle : Handle) : Option Handle × ExceptionSlot :=
  (slot.current, ⟨some handle⟩)

def take (slot : ExceptionSlot) : Option Handle × ExceptionSlot :=
  (slot.current, ⟨none⟩)

def isSet (slot : ExceptionSlot) : Bool :=
  slot.current.isSome

def describe (slot : ExceptionSlot) : String :=
  let value := slot.current.elim "None" fun handle => s!"Some(Handle({handle.index}))"
  "ExceptionSlot \x7b current: Cell \x7b value: " ++ value ++ " \x7d \x7d"

end ExceptionSlot

end SandboxBridge
