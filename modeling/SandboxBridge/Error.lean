/-!
Failures of the bridge. An error has a kind, which fixes its code and its category, and a message
for people. Every failure that the library itself raises is named here, with its wording.
-/

namespace SandboxBridge

inductive Category where
  | memory
  | parse
  | contract
  | resource
  | runtime
  | type
  | invalidState
  deriving DecidableEq, Repr

namespace Category

def number : Category → Nat
  | .memory => 1
  | .parse => 2
  | .contract => 3
  | .resource => 4
  | .runtime => 5
  | .type => 6
  | .invalidState => 7

def name : Category → String
  | .memory => "Memory"
  | .parse => "Parse"
  | .contract => "Contract"
  | .resource => "Resource"
  | .runtime => "Runtime"
  | .type => "Type"
  | .invalidState => "InvalidState"

end Category

inductive ErrorKind where
  /-- Access outside the current linear memory. -/
  | memoryOutOfBounds
  /-- Access through a view whose buffer was detached by growth. -/
  | detachedBuffer
  | memoryGrow
  | allocationFailed
  | invalidUtf8
  /-- Length arithmetic left the 32-bit range while encoding. -/
  | encodingOverflow
  | configParse
  /-- A handle that names no live slot. -/
  | invalidHandle
  | doubleRelease
  /-- A closure invoked while its context was lent to an outer call. -/
  | closureReentered
  /-- A closure invoked or dropped after the host's reference was gone. -/
  | closureReleased
  /-- A return slot that is not aligned. -/
  | invalidReturnSlot
  | handleLimit
  | runtime
  | importNotFound
  | exportNotFound
  | moduleTrap
  /-- Module code raised a fatal error on purpose. -/
  | moduleThrow
  | typeMismatch
  | invalidArgument
  /-- An operation that the current lifecycle state does not allow. -/
  | invalidState
  deriving DecidableEq, Repr

namespace ErrorKind

def category : ErrorKind → Category
  | .memoryOutOfBounds | .detachedBuffer | .memoryGrow | .allocationFailed => .memory
  | .invalidUtf8 | .encodingOverflow | .configParse => .parse
  | .invalidHandle | .doubleRelease | .closureReentered | .closureReleased
  | .invalidReturnSlot => .contract
  | .handleLimit => .resource
  | .runtime | .importNotFound | .exportNotFound | .moduleTrap | .moduleThrow => .runtime
  | .typeMismatch | .invalidArgument => .type
  | .invalidState => .invalidState

def code : ErrorKind → Nat
  | .memoryOutOfBounds => 1000
  | .detachedBuffer => 1001
  | .memoryGrow => 1002
  | .allocationFailed => 1004
  | .invalidUtf8 => 2000
  | .encodingOverflow => 2001
  | .configParse => 2002
  | .invalidHandle => 3000
  | .doubleRelease => 3001
  | .closureReentered => 3002
  | .closureReleased => 3003
  | .invalidReturnSlot => 3004
  | .handleLimit => 4000
  | .runtime => 5000
  | .importNotFound => 5001
  | .exportNotFound => 5002
  | .moduleTrap => 5003
  | .moduleThrow => 5004
  | .typeMismatch => 6000
  | .invalidArgument => 6001
  | .invalidState => 7000

theorem code_div_thousand (kind : ErrorKind) : kind.code / 1000 = kind.category.number := by
  cases kind <;> rfl

end ErrorKind

/-- A fatal error. Host exceptions are not errors in this sense: they are values. -/
structure Error where
  kind : ErrorKind
  message : String
  deriving DecidableEq, Repr

namespace Error

def code (e : Error) : Nat :=
  e.kind.code

def category (e : Error) : Category :=
  e.kind.category

def codeText (code : Nat) : String :=
  let digits := (Nat.toDigits 16 code).map Char.toUpper
  String.ofList (List.replicate (4 - digits.length) '0' ++ digits)

def display (e : Error) : String :=
  s!"[{e.category.name}][E{codeText e.code}] {e.message}"

def outOfBounds : Error := ⟨.memoryOutOfBounds, "Access outside linear memory"⟩
def wordIndexOutOfRange : Error := ⟨.memoryOutOfBounds, "Word index out of range"⟩
def offsetOverflow : Error := ⟨.memoryOutOfBounds, "String offset overflow"⟩
def detached : Error := ⟨.detachedBuffer, "Buffer detached by memory growth"⟩
def pageCountOverflow : Error := ⟨.memoryGrow, "Page count overflow"⟩
def pastMaximum : Error := ⟨.memoryGrow, "Memory would exceed its maximum size"⟩
def misalignedSlot : Error := ⟨.invalidReturnSlot, "Return slot is not 4-byte aligned"⟩

def addressSpaceExhausted : Error := ⟨.allocationFailed, "Address space exhausted"⟩
def outOfMemory : Error := ⟨.allocationFailed, "Out of memory"⟩
def allocationTooLarge : Error := ⟨.allocationFailed, "Allocation too large"⟩
def noRealloc : Error := ⟨.exportNotFound, "Module does not export realloc"⟩

def malformedUtf8 : Error := ⟨.invalidUtf8, "Malformed UTF-8 in module string"⟩
def stringTooLong : Error := ⟨.encodingOverflow, "String does not fit in memory"⟩
def badSettings : Error := ⟨.configParse, "Invalid bridge configuration"⟩
def badLevel : Error := ⟨.configParse, "Invalid minimum log level"⟩
def formatting : Error := ⟨.runtime, "Formatting error"⟩

def tableFull : Error := ⟨.handleLimit, "Handle table is full"⟩
def brokenFreeList : Error := ⟨.invalidHandle, "Free list points at an occupied slot"⟩
def handleReleased : Error := ⟨.invalidHandle, "Handle has been released"⟩
def handleOutOfRange : Error := ⟨.invalidHandle, "Handle is out of range"⟩
def releasedTwice : Error := ⟨.doubleRelease, "Handle released twice"⟩

def invokedAfterDrop : Error := ⟨.closureReleased, "Closure invoked after it was dropped"⟩
def invokedRecursively : Error := ⟨.closureReentered, "Closure invoked recursively"⟩
def droppedTwice : Error := ⟨.closureReleased, "Closure dropped twice"⟩
def contextMissing : Error := ⟨.closureReleased, "Closure context missing on drop"⟩
def notAClosure : Error := ⟨.typeMismatch, "Handle does not refer to a closure"⟩

def unknownImport : Error := ⟨.importNotFound, "Import function not found"⟩
def importedTwice : Error := ⟨.invalidState, "Import function registered twice"⟩
def noBridge : Error := ⟨.runtime, "Import called without a bridge"⟩
def unknownExport : Error := ⟨.exportNotFound, "No function at table index"⟩
def missingArgument : Error := ⟨.invalidArgument, "Missing import argument"⟩
def expectedI32 : Error := ⟨.invalidArgument, "Expected an i32 argument"⟩
def expectedFloat : Error := ⟨.invalidArgument, "Expected a float argument"⟩
def arraySetTarget : Error := ⟨.typeMismatch, "array_set target is not an object"⟩
def argumentsNotArray : Error := ⟨.typeMismatch, "call_method arguments are not an array"⟩
def moduleThrew : Error := ⟨.moduleThrow, "Module raised a fatal error"⟩
def alreadyInitialized : Error := ⟨.invalidState, "Module is already initialized"⟩

end Error

end SandboxBridge
