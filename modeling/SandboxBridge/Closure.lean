import SandboxBridge.Error

/-!
The life of a module closure on the host side. A closure is a context pair and two table entries:
a shim that runs it and a destructor. It is counted once for the host's own reference and once for
each call under way; while a call runs, the first context word is lent out, and when the last
reference goes, the destructor runs.
-/

namespace SandboxBridge

/-- Where the first context word of a closure is. -/
inductive Context where
  | owned (word : UInt32)
  /-- Lent to a call under way. -/
  | borrowed
  /-- Gone: the destructor has had it. -/
  | released
  deriving DecidableEq, Repr

structure Closure where
  context : Context
  /-- The second context word. -/
  environment : UInt32
  references : Nat
  /-- Whether the host still holds its own reference. -/
  alive : Bool
  /-- Table index of the shim, called with the context pair and a handle for each argument. -/
  invoke : UInt32
  /-- Table index of the destructor, called with the context pair. -/
  destructor : UInt32
  deriving DecidableEq, Repr

namespace Closure

def wrap (word environment invoke destructor : UInt32) : Closure :=
  { context := .owned word, environment, references := 1, alive := true, invoke, destructor }

def isReleased (c : Closure) : Bool :=
  c.context = .released

/-- Starts a call and lends it the context word. A call that finds the word lent out gets none; it
still counts until it leaves. -/
def enter (c : Closure) : Except Error (Option UInt32 × Closure) :=
  let entered := { c with context := .borrowed, references := c.references + 1 }
  match c.context with
  | .released => .error .invokedAfterDrop
  | .owned word => .ok (some word, entered)
  | .borrowed => .ok (none, entered)

/-- Ends a call that was lent `lent`. The first component is the word to destroy with, if this was
the last reference. -/
def leave (c : Closure) (lent : Option UInt32) : Option UInt32 × Closure :=
  let references := c.references - 1
  if references = 0 then
    (lent, { c with references, context := .released })
  else
    match lent with
    | some word => (none, { c with references, context := .owned word })
    | none => (none, { c with references })

inductive Drop where
  /-- Calls are under way; the last of them will destroy the closure. -/
  | deferred (calls : Nat)
  | destroy (word : UInt32)
  deriving DecidableEq, Repr

def drop (c : Closure) : Except Error Drop × Closure :=
  if !c.alive then (.error .droppedTwice, c)
  else
    let references := c.references - 1
    if references = 0 then
      let dropped := { c with alive := false, references, context := .released }
      match c.context with
      | .owned word => (.ok (.destroy word), dropped)
      | _ => (.error .contextMissing, dropped)
    else
      (.ok (.deferred references), { c with alive := false, references })

end Closure

end SandboxBridge
