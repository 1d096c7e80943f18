import SandboxBridge.Memory.Access
import SandboxBridge.Scenario.Report

/-!
Scenario steps on a memory. Views and buffers can be kept under a name and used later, when they may
be out of date.
-/

namespace SandboxBridge.Scenario

/-- What a step yields: its report, and what a name given to the step will stand for. -/
structure Yield where
  report : Report
  number : Option Nat := none
  /-- A second number, for steps that yield an extent. -/
  length : Option Nat := none
  value : Option Value := none

namespace Yield

def done : Yield :=
  ⟨.null, none, none, none⟩

def only (report : Report) : Yield :=
  { report }

def ofNumber (n : Nat) : Yield :=
  { report := .count n, number := some n }

def extent (start length : Nat) : Yield :=
  { report := .pair start length, number := some start, length := some length }

end Yield

inductive Held where
  | view (kind : ViewKind) (view : View)
  | buffer (index : Nat)
  deriving DecidableEq, Repr

inductive HeldKind where
  | view (kind : ViewKind)
  | buffer
  deriving DecidableEq, Repr

/-- Uses of what has been kept. Numbers are of type `ν`. -/
inductive HeldUse (ν : Type) where
  | info
  | read (start length : ν)
  | sum (start length : ν)
  | write (start : ν) (data : ByteArray)
  | get (index : ν)
  | set (index word : ν)
  | copyWithin (source target length : ν)
  | detach

inductive MemoryStep (ν : Type) where
  | grow (pages : ν)
  | size
  | read (start length : ν)
  | write (start : ν) (data : ByteArray)
  | writePair (slot first second : ν)
  | readPair (slot : ν)
  | copyWithin (source target length : ν)
  | rebuilds
  | describeViews
  | hold (name : String) (kind : HeldKind)
  | useHeld (name : String) (use : HeldUse ν)
  | replaceBuffer (bytes : ByteArray)

section

variable {ν μ : Type}

def HeldUse.map (f : ν → μ) : HeldUse ν → HeldUse μ
  | .info => .info
  | .read start length => .read (f start) (f length)
  | .sum start length => .sum (f start) (f length)
  | .write start data => .write (f start) data
  | .get index => .get (f index)
  | .set index word => .set (f index) (f word)
  | .copyWithin source target length => .copyWithin (f source) (f target) (f length)
  | .detach => .detach

def MemoryStep.map (f : ν → μ) : MemoryStep ν → MemoryStep μ
  | .grow pages => .grow (f pages)
  | .size => .size
  | .read start length => .read (f start) (f length)
  | .write start data => .write (f start) data
  | .writePair slot first second => .writePair (f slot) (f first) (f second)
  | .readPair slot => .readPair (f slot)
  | .copyWithin source target length => .copyWithin (f source) (f target) (f length)
  | .rebuilds => .rebuilds
  | .describeViews => .describeViews
  | .hold name kind => .hold name kind
  | .useHeld name use => .useHeld name (use.map f)
  | .replaceBuffer bytes => .replaceBuffer bytes

end

/-- Access to a memory from wherever a scenario runs. -/
structure Desk (m : Type → Type) where
  access : (access : Memory.Access) → m access.Answer
  memory : m Memory

namespace Desk

variable {m : Type → Type} [Monad m]

def byteSum (b : ByteArray) : Nat :=
  b.foldl (fun sum byte => sum + byte.toNat) 0

def info (desk : Desk m) (held : Held) : m Report := do
  let memory ← desk.memory
  match held with
  | .view kind view =>
    let size := (memory.bufferAt view.buffer).size
    let length := match kind with
      | .bytes => size
      | .words => size / 4
    return .list [.count length, .flag (length == 0), .flag (view.buffer == memory.current)]
  | .buffer index =>
    let buffer := memory.bufferAt index
    return .list [.count buffer.size, .flag (buffer.size == 0), .flag buffer.detached]

def use (desk : Desk m) (held : Held) (buffer : Nat) : HeldUse Nat → m Yield
  | .info => return .only (← desk.info held)
  | .read start length => return .only (.bytes (← desk.access (.readAt buffer start length)))
  | .sum start length =>
    return .ofNumber (byteSum (← desk.access (.readAt buffer start length)))
  | .write start data => do
    desk.access (.writeAt buffer start data)
    return .done
  | .get index => do
    let word ← desk.access (.getWordAt buffer index)
    return { report := .number word.toInt32.toInt, number := some word.toNat }
  | .set index word => do
    desk.access (.setWordAt buffer index word.toUInt32)
    return .done
  | .copyWithin source target length => do
    desk.access (.copyWithinAt buffer source target length)
    return .done
  | .detach => return .only (.bytes (← desk.access (.detachAt buffer)))

def run (desk : Desk m) (held : Dict Held) : MemoryStep Nat → m (Yield × Dict Held)
  | .grow pages => return (.ofNumber (← desk.access (.grow pages)), held)
  | .size => do
    let memory ← desk.memory
    return (.only (.list [.option .count memory.pages, .count memory.size]), held)
  | .read start length => return (.only (.bytes (← desk.access (.read start length))), held)
  | .write start data => do
    desk.access (.write start data)
    return (.done, held)
  | .writePair slot first second => do
    desk.access (.writePair slot first.toUInt32 second.toUInt32)
    return (.done, held)
  | .readPair slot => do
    let (first, second) ← desk.access (.readPair slot)
    return (.only (.pair first.toNat second.toNat), held)
  | .copyWithin source target length => do
    desk.access (.copyWithin source target length)
    return (.done, held)
  | .rebuilds => return (.ofNumber (← desk.memory).rebuilds, held)
  | .describeViews => return (.only (.text (← desk.memory).describeViews), held)
  | .hold name kind => do
    let now ← match kind with
      | .view kind => pure (.view kind (← desk.access (.fetch kind)))
      | .buffer => pure (.buffer (← desk.memory).current)
    let same := held.get? name == some now
    return (.only (.flag same), held.insert name now)
  | .useHeld name use =>
    match held.get? name with
    | none => return (.done, held)
    | some kept =>
      let buffer := match kept with
        | .view _ view => view.buffer
        | .buffer index => index
      return (← desk.use kept buffer use, held)
  | .replaceBuffer bytes => do
    desk.access (.replaceBuffer bytes)
    return (.done, held)

end Desk

end SandboxBridge.Scenario
