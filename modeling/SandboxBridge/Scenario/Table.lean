import SandboxBridge.ExceptionSlot
import SandboxBridge.Scenario.Perform

/-!
Scenarios on a handle table and on an exception slot alone.
-/

namespace SandboxBridge.Scenario

inductive TableStep where
  | allocate (value : Value)
  | get (handle : Handle)
  | isLive (handle : Handle)
  | release (handle : Handle)
  | take (handle : Handle)
  | duplicate (handle : Handle)
  | reset
  | describe
  | inspect (handle : Handle)
  | ofBool (flag : Bool)

namespace TableStep

def state (t : HandleTable) : Report :=
  .list [
    .count t.size, .count t.live,
    .list (t.freeHandles.map fun handle => .count handle.index), .flag t.slots.isEmpty]

def updated {α : Type} (t : HandleTable) (report : α → Report) :
    Except Error (α × HandleTable) → List (String × Report) × HandleTable
  | .ok (value, next) => ([("ok", report value)], next)
  | .error e => (Report.error e, t)

def handleReport (handle : Handle) : Report :=
  .count handle.index

/-- Values of these scenarios have no contents in a store. -/
def valueReport (value : Value) : Report :=
  .value {} value

def perform (t : HandleTable) : TableStep → List (String × Report) × HandleTable
  | .allocate value => updated t handleReport (t.allocate value)
  | .get handle => (Report.result valueReport (t.get handle), t)
  | .isLive handle => ([("ok", .flag (t.isLive handle))], t)
  | .release handle => updated t (fun () => .null) ((t.release handle).map ((), ·))
  | .take handle => updated t valueReport (t.take handle)
  | .duplicate handle => updated t handleReport (t.duplicate handle)
  | .reset => ([("ok", .null)], t.reset)
  | .describe => ([("ok", .text t.describe)], t)
  | .inspect handle =>
    ([("ok", .list [.text handle.display, .flag handle.isReserved, handleReport handle])], t)
  | .ofBool flag => ([("ok", handleReport (.ofBool flag))], t)

def run (t : HandleTable) : List TableStep → List Report
  | [] => []
  | step :: rest =>
    let (result, next) := step.perform t
    .fields (result ++ [("state", state next)]) :: run next rest

end TableStep

inductive SlotStep where
  | store (handle : Handle)
  | take
  | peek
  | isSet

namespace SlotStep

def perform (slot : ExceptionSlot) : SlotStep → Report × ExceptionSlot
  | .store handle =>
    let (previous, slot) := slot.store handle
    (.option TableStep.handleReport previous, slot)
  | .take =>
    let (handle, slot) := slot.take
    (.option TableStep.handleReport handle, slot)
  | .peek => (.option TableStep.handleReport slot.current, slot)
  | .isSet => (.flag slot.isSet, slot)

def run (slot : ExceptionSlot) : List SlotStep → List Report
  | [] => []
  | step :: rest =>
    let (result, next) := step.perform slot
    .list [result, .flag next.isSet] :: run next rest

end SlotStep

end SandboxBridge.Scenario
