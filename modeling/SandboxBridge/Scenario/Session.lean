import SandboxBridge.Scenario.Perform

/-!
Sessions: a bridge over a scripted module and a scripted host, and the steps of its embedder, each
of which is reported with what it has left in the log and what else it has run.
-/

namespace SandboxBridge.Scenario

open Scene

structure Session where
  settings : Settings := {}
  pages : Nat := 1
  maxPages : Option Nat := none
  /-- Least urgent level of the library's own records that are reported. -/
  capture : Option Level := none
  global : Recipe Code := .window Store.defaultQuota
  table : Array ModuleFunction := #[]
  start : Option ModuleFunction := none
  exportsRealloc : Bool := true
  offersRealloc : Bool := true
  overrides : AllocatorEntry → List Override := fun _ => []
  /-- Whether a handler takes the module's messages. -/
  handler : Bool := false
  extraImports : List (String × String × Conduct) := []
  steps : List (Step Action) := []

namespace Session

def guest (s : Session) : Guest :=
  { allocator := { exportsRealloc := s.exportsRealloc }
    offersRealloc := s.offersRealloc
    functions := s.table.size
    hasStart := s.start.isSome
    overrides := s.overrides }

def embedding (s : Session) : Embedding Stage :=
  Scenario.embedding s.table s.start (s.extraImports.map (·.2.2)).toArray

def install (s : Session) (m : Machine) : Machine :=
  let logging := if s.handler then some (.handler 0) else m.imports.logging
  let additions := s.extraImports.zipIdx.map fun ((module, function, _), key) =>
    (module, function, Handler.hosted key)
  let imports := { m.imports with logging }.registerEach additions
  { m with imports }

def prepare (s : Session) (depth : Nat) : Option (Machine × Stage) := do
  let memory := Memory.ofPages s.pages s.maxPages
  let bare := Machine.bare s.settings memory s.guest {} ⟨0⟩
  let (made, m, stage) ← s.embedding.perform depth (s.global.evaluate {}).run bare {}
  let (global, store) := match made with
    | .ok (.object id) => (id, m.store)
    | _ => (Store.newWindow Store.defaultQuota).run m.store
  return (s.install (Machine.create s.settings memory s.guest store global), stage)

def records (s : Session) (m : Machine) (first : Nat) : List Report :=
  ((m.journal.records.extract first).toList.filter (keeps m.settings.logTarget s.capture)).map
    Report.record

def entryName : AllocatorEntry → String
  | .malloc => "malloc"
  | .realloc => "realloc"
  | .free => "free"

def callReport (call : AllocatorCall) : Report :=
  .list [.text (entryName call.entry), .list (call.args.map .count),
    match call.result with
    | .ok value => .count value
    | .error e => .fields [("error", .count e.code)]]

def innerReport (step : InnerStep) : Report :=
  .list [.text s!"{step.label}#{step.index}", .fields step.outcome]

def performStep (s : Session) (step : Step Action) : Play Stage Report := do
  let before ← Play.machine
  let recordCount := before.journal.records.size
  let handledCount := before.journal.handled.size
  let callCount := before.guest.calls.size
  modify fun stage => { stage with inner := #[] }
  let result ← (step.perform {}).run
  let m ← Play.machine
  return .fields (Report.outcome m.store result ++
    [("live", .count m.table.live)] ++
    Report.unlessEmpty "log" (s.records m recordCount) ++
    Report.unlessEmpty "handled"
      ((m.journal.handled.extract handledCount).toList.map fun entry => .operation entry.2) ++
    Report.unlessEmpty "alloc" ((m.guest.calls.extract callCount).toList.map callReport) ++
    Report.unlessEmpty "inner" ((← get).inner.toList.map innerReport))

/-- Runs steps one after the other. The reports of the steps before them are `told`, the latest
first. -/
def performSteps (s : Session) (told : List Report) : List (Step Action) → Play Stage (List Report)
  | [] => return told.reverse
  | step :: rest => do
    let report ← s.performStep step
    s.performSteps (report :: told) rest

def endReport (m : Machine) : Report :=
  let a := m.guest.allocator
  .fields [
    ("len", .count m.table.size), ("live", .count m.table.live),
    ("free", .list (m.table.freeHandles.map fun handle => .count handle.index)),
    ("pages", .option .count m.memory.pages), ("pending", .flag m.pending.isSet),
    ("last_throw", .option .text m.lastThrow), ("rebuilds", .count m.memory.rebuilds),
    ("stats", .list [.count a.mallocs, .count a.reallocs, .count a.frees])]

def run (s : Session) (depth : Nat) : Option Report := do
  let (m, stage) ← s.prepare depth
  let opening := Report.unlessEmpty "log" (s.records m 0)
  let (steps, m, _) ← s.embedding.perform depth (s.performSteps [] s.steps) m stage
  return .fields ((if opening.isEmpty then [] else [("begin", .fields opening)]) ++
    [("steps", .list steps), ("end", endReport m)])

end Session

end SandboxBridge.Scenario
