import SandboxBridge.Machine
import SandboxBridge.Scenario.Conduct
import SandboxBridge.Scenario.Report

/-!
Scenarios on a registry of import functions alone.
-/

namespace SandboxBridge.Scenario

/-- A part of what is built into a registry. -/
inductive BuildPart where
  | function (module function : String) (conduct : Conduct)
  | imports (module : String)

inductive RegistryStep where
  | register (module function : String) (conduct : Conduct)
  | registerImports (module : String)
  | contains (module function : String)
  | functions (module : String)
  | call (module function : String) (args : List Word) (target : Target)
  | clone
  | new
  | build (parts : List BuildPart) (name : Option String)
  | setCallback (callback : LoggingCallback)
  /-- Installs a handler whose operations are reported under a tag. -/
  | setHandler (tag : Report)
  | getCallback
  | log (op : LogOperation) (target : String)
  | forward (op : LogOperation) (target : String)
  | describe
  | key (module function : String)
  | importNames

structure RegistryState where
  registry : Registry Handler := .empty
  /-- What the functions of the embedder do, by key. -/
  conducts : Array Conduct := #[]
  journal : Journal := .empty
  /-- Tags of the handlers installed so far, by key. -/
  tags : Array Report := #[]

namespace RegistryStep

/-- A builder with the given parts, where `first` functions of the embedder have keys already, and
what the functions among the parts do. -/
def builderOf (first : Nat) (parts : List BuildPart) (name : Option String) :
    RegistryBuilder Handler × Array Conduct :=
  let add (build : RegistryBuilder Handler × Array Conduct) (part : BuildPart) :=
    match part with
    | .function module function conduct =>
      (build.1.add module function (.hosted (first + build.2.size)), build.2.push conduct)
    | .imports module => (build.1.install module, build.2)
  let (builder, conducts) := parts.foldl add ({}, #[])
  (name.elim builder builder.named, conducts)

def callbackReport : Option LoggingCallback → Report
  | some (.number value) => .list [.number value.toInt32.toInt, .null]
  | some (.text value) => .list [.null, .text value]
  | _ => .list [.null, .null]

def performCall (s : RegistryState) (module function : String) (args : List Word) (target : Target) :
    Except Error (List Word) × Journal :=
  let code (key : Nat) (args : List Word) : ExceptT Error (StateM Journal) (List Word) :=
    .mk (pure ((s.conducts.getD key .echo).run args target))
  let note (level : Level) (message : String) : StateM Journal Unit :=
    modify (·.note level LogTarget.registry message)
  (s.registry.call note (Handler.runElsewhere code args) module function).run s.journal

def perform (s : RegistryState) : RegistryStep → List (String × Report) × RegistryState
  | .register module function conduct =>
    let registry := s.registry.register module function (.hosted s.conducts.size)
    ([("ok", .null)], { s with registry, conducts := s.conducts.push conduct })
  | .registerImports module =>
    ([("ok", .null)], { s with registry := s.registry.registerImports module })
  | .contains module function =>
    let found := Report.flag (s.registry.contains module function)
    ([("ok", .list [found, found])], s)
  | .functions module => ([("ok", .list ((s.registry.functions module).map .text))], s)
  | .call module function args target =>
    let (result, journal) := performCall s module function args target
    (Report.result .words result, { s with journal })
  | .clone => ([("ok", .null)], { s with registry := s.registry.clone })
  | .new => ([("ok", .null)], { s with registry := .empty })
  | .build parts name =>
    let (builder, conducts) := builderOf s.conducts.size parts name
    match builder.build with
    | .ok registry =>
      let journal := s.journal.note .debug LogTarget.builder builder.report
      ([("ok", .null)], { s with registry, conducts := s.conducts ++ conducts, journal })
    | .error e => (Report.error e, s)
  | .setCallback callback =>
    ([("ok", .null)], { s with registry := { s.registry with logging := some callback } })
  | .setHandler tag =>
    let registry := { s.registry with logging := some (.handler s.tags.size) }
    ([("ok", .null)], { s with registry, tags := s.tags.push tag })
  | .getCallback => ([("ok", callbackReport s.registry.logging)], s)
  | .log op target =>
    ([("ok", .null)], { s with journal := s.registry.log s.journal op target })
  | .forward op target => ([("ok", .null)], { s with journal := s.journal.forward op target })
  | .describe => ([("ok", .text s.registry.describe)], s)
  | .key module function => ([("ok", .text (Registry.key module function))], s)
  | .importNames => ([("ok", .list (Import.names.map .text))], s)

def run (target : String) (capture : Option Level) (s : RegistryState) :
    List RegistryStep → List Report
  | [] => []
  | step :: rest =>
    let (result, next) := step.perform { s with journal := .empty }
    let handled := next.journal.handled.toList.map fun (handler, op) =>
      Report.list [next.tags.getD handler .null, .operation op]
    let records := (next.journal.records.toList.filter (keeps target capture)).map Report.record
    .fields (result ++ Report.unlessEmpty "handled" handled ++ Report.unlessEmpty "log" records) ::
      run target capture next rest

end RegistryStep

end SandboxBridge.Scenario
