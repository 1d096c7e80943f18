import SandboxBridge.Scenario.Perform

/-!
Scenarios on numbers, levels, errors, words and settings.
-/

namespace SandboxBridge.Scenario

def numbersReport (numbers : List Float) : Report :=
  .fields [("ok", .list (numbers.map fun x => .text (numberText x)))]

def levelReport (text : String) : Report :=
  match Level.ofString? text with
  | some level =>
    .fields [
      ("ok", .text level.name), ("facade", .text level.heading),
      ("below", .list (Level.all.map fun other => .flag (level.isBelow other)))]
  | none =>
    .fields [
      ("error", .text "ParseLogLevelError"), ("message", .text (Level.unreadable text)),
      ("level", .text text)]

def errorReport (e : Error) (asked : String) : Report :=
  let classes : List Category := [.memory, .parse, .contract, .resource, .runtime, .type]
  .fields [
    ("display", .text e.display), ("category", .count e.category.number),
    ("name", .text e.category.name), ("code", .count e.code), ("message", .text e.message),
    ("is", .list (classes.map fun c => .flag (e.category == c))),
    ("same", .flag (e.message == asked)), ("is_trap", .flag (e.kind == .moduleTrap))]

def uint32Report (n : UInt32) : Report :=
  .count n.toNat

def wordsReport (args : List Word) (index : Nat) : Report :=
  let each (word : Word) : Report :=
    .fields [
      ("display", .text word.display),
      ("u32", .fields (Report.result uint32Report word.asUInt32)),
      ("f64", .fields (Report.result .float word.asFloat)),
      ("eq", .list (args.map fun other => .flag (word == other)))]
  .fields [
    ("each", .list (args.map each)),
    ("arg_u32", .fields (Report.result uint32Report (Word.argUInt32 args index))),
    ("arg_f64", .fields (Report.result .float (Word.argFloat args index)))]

def printedReport (settings : Settings) : Report :=
  let printed := settings.toJson
  .fields [("ok", .fields [
    ("config", settingsReport settings settings.threshold), ("printed", .text printed),
    ("again", match Settings.ofJson printed with
      | .ok again => .flag (again == settings)
      | .error e => .fields (Report.error e))])]

def readReport (json : String) : Report :=
  match Settings.ofJson json with
  | .ok settings => printedReport settings
  | .error e => .fields (Report.error e)

end SandboxBridge.Scenario
