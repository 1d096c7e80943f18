/-!
Log messages. Module code raises operations; they go to a handler or become records under a target,
and the library adds records of its own.
-/

namespace SandboxBridge

inductive Level where
  | trace
  | debug
  | info
  | warn
  | error
  deriving DecidableEq, Repr

namespace Level

def all : List Level :=
  [.trace, .debug, .info, .warn, .error]

def urgency : Level → Nat
  | .trace => 0
  | .debug => 1
  | .info => 2
  | .warn => 3
  | .error => 4

def isBelow (a b : Level) : Bool :=
  a.urgency < b.urgency

def name : Level → String
  | .trace => "trace"
  | .debug => "debug"
  | .info => "info"
  | .warn => "warn"
  | .error => "error"

def heading : Level → String
  | .trace => "TRACE"
  | .debug => "DEBUG"
  | .info => "INFO"
  | .warn => "WARN"
  | .error => "ERROR"

def ofWord? : String → Option Level
  | "trace" => some .trace
  | "debug" => some .debug
  | "info" => some .info
  | "warn" | "warning" => some .warn
  | "error" | "err" => some .error
  | _ => none

/-- Reads the name of a level in any letter case. Only ASCII letters can stand for a letter of these
names, so lowering ASCII is enough. -/
def ofString? (s : String) : Option Level :=
  ofWord? (s.map Char.toLower)

def unreadable (s : String) : String :=
  s!"Invalid log level: {s}"

theorem ofString?_name (level : Level) : ofString? level.name = some level := by
  cases level <;> decide +kernel

end Level

structure LogOperation where
  level : Level
  message : String
  component : Option String
  deriving DecidableEq, Repr

structure LogRecord where
  level : Level
  target : String
  message : String
  deriving DecidableEq, Repr

namespace LogTarget

def bridge : String := "hostlink::bridge"
def table : String := "hostlink::heap"
def memory : String := "hostlink::memory"
def closure : String := "hostlink::closure"
def guest : String := "hostlink::native"
def transfer : String := "hostlink::transcode"
def facilities : String := "hostlink::facilities"
def intrinsics : String := "hostlink::adapters::intrinsics"
def objects : String := "hostlink::adapters::object"
def settings : String := "hostlink::config"
def registry : String := "hostlink_host::callback"
def builder : String := "hostlink_host::builder"

end LogTarget

def LogOperation.record (op : LogOperation) (target : String) : LogRecord :=
  { level := op.level
    target := target
    message := match op.component with
      | some component => s!"[{component}] {op.message}"
      | none => op.message }

/-- Everything logged so far, and the operations that went to a handler instead, each with the
handler's key. -/
structure Journal where
  records : Array LogRecord
  handled : Array (Nat × LogOperation)
  deriving Inhabited

namespace Journal

def empty : Journal :=
  ⟨#[], #[]⟩

def note (j : Journal) (level : Level) (target message : String) : Journal :=
  { j with records := j.records.push ⟨level, target, message⟩ }

def forward (j : Journal) (op : LogOperation) (target : String) : Journal :=
  { j with records := j.records.push (op.record target) }

def handle (j : Journal) (key : Nat) (op : LogOperation) : Journal :=
  { j with handled := j.handled.push (key, op) }

end Journal

end SandboxBridge
