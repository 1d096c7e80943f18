import SandboxBridge.Error
import SandboxBridge.Json.Reader
import SandboxBridge.Json.Text
import SandboxBridge.Log
import SandboxBridge.Text.Quoted

/-!
Settings of a bridge, and their JSON form: an object in field order, two spaces deep. Reading takes
defaults for missing fields and passes over fields it does not know.
-/

namespace SandboxBridge

structure Settings where
  /-- Namespace that the import functions are registered under. -/
  importModule : String := "hostlink"
  /-- Upper bound on the slots of the handle table, sentinels included. -/
  maxHandles : Option UInt32 := none
  /-- Size the first allocation of a string for ASCII and grow on demand. -/
  asciiFastPath : Bool := true
  logTarget : String := "hostlink::module"
  componentId : Option String := none
  /-- Module messages below this level are dropped. -/
  minLogLevel : String := "trace"
  deriving DecidableEq, Repr, Inhabited

namespace Settings

def threshold (s : Settings) : Except Error Level :=
  match Level.ofString? s.minLogLevel with
  | some level => .ok level
  | none => .error .badLevel

def optionText {α : Type} (text : α → String) : Option α → String
  | none => "null"
  | some value => text value

def toJson (s : Settings) : String :=
  Json.objectLines [
    ("import_module", Json.stringText s.importModule),
    ("max_handles", optionText (fun n => toString n.toNat) s.maxHandles),
    ("ascii_fast_path", Json.boolText s.asciiFastPath),
    ("log_target", Json.stringText s.logTarget),
    ("component_id", optionText Json.stringText s.componentId),
    ("min_log_level", Json.stringText s.minLogLevel)]

inductive Field where
  | importModule
  | maxHandles
  | asciiFastPath
  | logTarget
  | componentId
  | minLogLevel
  deriving DecidableEq, Repr

namespace Field

def all : List Field :=
  [.importModule, .maxHandles, .asciiFastPath, .logTarget, .componentId, .minLogLevel]

def name : Field → String
  | .importModule => "import_module"
  | .maxHandles => "max_handles"
  | .asciiFastPath => "ascii_fast_path"
  | .logTarget => "log_target"
  | .componentId => "component_id"
  | .minLogLevel => "min_log_level"

def ofName? (name : String) : Option Field :=
  all.find? (·.name = name)

end Field

def text? : Json.Document → Option String
  | .string (some s) => some s
  | _ => none

def optionalText? : Json.Document → Option (Option String)
  | .null => some none
  | value => (text? value).map some

def flag? : Json.Document → Option Bool
  | .bool b => some b
  | _ => none

def limit? : Json.Document → Option (Option UInt32)
  | .null => some none
  | .number (some n) => if n < UInt32.size then some (some n.toUInt32) else none
  | _ => none

def set? (s : Settings) : Field → Json.Document → Option Settings
  | .importModule, value => (text? value).map ({ s with importModule := · })
  | .maxHandles, value => (limit? value).map ({ s with maxHandles := · })
  | .asciiFastPath, value => (flag? value).map ({ s with asciiFastPath := · })
  | .logTarget, value => (text? value).map ({ s with logTarget := · })
  | .componentId, value => (optionalText? value).map ({ s with componentId := · })
  | .minLogLevel, value => (text? value).map ({ s with minLogLevel := · })

/-- Sets the fields of an object. Every name must be readable and no known name may occur twice. -/
def setFields? (s : Settings) (seen : List Field) :
    List (Option String × Json.Document) → Option Settings
  | [] => some s
  | (none, _) :: _ => none
  | (some name, value) :: rest =>
    match Field.ofName? name with
    | none => s.setFields? seen rest
    | some field =>
      if field ∈ seen then none
      else (s.set? field value).bind (setFields? · (field :: seen) rest)

/-- Sets fields from the items of an array, position by position. -/
def setItems? (s : Settings) : List Field → List Json.Document → Option Settings
  | _, [] => some s
  | [], _ :: _ => none
  | field :: fields, item :: items => (s.set? field item).bind (setItems? · fields items)

def ofDocument? : Json.Document → Option Settings
  | .object fields => setFields? {} [] fields
  | .array items => setItems? {} Field.all items
  | _ => none

def ofJson (json : String) : Except Error Settings :=
  match (Json.Document.ofString? json).bind ofDocument? with
  | none => .error .badSettings
  | some s => s.threshold.map fun _ => s

def describeLimit : Option UInt32 → String
  | none => "None"
  | some n => s!"Some({n.toNat})"

def describe (s : Settings) : String :=
  "BridgeConfig \x7b import_module: " ++ Text.quoted s.importModule ++
    ", max_handles: " ++ describeLimit s.maxHandles ++
    ", ascii_fast_path: " ++ Json.boolText s.asciiFastPath ++
    ", log_target: " ++ Text.quoted s.logTarget ++
    ", component_id: " ++ Text.quotedOption s.componentId ++
    ", min_log_level: " ++ Text.quoted s.minLogLevel ++ " \x7d"

end Settings

end SandboxBridge
