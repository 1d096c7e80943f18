import SandboxBridge.Machine
import SandboxBridge.Store.Render

/-!
Reports: what a scenario tells of its steps, as plain trees that any notation can write down. Floats
are told by their bits.
-/

namespace SandboxBridge.Scenario

inductive Report where
  | null
  | flag (value : Bool)
  | number (value : Int)
  | text (value : String)
  | list (items : List Report)
  | fields (fields : List (String × Report))
  deriving Inhabited

def hexText (width n : Nat) : String :=
  let digits := Nat.toDigits 16 n
  String.ofList (List.replicate (width - digits.length) '0' ++ digits)

def hexDigit (n : UInt8) : Char :=
  if n < 10 then Char.ofNat (n.toNat + 48) else Char.ofNat (n.toNat + 87)

namespace Report

def count (n : Nat) : Report :=
  .number n

def option {α : Type} (report : α → Report) : Option α → Report
  | none => .null
  | some value => report value

def bytes (b : ByteArray) : Report :=
  .text (b.foldl
    (fun text byte => (text.push (hexDigit (byte >>> 4))).push (hexDigit (byte &&& 15))) "")

def float (x : Float) : Report :=
  .text (if x.isNaN then "nan" else hexText 16 x.toBits.toNat)

def float32 (x : Float32) : Report :=
  .text (if x.isNaN then "nan" else hexText 8 x.toBits.toNat)

def word : Word → Report
  | .i32 bits => .fields [("i32", .number bits.toInt32.toInt)]
  | .i64 bits => .fields [("i64", .number bits.toInt64.toInt)]
  | .f32 x => .fields [("f32", float32 x)]
  | .f64 x => .fields [("f64", float x)]

def words (ws : List Word) : Report :=
  .list (ws.map word)

def pair (first second : Nat) : Report :=
  .list [count first, count second]

def error (e : Error) : List (String × Report) :=
  [("error", .text e.category.name), ("code", count e.code), ("message", .text e.message)]

def value (s : Store) (v : Value) : Report :=
  .fields ([("type", .text v.typeName), ("debug", .text ((s.render? v).getD ""))] ++
    (v.asNumber?.map fun x => ("bits", float x)).toList)

def result {α : Type} (report : α → Report) : Except Error α → List (String × Report)
  | .ok value => [("ok", report value)]
  | .error e => error e

def outcome (s : Store) : Except Fault Report → List (String × Report)
  | .ok report => [("ok", report)]
  | .error (.thrown exception) => [("thrown", value s exception)]
  | .error (.trap e) => error e

def record (r : LogRecord) : Report :=
  .list [.text r.level.heading, .text r.target, .text r.message]

def operation (op : LogOperation) : Report :=
  .list [.text op.level.name, .text op.message, option .text op.component]

def unlessEmpty (name : String) (items : List Report) : List (String × Report) :=
  if items.isEmpty then [] else [(name, .list items)]

end Report

/-- Records that a scenario keeps: those under a target of interest, and those urgent enough. -/
def keeps (target : String) (capture : Option Level) (r : LogRecord) : Bool :=
  r.target == target || capture.any fun level => !r.level.isBelow level

end SandboxBridge.Scenario
