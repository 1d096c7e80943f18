import SandboxBridge.Import

/-!
Import functions of the embedder in scenarios.
-/

namespace SandboxBridge.Scenario

/-- What an import function of a scenario is called on, unless that is a bridge. -/
inductive Target where
  | number (value : UInt32)
  | nothing
  deriving DecidableEq, Repr

/-- What an import function does. -/
inductive Conduct where
  | answer (results : List Word)
  /-- Answers its arguments. -/
  | echo
  /-- Adds two 32-bit integers, modulo `2 ^ 32`. -/
  | sumInts
  | sumFloats
  /-- Answers the number it is called on, and 7 if that is none. -/
  | target
  | fail (error : Error)

namespace Conduct

def run (args : List Word) (target : Target) : Conduct → Except Error (List Word)
  | .answer results => .ok results
  | .echo => .ok args
  | .sumInts => do
    let first ← Word.argUInt32 args 0
    return [.i32 (first + (← Word.argUInt32 args 1))]
  | .sumFloats => do
    let first ← Word.argFloat args 0
    return [.f64 (first + (← Word.argFloat args 1))]
  | .target =>
    match target with
    | .number value => .ok [.i32 value]
    | _ => .ok [.i32 7]
  | .fail error => .error error

end Conduct

end SandboxBridge.Scenario
