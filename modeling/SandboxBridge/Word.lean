import SandboxBridge.Decimal.Layout
import SandboxBridge.Error

/-!
Core values that cross the boundary. Module code can pass numbers only: handles, pointers and
lengths travel as 32-bit integers, which the host reads as unsigned.
-/

namespace SandboxBridge

inductive Word where
  | i32 (bits : UInt32)
  | i64 (bits : UInt64)
  | f32 (value : Float32)
  | f64 (value : Float)

namespace Word

def ofBool (flag : Bool) : Word :=
  .i32 (if flag then 1 else 0)

def ofNat (n : Nat) : Word :=
  .i32 n.toUInt32

def toUInt32? : Word → Option UInt32
  | .i32 bits => some bits
  | _ => none

def asUInt32 : Word → Except Error UInt32
  | .i32 bits => .ok bits
  | _ => .error .expectedI32

def asFloat : Word → Except Error Float
  | .f64 value => .ok value
  | .f32 value => .ok value.toFloat
  | _ => .error .expectedFloat

def floatText (isNaN isInf isNegative isZero : Bool) (text : String) : String :=
  let sign := if isNegative then "-" else ""
  if isNaN then "NaN"
  else if isInf then sign ++ "inf"
  else if isZero then sign ++ "0"
  else text

def display : Word → String
  | .i32 bits => s!"i32:{bits.toInt32.toInt}"
  | .i64 bits => s!"i64:{bits.toInt64.toInt}"
  | .f32 x =>
    let negative := x.toBits >>> 31 = 1
    "f32:" ++ floatText x.isNaN x.isInf negative (x == 0) (Decimal.Layout.plain.text32 x)
  | .f64 x =>
    let negative := x.toBits >>> 63 = 1
    "f64:" ++ floatText x.isNaN x.isInf negative (x == 0) (Decimal.Layout.plain.text x)

/-- Integers are compared by bits and floats as numbers, so a NaN differs from itself. -/
protected def beq : Word → Word → Bool
  | .i32 a, .i32 b => a == b
  | .i64 a, .i64 b => a == b
  | .f32 a, .f32 b => a == b
  | .f64 a, .f64 b => a == b
  | _, _ => false

instance : BEq Word := ⟨Word.beq⟩

def argUInt32 (args : List Word) (index : Nat) : Except Error UInt32 :=
  match args[index]? with
  | some word => word.asUInt32
  | none => .error .missingArgument

def argFloat (args : List Word) (index : Nat) : Except Error Float :=
  match args[index]? with
  | some word => word.asFloat
  | none => .error .missingArgument

end Word

end SandboxBridge
