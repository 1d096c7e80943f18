import SandboxBridge.Decimal.Shortest

/-!
How the digits of a decimal are laid out as text: positional notation for the exponents a layout
allows, scientific notation elsewhere.
-/

namespace SandboxBridge.Decimal

/-- The decisions of a number format. The point position of a decimal is the number of digits before
its point: 1 for `5.25`, 0 for `0.25`, -1 for `0.025`. -/
structure Layout where
  /-- Point positions that are written positionally; all of them when `none`. -/
  positional : Option (Int × Int)
  /-- Whether an integer in positional notation ends in `.0`. -/
  fractionalZero : Bool
  tie : Tie

/-- Plain decimal notation for every size of number. -/
def Layout.plain : Layout := ⟨none, false, .up⟩

/-- Numbers inside JSON text: positional from `0.00001` up to sixteen digits before the point, and
always with a fraction or an exponent. -/
def Layout.json : Layout := ⟨some (-4, 16), true, .toEven⟩

def zeros (count : Nat) : String :=
  String.ofList (List.replicate count '0')

def positionalText (digits : List Char) (point : Int) (fractionalZero : Bool) : String :=
  if point ≤ 0 then
    "0." ++ zeros (-point).toNat ++ String.ofList digits
  else if digits.length ≤ point.toNat then
    String.ofList digits ++ zeros (point.toNat - digits.length) ++
      if fractionalZero then ".0" else ""
  else
    String.ofList (digits.take point.toNat) ++ "." ++ String.ofList (digits.drop point.toNat)

def scientificText (digits : List Char) (point : Int) : String :=
  let exponent := point - 1
  let sign := if exponent < 0 then "-" else "+"
  let fraction := match digits.drop 1 with
    | [] => ""
    | rest => "." ++ String.ofList rest
  String.ofList (digits.take 1) ++ fraction ++ "e" ++ sign ++ toString exponent.natAbs

namespace Layout

def positiveText (layout : Layout) (b : Binary) : String :=
  let decimal := b.shortest layout.tie
  let digits := Nat.toDigits 10 decimal.coefficient
  let point := digits.length + decimal.exponent
  match layout.positional with
  | none => positionalText digits point layout.fractionalZero
  | some (least, greatest) =>
    if least ≤ point ∧ point ≤ greatest then
      positionalText digits point layout.fractionalZero
    else
      scientificText digits point

def text (layout : Layout) (x : Float) : String :=
  let digits := layout.positiveText (.ofFloat x)
  if x < 0 then "-" ++ digits else digits

def text32 (layout : Layout) (x : Float32) : String :=
  let digits := layout.positiveText (.ofFloat32 x)
  if x < 0 then "-" ++ digits else digits

end Layout

end SandboxBridge.Decimal
