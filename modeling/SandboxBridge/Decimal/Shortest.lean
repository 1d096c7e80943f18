/-!
The shortest decimal text of a binary float: among the decimals that round to the float, one with
the fewest digits, and of those the nearest. `Binary.shortest` finds it in exact arithmetic.
-/

namespace SandboxBridge.Decimal

structure Scaled where
  coefficient : Nat
  exponent : Int
  deriving DecidableEq, Repr

/-- A positive binary float `significand · 2 ^ exponent`. Where the float below is only half as far
away as the float above, `narrowBelow` is set. -/
structure Binary where
  significand : Nat
  exponent : Int
  narrowBelow : Bool
  deriving DecidableEq, Repr

inductive Tie where
  | up
  | toEven
  deriving DecidableEq, Repr

/-- The positive float with the given bits: `fraction` bits of fraction, then the exponent field,
whose value for `1.0` is `bias`. The sign bit is not looked at. -/
def Binary.ofFields (fraction bias : Nat) (exponentField fractionField : Nat) : Binary :=
  if exponentField = 0 then
    ⟨fractionField, 1 - (bias + fraction : Int), false⟩
  else
    ⟨Nat.pow 2 fraction + fractionField, exponentField - (bias + fraction : Int),
      fractionField = 0 ∧ 1 < exponentField⟩

def Binary.ofFloat (x : Float) : Binary :=
  let bits := x.toBits.toNat
  .ofFields 52 1023 (bits / Nat.pow 2 52 % Nat.pow 2 11) (bits % Nat.pow 2 52)

def Binary.ofFloat32 (x : Float32) : Binary :=
  let bits := x.toBits.toNat
  .ofFields 23 127 (bits / Nat.pow 2 23 % Nat.pow 2 8) (bits % Nat.pow 2 23)

/-- The natural number that a float is, if it has no fraction. -/
def Binary.whole? (b : Binary) : Option Nat :=
  let unit := Nat.pow 2 (-b.exponent).toNat
  if b.significand % unit = 0 then some (b.significand / unit * Nat.pow 2 b.exponent.toNat) else none

/-- The reals that round to a float, as an interval of quarter units over one denominator. The ends
belong to it when the significand is even. -/
structure Interval where
  low : Nat
  value : Nat
  high : Nat
  denominator : Nat
  closed : Bool

def Binary.interval (b : Binary) : Interval :=
  let up := Nat.pow 2 b.exponent.toNat
  { low := (4 * b.significand - if b.narrowBelow then 1 else 2) * up
    value := 4 * b.significand * up
    high := (4 * b.significand + 2) * up
    denominator := 4 * Nat.pow 2 (-b.exponent).toNat
    closed := b.significand % 2 = 0 }

def Interval.contains (i : Interval) (grid : Int) (point : Nat) : Bool :=
  let scaled := point * Nat.pow 10 grid.toNat * i.denominator
  let shrink := Nat.pow 10 (-grid).toNat
  if i.closed then i.low * shrink ≤ scaled ∧ scaled ≤ i.high * shrink
  else i.low * shrink < scaled ∧ scaled < i.high * shrink

/-- The point of the grid `10 ^ grid` inside the interval that is nearest to its value, if any. -/
def Interval.nearest? (i : Interval) (tie : Tie) (grid : Int) : Option Nat :=
  let unit := Nat.pow 10 grid.toNat * i.denominator
  let value := i.value * Nat.pow 10 (-grid).toNat
  let below := value / unit
  let rest := value % unit
  let down := 0 < below ∧ i.contains grid below
  let up := i.contains grid (below + 1)
  if down ∧ up then
    if 2 * rest < unit then some below
    else if unit < 2 * rest then some (below + 1)
    else match tie with
      | .up => some (below + 1)
      | .toEven => some (if below % 2 = 0 then below else below + 1)
  else if down then some below
  else if up then some (below + 1)
  else none

/-- Tries the grids from `grid` down and takes the first that meets the interval. -/
def Interval.search (i : Interval) (tie : Tie) : Nat → Int → Scaled
  | 0, grid => ⟨i.value * Nat.pow 10 (-grid).toNat / (Nat.pow 10 grid.toNat * i.denominator), grid⟩
  | steps + 1, grid =>
    match i.nearest? tie grid with
    | some point => ⟨point, grid⟩
    | none => i.search tie steps (grid - 1)

/-- A power of ten above the float: `30103 / 100000` is just more than the logarithm of two. -/
def Binary.gridAbove (b : Binary) : Int :=
  (Nat.log2 b.significand + 1 + b.exponent) * 30103 / 100000 + 2

/-- The shortest decimal that rounds to the float. Seventeen digits always suffice, so the search
ends well within its forty steps. -/
def Binary.shortest (b : Binary) (tie : Tie) : Scaled :=
  b.interval.search tie 40 b.gridAbove

end SandboxBridge.Decimal
