import Mathlib.Algebra.Order.Field.Power
import Mathlib.Data.Rat.Cast.Order
import Mathlib.Tactic.FieldSimp
import Mathlib.Tactic.Positivity
import SandboxBridge.Decimal.Shortest

/-!
The rational numbers that floats are, and what the bits of a float tell about them.
-/

namespace SandboxBridge.Decimal

open Float.Model Float.Model.UnpackedFloat

/-- The number that a finite float is. -/
def value? (x : Float) : Option ℚ :=
  match x.toModel.unpack with
  | .zero _ => some 0
  | .finite .positive m e _ => some (m * 2 ^ e)
  | .finite .negative m e _ => some (-(m * 2 ^ e))
  | .infinity _ | .notANumber => none

namespace Binary

def value (b : Binary) : ℚ :=
  b.significand * 2 ^ b.exponent

/-- A positive float of double precision. The float below it is only half as far away as the float
above if it has the least significand of its exponent, unless that is the least exponent. -/
structure Double (b : Binary) : Prop where
  positive : 0 < b.significand
  small : b.significand < 2 ^ 53
  least : -1074 ≤ b.exponent
  greatest : b.exponent ≤ 971
  below : b.narrowBelow = true ↔ b.significand = 2 ^ 52 ∧ -1074 < b.exponent

end Binary

variable {x : Float} {b : Binary}

theorem toNat_unpackMantissa (bits : BitVec Format.binary64.numBits) :
    (unpackMantissa bits).toNat = bits.toNat % 2 ^ 52 := by
  simp [unpackMantissa, BitVec.extractLsb, BitVec.extractLsb']

theorem toNat_unpackExponent (bits : BitVec Format.binary64.numBits) :
    (unpackExponent bits).toNat = bits.toNat / 2 ^ 52 % 2 ^ 11 := by
  simp [unpackExponent, BitVec.extractLsb, BitVec.extractLsb', Nat.shiftRight_eq_div_pow]

inductive Unpacks (fraction exponent : Nat) : UnpackedFloat → Prop
  | infinity (s : Sign) : Unpacks fraction exponent (.infinity s)
  | notANumber : Unpacks fraction exponent .notANumber
  | zero (s : Sign) (none : fraction = 0) (least : exponent = 0) :
    Unpacks fraction exponent (.zero s)
  | subnormal (s : Sign) (some_bit : 0 < fraction) (least : exponent = 0) :
    Unpacks fraction exponent (.finite s fraction (-1074) some_bit)
  | normal (s : Sign) (m : Nat) (whole : m = 2 ^ 52 + fraction) (pos : 0 < m) (more : 0 < exponent)
    (finite : exponent < 2047) : Unpacks fraction exponent (.finite s m (exponent - 1075) pos)

theorem unpacks (x : Float) : Unpacks (x.toBits.toNat % 2 ^ 52) (x.toBits.toNat / 2 ^ 52 % 2 ^ 11)
    x.toModel.unpack := by
  let bits : BitVec Format.binary64.numBits := x.toBits.toBitVec
  have exponent : (unpackExponent bits).toNat = x.toBits.toNat / 2 ^ 52 % 2 ^ 11 :=
    toNat_unpackExponent bits
  have mantissa : (unpackMantissa bits).toNat = x.toBits.toNat % 2 ^ 52 := toNat_unpackMantissa bits
  rw [← exponent, ← mantissa]
  change Unpacks _ _ (UnpackedFloat.unpack Format.binary64 bits)
  unfold UnpackedFloat.unpack
  dsimp only
  by_cases all : unpackExponent bits = -1#11
  · rw [if_pos all]
    by_cases fraction : unpackMantissa bits = 0#52
    · rw [if_pos fraction]
      exact .infinity _
    · rw [if_neg fraction]
      exact .notANumber
  rw [if_neg all]
  by_cases least : unpackExponent bits = 0#11
  · rw [if_pos least, least]
    by_cases none : unpackMantissa bits = 0#52
    · rw [dif_pos none]
      exact .zero _ (by rw [none]; rfl) rfl
    · rw [dif_neg none]
      exact .subnormal _ _ rfl
  · rw [if_neg least]
    have joined : (1#1 ++ unpackMantissa bits).toNat = 2 ^ 52 + (unpackMantissa bits).toNat := by
      have merged := Nat.two_pow_add_eq_or_of_lt (unpackMantissa bits).isLt 1
      rw [BitVec.toNat_append, Nat.shiftLeft_eq, Nat.mul_comm]
      exact merged.symm
    have more : (unpackExponent bits).toNat ≠ 0 := fun zero => least (BitVec.eq_of_toNat_eq zero)
    have finite : (unpackExponent bits).toNat ≠ 2047 := fun top => all (BitVec.eq_of_toNat_eq top)
    have bound : (unpackExponent bits).toNat < 2048 := (unpackExponent bits).isLt
    exact .normal _ _ joined _ (by omega) (by omega)

theorem ofFloat_of_finite {s : Sign} {m : Nat} {e : Int} {pos : 0 < m}
    (unpacked : x.toModel.unpack = .finite s m e pos) :
    Binary.ofFloat x = ⟨m, e, m = 2 ^ 52 ∧ -1074 < e⟩ ∧ (Binary.ofFloat x).Double := by
  have unpacks := unpacks x
  have small := Nat.mod_lt x.toBits.toNat (show 0 < 2 ^ 52 by decide)
  rw [unpacked] at unpacks
  unfold Binary.ofFloat Binary.ofFields
  simp only [Nat.pow_eq]
  generalize x.toBits.toNat % 2 ^ 52 = fraction at *
  generalize x.toBits.toNat / 2 ^ 52 % 2 ^ 11 = exponent at *
  cases unpacks with
  | subnormal _ _ least =>
    subst least
    rw [if_pos rfl]
    constructor
    · simp only [Binary.mk.injEq, true_and]
      constructor
      · omega
      · simp only [Int.lt_irrefl, and_false, decide_false]
    · constructor <;> simp <;> omega
  | normal _ _ whole _ more finite =>
    subst whole
    rw [if_neg more.ne']
    constructor
    · simp only [Binary.mk.injEq, true_and, decide_eq_decide]
      constructor <;> omega
    · constructor <;> simp only [decide_eq_true_eq] <;> omega

theorem significand_of_zero {s : Sign} (unpacked : x.toModel.unpack = .zero s) :
    (Binary.ofFloat x).significand = 0 := by
  have unpacks := unpacks x
  rw [unpacked] at unpacks
  unfold Binary.ofFloat Binary.ofFields
  simp only [Nat.pow_eq]
  cases unpacks with
  | zero _ none least => rw [if_pos least, none]

theorem value?_eq_none_iff : value? x = none ↔ (x.isNaN || x.isInf) = true := by
  change _ ↔ (x.toModel.unpack.isNaN || x.toModel.unpack.isInf) = true
  unfold value?
  cases x.toModel.unpack with
  | infinity | notANumber => exact iff_of_true rfl rfl
  | zero => exact iff_of_false nofun nofun
  | finite s => cases s <;> exact iff_of_false nofun nofun

theorem lt_zero_iff {s : Sign} {m : Nat} {e : Int} {pos : 0 < m}
    (unpacked : x.toModel.unpack = .finite s m e pos) : x < 0 ↔ s = .negative := by
  have zero : (0 : Float).toModel.unpack = .zero .positive := rfl
  change decide ((x.toModel.unpack.lt (0 : Float).toModel.unpack) = true) = true ↔ _
  rw [unpacked, zero]
  cases s with
  | negative => exact iff_of_true rfl rfl
  | positive => exact iff_of_false nofun nofun

theorem value?_eq {q : ℚ} (finite : value? x = some q) :
    q = if x < 0 then -(Binary.ofFloat x).value else (Binary.ofFloat x).value := by
  unfold value? at finite
  unfold Binary.value
  cases unpacked : x.toModel.unpack with
  | infinity | notANumber =>
    rw [unpacked] at finite
    cases finite
  | zero s =>
    rw [unpacked] at finite
    cases finite
    rw [significand_of_zero unpacked, Nat.cast_zero, zero_mul, neg_zero, ite_self]
  | finite s m e pos =>
    rw [unpacked] at finite
    rw [(ofFloat_of_finite unpacked).1]
    cases s with
    | negative =>
      rw [if_pos ((lt_zero_iff unpacked).mpr rfl)]
      exact (Option.some.inj finite).symm
    | positive =>
      rw [if_neg ((lt_zero_iff unpacked).not.mpr nofun)]
      exact (Option.some.inj finite).symm

theorem value_eq_abs {q : ℚ} (finite : value? x = some q) : (Binary.ofFloat x).value = |q| := by
  have nonneg : 0 ≤ (Binary.ofFloat x).value := by
    unfold Binary.value
    positivity
  rw [value?_eq finite]
  split
  · rw [abs_neg, abs_of_nonneg nonneg]
  · rw [abs_of_nonneg nonneg]

theorem zpow_eq_div (a : ℚ) (nonzero : a ≠ 0) (k : Int) :
    a ^ k = a ^ k.toNat / a ^ (-k).toNat := by
  rw [← zpow_natCast, ← zpow_natCast, ← zpow_sub₀ nonzero]
  congr 1
  omega

theorem whole?_eq_some_iff {n : Nat} : b.whole? = some n ↔ b.value = n := by
  have unit : (0 : ℚ) < 2 ^ (-b.exponent).toNat := by positivity
  unfold Binary.whole? Binary.value
  simp only [Nat.pow_eq]
  rw [zpow_eq_div 2 two_ne_zero, ← mul_div_assoc, div_eq_iff unit.ne']
  norm_cast
  rcases Int.le_total 0 b.exponent with above | below
  · rw [show (-b.exponent).toNat = 0 by omega, pow_zero, Nat.mod_one, if_pos rfl, Nat.div_one,
      mul_one, Option.some_inj]
  · rw [show b.exponent.toNat = 0 by omega, pow_zero, mul_one, mul_one]
    split
    next divides =>
      rw [Option.some_inj, Nat.div_eq_iff_eq_mul_left (by positivity) (Nat.dvd_of_mod_eq_zero divides)]
    next fraction =>
      refine iff_of_false nofun fun same => fraction ?_
      rw [same, Nat.mul_mod_left]

end SandboxBridge.Decimal
