import Mathlib.Data.Rat.Floor
import Mathlib.Tactic.Linarith
import Mathlib.Tactic.Ring
import SandboxBridge.Proofs.Decimal.Floats

/-!
The shortest decimal of a float. Decimals of one exponent form a grid, and grids are nested. The
shortest decimal is on the coarsest grid with a point that rounds to the float, and of those points
it is the nearest.
-/

namespace SandboxBridge.Decimal

/-- Halfway to the float below `m · 2 ^ e`, which is only half as far away as the float above if `m`
is the least significand of its exponent, unless that is the least exponent. -/
def lowerEnd (m : ℕ) (e : ℤ) : ℚ :=
  (m - if m = 2 ^ 52 ∧ -1074 < e then 1 / 4 else 1 / 2) * 2 ^ e

def upperEnd (m : ℕ) (e : ℤ) : ℚ :=
  (m + 1 / 2) * 2 ^ e

/-- Numbers that round to the float `m · 2 ^ e`, half to even. -/
def Rounds (m : ℕ) (e : ℤ) (q : ℚ) : Prop :=
  if m % 2 = 0 then lowerEnd m e ≤ q ∧ q ≤ upperEnd m e else lowerEnd m e < q ∧ q < upperEnd m e

/-- Of the multiples of `10 ^ g` that round to the float, `c · 10 ^ g` is the nearest, half to even. -/
structure Nearest (m : ℕ) (e : ℤ) (c : ℕ) (g : ℤ) : Prop where
  rounds : Rounds m e (c * 10 ^ g)
  nearest : ∀ c' : ℕ, Rounds m e (c' * 10 ^ g) →
    |(c * 10 ^ g - m * 2 ^ e : ℚ)| ≤ |(c' * 10 ^ g - m * 2 ^ e : ℚ)|
  even : ∀ c' : ℕ, Rounds m e (c' * 10 ^ g) →
    |(c * 10 ^ g - m * 2 ^ e : ℚ)| = |(c' * 10 ^ g - m * 2 ^ e : ℚ)| → c' = c ∨ c % 2 = 0

/-- No multiple of a greater power of ten rounds to the float. -/
structure Shortest (m : ℕ) (e : ℤ) (c : ℕ) (g : ℤ) : Prop extends Nearest m e c g where
  coarsest : ∀ c' : ℕ, ¬Rounds m e (c' * 10 ^ (g + 1))

variable {m c c' : ℕ} {e g g' : ℤ} {p q r : ℚ} {b : Binary}

theorem Rounds.between (below : Rounds m e p) (above : Rounds m e r) (low : p ≤ q) (high : q ≤ r) :
    Rounds m e q := by
  unfold Rounds at *
  split at below
  next even =>
    rw [if_pos even] at above ⊢
    exact ⟨below.1.trans low, high.trans above.2⟩
  next odd =>
    rw [if_neg odd] at above ⊢
    exact ⟨below.1.trans_le low, high.trans_lt above.2⟩

theorem rounds_of_lt (low : lowerEnd m e < q) (high : q < upperEnd m e) : Rounds m e q := by
  unfold Rounds
  split
  · exact ⟨low.le, high.le⟩
  · exact ⟨low, high⟩

theorem Rounds.bounds (rounds : Rounds m e q) : lowerEnd m e ≤ q ∧ q ≤ upperEnd m e := by
  unfold Rounds at rounds
  split at rounds
  · exact rounds
  · exact ⟨rounds.1.le, rounds.2.le⟩

theorem lowerEnd_pos (pos : 0 < m) : 0 < lowerEnd m e := by
  have one : (1 : ℚ) ≤ m := by exact_mod_cast pos
  unfold lowerEnd
  apply mul_pos _ (by positivity)
  split <;> linarith

theorem lowerEnd_add_le : lowerEnd m e + 2 ^ e / 4 ≤ m * 2 ^ e := by
  have unit : (0 : ℚ) < 2 ^ e := by positivity
  unfold lowerEnd
  split <;> linarith

theorem lt_upperEnd : (m * 2 ^ e : ℚ) < upperEnd m e := by
  have unit : (0 : ℚ) < 2 ^ e := by positivity
  unfold upperEnd
  linarith

theorem rounds_self (m : ℕ) (e : ℤ) : Rounds m e (m * 2 ^ e) := by
  have unit : (0 : ℚ) < 2 ^ e := by positivity
  refine rounds_of_lt ?_ lt_upperEnd
  linarith [lowerEnd_add_le (m := m) (e := e)]

theorem Rounds.pos (rounds : Rounds m e (c * 10 ^ g)) (pos : 0 < m) : 0 < c := by
  by_contra none
  have zero : c = 0 := by omega
  have low := rounds.bounds.1
  rw [zero, Nat.cast_zero, zero_mul] at low
  exact absurd low (lowerEnd_pos pos).not_ge

theorem exists_nearer (before : (c * 10 ^ g : ℚ) ≤ m * 2 ^ e)
    (after : (m * 2 ^ e : ℚ) < (c + 1 : ℕ) * 10 ^ g) (rounds : Rounds m e (c' * 10 ^ g))
    (apart : c' ≠ c) (apart' : c' ≠ c + 1) :
    ∃ n : ℕ, (n = c ∨ n = c + 1) ∧ Rounds m e (n * 10 ^ g) ∧
      |(n * 10 ^ g - m * 2 ^ e : ℚ)| < |(c' * 10 ^ g - m * 2 ^ e : ℚ)| := by
  have unit : (0 : ℚ) < 10 ^ g := by positivity
  rcases Nat.lt_or_gt_of_ne apart with less | more
  · have less : (c' * 10 ^ g : ℚ) < c * 10 ^ g := by gcongr
    refine ⟨c, .inl rfl, rounds.between (rounds_self m e) less.le before, ?_⟩
    rw [abs_sub_comm, abs_of_nonneg (by linarith), abs_sub_comm, abs_of_nonneg (by linarith)]
    linarith
  · have more : ((c + 1 : ℕ) * 10 ^ g : ℚ) < c' * 10 ^ g := by
      gcongr
      omega
    refine ⟨c + 1, .inr rfl, (rounds_self m e).between rounds after.le more.le, ?_⟩
    rw [abs_of_nonneg (by linarith), abs_of_nonneg (by linarith)]
    linarith

theorem nearest_of_neighbours {n other : ℕ} (before : (c * 10 ^ g : ℚ) ≤ m * 2 ^ e)
    (after : (m * 2 ^ e : ℚ) < (c + 1 : ℕ) * 10 ^ g)
    (two : ∀ k, k = c ∨ k = c + 1 → k = n ∨ k = other) (rounds : Rounds m e (n * 10 ^ g))
    (nearer : Rounds m e (other * 10 ^ g) →
      |(n * 10 ^ g - m * 2 ^ e : ℚ)| ≤ |(other * 10 ^ g - m * 2 ^ e : ℚ)|)
    (even : Rounds m e (other * 10 ^ g) →
      |(n * 10 ^ g - m * 2 ^ e : ℚ)| = |(other * 10 ^ g - m * 2 ^ e : ℚ)| → n % 2 = 0) :
    Nearest m e n g := by
  have each : ∀ c' : ℕ, Rounds m e (c' * 10 ^ g) → c' = n ∨ c' = other ∨
      |(n * 10 ^ g - m * 2 ^ e : ℚ)| < |(c' * 10 ^ g - m * 2 ^ e : ℚ)| := by
    intro c' rounds'
    by_cases next : c' = c ∨ c' = c + 1
    · exact (two c' next).imp id .inl
    · obtain ⟨apart, apart'⟩ := not_or.mp next
      obtain ⟨k, near, rounds, farther⟩ := exists_nearer before after rounds' apart apart'
      rcases two k near with rfl | rfl
      · exact .inr (.inr farther)
      · exact .inr (.inr ((nearer rounds).trans_lt farther))
  refine ⟨rounds, fun c' rounds' => ?_, fun c' rounds' same => ?_⟩
  · rcases each c' rounds' with rfl | rfl | farther
    · exact le_rfl
    · exact nearer rounds'
    · exact farther.le
  · rcases each c' rounds' with equal | rfl | farther
    · exact .inl equal
    · exact .inr (even rounds' same)
    · exact absurd same farther.ne

theorem exists_finer (c : ℕ) (finer : g ≤ g') : ∃ c' : ℕ, (c * 10 ^ g' : ℚ) = c' * 10 ^ g := by
  refine ⟨c * 10 ^ (g' - g).toNat, ?_⟩
  have steps : ((g' - g).toNat : ℤ) = g' - g := by omega
  rw [Nat.cast_mul, mul_assoc, Nat.cast_pow, Nat.cast_ofNat, ← zpow_natCast, steps,
    ← zpow_add₀ (by norm_num), sub_add_cancel]

theorem Shortest.grid_le (shortest : Shortest m e c g) (rounds : Rounds m e (c' * 10 ^ g')) :
    g' ≤ g := by
  by_contra coarser
  obtain ⟨finer, same⟩ := exists_finer c' (show g + 1 ≤ g' by omega)
  rw [same] at rounds
  exact shortest.coarsest finer rounds

theorem Nearest.le_succ (nearest : Nearest m e c g) (nearest' : Nearest m e c' g) :
    c' ≤ c + 1 := by
  by_contra apart
  have unit : (0 : ℚ) < 10 ^ g := by positivity
  have one : (c * 10 ^ g : ℚ) + 10 ^ g = ((c + 1 : ℕ) : ℚ) * 10 ^ g := by
    push_cast
    ring
  have more : ((c + 1 : ℕ) * 10 ^ g : ℚ) + 10 ^ g ≤ c' * 10 ^ g := by
    have steps : ((c + 1 : ℕ) : ℚ) + 1 ≤ c' := by exact_mod_cast (by omega : c + 1 + 1 ≤ c')
    linarith [mul_le_mul_of_nonneg_right steps unit.le]
  have between : Rounds m e ((c + 1 : ℕ) * 10 ^ g) :=
    nearest.rounds.between nearest'.rounds (by linarith) (by linarith)
  have left := nearest.nearest _ between
  have right := nearest'.nearest _ between
  rw [← one] at left right more
  rcases abs_cases (c * 10 ^ g + 10 ^ g - m * 2 ^ e : ℚ) with ⟨middle, _⟩ | ⟨middle, _⟩
  · linarith [le_abs_self (c' * 10 ^ g - m * 2 ^ e : ℚ)]
  · linarith [neg_abs_le (c * 10 ^ g - m * 2 ^ e : ℚ)]

theorem Nearest.unique (nearest : Nearest m e c g) (nearest' : Nearest m e c' g) : c' = c := by
  have same : |(c * 10 ^ g - m * 2 ^ e : ℚ)| = |(c' * 10 ^ g - m * 2 ^ e : ℚ)| :=
    le_antisymm (nearest.nearest c' nearest'.rounds) (nearest'.nearest c nearest.rounds)
  have low := nearest.le_succ nearest'
  have high := nearest'.le_succ nearest
  rcases nearest.even c' nearest'.rounds same with equal | even
  · exact equal
  · rcases nearest'.even c nearest.rounds same.symm with equal | even'
    · exact equal.symm
    · omega

theorem Shortest.unique (shortest : Shortest m e c g) (shortest' : Shortest m e c' g') :
    c' = c ∧ g' = g := by
  have same : g' = g :=
    le_antisymm (shortest.grid_le shortest'.rounds) (shortest'.grid_le shortest.rounds)
  subst same
  exact ⟨shortest.toNearest.unique shortest'.toNearest, rfl⟩

/-! The search. -/

namespace Binary

theorem interval_low (double : b.Double) :
    (b.interval.low / b.interval.denominator : ℚ) = lowerEnd b.significand b.exponent := by
  have positive := double.positive
  unfold interval lowerEnd
  rw [zpow_eq_div 2 two_ne_zero]
  by_cases narrow : b.narrowBelow = true
  · rw [if_pos narrow, if_pos (double.below.mp narrow)]
    push_cast [show 1 ≤ 4 * b.significand by omega, Nat.pow_eq]
    ring
  · rw [if_neg narrow, if_neg (double.below.not.mp narrow)]
    push_cast [show 2 ≤ 4 * b.significand by omega, Nat.pow_eq]
    ring

theorem interval_value (b : Binary) :
    (b.interval.value / b.interval.denominator : ℚ) = b.significand * 2 ^ b.exponent := by
  unfold interval
  rw [zpow_eq_div 2 two_ne_zero]
  push_cast [Nat.pow_eq]
  ring

theorem interval_high (b : Binary) :
    (b.interval.high / b.interval.denominator : ℚ) = upperEnd b.significand b.exponent := by
  unfold interval upperEnd
  rw [zpow_eq_div 2 two_ne_zero]
  push_cast [Nat.pow_eq]
  ring

theorem interval_denominator_pos (b : Binary) : 0 < b.interval.denominator := by
  unfold interval
  simp only [Nat.pow_eq]
  positivity

end Binary

theorem le_point_iff {n d : ℕ} (pos : 0 < d) :
    n * 10 ^ (-g).toNat ≤ c * 10 ^ g.toNat * d ↔ (n / d : ℚ) ≤ c * 10 ^ g := by
  have unit : (0 : ℚ) < d := by exact_mod_cast pos
  have shrink : (0 : ℚ) < 10 ^ (-g).toNat := by positivity
  rw [zpow_eq_div 10 (by norm_num), ← mul_div_assoc, div_le_div_iff₀ unit shrink]
  norm_cast

theorem point_le_iff {n d : ℕ} (pos : 0 < d) :
    c * 10 ^ g.toNat * d ≤ n * 10 ^ (-g).toNat ↔ (c * 10 ^ g : ℚ) ≤ n / d := by
  have unit : (0 : ℚ) < d := by exact_mod_cast pos
  have shrink : (0 : ℚ) < 10 ^ (-g).toNat := by positivity
  rw [zpow_eq_div 10 (by norm_num), ← mul_div_assoc, div_le_div_iff₀ shrink unit]
  norm_cast

theorem contains_iff (double : b.Double) :
    b.interval.contains g c = true ↔ Rounds b.significand b.exponent (c * 10 ^ g) := by
  have pos := b.interval_denominator_pos
  unfold Interval.contains Rounds
  simp only [Nat.pow_eq]
  rw [← b.interval_high, ← Binary.interval_low double]
  by_cases even : b.significand % 2 = 0
  · have closed : b.interval.closed = true := decide_eq_true even
    rw [if_pos even, closed, if_pos rfl, decide_eq_true_iff, le_point_iff pos, point_le_iff pos]
  · have closed : b.interval.closed = false := decide_eq_false even
    rw [if_neg even, closed, if_neg Bool.false_ne_true, decide_eq_true_iff, ← not_le, ← not_le,
      le_point_iff pos, point_le_iff pos, not_le, not_le]

theorem Binary.position (b : Binary) (g : ℤ) :
    let unit := 10 ^ g.toNat * b.interval.denominator
    let scaled := b.interval.value * 10 ^ (-g).toNat
    scaled % unit < unit ∧
      (b.significand * 2 ^ b.exponent : ℚ) =
        ((scaled / unit : ℕ) + (scaled % unit : ℕ) / unit) * 10 ^ g := by
  intro unit scaled
  have pos := b.interval_denominator_pos
  have unit_pos : 0 < unit := by positivity
  refine ⟨Nat.mod_lt _ unit_pos, ?_⟩
  have unit_ne : (unit : ℚ) ≠ 0 := by exact_mod_cast unit_pos.ne'
  have denominator_ne : (b.interval.denominator : ℚ) ≠ 0 := by exact_mod_cast pos.ne'
  have parts : (scaled : ℚ) = unit * (scaled / unit : ℕ) + (scaled % unit : ℕ) := by
    exact_mod_cast (Nat.div_add_mod scaled unit).symm
  calc
    (b.significand * 2 ^ b.exponent : ℚ) = b.interval.value / b.interval.denominator :=
      b.interval_value.symm
    _ = scaled / unit * 10 ^ g := by
      rw [zpow_eq_div 10 (by norm_num)]
      unfold scaled unit
      push_cast
      field_simp
    _ = _ := by
      rw [parts]
      field_simp

/-- A float between two points of a grid, `rest` parts of a step past the first. -/
structure Between (m : ℕ) (e : ℤ) (c : ℕ) (g : ℤ) (rest unit : ℕ) : Prop where
  before : (c * 10 ^ g : ℚ) ≤ m * 2 ^ e
  after : (m * 2 ^ e : ℚ) < (c + 1 : ℕ) * 10 ^ g
  below_iff : |(c * 10 ^ g - m * 2 ^ e : ℚ)| ≤ |((c + 1 : ℕ) * 10 ^ g - m * 2 ^ e : ℚ)| ↔
    2 * rest ≤ unit
  above_iff : |((c + 1 : ℕ) * 10 ^ g - m * 2 ^ e : ℚ)| ≤ |(c * 10 ^ g - m * 2 ^ e : ℚ)| ↔
    unit ≤ 2 * rest

theorem between_of_position {rest unit : ℕ} (less : rest < unit)
    (position : (m * 2 ^ e : ℚ) = (c + rest / unit) * 10 ^ g) : Between m e c g rest unit := by
  have step : (0 : ℚ) < 10 ^ g := by positivity
  have unit_pos : (0 : ℚ) < unit := by exact_mod_cast Nat.zero_lt_of_lt less
  have part : (rest / unit : ℚ) < 1 := (div_lt_one unit_pos).mpr (by exact_mod_cast less)
  have part_nonneg : (0 : ℚ) ≤ rest / unit := by positivity
  have left : |(c * 10 ^ g - m * 2 ^ e : ℚ)| = rest / unit * 10 ^ g := by
    rw [position, ← sub_mul, sub_add_cancel_left, abs_mul, abs_neg, abs_of_nonneg part_nonneg,
      abs_of_pos step]
  have right : |((c + 1 : ℕ) * 10 ^ g - m * 2 ^ e : ℚ)| = (1 - rest / unit) * 10 ^ g := by
    rw [position, ← sub_mul, Nat.cast_succ, add_sub_add_left_eq_sub, abs_mul,
      abs_of_pos (sub_pos.mpr part), abs_of_pos step]
  constructor
  · rw [position]
    gcongr
    linarith
  · rw [position, Nat.cast_succ]
    gcongr
  · rw [left, right, mul_le_mul_iff_left₀ step, le_sub_iff_add_le, ← two_mul, ← mul_div_assoc,
      div_le_one unit_pos]
    norm_cast
  · rw [left, right, mul_le_mul_iff_left₀ step, sub_le_iff_le_add, ← two_mul, ← mul_div_assoc,
      one_le_div unit_pos]
    norm_cast

namespace Between

variable {rest unit : ℕ}

theorem nearest_below (between : Between m e c g rest unit) (rounds : Rounds m e (c * 10 ^ g))
    (nearer : Rounds m e ((c + 1 : ℕ) * 10 ^ g) →
      2 * rest < unit ∨ 2 * rest = unit ∧ c % 2 = 0) : Nearest m e c g := by
  refine nearest_of_neighbours between.before between.after (fun _ => id) rounds
    (fun up => between.below_iff.mpr ?_) fun up same => ?_
  · rcases nearer up with less | ⟨tie, -⟩ <;> omega
  · have tie := between.above_iff.mp same.ge
    rcases nearer up with less | ⟨-, even⟩
    · omega
    · exact even

theorem nearest_above (between : Between m e c g rest unit)
    (rounds : Rounds m e ((c + 1 : ℕ) * 10 ^ g))
    (nearer : Rounds m e (c * 10 ^ g) →
      unit < 2 * rest ∨ 2 * rest = unit ∧ (c + 1) % 2 = 0) : Nearest m e (c + 1) g := by
  refine nearest_of_neighbours between.before between.after (fun _ => Or.symm) rounds
    (fun down => between.above_iff.mpr ?_) fun down same => ?_
  · rcases nearer down with less | ⟨tie, -⟩ <;> omega
  · have tie := between.below_iff.mp same.ge
    rcases nearer down with less | ⟨-, even⟩
    · omega
    · exact even

theorem not_rounds (between : Between m e c g rest unit) (below : ¬Rounds m e (c * 10 ^ g))
    (above : ¬Rounds m e ((c + 1 : ℕ) * 10 ^ g)) (c' : ℕ) : ¬Rounds m e (c' * 10 ^ g) := by
  intro rounds
  by_cases next : c' = c ∨ c' = c + 1
  · rcases next with rfl | rfl
    · exact below rounds
    · exact above rounds
  · obtain ⟨apart, apart'⟩ := not_or.mp next
    obtain ⟨_, rfl | rfl, rounds, -⟩ :=
      exists_nearer between.before between.after rounds apart apart'
    · exact below rounds
    · exact above rounds

end Between

/-- The nearest point of a grid is found if some point of the grid rounds to the float. -/
theorem nearest?_spec (double : b.Double) (g : ℤ) :
    (b.interval.nearest? .toEven g).elim
      (∀ c : ℕ, ¬Rounds b.significand b.exponent (c * 10 ^ g))
      (Nearest b.significand b.exponent · g) := by
  obtain ⟨less, position⟩ := b.position g
  have between := between_of_position less position
  unfold Interval.nearest?
  simp only [Nat.pow_eq]
  generalize b.interval.value * 10 ^ (-g).toNat / (10 ^ g.toNat * b.interval.denominator) = below
    at between ⊢
  generalize b.interval.value * 10 ^ (-g).toNat % (10 ^ g.toNat * b.interval.denominator) = rest
    at between ⊢
  generalize 10 ^ g.toNat * b.interval.denominator = unit at between ⊢
  have down_iff : (0 < below ∧ b.interval.contains g below = true) ↔
      Rounds b.significand b.exponent (below * 10 ^ g) := by
    rw [contains_iff double]
    exact and_iff_right_of_imp fun rounds => rounds.pos double.positive
  have up_iff : b.interval.contains g (below + 1) = true ↔
      Rounds b.significand b.exponent ((below + 1 : ℕ) * 10 ^ g) := contains_iff double
  split
  next both =>
    have down := down_iff.mp both.1
    have up := up_iff.mp both.2
    split
    next nearer => exact between.nearest_below down fun _ => .inl nearer
    next =>
      split
      next nearer => exact between.nearest_above up fun _ => .inl nearer
      next =>
        -- The two are equally near.
        split
        next even => exact between.nearest_below down fun _ => .inr ⟨by omega, even⟩
        next odd => exact between.nearest_above up fun _ => .inr ⟨by omega, by omega⟩
  next notBoth =>
    split
    next down =>
      exact between.nearest_below (down_iff.mp down) fun up => absurd ⟨down, up_iff.mpr up⟩ notBoth
    next noDown =>
      have noDown := down_iff.not.mp noDown
      split
      next up => exact between.nearest_above (up_iff.mp up) fun down => absurd down noDown
      next noUp => exact between.not_rounds noDown (up_iff.not.mp noUp)

/-- `30103 / 100000` is so near to the logarithm of two that the powers of ten that it leads to are
right for all exponents that floats have. -/
theorem pow_between : ∀ n < 1025, 2 ^ n ≤ 10 ^ (n * 30103 / 100000 + 2) ∧
    10 ^ (n * 30103 / 100000 + 2) * 2 ^ 55 ≤ 2 ^ n * 10 ^ 39 := by
  decide +kernel

theorem pow_between_inv : ∀ n < 1074, 10 ^ ((n * 30103 + 99999) / 100000) ≤ 100 * 2 ^ n ∧
    2 ^ (n + 55) ≤ 10 ^ ((n * 30103 + 99999) / 100000 + 37) := by
  decide +kernel

theorem zpow_between {k : ℤ} (low : -1074 < k) (high : k ≤ 1024) :
    (2 ^ k : ℚ) ≤ 10 ^ (k * 30103 / 100000 + 2) ∧
      (10 ^ (k * 30103 / 100000 + 2 - 39) * 2 ^ 55 : ℚ) ≤ 2 ^ k := by
  have ten : (10 : ℚ) ≠ 0 := by norm_num
  rcases Int.le_total 0 k with above | below
  · obtain ⟨n, rfl⟩ := Int.eq_ofNat_of_zero_le above
    obtain ⟨upper, lower⟩ := pow_between n (by omega)
    have exponent : (n : ℤ) * 30103 / 100000 + 2 = (n * 30103 / 100000 + 2 : ℕ) := by omega
    rw [zpow_sub₀ ten, exponent, zpow_natCast, zpow_natCast, div_mul_eq_mul_div,
      div_le_iff₀ (by positivity)]
    exact ⟨by exact_mod_cast upper, by exact_mod_cast lower⟩
  · obtain ⟨n, rfl⟩ := Int.exists_eq_neg_ofNat below
    obtain ⟨upper, lower⟩ := pow_between_inv n (by omega)
    have exponent : -(n : ℤ) * 30103 / 100000 + 2 =
        2 - ((n * 30103 + 99999) / 100000 : ℕ) := by omega
    have exponent' : -(n : ℤ) * 30103 / 100000 + 2 - 39 =
        -((n * 30103 + 99999) / 100000 + 37 : ℕ) := by omega
    rw [exponent', exponent, zpow_sub₀ ten, zpow_neg, zpow_neg, zpow_natCast, zpow_natCast,
      zpow_natCast, inv_mul_eq_div, div_le_iff₀ (by positivity), ← div_eq_inv_mul,
      le_div_iff₀ (by positivity), le_div_iff₀ (by positivity), ← div_eq_inv_mul,
      div_le_iff₀ (by positivity), ← pow_add, Nat.add_comm 55]
    exact ⟨by exact_mod_cast upper, by exact_mod_cast lower⟩

theorem Binary.Double.magnitude (double : b.Double) :
    upperEnd b.significand b.exponent ≤ 10 ^ b.gridAbove ∧
      (10 ^ (b.gridAbove - 39) * 4 : ℚ) ≤ 2 ^ b.exponent := by
  obtain ⟨positive, small, least, greatest, -⟩ := double
  have bits : b.significand.log2 + 1 ≤ 53 := (Nat.log2_lt positive.ne').mpr small
  have below : b.significand + 1 ≤ 2 ^ (b.significand.log2 + 1) := Nat.lt_log2_self
  have unit : (0 : ℚ) < 2 ^ b.exponent := by positivity
  have whole : (2 ^ (b.significand.log2 + 1 + b.exponent) : ℚ) =
      2 ^ (b.significand.log2 + 1) * 2 ^ b.exponent := by
    rw [zpow_add₀ two_ne_zero]
    norm_cast
  obtain ⟨upper, lower⟩ := zpow_between (k := b.significand.log2 + 1 + b.exponent) (by omega)
    (by omega)
  rw [whole] at upper lower
  unfold upperEnd Binary.gridAbove
  constructor
  · calc
      ((b.significand + 1 / 2) * 2 ^ b.exponent : ℚ) ≤
          2 ^ (b.significand.log2 + 1) * 2 ^ b.exponent := by
        have below : (b.significand + 1 : ℚ) ≤ 2 ^ (b.significand.log2 + 1) := by
          exact_mod_cast below
        gcongr
        linarith
      _ ≤ _ := upper
  · have most : (2 ^ (b.significand.log2 + 1) * 2 ^ b.exponent : ℚ) ≤ 2 ^ 53 * 2 ^ b.exponent := by
      gcongr
      norm_num
    linarith

theorem search_spec (double : b.Double) {steps : ℕ}
    (above : ∀ c : ℕ, ¬Rounds b.significand b.exponent (c * 10 ^ (g + 1)))
    (within : ∃ k < steps, ∃ c : ℕ, Rounds b.significand b.exponent (c * 10 ^ (g - k))) :
    Shortest b.significand b.exponent (b.interval.search .toEven steps g).coefficient
      (b.interval.search .toEven steps g).exponent := by
  induction steps generalizing g with
  | zero =>
    obtain ⟨k, less, -⟩ := within
    exact absurd less (Nat.not_lt_zero k)
  | succ steps ih =>
    have spec := nearest?_spec double g
    unfold Interval.search
    cases found : b.interval.nearest? .toEven g with
    | some c =>
      rw [found] at spec
      exact ⟨spec, above⟩
    | none =>
      rw [found] at spec
      obtain ⟨k, less, c, rounds⟩ := within
      refine ih (by rwa [sub_add_cancel]) ?_
      cases k with
      | zero =>
        rw [Nat.cast_zero, sub_zero] at rounds
        exact absurd rounds (spec c)
      | succ k =>
        refine ⟨k, Nat.lt_of_succ_lt_succ less, c, ?_⟩
        rwa [Nat.cast_succ, add_comm, ← sub_sub] at rounds

/-- The search finds the shortest decimal of a float. -/
theorem shortest_spec (double : b.Double) :
    Shortest b.significand b.exponent (b.shortest .toEven).coefficient
      (b.shortest .toEven).exponent := by
  obtain ⟨upper, lower⟩ := double.magnitude
  have step : (0 : ℚ) < 10 ^ (b.gridAbove - 39) := by positivity
  refine search_spec double (fun c rounds => ?_) ⟨39, by omega, ?_⟩
  · have one : (1 : ℚ) ≤ c := by exact_mod_cast rounds.pos double.positive
    have less : (10 ^ b.gridAbove : ℚ) < 10 ^ (b.gridAbove + 1) := by
      gcongr <;> norm_num
    have high := rounds.bounds.2.trans upper
    have coarse : (0 : ℚ) ≤ 10 ^ (b.gridAbove + 1) := by positivity
    linarith [le_mul_of_one_le_left coarse one]
  · -- The grid is so fine that the last point before the float rounds to it.
    refine ⟨⌊(b.significand * 2 ^ b.exponent : ℚ) / 10 ^ (b.gridAbove - 39)⌋₊, ?_⟩
    have before := Nat.floor_le
      (show (0 : ℚ) ≤ b.significand * 2 ^ b.exponent / 10 ^ (b.gridAbove - 39) by positivity)
    have after := Nat.lt_floor_add_one
      ((b.significand * 2 ^ b.exponent : ℚ) / 10 ^ (b.gridAbove - 39))
    rw [le_div_iff₀ step] at before
    rw [div_lt_iff₀ step, add_mul, one_mul] at after
    have quarter := lowerEnd_add_le (m := b.significand) (e := b.exponent)
    push_cast
    exact rounds_of_lt (by linarith) (before.trans_lt lt_upperEnd)

end SandboxBridge.Decimal
