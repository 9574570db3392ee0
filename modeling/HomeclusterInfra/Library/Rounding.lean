import Mathlib.Algebra.Order.Field.Power
import Mathlib.Tactic.FieldSimp
import Mathlib.Tactic.Linarith
import Mathlib.Tactic.NormNum
import Mathlib.Tactic.Ring
import HomeclusterInfra.Library.Binary64

/-!
# Rounding to doubles

The nearest double of a rational grows with the rational and leaves a double
alone. Every multiple of a power of two with at most 53 significant bits is a
double, and a rational that is close enough to a double rounds to it.
-/

set_option autoImplicit false

namespace HomeclusterInfra.Binary64

/-! ## Powers -/

theorem twoPow_eq_zpow (exponent : Int) : twoPow exponent = (2 : Rat) ^ exponent := by
  cases exponent with
  | ofNat n => rfl
  | negSucc n => rw [twoPow, zpow_negSucc, one_div]

theorem tenPow_eq_zpow (exponent : Int) : tenPow exponent = (10 : Rat) ^ exponent := by
  cases exponent with
  | ofNat n => rfl
  | negSucc n => rw [tenPow, zpow_negSucc, one_div]

/-! ## The nearest integer -/

section Integers

variable {q p : Rat}

theorem roundHalfEven_cases (q : Rat) :
    (roundHalfEven q = q.floor ∧ q - q.floor ≤ 1 / 2) ∨
      (roundHalfEven q = q.floor + 1 ∧ 1 / 2 ≤ q - q.floor) := by
  unfold roundHalfEven
  dsimp only
  split_ifs with below above even
  · exact .inl ⟨rfl, below.le⟩
  · exact .inr ⟨rfl, above.le⟩
  · exact .inl ⟨rfl, not_lt.1 above⟩
  · exact .inr ⟨rfl, not_lt.1 below⟩

theorem floor_le (q : Rat) : (q.floor : Rat) ≤ q :=
  Rat.floor_le q

theorem lt_floor_add_one (q : Rat) : q < q.floor + 1 := by
  have := Rat.lt_floor_add_one q
  exact_mod_cast this

/-- The nearest integer is at most a half away. -/
theorem roundHalfEven_near (q : Rat) :
    (roundHalfEven q : Rat) - q ≤ 1 / 2 ∧ q - roundHalfEven q ≤ 1 / 2 := by
  have low := floor_le q
  have high := lt_floor_add_one q
  rcases roundHalfEven_cases q with ⟨same, half⟩ | ⟨same, half⟩
  · rw [same]
    constructor <;> linarith
  · rw [same]
    push_cast
    constructor <;> linarith

/-- An integer less than a half away is the nearest one. -/
theorem roundHalfEven_eq {n : Int} (below : (n : Rat) - q < 1 / 2) (above : q - n < 1 / 2) :
    roundHalfEven q = n := by
  have low := floor_le q
  have high := lt_floor_add_one q
  rcases roundHalfEven_cases q with ⟨same, half⟩ | ⟨same, half⟩
  · rw [same]
    have upper : (n : Rat) < q.floor + 1 := by linarith
    have lower : (q.floor : Rat) < n + 1 := by linarith
    norm_cast at upper lower
    omega
  · rw [same]
    have upper : (n : Rat) < q.floor + 2 := by linarith
    have lower : (q.floor : Rat) < n := by linarith
    norm_cast at upper lower
    omega

@[simp] theorem roundHalfEven_intCast (n : Int) : roundHalfEven (n : Rat) = n :=
  roundHalfEven_eq (by norm_num) (by norm_num)

theorem roundHalfEven_mono (le : p ≤ q) : roundHalfEven p ≤ roundHalfEven q := by
  by_contra greater
  have step : roundHalfEven q + 1 ≤ roundHalfEven p := by omega
  have gap : (roundHalfEven q : Rat) + 1 ≤ roundHalfEven p := by exact_mod_cast step
  have one := (roundHalfEven_near p).1
  have other := (roundHalfEven_near q).2
  -- Both are as far away as possible, so the two rationals are one.
  have same : p = q := le_antisymm le (by linarith)
  rw [same] at step
  omega

end Integers

/-! ## The exponent -/

section Exponents

variable {q p : Rat} {e : Int}

/-- The quotient of two numbers between powers of two. -/
theorem log2_quotient_bounds {a b : Nat} (posA : 0 < a) (posB : 0 < b) :
    (2 : Rat) ^ ((a.log2 : Int) - b.log2 - 1) < (a : Rat) / b ∧
      (a : Rat) / b < (2 : Rat) ^ ((a.log2 : Int) - b.log2 + 1) := by
  have lowA : ((2 : Rat) ^ a.log2) ≤ a := by exact_mod_cast Nat.log2_self_le (by omega)
  have highA : (a : Rat) < 2 ^ (a.log2 + 1) := by exact_mod_cast Nat.lt_log2_self
  have lowB : ((2 : Rat) ^ b.log2) ≤ b := by exact_mod_cast Nat.log2_self_le (by omega)
  have highB : (b : Rat) < 2 ^ (b.log2 + 1) := by exact_mod_cast Nat.lt_log2_self
  have denominator : (0 : Rat) < b := by exact_mod_cast posB
  have powers : ∀ i j : Int, (2 : Rat) ^ i * 2 ^ j = 2 ^ (i + j) := fun i j =>
    (zpow_add₀ (by norm_num) i j).symm
  constructor
  · rw [lt_div_iff₀ denominator]
    calc (2 : Rat) ^ ((a.log2 : Int) - b.log2 - 1) * b
        < (2 : Rat) ^ ((a.log2 : Int) - b.log2 - 1) * 2 ^ (b.log2 + 1) := by gcongr
      _ = 2 ^ a.log2 := by
          rw [← zpow_natCast, ← zpow_natCast, powers]
          congr 1
          push_cast
          ring
      _ ≤ a := lowA
  · rw [div_lt_iff₀ denominator]
    calc (a : Rat) < 2 ^ (a.log2 + 1) := highA
      _ = (2 : Rat) ^ ((a.log2 : Int) - b.log2 + 1) * 2 ^ b.log2 := by
          rw [← zpow_natCast, ← zpow_natCast, powers]
          congr 1
          push_cast
          ring
      _ ≤ (2 : Rat) ^ ((a.log2 : Int) - b.log2 + 1) * b := by gcongr

/-- The exponent of a positive rational. -/
theorem binaryExponent_bounds (positive : 0 < q) :
    (2 : Rat) ^ binaryExponent q ≤ q ∧ q < (2 : Rat) ^ (binaryExponent q + 1) := by
  have numerator : 0 < q.num.toNat := by
    have := Rat.num_pos.2 positive
    omega
  have value : (q.num.toNat : Rat) / q.den = q := by
    have cast : ((q.num.toNat : Int) : Rat) = q.num := by
      rw [Int.toNat_of_nonneg (Rat.num_pos.2 positive).le]
    rw [← Int.cast_natCast, cast, Rat.num_div_den]
  obtain ⟨low, high⟩ := log2_quotient_bounds numerator q.den_pos
  rw [value] at low high
  unfold binaryExponent
  simp only [twoPow_eq_zpow]
  split_ifs with small
  · exact ⟨low.le, by rwa [sub_add_cancel]⟩
  · exact ⟨not_lt.1 small, high⟩

/-- The exponent is the only one that fits. -/
theorem binaryExponent_eq (low : (2 : Rat) ^ e ≤ q) (high : q < (2 : Rat) ^ (e + 1)) :
    binaryExponent q = e := by
  have positive : 0 < q := lt_of_lt_of_le (by positivity) low
  obtain ⟨lower, upper⟩ := binaryExponent_bounds positive
  have one := (zpow_lt_zpow_iff_right₀ (by norm_num : (1 : Rat) < 2)).1 (low.trans_lt upper)
  have other := (zpow_lt_zpow_iff_right₀ (by norm_num : (1 : Rat) < 2)).1 (lower.trans_lt high)
  omega

theorem binaryExponent_mono (positive : 0 < p) (le : p ≤ q) :
    binaryExponent p ≤ binaryExponent q := by
  have low := (binaryExponent_bounds positive).1
  have high := (binaryExponent_bounds (positive.trans_le le)).2
  have := (zpow_lt_zpow_iff_right₀ (by norm_num : (1 : Rat) < 2)).1 ((low.trans le).trans_lt high)
  omega

end Exponents

/-! ## Doubles -/

section Doubles

variable {q p : Rat}

theorem two_zpow_mul (i j : Int) : (2 : Rat) ^ i * 2 ^ j = 2 ^ (i + j) :=
  (zpow_add₀ (by norm_num) i j).symm

/-- The distance of a positive rational's neighbouring doubles. -/
def unit (q : Rat) : Rat :=
  2 ^ (binaryExponent q - 52)

theorem unit_pos (q : Rat) : 0 < unit q :=
  zpow_pos (by norm_num) _

theorem nearest_of_pos (positive : 0 < q) : nearest q = roundHalfEven (q / unit q) * unit q := by
  rw [nearest, if_neg (not_le.2 positive)]
  simp only [twoPow_eq_zpow, unit]

theorem nearest_of_nonpos (nonpositive : q ≤ 0) : nearest q = 0 := by
  rw [nearest, if_pos nonpositive]

theorem top_unit (q : Rat) : 2 ^ 52 * unit q = 2 ^ binaryExponent q := by
  rw [unit, ← zpow_natCast, two_zpow_mul]
  congr 1
  push_cast
  ring

theorem next_top_unit (q : Rat) : 2 ^ 53 * unit q = 2 ^ (binaryExponent q + 1) := by
  rw [unit, ← zpow_natCast, two_zpow_mul]
  congr 1
  push_cast
  ring

/-- A positive rational in its units has 53 bits before the point. -/
theorem quotient_bounds (positive : 0 < q) : 2 ^ 52 ≤ q / unit q ∧ q / unit q < 2 ^ 53 := by
  rw [le_div_iff₀ (unit_pos q), div_lt_iff₀ (unit_pos q), top_unit, next_top_unit]
  exact binaryExponent_bounds positive

/-- The significand of the nearest double. -/
theorem significand_bounds (positive : 0 < q) :
    2 ^ 52 ≤ roundHalfEven (q / unit q) ∧ roundHalfEven (q / unit q) ≤ 2 ^ 53 := by
  obtain ⟨low, high⟩ := quotient_bounds positive
  have bottom : (((2 : Int) ^ 52 : Int) : Rat) ≤ q / unit q := by exact_mod_cast low
  have top : q / unit q ≤ (((2 : Int) ^ 53 : Int) : Rat) := by exact_mod_cast high.le
  constructor
  · exact (roundHalfEven_intCast _).symm.le.trans (roundHalfEven_mono bottom)
  · exact (roundHalfEven_mono top).trans (roundHalfEven_intCast _).le

/-- The significand as a natural number. -/
theorem significand_toNat (positive : 0 < q) :
    ((roundHalfEven (q / unit q)).toNat : Rat) = roundHalfEven (q / unit q) := by
  have natural : ((roundHalfEven (q / unit q)).toNat : Int) = roundHalfEven (q / unit q) :=
    Int.toNat_of_nonneg (le_trans (by norm_num) (significand_bounds positive).1)
  exact_mod_cast congrArg (Int.cast : Int → Rat) natural

theorem nearest_bounds (positive : 0 < q) :
    (2 : Rat) ^ binaryExponent q ≤ nearest q ∧ nearest q ≤ (2 : Rat) ^ (binaryExponent q + 1) := by
  obtain ⟨low, high⟩ := significand_bounds positive
  have lowRat : (2 : Rat) ^ 52 ≤ roundHalfEven (q / unit q) := by exact_mod_cast low
  have highRat : (roundHalfEven (q / unit q) : Rat) ≤ 2 ^ 53 := by exact_mod_cast high
  rw [nearest_of_pos positive, ← top_unit, ← next_top_unit]
  exact ⟨mul_le_mul_of_nonneg_right lowRat (unit_pos q).le,
    mul_le_mul_of_nonneg_right highRat (unit_pos q).le⟩

theorem nearest_nonneg (q : Rat) : 0 ≤ nearest q := by
  rcases le_or_gt q 0 with nonpositive | positive
  · exact (nearest_of_nonpos nonpositive).ge
  · exact le_trans (by positivity) (nearest_bounds positive).1

/-- **Rounding keeps the order.** -/
theorem nearest_mono (le : p ≤ q) : nearest p ≤ nearest q := by
  rcases le_or_gt p 0 with nonpositive | positive
  · exact (nearest_of_nonpos nonpositive).trans_le (nearest_nonneg q)
  · rcases (binaryExponent_mono positive le).eq_or_lt with same | less
    · have sameUnit : unit p = unit q := by rw [unit, unit, same]
      rw [nearest_of_pos positive, nearest_of_pos (positive.trans_le le), sameUnit]
      have quotients : p / unit q ≤ q / unit q := div_le_div_of_nonneg_right le (unit_pos q).le
      have integers : (roundHalfEven (p / unit q) : Rat) ≤ roundHalfEven (q / unit q) := by
        exact_mod_cast roundHalfEven_mono quotients
      exact mul_le_mul_of_nonneg_right integers (unit_pos q).le
    · calc nearest p ≤ (2 : Rat) ^ (binaryExponent p + 1) := (nearest_bounds positive).2
        _ ≤ (2 : Rat) ^ binaryExponent q := zpow_le_zpow_right₀ (by norm_num) (by omega)
        _ ≤ nearest q := (nearest_bounds (positive.trans_le le)).1

/-- A rational that is a double. -/
def IsDouble (q : Rat) : Prop :=
  nearest q = q

theorem IsDouble.nonneg (double : IsDouble q) : 0 ≤ q :=
  double ▸ nearest_nonneg q

theorem isDouble_of_integral (positive : 0 < q) {m : Int} (integral : q / unit q = m) :
    IsDouble q := by
  rw [IsDouble, nearest_of_pos positive, integral, roundHalfEven_intCast, ← integral,
    div_mul_cancel₀ q (unit_pos q).ne']

/-- **A multiple of a power of two with at most 53 bits is a double.** -/
theorem isDouble_multiple {m : Nat} (small : m ≤ 2 ^ 53) (e : Int) :
    IsDouble ((m : Rat) * 2 ^ e) := by
  rcases Nat.eq_zero_or_pos m with rfl | some
  · rw [Nat.cast_zero, zero_mul]
    exact nearest_of_nonpos le_rfl
  have positive : (0 : Rat) < m * 2 ^ e := by positivity
  obtain ⟨low, high⟩ := binaryExponent_bounds positive
  have bits : (m : Rat) ≤ 2 ^ (53 : Int) := by exact_mod_cast small
  have quotient : (m : Rat) * 2 ^ e / unit (m * 2 ^ e) =
      m * 2 ^ (e - (binaryExponent (m * 2 ^ e) - 52)) := by
    rw [unit, zpow_sub₀ (by norm_num : (2 : Rat) ≠ 0) e]
    ring
  rcases le_or_gt (binaryExponent (m * 2 ^ e) - 52) e with fine | coarse
  · obtain ⟨shift, shifted⟩ := Int.eq_ofNat_of_zero_le (sub_nonneg.2 fine)
    refine isDouble_of_integral positive (m := (m * 2 ^ shift : Nat)) ?_
    rw [quotient, shifted]
    push_cast
    rw [zpow_natCast]
  · -- Only the power of two itself has more than 53 bits.
    have top : (2 : Rat) ^ (53 : Int) ≤ m := by
      have step : (2 : Rat) ^ (53 + e) ≤ m * 2 ^ e :=
        (zpow_le_zpow_right₀ (by norm_num) (by omega)).trans low
      rw [← two_zpow_mul] at step
      exact le_of_mul_le_mul_right step (by positivity)
    have exact : (m : Rat) = 2 ^ (53 : Int) := le_antisymm bits top
    have exponent : binaryExponent ((m : Rat) * 2 ^ e) = 53 + e := by
      refine binaryExponent_eq ?_ ?_
      · rw [exact, two_zpow_mul]
      · rw [exact, two_zpow_mul]
        exact zpow_lt_zpow_right₀ (by norm_num) (by omega)
    refine isDouble_of_integral positive (m := 2 ^ 52) ?_
    rw [quotient, exponent, exact, two_zpow_mul]
    have shift : 53 + (e - (53 + e - 52)) = ((52 : Nat) : Int) := by omega
    rw [shift, zpow_natCast]
    push_cast
    rfl

/-- **The nearest double is a double.** -/
theorem nearest_isDouble (q : Rat) : IsDouble (nearest q) := by
  rcases le_or_gt q 0 with nonpositive | positive
  · rw [nearest_of_nonpos nonpositive]
    exact nearest_of_nonpos le_rfl
  · obtain ⟨low, high⟩ := significand_bounds positive
    rw [nearest_of_pos positive, ← significand_toNat positive]
    exact isDouble_multiple (by omega) _

/-- A positive double in its units. -/
theorem IsDouble.eq_multiple (double : IsDouble q) (positive : 0 < q) :
    ∃ m : Nat, q = m * unit q ∧ m ≤ 2 ^ 53 := by
  obtain ⟨low, high⟩ := significand_bounds positive
  refine ⟨(roundHalfEven (q / unit q)).toNat, ?_, by omega⟩
  rw [significand_toNat positive, ← nearest_of_pos positive, double]

theorem quotient_of_multiple {m : Nat} (same : q = m * unit q) : q / unit q = m := by
  rw [div_eq_iff (unit_pos q).ne']
  exact same

/-- **A rational that is close enough to a double rounds to it.** -/
theorem nearest_eq_of_close {v : Rat} (double : IsDouble q) (positive : 0 < q)
    (above : v - q < q / 2 ^ 54) (below : q - v < q / 2 ^ 54) : nearest v = q := by
  obtain ⟨m, same, -⟩ := double.eq_multiple positive
  obtain ⟨bottom, top⟩ := quotient_bounds positive
  rw [quotient_of_multiple same] at bottom top
  have low : 2 ^ 52 ≤ m := by exact_mod_cast bottom
  have high : m + 1 ≤ 2 ^ 53 := by exact_mod_cast top
  have highRat : (m : Rat) + 1 ≤ 2 ^ 53 := by exact_mod_cast high
  have fits : q ≤ (2 ^ 53 - 1) * unit q :=
    same.le.trans (mul_le_mul_of_nonneg_right (by linarith) (unit_pos q).le)
  have small : q / 2 ^ 54 < unit q / 2 := by
    rw [div_lt_div_iff₀ (by positivity) (by norm_num)]
    linarith [unit_pos q]
  rcases le_or_gt ((2 : Rat) ^ binaryExponent q) v with above | under
  · have exponent : binaryExponent v = binaryExponent q := by
      refine binaryExponent_eq above ?_
      rw [← next_top_unit]
      nlinarith [unit_pos q]
    have sameUnit : unit v = unit q := by rw [unit, unit, exponent]
    have positiveV : 0 < v := lt_of_lt_of_le (by positivity) above
    rw [nearest_of_pos positiveV, sameUnit, roundHalfEven_eq (n := m)]
    · exact same.symm
    · rw [Int.cast_natCast, sub_lt_iff_lt_add, ← sub_lt_iff_lt_add', lt_div_iff₀ (unit_pos q)]
      nlinarith [unit_pos q]
    · rw [Int.cast_natCast, sub_lt_iff_lt_add, div_lt_iff₀ (unit_pos q)]
      nlinarith [unit_pos q]
  · -- Below a power of two the units are half as large; the double is that power.
    have power : m = 2 ^ 52 := by
      by_contra other
      have more : (2 : Rat) ^ 52 + 1 ≤ m := by exact_mod_cast (by omega : 2 ^ 52 + 1 ≤ m)
      rw [← top_unit] at under
      nlinarith [unit_pos q]
    have value : q = 2 ^ 52 * unit q := by
      rw [power] at same
      exact_mod_cast same
    have exponent : binaryExponent v = binaryExponent q - 1 := by
      refine binaryExponent_eq ?_ (by rwa [sub_add_cancel])
      rw [zpow_sub_one₀ (by norm_num), ← top_unit]
      nlinarith [unit_pos q]
    have halfUnit : unit v = unit q / 2 := by
      rw [unit, unit, exponent, sub_right_comm, zpow_sub_one₀ (by norm_num)]
      rfl
    have positiveV : 0 < v := by nlinarith [unit_pos q]
    have halfPos : 0 < unit q / 2 := half_pos (unit_pos q)
    rw [nearest_of_pos positiveV, halfUnit, roundHalfEven_eq (n := 2 ^ 53)]
    · push_cast
      linarith
    · rw [sub_lt_iff_lt_add, ← sub_lt_iff_lt_add', lt_div_iff₀ halfPos]
      push_cast
      nlinarith
    · rw [sub_lt_iff_lt_add, div_lt_iff₀ halfPos]
      push_cast
      nlinarith

/-- A double from a power of two on is a multiple of the unit at that power. -/
theorem IsDouble.eq_multiple_of_le {k : Int} (double : IsDouble q) (le : (2 : Rat) ^ k ≤ q) :
    ∃ m : Nat, q = m * 2 ^ (k - 52) := by
  have positive : 0 < q := lt_of_lt_of_le (by positivity) le
  obtain ⟨m, same, -⟩ := double.eq_multiple positive
  have exponent : k ≤ binaryExponent q := by
    have := (zpow_lt_zpow_iff_right₀ (by norm_num : (1 : Rat) < 2)).1
      (le.trans_lt (binaryExponent_bounds positive).2)
    omega
  obtain ⟨shift, shifted⟩ := Int.eq_ofNat_of_zero_le (sub_nonneg.2 exponent)
  refine ⟨m * 2 ^ shift, ?_⟩
  have whole : ((m * 2 ^ shift : Nat) : Rat) = m * 2 ^ (shift : Int) := by
    push_cast
    rw [zpow_natCast]
  rw [whole, mul_assoc, two_zpow_mul, ← shifted]
  have units : binaryExponent q - k + (k - 52) = binaryExponent q - 52 := by ring
  rw [units]
  exact same

/-- **The difference of two doubles of about one size is a double.** -/
theorem IsDouble.sub {k : Int} (one : IsDouble p) (other : IsDouble q) (large : (2 : Rat) ^ k ≤ p)
    (le : p ≤ q) (near : q - p ≤ 2 ^ (k + 1)) : IsDouble (q - p) := by
  obtain ⟨m, sameP⟩ := one.eq_multiple_of_le large
  obtain ⟨n, sameQ⟩ := other.eq_multiple_of_le (large.trans le)
  have gridPos : (0 : Rat) < 2 ^ (k - 52) := by positivity
  have order : m ≤ n := by
    rw [sameP, sameQ] at le
    exact_mod_cast le_of_mul_le_mul_right le gridPos
  have difference : q - p = ((n - m : Nat) : Rat) * 2 ^ (k - 52) := by
    rw [Nat.cast_sub order, sub_mul, ← sameP, ← sameQ]
  rw [difference] at near ⊢
  refine isDouble_multiple ?_ _
  have grid : (2 : Rat) ^ (k + 1) = 2 ^ 53 * 2 ^ (k - 52) := by
    rw [← zpow_natCast, two_zpow_mul]
    congr 1
    push_cast
    ring
  rw [grid] at near
  exact_mod_cast le_of_mul_le_mul_right near gridPos

theorem isDouble_natCast {n : Nat} (small : n ≤ 2 ^ 53) : IsDouble (n : Rat) := by
  have double := isDouble_multiple small 0
  rw [zpow_zero, mul_one] at double
  exact double

end Doubles

/-! ## Differences -/

/-- The difference of two floats. -/
def minus (one other : Rat) : Rat :=
  if other ≤ one then nearest (one - other) else -nearest (other - one)

theorem minus_le {one other : Rat} (double : IsDouble one) (nonneg : 0 ≤ other) :
    minus one other ≤ one := by
  rw [minus]
  split
  next =>
    have le : nearest (one - other) ≤ nearest one := nearest_mono (sub_le_self one nonneg)
    exact le.trans_eq double
  next => exact (neg_nonpos.mpr (nearest_nonneg _)).trans double.nonneg

theorem minus_le_of {one other bound : Rat} (double : IsDouble bound) (le : one - other ≤ bound) :
    minus one other ≤ bound := by
  rw [minus]
  split
  next => exact (nearest_mono le).trans_eq double
  next => exact (neg_nonpos.mpr (nearest_nonneg _)).trans double.nonneg

theorem abs_minus_le {one other bound : Rat} (double : IsDouble bound)
    (near : |one - other| ≤ bound) : |minus one other| ≤ bound := by
  obtain ⟨below, above⟩ := abs_le.mp near
  rw [minus]
  split
  next =>
    rw [abs_of_nonneg (nearest_nonneg _)]
    exact (nearest_mono above).trans_eq double
  next =>
    have le : other - one ≤ bound := by linarith
    rw [abs_neg, abs_of_nonneg (nearest_nonneg _)]
    exact (nearest_mono le).trans_eq double

end HomeclusterInfra.Binary64
