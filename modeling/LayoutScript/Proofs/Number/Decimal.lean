import LayoutScript.Number.Shortest
import LayoutScript.Proofs.Number.Canonical
import LayoutScript.Proofs.Number.Rounding
import Mathlib.Algebra.Order.Field.Rat
import Mathlib.Algebra.Order.Field.Power
import Mathlib.Tactic.Linarith
import Mathlib.Tactic.LinearCombination
import Mathlib.Tactic.NormNum
import Mathlib.Tactic.Positivity
import Mathlib.Tactic.Qify

/-!
Decimals and the numbers that they denote. A decimal denotes the number nearest to its exact
value, however that is split into digits and a power of ten. The decimal that is chosen for a
rounded number denotes it: either this was tried, or the last grid that is left has 18 digits and
is finer than the numbers are dense.
-/

namespace LayoutScript.Binary64

open Numeral

/-- A power of ten as a quotient. -/
def tenRatio : Int → Nat × Nat
  | .ofNat places => (tenTo places, 1)
  | .negSucc places => (1, tenTo (places + 1))

theorem ten_to_pos (places : Nat) : 0 < tenTo places := Nat.pow_pos (by decide)

theorem ten_ratio_pos (exponent : Int) :
    0 < (tenRatio exponent).1 ∧ 0 < (tenRatio exponent).2 := by
  cases exponent with
  | ofNat places => exact ⟨ten_to_pos places, Nat.one_pos⟩
  | negSucc places => exact ⟨Nat.one_pos, ten_to_pos _⟩

theorem ten_ratio_eq (exponent : Int) :
    ((tenRatio exponent).1 : ℚ) = (10 : ℚ) ^ exponent * (tenRatio exponent).2 := by
  cases exponent with
  | ofNat places =>
      change ((10 ^ places : Nat) : ℚ) = (10 : ℚ) ^ ((places : Nat) : Int) * ((1 : Nat) : ℚ)
      rw [zpow_natCast]
      push_cast
      ring
  | negSucc places =>
      change ((1 : Nat) : ℚ) = (10 : ℚ) ^ (Int.negSucc places) * ((10 ^ (places + 1) : Nat) : ℚ)
      rw [zpow_negSucc]
      push_cast
      exact (inv_mul_cancel₀ (by positivity)).symm

/-- The units nearest to a decimal. -/
def decimalUnits (coefficient : Nat) (exponent : Int) : Nat :=
  roundUnits (coefficient * (tenRatio exponent).1 * one) (tenRatio exponent).2

theorem decimal_units_congr {coefficient other : Nat} {exponent otherExponent : Int}
    (same : (coefficient : ℚ) * 10 ^ exponent = other * 10 ^ otherExponent) :
    decimalUnits coefficient exponent = decimalUnits other otherExponent := by
  apply round_units_congr (ten_ratio_pos _).2 (ten_ratio_pos _).2
  have ratio := ten_ratio_eq exponent
  have otherRatio := ten_ratio_eq otherExponent
  qify
  rw [ratio, otherRatio]
  linear_combination (tenRatio exponent).2 * (tenRatio otherExponent).2 * one * same

theorem round_units_zero {numerator denominator : Nat} (small : 2 * numerator < denominator) :
    roundUnits numerator denominator = 0 := by
  have none : numerator / denominator = 0 := Nat.div_eq_of_lt (by omega)
  have unit : roundQuotient numerator denominator = 0 :=
    round_quotient_eq (by omega) (by omega) (by omega)
  simp [roundUnits, none, bitLength, two_to_eq, unit]

theorem decimal_units_zero (exponent : Int) : decimalUnits 0 exponent = 0 := by
  apply round_units_zero
  rw [Nat.zero_mul, Nat.zero_mul]
  exact (ten_ratio_pos exponent).2

/-- A quotient is not rounded below a power of two that it reaches. -/
theorem two_to_le_round_units {numerator denominator bits : Nat} (positive : 0 < denominator)
    (large : twoTo bits * denominator ≤ numerator) :
    twoTo bits ≤ roundUnits numerator denominator := by
  have long := lt_bit_length_div positive large
  have reached : twoTo (bitLength (numerator / denominator) - 1) * denominator ≤ numerator :=
    (Nat.le_div_iff_mul_le positive).1 (two_to_le_of_lt_bit_length (by omega))
  refine (two_to_le (Nat.le_sub_one_of_lt long)).trans ?_
  change _ ≤ roundQuotient numerator
    (denominator * twoTo (bitLength (numerator / denominator) - 53)) *
      twoTo (bitLength (numerator / denominator) - 53)
  generalize bitLength (numerator / denominator) = length at long reached ⊢
  have split : twoTo (length - 1) = twoTo (length - 1 - (length - 53)) * twoTo (length - 53) := by
    rw [← two_to_add]
    congr 1
    omega
  rw [split] at reached ⊢
  apply Nat.mul_le_mul_right (twoTo (length - 53))
  apply le_round_quotient (Nat.mul_pos positive (two_to_pos _))
  calc twoTo (length - 1 - (length - 53)) * (denominator * twoTo (length - 53))
      = twoTo (length - 1 - (length - 53)) * twoTo (length - 53) * denominator := by ring
    _ ≤ numerator := reached

/-- Ten is more than three bits. -/
theorem two_to_le_ten_to (places : Nat) : twoTo (3 * places) ≤ tenTo places := by
  rw [two_to_eq, pow_mul]
  exact Nat.pow_le_pow_left (by decide) places

/-- A decimal beyond `10 ^ 400` is no finite number. -/
theorem bound_le_decimal_units {coefficient places : Nat} (some : coefficient ≠ 0)
    (large : 400 < places) : bound ≤ decimalUnits coefficient (.ofNat places) := by
  apply two_to_le_round_units Nat.one_pos
  have power : twoTo 1024 ≤ tenTo places :=
    (two_to_le (show 1024 ≤ 3 * places by omega)).trans (two_to_le_ten_to places)
  calc twoTo 2098 * 1 = 1 * twoTo 1024 * one := by
        rw [Nat.mul_one, Nat.one_mul, one, ← two_to_add]
    _ ≤ coefficient * tenTo places * one :=
        Nat.mul_le_mul_right _ (Nat.mul_le_mul (Nat.one_le_iff_ne_zero.2 some) power)

/-- A decimal with many more places than bits is rounded to zero. -/
theorem decimal_units_eq_zero {coefficient places : Nat}
    (small : bitLength coefficient + 400 < places) :
    decimalUnits coefficient (.negSucc places) = 0 := by
  apply round_units_zero
  change 2 * (coefficient * 1 * one) < tenTo (places + 1)
  rw [Nat.mul_one]
  calc 2 * (coefficient * one) = coefficient * twoTo (1074 + 1) := by
        rw [two_to_add, two_to_eq 1, one]
        ring
    _ < twoTo (bitLength coefficient) * twoTo (1074 + 1) :=
        Nat.mul_lt_mul_of_pos_right (lt_two_to_bit_length _) (two_to_pos _)
    _ = twoTo (bitLength coefficient + (1074 + 1)) := (two_to_add _ _).symm
    _ ≤ twoTo (3 * (places + 1)) := two_to_le (by omega)
    _ ≤ tenTo (places + 1) := two_to_le_ten_to _

theorem of_quotient_eq_finite {negative other : Bool} {numerator denominator units : Nat} :
    ofQuotient negative numerator denominator = finite other units ↔
      negative = other ∧ roundUnits numerator denominator = units ∧ units < bound := by
  unfold ofQuotient
  extract_lets rounded
  split
  · rename_i small
    rw [finite.injEq]
    exact ⟨fun parts => ⟨parts.1, parts.2, parts.2 ▸ small⟩, fun parts => ⟨parts.1, parts.2.1⟩⟩
  · rename_i large
    refine ⟨fun same => (by cases same), fun parts => absurd ?_ large⟩
    rw [show rounded = units from parts.2.1]
    exact parts.2.2

/-- A decimal denotes the nearest number, if that is not zero and not too large. -/
theorem of_decimal_eq_finite {negative other : Bool} {coefficient : Nat} {exponent : Int}
    {units : Nat} (positive : 0 < units) :
    ofDecimal negative coefficient exponent = finite other units ↔
      negative = other ∧ decimalUnits coefficient exponent = units ∧ units < bound := by
  have refused (none : decimalUnits coefficient exponent = 0 ∨
      bound ≤ decimalUnits coefficient exponent) :
      ¬ (negative = other ∧ decimalUnits coefficient exponent = units ∧ units < bound) := by
    rintro ⟨_, same, small⟩
    omega
  cases exponent with
  | ofNat places =>
      rw [ofDecimal.eq_def]
      dsimp only
      split
      · rename_i none
        refine iff_of_false (fun same => ?_) (refused (.inl ?_))
        · cases same
          exact absurd positive (Nat.lt_irrefl 0)
        · rw [none, decimal_units_zero]
      · rename_i some
        split
        · rename_i large
          exact iff_of_false (fun same => (by cases same))
            (refused (.inr (bound_le_decimal_units some large)))
        · exact of_quotient_eq_finite
  | negSucc places =>
      rw [ofDecimal.eq_def]
      dsimp only
      split
      · rename_i small
        refine iff_of_false (fun same => ?_) (refused (.inl (decimal_units_eq_zero small)))
        cases same
        exact absurd positive (Nat.lt_irrefl 0)
      · rw [of_quotient_eq_finite, decimalUnits, tenRatio, Nat.mul_one]

theorem reads_back_iff {decimal : Decimal} {units : Nat} (positive : 0 < units)
    (small : units < bound) : decimal.readsBackAs units = true ↔
      decimalUnits decimal.coefficient decimal.exponent = units := by
  rw [Decimal.readsBackAs, beq_iff_eq, of_decimal_eq_finite positive]
  exact ⟨fun parts => parts.2.1, fun same => ⟨rfl, same, small⟩⟩

/-- The first neighbour on a grid is the nearest one. -/
theorem neighbours_nearest (units : Nat) (exponent : Int) :
    (neighbours units exponent).1 =
      ⟨roundQuotient (units * (tenRatio exponent).2) (one * (tenRatio exponent).1), exponent⟩ := by
  have either (numerator denominator : Nat) :
      roundQuotient numerator denominator = numerator / denominator ∨
      roundQuotient numerator denominator = numerator / denominator + 1 := by
    unfold roundQuotient
    extract_lets quotient remainder
    split
    · exact .inl rfl
    · exact .inr rfl
  have chosen (numerator denominator : Nat) :
      (if roundQuotient numerator denominator = numerator / denominator then
        ((⟨numerator / denominator, exponent⟩ : Decimal),
          (⟨numerator / denominator + 1, exponent⟩ : Decimal))
      else (⟨numerator / denominator + 1, exponent⟩, ⟨numerator / denominator, exponent⟩)).1 =
        ⟨roundQuotient numerator denominator, exponent⟩ := by
    split
    · rename_i same
      rw [same]
    · rename_i apart
      rw [(either numerator denominator).resolve_left apart]
  unfold neighbours
  cases exponent with
  | ofNat places =>
      rw [tenRatio, Nat.mul_one]
      exact chosen units (one * tenTo places)
  | negSucc places =>
      rw [tenRatio, Nat.mul_one]
      exact chosen (units * tenTo (places + 1)) one

/-- A grid that is finer than the number by 17 digits has a place that is rounded to it. -/
theorem round_units_of_grid {units place grid : Nat} (rounded : Rounded units)
    (placePositive : 0 < place) (gridPositive : 0 < grid)
    (fine : 10 ^ 17 * grid ≤ units * place) :
    roundUnits (roundQuotient (units * place) grid * grid) place = units := by
  obtain ⟨low, high⟩ := round_quotient_near (units * place) gridPositive
  exact round_units_eq rounded placePositive (by omega) (by omega)

/-- The nearest decimal on such a grid denotes the number. -/
theorem nearest_reads_back {units : Nat} (rounded : Rounded units) (positive : 0 < units)
    (small : units < bound) {exponent : Int}
    (fine : (10 : ℚ) ^ (exponent + 17) * one ≤ units) :
    (neighbours units exponent).1.readsBackAs units = true := by
  obtain ⟨tenPositive, placePositive⟩ := ten_ratio_pos exponent
  have grid : 10 ^ 17 * (one * (tenRatio exponent).1) ≤ units * (tenRatio exponent).2 := by
    have ratio := ten_ratio_eq exponent
    have place : (0 : ℚ) ≤ (tenRatio exponent).2 := Nat.cast_nonneg _
    have scaled := mul_le_mul_of_nonneg_right fine place
    rw [zpow_add₀ (by norm_num)] at scaled
    qify
    rw [ratio]
    calc (10 : ℚ) ^ 17 * (one * (10 ^ exponent * (tenRatio exponent).2))
        = 10 ^ exponent * 10 ^ (17 : Int) * one * (tenRatio exponent).2 := by
          rw [show ((10 : ℚ) ^ (17 : Int)) = 10 ^ 17 from zpow_ofNat _ _]
          ring
      _ ≤ units * (tenRatio exponent).2 := scaled
  rw [reads_back_iff positive small, neighbours_nearest]
  dsimp only
  rw [decimalUnits, Nat.mul_assoc, Nat.mul_comm (tenRatio exponent).1]
  exact round_units_of_grid rounded placePositive (Nat.mul_pos one_pos tenPositive) grid

theorem ten_to_eq (places : Nat) : tenTo places = 10 ^ places := rfl

/-- A lower bound on a number that was scaled by a power of ten. -/
theorem zpow_le_of_scaled {units unit length places : Nat} (some : 0 < length)
    (leading : 10 ^ (length - 1) * unit ≤ units * tenTo places) :
    (10 : ℚ) ^ ((length : Int) - (places + 1)) * unit ≤ units := by
  have exponent : (length : Int) - (places + 1) = ((length - 1 : Nat) : Int) - (places : Int) := by
    omega
  rw [ten_to_eq] at leading
  rw [exponent, zpow_sub₀ (by norm_num), zpow_natCast, zpow_natCast, div_mul_eq_mul_div,
    div_le_iff₀ (by positivity)]
  exact_mod_cast leading

/-- The power of ten of the leading digit is not above the number. -/
theorem leading_exponent_le {units : Nat} (positive : 0 < units) :
    (10 : ℚ) ^ leadingExponent units * one ≤ units := by
  have scaled : one ≤ units * tenTo 400 :=
    calc one ≤ twoTo (3 * 400) := two_to_le (by omega)
      _ ≤ tenTo 400 := two_to_le_ten_to 400
      _ ≤ units * tenTo 400 := Nat.le_mul_of_pos_left _ positive
  have some : units * tenTo 400 / one ≠ 0 := Nat.ne_of_gt (Nat.div_pos scaled one_pos)
  have least := (digits_canonical (units * tenTo 400 / one)).least
  rw [digits_value] at least
  have leading := (Nat.mul_le_mul_right one (least some)).trans (Nat.div_mul_le_self _ _)
  exact zpow_le_of_scaled (List.length_pos_iff.2 (digits_nonempty _)) leading

/-- The search finds a decimal that denotes the number, if one on the last grid does. -/
theorem shortest_from_reads_back {units : Nat} {leading : Int} (tries count : Nat)
    (last : (neighbours units (leading + 1 - ((count + tries : Nat) : Int))).1.readsBackAs units =
      true) : (shortestFrom units leading tries count).readsBackAs units = true := by
  induction tries generalizing count with
  | zero => exact last
  | succ tries induction =>
      rw [shortestFrom]
      split
      · assumption
      · split
        · assumption
        · exact induction (count + 1) (by rwa [Nat.add_right_comm])

/-- The decimal that is chosen for a rounded number denotes it. -/
theorem shortest_reads_back {units : Nat} (rounded : Rounded units) (positive : 0 < units)
    (small : units < bound) : (shortest units).readsBackAs units = true := by
  apply shortest_from_reads_back
  apply nearest_reads_back rounded positive small
  have exponent :
      leadingExponent units + 1 - ((1 + 17 : Nat) : Int) + 17 = leadingExponent units := by omega
  rw [exponent]
  exact leading_exponent_le positive

end LayoutScript.Binary64
