import LayoutScript.Number.Binary64

/-!
Bits of numbers, and what rounding to 53 of them does to a quotient: it is moved by at most half of
a unit, and the units are small beside a quotient with more bits than that.
-/

namespace LayoutScript

namespace Numeral

theorem two_to_pos (exponent : Nat) : 0 < twoTo exponent := Nat.two_pow_pos exponent

theorem two_to_add (first second : Nat) :
    twoTo (first + second) = twoTo first * twoTo second := Nat.pow_add 2 first second

theorem two_to_le {first second : Nat} (le : first ≤ second) : twoTo first ≤ twoTo second :=
  Nat.pow_le_pow_right (by decide) le

theorem lt_two_to_bit_length (number : Nat) : number < twoTo (bitLength number) := by
  unfold bitLength
  split
  · rename_i zero
    rw [zero]
    exact two_to_pos 0
  · exact Nat.lt_log2_self

theorem two_to_le_of_lt_bit_length {number exponent : Nat} (short : exponent < bitLength number) :
    twoTo exponent ≤ number := by
  unfold bitLength at short
  split at short
  · exact absurd short (Nat.not_lt_zero _)
  · rename_i nonzero
    exact (Nat.le_log2 nonzero).1 (Nat.le_of_lt_succ short)

theorem bit_length_le {number exponent : Nat} (small : number < twoTo exponent) :
    bitLength number ≤ exponent := by
  apply Nat.le_of_not_lt
  intro long
  exact absurd small (Nat.not_lt.2 (two_to_le_of_lt_bit_length long))

end Numeral

namespace Binary64

open Numeral

theorem one_pos : 0 < one := two_to_pos 1074

/-- Rounding a quotient moves it by at most a half. -/
theorem round_quotient_near (numerator : Nat) {denominator : Nat} (positive : 0 < denominator) :
    2 * (roundQuotient numerator denominator * denominator) ≤ 2 * numerator + denominator ∧
    2 * numerator ≤ 2 * (roundQuotient numerator denominator * denominator) + denominator := by
  have parts := Nat.div_add_mod numerator denominator
  have less := Nat.mod_lt numerator positive
  unfold roundQuotient
  extract_lets quotient remainder
  rw [Nat.mul_comm] at parts
  change quotient * denominator + remainder = numerator at parts
  change remainder < denominator at less
  split
  · rename_i down
    simp only [Bool.or_eq_true, decide_eq_true_eq, Bool.and_eq_true, beq_iff_eq] at down
    omega
  · rename_i up
    simp only [Bool.or_eq_true, decide_eq_true_eq, Bool.and_eq_true, beq_iff_eq] at up
    rw [Nat.add_mul, Nat.one_mul]
    omega

/-- The unit of a quotient is a single one or at most a part in `2 ^ 52`. -/
theorem unit_le (numerator denominator : Nat) :
    let unit := denominator * twoTo (bitLength (numerator / denominator) - 53)
    unit ≤ denominator ∨ unit * twoTo 52 ≤ numerator := by
  intro unit
  by_cases few : bitLength (numerator / denominator) ≤ 53
  · have none : bitLength (numerator / denominator) - 53 = 0 := by omega
    left
    simp only [unit, none]
    exact Nat.le_of_eq (Nat.mul_one _)
  · right
    have reached :
        twoTo (bitLength (numerator / denominator) - 53 + 52) ≤ numerator / denominator :=
      two_to_le_of_lt_bit_length (by omega)
    calc unit * twoTo 52
        = twoTo (bitLength (numerator / denominator) - 53 + 52) * denominator := by
          rw [two_to_add, Nat.mul_assoc, Nat.mul_comm]
      _ ≤ numerator / denominator * denominator := Nat.mul_le_mul_right _ reached
      _ ≤ numerator := Nat.div_mul_le_self _ _

/-- Rounding enlarges a quotient by at most one part in 32, and by half of a single unit. -/
theorem round_units_le (numerator : Nat) {denominator : Nat} (positive : 0 < denominator) :
    32 * (roundUnits numerator denominator * denominator) ≤ 33 * numerator + 16 * denominator := by
  have unit := unit_le numerator denominator
  have near := (round_quotient_near numerator
    (Nat.mul_pos positive (two_to_pos (bitLength (numerator / denominator) - 53)))).1
  have moved : roundUnits numerator denominator * denominator =
      roundQuotient numerator (denominator * twoTo (bitLength (numerator / denominator) - 53)) *
        (denominator * twoTo (bitLength (numerator / denominator) - 53)) := by
    rw [roundUnits, Nat.mul_assoc, Nat.mul_comm (twoTo _)]
  rw [moved]
  have bits : twoTo 52 = 4503599627370496 := rfl
  dsimp only at unit
  rw [bits] at unit
  omega

theorem of_quotient_cases (negative : Bool) (numerator denominator : Nat) :
    ofQuotient negative numerator denominator =
      finite negative (roundUnits numerator denominator) ∨
    ofQuotient negative numerator denominator = infinite negative := by
  rw [ofQuotient]
  split
  · exact .inl rfl
  · exact .inr rfl

end Binary64

end LayoutScript
