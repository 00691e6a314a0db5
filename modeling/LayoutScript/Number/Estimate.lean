import LayoutScript.Proofs.Number.Bits

/-!
Where a long number is split for its numeral. The digits are estimated from the bits by a product
of floats. Half of the estimate is a place that the number reaches, so both parts are smaller.
-/

namespace LayoutScript.Numeral

open Binary64 (one)

/-- The decimal logarithm of two. -/
def log10OfTwo : Binary64 := .ofDecimal false 30102999566398120 (-17)

/-- An estimate of the decimal places that bits make. A product that is no finite number, for
which more than `2 ^ 1023` bits are needed, counts as none. -/
def estimatedPlaces (bits : Nat) : Nat := ((Binary64.ofInt bits).mul log10OfTwo).truncate.toNat

/-- The place at which a number is split: about half of its digits are behind it. -/
def splitPlace (number : Nat) : Nat := max 1 (estimatedPlaces (bitLength number - 1) / 2)

/-- A natural number as a float is too large by at most one part in 16. -/
theorem of_int_units (bits : Nat) :
    (∃ units, Binary64.ofInt bits = .finite false units ∧ 16 * units ≤ 17 * (bits * one)) ∨
      Binary64.ofInt bits = .infinite false := by
  have rounded := Binary64.round_units_le (bits * one) Nat.one_pos
  have positive : decide ((bits : Int) < 0) = false := by simp
  rw [Binary64.ofInt, positive, Int.natAbs_natCast]
  rcases Binary64.of_quotient_cases false (bits * one) 1 with isFinite | isInfinite
  · refine .inl ⟨_, isFinite, ?_⟩
    rw [Nat.mul_one] at rounded
    cases bits with
    | zero => omega
    | succ bits =>
        have least : one ≤ (bits + 1) * one := Nat.le_mul_of_pos_left one (Nat.succ_pos bits)
        have large : 16 ≤ one := by decide +kernel
        omega
  · exact .inr isInfinite

theorem log10_of_two_units :
    ∃ units, log10OfTwo = .finite false units ∧ units ≠ 0 ∧ 100000 * units ≤ 30104 * one :=
  ⟨5422874305198591 * twoTo 1020, by decide +kernel, by decide +kernel, by decide +kernel⟩

/-- A quotient of units that is at most a third is cut off to at most a third. -/
theorem three_truncated_le {bits units logarithm product : Nat}
    (near : 16 * units ≤ 17 * (bits * one)) (small : 100000 * logarithm ≤ 30104 * one)
    (rounded : 32 * (product * one) ≤ 33 * (units * logarithm) + 16 * one) :
    3 * (product / one) ≤ bits := by
  have square : 2 * one ≤ one * one := Nat.mul_le_mul_right one (by decide +kernel)
  have positive := Binary64.one_pos
  have factors : 100000 * (units * logarithm) ≤ 30104 * (units * one) := by
    have scaled := Nat.mul_le_mul_left units small
    rwa [Nat.mul_left_comm, Nat.mul_left_comm units] at scaled
  have wide : 16 * (units * one) ≤ 17 * (bits * (one * one)) := by
    have scaled := Nat.mul_le_mul_right one near
    rwa [Nat.mul_assoc, Nat.mul_assoc, Nat.mul_assoc] at scaled
  have whole : product / one * (one * one) ≤ product * one := by
    rw [← Nat.mul_assoc]
    exact Nat.mul_le_mul_right one (Nat.div_mul_le_self product one)
  apply Nat.le_of_lt_succ
  apply Nat.lt_of_mul_lt_mul_right (a := one * one)
  rw [Nat.mul_assoc, Nat.succ_mul bits]
  omega

/-- Three bits never make more than one place. -/
theorem three_estimated_places_le (bits : Nat) : 3 * estimatedPlaces bits ≤ bits := by
  obtain ⟨logarithm, isLogarithm, some, small⟩ := log10_of_two_units
  rw [estimatedPlaces, isLogarithm]
  rcases of_int_units bits with ⟨units, isFinite, near⟩ | isInfinite
  · rw [isFinite, Binary64.mul]
    rcases Binary64.of_quotient_cases (false != false) (units * logarithm) one with
      isFinite | isInfinite
    · rw [isFinite]
      have rounded := Binary64.round_units_le (units * logarithm) Binary64.one_pos
      exact three_truncated_le near small rounded
    · rw [isInfinite]
      exact Nat.zero_le _
  · rw [isInfinite, Binary64.mul, if_neg some]
    exact Nat.zero_le _

theorem one_le_split_place (number : Nat) : 1 ≤ splitPlace number := Nat.le_max_left _ _

/-- A number of two digits or more reaches the place at which it is split. -/
theorem ten_to_split_place_le {number : Nat} (large : 10 ≤ number) :
    tenTo (splitPlace number) ≤ number := by
  have third := three_estimated_places_le (bitLength number - 1)
  rcases Nat.le_total (estimatedPlaces (bitLength number - 1) / 2) 1 with few | many
  · rw [splitPlace, Nat.max_eq_left few]
    exact large
  · have reached : twoTo (bitLength number - 1) ≤ number := by
      apply two_to_le_of_lt_bit_length
      omega
    rw [splitPlace, Nat.max_eq_right many]
    calc tenTo (estimatedPlaces (bitLength number - 1) / 2)
        ≤ Nat.pow 16 (estimatedPlaces (bitLength number - 1) / 2) :=
          Nat.pow_le_pow_left (by decide) _
      _ = twoTo (4 * (estimatedPlaces (bitLength number - 1) / 2)) := (Nat.pow_mul 2 4 _).symm
      _ ≤ twoTo (bitLength number - 1) := two_to_le (by omega)
      _ ≤ number := reached

end LayoutScript.Numeral
