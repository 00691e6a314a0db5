import LayoutScript.Proofs.Number.Range

/-!
Rounding to the nearest number. A number of at most 53 significant bits is the nearest one to all
quotients that are off by less than one part in `2 ^ 54`; a quotient is rounded the same however
it is written. Hence the decimals that denote a number are those that are equal or close to it.
-/

namespace LayoutScript.Binary64

open Numeral

section RoundQuotient

variable {numerator denominator nearest : Nat}

/-- A whole number that is off by less than a half is the one that a quotient is rounded to. -/
theorem round_quotient_eq (positive : 0 < denominator)
    (above : 2 * (nearest * denominator) < 2 * numerator + denominator)
    (below : 2 * numerator < 2 * (nearest * denominator) + denominator) :
    roundQuotient numerator denominator = nearest := by
  obtain ⟨low, high⟩ := round_quotient_near numerator positive
  generalize roundQuotient numerator denominator = rounded at low high
  rcases Nat.lt_trichotomy rounded nearest with less | same | more
  · have step : (rounded + 1) * denominator ≤ nearest * denominator := Nat.mul_le_mul_right _ less
    rw [Nat.add_mul, Nat.one_mul] at step
    omega
  · exact same
  · have step : (nearest + 1) * denominator ≤ rounded * denominator := Nat.mul_le_mul_right _ more
    rw [Nat.add_mul, Nat.one_mul] at step
    omega

theorem round_quotient_scaled (numerator denominator : Nat) {scale : Nat} (positive : 0 < scale) :
    roundQuotient (numerator * scale) (denominator * scale) =
      roundQuotient numerator denominator := by
  have twice : 2 * (numerator % denominator * scale) = 2 * (numerator % denominator) * scale :=
    (Nat.mul_assoc _ _ _).symm
  have less : 2 * (numerator % denominator) * scale < denominator * scale ↔
      2 * (numerator % denominator) < denominator := Nat.mul_lt_mul_right positive
  have tie : 2 * (numerator % denominator) * scale = denominator * scale ↔
      2 * (numerator % denominator) = denominator := Nat.mul_left_inj (Nat.ne_of_gt positive)
  simp only [roundQuotient, Nat.mul_div_mul_right _ _ positive, Nat.mul_mod_mul_right, twice,
    Bool.or_eq_true, decide_eq_true_eq, Bool.and_eq_true, beq_iff_eq, less, tie]

end RoundQuotient

section RoundUnits

variable {numerator denominator : Nat}

theorem round_units_scaled (numerator denominator : Nat) {scale : Nat} (positive : 0 < scale) :
    roundUnits (numerator * scale) (denominator * scale) = roundUnits numerator denominator := by
  have order (excess : Nat) : denominator * scale * excess = denominator * excess * scale :=
    Nat.mul_right_comm _ _ _
  simp only [roundUnits, Nat.mul_div_mul_right _ _ positive, order,
    round_quotient_scaled _ _ positive]

/-- Equal quotients are rounded alike. -/
theorem round_units_congr {other otherDenominator : Nat} (positive : 0 < denominator)
    (otherPositive : 0 < otherDenominator)
    (same : numerator * otherDenominator = other * denominator) :
    roundUnits numerator denominator = roundUnits other otherDenominator := by
  rw [← round_units_scaled numerator denominator otherPositive, same,
    Nat.mul_comm denominator, round_units_scaled _ _ positive]

/-- A number of units with at most 53 significant bits. -/
def Rounded (units : Nat) : Prop :=
  ∃ digits exponent, units = digits * twoTo exponent ∧ digits < twoTo 53 ∧
    (exponent = 0 ∨ twoTo 52 ≤ digits)

theorem rounded_round_units (numerator : Nat) {denominator : Nat} (positive : 0 < denominator) :
    Rounded (roundUnits numerator denominator) := by
  obtain ⟨digits, exponent, form, few, normal⟩ := round_units_form numerator positive
  rcases Nat.lt_or_eq_of_le few with fewer | full
  · exact ⟨digits, exponent, form, fewer, normal⟩
  · -- `2 ^ 53` has a single significant bit: it is `2 ^ 52` at the next exponent.
    refine ⟨twoTo 52, exponent + 1, ?_, by decide, .inr (Nat.le_refl _)⟩
    rw [form, full, ← two_to_add, ← two_to_add]
    congr 1
    omega

theorem rounded_zero : Rounded 0 := ⟨0, 0, rfl, two_to_pos 53, .inl rfl⟩

/-- A finite number that rounding can give. -/
inductive Representable : Binary64 → Prop where
  | finite (negative : Bool) {units : Nat} (rounded : Rounded units) (small : units < bound) :
      Representable (finite negative units)

theorem zero_representable (negative : Bool) : (finite negative 0).Representable :=
  .finite _ rounded_zero (two_to_pos 2098)

theorem of_quotient_representable {negative : Bool} (positive : 0 < denominator)
    (isFinite : (ofQuotient negative numerator denominator).isFinite = true) :
    (ofQuotient negative numerator denominator).Representable := by
  revert isFinite
  rw [ofQuotient]
  split
  · rename_i small
    exact fun _ => .finite _ (rounded_round_units numerator positive) small
  · intro isFinite
    cases isFinite

theorem of_decimal_representable {negative : Bool} {coefficient : Nat} {exponent : Int}
    (isFinite : (ofDecimal negative coefficient exponent).isFinite = true) :
    (ofDecimal negative coefficient exponent).Representable := by
  revert isFinite
  unfold ofDecimal
  split
  · split
    · exact fun _ => zero_representable _
    · split
      · intro isFinite
        cases isFinite
      · exact of_quotient_representable Nat.one_pos
  · split
    · exact fun _ => zero_representable _
    · exact of_quotient_representable (Nat.pow_pos (by decide))

theorem bit_length_div_le {bits : Nat} (positive : 0 < denominator)
    (small : numerator < twoTo bits * denominator) : bitLength (numerator / denominator) ≤ bits :=
  bit_length_le ((Nat.div_lt_iff_lt_mul positive).2 small)

theorem lt_bit_length_div {bits : Nat} (positive : 0 < denominator)
    (large : twoTo bits * denominator ≤ numerator) : bits < bitLength (numerator / denominator) := by
  by_contra short
  have below : numerator / denominator < twoTo bits :=
    (lt_two_to_bit_length _).trans_le (two_to_le (Nat.not_lt.1 short))
  exact absurd ((Nat.le_div_iff_mul_le positive).2 large) (Nat.not_le.2 below)

/-- A quotient is rounded to the nearest multiple of the unit that its bits leave. -/
theorem round_units_of_excess {excess digits : Nat} (positive : 0 < denominator)
    (bits : bitLength (numerator / denominator) - 53 = excess)
    (above : 2 * (digits * (denominator * twoTo excess)) <
      2 * numerator + denominator * twoTo excess)
    (below : 2 * numerator <
      2 * (digits * (denominator * twoTo excess)) + denominator * twoTo excess) :
    roundUnits numerator denominator = digits * twoTo excess := by
  rw [roundUnits, bits]
  exact congrArg (· * twoTo excess)
    (round_quotient_eq (Nat.mul_pos positive (two_to_pos excess)) above below)

/-- A rounded number is the nearest one to every quotient that is off by less than one part in
`2 ^ 54`. -/
theorem round_units_eq {units : Nat} (rounded : Rounded units) (positive : 0 < denominator)
    (above : (2 ^ 54 - 1) * (units * denominator) < 2 ^ 54 * numerator)
    (below : 2 ^ 54 * numerator < (2 ^ 54 + 1) * (units * denominator)) :
    roundUnits numerator denominator = units := by
  obtain ⟨digits, exponent, rfl, few, normal⟩ := rounded
  have order : digits * twoTo exponent * denominator = digits * (denominator * twoTo exponent) := by
    ring
  have unitPositive : 0 < denominator * twoTo exponent :=
    Nat.mul_pos positive (two_to_pos exponent)
  have most : digits * (denominator * twoTo exponent) ≤
      (2 ^ 53 - 1) * (denominator * twoTo exponent) :=
    Nat.mul_le_mul_right _ (Nat.le_sub_one_of_lt few)
  have bits (count : Nat) : twoTo (count + exponent) * denominator =
      2 ^ count * (denominator * twoTo exponent) := by
    rw [two_to_add, two_to_eq count]
    ring
  rw [order] at above below
  have upper : bitLength (numerator / denominator) ≤ 53 + exponent := by
    apply bit_length_div_le positive
    rw [bits]
    omega
  by_cases reaches : bitLength (numerator / denominator) - 53 = exponent
  · exact round_units_of_excess positive reaches (by omega) (by omega)
  · -- Below a power of two the numbers are twice as dense, and only that power is so near.
    have normalized : 2 ^ 52 ≤ digits := normal.resolve_left (by omega)
    have low : numerator < 2 ^ 52 * (denominator * twoTo exponent) := by
      rw [← bits]
      by_contra high
      have := lt_bit_length_div positive (Nat.not_lt.1 high)
      omega
    have least : digits = 2 ^ 52 := by
      by_contra apart
      have more : (2 ^ 52 + 1) * (denominator * twoTo exponent) ≤
          digits * (denominator * twoTo exponent) := Nat.mul_le_mul_right _ (by omega)
      omega
    subst least
    cases exponent with
    | zero => omega
    | succ exponent =>
        have halves : denominator * twoTo (exponent + 1) = 2 * (denominator * twoTo exponent) := by
          rw [two_to_add, two_to_eq 1]
          ring
        rw [halves] at above below low unitPositive
        have lower : 52 + exponent < bitLength (numerator / denominator) := by
          apply lt_bit_length_div positive
          rw [two_to_add, two_to_eq 52]
          have : 2 ^ 52 * twoTo exponent * denominator =
              2 ^ 52 * (denominator * twoTo exponent) := by ring
          omega
        have near : roundUnits numerator denominator = 2 ^ 53 * twoTo exponent :=
          round_units_of_excess positive (by omega) (by omega) (by omega)
        rw [near, two_to_add, two_to_eq 1]
        ring

end RoundUnits

end LayoutScript.Binary64
