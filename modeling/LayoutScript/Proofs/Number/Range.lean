import LayoutScript.Number.Power
import LayoutScript.Proofs.Number.Bits
import Mathlib.Tactic.Ring

/-!
The range of finite numbers. Rounding gives a number of at most 53 significant bits, so
what is rounded below the bound is not above the largest finite number; and what was not
above it before is not above it after rounding. Hence operations on numbers in range give
a number in range or an infinite one, and never NaN.
-/

namespace LayoutScript

theorem Numeral.two_to_eq (exponent : Nat) : twoTo exponent = 2 ^ exponent := rfl

namespace Binary64

open Numeral

/-- The largest finite number, counted in units. -/
def largest : Nat := (twoTo 53 - 1) * twoTo 2045

/-- A finite number that is not above the largest one. -/
inductive InRange : Binary64 → Prop where
  | finite (negative : Bool) {units : Nat} (le : units ≤ largest) : InRange (finite negative units)

/-- The result of an operation before its overflow is checked: a number in range or an
infinite one. -/
def Defined (number : Binary64) : Prop := number.InRange ∨ number.isInfinite = true

theorem InRange.is_finite {number : Binary64} (inRange : number.InRange) :
    number.isFinite = true := by
  cases inRange
  rfl

theorem Defined.in_range {number : Binary64} (defined : number.Defined)
    (notInfinite : number.isInfinite = false) : number.InRange := by
  refine defined.resolve_right ?_
  rw [notInfinite]
  exact Bool.false_ne_true

theorem Defined.of_is_finite {number : Binary64} (defined : number.Defined)
    (isFinite : number.isFinite = true) : number.InRange := by
  apply defined.in_range
  cases number with
  | infinite => cases isFinite
  | _ => rfl

/-- Rounding a quotient does not take it above a whole number that it is not above. -/
theorem round_quotient_le {numerator denominator limit : Nat} (positive : 0 < denominator)
    (below : numerator ≤ limit * denominator) :
    roundQuotient numerator denominator ≤ limit := by
  have quotientLe : numerator / denominator ≤ limit :=
    Nat.div_le_of_le_mul (by rw [Nat.mul_comm]; exact below)
  unfold roundQuotient
  extract_lets quotient remainder
  split
  · exact quotientLe
  · rename_i up
    rcases Nat.lt_or_eq_of_le quotientLe with less | same
    · exact less
    · -- A quotient that reaches the limit leaves no remainder, so it is not rounded up.
      exfalso
      apply up
      have parts : denominator * (numerator / denominator) + remainder = numerator :=
        Nat.div_add_mod numerator denominator
      rw [same, Nat.mul_comm] at parts
      have exact : remainder = 0 := by omega
      rw [exact, Nat.mul_zero, decide_eq_true positive, Bool.true_or]

/-- Nor does it take the quotient below a whole number that it is not below. -/
theorem le_round_quotient {numerator denominator limit : Nat} (positive : 0 < denominator)
    (above : limit * denominator ≤ numerator) :
    limit ≤ roundQuotient numerator denominator := by
  have leQuotient : limit ≤ numerator / denominator :=
    (Nat.le_div_iff_mul_le positive).2 above
  unfold roundQuotient
  extract_lets quotient remainder
  split
  · exact leQuotient
  · exact Nat.le_succ_of_le leQuotient

/-- A rounded number has at most 53 significant bits, and exactly that many unless it is
a whole number of units that was not shortened. -/
theorem round_units_form (numerator : Nat) {denominator : Nat} (positive : 0 < denominator) :
    ∃ digits exponent, roundUnits numerator denominator = digits * twoTo exponent ∧
      digits ≤ twoTo 53 ∧ (exponent = 0 ∨ twoTo 52 ≤ digits) := by
  let length := bitLength (numerator / denominator)
  have scaled : 0 < denominator * twoTo (length - 53) :=
    Nat.mul_pos positive (two_to_pos _)
  refine ⟨_, length - 53, rfl, ?_, ?_⟩
  · apply round_quotient_le scaled
    have short : numerator / denominator < twoTo length := lt_two_to_bit_length _
    have longer : twoTo length ≤ twoTo 53 * twoTo (length - 53) := by
      rw [← two_to_add]
      exact two_to_le (by omega)
    calc numerator ≤ twoTo length * denominator :=
          Nat.le_of_lt ((Nat.div_lt_iff_lt_mul positive).1 short)
      _ ≤ twoTo 53 * twoTo (length - 53) * denominator := Nat.mul_le_mul_right _ longer
      _ = twoTo 53 * (denominator * twoTo (length - 53)) := by ring
  · by_cases long : 53 < length
    · right
      apply le_round_quotient scaled
      have least : twoTo (length - 1) ≤ numerator / denominator :=
        two_to_le_of_lt_bit_length (by omega)
      have split : twoTo (length - 1) = twoTo 52 * twoTo (length - 53) := by
        rw [← two_to_add]
        congr 1
        omega
      calc twoTo 52 * (denominator * twoTo (length - 53))
          = twoTo (length - 1) * denominator := by rw [split]; ring
        _ ≤ numerator := (Nat.le_div_iff_mul_le positive).1 least
    · left
      omega

/-- What is at least one unit is not rounded to zero. -/
theorem round_units_pos {numerator denominator : Nat} (positive : 0 < denominator)
    (some : denominator ≤ numerator) : 0 < roundUnits numerator denominator := by
  let length := bitLength (numerator / denominator)
  have quotientPos : 0 < numerator / denominator := Nat.div_pos some positive
  have lengthPos : 0 < length := by
    by_contra zero
    have small : numerator / denominator < twoTo length := lt_two_to_bit_length _
    rw [Nat.eq_zero_of_not_pos zero] at small
    exact absurd small (Nat.not_lt.2 quotientPos)
  have excessLe : twoTo (length - 53) ≤ numerator / denominator :=
    two_to_le_of_lt_bit_length (by omega)
  have fits : 1 * (denominator * twoTo (length - 53)) ≤ numerator := by
    rw [Nat.one_mul, Nat.mul_comm]
    exact (Nat.le_div_iff_mul_le positive).1 excessLe
  exact Nat.mul_pos (le_round_quotient (Nat.mul_pos positive (two_to_pos _)) fits) (two_to_pos _)

/-- The largest number of 53 significant bits at an exponent below the greatest one. -/
theorem two_to_le_largest {digits exponent : Nat} (few : digits ≤ twoTo 53)
    (small : exponent ≤ 2044) : digits * twoTo exponent ≤ largest := by
  have half : twoTo 53 * twoTo 2044 = twoTo 52 * twoTo 2045 := by
    rw [← two_to_add, ← two_to_add]
  have fits : twoTo 52 ≤ twoTo 53 - 1 := by decide
  calc digits * twoTo exponent
      ≤ twoTo 53 * twoTo 2044 := Nat.mul_le_mul few (two_to_le small)
    _ = twoTo 52 * twoTo 2045 := half
    _ ≤ largest := Nat.mul_le_mul_right _ fits

theorem bound_eq : bound = twoTo 53 * twoTo 2045 := two_to_add 53 2045

theorem largest_lt_bound : largest < bound := by
  rw [bound_eq]
  exact Nat.mul_lt_mul_of_pos_right (by decide) (two_to_pos _)

/-- There is no number of at most 53 significant bits between the largest one and the
bound. -/
theorem round_units_le_largest {numerator denominator : Nat} (positive : 0 < denominator)
    (small : roundUnits numerator denominator < bound) :
    roundUnits numerator denominator ≤ largest := by
  obtain ⟨digits, exponent, form, few, normal⟩ := round_units_form numerator positive
  rw [form] at small ⊢
  rcases Nat.lt_trichotomy exponent 2045 with lower | rfl | higher
  · exact two_to_le_largest few (by omega)
  · rw [bound_eq] at small
    have fewer : digits < twoTo 53 := Nat.lt_of_mul_lt_mul_right small
    exact Nat.mul_le_mul_right _ (by omega)
  · exfalso
    have full : twoTo 52 ≤ digits := normal.resolve_left (by omega)
    have reaches : bound ≤ digits * twoTo exponent :=
      calc bound = twoTo 52 * twoTo 2046 := two_to_add 52 2046
        _ ≤ digits * twoTo exponent := Nat.mul_le_mul full (two_to_le (by omega))
    exact absurd small (Nat.not_lt.2 reaches)

/-- Rounding does not take a number out of the range. -/
theorem round_units_in_range {units : Nat} (inRange : units ≤ largest) :
    roundUnits units 1 ≤ largest := by
  simp only [roundUnits, Nat.div_one, Nat.one_mul]
  have lengthLe : bitLength units ≤ 2098 :=
    bit_length_le (Nat.lt_of_le_of_lt inRange largest_lt_bound)
  have positive := two_to_pos (bitLength units - 53)
  rcases Nat.lt_or_eq_of_le lengthLe with shorter | longest
  · apply two_to_le_largest _ (by omega)
    apply round_quotient_le positive
    rw [← two_to_add]
    calc units ≤ twoTo (bitLength units) := Nat.le_of_lt (lt_two_to_bit_length units)
      _ ≤ twoTo (53 + (bitLength units - 53)) := two_to_le (by omega)
  · have last : bitLength units - 53 = 2045 := by omega
    rw [last] at positive ⊢
    exact Nat.mul_le_mul_right (twoTo 2045) (round_quotient_le positive inRange)

theorem of_quotient_defined (negative : Bool) (numerator : Nat) {denominator : Nat}
    (positive : 0 < denominator) : (ofQuotient negative numerator denominator).Defined := by
  unfold ofQuotient
  extract_lets units
  split
  · rename_i small
    exact .inl (.finite _ (round_units_le_largest positive small))
  · exact .inr rfl

theorem of_quotient_in_range (negative : Bool) {units : Nat} (inRange : units ≤ largest) :
    (ofQuotient negative units 1).InRange := by
  have rounded := round_units_in_range inRange
  unfold ofQuotient
  extract_lets result
  rw [if_pos (Nat.lt_of_le_of_lt rounded largest_lt_bound)]
  exact .finite _ rounded

theorem zero_in_range (negative : Bool) : (finite negative 0).InRange :=
  .finite _ (Nat.zero_le _)

theorem of_int_defined (number : Int) : (ofInt number).Defined :=
  of_quotient_defined _ _ Nat.one_pos

/-- An integer that is not zero is no zero as a float. -/
theorem of_int_nonzero {number : Int} (nonzero : number ≠ 0) : (ofInt number).isZero = false := by
  have least : 1 ≤ number.natAbs * one :=
    Nat.mul_pos (Int.natAbs_pos.2 nonzero) one_pos
  have positive := round_units_pos Nat.one_pos least
  unfold ofInt ofQuotient
  extract_lets units
  split
  · exact beq_eq_false_iff_ne.2 (Nat.ne_of_gt positive)
  · rfl

theorem of_int_quotient_defined (numerator : Int) {denominator : Int} (nonzero : denominator ≠ 0) :
    (ofIntQuotient numerator denominator).Defined :=
  of_quotient_defined _ _ (Int.natAbs_pos.2 nonzero)

theorem of_decimal_defined (negative : Bool) (coefficient : Nat) (exponent : Int) :
    (ofDecimal negative coefficient exponent).Defined := by
  unfold ofDecimal
  split
  · split
    · exact .inl (zero_in_range _)
    · split
      · exact .inr rfl
      · exact of_quotient_defined _ _ Nat.one_pos
  · split
    · exact .inl (zero_in_range _)
    · exact of_quotient_defined _ _ (Nat.pow_pos (by decide))

theorem of_bits_in_range {bits : UInt64} {negative : Bool} {units : Nat}
    (given : ofBits bits = finite negative units) : units ≤ largest := by
  unfold ofBits at given
  extract_lets pattern below exponent fraction at given
  have short : fraction < twoTo 52 := Nat.mod_lt _ (two_to_pos 52)
  have full : twoTo 52 + twoTo 52 = twoTo 53 := by rfl
  split at given
  · split at given <;> cases given
  · rename_i notLast
    have exponentLt : exponent < 2048 := Nat.mod_lt _ (by decide)
    split at given
    · obtain ⟨_, rfl⟩ := Binary64.finite.inj given
      have least : fraction * twoTo 0 ≤ largest :=
        two_to_le_largest (by omega) (Nat.zero_le _)
      rwa [two_to_eq, pow_zero, Nat.mul_one] at least
    · obtain ⟨_, rfl⟩ := Binary64.finite.inj given
      exact Nat.mul_le_mul (by omega) (two_to_le (by omega))

namespace InRange

variable {left right : Binary64}

theorem neg (inRange : left.InRange) : left.neg.InRange := by
  obtain ⟨negative, le⟩ := inRange
  exact .finite _ le

theorem add (leftIn : left.InRange) (rightIn : right.InRange) : (left.add right).Defined := by
  obtain ⟨leftNegative, leftLe⟩ := leftIn
  obtain ⟨rightNegative, rightLe⟩ := rightIn
  rw [Binary64.add, addUnits]
  split
  · exact .inl (zero_in_range _)
  · exact of_quotient_defined _ _ Nat.one_pos

theorem sub (leftIn : left.InRange) (rightIn : right.InRange) : (left.sub right).Defined :=
  leftIn.add rightIn.neg

theorem mul (leftIn : left.InRange) (rightIn : right.InRange) : (left.mul right).Defined := by
  obtain ⟨leftNegative, leftLe⟩ := leftIn
  obtain ⟨rightNegative, rightLe⟩ := rightIn
  rw [Binary64.mul]
  exact of_quotient_defined _ _ one_pos

theorem div (leftIn : left.InRange) (rightIn : right.InRange) (nonzero : right.isZero = false) :
    (left.div right).Defined := by
  obtain ⟨leftNegative, leftLe⟩ := leftIn
  obtain ⟨rightNegative, rightLe⟩ := rightIn
  have divisor := ne_of_beq_false nonzero
  rw [Binary64.div, if_neg divisor]
  exact of_quotient_defined _ _ (Nat.pos_of_ne_zero divisor)

/-- The remainder of numbers in range exists. It is in range, and so is what moving it up
by the divisor makes of a negative one, for that is smaller than the divisor. -/
theorem rem (leftIn : left.InRange) (rightIn : right.InRange) (nonzero : right.isZero = false) :
    ∃ remainder, left.rem? right = some remainder ∧ remainder.InRange ∧
      (remainder.isNegative = true → (remainder.add right.abs).InRange) := by
  obtain ⟨leftNegative, leftLe⟩ := leftIn
  obtain ⟨rightNegative, rightLe⟩ := rightIn
  rename_i leftUnits rightUnits
  have divisor := ne_of_beq_false nonzero
  have smaller : leftUnits % rightUnits < rightUnits :=
    Nat.mod_lt _ (Nat.pos_of_ne_zero divisor)
  refine ⟨.finite leftNegative (leftUnits % rightUnits), ?_, ?_, ?_⟩
  · rw [rem?, if_neg divisor]
  · exact .finite _ ((Nat.mod_le _ _).trans leftLe)
  · intro negative
    simp only [isNegative, Bool.and_eq_true, bne_iff_ne, ne_eq] at negative
    have moved : signed true (leftUnits % rightUnits) + signed false rightUnits =
        (rightUnits - leftUnits % rightUnits : Nat) := by
      simp only [signed, if_true, Bool.false_eq_true, if_false]
      omega
    rw [negative.1, abs, Binary64.add, addUnits, moved, if_neg (by omega), Int.natAbs_natCast]
    exact of_quotient_in_range _ ((Nat.sub_le _ _).trans rightLe)

theorem pow (leftIn : left.InRange) (rightIn : right.InRange) {result : Binary64}
    (given : left.pow right = .ok result) : result.InRange := by
  unfold Binary64.pow at given
  rw [leftIn.is_finite, rightIn.is_finite, Bool.and_self, if_pos rfl] at given
  split at given
  · rename_i negative units power
    cases given
    exact .finite _ (of_bits_in_range power)
  · cases given
  · cases given

end InRange

end Binary64

end LayoutScript
