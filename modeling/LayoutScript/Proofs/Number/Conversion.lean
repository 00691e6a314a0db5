import LayoutScript.Number.Conversion
import LayoutScript.Proofs.Number.Canonical

/-!
Conversion by halves. At every size it gives what a conversion at once would give, so it is exact:
what is written is the canonical numeral, and reading undoes writing.
-/

namespace LayoutScript.Numeral

/-- Reading by halves gives the number of the whole run. -/
theorem parse_eq_value (numeral : List Char) : parse numeral = value numeral := by
  fun_induction parse numeral with
  | case1 numeral few => rfl
  | case2 numeral many high low =>
      have whole := value_append (numeral.take (numeral.length / 2))
        (numeral.drop (numeral.length / 2))
      rw [List.take_append_drop, List.length_drop] at whole
      rw [high, low, whole, Nat.mul_comm]
      rfl

/-- Writing by halves gives the digits of the whole number: the upper half is there, and the lower
one has all of its zeros. -/
theorem decimal_digits_eq_digits (number : Nat) : decimalDigits number = digits number := by
  fun_induction decimalDigits number with
  | case1 number small => rfl
  | case2 number many high low =>
      have large : 10 ≤ number := Nat.le_trans (by decide +kernel) (Nat.le_of_not_lt many)
      rw [high, low, List.leftpad]
      exact (digits_split (one_le_split_place number) (ten_to_split_place_le large)).symm

theorem decimal_eq_of_int (number : Int) : decimal number = ofInt number := by
  rw [decimal, decimal_digits_eq_digits, decimal_digits_eq_digits]
  cases number with
  | ofNat number => rfl
  | negSucc number =>
      rw [if_pos (Int.negSucc_lt_zero number), Int.neg_negSucc]
      rfl

theorem decimal_of_nat (number : Nat) : (decimal (.ofNat number)).toList = digits number := by
  rw [decimal_eq_of_int]
  exact String.toList_ofList

theorem decimal_neg_succ (number : Nat) :
    (decimal (.negSucc number)).toList = '-' :: digits (number + 1) := by
  rw [decimal_eq_of_int]
  simp [ofInt, ofNat]

theorem decimal_to_list (number : Int) :
    (decimal number).toList =
      if number < 0 then '-' :: digits number.natAbs else digits number.natAbs := by
  cases number with
  | ofNat number => simp [← decimal_of_nat]
  | negSucc number => simp [decimal_neg_succ, Int.negSucc_lt_zero]

theorem parse_decimal (number : Nat) : parse (decimal number).toList = number := by
  rw [parse_eq_value]
  exact (congrArg value (decimal_of_nat number)).trans (digits_value number)

/-- Decimal conversion is exact at every size. An integer is written as its canonical numeral, with
a minus sign if it is negative. A run of digits of any length is read as the sum of its digits by
places. Reading undoes writing, and writing drops the leading zeros of what was read. A number that
is too long for the host is split at a place that it reaches, so that its upper half is not zero
and both halves are smaller than the number. -/
theorem conversion_exact :
    (∀ number : Int, ∃ numeral, Canonical numeral ∧
      Nat.ofDigits 10 (numeral.map digitValue).reverse = number.natAbs ∧
      (decimal number).toList = if number < 0 then '-' :: numeral else numeral) ∧
    (∀ numeral : List Char, parse numeral = Nat.ofDigits 10 (numeral.map digitValue).reverse) ∧
    (∀ number : Nat, parse (decimal number).toList = number) ∧
    (∀ numeral : List Char, (∀ digit ∈ numeral, Text.isDigit digit = true) →
      (decimal (parse numeral)).toList =
        if numeral.all (· == '0') then ['0'] else numeral.dropWhile (· == '0')) ∧
    ∀ number : Nat, tenTo chunk ≤ number →
      1 ≤ splitPlace number ∧ tenTo (splitPlace number) ≤ number ∧
      0 < number / tenTo (splitPlace number) ∧ number / tenTo (splitPlace number) < number ∧
      number % tenTo (splitPlace number) < number := by
  refine ⟨fun number => ⟨digits number.natAbs, digits_canonical _, ?_, decimal_to_list number⟩,
    fun numeral => ?_, parse_decimal, fun numeral decimal => ?_, fun number long => ?_⟩
  · rw [← value_eq_of_digits, digits_value]
  · rw [parse_eq_value, value_eq_of_digits]
  · rw [parse_eq_value]
    exact (decimal_of_nat _).trans (digits_of_value decimal)
  · have large : 10 ≤ number := Nat.le_trans (by decide +kernel) long
    have reached := ten_to_split_place_le large
    have positive : 0 < tenTo (splitPlace number) := Nat.pow_pos (by decide)
    have more : 1 < tenTo (splitPlace number) :=
      Nat.one_lt_pow (Nat.ne_of_gt (one_le_split_place number)) (by decide)
    exact ⟨one_le_split_place number, reached, Nat.div_pos reached positive,
      Nat.div_lt_self (by omega) more, (Nat.mod_lt _ positive).trans_le reached⟩

/-- Leading zeros vanish, and a number of 1001 digits is split. -/
theorem padded_numeral_exact :
    parse "00120045".toList = 120045 ∧ (decimal 120045).toList = "120045".toList ∧
    tenTo chunk ≤ tenTo 1000 + 7 ∧ tenTo (splitPlace (tenTo 1000 + 7)) ≤ tenTo 1000 + 7 :=
  have reads : parse "00120045".toList = 120045 := by decide +kernel
  have run : "00120045".toList.all Text.isDigit = true := by decide +kernel
  have writes := conversion_exact.2.2.2.1 "00120045".toList (List.all_eq_true.1 run)
  have long : tenTo chunk ≤ tenTo 1000 + 7 := Nat.le_add_right _ _
  ⟨reads, by rw [reads] at writes; exact writes, long,
    (conversion_exact.2.2.2.2 (tenTo 1000 + 7) long).2.1⟩

end LayoutScript.Numeral
