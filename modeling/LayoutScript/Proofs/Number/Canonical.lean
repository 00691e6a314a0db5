import LayoutScript.Proofs.Number.Numeral
import Mathlib.Data.List.TakeWhile
import Mathlib.Data.Nat.Digits.Lemmas

/-!
Canonical numerals. A number has one numeral without superfluous zeros, and this is the one that
it is written as. Hence writing what was read drops leading zeros, and a number may be written in
two halves at any place, the second one padded with zeros.
-/

namespace LayoutScript.Numeral

/-- Decimal digits, at least one, that start with a zero only if there are no others. -/
structure Canonical (digits : List Char) : Prop where
  nonempty : digits ≠ []
  decimal : ∀ digit ∈ digits, Text.isDigit digit = true
  leading : digits.head? = some '0' → digits = ['0']

/-- The number of a run of digits by the places of the digits, the last one first. -/
theorem value_eq_of_digits (digits : List Char) :
    value digits = Nat.ofDigits 10 (digits.map digitValue).reverse := by
  induction digits using List.reverseRecOn with
  | nil => rfl
  | append_singleton digits digit induction =>
      rw [value_append, induction, List.map_append, List.reverse_append, List.map_singleton,
        List.reverse_singleton, List.singleton_append, Nat.ofDigits_cons]
      simp [value, Nat.add_comm]

theorem digit_char_digit_value {digit : Char} (decimal : Text.isDigit digit = true) :
    digitValue digit < 10 ∧ Nat.digitChar (digitValue digit) = digit := by
  have bounds : 48 ≤ digit.toNat ∧ digit.toNat ≤ 57 := by
    simpa [Text.isDigit, Char.le_def, UInt32.le_iff_toNat_le] using decimal
  obtain ⟨least, most⟩ := bounds
  have same : digit = Char.ofNat digit.toNat := (Char.ofNat_toNat digit).symm
  generalize digit.toNat = code at least most same
  subst same
  interval_cases code <;> decide

theorem digit_value_eq_zero {digit : Char} (decimal : Text.isDigit digit = true)
    (zero : digitValue digit = 0) : digit = '0' := by
  rw [← (digit_char_digit_value decimal).2, zero]
  rfl

theorem value_cons (digit : Char) (digits : List Char) :
    value (digit :: digits) = 10 ^ digits.length * digitValue digit + value digits := by
  rw [← List.singleton_append, value_append]
  simp [value]

namespace Canonical

variable {first second : List Char}

theorem zero_or_leading_positive (canonical : Canonical first) :
    first = ['0'] ∨ ∃ digit digits, first = digit :: digits ∧ 0 < digitValue digit := by
  cases first with
  | nil => exact absurd rfl canonical.nonempty
  | cons digit digits =>
      rcases Nat.eq_zero_or_pos (digitValue digit) with zero | positive
      · have isZero := digit_value_eq_zero (canonical.decimal digit List.mem_cons_self) zero
        exact .inl (canonical.leading (by rw [isZero, List.head?_cons]))
      · exact .inr ⟨digit, digits, rfl, positive⟩

theorem eq_zero (canonical : Canonical first) (zero : value first = 0) : first = ['0'] := by
  rcases canonical.zero_or_leading_positive with same | ⟨digit, digits, rfl, positive⟩
  · exact same
  · rw [value_cons] at zero
    have power : 0 < 10 ^ digits.length := by positivity
    have := Nat.mul_pos power positive
    omega

/-- A canonical numeral of a number that is not zero consists of its digits. -/
theorem digits_eq (canonical : Canonical first) (nonzero : value first ≠ 0) :
    Nat.digits 10 (value first) = (first.map digitValue).reverse := by
  rw [value_eq_of_digits]
  apply Nat.digits_ofDigits 10 (by decide)
  · intro amount member
    obtain ⟨digit, inside, rfl⟩ := List.mem_map.1 (List.mem_reverse.1 member)
    exact (digit_char_digit_value (canonical.decimal digit inside)).1
  · intro some
    rw [List.getLast_reverse]
    rcases canonical.zero_or_leading_positive with rfl | ⟨digit, digits, rfl, positive⟩
    · exact absurd rfl nonzero
    · simpa using Nat.ne_of_gt positive

/-- A number has one canonical numeral. -/
theorem unique (canonical : Canonical first) (other : Canonical second)
    (same : value first = value second) : first = second := by
  by_cases zero : value first = 0
  · rw [canonical.eq_zero zero, other.eq_zero (same ▸ zero)]
  · have digits : first.map digitValue = second.map digitValue := by
      rw [← List.reverse_inj, ← canonical.digits_eq zero, ← other.digits_eq (same ▸ zero), same]
    have written {numeral : List Char} (canonical : Canonical numeral) :
        (numeral.map digitValue).map Nat.digitChar = numeral := by
      rw [List.map_map]
      exact (List.map_congr_left fun digit member =>
        (digit_char_digit_value (canonical.decimal digit member)).2).trans (List.map_id _)
    rw [← written canonical, digits, written other]

/-- All places of a canonical numeral count. -/
theorem least (canonical : Canonical first) (nonzero : value first ≠ 0) :
    10 ^ (first.length - 1) ≤ value first := by
  rcases canonical.zero_or_leading_positive with rfl | ⟨digit, digits, rfl, positive⟩
  · exact absurd rfl nonzero
  · rw [value_cons]
    exact (Nat.le_mul_of_pos_right _ positive).trans (Nat.le_add_right _ _)

/-- A canonical numeral is as short as its number allows. -/
theorem length_le {places : Nat} (canonical : Canonical first) (some : 1 ≤ places)
    (small : value first < 10 ^ places) : first.length ≤ places := by
  by_cases zero : value first = 0
  · rw [canonical.eq_zero zero]
    exact some
  · have fewer := (Nat.pow_lt_pow_iff_right (by decide)).1 ((canonical.least zero).trans_lt small)
    omega

end Canonical

theorem trim_zeros_leading (numeral : List Char) :
    (trimZeros numeral).head? = some '0' → trimZeros numeral = ['0'] := by
  fun_induction trimZeros numeral with
  | case1 => simp
  | case2 => simp
  | case3 next rest induction => exact induction
  | case4 digit next rest apart => simp [apart]

/-- Numbers are written canonically. -/
theorem digits_canonical (number : Nat) : Canonical (digits number) :=
  ⟨digits_nonempty number, digits_digits number, trim_zeros_leading _⟩

theorem value_replicate_zero (count : Nat) (digits : List Char) :
    value (List.replicate count '0' ++ digits) = value digits := by
  induction count with
  | zero => rfl
  | succ count induction =>
      rw [List.replicate_succ, List.cons_append, value_cons, induction]
      simp [digitValue]

/-- A number in two halves: the digits before a place, and those behind it with the zeros that
are missing there. -/
theorem digits_split {number places : Nat} (some : 1 ≤ places) (large : 10 ^ places ≤ number) :
    digits number = digits (number / 10 ^ places) ++
      (List.replicate (places - (digits (number % 10 ^ places)).length) '0' ++
        digits (number % 10 ^ places)) := by
  have power : 0 < 10 ^ places := by positivity
  have high : 0 < number / 10 ^ places := Nat.div_pos large power
  have short : (digits (number % 10 ^ places)).length ≤ places := by
    apply (digits_canonical _).length_le some
    rw [digits_value]
    exact Nat.mod_lt _ power
  apply (digits_canonical number).unique
  · refine ⟨by simp [digits_nonempty], ?_, ?_⟩
    · simp only [List.forall_mem_append]
      exact ⟨digits_digits _, fun digit member => by rw [(List.mem_replicate.1 member).2]; rfl,
        digits_digits _⟩
    · intro zero
      rw [List.head?_append_of_ne_nil _ (digits_nonempty _)] at zero
      have isZero := (digits_canonical _).leading zero
      have none := digits_value (number / 10 ^ places)
      rw [isZero] at none
      exact absurd none (Nat.ne_of_lt high)
  · rw [value_append, value_replicate_zero, digits_value, digits_value, digits_value,
      List.length_append, List.length_replicate, Nat.sub_add_cancel short, Nat.div_add_mod]

/-- Without its leading zeros a numeral is canonical, unless nothing is left. -/
theorem canonical_drop_zeros {numeral : List Char}
    (decimal : ∀ digit ∈ numeral, Text.isDigit digit = true)
    (some : numeral.all (· == '0') = false) : Canonical (numeral.dropWhile (· == '0')) := by
  have left : numeral.dropWhile (· == '0') ≠ [] := by
    simpa [List.dropWhile_eq_nil_iff] using some
  refine ⟨left, fun digit member => decimal digit ((List.dropWhile_sublist _).subset member), ?_⟩
  intro zero
  have nonzero := List.head?_dropWhile_not (· == '0') numeral
  rw [zero] at nonzero
  simp at nonzero

theorem value_drop_zeros (numeral : List Char) :
    value (numeral.dropWhile (· == '0')) = value numeral := by
  induction numeral with
  | nil => rfl
  | cons digit numeral induction =>
      by_cases zero : digit = '0'
      · rw [List.dropWhile_cons_of_pos (by simp [zero]), induction, value_cons, zero]
        simp [digitValue]
      · rw [List.dropWhile_cons_of_neg (by simp [zero])]

/-- Writing what a numeral denotes drops its leading zeros. -/
theorem digits_of_value {numeral : List Char}
    (decimal : ∀ digit ∈ numeral, Text.isDigit digit = true) :
    digits (value numeral) =
      if numeral.all (· == '0') then ['0'] else numeral.dropWhile (· == '0') := by
  split
  · rename_i zeros
    apply (digits_canonical _).eq_zero
    rw [digits_value, ← value_drop_zeros, List.dropWhile_eq_nil_iff.2 (List.all_eq_true.1 zeros)]
    rfl
  · rename_i left
    apply (digits_canonical _).unique (canonical_drop_zeros decimal (by simpa using left))
    rw [digits_value, value_drop_zeros]

end LayoutScript.Numeral
