import LayoutScript.Text.Numeric
import LayoutScript.Number.Numeral
import Mathlib.Data.List.Induction
import Mathlib.Data.Nat.Log
import Mathlib.Tactic.IntervalCases
import Mathlib.Tactic.Ring

/-!
Decimal numerals denote the numbers they were written for. Writing splits a number at powers of
ten; each half denotes what is left of the number there, and the level that is chosen from the
bits of a number has room for all of its digits.
-/

namespace LayoutScript.Numeral

theorem value_append (first second : List Char) :
    value (first ++ second) = 10 ^ second.length * value first + value second := by
  induction second using List.reverseRecOn with
  | nil => simp [value]
  | append_singleton second digit induction =>
      have last (digits : List Char) : value (digits ++ [digit]) =
          10 * value digits + digitValue digit := by simp [value]
      rw [← List.append_assoc, last, last, induction, List.length_append, List.length_singleton,
        pow_succ]
      ring

theorem digit_value_digit_char {digit : Nat} (small : digit < 10) :
    digitValue (Nat.digitChar digit) = digit := by
  interval_cases digit <;> rfl

theorem is_digit_digit_char {digit : Nat} (small : digit < 10) :
    Text.isDigit (Nat.digitChar digit) = true := by
  interval_cases digit <;> rfl

theorem write_padded_append (level number : Nat) (suffix : List Char) :
    writePadded level number suffix = writePadded level number [] ++ suffix := by
  induction level generalizing number suffix with
  | zero => rfl
  | succ level induction =>
      rw [writePadded, writePadded, induction, induction (number % _) suffix,
        induction _ (writePadded _ _ []), List.append_assoc]

theorem write_padded_length (level number : Nat) :
    (writePadded level number []).length = 2 ^ level := by
  induction level generalizing number with
  | zero => rfl
  | succ level induction =>
      rw [writePadded, write_padded_append, List.length_append, induction, induction, pow_succ]
      ring

theorem write_padded_digits (level number : Nat) :
    ∀ digit ∈ writePadded level number [], Text.isDigit digit = true := by
  induction level generalizing number with
  | zero =>
      intro digit member
      rw [List.mem_singleton.1 member]
      exact is_digit_digit_char (Nat.mod_lt _ (by omega))
  | succ level induction =>
      rw [writePadded, write_padded_append]
      exact List.forall_mem_append.2 ⟨induction _, induction _⟩

/-- The padded digits of a number denote what the number leaves at their length. -/
theorem write_padded_value (level number : Nat) :
    value (writePadded level number []) = number % 10 ^ 2 ^ level := by
  induction level generalizing number with
  | zero =>
      simp only [writePadded, value, List.foldl_cons, List.foldl_nil, Nat.mul_zero, Nat.zero_add]
      exact digit_value_digit_char (Nat.mod_lt _ (by omega))
  | succ level induction =>
      have half : tenTo (twoTo level) = 10 ^ 2 ^ level := rfl
      rw [writePadded, half, write_padded_append, value_append, write_padded_length, induction,
        induction, Nat.mod_mod, pow_succ, Nat.mul_two, pow_add, Nat.mod_mul]
      ring

/-- The chosen level has room for all digits. -/
theorem lt_enough_level (number : Nat) : number < 10 ^ 2 ^ enoughLevel number := by
  have bits : number < 2 ^ bitLength number := by
    unfold bitLength
    split
    · omega
    · exact Nat.lt_log2_self
  have level : bitLength number / 3 + 1 ≤ 2 ^ enoughLevel number :=
    Nat.le_of_lt Nat.lt_log2_self
  calc number < 2 ^ bitLength number := bits
    _ ≤ 2 ^ (3 * (bitLength number / 3 + 1)) := Nat.pow_le_pow_right (by omega) (by omega)
    _ = 8 ^ (bitLength number / 3 + 1) := by rw [pow_mul]; rfl
    _ ≤ 10 ^ (bitLength number / 3 + 1) := Nat.pow_le_pow_left (by omega) _
    _ ≤ 10 ^ 2 ^ enoughLevel number := Nat.pow_le_pow_right (by omega) level

theorem trim_zeros_value (digits : List Char) : value (trimZeros digits) = value digits := by
  fun_induction trimZeros digits with
  | case1 => rfl
  | case2 => rfl
  | case3 next rest induction => rw [induction]; rfl
  | case4 => rfl

theorem trim_zeros_sublist (digits : List Char) : (trimZeros digits).Sublist digits := by
  fun_induction trimZeros digits with
  | case1 => exact List.Sublist.refl _
  | case2 => exact List.Sublist.refl _
  | case3 next rest induction => exact induction.cons _
  | case4 => exact List.Sublist.refl _

theorem trim_zeros_nonempty {digits : List Char} (some : digits ≠ []) : trimZeros digits ≠ [] := by
  fun_induction trimZeros digits with
  | case1 => exact absurd rfl some
  | case2 => simp
  | case3 next rest induction => exact induction (by simp)
  | case4 => simp

/-- The digits of a number denote it. -/
theorem digits_value (number : Nat) : value (digits number) = number := by
  rw [digits, trim_zeros_value, write_padded_value]
  exact Nat.mod_eq_of_lt (lt_enough_level number)

theorem digits_digits (number : Nat) : ∀ digit ∈ digits number, Text.isDigit digit = true :=
  fun digit member => write_padded_digits _ _ digit ((trim_zeros_sublist _).subset member)

theorem digits_nonempty (number : Nat) : digits number ≠ [] := by
  apply trim_zeros_nonempty
  rw [← List.length_pos_iff, write_padded_length]
  positivity

end LayoutScript.Numeral
