import LayoutScript.Number.Estimate

/-!
Decimal conversion at every size. The host converts up to a thousand digits at once and refuses
more than a few thousand, so longer numerals are read and written by halves.
-/

namespace LayoutScript.Numeral

/-- The digits that the host converts at once. -/
def chunk : Nat := 1000

/-- Reads a run of digits. -/
def parse (digits : List Char) : Nat :=
  if digits.length ≤ chunk then value digits
  else
    parse (digits.take (digits.length / 2)) * tenTo (digits.length - digits.length / 2) +
      parse (digits.drop (digits.length / 2))
termination_by digits.length
decreasing_by
  all_goals
    rw [chunk] at *
    simp only [List.length_take, List.length_drop]
    omega

/-- The digits of a natural number. The lower half is filled up with zeros to the place at which
the number was split. -/
def decimalDigits (number : Nat) : List Char :=
  if number < tenTo chunk then digits number
  else
    decimalDigits (number / tenTo (splitPlace number)) ++
      (decimalDigits (number % tenTo (splitPlace number))).leftpad (splitPlace number) '0'
termination_by number
decreasing_by
  all_goals
    have large : 10 ≤ number :=
      Nat.le_trans (by decide +kernel) (Nat.le_of_not_lt ‹¬number < tenTo chunk›)
    have reached := ten_to_split_place_le large
  · have more := Nat.one_lt_pow (Nat.ne_of_gt (one_le_split_place number)) (show 1 < 10 by decide)
    exact Nat.div_lt_self (by omega) more
  · exact Nat.lt_of_lt_of_le (Nat.mod_lt _ (Nat.pow_pos (by decide))) reached

/-- The decimal numeral of an integer: a minus sign if it is negative, and the digits. -/
def decimal (number : Int) : String :=
  if number < 0 then "-" ++ String.ofList (decimalDigits (-number).toNat)
  else String.ofList (decimalDigits number.toNat)

end LayoutScript.Numeral
