import LayoutScript.Number.Binary64

/-!
The text of a floating point number: the fewest significant digits that read
back as the same number and, among those, the nearest. Numbers from `1e-04` up to
but not including `1e+16` are written positionally and always show a point.
-/

namespace LayoutScript.Binary64

open Numeral (tenTo)

/-- A decimal number `coefficient * 10 ^ exponent`. -/
structure Decimal where
  coefficient : Nat
  exponent : Int
deriving Repr, DecidableEq

/-- Whether a decimal is nearest to the number with these units. -/
def Decimal.readsBackAs (decimal : Decimal) (units : Nat) : Bool :=
  ofDecimal false decimal.coefficient decimal.exponent == finite false units

/-- The power of ten of the leading digit. The scaling by `10 ^ 400` makes the
integer part of every positive number positive. -/
def leadingExponent (units : Nat) : Int :=
  ((Numeral.digits (units * tenTo 400 / one)).length : Int) - 401

/-- The two neighbours of a number on the grid of multiples of `10 ^ exponent`,
the nearer first; at equal distance the one with an even last digit. -/
def neighbours (units : Nat) (exponent : Int) : Decimal × Decimal :=
  let (numerator, denominator) :=
    match exponent with
    | .ofNat places => (units, one * tenTo places)
    | .negSucc places => (units * tenTo (places + 1), one)
  let below : Decimal := ⟨numerator / denominator, exponent⟩
  let above : Decimal := ⟨numerator / denominator + 1, exponent⟩
  let nearest := roundQuotient numerator denominator
  if nearest = below.coefficient then (below, above) else (above, below)

/-- Searches grids of growing fineness, starting with `count` digits. -/
def shortestFrom (units : Nat) (leading : Int) : Nat → Nat → Decimal
  | 0, count => (neighbours units (leading + 1 - (count : Int))).1
  | tries + 1, count =>
      let candidates := neighbours units (leading + 1 - (count : Int))
      if candidates.1.readsBackAs units then candidates.1
      else if candidates.2.readsBackAs units then candidates.2
      else shortestFrom units leading tries (count + 1)

/-- Seventeen digits always suffice. -/
def shortest (units : Nat) : Decimal :=
  shortestFrom units (leadingExponent units) 17 1

/-- Drops trailing zeros. -/
def trimTrailing (digits : List Char) : List Char :=
  (digits.reverse.dropWhile (· == '0')).reverse

/-- The exponent of scientific form: a sign and at least two digits. -/
def exponentText (exponent : Int) : String :=
  let digits := Numeral.digits exponent.natAbs
  let padded := if digits.length < 2 then '0' :: digits else digits
  (if exponent < 0 then "e-" else "e+") ++ String.ofList padded

/-- The text of a positive number whose significant digits, without trailing
zeros, start at the given power of ten. -/
def layout (digits : List Char) (leading : Int) : String :=
  if -4 ≤ leading && leading < 16 then
    match leading with
    | .ofNat places =>
        let whole := digits.take (places + 1)
        let fraction := digits.drop (places + 1)
        String.ofList (whole ++ List.replicate (places + 1 - whole.length) '0' ++ '.' ::
          (if fraction.isEmpty then ['0'] else fraction))
    | .negSucc places => String.ofList ('0' :: '.' :: List.replicate places '0' ++ digits)
  else
    match digits with
    | [] => exponentText leading
    | [digit] => String.ofList [digit] ++ exponentText leading
    | digit :: rest => String.ofList (digit :: '.' :: rest) ++ exponentText leading

def magnitudeText (units : Nat) : String :=
  if units = 0 then
    "0.0"
  else
    let decimal := shortest units
    let digits := Numeral.digits decimal.coefficient
    layout (trimTrailing digits) (decimal.exponent + (digits.length : Int) - 1)

def text : Binary64 → String
  | finite negative units => (if negative then "-" else "") ++ magnitudeText units
  | infinite negative => if negative then "-inf" else "inf"
  | nan => "nan"

end LayoutScript.Binary64
