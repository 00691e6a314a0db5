import LayoutScript.Number.Numeral

/-!
Binary floating point with 53 significant bits. Every finite number is a whole
multiple of the least positive one, so a finite number is kept as its sign and
its count of such units, and each operation is an exact computation on natural
numbers followed by one rounding.
-/

namespace LayoutScript

/-- A 64-bit binary floating point number. `finite negative units` has the
magnitude `units / 2 ^ 1074`; the sign of zero is kept. -/
inductive Binary64 where
  | finite (negative : Bool) (units : Nat)
  | infinite (negative : Bool)
  | nan
deriving Repr, DecidableEq, Inhabited

namespace Binary64

open Numeral (twoTo tenTo)

/-- The number one, counted in units. -/
def one : Nat := twoTo 1074

/-- The least power of two, counted in units, that is too large to be finite. -/
def bound : Nat := twoTo 2098

/-- The nearest natural number to a quotient; a half goes to the even neighbour. -/
def roundQuotient (numerator denominator : Nat) : Nat :=
  let quotient := numerator / denominator
  let remainder := numerator % denominator
  if 2 * remainder < denominator || (2 * remainder == denominator && quotient % 2 == 0) then
    quotient
  else
    quotient + 1

/-- The units of the nearest number with at most 53 significant bits, where the
range of exponents is not limited above. -/
def roundUnits (numerator denominator : Nat) : Nat :=
  let excess := twoTo (Numeral.bitLength (numerator / denominator) - 53)
  roundQuotient numerator (denominator * excess) * excess

/-- The number nearest to a quotient of units. -/
def ofQuotient (negative : Bool) (numerator denominator : Nat) : Binary64 :=
  let units := roundUnits numerator denominator
  if units < bound then finite negative units else infinite negative

def ofInt (number : Int) : Binary64 :=
  ofQuotient (decide (number < 0)) (number.natAbs * one) 1

/-- The number nearest to `coefficient * 10 ^ exponent`. Beyond `10 ^ 400` nothing is
finite. A coefficient of `b` bits is below `10 ^ b`, so `b + 400` places behind the
point leave nothing but zero. -/
def ofDecimal (negative : Bool) (coefficient : Nat) (exponent : Int) : Binary64 :=
  match exponent with
  | .ofNat places =>
      if coefficient = 0 then finite negative 0
      else if 400 < places then infinite negative
      else ofQuotient negative (coefficient * tenTo places * one) 1
  | .negSucc places =>
      if Numeral.bitLength coefficient + 400 < places then finite negative 0
      else ofQuotient negative (coefficient * one) (tenTo (places + 1))

def zero : Binary64 := finite false 0

/-- Reads the digits behind a sign: digits with at most one point and an optional
exponent. -/
def ofUnsignedText? (negative : Bool) (text : List Char) : Option Binary64 :=
  let isDigit (char : Char) : Bool := '0' ≤ char && char ≤ '9'
  let whole := text.takeWhile isDigit
  let afterWhole := text.dropWhile isDigit
  let (fraction, afterFraction) := match afterWhole with
    | '.' :: rest => (rest.takeWhile isDigit, rest.dropWhile isDigit)
    | rest => ([], rest)
  let read (exponent : Int) : Option Binary64 :=
    if whole.isEmpty && fraction.isEmpty then none
    else some (ofDecimal negative (Numeral.value (whole ++ fraction)) (exponent - fraction.length))
  match afterFraction with
  | [] => read 0
  | mark :: digits =>
      if (mark = 'e' || mark = 'E') && !digits.isEmpty then
        read (Numeral.toInt (String.ofList digits))
      else none

/-- Reads a decimal text, or the names of the special numbers. -/
def ofText? (text : String) : Option Binary64 :=
  let (negative, magnitude) := match text.toList with
    | '-' :: rest => (true, rest)
    | '+' :: rest => (false, rest)
    | rest => (false, rest)
  match (String.ofList magnitude).toLower with
  | "inf" => some (infinite negative)
  | "infinity" => some (infinite negative)
  | "nan" => some nan
  | _ => ofUnsignedText? negative magnitude

def isFinite : Binary64 → Bool
  | finite _ _ => true
  | _ => false

def isInfinite : Binary64 → Bool
  | infinite _ => true
  | _ => false

/-- Both zeros count as zero. -/
def isZero : Binary64 → Bool
  | finite _ units => units == 0
  | _ => false

/-- A number below zero; neither zero is negative. -/
def isNegative : Binary64 → Bool
  | finite negative units => negative && units != 0
  | infinite negative => negative
  | nan => false

def signed (negative : Bool) (units : Nat) : Int :=
  if negative then -(units : Int) else units

/-- The sum of two magnitudes with signs. A sum of zero is negative only if both
summands are negative zeros. -/
def addUnits (leftNegative : Bool) (left : Nat) (rightNegative : Bool) (right : Nat) : Binary64 :=
  let sum := signed leftNegative left + signed rightNegative right
  if sum = 0 then
    finite (leftNegative && rightNegative) 0
  else
    ofQuotient (decide (sum < 0)) sum.natAbs 1

def neg : Binary64 → Binary64
  | finite negative units => finite (!negative) units
  | infinite negative => infinite (!negative)
  | nan => nan

def abs : Binary64 → Binary64
  | finite _ units => finite false units
  | infinite _ => infinite false
  | nan => nan

def add : Binary64 → Binary64 → Binary64
  | nan, _ => nan
  | _, nan => nan
  | infinite left, infinite right => if left == right then infinite left else nan
  | infinite left, finite _ _ => infinite left
  | finite _ _, infinite right => infinite right
  | finite leftNegative left, finite rightNegative right =>
      addUnits leftNegative left rightNegative right

def sub (left right : Binary64) : Binary64 := add left (neg right)

def mul : Binary64 → Binary64 → Binary64
  | nan, _ => nan
  | _, nan => nan
  | infinite left, infinite right => infinite (left != right)
  | infinite left, finite right units => if units = 0 then nan else infinite (left != right)
  | finite left units, infinite right => if units = 0 then nan else infinite (left != right)
  | finite leftNegative left, finite rightNegative right =>
      ofQuotient (leftNegative != rightNegative) (left * right) one

def div : Binary64 → Binary64 → Binary64
  | nan, _ => nan
  | _, nan => nan
  | infinite _, infinite _ => nan
  | infinite left, finite right _ => infinite (left != right)
  | finite left _, infinite right => finite (left != right) 0
  | finite leftNegative left, finite rightNegative right =>
      if right = 0 then
        if left = 0 then nan else infinite (leftNegative != rightNegative)
      else
        ofQuotient (leftNegative != rightNegative) (left * one) right

/-- The exact remainder with the sign of the left operand. There is none for an
infinite left operand or a zero divisor. -/
def rem? : Binary64 → Binary64 → Option Binary64
  | nan, _ => some nan
  | _, nan => some nan
  | infinite _, _ => none
  | left@(finite _ _), infinite _ => some left
  | finite negative left, finite _ right =>
      if right = 0 then none else some (finite negative (left % right))

/-- The quotient of two integers, rounded once. -/
def ofIntQuotient (numerator denominator : Int) : Binary64 :=
  ofQuotient (decide (numerator < 0) != decide (denominator < 0))
    (numerator.natAbs * one) denominator.natAbs

/-- The integer part of a finite number, its fraction cut off. -/
def truncate : Binary64 → Int
  | finite negative units => signed negative (units / one)
  | _ => 0

/-- The layout of a number in 64 bits: sign, 11 bits of exponent, 52 bits of
fraction. -/
def toBits : Binary64 → UInt64
  | nan => 0x7ff8000000000000
  | infinite negative => if negative then 0xfff0000000000000 else 0x7ff0000000000000
  | finite negative units =>
      let sign : Nat := if negative then twoTo 63 else 0
      if units < twoTo 52 then
        UInt64.ofNat (sign + units)
      else
        let excess := Numeral.bitLength units - 53
        UInt64.ofNat (sign + (excess + 1) * twoTo 52 + (units / twoTo excess - twoTo 52))

def ofBits (bits : UInt64) : Binary64 :=
  let pattern := bits.toNat
  let negative := decide (twoTo 63 ≤ pattern)
  let exponent := pattern / twoTo 52 % 2048
  let fraction := pattern % twoTo 52
  if exponent = 2047 then
    if fraction = 0 then infinite negative else nan
  else if exponent = 0 then
    finite negative fraction
  else
    finite negative ((twoTo 52 + fraction) * twoTo (exponent - 1))

end Binary64

/-- A place on the number line in units of `2 ^ -1074`, with both ends. Integers
of any size and all floating point numbers but NaN have one, so comparing places
compares exact values. -/
inductive Place where
  | lowest
  | units (count : Int)
  | highest
deriving Repr, DecidableEq

namespace Place

def compare : Place → Place → Ordering
  | lowest, lowest => .eq
  | lowest, _ => .lt
  | units _, lowest => .gt
  | units left, units right => Ord.compare left right
  | units _, highest => .lt
  | highest, highest => .eq
  | highest, _ => .gt

def ofInt (number : Int) : Place := units (number * (Binary64.one : Int))

def ofBinary64? : Binary64 → Option Place
  | .finite negative count => some (units (Binary64.signed negative count))
  | .infinite true => some lowest
  | .infinite false => some highest
  | .nan => none

end Place

end LayoutScript
