/-!
Numerals as the host reads and writes them. Scripts have larger numbers than the host
converts at once; their numerals are put together from these.
-/

namespace LayoutScript.Numeral

def digitValue (digit : Char) : Nat := digit.toNat - '0'.toNat

/-- The number that a run of decimal digits denotes; the empty run denotes zero. -/
def value (digits : List Char) : Nat :=
  digits.foldl (fun total digit => 10 * total + digitValue digit) 0

/-- The value of a hexadecimal digit in either case. -/
def hexDigitValue (digit : Char) : Nat :=
  if digit ≤ '9' then digitValue digit
  else if digit ≤ 'F' then digit.toNat - 'A'.toNat + 10
  else digit.toNat - 'a'.toNat + 10

/-- The number that digits denote in a base up to sixteen. -/
def valueIn (base : Nat) (digits : List Char) : Nat :=
  digits.foldl (fun total digit => base * total + hexDigitValue digit) 0

/-- Powers of the two bases that numerals are written in. -/
def twoTo (exponent : Nat) : Nat := Nat.pow 2 exponent

@[inherit_doc twoTo]
def tenTo (exponent : Nat) : Nat := Nat.pow 10 exponent

/-- The number of bits of the binary numeral of `number`, zero for zero. -/
def bitLength (number : Nat) : Nat :=
  if number = 0 then 0 else number.log2 + 1

/-- Writes the last `2 ^ level` decimal digits of `number` in front of `suffix`. -/
def writePadded : Nat → Nat → List Char → List Char
  | 0, number, suffix => Nat.digitChar (number % 10) :: suffix
  | level + 1, number, suffix =>
      let half := tenTo (twoTo level)
      writePadded level (number / half) (writePadded level (number % half) suffix)

/-- A level whose `2 ^ level` digits suffice for `number`: three bits never hold
more than one decimal digit. -/
def enoughLevel (number : Nat) : Nat := (bitLength number / 3 + 1).log2 + 1

/-- Drops leading zeros, but never the last digit. -/
def trimZeros : List Char → List Char
  | [] => []
  | [digit] => [digit]
  | digit :: next :: rest =>
      if digit = '0' then trimZeros (next :: rest) else digit :: next :: rest

/-- The decimal digits of a natural number, without superfluous zeros. -/
def digits (number : Nat) : List Char :=
  trimZeros (writePadded (enoughLevel number) number [])

def ofNat (number : Nat) : String := String.ofList (digits number)

/-- The decimal numeral of an integer: a minus sign and the digits. -/
def ofInt : Int → String
  | .ofNat number => ofNat number
  | .negSucc number => "-" ++ ofNat (number + 1)

/-- Reads an optional minus sign followed by decimal digits. -/
def toInt (text : String) : Int :=
  match text.toList with
  | '-' :: rest => -(value rest : Int)
  | '+' :: rest => value rest
  | rest => value rest

end LayoutScript.Numeral
