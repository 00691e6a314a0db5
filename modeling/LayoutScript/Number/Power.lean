import LayoutScript.Number.Binary64

/-!
Powers and logarithms of floating point numbers. The transcendental step itself is
the machine's; what is decided here is which operands reach it and which results
count as failures.
-/

namespace LayoutScript.Binary64

def toFloat (number : Binary64) : Float := Float.ofBits number.toBits

def ofFloat (number : Float) : Binary64 := ofBits number.toBits

/-- Why a power of two numbers has no value. -/
inductive PowerFailure where
  | overflow
  | notReal
deriving Repr, DecidableEq

/-- Whether a finite number is an odd integer. -/
def isOddInteger : Binary64 → Bool
  | finite _ units => units % one == 0 && units / one % 2 == 1
  | _ => false

/-- Powers with an operand that is infinite or not a number. The exponent zero and
the base one give one whatever the other operand is. -/
def powSpecial (base exponent : Binary64) : Binary64 :=
  if exponent.isZero then finite false one
  else if base == finite false one then finite false one
  else
    match base, exponent with
    | nan, _ => nan
    | _, nan => nan
    | _, infinite negative =>
        match Place.ofBinary64? base.abs with
        | none => nan
        | some place =>
            match place.compare (.ofInt 1) with
            | .eq => finite false one
            | .gt => if negative then zero else infinite false
            | .lt => if negative then infinite false else zero
    | infinite false, _ => if exponent.isNegative then zero else infinite false
    | infinite true, _ =>
        if exponent.isNegative then finite exponent.isOddInteger 0
        else infinite exponent.isOddInteger
    | _, _ => nan

/-- The power of two numbers. From finite operands only a finite number results:
an infinite one is an overflow and NaN means that no real power exists. -/
def pow (base exponent : Binary64) : Except PowerFailure Binary64 :=
  if base.isFinite && exponent.isFinite then
    match ofFloat (Float.pow base.toFloat exponent.toFloat) with
    | finite negative units => .ok (finite negative units)
    | infinite _ => .error .overflow
    | nan => .error .notReal
  else
    .ok (powSpecial base exponent)

/-- The binary logarithm of a positive natural number, as a floating point number.
A number beyond the range of finite ones is scaled by a power of two first. -/
def log2OfNat (number : Nat) : Binary64 :=
  match ofInt number with
  | finite negative units => ofFloat (Float.log2 (finite negative units).toFloat)
  | _ =>
      let length := Numeral.bitLength number
      let mantissa := ofQuotient false (number * one) (Numeral.twoTo length)
      add (ofFloat (Float.log2 mantissa.toFloat)) (ofInt length)

end LayoutScript.Binary64
