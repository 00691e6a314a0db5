import LayoutScript.Diagnostic.Cause
import LayoutScript.Limits
import LayoutScript.Number.Power
import LayoutScript.Value.Display
import LayoutScript.Value.Order

/-!
The operators on values. Integers stay integers under `+ - * %` and under powers
with an exponent that is not negative; a float operand makes the result a float;
`/` always gives a float; a remainder is never negative. Results that would exceed
a limit are refused before they are made.
-/

namespace LayoutScript

/-- Faults of the host rather than of a script. -/
inductive Fault where
  | mathDomain
  | countBeyondIndex
  | textBeyondIndex
  | noBinaryOperator (kind : TokenClass)
  | noUnaryOperator (kind : TokenClass)
  | notAnExpression (kind : NodeKind)
  | notIterable
  | sessionClosed
deriving Repr, DecidableEq

/-- A token class as faults name it. -/
def Fault.classText (kind : TokenClass) : String :=
  "<TokenType." ++ kind.name ++ ": " ++ Numeral.ofNat kind.ordinal ++ ">"

def Fault.message : Fault → String
  | .mathDomain => "math domain error"
  | .countBeyondIndex => "cannot fit 'int' into an index-sized integer"
  | .textBeyondIndex => "repeated string is too long"
  | .noBinaryOperator kind => "no dispatch table for operator " ++ classText kind
  | .noUnaryOperator kind => "unknown unary operator " ++ classText kind
  | .notAnExpression kind => "Unknown expression type: " ++ kind.name
  | .notIterable => "object is not iterable"
  | .sessionClosed => "session is closed"

/-- The class under which the host reports a fault. -/
def Fault.className : Fault → String
  | .mathDomain => "ValueError"
  | .countBeyondIndex | .textBeyondIndex => "OverflowError"
  | .notIterable => "TypeError"
  | .noBinaryOperator _ | .noUnaryOperator _ | .notAnExpression _ | .sessionClosed => "RuntimeError"

/-- Why an operator has no result. -/
inductive Failure where
  | cause (cause : Cause)
  | fault (fault : Fault)
deriving Repr, DecidableEq

namespace Value

def mathFailure {α : Type} (cause : MathCause) : Except Failure α := .error (.cause (.math cause))

/-- A float that has to be finite. -/
def requireFinite (cause : MathCause) : Binary64 → Except Failure Binary64
  | .finite negative units => .ok (.finite negative units)
  | _ => mathFailure cause

/-- The float nearest to an integer, if it is finite. -/
def intToFloat (number : Int) : Except Failure Binary64 :=
  requireFinite .intBeyondFloat (Binary64.ofInt number)

/-- A float result; an infinite one from finite operands is an overflow. -/
def checkedFloat (result left right : Binary64) : Except Failure Value :=
  if result.isInfinite && left.isFinite && right.isFinite then mathFailure .floatOverflow
  else .ok (.float result)

/-- A pair of numbers as floats, unless both are integers or one is no number. -/
def floatPair? : Value → Value → Option (Except Failure (Binary64 × Binary64))
  | .int left, .float right => some do return (← intToFloat left, right)
  | .float left, .int right => some do return (left, ← intToFloat right)
  | .float left, .float right => some (.ok (left, right))
  | _, _ => none

/-- A float operation on a pair of numbers. -/
def liftFloat (operation : Binary64 → Binary64 → Binary64)
    (pair : Except Failure (Binary64 × Binary64)) : Except Failure Value := do
  let (left, right) ← pair
  checkedFloat (operation left right) left right

def checkBits (limits : Limits) (bits : Nat) : Except Failure Unit :=
  match Limits.exceeds bits limits.intBits with
  | some limit => mathFailure (.intTooLong limit)
  | none => .ok ()

def checkLength (limits : Limits) (length : Nat) : Except Failure Unit :=
  match Limits.exceeds length limits.stringLength with
  | some limit => mathFailure (.stringTooLong limit)
  | none => .ok ()

/-- A text followed by the display text of a value. Both are there already, so that the
host can index them together. -/
def concat (limits : Limits) (left : String) (right : Value) : Except Failure Value := do
  let text := right.display
  checkLength limits (left.length + text.length)
  return .string (left ++ text)

/-- Appends a text a number of times. -/
def repeatOnto (text : String) : Nat → String → String
  | 0, built => built
  | count + 1, built => repeatOnto text count (built ++ text)

/-- The largest index of the host. Counts are indices, and so are lengths. -/
def maxIndex : Nat := Numeral.twoTo 63 - 1

/-- What the host makes of a text and a positive count. It refuses what it cannot index,
and that is no error of a script. -/
def hostRepeat (text : String) (count : Nat) : Except Failure String :=
  if maxIndex < count then .error (.fault .countBeyondIndex)
  else if maxIndex / count < text.length then .error (.fault .textBeyondIndex)
  else .ok (repeatOnto text count "")

/-- A text repeated; a count that is not positive gives the empty text. Without a limit on
lengths, or with one beyond the largest index, only the host refuses long results. -/
def repeatText (limits : Limits) (text : String) (count : Int) : Except Failure Value :=
  if count ≤ 0 || text.isEmpty then
    .ok (.string "")
  else do
    checkLength limits (text.length * count.toNat)
    return .string (← hostRepeat text count.toNat)

def multiplyInts (limits : Limits) (left right : Int) : Except Failure Value := do
  checkBits limits (Numeral.bitLength left.natAbs + Numeral.bitLength right.natAbs)
  return .int (left * right)

def divideFloats (pair : Except Failure (Binary64 × Binary64)) : Except Failure Value :=
  liftFloat Binary64.div pair

/-- The quotient of two integers as a float, rounded once. -/
def divideInts (left right : Int) : Except Failure Value := do
  return .float (← requireFinite .quotientBeyondFloat (Binary64.ofIntQuotient left right))

/-- The remainder of two floats, moved up by the divisor if it is negative. -/
def remainderFloats (left right : Binary64) : Except Failure Value :=
  if right.isZero then mathFailure .moduloByZero
  else
    match left.rem? right with
    | none => .error (.fault .mathDomain)
    | some remainder =>
        if remainder.isNegative then .ok (.float (remainder.add right.abs))
        else .ok (.float remainder)

/-- An estimate of the bits of a power of a base of at least two. An exponent of
more than 64 bits is itself a lower bound. -/
def powerBits (base exponent : Nat) : Nat :=
  if Numeral.bitLength exponent > 64 then exponent
  else ((Binary64.ofInt exponent).mul (Binary64.log2OfNat base)).truncate.toNat + 1

def powerFloats (left right : Value) (base exponent : Binary64) : Except Failure Value :=
  if base.isZero && exponent.isNegative then mathFailure .zeroToNegativePower
  else
    match base.pow exponent with
    | .ok result => .ok (.float result)
    | .error .overflow => mathFailure .floatOverflow
    | .error .notReal => mathFailure (.notReal left.display right.display)

/-- A power of an integer. The magnitudes zero and one are their own powers, so
that no exponent is too large for them. -/
def intPower (base : Int) (exponent : Nat) : Int :=
  let magnitude :=
    if base.natAbs ≤ 1 && exponent > 0 then base.natAbs else base.natAbs.pow exponent
  if base < 0 && exponent % 2 = 1 then -(magnitude : Int) else magnitude

def powerInts (limits : Limits) (base exponent : Int) : Except Failure Value :=
  if exponent < 0 then do
    powerFloats (.int base) (.int exponent) (← intToFloat base) (← intToFloat exponent)
  else do
    if base.natAbs > 1 then
      checkBits limits (powerBits base.natAbs exponent.toNat)
    return .int (intPower base exponent.toNat)

/-- Whether a value is the number zero. -/
def isZero : Value → Bool
  | .int value => value == 0
  | .float value => value.isZero
  | _ => false

/-- The result of an operator whose operands have no case of their own: a float
operation on a mixed pair of numbers, or an error of types. -/
def floatOr (operator : BinaryOperator) (left right : Value)
    (operation : Except Failure (Binary64 × Binary64) → Except Failure Value) :
    Except Failure Value :=
  match floatPair? left right with
  | some pair => operation pair
  | none => .error (.cause (.operandTypes operator left.kind right.kind))

def add (limits : Limits) (left right : Value) : Except Failure Value :=
  match left, right with
  | .int left, .int right => .ok (.int (left + right))
  | .string left, .string _ | .string left, .int _ | .string left, .float _
  | .string left, .bool _ => concat limits left right
  | _, _ => floatOr .add left right (liftFloat Binary64.add)

def subtract (left right : Value) : Except Failure Value :=
  match left, right with
  | .int left, .int right => .ok (.int (left - right))
  | _, _ => floatOr .subtract left right (liftFloat Binary64.sub)

def multiply (limits : Limits) (left right : Value) : Except Failure Value :=
  match left, right with
  | .int left, .int right => multiplyInts limits left right
  | .string text, .int count => repeatText limits text count
  | .string text, .bool count => repeatText limits text (if count then 1 else 0)
  | _, _ => floatOr .multiply left right (liftFloat Binary64.mul)

def divide (left right : Value) : Except Failure Value :=
  match left, right with
  | .int left, .int right =>
      if right = 0 then mathFailure .divisionByZero else divideInts left right
  | _, _ =>
      floatOr .divide left right fun pair =>
        if right.isZero then mathFailure .divisionByZero else divideFloats pair

def modulo (left right : Value) : Except Failure Value :=
  match left, right with
  | .int left, .int right =>
      if right = 0 then mathFailure .moduloByZero else .ok (.int (left.emod right))
  | _, _ =>
      floatOr .modulo left right fun pair => do
        let (left, right) ← pair
        remainderFloats left right

def power (limits : Limits) (left right : Value) : Except Failure Value :=
  match left, right with
  | .int base, .int exponent => powerInts limits base exponent
  | _, _ =>
      floatOr .power left right fun pair => do
        let (base, exponent) ← pair
        powerFloats left right base exponent

/-- An order operator; unordered numbers satisfy none. -/
def ordered (operator : BinaryOperator) (holds : Ordering → Bool) (left right : Value) :
    Except Failure Value :=
  match compare? left right with
  | some order => .ok (.bool (order.any holds))
  | none => .error (.cause (.operandTypes operator left.kind right.kind))

end Value

/-- Applies a binary operator to two values. The logical operators decide by
themselves which operands are evaluated and have no meaning on values. -/
def BinaryOperator.apply (operator : BinaryOperator) (limits : Limits) (left right : Value) :
    Except Failure Value :=
  match operator with
  | .add => Value.add limits left right
  | .subtract => Value.subtract left right
  | .multiply => Value.multiply limits left right
  | .divide => Value.divide left right
  | .modulo => Value.modulo left right
  | .power => Value.power limits left right
  | .less => Value.ordered .less Ordering.isLT left right
  | .greater => Value.ordered .greater Ordering.isGT left right
  | .lessEqual => Value.ordered .lessEqual Ordering.isLE left right
  | .greaterEqual => Value.ordered .greaterEqual Ordering.isGE left right
  | .equal => .ok (.bool (left.equal right))
  | .notEqual => .ok (.bool (!left.equal right))
  | .conjunction => .error (.fault (.noBinaryOperator .andWord))
  | .disjunction => .error (.fault (.noBinaryOperator .orWord))

def UnaryOperator.apply (operator : UnaryOperator) (operand : Value) : Except Failure Value :=
  match operator, operand with
  | .plus, .int value => .ok (.int value)
  | .plus, .float value => .ok (.float value)
  | .minus, .int value => .ok (.int (-value))
  | .minus, .float value => .ok (.float value.neg)
  | .negation, .bool value => .ok (.bool (!value))
  | _, _ => .error (.cause (.operandType operator operand.kind))

/-- Applies the binary operator that a token class spells. -/
def TokenClass.applyBinary (kind : TokenClass) (limits : Limits) (left right : Value) :
    Except Failure Value :=
  match BinaryOperator.ofTokenClass? kind with
  | some operator => operator.apply limits left right
  | none => .error (.fault (.noBinaryOperator kind))

/-- Applies the unary operator that a token class spells. -/
def TokenClass.applyUnary (kind : TokenClass) (operand : Value) : Except Failure Value :=
  match UnaryOperator.ofTokenClass? kind with
  | some operator => operator.apply operand
  | none => .error (.fault (.noUnaryOperator kind))

end LayoutScript
