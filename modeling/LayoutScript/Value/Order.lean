import LayoutScript.Value.Basic

/-!
Equality and order of values. Numbers compare by exact value across integers and
floats, tuples element by element, functions by identity. NaN is equal to nothing
and has no order.
-/

namespace LayoutScript.Value

/-- The place of a number on the number line. -/
def place? : Value → Option Place
  | .int value => some (.ofInt value)
  | .float value => Place.ofBinary64? value
  | _ => none

/-- The order of two numbers, none if one of them has no place. -/
def compareNumbers (left right : Value) : Option Ordering :=
  match left, right with
  | .int left, .int right => some (Ord.compare left right)
  | _, _ =>
      match left.place?, right.place? with
      | some left, some right => some (left.compare right)
      | _, _ => none

mutual

/-- Equality of values; values of different kinds differ unless both are numbers. -/
def equal : Value → Value → Bool
  | .nothing, .nothing => true
  | .int left, .int right => left == right
  | .int left, .float right => compareNumbers (.int left) (.float right) == some .eq
  | .float left, .int right => compareNumbers (.float left) (.int right) == some .eq
  | .float left, .float right => compareNumbers (.float left) (.float right) == some .eq
  | .bool left, .bool right => left == right
  | .string left, .string right => left == right
  | .tuple left, .tuple right => equalAll left right
  | .function left, .function right => left.identity == right.identity
  | _, _ => false

def equalAll : List Value → List Value → Bool
  | [], [] => true
  | left :: lefts, right :: rights => left.equal right && equalAll lefts rights
  | _, _ => false

end

/-- How two values of kinds that have an order compare; the inner option is empty
if NaN is involved. -/
def compare? : Value → Value → Option (Option Ordering)
  | .int left, .int right => some (compareNumbers (.int left) (.int right))
  | .int left, .float right => some (compareNumbers (.int left) (.float right))
  | .float left, .int right => some (compareNumbers (.float left) (.int right))
  | .float left, .float right => some (compareNumbers (.float left) (.float right))
  | .string left, .string right => some (some (Ord.compare left right))
  | .bool left, .bool right => some (some (Ord.compare left right))
  | _, _ => none

end LayoutScript.Value
