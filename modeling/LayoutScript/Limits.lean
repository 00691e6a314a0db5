/-!
Limits on reading and evaluating scripts. A missing limit means that scripts are
not limited in that respect.
-/

namespace LayoutScript

structure Limits where
  callDepth : Option Nat := none
  steps : Option Nat := none
  nesting : Nat := 64
  intBits : Option Nat := some 1000000
  stringLength : Option Nat := some 10000000
deriving Repr, DecidableEq, Inhabited

/-- Whether a quantity is beyond a limit. -/
def Limits.exceeds (quantity : Nat) : Option Nat → Option Nat
  | none => none
  | some limit => if quantity > limit then some limit else none

end LayoutScript
