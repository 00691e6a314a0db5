import LayoutScript.Token.Basic

/-!
The operators of expressions, the tokens that spell them and how tightly the
binary ones bind.
-/

namespace LayoutScript

inductive BinaryOperator where
  | add | subtract | multiply | divide | modulo | power
  | less | greater | lessEqual | greaterEqual | equal | notEqual
  | conjunction | disjunction
deriving Repr, DecidableEq, Inhabited

inductive UnaryOperator where
  | plus | minus | negation
deriving Repr, DecidableEq, Inhabited

namespace BinaryOperator

def tokenClass : BinaryOperator → TokenClass
  | add => .plus
  | subtract => .minus
  | multiply => .star
  | divide => .slash
  | modulo => .percent
  | power => .doubleStar
  | less => .less
  | greater => .greater
  | lessEqual => .lessEqual
  | greaterEqual => .greaterEqual
  | equal => .equal
  | notEqual => .notEqual
  | conjunction => .andWord
  | disjunction => .orWord

def ofTokenClass? : TokenClass → Option BinaryOperator
  | .plus => some add
  | .minus => some subtract
  | .star => some multiply
  | .slash => some divide
  | .percent => some modulo
  | .doubleStar => some power
  | .less => some less
  | .greater => some greater
  | .lessEqual => some lessEqual
  | .greaterEqual => some greaterEqual
  | .equal => some equal
  | .notEqual => some notEqual
  | .andWord => some conjunction
  | .orWord => some disjunction
  | _ => none

theorem ofTokenClass?_eq_some_iff (kind : TokenClass) (operator : BinaryOperator) :
    ofTokenClass? kind = some operator ↔ kind = operator.tokenClass := by
  cases kind <;> cases operator <;> simp [ofTokenClass?, tokenClass]

def symbol (operator : BinaryOperator) : String := operator.tokenClass.symbol

/-- Binding strength of the left-associative operators; a power binds tighter
than all of them and is read separately. -/
def precedence? : BinaryOperator → Option Nat
  | disjunction => some 1
  | conjunction => some 2
  | equal | notEqual => some 3
  | less | greater | lessEqual | greaterEqual => some 4
  | add | subtract => some 5
  | multiply | divide | modulo => some 6
  | power => none

end BinaryOperator

namespace UnaryOperator

def tokenClass : UnaryOperator → TokenClass
  | plus => .plus
  | minus => .minus
  | negation => .notWord

def ofTokenClass? : TokenClass → Option UnaryOperator
  | .plus => some plus
  | .minus => some minus
  | .notWord => some negation
  | _ => none

theorem ofTokenClass?_eq_some_iff (kind : TokenClass) (operator : UnaryOperator) :
    ofTokenClass? kind = some operator ↔ kind = operator.tokenClass := by
  cases kind <;> cases operator <;> simp [ofTokenClass?, tokenClass]

def symbol (operator : UnaryOperator) : String := operator.tokenClass.symbol

end UnaryOperator

end LayoutScript
