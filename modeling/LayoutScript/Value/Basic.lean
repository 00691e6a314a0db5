import LayoutScript.Tree.Basic
import LayoutScript.Value.Kind

/-!
Values of scripts. A function value is known by its identity: a serial number for
functions that a script makes, a label for those that the host provides. A closure
refers to the frame in which it was made, it does not hold it.
-/

namespace LayoutScript

/-- A frame is named by its place in the store. -/
abbrev FrameId := Nat

inductive Identity where
  | script (serial : Nat)
  | host (label : String)
deriving Repr, DecidableEq, Inhabited

/-- A function made by a script, with the frame that was current at that time. -/
structure Closure where
  identity : Identity
  name : Option String
  parameters : List String
  body : Block
  frame : FrameId
deriving Repr, Inhabited

/-- A function that the host provides. A printing one writes its arguments, any
other has no effect. -/
structure Native where
  identity : Identity
  name : String
  arity : Nat
  prints : Bool
deriving Repr, DecidableEq, Inhabited

inductive Callable where
  | closure (closure : Closure)
  | native (native : Native)
deriving Repr, Inhabited

namespace Callable

def identity : Callable → Identity
  | closure made => made.identity
  | native given => given.identity

def arity : Callable → Nat
  | closure made => made.parameters.length
  | native given => given.arity

/-- The name of a function; an empty name counts as none. -/
def name? : Callable → Option String
  | closure made => made.name.filter fun name => !name.isEmpty
  | native given => if given.name.isEmpty then none else some given.name

/-- The name under which a call reports a function. -/
def callName (callable : Callable) : String := callable.name?.getD "<anonymous fn>"

def text : Callable → String
  | closure made =>
      match (closure made).name? with
      | some name => "<fn " ++ name ++ ">"
      | none => "<fn>"
  | native given => "<native fn " ++ given.name ++ ">"

end Callable

inductive Value where
  | nothing
  | int (value : Int)
  | float (value : Binary64)
  | bool (value : Bool)
  | string (value : String)
  | tuple (elements : List Value)
  | function (callable : Callable)
deriving Repr, Inhabited

def Value.kind : Value → ValueKind
  | .nothing => .none
  | .int _ => .int
  | .float _ => .float
  | .bool _ => .bool
  | .string _ => .string
  | .tuple _ => .tuple
  | .function _ => .function

/-- The value of a literal. -/
def Value.ofLiteral : Literal → Value
  | .nothing => .nothing
  | .bool value => .bool value
  | .int value => .int value
  | .float value => .float value
  | .text value => .string value

end LayoutScript
