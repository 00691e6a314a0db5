/-!
The closed set of kinds of values, named as scripts and messages name them.
-/

namespace LayoutScript

inductive ValueKind where
  | none | int | float | bool | string | tuple | function
deriving Repr, DecidableEq, Inhabited

def ValueKind.name : ValueKind → String
  | .none => "none"
  | .int => "int"
  | .float => "float"
  | .bool => "bool"
  | .string => "string"
  | .tuple => "tuple"
  | .function => "function"

end LayoutScript
