import LayoutScript.Number.Conversion
import LayoutScript.Number.Shortest
import LayoutScript.Text.Quoted
import LayoutScript.Value.Basic

/-!
The three texts of a value: as printed, as written in a script, and as listed for
a host. The first two differ only for texts that are not inside a tuple.
-/

namespace LayoutScript.Value

/-- Elements between parentheses; a single element is followed by a comma. -/
def parenthesised : List String → String
  | [element] => "(" ++ element ++ ",)"
  | elements => "(" ++ ", ".intercalate elements ++ ")"

mutual

/-- The value as a script would write it; texts are quoted. -/
def written : Value → String
  | .nothing => "none"
  | .int value => Numeral.decimal value
  | .float value => value.text
  | .bool true => "true"
  | .bool false => "false"
  | .string value => Text.scriptLiteral value
  | .tuple elements => parenthesised (writtenAll elements)
  | .function callable => callable.text

def writtenAll : List Value → List String
  | [] => []
  | value :: values => value.written :: writtenAll values

end

/-- The value as printed; a text stands for itself. -/
def display : Value → String
  | .string value => value
  | value => value.written

mutual

/-- The value with its kind, as hosts list it. -/
def listed : Value → String
  | .nothing => "Value(None, none)"
  | .int value => "Value(" ++ Numeral.decimal value ++ ", int)"
  | .float value => "Value(" ++ value.text ++ ", float)"
  | .bool true => "Value(True, bool)"
  | .bool false => "Value(False, bool)"
  | .string value => "Value(" ++ Text.listed value ++ ", string)"
  | .tuple elements => "Value(" ++ parenthesised (listedAll elements) ++ ", tuple)"
  | .function callable => "Value(" ++ callable.text ++ ", function)"

def listedAll : List Value → List String
  | [] => []
  | value :: values => value.listed :: listedAll values

end

end LayoutScript.Value
