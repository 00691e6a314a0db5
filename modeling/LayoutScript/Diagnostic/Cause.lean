import LayoutScript.Diagnostic.Basic
import LayoutScript.Tree.Operator
import LayoutScript.Value.Kind

/-!
What can be wrong with a script, one constructor for each cause. All wording is
here: the code, the message and the hints are functions of the cause.
-/

namespace LayoutScript

/-- What the grammar asks for where something else was found. -/
inductive Expectation where
  | statementEnd
  | expression
  | conditionalColon
  | memberIndex
  | openParen
  | closeParen
  | commaOrCloseParen
  | parameterName
  | distinctParameter
  | anonymousParen
  | colon
  | patternStart
  | assignSign
  | functionName
  | indentedBlock
  | blockEnd
deriving Repr, DecidableEq

def Expectation.text : Expectation → String
  | statementEnd => "newline or end of input"
  | expression => "expression"
  | conditionalColon => "':' in conditional expression"
  | memberIndex => "tuple member index"
  | openParen => "'('"
  | closeParen => "')'"
  | commaOrCloseParen => "',' or ')'"
  | parameterName => "parameter name"
  | distinctParameter => "a distinct parameter name"
  | anonymousParen => "'(' (named functions are declared as statements)"
  | colon => "':'"
  | patternStart => "name or '(' in pattern"
  | assignSign => "'='"
  | functionName => "function name"
  | indentedBlock => "indented block"
  | blockEnd => "end of block"

/-- Failures of arithmetic, and results beyond a limit. -/
inductive MathCause where
  | divisionByZero
  | moduloByZero
  | intTooLong (bits : Nat)
  | stringTooLong (characters : Nat)
  | intBeyondFloat
  | quotientBeyondFloat
  | floatOverflow
  | zeroToNegativePower
  | notReal (base exponent : String)
deriving Repr, DecidableEq

def MathCause.message : MathCause → String
  | divisionByZero => "division by zero"
  | moduloByZero => "modulo by zero"
  | intTooLong bits => "integer result too large (more than " ++ Numeral.ofNat bits ++ " bits)"
  | stringTooLong characters =>
      "string result too long (more than " ++ Numeral.ofNat characters ++ " characters)"
  | intBeyondFloat => "integer too large to convert to float"
  | quotientBeyondFloat => "quotient too large for a float"
  | floatOverflow => "float overflow"
  | zeroToNegativePower => "zero raised to a negative power"
  | notReal base exponent => base ++ " ** " ++ exponent ++ " is not a real number"

/-- Why an evaluation was stopped from outside. -/
inductive Interruption where
  | stepBudget (steps : Nat)
  | stoppedByHost
deriving Repr, DecidableEq

def Interruption.reason : Interruption → String
  | stepBudget steps => "step budget of " ++ Numeral.ofNat steps ++ " exhausted"
  | stoppedByHost => "stopped by host"

/-- The families of errors that a host can tell apart. -/
inductive ErrorKind where
  | lex | parse | type | undefinedVariable | redeclaration | destructure
  | arity | notCallable | member | math | interrupted | stackOverflow
deriving Repr, DecidableEq

def ErrorKind.name : ErrorKind → String
  | lex => "LexError"
  | parse => "ParseError"
  | type => "TypeError"
  | undefinedVariable => "UndefinedVariableError"
  | redeclaration => "RedeclarationError"
  | destructure => "DestructureError"
  | arity => "ArityError"
  | notCallable => "NotCallableError"
  | member => "MemberError"
  | math => "MathError"
  | interrupted => "ExecutionInterrupted"
  | stackOverflow => "StackOverflow"

inductive Cause where
  | unexpectedCharacter (char : Char)
  | unterminatedString
  | invalidEscape (escaped : Option Char)
  | invalidNumber (lexeme : String)
  | unexpectedToken (expected : Expectation) (found : String)
  | unexpectedEnd (expected : Expectation)
  | invalidTarget
  | inconsistentIndentation
  | mixedIndentation
  | nestingTooDeep (limit : Nat)
  | operandTypes (operator : BinaryOperator) (left right : ValueKind)
  | operandType (operator : UnaryOperator) (operand : ValueKind)
  | conditionType (found : ValueKind)
  | logicalOperand (operator : BinaryOperator) (found : ValueKind)
  | memberless (found : ValueKind)
  | undefinedVariable (name : String)
  | redeclaration (name : String)
  | destructureArity (expected found : Nat)
  | destructureType (found : ValueKind)
  | argumentCount (name : String) (expected found : Nat)
  | notCallable (found : ValueKind)
  | memberIndex (index length : Nat)
  | math (cause : MathCause)
  | interrupted (reason : Interruption)
  | stackOverflow (limit : Option Nat)
deriving Repr, DecidableEq

namespace Cause

def kind : Cause → ErrorKind
  | unexpectedCharacter _ | unterminatedString | invalidEscape _ | invalidNumber _ => .lex
  | unexpectedToken _ _ | unexpectedEnd _ | invalidTarget | inconsistentIndentation
  | mixedIndentation | nestingTooDeep _ => .parse
  | operandTypes _ _ _ | operandType _ _ | conditionType _ | logicalOperand _ _
  | memberless _ => .type
  | undefinedVariable _ => .undefinedVariable
  | redeclaration _ => .redeclaration
  | destructureArity _ _ | destructureType _ => .destructure
  | argumentCount _ _ _ => .arity
  | notCallable _ => .notCallable
  | memberIndex _ _ => .member
  | math _ => .math
  | interrupted _ => .interrupted
  | stackOverflow _ => .stackOverflow

def code : Cause → String
  | unexpectedCharacter _ => "E001"
  | unterminatedString => "E002"
  | invalidEscape _ => "E003"
  | invalidNumber _ => "E004"
  | unexpectedToken _ _ => "E101"
  | unexpectedEnd _ => "E102"
  | invalidTarget => "E103"
  | inconsistentIndentation => "E104"
  | mixedIndentation => "E105"
  | nestingTooDeep _ => "E106"
  | operandTypes _ _ _ | operandType _ _ | conditionType _ | logicalOperand _ _
  | memberless _ => "E201"
  | undefinedVariable _ => "E301"
  | redeclaration _ => "E302"
  | destructureArity _ _ | destructureType _ => "E303"
  | argumentCount _ _ _ => "E304"
  | notCallable _ => "E305"
  | memberIndex _ _ => "E306"
  | math _ => "E401"
  | interrupted _ => "E402"
  | stackOverflow _ => "E499"

def quoted (text : String) : String := "'" ++ text ++ "'"

def message : Cause → String
  | unexpectedCharacter char => "unexpected character " ++ quoted (String.singleton char)
  | unterminatedString => "unterminated string literal"
  | invalidEscape escaped =>
      "invalid escape sequence " ++ quoted (String.ofList ('\\' :: escaped.toList))
  | invalidNumber lexeme => "invalid number literal " ++ quoted lexeme
  | unexpectedToken expected found => "expected " ++ expected.text ++ ", found " ++ found
  | unexpectedEnd expected => "unexpected end of input, expected " ++ expected.text
  | invalidTarget => "invalid assignment target"
  | inconsistentIndentation => "inconsistent indentation"
  | mixedIndentation => "mixed tabs and spaces in indentation"
  | nestingTooDeep limit =>
      "expression nested too deeply (limit " ++ Numeral.ofNat limit ++ ")"
  | operandTypes operator left right =>
      "unsupported operand types for " ++ quoted operator.symbol ++ ": " ++ quoted left.name ++
        " and " ++ quoted right.name
  | operandType operator operand =>
      "unsupported operand type for " ++ quoted operator.symbol ++ ": " ++ quoted operand.name
  | conditionType found => "condition must be 'bool', found " ++ quoted found.name
  | logicalOperand operator found =>
      "operand of " ++ quoted operator.symbol ++ " must be 'bool', found " ++ quoted found.name
  | memberless found => quoted found.name ++ " has no members"
  | undefinedVariable name => "undefined variable " ++ quoted name
  | redeclaration name => quoted name ++ " is already declared in this scope"
  | destructureArity expected found =>
      "cannot destructure a tuple of " ++ Numeral.ofNat found ++
        " element(s) into a pattern of " ++ Numeral.ofNat expected
  | destructureType found => "cannot destructure a value of type " ++ quoted found.name
  | argumentCount name expected found =>
      quoted name ++ " expects " ++ Numeral.ofNat expected ++ " argument(s), got " ++
        Numeral.ofNat found
  | notCallable found => quoted found.name ++ " value is not callable"
  | memberIndex index length =>
      "tuple index " ++ Numeral.ofNat index ++ " out of range for tuple of length " ++
        Numeral.ofNat length
  | math cause => cause.message
  | interrupted reason => "execution interrupted: " ++ reason.reason
  | stackOverflow none => "stack overflow"
  | stackOverflow (some limit) =>
      "stack overflow (call depth limit " ++ Numeral.ofNat limit ++ ")"

def hints : Cause → List String
  | unterminatedString =>
      ["string literals must be closed with the same quote that opened them"]
  | invalidEscape _ => ["valid escape sequences: \\n, \\t, \\r, \\0, \\\\, \\', \\\""]
  | invalidNumber _ => ["numbers look like 42, 12.5, 14. or 20f"]
  | invalidTarget => ["only names and parenthesized tuples of names can be assigned"]
  | inconsistentIndentation =>
      ["dedent must return to the indentation of an enclosing block"]
  | conditionType _ =>
      ["there is no implicit truthiness; compare explicitly, e.g. 'n != 0'"]
  | redeclaration _ => ["use plain assignment to rebind an existing variable"]
  | _ => []

def severity : Cause → Severity
  | stackOverflow _ => .fatal
  | _ => .error

end Cause

/-- An error of a script: its cause, where it arose, and the source line once it
is known. -/
structure ScriptError where
  cause : Cause
  span : Option Span
  sourceLine : Option String
deriving Repr, DecidableEq

namespace ScriptError

/-- An error at a range whose source line is not known yet. -/
def located (cause : Cause) (span : Span) : ScriptError := ⟨cause, some span, none⟩

def diagnostic (error : ScriptError) : Diagnostic where
  code := error.cause.code
  message := error.cause.message
  severity := error.cause.severity
  span := error.span
  sourceLine := error.sourceLine
  hints := error.cause.hints

def attachSource (error : ScriptError) (lines : List String) : ScriptError :=
  { error with sourceLine := (error.diagnostic.attachSource lines).sourceLine }

end ScriptError

end LayoutScript
