import LayoutScript.Number.Shortest
import LayoutScript.Source.Span

/-!
Tokens: a class, the value it carries, its source text and its range.
-/

namespace LayoutScript

inductive TokenClass where
  | intLiteral | floatLiteral | stringLiteral | boolLiteral | noneLiteral
  | identifier
  | letWord | whileWord | fnWord | ifWord
  | plus | minus | star | slash | percent | doubleStar
  | less | greater | lessEqual | greaterEqual | equal | notEqual
  | andWord | orWord | notWord
  | assign | walrus
  | openParen | closeParen | comma | colon | dot | question | semicolon
  | indent | dedent | newline
  | endOfInput
deriving Repr, DecidableEq, Inhabited

namespace TokenClass

/-- All classes in their fixed order. -/
def all : List TokenClass :=
  [intLiteral, floatLiteral, stringLiteral, boolLiteral, noneLiteral, identifier,
   letWord, whileWord, fnWord, ifWord,
   plus, minus, star, slash, percent, doubleStar,
   less, greater, lessEqual, greaterEqual, equal, notEqual,
   andWord, orWord, notWord, assign, walrus,
   openParen, closeParen, comma, colon, dot, question, semicolon,
   indent, dedent, newline, endOfInput]

/-- The name of a class in token listings. -/
def name : TokenClass → String
  | intLiteral => "INT_LITERAL"
  | floatLiteral => "FLOAT_LITERAL"
  | stringLiteral => "STRING_LITERAL"
  | boolLiteral => "BOOL_LITERAL"
  | noneLiteral => "NONE_LITERAL"
  | identifier => "IDENTIFIER"
  | letWord => "LET"
  | whileWord => "WHILE"
  | fnWord => "FN"
  | ifWord => "IF"
  | plus => "PLUS"
  | minus => "MINUS"
  | star => "STAR"
  | slash => "SLASH"
  | percent => "PERCENT"
  | doubleStar => "DOUBLE_STAR"
  | less => "LT"
  | greater => "GT"
  | lessEqual => "LE"
  | greaterEqual => "GE"
  | equal => "EQ"
  | notEqual => "NE"
  | andWord => "AND"
  | orWord => "OR"
  | notWord => "NOT"
  | assign => "ASSIGN"
  | walrus => "WALRUS"
  | openParen => "LPAREN"
  | closeParen => "RPAREN"
  | comma => "COMMA"
  | colon => "COLON"
  | dot => "DOT"
  | question => "QUESTION"
  | semicolon => "SEMICOLON"
  | indent => "INDENT"
  | dedent => "DEDENT"
  | newline => "NEWLINE"
  | endOfInput => "EOF"

def ofName? (text : String) : Option TokenClass := all.find? fun kind => kind.name == text

/-- The place of a class in the fixed order, counted from one. -/
def ordinal (kind : TokenClass) : Nat := all.idxOf kind + 1

/-- How an operator is spelled in messages; a class that is no operator goes by
its name in lower case. -/
def symbol : TokenClass → String
  | plus => "+"
  | minus => "-"
  | star => "*"
  | slash => "/"
  | percent => "%"
  | doubleStar => "**"
  | less => "<"
  | greater => ">"
  | lessEqual => "<="
  | greaterEqual => ">="
  | equal => "=="
  | notEqual => "!="
  | andWord => "and"
  | orWord => "or"
  | notWord => "not"
  | walrus => ":="
  | kind => kind.name.toLower

/-- The words that are not identifiers. -/
def ofWord? : String → Option TokenClass
  | "let" => some letWord
  | "while" => some whileWord
  | "fn" => some fnWord
  | "if" => some ifWord
  | "and" => some andWord
  | "or" => some orWord
  | "not" => some notWord
  | "true" => some boolLiteral
  | "false" => some boolLiteral
  | "none" => some noneLiteral
  | _ => none

/-- The classes that only give structure to lines. -/
def isLayout : TokenClass → Bool
  | indent | dedent | newline => true
  | _ => false

end TokenClass

/-- The value of a literal, and what a token carries: nothing, a truth value, a
number or a text. -/
inductive Literal where
  | nothing
  | bool (value : Bool)
  | int (value : Nat)
  | float (value : Binary64)
  | text (value : String)
deriving Repr, DecidableEq, Inhabited

/-- The class of the tokens that denote a literal. -/
def Literal.tokenClass : Literal → TokenClass
  | .nothing => .noneLiteral
  | .bool _ => .boolLiteral
  | .int _ => .intLiteral
  | .float _ => .floatLiteral
  | .text _ => .stringLiteral

structure Token where
  kind : TokenClass
  payload : Literal
  lexeme : String
  span : Span
deriving Repr, DecidableEq, Inhabited

namespace Token

/-- The form of a token in listings: literals with text and names show it. -/
def text (token : Token) : String :=
  match token.kind with
  | .intLiteral | .floatLiteral | .stringLiteral | .identifier =>
      token.kind.name ++ "(" ++ token.lexeme ++ ")"
  | kind => kind.name

/-- The form of a token in messages. -/
def describe (token : Token) : String :=
  match token.kind with
  | .endOfInput => "end of input"
  | .newline => "newline"
  | .indent => "indent"
  | .dedent => "dedent"
  | _ => "'" ++ token.lexeme ++ "'"

/-- The literal that a token denotes, if it is a literal token. -/
def literal? (token : Token) : Option Literal :=
  if token.payload.tokenClass = token.kind then some token.payload else none

/-- The name that an identifier carries. -/
def name? (token : Token) : Option String :=
  match token.kind, token.payload with
  | .identifier, .text name => some name
  | _, _ => none

/-- The number that an integer literal carries. -/
def index? (token : Token) : Option Nat :=
  match token.kind, token.payload with
  | .intLiteral, .int index => some index
  | _, _ => none

end Token

end LayoutScript
