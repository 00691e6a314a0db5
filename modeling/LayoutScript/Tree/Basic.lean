import LayoutScript.Tree.Operator

/-!
Syntax trees. Every node carries the range it was read from, and a node never
points back up the tree.
-/

namespace LayoutScript

/-- A target of a binding: a name, or a tuple of targets. -/
inductive Pattern where
  | identifier (span : Span) (name : String)
  | tuple (span : Span) (elements : List Pattern)
deriving Repr, Inhabited

mutual

inductive Expression where
  | literal (span : Span) (value : Literal)
  | identifier (span : Span) (name : String)
  | tuple (span : Span) (elements : List Expression)
  | binary (span : Span) (left : Expression) (operator : BinaryOperator) (right : Expression)
  | unary (span : Span) (operator : UnaryOperator) (operand : Expression)
  | call (span : Span) (callee : Expression) (arguments : List Expression)
  | member (span : Span) (target : Expression) (index : Nat)
  | conditional (span : Span) (condition whenTrue whenFalse : Expression)
  | rebind (span : Span) (name : String) (value : Expression)
  | function (span : Span) (parameters : List String) (body : Block)

inductive Statement where
  | declare (span : Span) (pattern : Pattern) (value : Expression)
  | assign (span : Span) (target : Pattern) (value : Expression)
  /-- A closed expression statement is evaluated for its effects alone. -/
  | evaluate (span : Span) (expression : Expression) (closed : Bool)
  | whileLoop (span : Span) (condition : Expression) (body : Block)
  | ifBlock (span : Span) (condition : Expression) (body : Block)
  /-- A named function; the function itself has the range of the whole statement. -/
  | define (span : Span) (name : String) (parameters : List String) (body : Block)

/-- The statements of a body. A body that ends in an open expression has the value
of that expression, any other body has no value. -/
inductive Block where
  | valued (span : Span) (statements : List Statement) (value : Expression)
  | silent (span : Span) (statements : List Statement)

end

deriving instance Repr for Expression, Statement, Block

instance : Inhabited Expression := ⟨.literal default .nothing⟩

instance : Inhabited Statement := ⟨.evaluate default default true⟩

instance : Inhabited Block := ⟨.silent default []⟩

structure Program where
  span : Span
  statements : List Statement
deriving Repr, Inhabited

def Pattern.span : Pattern → Span
  | .identifier span _ | .tuple span _ => span

def Expression.span : Expression → Span
  | .literal span _ | .identifier span _ | .tuple span _ | .binary span _ _ _ | .unary span _ _
  | .call span _ _ | .member span _ _ | .conditional span _ _ _ | .rebind span _ _
  | .function span _ _ => span

def Statement.span : Statement → Span
  | .declare span _ _ | .assign span _ _ | .evaluate span _ _ | .whileLoop span _ _
  | .ifBlock span _ _ | .define span _ _ _ => span

def Block.span : Block → Span
  | .valued span _ _ | .silent span _ => span

/-- The kinds of nodes. A named function has two: the statement and its function. -/
inductive NodeKind where
  | literal | identifier | tuple | binary | unary | call | member | conditional | rebind
  | function | namePattern | tuplePattern | declare | assign | evaluate
  | whileLoop | ifBlock | define | block | program
deriving Repr, DecidableEq

/-- The name of a kind of node in outlines and traces. -/
def NodeKind.name : NodeKind → String
  | literal => "Literal"
  | identifier => "Identifier"
  | tuple => "TupleExpr"
  | binary => "BinaryOp"
  | unary => "UnaryOp"
  | call => "FunctionCall"
  | member => "MemberAccess"
  | conditional => "ConditionalExpr"
  | rebind => "AssignExpr"
  | function => "FunctionLiteral"
  | namePattern => "IdentifierPattern"
  | tuplePattern => "TuplePattern"
  | declare => "LetStatement"
  | assign => "AssignmentStatement"
  | evaluate => "ExpressionStatement"
  | whileLoop => "WhileStatement"
  | ifBlock => "IfStatement"
  | define => "FunctionDef"
  | block => "Block"
  | program => "Program"

def Expression.kind : Expression → NodeKind
  | .literal _ _ => .literal
  | .identifier _ _ => .identifier
  | .tuple _ _ => .tuple
  | .binary _ _ _ _ => .binary
  | .unary _ _ _ => .unary
  | .call _ _ _ => .call
  | .member _ _ _ => .member
  | .conditional _ _ _ _ => .conditional
  | .rebind _ _ _ => .rebind
  | .function _ _ _ => .function

def Statement.kind : Statement → NodeKind
  | .declare _ _ _ => .declare
  | .assign _ _ _ => .assign
  | .evaluate _ _ _ => .evaluate
  | .whileLoop _ _ _ => .whileLoop
  | .ifBlock _ _ _ => .ifBlock
  | .define _ _ _ _ => .define

end LayoutScript
