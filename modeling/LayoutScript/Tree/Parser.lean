import LayoutScript.Limits
import LayoutScript.Token.Lexer
import LayoutScript.Tree.Basic
import LayoutScript.Tree.Feed

/-!
Reading of trees by recursive descent. From the loosest to the tightest the levels
of an expression are rebinding, conditional, the binary operators by precedence,
unary operators, powers, and calls or members. All readers share one fuel, which is
computed from the number of tokens, and pass the depth of nesting down explicitly. The
limit on nesting is the only bound on depth here: that the stack of a host could be
exhausted before it, which is reported like the limit, is left out.
-/

namespace LayoutScript

mutual

/-- An expression taken as a target; fails at the first part that is no target. -/
def Expression.toPattern : Expression → Except ScriptError Pattern
  | .identifier span name => .ok (.identifier span name)
  | .tuple span elements => do return .tuple span (← Expression.toPatterns elements)
  | .literal span _ | .binary span _ _ _ | .unary span _ _ | .call span _ _ | .member span _ _
  | .conditional span _ _ _ | .rebind span _ _ | .function span _ _ =>
      .error (.located .invalidTarget span)

def Expression.toPatterns : List Expression → Except ScriptError (List Pattern)
  | [] => .ok []
  | expression :: expressions => do
      let pattern ← expression.toPattern
      return pattern :: (← Expression.toPatterns expressions)

end

/-- A body made of statements: a last open expression gives its value. -/
def Block.ofStatements (span : Span) (statements : List Statement) : Block :=
  match statements.getLast? with
  | some (.evaluate _ expression false) => .valued span statements.dropLast expression
  | _ => .silent span statements

namespace Parse

/-- The strength of the binary operator that a token spells. -/
def binary? (token : Token) : Option (BinaryOperator × Nat) := do
  let operator ← BinaryOperator.ofTokenClass? token.kind
  return (operator, ← operator.precedence?)

/-- Distinct parameter names up to the closing parenthesis; `names` were read before. -/
def parameterNames : Nat → List String → Parse (List String)
  | 0, _ => outOfFuel
  | fuel + 1, names => do
      let token ← consume .identifier .parameterName
      match token.name? with
      | none => unexpected .parameterName
      | some name =>
          if names.contains name then
            fail (.located (.unexpectedToken .distinctParameter token.describe) token.span)
          else
            let names := names ++ [name]
            if (← accept .comma).isNone then return names
            else if ← check .closeParen then return names
            else parameterNames fuel names

def parameters (fuel : Nat) : Parse (List String) := do
  let _ ← consume .openParen .openParen
  let names ← if ← check .closeParen then pure [] else parameterNames fuel []
  let _ ← consume .closeParen .closeParen
  return names

mutual

def pattern (limit : Nat) : Nat → Nat → Parse Pattern
  | 0, _ => outOfFuel
  | fuel + 1, depth => do
      let token ← current
      match token.name? with
      | some name =>
          let _ ← advance
          return .identifier token.span name
      | none =>
          if token.kind = .openParen then
            let _ ← advance
            enter limit depth token
            tuplePattern limit fuel (depth + 1) token
          else
            unexpected .patternStart

/-- The rest of a parenthesised target. A single one without a comma is no tuple. -/
def tuplePattern (limit : Nat) : Nat → Nat → Token → Parse Pattern
  | 0, _, _ => outOfFuel
  | fuel + 1, depth, start => do
      if (← accept .closeParen).isSome then
        return .tuple (← spanFrom start) []
      else
        let first ← pattern limit fuel depth
        if (← accept .closeParen).isSome then
          return first
        else
          let others ← morePatterns limit fuel depth
          let _ ← consume .closeParen .commaOrCloseParen
          return .tuple (← spanFrom start) (first :: others)

def morePatterns (limit : Nat) : Nat → Nat → Parse (List Pattern)
  | 0, _ => outOfFuel
  | fuel + 1, depth => do
      if (← accept .comma).isNone then return []
      else if ← check .closeParen then return []
      else
        let first ← pattern limit fuel depth
        return first :: (← morePatterns limit fuel depth)

end

mutual

def expression (limit : Nat) : Nat → Nat → Parse Expression
  | 0, _ => outOfFuel
  | fuel + 1, depth => do
      enter limit depth (← current)
      rebinding limit fuel (depth + 1)

def rebinding (limit : Nat) : Nat → Nat → Parse Expression
  | 0, _ => outOfFuel
  | fuel + 1, depth => do
      let target ← conditional limit fuel depth
      if (← acceptOpen .walrus).isNone then
        return target
      else
        match target with
        | .identifier span name =>
            let value ← expression limit fuel depth
            return .rebind (span.join value.span) name value
        | _ => fail (.located .invalidTarget target.span)

def conditional (limit : Nat) : Nat → Nat → Parse Expression
  | 0, _ => outOfFuel
  | fuel + 1, depth => do
      let condition ← binary limit fuel depth 0
      if (← acceptOpen .question).isNone then
        return condition
      else
        let whenTrue ← expression limit fuel depth
        let _ ← consume .colon .conditionalColon
        let whenFalse ← expression limit fuel depth
        return .conditional (condition.span.join whenFalse.span) condition whenTrue whenFalse

/-- Binary operators of at least the given strength. -/
def binary (limit : Nat) : Nat → Nat → Nat → Parse Expression
  | 0, _, _ => outOfFuel
  | fuel + 1, depth, least => do
      let left ← unary limit fuel depth
      binaryRest limit fuel depth least left

def binaryRest (limit : Nat) : Nat → Nat → Nat → Expression → Parse Expression
  | 0, _, _, _ => outOfFuel
  | fuel + 1, depth, least, left => do
      match binary? (← current) with
      | none => return left
      | some (operator, strength) =>
          if strength < least || (← blockClosed) then
            return left
          else
            let _ ← advance
            let right ← binary limit fuel depth (strength + 1)
            binaryRest limit fuel depth least
              (.binary (left.span.join right.span) left operator right)

def unary (limit : Nat) : Nat → Nat → Parse Expression
  | 0, _ => outOfFuel
  | fuel + 1, depth => do
      let token ← current
      match UnaryOperator.ofTokenClass? token.kind with
      | some operator =>
          let _ ← advance
          enter limit depth token
          let operand ← unary limit fuel (depth + 1)
          return .unary (token.span.join operand.span) operator operand
      | none => power limit fuel depth

/-- A power; its exponent may be a unary expression. -/
def power (limit : Nat) : Nat → Nat → Parse Expression
  | 0, _ => outOfFuel
  | fuel + 1, depth => do
      let base ← postfixed limit fuel depth
      match ← acceptOpen .doubleStar with
      | none => return base
      | some token =>
          enter limit depth token
          let exponent ← unary limit fuel (depth + 1)
          return .binary (base.span.join exponent.span) base .power exponent

def postfixed (limit : Nat) : Nat → Nat → Parse Expression
  | 0, _ => outOfFuel
  | fuel + 1, depth => do
      let subject ← primary limit fuel depth
      postfixRest limit fuel depth subject

/-- Calls and members of what was read so far. -/
def postfixRest (limit : Nat) : Nat → Nat → Expression → Parse Expression
  | 0, _, _ => outOfFuel
  | fuel + 1, depth, subject => do
      if ← blockClosed then
        return subject
      else
        let token ← current
        if token.kind = .openParen then
          let arguments ← callArguments limit fuel depth
          let listSpan ← spanFrom token
          postfixRest limit fuel depth (.call (subject.span.join listSpan) subject arguments)
        else if token.kind = .dot then
          let _ ← advance
          let indexToken ← consume .intLiteral .memberIndex
          match indexToken.index? with
          | some index =>
              postfixRest limit fuel depth
                (.member (subject.span.join indexToken.span) subject index)
          | none => unexpected .memberIndex
        else
          return subject

def callArguments (limit : Nat) : Nat → Nat → Parse (List Expression)
  | 0, _ => outOfFuel
  | fuel + 1, depth => do
      let _ ← consume .openParen .openParen
      let arguments ←
        if ← check .closeParen then pure []
        else do
          let first ← expression limit fuel depth
          pure (first :: (← moreExpressions limit fuel depth))
      let _ ← consume .closeParen .closeParen
      return arguments

/-- Further expressions, each behind a comma; the last comma may stand alone. -/
def moreExpressions (limit : Nat) : Nat → Nat → Parse (List Expression)
  | 0, _ => outOfFuel
  | fuel + 1, depth => do
      if (← accept .comma).isNone then return []
      else if ← check .closeParen then return []
      else
        let first ← expression limit fuel depth
        return first :: (← moreExpressions limit fuel depth)

def primary (limit : Nat) : Nat → Nat → Parse Expression
  | 0, _ => outOfFuel
  | fuel + 1, depth => do
      let token ← current
      match token.literal?, token.name? with
      | some value, _ =>
          let _ ← advance
          return .literal token.span value
      | none, some name =>
          let _ ← advance
          return .identifier token.span name
      | none, none =>
          if token.kind = .openParen then group limit fuel depth
          else if token.kind = .fnWord then functionLiteral limit fuel depth
          else unexpected .expression

/-- A parenthesised expression or a tuple. A single expression without a comma is
only grouped and keeps its own range. -/
def group (limit : Nat) : Nat → Nat → Parse Expression
  | 0, _ => outOfFuel
  | fuel + 1, depth => do
      let start ← advance
      if (← accept .closeParen).isSome then
        return .tuple (← spanFrom start) []
      else
        let first ← expression limit fuel depth
        if (← accept .closeParen).isSome then
          return first
        else
          let others ← moreExpressions limit fuel depth
          let _ ← consume .closeParen .commaOrCloseParen
          return .tuple (← spanFrom start) (first :: others)

/-- A function without a name; its body is an expression or an indented block. -/
def functionLiteral (limit : Nat) : Nat → Nat → Parse Expression
  | 0, _ => outOfFuel
  | fuel + 1, depth => do
      let start ← advance
      if ← check .identifier then
        unexpected .anonymousParen
      else
        let names ← parameters fuel
        let _ ← consume .colon .colon
        let body ←
          if ← check .newline then block limit fuel depth
          else do
            let value ← expression limit fuel depth
            pure (.valued value.span [] value)
        return .function (← spanFrom start) names body

/-- A body behind a colon: an indented block, or one statement on the same line. -/
def block (limit : Nat) : Nat → Nat → Parse Block
  | 0, _ => outOfFuel
  | fuel + 1, depth => do
      let start ← current
      enter limit depth start
      let statements ←
        if (← accept .newline).isSome then do
          skipNewlines
          let _ ← consume .indent .indentedBlock
          let statements ← blockStatements limit fuel (depth + 1)
          let _ ← consume .dedent .blockEnd
          pure statements
        else do
          pure [← statement limit fuel (depth + 1)]
      return .ofStatements (← spanFrom start) statements

/-- Statements up to the end of a block. -/
def blockStatements (limit : Nat) : Nat → Nat → Parse (List Statement)
  | 0, _ => outOfFuel
  | fuel + 1, depth => do
      let token ← current
      if token.kind = .dedent || token.kind = .endOfInput then
        return []
      else
        let first ← statement limit fuel depth
        skipNewlines
        return first :: (← blockStatements limit fuel depth)

def statement (limit : Nat) : Nat → Nat → Parse Statement
  | 0, _ => outOfFuel
  | fuel + 1, depth => do
      skipNewlines
      let token ← current
      match token.kind with
      | .letWord => declaration limit fuel depth
      | .whileWord => conditioned limit fuel depth .whileLoop
      | .ifWord => conditioned limit fuel depth .ifBlock
      | .fnWord =>
          if (← second).kind = .identifier then definition limit fuel depth
          else simpleStatement limit fuel depth token
      | _ => simpleStatement limit fuel depth token

/-- An assignment or an expression, which a semicolon may close. -/
def simpleStatement (limit : Nat) : Nat → Nat → Token → Parse Statement
  | 0, _, _ => outOfFuel
  | fuel + 1, depth, start => do
      let subject ← expression limit fuel depth
      if (← acceptOpen .assign).isSome then
        let target ← ofExcept subject.toPattern
        let value ← expression limit fuel depth
        statementEnd
        return .assign (subject.span.join value.span) target value
      else
        let closed := (← acceptOpen .semicolon).isSome
        let span ← if closed then spanFrom start else pure subject.span
        statementEnd
        return .evaluate span subject closed

def declaration (limit : Nat) : Nat → Nat → Parse Statement
  | 0, _ => outOfFuel
  | fuel + 1, depth => do
      let start ← advance
      let target ← pattern limit fuel depth
      let _ ← consume .assign .assignSign
      let value ← expression limit fuel depth
      let span ← spanFrom start
      statementEnd
      return .declare span target value

/-- A condition with a body. -/
def conditioned (limit : Nat) :
    Nat → Nat → (Span → Expression → Block → Statement) → Parse Statement
  | 0, _, _ => outOfFuel
  | fuel + 1, depth, make => do
      let start ← advance
      let condition ← expression limit fuel depth
      let _ ← consume .colon .colon
      let body ← block limit fuel depth
      return make (← spanFrom start) condition body

def definition (limit : Nat) : Nat → Nat → Parse Statement
  | 0, _ => outOfFuel
  | fuel + 1, depth => do
      let start ← advance
      let nameToken ← consume .identifier .functionName
      match nameToken.name? with
      | none => unexpected .functionName
      | some name =>
          let names ← parameters fuel
          let _ ← consume .colon .colon
          let body ← block limit fuel depth
          return .define (← spanFrom start) name names body

end

/-- Statements up to the end of input. -/
def programStatements (limit : Nat) : Nat → Parse (List Statement)
  | 0 => outOfFuel
  | fuel + 1 => do
      let token ← current
      if token.kind = .endOfInput then
        return []
      else
        let first ← statement limit fuel 0
        skipNewlines
        return first :: (← programStatements limit fuel)

def program (limit fuel : Nat) : Parse Program := do
  let start ← current
  skipNewlines
  let statements ← programStatements limit fuel
  return ⟨← spanFrom start, statements⟩

/-- Fuel that suffices for a number of tokens: fewer than this many calls lie
between two tokens. -/
def fuelFor (tokens : Nat) : Nat := 24 * (tokens + 2)

end Parse

/-- Reads a program from tokens. -/
def Program.ofFeed (feed : Feed) (limits : Limits) : Except Halt Program :=
  ((Parse.program limits.nesting (Parse.fuelFor feed.rest.length)).run feed).map (·.1)

def Program.ofTokens (tokens : List Token) (file : Option String) (limits : Limits) :
    Except Halt Program :=
  Program.ofFeed (.ofTokens tokens none file) limits

/-- Reads a program from source text. Errors quote the line they start in. -/
def Program.ofSource (source : String) (file : Option String) (limits : Limits) :
    Except Halt Program :=
  let reading := tokenize source file
  match Program.ofFeed (.ofTokens reading.tokens reading.failure file) limits with
  | .ok program => .ok program
  | .error .outOfFuel => .error .outOfFuel
  | .error (.error error) => .error (.error (error.attachSource reading.lexer.lines))

end LayoutScript
