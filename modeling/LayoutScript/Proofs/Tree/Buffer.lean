import LayoutScript.Tree.Parser

/-!
Reading from a buffer. Tokens are pulled from a stream when a reader first looks at them, and are
found by their index from then on. Readers of this kind keep the books that the readers from a feed
do without: an index that is out of range is a fault of its own, and the calls that are active at
once are counted. Loops are not calls.
-/

namespace LayoutScript

/-- The tokens that were pulled from a stream and the index of the current one. The calls that have
not returned are counted, and the most that there have been. -/
structure Buffer where
  file : Option String
  tokens : List Token
  stream : List Token
  position : Nat
  active : Nat
  peak : Nat

namespace Buffer

def ofTokens (tokens : List Token) (file : Option String) : Buffer := ⟨file, [], tokens, 0, 0, 0⟩

/-- Nothing is pulled any more once an index is buffered or the input has ended. -/
def served (tokens : List Token) (index : Nat) : Bool :=
  index < tokens.length || tokens.getLast?.any fun token => token.kind == .endOfInput

/-- Tokens go from the stream to the buffer. A stream that lacks the end of input gets one. -/
def pull (file : Option String) (index : Nat) : List Token → List Token → List Token × List Token
  | tokens, [] =>
      if served tokens index then (tokens, []) else (tokens ++ [Feed.endBehind tokens file], [])
  | tokens, token :: stream =>
      if served tokens index then (tokens, token :: stream)
      else pull file index (tokens ++ [token]) stream

def fill (index : Nat) (buffer : Buffer) : Buffer :=
  let pulled := pull buffer.file index buffer.tokens buffer.stream
  { buffer with tokens := pulled.1, stream := pulled.2 }

/-- How many tokens are ahead, the current one included. -/
def ahead (buffer : Buffer) : Nat :=
  buffer.tokens.length + buffer.stream.length - buffer.position

def moved (buffer : Buffer) : Buffer := { buffer with position := buffer.position + 1 }

/-- One more call is active. -/
def entered (buffer : Buffer) : Buffer :=
  { buffer with active := buffer.active + 1, peak := max buffer.peak (buffer.active + 1) }

def left (buffer : Buffer) : Buffer := { buffer with active := buffer.active - 1 }

/-- Why a reading from a buffer stopped. -/
inductive Fault where
  | halt (halt : Halt)
  | outOfRange

end Buffer

/-- A reader of trees that takes tokens from a buffer. -/
abbrev Buffered := ExceptT Buffer.Fault (StateM Buffer)

namespace Buffered

section Steps

variable {α : Type}

def outOfFuel : Buffered α := throw (.halt .outOfFuel)

def fail (error : ScriptError) : Buffered α := throw (.halt (.error error))

/-- A call is active until its body returns or fails. -/
def calling (body : Buffered α) : Buffered α :=
  ExceptT.mk fun buffer => ((body.run buffer.entered).1, (body.run buffer.entered).2.left)

/-- What an index holds, if it is in range. -/
def inRange : Option Token → Buffered Token
  | some token => pure token
  | none => throw .outOfRange

/-- The token at an index. -/
def fetch (index : Nat) : Buffered Token := do inRange (← get).tokens[index]?

/-- The token some places behind the current one; behind the end of input, the last one. -/
def peek (offset : Nat) : Buffered Token := do
  modify fun buffer => buffer.fill (buffer.position + offset)
  let buffer ← get
  if buffer.tokens.length ≤ buffer.position + offset then fetch (buffer.tokens.length - 1)
  else fetch (buffer.position + offset)

def current : Buffered Token := peek 0

def second : Buffered Token := peek 1

/-- The token in front of an index. -/
def fetchBefore : Nat → Buffered Token
  | 0 => throw .outOfRange
  | index + 1 => fetch index

/-- The token that was taken last. -/
def taken : Buffered Token := do fetchBefore (← get).position

def previous : Buffered (Option Token) := do
  if (← get).position = 0 then return none else return some (← taken)

def blockClosed : Buffered Bool := do
  return (← previous).any fun token => token.kind == .dedent

def advance : Buffered Token := do
  let token ← current
  if token.kind = .endOfInput then return token
  else
    modify Buffer.moved
    return token

def check (kind : TokenClass) : Buffered Bool := do return (← current).kind == kind

def accept (kind : TokenClass) : Buffered (Option Token) := do
  if (← current).kind = kind then return some (← advance) else return none

def acceptOpen (kind : TokenClass) : Buffered (Option Token) := do
  if ← blockClosed then return none else accept kind

def unexpected (expected : Expectation) : Buffered α := do
  let token ← current
  if token.kind = .endOfInput then fail (.located (.unexpectedEnd expected) token.span)
  else fail (.located (.unexpectedToken expected token.describe) token.span)

def consume (kind : TokenClass) (expected : Expectation) : Buffered Token := do
  if (← current).kind = kind then advance else unexpected expected

def skipUpTo : Nat → Buffered Unit
  | 0 => outOfFuel
  | count + 1 => do
      if (← accept .newline).isSome then skipUpTo count else return ()

/-- Takes all newlines in front; the loop ends before the tokens do. -/
def skipNewlines : Buffered Unit := do skipUpTo ((← get).ahead + 1)

def enter (limit depth : Nat) (token : Token) : Buffered Unit :=
  if depth + 1 > limit then fail (.located (.nestingTooDeep limit) token.span) else pure ()

/-- The range from a token to the one taken last, or to the first one of all. -/
def spanFrom (start : Token) : Buffered Span := do
  return start.span.join (← fetch ((← get).position - 1)).span

def statementEnd : Buffered Unit := do
  let token ← current
  if token.kind = .endOfInput || token.kind = .dedent then
    return ()
  else if token.kind = .newline then
    let _ ← advance
  else
    match ← previous with
    | some previous =>
        if previous.kind = .newline || previous.kind = .dedent then return ()
        else unexpected .statementEnd
    | none => unexpected .statementEnd

end Steps

mutual

/-- An expression taken as a target, one call for each part. -/
def target : Expression → Buffered Pattern
  | .identifier span name => calling (pure (.identifier span name))
  | .tuple span elements => calling do return .tuple span (← targets elements)
  | .literal span _ | .binary span _ _ _ | .unary span _ _ | .call span _ _ | .member span _ _
  | .conditional span _ _ _ | .rebind span _ _ | .function span _ _ =>
      calling (fail (.located .invalidTarget span))

def targets : List Expression → Buffered (List Pattern)
  | [] => pure []
  | expression :: expressions => do
      let first ← target expression
      return first :: (← targets expressions)

end

def parameterNames : Nat → List String → Buffered (List String)
  | 0, _ => outOfFuel
  | fuel + 1, names => do
      let token ← consume .identifier .parameterName
      match token.name? with
      | none => unexpected .parameterName
      | some name =>
          if names.contains name then
            fail (.located (.unexpectedToken .distinctParameter token.describe) token.span)
          else
            let names := names ++ [name]
            if (← accept .comma).isNone then return names
            else if ← check .closeParen then return names
            else parameterNames fuel names

def parameters (fuel : Nat) : Buffered (List String) := calling do
  let _ ← consume .openParen .openParen
  let names ← if ← check .closeParen then pure [] else parameterNames fuel []
  let _ ← consume .closeParen .closeParen
  return names

mutual

def pattern (limit : Nat) : Nat → Nat → Buffered Pattern
  | 0, _ => outOfFuel
  | fuel + 1, depth => calling do
      let token ← current
      match token.name? with
      | some name =>
          let _ ← advance
          return .identifier token.span name
      | none =>
          if token.kind = .openParen then
            let _ ← advance
            enter limit depth token
            tuplePattern limit fuel (depth + 1) token
          else
            unexpected .patternStart

def tuplePattern (limit : Nat) : Nat → Nat → Token → Buffered Pattern
  | 0, _, _ => outOfFuel
  | fuel + 1, depth, start => do
      if (← accept .closeParen).isSome then
        return .tuple (← spanFrom start) []
      else
        let first ← pattern limit fuel depth
        if (← accept .closeParen).isSome then
          return first
        else
          let others ← morePatterns limit fuel depth
          let _ ← consume .closeParen .commaOrCloseParen
          return .tuple (← spanFrom start) (first :: others)

def morePatterns (limit : Nat) : Nat → Nat → Buffered (List Pattern)
  | 0, _ => outOfFuel
  | fuel + 1, depth => do
      if (← accept .comma).isNone then return []
      else if ← check .closeParen then return []
      else
        let first ← pattern limit fuel depth
        return first :: (← morePatterns limit fuel depth)

end

mutual

def expression (limit : Nat) : Nat → Nat → Buffered Expression
  | 0, _ => outOfFuel
  | fuel + 1, depth => calling do
      enter limit depth (← current)
      rebinding limit fuel (depth + 1)

def rebinding (limit : Nat) : Nat → Nat → Buffered Expression
  | 0, _ => outOfFuel
  | fuel + 1, depth => calling do
      let target ← conditional limit fuel depth
      if (← acceptOpen .walrus).isNone then
        return target
      else
        match target with
        | .identifier span name =>
            let value ← expression limit fuel depth
            return .rebind (span.join value.span) name value
        | _ => fail (.located .invalidTarget target.span)

def conditional (limit : Nat) : Nat → Nat → Buffered Expression
  | 0, _ => outOfFuel
  | fuel + 1, depth => calling do
      let condition ← binary limit fuel depth 0
      if (← acceptOpen .question).isNone then
        return condition
      else
        let whenTrue ← expression limit fuel depth
        let _ ← consume .colon .conditionalColon
        let whenFalse ← expression limit fuel depth
        return .conditional (condition.span.join whenFalse.span) condition whenTrue whenFalse

def binary (limit : Nat) : Nat → Nat → Nat → Buffered Expression
  | 0, _, _ => outOfFuel
  | fuel + 1, depth, least => calling do
      let left ← unary limit fuel depth
      binaryRest limit fuel depth least left

def binaryRest (limit : Nat) : Nat → Nat → Nat → Expression → Buffered Expression
  | 0, _, _, _ => outOfFuel
  | fuel + 1, depth, least, left => do
      match Parse.binary? (← current) with
      | none => return left
      | some (operator, strength) =>
          if strength < least || (← blockClosed) then
            return left
          else
            let _ ← advance
            let right ← binary limit fuel depth (strength + 1)
            binaryRest limit fuel depth least
              (.binary (left.span.join right.span) left operator right)

def unary (limit : Nat) : Nat → Nat → Buffered Expression
  | 0, _ => outOfFuel
  | fuel + 1, depth => calling do
      let token ← current
      match UnaryOperator.ofTokenClass? token.kind with
      | some operator =>
          let _ ← advance
          enter limit depth token
          let operand ← unary limit fuel (depth + 1)
          return .unary (token.span.join operand.span) operator operand
      | none => power limit fuel depth

def power (limit : Nat) : Nat → Nat → Buffered Expression
  | 0, _ => outOfFuel
  | fuel + 1, depth => calling do
      let base ← postfixed limit fuel depth
      match ← acceptOpen .doubleStar with
      | none => return base
      | some token =>
          enter limit depth token
          let exponent ← unary limit fuel (depth + 1)
          return .binary (base.span.join exponent.span) base .power exponent

def postfixed (limit : Nat) : Nat → Nat → Buffered Expression
  | 0, _ => outOfFuel
  | fuel + 1, depth => calling do
      let subject ← primary limit fuel depth
      postfixRest limit fuel depth subject

/-- Every list of arguments is read by a call of its own, inside a call for the whole. -/
def postfixRest (limit : Nat) : Nat → Nat → Expression → Buffered Expression
  | 0, _, _ => outOfFuel
  | fuel + 1, depth, subject => do
      if ← blockClosed then
        return subject
      else
        let token ← current
        if token.kind = .openParen then
          let tree ← calling do
            let arguments ← callArguments limit fuel depth
            return .call (subject.span.join (← taken).span) subject arguments
          postfixRest limit fuel depth tree
        else if token.kind = .dot then
          let _ ← advance
          let indexToken ← consume .intLiteral .memberIndex
          match indexToken.index? with
          | some index =>
              postfixRest limit fuel depth
                (.member (subject.span.join indexToken.span) subject index)
          | none => unexpected .memberIndex
        else
          return subject

def callArguments (limit : Nat) : Nat → Nat → Buffered (List Expression)
  | 0, _ => outOfFuel
  | fuel + 1, depth => calling do
      let _ ← consume .openParen .openParen
      let arguments ←
        if ← check .closeParen then pure []
        else do
          let first ← expression limit fuel depth
          pure (first :: (← moreExpressions limit fuel depth))
      let _ ← consume .closeParen .closeParen
      return arguments

def moreExpressions (limit : Nat) : Nat → Nat → Buffered (List Expression)
  | 0, _ => outOfFuel
  | fuel + 1, depth => do
      if (← accept .comma).isNone then return []
      else if ← check .closeParen then return []
      else
        let first ← expression limit fuel depth
        return first :: (← moreExpressions limit fuel depth)

def primary (limit : Nat) : Nat → Nat → Buffered Expression
  | 0, _ => outOfFuel
  | fuel + 1, depth => calling do
      let token ← current
      match token.literal?, token.name? with
      | some value, _ =>
          let _ ← advance
          return .literal token.span value
      | none, some name =>
          let _ ← advance
          return .identifier token.span name
      | none, none =>
          if token.kind = .openParen then group limit fuel depth
          else if token.kind = .fnWord then functionLiteral limit fuel depth
          else unexpected .expression

def group (limit : Nat) : Nat → Nat → Buffered Expression
  | 0, _ => outOfFuel
  | fuel + 1, depth => calling do
      let start ← advance
      if (← accept .closeParen).isSome then
        return .tuple (← spanFrom start) []
      else
        let first ← expression limit fuel depth
        if (← accept .closeParen).isSome then
          return first
        else
          let others ← moreExpressions limit fuel depth
          let _ ← consume .closeParen .commaOrCloseParen
          return .tuple (← spanFrom start) (first :: others)

def functionLiteral (limit : Nat) : Nat → Nat → Buffered Expression
  | 0, _ => outOfFuel
  | fuel + 1, depth => calling do
      let start ← advance
      if ← check .identifier then
        unexpected .anonymousParen
      else
        let names ← parameters fuel
        let _ ← consume .colon .colon
        let body ←
          if ← check .newline then block limit fuel depth
          else do
            let value ← expression limit fuel depth
            pure (.valued value.span [] value)
        return .function (← spanFrom start) names body

def block (limit : Nat) : Nat → Nat → Buffered Block
  | 0, _ => outOfFuel
  | fuel + 1, depth => calling do
      let start ← current
      enter limit depth start
      let statements ←
        if (← accept .newline).isSome then do
          skipNewlines
          let _ ← consume .indent .indentedBlock
          let statements ← blockStatements limit fuel (depth + 1)
          let _ ← consume .dedent .blockEnd
          pure statements
        else do
          pure [← statement limit fuel (depth + 1)]
      return .ofStatements (← spanFrom start) statements

def blockStatements (limit : Nat) : Nat → Nat → Buffered (List Statement)
  | 0, _ => outOfFuel
  | fuel + 1, depth => do
      let token ← current
      if token.kind = .dedent || token.kind = .endOfInput then
        return []
      else
        let first ← statement limit fuel depth
        skipNewlines
        return first :: (← blockStatements limit fuel depth)

def statement (limit : Nat) : Nat → Nat → Buffered Statement
  | 0, _ => outOfFuel
  | fuel + 1, depth => calling do
      skipNewlines
      let token ← current
      match token.kind with
      | .letWord => declaration limit fuel depth
      | .whileWord => conditioned limit fuel depth .whileLoop
      | .ifWord => conditioned limit fuel depth .ifBlock
      | .fnWord =>
          if (← second).kind = .identifier then definition limit fuel depth
          else simpleStatement limit fuel depth token
      | _ => simpleStatement limit fuel depth token

def simpleStatement (limit : Nat) : Nat → Nat → Token → Buffered Statement
  | 0, _, _ => outOfFuel
  | fuel + 1, depth, start => do
      let subject ← expression limit fuel depth
      if (← acceptOpen .assign).isSome then
        let target ← target subject
        let value ← expression limit fuel depth
        statementEnd
        return .assign (subject.span.join value.span) target value
      else
        let closed := (← acceptOpen .semicolon).isSome
        let span ← if closed then spanFrom start else pure subject.span
        statementEnd
        return .evaluate span subject closed

def declaration (limit : Nat) : Nat → Nat → Buffered Statement
  | 0, _ => outOfFuel
  | fuel + 1, depth => calling do
      let start ← advance
      let target ← pattern limit fuel depth
      let _ ← consume .assign .assignSign
      let value ← expression limit fuel depth
      let span ← spanFrom start
      statementEnd
      return .declare span target value

def conditioned (limit : Nat) :
    Nat → Nat → (Span → Expression → Block → Statement) → Buffered Statement
  | 0, _, _ => outOfFuel
  | fuel + 1, depth, make => calling do
      let start ← advance
      let condition ← expression limit fuel depth
      let _ ← consume .colon .colon
      let body ← block limit fuel depth
      return make (← spanFrom start) condition body

def definition (limit : Nat) : Nat → Nat → Buffered Statement
  | 0, _ => outOfFuel
  | fuel + 1, depth => calling do
      let start ← advance
      let nameToken ← consume .identifier .functionName
      match nameToken.name? with
      | none => unexpected .functionName
      | some name =>
          let names ← parameters fuel
          let _ ← consume .colon .colon
          let body ← block limit fuel depth
          return .define (← spanFrom start) name names body

end

def programStatements (limit : Nat) : Nat → Buffered (List Statement)
  | 0 => outOfFuel
  | fuel + 1 => do
      let token ← current
      if token.kind = .endOfInput then
        return []
      else
        let first ← statement limit fuel 0
        skipNewlines
        return first :: (← programStatements limit fuel)

def program (limit fuel : Nat) : Buffered Program := calling do
  let start ← current
  skipNewlines
  let statements ← programStatements limit fuel
  return ⟨← spanFrom start, statements⟩

end Buffered

/-- Reads a program through a buffer, and gives what is left of the buffer as well. -/
def Program.ofBuffer (tokens : List Token) (file : Option String) (limits : Limits) :
    Except Buffer.Fault Program × Buffer :=
  (Buffered.program limits.nesting (Parse.fuelFor tokens.length)).run (.ofTokens tokens file)

end LayoutScript
