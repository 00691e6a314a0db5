import LayoutScript.Diagnostic.Cause

/-!
A feed hands tokens to a reader of trees. It knows the token that was taken last
and what stands behind the last token: the end of input, or an error that comes to
light only when a reader looks that far.
-/

namespace LayoutScript

structure Feed where
  previous : Option Token
  rest : List Token
  ending : Except ScriptError Token

/-- Why reading a tree stopped: an error of the script, or too little fuel. -/
inductive Halt where
  | error (error : ScriptError)
  | outOfFuel
deriving Repr, DecidableEq

/-- A reader of trees takes tokens from a feed. -/
abbrev Parse := StateT Feed (Except Halt)

namespace Feed

/-- The end of input behind a list of tokens that may lack one. It lies at the end
of the last token. -/
def endBehind (tokens : List Token) (file : Option String) : Token :=
  let span : Span := match tokens.getLast? with
    | some token => ⟨token.span.file, token.span.stop, token.span.stop⟩
    | none => ⟨file, .start, .start⟩
  ⟨.endOfInput, .nothing, "", span⟩

/-- A feed of tokens, followed by an error or by the end of input. -/
def ofTokens (tokens : List Token) (failure : Option ScriptError) (file : Option String) : Feed :=
  { previous := none
    rest := tokens
    ending := match failure with
      | some error => .error error
      | none => .ok (endBehind tokens file) }

def current (feed : Feed) : Except ScriptError Token :=
  match feed.rest with
  | token :: _ => .ok token
  | [] => feed.ending

/-- The token behind the current one; nothing is behind the end of input. -/
def second (feed : Feed) : Except ScriptError Token :=
  match feed.rest with
  | [] => feed.ending
  | token :: rest =>
      if token.kind = .endOfInput then .ok token
      else match rest with
        | next :: _ => .ok next
        | [] => feed.ending

/-- Takes the current token; the end of input is never taken. -/
def advance (feed : Feed) : Feed :=
  match feed.rest with
  | [] => feed
  | token :: rest =>
      if token.kind = .endOfInput then feed else { feed with previous := some token, rest := rest }

/-- Takes all newlines in front. -/
def skipNewlinesFrom (ending : Except ScriptError Token) : Option Token → List Token → Feed
  | previous, [] => ⟨previous, [], ending⟩
  | previous, token :: rest =>
      if token.kind = .newline then skipNewlinesFrom ending (some token) rest
      else ⟨previous, token :: rest, ending⟩

def skipNewlines (feed : Feed) : Feed := skipNewlinesFrom feed.ending feed.previous feed.rest

/-- True right behind an indented body. No operator can continue the expression
that ended with it. -/
def blockClosed (feed : Feed) : Bool := feed.previous.any fun token => token.kind == .dedent

end Feed

namespace Parse

def fail {α : Type} (error : ScriptError) : Parse α := throw (.error error)

def outOfFuel {α : Type} : Parse α := throw .outOfFuel

def ofExcept {α : Type} : Except ScriptError α → Parse α
  | .ok value => pure value
  | .error error => fail error

def current : Parse Token := do ofExcept (← get).current

def second : Parse Token := do ofExcept (← get).second

def blockClosed : Parse Bool := do return (← get).blockClosed

def skipNewlines : Parse Unit := modify Feed.skipNewlines

/-- Takes the current token, whatever it is. -/
def advance : Parse Token := do
  let token ← current
  modify Feed.advance
  return token

def check (kind : TokenClass) : Parse Bool := do return (← current).kind == kind

/-- Takes the current token if it has the class. -/
def accept (kind : TokenClass) : Parse (Option Token) := do
  if (← current).kind = kind then return some (← advance) else return none

/-- Takes the current token if it has the class and no indented body has just
ended. -/
def acceptOpen (kind : TokenClass) : Parse (Option Token) := do
  if ← blockClosed then return none else accept kind

/-- The error of finding something other than what is expected. -/
def unexpected {α : Type} (expected : Expectation) : Parse α := do
  let token ← current
  if token.kind = .endOfInput then fail (.located (.unexpectedEnd expected) token.span)
  else fail (.located (.unexpectedToken expected token.describe) token.span)

def consume (kind : TokenClass) (expected : Expectation) : Parse Token := do
  if (← current).kind = kind then advance else unexpected expected

/-- Enters one more level of nesting. -/
def enter (limit depth : Nat) (token : Token) : Parse Unit :=
  if depth + 1 > limit then fail (.located (.nestingTooDeep limit) token.span) else pure ()

/-- The range from a token to the one taken last. -/
def spanFrom (start : Token) : Parse Span := do
  return start.span.join ((← get).previous.getD start).span

/-- Expects the end of a statement. An indented body at the end of the statement
has taken it already. -/
def statementEnd : Parse Unit := do
  let token ← current
  if token.kind = .endOfInput || token.kind = .dedent then
    return ()
  else if token.kind = .newline then
    modify Feed.advance
  else
    match (← get).previous with
    | some previous =>
        if previous.kind = .newline || previous.kind = .dedent then return ()
        else unexpected .statementEnd
    | none => unexpected .statementEnd

end Parse

end LayoutScript
