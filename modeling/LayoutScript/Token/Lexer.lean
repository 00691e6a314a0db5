import LayoutScript.Text.Lines
import LayoutScript.Token.Scan

/-!
The lexer turns source text into tokens one at a time. Leading blanks become
indent and dedent tokens, line feeds outside parentheses become newline tokens,
and blank lines and comments leave no trace. After an error the lexer is where
scanning gave up and can be asked for the next token.
-/

namespace LayoutScript

/-- The state between two tokens. `indents` holds the widths of the open blocks,
innermost first; the outermost level has width zero and is not listed. `size` is the
length of the source, which bounds every scan. -/
structure Lexer where
  source : List Char
  size : Nat
  file : Option String
  cursor : Cursor
  indents : List Nat
  indentChar : Option Char
  atLineStart : Bool
  pending : List Token
  depth : Nat
  last : Option TokenClass
  finished : Bool
deriving Repr

namespace Lexer

def ofText (source : String) (file : Option String) : Lexer :=
  let text := Text.dropReturns source.toList
  { source := text, size := text.length, file, cursor := .ofText text, indents := [], indentChar := none
    atLineStart := true, pending := [], depth := 0, last := none, finished := false }

/-- The lines that diagnostics quote. -/
def lines (lexer : Lexer) : List String := Text.lines lexer.source

def fail (lexer : Lexer) (cause : Cause) (start stop : Cursor) : ScriptError :=
  (ScriptError.located cause (start.spanTo stop lexer.file)).attachSource lexer.lines

/-- A token without text or value between two cursors. -/
def layoutToken (lexer : Lexer) (kind : TokenClass) (start stop : Cursor) : Token :=
  ⟨kind, .nothing, "", start.spanTo stop lexer.file⟩

def isBlank (char : Char) : Bool := char == ' ' || char == '\t'

def isSpace (char : Char) : Bool := isBlank char || char == '\r'

def isNotLineFeed (char : Char) : Bool := char != '\n'

def skipComment (cursor : Cursor) : Cursor :=
  if cursor.peek? = some '#' then cursor.skipWhile isNotLineFeed else cursor

/-- The beginning of a line: where it starts, its leading blanks, and the cursor
behind them and behind returns and a comment that follow. -/
structure Margin where
  start : Cursor
  blanks : List Char
  stop : Cursor

def Margin.read (start : Cursor) : Margin :=
  let blanksEnd := start.skipWhile isBlank
  let stop := skipComment (blanksEnd.skipWhile (· == '\r'))
  ⟨start, start.textTo blanksEnd, stop⟩

/-- The margin of the first line that is neither blank nor a comment. -/
def Margin.skipEmpty : Nat → Cursor → Margin
  | 0, start => Margin.read start
  | fuel + 1, start =>
      let margin := Margin.read start
      if margin.stop.peek? = some '\n' then Margin.skipEmpty fuel margin.stop.advance else margin

/-- Closes the open blocks wider than the indentation. -/
def closeBlocks (width : Nat) : List Nat → Nat × List Nat
  | [] => (0, [])
  | innermost :: outer =>
      if innermost > width then
        let (closed, remaining) := closeBlocks width outer
        (closed + 1, remaining)
      else (0, innermost :: outer)

/-- The tokens that the indentation of a line makes, in order. -/
def indentTokens (lexer : Lexer) (margin : Margin) :
    Except ScriptError (List Token) × Lexer :=
  let width := margin.blanks.length
  let current := lexer.indents.headD 0
  if width > current then
    (.ok [lexer.layoutToken .indent margin.start margin.stop],
      { lexer with indents := width :: lexer.indents })
  else
    let (closed, remaining) := closeBlocks width lexer.indents
    let after := { lexer with indents := remaining }
    if remaining.headD 0 = width then
      (.ok (List.replicate closed (lexer.layoutToken .dedent margin.start margin.stop)), after)
    else
      (.error (lexer.fail .inconsistentIndentation margin.start margin.stop), after)

/-- Handles the start of a line: skips empty lines and turns the indentation of
the first other line into tokens. The first indented line fixes whether the source
indents with blanks or with tabs. -/
def beginLine (lexer : Lexer) : Except ScriptError (List Token) × Lexer :=
  let margin := Margin.skipEmpty lexer.size lexer.cursor
  let lexer := { lexer with cursor := margin.stop, atLineStart := false }
  if margin.stop.rest.isEmpty || lexer.depth > 0 then
    (.ok [], lexer)
  else
    match margin.blanks with
    | [] => lexer.indentTokens margin
    | first :: _ =>
        let indentChar := lexer.indentChar.getD first
        let lexer := { lexer with indentChar := some indentChar }
        if margin.blanks.all (· == indentChar) then lexer.indentTokens margin
        else (.error (lexer.fail .mixedIndentation margin.start margin.stop), lexer)

/-- Whether the end of input still has to end a line. -/
def lineIsOpen (lexer : Lexer) : Bool :=
  lexer.depth == 0 &&
    match lexer.last with
    | none | some .newline | some .indent | some .dedent => false
    | some _ => true

/-- Ends the last line and every open block, then the input. Once the input has
ended, only the end is repeated. -/
def endTokens (lexer : Lexer) : List Token :=
  let make kind := lexer.layoutToken kind lexer.cursor lexer.cursor
  if lexer.last = some .endOfInput then
    [make .endOfInput]
  else
    (if lexer.lineIsOpen then [make .newline] else []) ++
      List.replicate lexer.indents.length (make .dedent) ++ [make .endOfInput]

def endInput (lexer : Lexer) : Lexer :=
  if lexer.last = some .endOfInput then lexer else { lexer with indents := [] }

/-- Parentheses in which line feeds do not count. -/
def depthAfter (depth : Nat) : TokenClass → Nat
  | .openParen => depth + 1
  | .closeParen => depth - 1
  | _ => depth

/-- The token that a scan found, or the error it met. -/
def finishScan (lexer : Lexer) (start : Cursor) (scan : Scan) :
    Except ScriptError (List Token) × Lexer :=
  match scan.outcome with
  | .ok (kind, payload) =>
      let lexeme := String.ofList (start.textTo scan.stop)
      (.ok [⟨kind, payload, lexeme, start.spanTo scan.stop lexer.file⟩],
        { lexer with cursor := scan.stop, depth := depthAfter lexer.depth kind })
  | .error (cause, errorStart) =>
      (.error (lexer.fail cause errorStart scan.stop), { lexer with cursor := scan.stop })

/-- Scans until at least one token is made. Each round without a token consumes
the line feed of a continued line. -/
def scanTokens : Nat → Lexer → Except ScriptError (List Token) × Lexer
  | 0, lexer => (.ok lexer.endTokens, lexer.endInput)
  | fuel + 1, lexer =>
      match if lexer.atLineStart then lexer.beginLine else (.ok [], lexer) with
      | (.error error, lexer) => (.error error, lexer)
      | (.ok (token :: tokens), lexer) => (.ok (token :: tokens), lexer)
      | (.ok [], lexer) =>
          let start := skipComment (lexer.cursor.skipWhile isSpace)
          let lexer := { lexer with cursor := start }
          match start.rest with
          | [] => (.ok lexer.endTokens, lexer.endInput)
          | char :: _ =>
              if char = '\n' then
                let stop := start.advance
                let lexer := { lexer with cursor := stop, atLineStart := true }
                if lexer.depth = 0 then
                  (.ok [⟨.newline, .nothing, "\\n", start.spanTo stop lexer.file⟩], lexer)
                else scanTokens fuel lexer
              else
                lexer.finishScan start (Scan.token (lexer.last == some .dot) start char)

/-- Takes the next waiting token. -/
def takePending (lexer : Lexer) : List Token → Except ScriptError Token × Lexer
  | [] =>
      (.ok (lexer.layoutToken .endOfInput lexer.cursor lexer.cursor),
        { lexer with pending := [], last := some .endOfInput })
  | token :: tokens => (.ok token, { lexer with pending := tokens, last := some token.kind })

/-- The next token, or an error; behind the end of input the end is repeated. -/
def next (lexer : Lexer) : Except ScriptError Token × Lexer :=
  match lexer.pending with
  | token :: tokens => lexer.takePending (token :: tokens)
  | [] =>
      match scanTokens (lexer.size + 1) lexer with
      | (.ok tokens, lexer) => lexer.takePending tokens
      | (.error error, lexer) => (.error error, lexer)

/-- Where an iteration over a lexer is. It is suspended behind each token that it gives. -/
inductive Iteration where
  /-- It was begun and not asked yet. -/
  | fresh
  /-- It gave a token, and not the end of input. -/
  | running
  /-- It gave the end of input and was not asked for more. -/
  | atEnd
  | ended
  /-- An error has ended it. -/
  | broken
deriving Repr, DecidableEq

/-- The next token for an iteration. -/
def step (lexer : Lexer) : Except ScriptError (Option Token) × Iteration × Lexer :=
  match lexer.next with
  | (.ok token, lexer) =>
      (.ok (some token), if token.kind = .endOfInput then .atEnd else .running, lexer)
  | (.error error, lexer) => (.error error, .broken, lexer)

/-- Asks an iteration for a token; it gives none if it ends. A new iteration looks whether the
lexer was read, and only one that is asked for more than the end of input marks it as read. -/
def resume (lexer : Lexer) : Iteration → Except ScriptError (Option Token) × Iteration × Lexer
  | .fresh => if lexer.finished then (.ok none, .ended, lexer) else lexer.step
  | .running => lexer.step
  | .atEnd => (.ok none, .ended, { lexer with finished := true })
  | .ended => (.ok none, .ended, lexer)
  | .broken => (.ok none, .broken, lexer)

/-- The tokens made up to the end of input or to the first error. -/
structure Reading where
  tokens : List Token
  failure : Option ScriptError
  lexer : Lexer

/-- Asks an iteration until it ends, at most `fuel` times. -/
def drain : Nat → Iteration → Lexer → Reading
  | 0, _, lexer => ⟨[], none, lexer⟩
  | fuel + 1, iteration, lexer =>
      match lexer.resume iteration with
      | (.error error, _, lexer) => ⟨[], some error, lexer⟩
      | (.ok none, _, lexer) => ⟨[], none, lexer⟩
      | (.ok (some token), iteration, lexer) =>
          let reading := drain fuel iteration lexer
          { reading with tokens := token :: reading.tokens }

/-- A bound on the tokens still to come: each character begins at most one token
and opens at most one block. -/
def tokenBound (lexer : Lexer) : Nat :=
  2 * lexer.size + lexer.indents.length + lexer.pending.length + 3

/-- Reads on with a new iteration until that ends. -/
def readAll (lexer : Lexer) : Reading := drain (lexer.tokenBound + 1) .fresh lexer

end Lexer

/-- All tokens of a source, with the error that ended them early if there is one. -/
def tokenize (source : String) (file : Option String) : Lexer.Reading :=
  (Lexer.ofText source file).readAll

end LayoutScript
