import LayoutScript.Diagnostic.Cause
import LayoutScript.Number.Conversion
import LayoutScript.Text.Numeric
import LayoutScript.Token.Cursor

/-!
Scanning of single tokens that do not depend on layout: texts, numbers, words and
operators. A scan starts at a cursor, ends at a later one, and either gives a
class with a value or a cause with the place where it begins.
-/

namespace LayoutScript

/-- The result of scanning one token. The failure of a token keeps the cursor
where scanning gave up, so that scanning can go on from there. -/
structure Scan where
  outcome : Except (Cause × Cursor) (TokenClass × Literal)
  stop : Cursor

namespace Scan

def found (kind : TokenClass) (payload : Literal) (stop : Cursor) : Scan :=
  ⟨.ok (kind, payload), stop⟩

def failed (cause : Cause) (start stop : Cursor) : Scan := ⟨.error (cause, start), stop⟩

/-- The character that an escape denotes. -/
def escape? : Char → Option Char
  | 'n' => some '\n'
  | 't' => some '\t'
  | 'r' => some '\r'
  | '\\' => some '\\'
  | '"' => some '"'
  | '\'' => some '\''
  | '0' => some '\x00'
  | _ => none

/-- Scans a text behind its opening quote. `contents` is what was read so far, in
reverse order. -/
def stringBody (start : Cursor) (quote : Char) :
    List Char → Position → List Char → Scan
  | [], position, _ => failed .unterminatedString start ⟨[], position⟩
  | char :: rest, position, contents =>
      if char = quote then
        found .stringLiteral (.text (String.ofList contents.reverse)) ⟨rest, position.next char⟩
      else if char = '\n' then
        failed .unterminatedString start ⟨char :: rest, position⟩
      else if char = '\\' then
        let behind : Cursor := ⟨rest, position.next char⟩
        match rest with
        | [] => failed (.invalidEscape none) behind behind
        | escaped :: after =>
            if escaped = '\n' then
              failed (.invalidEscape none) behind behind
            else
              match escape? escaped with
              | some denoted =>
                  stringBody start quote after (behind.position.next escaped) (denoted :: contents)
              | none =>
                  failed (.invalidEscape (some escaped)) behind
                    ⟨after, behind.position.next escaped⟩
      else
        stringBody start quote rest (position.next char) (char :: contents)

/-- Scans a text; it ends at the quote that opened it. -/
def string (start : Cursor) : Scan :=
  match start.rest with
  | [] => failed .unterminatedString start start
  | quote :: rest => stringBody start quote rest (start.position.next quote) []

def isNameCharNext (char : Option Char) : Bool := char.any Text.isNameChar

/-- Where the fraction of a number ends, if there is one at the cursor: a point
with digits, or a point that no name or second point follows. -/
def fraction? (cursor : Cursor) : Option Cursor :=
  if cursor.peek? = some '.' then
    let next := cursor.peekSecond?
    if next.any Text.isDigit then some (cursor.advance.skipWhile Text.isDigit)
    else if isNameCharNext next || next = some '.' then none
    else some cursor.advance
  else none

/-- Where the float mark of a number ends, if there is one at the cursor. -/
def floatMark? (cursor : Cursor) : Option Cursor :=
  if cursor.peek? = some 'f' && !isNameCharNext cursor.peekSecond? then some cursor.advance
  else none

/-- The float that a numeral without exponent denotes. -/
def floatValue (whole fraction : List Char) : Binary64 :=
  .ofDecimal false (Numeral.value (whole ++ fraction)) (-(fraction.length : Int))

/-- Scans a number. Behind a dot only digits count, as they are a member index. -/
def number (afterDot : Bool) (start : Cursor) : Scan :=
  let wholeEnd := start.skipWhile Text.isDigit
  let fractionEnd := if afterDot then none else fraction? wholeEnd
  let beforeMark := fractionEnd.getD wholeEnd
  let markEnd := if afterDot then none else floatMark? beforeMark
  let stop := markEnd.getD beforeMark
  if isNameCharNext stop.peek? then
    let badEnd := stop.skipWhile Text.isNameChar
    failed (.invalidNumber (String.ofList (start.textTo badEnd))) start badEnd
  else
    let whole := start.textTo wholeEnd
    if fractionEnd.isSome || markEnd.isSome then
      let value := floatValue whole ((wholeEnd.textTo beforeMark).drop 1)
      if value.isFinite then found .floatLiteral (.float value) stop
      else failed (.invalidNumber (String.ofList (start.textTo stop))) start stop
    else
      found .intLiteral (.int (Numeral.parse whole)) stop

/-- The class and value of a word. -/
def wordToken (lexeme : String) : TokenClass × Literal :=
  match TokenClass.ofWord? lexeme with
  | some .boolLiteral => (.boolLiteral, .bool (lexeme == "true"))
  | some .noneLiteral => (.noneLiteral, .nothing)
  | some kind => (kind, .text lexeme)
  | none => (.identifier, .text lexeme)

def word (start : Cursor) : Scan :=
  let stop := start.skipWhile Text.isNameChar
  ⟨.ok (wordToken (String.ofList (start.textTo stop))), stop⟩

/-- The operator spelled by a character and the one behind it, and whether it takes
both. -/
def operator? (first : Char) (second : Option Char) : Option (TokenClass × Bool) :=
  match first with
  | '=' => some (if second = some '=' then (.equal, true) else (.assign, false))
  | '!' => some (if second = some '=' then (.notEqual, true) else (.notWord, false))
  | '<' => some (if second = some '=' then (.lessEqual, true) else (.less, false))
  | '>' => some (if second = some '=' then (.greaterEqual, true) else (.greater, false))
  | ':' => some (if second = some '=' then (.walrus, true) else (.colon, false))
  | '*' => some (if second = some '*' then (.doubleStar, true) else (.star, false))
  | '(' => some (.openParen, false)
  | ')' => some (.closeParen, false)
  | '+' => some (.plus, false)
  | '-' => some (.minus, false)
  | '/' => some (.slash, false)
  | '%' => some (.percent, false)
  | ',' => some (.comma, false)
  | '.' => some (.dot, false)
  | '?' => some (.question, false)
  | ';' => some (.semicolon, false)
  | _ => none

def operator (start : Cursor) (first : Char) : Scan :=
  match operator? first start.peekSecond? with
  | some (kind, double) =>
      let stop := if double then start.advance.advance else start.advance
      found kind (.text (String.ofList (start.textTo stop))) stop
  | none => failed (.unexpectedCharacter first) start start.advance

/-- Scans the token that starts with the character at the cursor. -/
def token (afterDot : Bool) (start : Cursor) (first : Char) : Scan :=
  if first = '"' || first = '\'' then string start
  else if Text.isDigit first then number afterDot start
  else if Text.isNameStart first then word start
  else operator start first

end Scan

end LayoutScript
