/-!
Line structure of source text. Tokens count lines by line feeds alone, while the
lines quoted in diagnostics end at every character that ends a line in Unicode.
-/

namespace LayoutScript.Text

/-- Replaces each carriage return that precedes a line feed by nothing. -/
def dropReturns : List Char → List Char
  | '\r' :: '\n' :: rest => '\n' :: dropReturns rest
  | char :: rest => char :: dropReturns rest
  | [] => []

/-- Turns every line end, a lone carriage return included, into a line feed. -/
def unifyReturns : List Char → List Char
  | '\r' :: '\n' :: rest => '\n' :: unifyReturns rest
  | '\r' :: rest => '\n' :: unifyReturns rest
  | char :: rest => char :: unifyReturns rest
  | [] => []

/-- The characters that end a quoted line. -/
def isLineEnd (char : Char) : Bool :=
  char == '\n' || char == '\r' || char == '\x0b' || char == '\x0c' ||
    char == '\x1c' || char == '\x1d' || char == '\x1e' || char == '\u0085' ||
    char == '\u2028' || char == '\u2029'

/-- Splits text into lines. `current` is the reversed line read so far and
`started` says whether an unfinished line counts. A return and a following line
feed end one line together. -/
def splitLines : List Char → List Char → Bool → List String
  | [], current, started => if started then [String.ofList current.reverse] else []
  | '\r' :: '\n' :: rest, current, _ =>
      String.ofList current.reverse :: splitLines rest [] false
  | char :: rest, current, _ =>
      if isLineEnd char then String.ofList current.reverse :: splitLines rest [] false
      else splitLines rest (char :: current) true

/-- The lines of a text, without their ends. A final line end starts no new line. -/
def lines (text : List Char) : List String := splitLines text [] false

end LayoutScript.Text
