import LayoutScript.Number.Numeral

/-!
Positions in a source text and the ranges between them. Lines and columns count
from one, offsets from zero, and all of them count characters.
-/

namespace LayoutScript

structure Position where
  line : Nat
  column : Nat
  offset : Nat
deriving Repr, DecidableEq, Inhabited

namespace Position

def start : Position := ⟨1, 1, 0⟩

/-- The position behind one character; only a line feed starts a line. -/
def next (position : Position) (char : Char) : Position :=
  if char = '\n' then ⟨position.line + 1, 1, position.offset + 1⟩
  else ⟨position.line, position.column + 1, position.offset + 1⟩

/-- Line and column, as locations are written. -/
def text (position : Position) : String :=
  Numeral.ofNat position.line ++ ":" ++ Numeral.ofNat position.column

end Position

/-- A range of a source, which may have a name. -/
structure Span where
  file : Option String
  start : Position
  stop : Position
deriving Repr, DecidableEq, Inhabited

namespace Span

/-- From the start of one range to the end of another. -/
def join (first last : Span) : Span := ⟨first.file, first.start, last.stop⟩

/-- The source name and a colon; an empty name counts as none. -/
def fileText (span : Span) : String :=
  match span.file with
  | some name => if name.isEmpty then "" else name ++ ":"
  | none => ""

/-- The start of a range, with the source name if there is one. -/
def startText (span : Span) : String := span.fileText ++ span.start.text

def text (span : Span) : String := span.startText ++ "-" ++ span.stop.text

end Span

end LayoutScript
