import LayoutScript.Source.Span

/-!
A cursor is a position together with the characters that lie ahead of it. It only
moves forward, and only over characters that are there.
-/

namespace LayoutScript

structure Cursor where
  rest : List Char
  position : Position
deriving Repr, DecidableEq, Inhabited

namespace Cursor

def ofText (text : List Char) : Cursor := ⟨text, .start⟩

def peek? (cursor : Cursor) : Option Char := cursor.rest.head?

/-- The character behind the next one. -/
def peekSecond? (cursor : Cursor) : Option Char := cursor.rest.tail.head?

/-- Moves over one character, if there is one. -/
def advance (cursor : Cursor) : Cursor :=
  match cursor.rest with
  | [] => cursor
  | char :: rest => ⟨rest, cursor.position.next char⟩

/-- Moves over the characters of a class, up to the first one outside it. -/
def skipFrom (accepts : Char → Bool) : List Char → Position → Cursor
  | [], position => ⟨[], position⟩
  | char :: rest, position =>
      if accepts char then skipFrom accepts rest (position.next char) else ⟨char :: rest, position⟩

def skipWhile (cursor : Cursor) (accepts : Char → Bool) : Cursor :=
  skipFrom accepts cursor.rest cursor.position

/-- The characters between a cursor and a later one of the same text. -/
def textTo (start stop : Cursor) : List Char :=
  start.rest.take (stop.position.offset - start.position.offset)

/-- The range between two cursors of one source. -/
def spanTo (start stop : Cursor) (file : Option String) : Span :=
  ⟨file, start.position, stop.position⟩

end Cursor

end LayoutScript
