import LayoutScript.Settings.Quotation

/-!
The block structure of a settings file: scalars, lists of items behind minus signs,
and mappings. What belongs together is known by its column. A number sign starts a
comment where a blank or a quoted text precedes it.
-/

namespace LayoutScript.Settings

/-- A part of a document before its plain texts are understood. -/
inductive Node where
  | plain (text : List Char)
  | quoted (text : List Char)
  | list (items : List Node)
  | mapping (entries : List (Node × Node))
deriving Repr, Inhabited

/-- What is left of a document, and the column in which it starts. -/
structure Remainder where
  column : Nat
  text : List Char
deriving Repr, Inhabited

/-- Passes blanks, line ends and comments. -/
def skipComments : Bool → Nat → List Char → Remainder
  | _, column, [] => ⟨column, []⟩
  | inComment, column, char :: rest =>
      if (lineEnd? char).isSome then skipComments false 0 rest
      else if inComment || char = ' ' then skipComments inComment (column + 1) rest
      else if char = '#' then skipComments true (column + 1) rest
      else ⟨column, char :: rest⟩

namespace Remainder

/-- The remainder that starts at the next visible character. -/
def skip (remainder : Remainder) : Remainder :=
  skipComments false remainder.column remainder.text

/-- The remainder after all characters in front of `rest`, a tail of it. -/
def goTo (remainder : Remainder) (rest : List Char) : Remainder :=
  let passed := remainder.text.take (remainder.text.length - rest.length)
  let step (column : Nat) (char : Char) : Nat :=
    if (lineEnd? char).isSome then 0 else column + 1
  ⟨passed.foldl step remainder.column, rest⟩

end Remainder

/-- A mark counts only if a blank or nothing follows it. -/
def endsMark : List Char → Bool
  | [] => true
  | char :: _ => char = ' ' || char = '\t' || (lineEnd? char).isSome

/-- What follows the minus sign of a list item. -/
def behindMinus? : List Char → Option (List Char)
  | '-' :: rest => if endsMark rest then some rest else none
  | _ => none

/-- What follows the colon behind a key. -/
def behindColon? (text : List Char) : Option (List Char) :=
  match text.dropWhile (· = ' ') with
  | ':' :: rest => if endsMark rest then some rest else none
  | _ => none

/-- Whether a plain text ends in front of a character behind a gap. -/
def endsPlain (floor column : Nat) (gap : Gap) (char : Char) (rest : List Char) : Bool :=
  char = '\t' || (char = ':' && endsMark rest) ||
    match gap with
    | .blanks blanks => char = '#' && !blanks.isEmpty
    | .lines _ _ => char = '#' || column < floor

/-- Reads a plain text, which goes on in lines that start at `floor` or further right;
`after` is what follows the characters read so far. Gives the text and what follows. -/
def readPlain (floor : Nat) : Nat → Gap → List Char → List Char → List Char × List Char
  | _, _, after, [] => ([], after)
  | column, gap, after, char :: rest =>
      match lineEnd? char with
      | some lineEnd => readPlain floor 0 (gap.addLine lineEnd) after rest
      | none =>
          if char = ' ' then readPlain floor (column + 1) (gap.addBlank char) after rest
          else if endsPlain floor column gap char rest then ([], after)
          else
            let (text, after) := readPlain floor (column + 1) .empty rest rest
            (gap.text ++ char :: text, after)

/-- Reads the scalar at the start of a remainder. -/
def readScalar (floor : Nat) (start : Remainder) : Node × Remainder :=
  match start.text with
  | '\'' :: rest =>
      let (text, after) := readSingle .empty rest
      (.quoted text, start.goTo after)
  | '"' :: rest =>
      let (text, after) := readDouble .outside .empty rest
      (.quoted text, start.goTo after)
  | all =>
      let (text, after) := readPlain floor start.column .empty all all
      (.plain text, start.goTo after)

mutual

/-- Reads what starts at `floor` or further right; if nothing does, the node is
empty. -/
def readNode : Nat → Nat → Remainder → Node × Remainder
  | 0, _, remainder => (.plain [], remainder)
  | fuel + 1, floor, remainder =>
      let start := remainder.skip
      if start.text.isEmpty || start.column < floor then (.plain [], start)
      else if (behindMinus? start.text).isSome then
        let (items, after) := readItems fuel start.column start
        (.list items, after)
      else
        let (scalar, after) := readScalar floor start
        match behindColon? after.text with
        | none => (scalar, after)
        | some value =>
            let (entries, after) := readEntries fuel start.column scalar (after.goTo value)
            (.mapping entries, after)

/-- Reads the items whose minus signs stand in a column. -/
def readItems : Nat → Nat → Remainder → List Node × Remainder
  | 0, _, remainder => ([], remainder)
  | fuel + 1, column, remainder =>
      let start := remainder.skip
      match behindMinus? start.text with
      | none => ([], start)
      | some rest =>
          if start.column = column then
            let (item, after) := readNode fuel (column + 1) (start.goTo rest)
            let (items, after) := readItems fuel column after
            (item :: items, after)
          else ([], start)

/-- Reads the value of a key in a column, and then the further entries of that column.
Items of a list that is a value may stand in the column of its key. -/
def readEntries : Nat → Nat → Node → Remainder → List (Node × Node) × Remainder
  | 0, _, _, remainder => ([], remainder)
  | fuel + 1, column, key, remainder =>
      let start := remainder.skip
      let floor := if (behindMinus? start.text).isSome then column else column + 1
      let (value, after) := readNode fuel floor start
      let next := after.skip
      if next.text.isEmpty || next.column ≠ column then ([(key, value)], next)
      else
        let (nextKey, behind) := readScalar (column + 1) next
        match behindColon? behind.text with
        | none => ([(key, value)], next)
        | some rest =>
            let (entries, after) := readEntries fuel column nextKey (behind.goTo rest)
            ((key, value) :: entries, after)

end

/-- Reads a whole document. Every level of the reading passes a character, so twice
the length of the text is fuel enough. -/
def Node.ofText (text : List Char) : Node :=
  (readNode (2 * text.length + 2) 0 ⟨0, text⟩).1

end LayoutScript.Settings
